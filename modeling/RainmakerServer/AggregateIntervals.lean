import Mathlib.Data.Nat.Digits.Defs
import RainmakerServer.UserNodes

/-!
Which aggregation intervals can be used. An interval is spelled as digits and a
unit. The expression that accepts it bounds the number neither from below nor
from above, while a bucket has a positive width and a `timedelta` an upper end.
-/
namespace RainmakerServer.AggregateIntervals
open Tsdata UserNodes Access

/-! The spelling of an interval. -/

def Spelled (pf : Platform) (spec : Text) (digits : List Nat) (unit : Nat) : Prop :=
  ∃ body letter, strip spec = body ++ [letter] ∧ body.map pf.decimalDigit = digits.map some ∧
    digits ≠ [] ∧ unitSeconds letter = some unit

def denoted (digits : List Nat) : Nat := Nat.ofDigits 10 digits.reverse

/-- Whatever the interval spells out as an `int`, it is a width that exists. -/
def WithinRange (pf : Platform) (spec : Text) : Prop :=
  ∀ digits unit, Spelled pf spec digits unit → digits.length ≤ 4300 →
    1 ≤ denoted digits ∧ denoted digits ≤ 999999999

variable {pf : Platform} {spec : Text} {digits : List Nat} {unit : Nat}

theorem digits_of_some_iff {s : Text} :
    digitsOf pf s = some digits ↔ s.map pf.decimalDigit = digits.map some := by
  induction s generalizing digits with
  | nil =>
    cases digits with
    | nil => simp [digitsOf]
    | cons d ds => simp [digitsOf]
  | cons c cs ih =>
    unfold digitsOf
    cases digits with
    | nil =>
      simp only [List.map_cons, List.map_nil, List.cons_ne_nil, iff_false]
      cases pf.decimalDigit c <;> cases digitsOf pf cs <;> simp
    | cons d ds =>
      rw [List.map_cons,List.map_cons,List.cons.injEq,← ih]
      cases pf.decimalDigit c <;> cases digitsOf pf cs <;> simp

theorem denoted_eq (digits : List Nat) :
    denoted digits = digits.foldl (fun acc d => acc * 10 + d) 0 := by
  unfold denoted
  rw [Nat.ofDigits_eq_foldr,List.foldr_reverse]
  congr 1
  funext acc d
  simp only [Nat.cast_id]
  omega

theorem parse_spelled (spelled : Spelled pf spec digits unit) :
    parseInterval pf spec =
      if 4300 < digits.length then .error (.valueError (tooManyDigits digits.length))
      else if 999999999 < denoted digits then .error (.other .overflowError)
      else .ok (denoted digits * unit) := by
  obtain ⟨body,letter,stripped,read,some_digit,named⟩ := spelled
  have last : (body ++ [letter]).getLast?.bind unitSeconds = some unit := by
    rw [List.getLast?_concat]
    exact named
  have before : digitsOf pf (body ++ [letter]).dropLast = some digits := by
    rw [List.dropLast_concat]
    exact digits_of_some_iff.mpr read
  have filled : digits.isEmpty = false := by
    cases digits with
    | nil => exact absurd rfl some_digit
    | cons d ds => rfl
  unfold parseInterval
  simp only [stripped, last, before, filled, denoted_eq, Bool.false_eq_true, if_false]

example : parseInterval Deployment.platform " 90m" = .ok 5400 := by decide

theorem parse_not_spelled (unspelled : ∀ digits unit, ¬ Spelled pf spec digits unit) :
    parseInterval pf spec =
      .error (.valueError (("Invalid interval: " : Text) ++ pf.reprOf spec)) := by
  unfold parseInterval
  dsimp only
  cases last : (strip spec).getLast?.bind unitSeconds with
  | none => rfl
  | some unit =>
    cases before : digitsOf pf (strip spec).dropLast with
    | none => rfl
    | some digits =>
      dsimp only
      split
      · rfl
      · rename_i filled
        obtain ⟨letter,ended,named⟩ := Option.bind_eq_some_iff.mp last
        exfalso
        apply unspelled digits unit
        refine ⟨(strip spec).dropLast,letter,?_,digits_of_some_iff.mp before,?_,named⟩
        · exact (List.dropLast_append_getLast? letter ended).symm
        · intro empty
          rw [empty] at filled
          exact filled rfl

/-! The route. -/

structure Reaches (pf : Platform) (db : Db) (userId : Uuid) (nodeId param : Text)
    (startTime endTime : Int) (aggregate : Option Text) (spec : Text) : Prop where
  access : requireAccess db userId nodeId = .ok ()
  first : ∃ ts, timestamp pf startTime = .ok ts
  last : ∃ ts, timestamp pf endTime = .ok ts
  name : ∃ deviceName paramName, Split.cut '.' param = some (deviceName,paramName) ∧
    bindable nodeId = true ∧ bindable deviceName = true ∧ bindable paramName = true
  aggregated : ∃ name, given aggregate = some name
  interval : spec ≠ []

section
variable {ts : Timescale} {db : Db} {userId : Uuid} {nodeId param : Text}
  {startTime endTime : Int} {aggregate : Option Text} {numRecords : NumRecords}

theorem interval_error_read {e : QueryExc}
    (reaches : Reaches pf db userId nodeId param startTime endTime aggregate spec)
    (failed : parseInterval pf spec = .error e) :
    readRecords pf ts db nodeId param startTime endTime aggregate (some spec) numRecords =
      .error e := by
  obtain ⟨first,begun⟩ := reaches.first
  obtain ⟨last,ended⟩ := reaches.last
  obtain ⟨deviceName,paramName,named,onNode,onDevice,onParam⟩ := reaches.name
  obtain ⟨name,aggregated⟩ := reaches.aggregated
  have interval : given (some spec) = some spec := by
    cases spec with
    | nil => exact absurd rfl reaches.interval
    | cons c cs => rfl
  have queried : queryTsdata pf ts db.tsdata
      ⟨nodeId,param,first,last,aggregate,some spec,numRecords⟩ = .error e := by
    unfold queryTsdata
    simp only [named, onNode, onDevice, onParam, aggregated, interval, failed, Bool.and_self,
      Bool.true_eq_false, if_false]
  unfold readRecords
  rw [begun,ended]
  exact queried

theorem refused_interval_answered {text : Text}
    (reaches : Reaches pf db userId nodeId param startTime endTime aggregate spec)
    (refused : parseInterval pf spec = .error (.valueError text)) :
    getTsdata pf ts db userId nodeId param startTime endTime aggregate (some spec) numRecords =
      .error (invalidRequest text) := by
  unfold getTsdata
  rw [reaches.access,interval_error_read reaches refused]
  rfl

theorem escaping_interval_answered {exc : Exc}
    (reaches : Reaches pf db userId nodeId param startTime endTime aggregate spec)
    (escapes : parseInterval pf spec = .error (.other exc)) :
    getTsdata pf ts db userId nodeId param startTime endTime aggregate (some spec) numRecords =
      .error exc := by
  unfold getTsdata
  rw [reaches.access,interval_error_read reaches escapes]
  rfl

theorem large_interval_escapes
    (reaches : Reaches pf db userId nodeId param startTime endTime aggregate spec)
    (spelled : Spelled pf spec digits unit) (short : digits.length ≤ 4300)
    (large : 999999999 < denoted digits) :
    getTsdata pf ts db userId nodeId param startTime endTime aggregate (some spec) numRecords =
      .error .overflowError := by
  have parsed := parse_spelled spelled
  rw [if_neg (Nat.not_lt.mpr short),if_pos large] at parsed
  exact escaping_interval_answered reaches parsed

end

/-! Intervals that can be used. -/

def Refused (pf : Platform) (spec : Text) : Prop :=
  ∃ text, parseInterval pf spec = .error (.valueError text) ∧
    ∀ ts db userId nodeId param startTime endTime aggregate numRecords,
      Reaches pf db userId nodeId param startTime endTime aggregate spec →
        getTsdata pf ts db userId nodeId param startTime endTime aggregate (some spec) numRecords =
          .error (invalidRequest text)

def Accepted (pf : Platform) (spec : Text) : Prop :=
  ∃ digits unit, Spelled pf spec digits unit ∧
    parseInterval pf spec = .ok (denoted digits * unit) ∧ 0 < denoted digits * unit

def Usable (pf : Platform) (spec : Text) : Prop := Refused pf spec ∨ Accepted pf spec

theorem unit_seconds_pos {letter : Char} (named : unitSeconds letter = some unit) : 0 < unit := by
  unfold unitSeconds at named
  split_ifs at named <;> cases named <;> decide

theorem spelled_unit_pos (spelled : Spelled pf spec digits unit) : 0 < unit := by
  obtain ⟨body,letter,-,-,-,named⟩ := spelled
  exact unit_seconds_pos named

theorem refused_of_value_error {text : Text}
    (failed : parseInterval pf spec = .error (.valueError text)) : Refused pf spec :=
  ⟨text,failed,fun _ _ _ _ _ _ _ _ _ reaches => refused_interval_answered reaches failed⟩

theorem unusable_of_zero (parsed : parseInterval pf spec = .ok 0) : ¬ Usable pf spec := by
  intro usable
  rcases usable with ⟨text,failed,-⟩ | ⟨digits,unit,-,accepted,positive⟩
  · rw [parsed] at failed
    cases failed
  · rw [parsed] at accepted
    have zero : 0 = denoted digits * unit := Except.ok.inj accepted
    omega

theorem unusable_of_escape {exc : Exc} (escapes : parseInterval pf spec = .error (.other exc)) :
    ¬ Usable pf spec := by
  intro usable
  rcases usable with ⟨text,failed,-⟩ | ⟨digits,unit,-,accepted,-⟩
  · rw [escapes] at failed
    cases failed
  · rw [escapes] at accepted
    cases accepted

theorem within_range_of_usable (usable : Usable pf spec) : WithinRange pf spec := by
  intro digits unit spelled short
  have parsed := parse_spelled spelled
  rw [if_neg (Nat.not_lt.mpr short)] at parsed
  have small : ¬ 999999999 < denoted digits := by
    intro large
    rw [if_pos large] at parsed
    exact unusable_of_escape parsed usable
  have nonzero : denoted digits ≠ 0 := by
    intro zero
    rw [if_neg small,zero,Nat.zero_mul] at parsed
    exact unusable_of_zero parsed usable
  omega

theorem usable_of_within_range (within : WithinRange pf spec) : Usable pf spec := by
  by_cases known : ∃ digits unit, Spelled pf spec digits unit
  · obtain ⟨digits,unit,spelled⟩ := known
    have parsed := parse_spelled spelled
    by_cases long : 4300 < digits.length
    · rw [if_pos long] at parsed
      exact Or.inl (refused_of_value_error parsed)
    · obtain ⟨lower,upper⟩ := within digits unit spelled (Nat.not_lt.mp long)
      rw [if_neg long,if_neg (Nat.not_lt.mpr upper)] at parsed
      exact Or.inr ⟨digits,unit,spelled,parsed,Nat.mul_pos lower (spelled_unit_pos spelled)⟩
  · have unspelled : ∀ digits unit, ¬ Spelled pf spec digits unit :=
      fun digits unit spelled => known ⟨digits,unit,spelled⟩
    exact Or.inl (refused_of_value_error (parse_not_spelled unspelled))

theorem usable_iff_within_range (pf : Platform) (spec : Text) :
    Usable pf spec ↔ WithinRange pf spec :=
  ⟨within_range_of_usable,usable_of_within_range⟩

/-- An interval of no width is accepted, and a number of seconds that is no number
    of days fails otherwise than with a `ValueError`. -/
theorem zero_and_large_not_usable :
    (parseInterval Deployment.platform "0s" = .ok 0 ∧ ¬ Usable Deployment.platform "0s") ∧
    (parseInterval Deployment.platform "1000000000s" = .error (.other .overflowError) ∧
      ¬ Usable Deployment.platform "1000000000s") := by
  have zero : parseInterval Deployment.platform "0s" = .ok 0 := by decide
  have large : parseInterval Deployment.platform "1000000000s" =
      .error (.other .overflowError) := by decide
  exact ⟨⟨zero,unusable_of_zero zero⟩,⟨large,unusable_of_escape large⟩⟩

end RainmakerServer.AggregateIntervals
