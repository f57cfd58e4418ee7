import Mathlib.Data.List.Perm.Subperm
import Mathlib.Data.Rat.Defs
import RainmakerServer.Lib.Dict

/-!
JSON documents as the server's language holds them after parsing. Equality of
documents is that language's `==`: booleans and numbers compare by value, and
objects compare without regard to the order of their keys. NaN and the
infinities are parsed although JSON has none; a JSONB column refuses them, and
refuses the NUL character.
-/
namespace RainmakerServer

abbrev Text := List Char

instance : Coe String Text := ⟨String.toList⟩

inductive PyFloat where
  | fin (q : Rat)
  | inf (negative : Bool)
  | nan
  deriving DecidableEq

inductive Json where
  | null
  | bool (b : Bool)
  | int (i : Int)
  | float (f : PyFloat)
  | str (s : Text)
  | arr (items : List Json)
  | obj (fields : List (Text × Json))

abbrev JsonObject := List (Text × Json)

namespace Json

def number? : Json → Option PyFloat
  | .bool b => some (.fin (if b then 1 else 0))
  | .int i => some (.fin i)
  | .float f => some f
  | _ => none

def floatEq : PyFloat → PyFloat → Bool
  | .fin p, .fin q => p == q
  | .inf a, .inf b => a == b
  | _, _ => false

mutual
def pyEq : Json → Json → Bool
  | .null, .null => true
  | .str a, .str b => a == b
  | .arr xs, .arr ys => pyEqItems xs ys
  | .obj d, .obj e => d.length == e.length && pyEqFields d e
  | .bool a, w => numEq (.bool a) w
  | .int a, w => numEq (.int a) w
  | .float a, w => numEq (.float a) w
  | _, _ => false
def pyEqItems : List Json → List Json → Bool
  | [], [] => true
  | x :: xs, y :: ys => pyEq x y && pyEqItems xs ys
  | _, _ => false
def pyEqFields : List (Text × Json) → List (Text × Json) → Bool
  | [], _ => true
  | (k,v) :: d, e => (match Dict.get? k e with
    | some w => pyEq v w
    | none => false) && pyEqFields d e
def numEq : Json → Json → Bool
  | v, w => match number? v, number? w with
    | some a, some b => floatEq a b
    | _, _ => false
end

def truthy : Json → Bool
  | .null => false
  | .bool b => b
  | .int i => i != 0
  | .float (.fin q) => q != 0
  | .float _ => true
  | .str s => !s.isEmpty
  | .arr xs => !xs.isEmpty
  | .obj d => !d.isEmpty

def orElse (v empty : Json) : Json := if v.truthy then v else empty

mutual
def storable : Json → Bool
  | .null => true
  | .bool _ => true
  | .int _ => true
  | .float (.fin _) => true
  | .float _ => false
  | .str s => !s.contains '\x00'
  | .arr xs => storableItems xs
  | .obj d => storableFields d
def storableItems : List Json → Bool
  | [] => true
  | x :: xs => storable x && storableItems xs
def storableFields : List (Text × Json) → Bool
  | [] => true
  | (k,v) :: d => !k.contains '\x00' && storable v && storableFields d
end

mutual
/-- What `ORJSONResponse` renders: integers of 64 bits, signed or unsigned, and
    no more than `levels` nested arrays and objects. -/
def rendered (levels : Nat) : Json → Bool
  | .int i => decide (-9223372036854775808 ≤ i ∧ i ≤ 18446744073709551615)
  | .arr xs => match levels with
    | 0 => false
    | k + 1 => renderedItems k xs
  | .obj d => match levels with
    | 0 => false
    | k + 1 => renderedFields k d
  | _ => true
def renderedItems (levels : Nat) : List Json → Bool
  | [] => true
  | x :: xs => rendered levels x && renderedItems levels xs
def renderedFields (levels : Nat) : List (Text × Json) → Bool
  | [] => true
  | (_,v) :: d => rendered levels v && renderedFields levels d
end

def renderedObject (d : JsonObject) : Bool := rendered 254 (.obj d)

theorem pyEqFields_get {d e : JsonObject} (same : pyEqFields d e = true) {k : Text} {v : Json}
    (found : Dict.get? k d = some v) : ∃ w, Dict.get? k e = some w ∧ pyEq v w = true := by
  induction d with
  | nil => cases found
  | cons p d ih =>
    obtain ⟨a,b⟩ := p
    simp only [pyEqFields, Bool.and_eq_true] at same
    simp only [Dict.get?] at found
    split at found
    · rename_i here
      cases found
      subst a
      cases target : Dict.get? k e with
      | none => simp [target] at same
      | some w =>
        simp only [target] at same
        exact ⟨w,rfl,same.1⟩
    · exact ih same.2 found

theorem pyEq_obj_left {d : JsonObject} {w : Json} (same : pyEq (.obj d) w = true) :
    ∃ e, w = .obj e ∧ pyEqFields d e = true := by
  cases w with
  | obj e =>
    simp only [pyEq, Bool.and_eq_true] at same
    exact ⟨e,rfl,same.2⟩
  | null => simp [pyEq] at same
  | bool b => simp [pyEq] at same
  | int i => simp [pyEq] at same
  | float f => simp [pyEq] at same
  | str s => simp [pyEq] at same
  | arr xs => simp [pyEq] at same

theorem storableFields_iff {d : JsonObject} : storableFields d = true ↔
    ∀ p ∈ d, (p.1.contains '\x00' = false) ∧ storable p.2 = true := by
  induction d with
  | nil => simp [storableFields]
  | cons p d ih => simp [storableFields, ih, and_assoc]

end Json

example : Json.pyEq (.obj [("on",.bool true),("level",.int 3)])
    (.obj [("level",.float (.fin 3)),("on",.int 1)]) = true := by decide

end RainmakerServer
