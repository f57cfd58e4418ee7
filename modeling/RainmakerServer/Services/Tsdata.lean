import RainmakerServer.Lib.Split
import RainmakerServer.Services.Nodes

/-!
Time-series queries. Rows of one series are read in the order of their
timestamps; rows with the same timestamp come in the order of the table, where
the database promises none. What the database computes over a group of values
is a parameter.
-/
namespace RainmakerServer.Tsdata

/-! Intervals. -/

def unitSeconds (unit : Char) : Option Nat :=
  if unit = 's' then some 1
  else if unit = 'm' then some 60
  else if unit = 'h' then some 3600
  else if unit = 'd' then some 86400
  else none

inductive QueryExc where
  | valueError (text : Text)
  | other (e : Exc)
  deriving DecidableEq

def digitsOf (pf : Platform) : Text → Option (List Nat)
  | [] => some []
  | c :: cs => match pf.decimalDigit c, digitsOf pf cs with
    | some d, some ds => some (d :: ds)
    | _, _ => none

/-- What `int` says about more than 4300 digits. -/
def tooManyDigits (n : Nat) : Text :=
  ("Exceeds the limit (4300 digits) for integer string conversion: value has " : Text) ++
    decimal n ++ " digits; use sys.set_int_max_str_digits() to increase the limit"

/-- `_parse_interval`, in seconds. More than 4300 digits are no `int`. The number
    is made a `timedelta` of every unit before one is picked, days among them, and
    a `timedelta` has at most 999999999 days. -/
def parseInterval (pf : Platform) (spec : Text) : Except QueryExc Nat :=
  let invalid : QueryExc := .valueError (("Invalid interval: " : Text) ++ pf.reprOf spec)
  let stripped := strip spec
  match stripped.getLast?.bind unitSeconds, digitsOf pf stripped.dropLast with
  | some unit, some digits =>
    if digits.isEmpty then .error invalid
    else if 4300 < digits.length then .error (.valueError (tooManyDigits digits.length))
    else
      let n := digits.foldl (fun acc d => acc * 10 + d) 0
      if 999999999 < n then .error (.other .overflowError) else .ok (n * unit)
  | _, _ => .error invalid

/-! Values. -/

inductive Column where
  | valueInt
  | valueFloat
  | valueBool
  | valueStr
  deriving DecidableEq

def valueColumn (dt : Text) : Column :=
  if dt = "int".toList then .valueInt
  else if dt = "float".toList ∨ dt = "number".toList then .valueFloat
  else if dt = "bool".toList then .valueBool
  else .valueStr

inductive Value where
  | null
  | int (i : Int)
  | float (f : PyFloat)
  | bool (b : Bool)
  | str (s : Text)
  deriving DecidableEq

def orNull {α : Type} (f : α → Value) : Option α → Value
  | none => .null
  | some v => f v

def Column.read : Column → TsData → Value
  | .valueInt, r => orNull .int r.valueInt
  | .valueFloat, r => orNull .float r.valueFloat
  | .valueBool, r => orNull .bool r.valueBool
  | .valueStr, r => orNull .str r.valueStr

structure Record where
  t : Int
  v : Value
  deriving DecidableEq

/-! Queries. -/

inductive Aggregate where
  | avg
  | min
  | max
  | sum
  deriving DecidableEq

def aggregateOf (pf : Platform) (name : Text) : Option Aggregate :=
  let lower := pf.lower name
  if lower = "avg".toList then some .avg
  else if lower = "min".toList then some .min
  else if lower = "max".toList then some .max
  else if lower = "sum".toList then some .sum
  else none

/-- What the database does in an aggregation: it finds the function for the
    type of a column, truncates timestamps, and computes over a group. -/
structure Timescale where
  defined : Aggregate → Column → Option Exc
  timeBucket : Nat → Int → Except Exc Int
  aggregate : Aggregate → List Value → Except Exc Value

def series (points : List TsData) (nodeId deviceName paramName : Text) : List TsData :=
  (points.filter fun r => r.nodeId == nodeId && r.deviceName == deviceName &&
    r.paramName == paramName).mergeSort fun a b => decide (a.ts ≤ b.ts)

def dataType (points : List TsData) (nodeId deviceName paramName : Text) : Text :=
  match (points.filter fun r => r.nodeId == nodeId && r.deviceName == deviceName &&
      r.paramName == paramName).mergeSort fun a b => decide (b.ts ≤ a.ts) with
  | [] => "int"
  | r :: _ => r.dataType

def bucketsOf (db : Timescale) (width : Nat) : List TsData → Except Exc (List (Int × TsData))
  | [] => .ok []
  | r :: rest => match db.timeBucket width r.ts with
    | .error e => .error e
    | .ok bucket => (bucketsOf db width rest).map fun rs => (bucket,r) :: rs

def aggregateAll (db : Timescale) (agg : Aggregate) (column : Column)
    (rows : List (Int × TsData)) : List Int → Except Exc (List Record)
  | [] => .ok []
  | bucket :: rest =>
    let group := (rows.filter fun p => p.1 == bucket).map fun p => column.read p.2
    match db.aggregate agg group with
    | .error e => .error e
    | .ok v => (aggregateAll db agg column rows rest).map fun rs => ⟨bucket,v⟩ :: rs

def limited {α : Type} (limit : Int) (rows : List α) : Except QueryExc (List α) :=
  if limit < 0 then .error (.other (.database .dataError)) else .ok (rows.take limit.toNat)

structure Query where
  nodeId : Text
  param : Text
  startTime : Int
  endTime : Int
  aggregate : Option Text := none
  aggregateInterval : Option Text := none
  limit : Int := 200

def given (arg : Option Text) : Option Text :=
  match arg with
  | some [] => none
  | other => other

def queryTsdata (pf : Platform) (db : Timescale) (points : List TsData) (q : Query) :
    Except QueryExc (List Record) :=
  match Split.cut '.' q.param with
  | none => .error (.valueError "param must be `Device.param`")
  | some (deviceName,paramName) =>
    if (bindable q.nodeId && bindable deviceName && bindable paramName) = false then
      .error (.other (.database .dataError))
    else
    let column := valueColumn (dataType points q.nodeId deviceName paramName)
    let rows := (series points q.nodeId deviceName paramName).filter fun r =>
      decide (q.startTime ≤ r.ts) && decide (r.ts ≤ q.endTime)
    match given q.aggregate, given q.aggregateInterval with
    | some aggregate, some interval => match parseInterval pf interval with
      | .error e => .error e
      | .ok width => match aggregateOf pf aggregate with
        | none => .error (.valueError (("Unsupported aggregate " : Text) ++ aggregate))
        | some agg => match db.defined agg column, bucketsOf db width rows with
          | some e, _ => .error (.other e)
          | none, .error e => .error (.other e)
          | none, .ok bucketed =>
            let buckets := (bucketed.map (·.1)).eraseDups.mergeSort fun a b => decide (a ≤ b)
            match aggregateAll db agg column bucketed buckets with
            | .error e => .error (.other e)
            | .ok records => limited q.limit records
    | _, _ => limited q.limit (rows.map fun r => ⟨r.ts,column.read r⟩)

end RainmakerServer.Tsdata
