import Mathlib.Data.List.DropRight
import RainmakerServer.Json
import RainmakerServer.Lib.Table

/-!
Errors, settings and the functions the server takes from its platform. Time is
counted in microseconds. The platform functions are parameters: string
lowering, HMAC, base64, the X.509 library, password hashing, JWT and JSON
parsing are used through the fields below and through the stated laws only.
-/
namespace RainmakerServer
open Tables

abbrev Bytes := List UInt8
abbrev Uuid := Nat
abbrev Time := Int

def seconds (n : Int) : Time := n * 1000000
def minutes (n : Int) : Time := seconds (60 * n)
def hours (n : Int) : Time := minutes (60 * n)
def days (n : Int) : Time := hours (24 * n)

inductive Exc where
  | rainmakerError (httpStatus errorCode : Nat) (description : Text)
  | database (fault : Fault)
  | typeError
  | valueError
  | keyError
  | attributeError
  | overflowError
  | osError
  /-- `jwt.ExpiredSignatureError`, and every other `jwt.PyJWTError` -/
  | expiredSignatureError
  | pyJWTError
  /-- SQLAlchemy: a `refresh` that does not find its row -/
  | invalidRequestError
  deriving DecidableEq

namespace ErrorCode
def invalidRequest : Nat := 100006
def userDoesNotExist : Nat := 100023
def userAlreadyExists : Nat := 100025
def invalidCredentials : Nat := 100030
def nodesDoNotExist : Nat := 100015
def nodeNotMapped : Nat := 100036
def invalidToken : Nat := 100052
def permissionDenied : Nat := 100070
end ErrorCode

def invalidRequest (description : Text) : Exc :=
  .rainmakerError 400 ErrorCode.invalidRequest description
def unauthorized (description : Text) : Exc :=
  .rainmakerError 401 ErrorCode.invalidToken description
def forbidden (description : Text) : Exc :=
  .rainmakerError 403 ErrorCode.permissionDenied description
def conflict (description : Text) : Exc :=
  .rainmakerError 409 ErrorCode.userAlreadyExists description

structure Settings where
  accessTokenTtlSeconds : Int := 60 * 60
  idTokenTtlSeconds : Int := 60 * 60
  refreshTokenTtlSeconds : Int := 60 * 60 * 24 * 30
  mqttBrokerHost : Text := "localhost"
  mqttBrokerPort : Nat := 8883
  mqttInternalUser : Text := "rainmaker-backend"
  certValidityDays : Int := 365 * 5
  claimChallengeTtlSeconds : Int := 600

inductive TokenKind where
  | access
  | id
  | refresh
  deriving DecidableEq

structure Claims where
  sub : Text
  iat : Int
  exp : Int
  tokenUse : TokenKind
  jti : Text
  extra : List (Text × Text)
  deriving DecidableEq

structure Csr where
  isSignatureValid : Bool
  publicKey : Bytes
  deriving DecidableEq

structure Platform where
  settings : Settings
  /-- `str.lower` -/
  lower : Text → Text
  lower_ascii : ∀ s, (∀ c ∈ s, c.val < 128) → lower s = s.map Char.toLower
  /-- Only `İ` has a lower case of two characters. -/
  lower_length : ∀ s, (lower s).length ≤ 2 * s.length
  hmacSha256 : Bytes → Bytes → Bytes
  b64decode : Text → Option Bytes
  b64encode : Bytes → Text
  loadPemX509Csr : Bytes → Except Exc Csr
  /-- The certificate builder and its `sign`: key, CN, serial, validity to PEM. -/
  buildCertificate : Bytes → Text → Nat → Time → Time → Except Exc Text
  intermediatePem : Text
  hashPassword : Text → Text → Text
  verifyPassword : Text → Text → Bool
  jwtEncode : Claims → Text
  jwtDecode : Time → Text → Except Exc Claims
  jsonLoads : Bytes → Option Json
  parseUuid : Text → Option Uuid
  uuidStr : Uuid → Text
  /-- `int(s)`, `float(s)` on text, `float(i)` on integers, `str(v)` -/
  intOfText : Text → Option Int
  floatOfText : Text → Option PyFloat
  floatOfInt : Int → Option PyFloat
  strOf : Json → Text
  signedUploadUrl : Text → Text
  signedDownloadUrl : Text → Text
  /-- The value of a decimal digit of any script, `repr(s)` -/
  decimalDigit : Char → Option Nat
  reprOf : Text → Text
  /-- The text of the `ValueError` of `datetime.fromtimestamp` -/
  fromTimestampText : Int → Text
  /-- `str(exc)` -/
  excText : Exc → Text

/-- `secrets.compare_digest` on text: defined for ASCII only. -/
def compareDigest (a b : Text) : Except Exc Bool :=
  if (a ++ b).all fun c => c.val < 128 then .ok (a == b) else .error .typeError

theorem compare_digest_true {a b : Text} (ok : compareDigest a b = .ok true) : a = b := by
  unfold compareDigest at ok
  split at ok
  · simpa using ok
  · cases ok

def isSpace (c : Char) : Bool :=
  let n := c.toNat
  (9 ≤ n && n ≤ 13) || (28 ≤ n && n ≤ 32) || n == 0x85 || n == 0xA0 || n == 0x1680 ||
    (0x2000 ≤ n && n ≤ 0x200A) || n == 0x2028 || n == 0x2029 || n == 0x202F || n == 0x205F ||
    n == 0x3000

def strip (s : Text) : Text := (s.dropWhile isSpace).rdropWhile isSpace

def decimal (n : Nat) : Text := Nat.toDigits 10 n

def hexadecimal (n : Nat) : Text := Nat.toDigits 16 n

theorem hexadecimal_clean {c : Char} (foreign : ∀ d < 16, Nat.digitChar d ≠ c) (n : Nat) :
    c ∉ hexadecimal n := by
  unfold hexadecimal
  induction n using Nat.strongRecOn with
  | ind n ih =>
    rw [Nat.toDigits_eq_if (by omega)]
    split
    · rename_i small
      simp [(foreign n small).symm]
    · rename_i large
      rw [List.mem_append,List.mem_singleton]
      rintro (earlier | last)
      · exact ih (n / 16) (by omega) earlier
      · exact foreign (n % 16) (Nat.mod_lt _ (by omega)) last.symm

/-! Text columns. No text with a NUL reaches the database. A text longer than its
`VARCHAR(n)` is refused, unless everything beyond the width is spaces: then the
column stores it without them. -/

def bindable (s : Text) : Bool := !s.contains '\x00'

def varchar (n : Nat) (s : Text) : Bool := s.length ≤ n && bindable s

def varcharOpt (n : Nat) : Option Text → Bool
  | none => true
  | some s => varchar n s

/-- A text that such a column takes. -/
def assignable (n : Nat) (s : Text) : Bool := (s.drop n).all (· == ' ') && bindable s

def assignableOpt (n : Nat) : Option Text → Bool
  | none => true
  | some s => assignable n s

def cut (n : Nat) (s : Text) : Text := s.take n

theorem varchar_iff {n : Nat} {s : Text} :
    varchar n s = true ↔ s.length ≤ n ∧ bindable s = true := by
  simp [varchar]

theorem varchar_bindable {n : Nat} {s : Text} (held : varchar n s = true) : bindable s = true :=
  (varchar_iff.mp held).2

theorem cut_of_varchar {n : Nat} {s : Text} (held : varchar n s = true) : cut n s = s :=
  List.take_of_length_le (varchar_iff.mp held).1

theorem assignable_of_varchar {n : Nat} {s : Text} (held : varchar n s = true) :
    assignable n s = true := by
  obtain ⟨short,clean⟩ := varchar_iff.mp held
  simp [assignable, List.drop_of_length_le short, clean]

theorem bindable_cut {n : Nat} {s : Text} (clean : bindable s = true) : bindable (cut n s) = true := by
  unfold bindable at clean ⊢
  simp only [Bool.not_eq_true', List.contains_eq_mem, decide_eq_false_iff_not] at clean ⊢
  exact fun inside => clean (List.mem_of_mem_take inside)

theorem assignable_bindable {n : Nat} {s : Text} (taken : assignable n s = true) :
    bindable s = true := by
  simp only [assignable, Bool.and_eq_true] at taken
  exact taken.2

theorem cut_varchar {n : Nat} {s : Text} (taken : assignable n s = true) :
    varchar n (cut n s) = true :=
  varchar_iff.mpr ⟨List.length_take_le n s,bindable_cut (assignable_bindable taken)⟩

theorem varchar_of_spaceless {n : Nat} {s : Text} (taken : assignable n s = true)
    (spaceless : ' ' ∉ s) : varchar n s = true := by
  refine varchar_iff.mpr ⟨?_,assignable_bindable taken⟩
  have padding : ∀ c ∈ s.drop n, c = ' ' := by
    simp only [assignable, Bool.and_eq_true, List.all_eq_true, beq_iff_eq] at taken
    exact taken.1
  have none : s.drop n = [] := by
    rw [List.eq_nil_iff_forall_not_mem]
    intro c member
    rw [padding c member] at member
    exact spaceless (List.mem_of_mem_drop member)
  exact List.drop_eq_nil_iff.mp none

theorem cut_varcharOpt {n : Nat} {s : Option Text} (taken : assignableOpt n s = true) :
    varcharOpt n (s.map (cut n)) = true := by
  cases s with
  | none => rfl
  | some s => exact cut_varchar taken

end RainmakerServer
