import RainmakerServer.Services.Tsdata

/-!
One deployment with the default settings, on which the concrete runs of the
later modules are executed. Its functions return what the real ones return on
the inputs of those runs, and refuse or return nothing elsewhere.
-/
namespace RainmakerServer.Deployment

def csrText : Text :=
  ("-----BEGIN CERTIFICATE REQUEST-----\n" : Text) ++
  "MIHGMG4CAQAwDDEKMAgGA1UEAwwBZDBZMBMGByqGSM49AgEGCCqGSM49AwEHA0IA\n" ++
  "BNpPlNNDmBvnZ/OsIgTTT3KgNm0kGa8Y85/AWbB18d4TvZlBp51V30ctdXyeNldi\n" ++
  "hG+O/eQE3qTeupwpFAvCWrugADAKBggqhkjOPQQDAgNIADBFAiEA2uxdOMGfizKy\n" ++
  "NxOV2cpfb0LI1OHzkdKftL+xm9pR4KECIByCh8Pr4QGp8Xg5BRJ7UL5S7IpIRgbj\n" ++
  "I2aQg1A47jII\n" ++
  "-----END CERTIFICATE REQUEST-----\n"

def publicPoint : Bytes :=
  [4, 218, 79, 148, 211, 67, 152, 27, 231, 103, 243, 172, 34, 4, 211, 79, 114, 160, 54, 109,
   36, 25, 175, 24, 243, 159, 192, 89, 176, 117, 241, 222, 19, 189, 153, 65, 167, 157, 85,
   223, 71, 45, 117, 124, 158, 54, 87, 98, 132, 111, 142, 253, 228, 4, 222, 164, 222, 186,
   156, 41, 20, 11, 194, 90, 187]

def deviceCsr : Bytes := csrText.map fun c => UInt8.ofNat c.toNat

def deviceKey : Bytes := (List.range 32).map fun i => UInt8.ofNat (i + 1)

def claimBytes : Bytes := (List.range 32).map fun i => UInt8.ofNat (i + 100)

def claimDigest : Bytes :=
  [142, 121, 13, 179, 8, 76, 254, 126, 207, 81, 98, 147, 105, 148, 81, 28, 16, 5, 246, 188,
   242, 113, 200, 11, 57, 174, 242, 58, 185, 40, 41, 182]

def claimResponse : Text := "jnkNswhM/n7PUWKTaZRRHBAF9rzyccgLOa7yOrkoKbY="

def platform : Platform where
  settings := {}
  lower := List.map Char.toLower
  lower_ascii _ _ := rfl
  lower_length s := by
    rw [List.length_map]
    omega
  hmacSha256 key message := if key = deviceKey ∧ message = claimBytes then claimDigest else []
  b64decode s := if s = claimResponse then some claimDigest else none
  b64encode b := if b = claimBytes then "ZGVmZ2hpamtsbW5vcHFyc3R1dnd4eXp7fH1+f4CBgoM=" else []
  loadPemX509Csr csr := if csr = deviceCsr then .ok ⟨true,publicPoint⟩ else .error .valueError
  buildCertificate _ _ _ _ _ := .ok "-----BEGIN CERTIFICATE-----"
  intermediatePem := "-----BEGIN CERTIFICATE-----"
  hashPassword salt password := salt ++ password
  verifyPassword _ _ := false
  jwtEncode _ := []
  jwtDecode _ _ := .error .pyJWTError
  jsonLoads _ := none
  parseUuid _ := none
  uuidStr _ := []
  intOfText _ := none
  floatOfText _ := none
  floatOfInt _ := none
  strOf _ := []
  signedUploadUrl _ := []
  signedDownloadUrl _ := []
  decimalDigit c := if '0' ≤ c ∧ c ≤ '9' then some (c.toNat - 48) else none
  reprOf _ := []
  fromTimestampText _ := []
  excText _ := []

def sumOf : List Tsdata.Value → Rat
  | [] => 0
  | .int i :: rest => i + sumOf rest
  | _ :: rest => sumOf rest

def timescale : Tsdata.Timescale where
  defined agg column := if agg = .sum ∧ column = .valueInt then none else some (.database .dataError)
  timeBucket width ts := if width = 0 then .error (.database .dataError)
    else .ok (946857600 + (ts - 946857600) / width * width)
  aggregate _ values := .ok (.float (.fin (sumOf values)))

def account (id : Uuid) (userName : Text) : User where
  id := id
  userName := userName
  email := userName
  passwordHash := none
  status := .confirmed

def anaAndBob : Tables.Table User :=
  .of [account 1 "ana@example.com",account 2 "bob@example.com"]

def ownerAndGuest : Tables.Table User :=
  .of [account 1 "owner@example.com",account 2 "guest@example.com"]

def token16 : Text := "AAECAwQFBgcICQoLDA0ODw"
def token32 : Text := "AAECAwQFBgcICQoLDA0ODxAREhMUFRYXGBkaGxwdHh8"

end RainmakerServer.Deployment
