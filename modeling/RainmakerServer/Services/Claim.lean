import Mathlib.Data.List.Sort
import RainmakerServer.Models

/-!
Device claiming and the identity it mints. Each verification is cut at its
database steps: the checks on the challenge row, the commit that marks it
verified, the signing of the request, the lookup of the node and the commit
that stores the certificate. Run back to back they are the handlers; run
interleaved they are what several replicas do.
-/
namespace RainmakerServer.Claim
open Tables

def generateNodeId (pf : Platform) (macAddr : Text) : Text := pf.lower macAddr

def storedNodeId (pf : Platform) (macAddr : Text) : Text := cut 64 (generateNodeId pf macAddr)

def addClaimChallenge (db : Db) (row : ClaimChallenge) : Except Exc Db :=
  commitInsert db.claimChallenges row (fun _ => true) fun t => {db with claimChallenges := t}

def challengeExpiry (pf : Platform) (now : Time) : Time :=
  now + seconds pf.settings.claimChallengeTtlSeconds

def selfChallenge (pf : Platform) (now : Time) (id : Uuid) (authId : Text) (challenge : Bytes)
    (macAddr platform : Text) : ClaimChallenge where
  id := id
  authId := some authId
  macAddr := macAddr
  platform := platform
  nodeId := generateNodeId pf macAddr
  challenge := some challenge
  mode := .self
  expiresAt := challengeExpiry pf now
  createdAt := now

def assistedChallenge (pf : Platform) (now : Time) (id userId : Uuid) (macAddr platform : Text) :
    ClaimChallenge where
  id := id
  macAddr := macAddr
  platform := platform
  nodeId := generateNodeId pf macAddr
  userId := some userId
  mode := .assisted
  expiresAt := challengeExpiry pf now
  createdAt := now

def initiateSelfClaim (pf : Platform) (db : Db) (now : Time) (id : Uuid) (authId : Text)
    (challenge : Bytes) (macAddr platform : Text) : Reply (Text × Text) :=
  match scalarOneOrNone (db.deviceProvisioning.select fun r => r.macAddr == macAddr) with
  | .error e => raise db (.database e)
  | .ok none => raise db
      (.rainmakerError 400 ErrorCode.invalidRequest "Device not registered for self-claim")
  | .ok (some _) =>
    match addClaimChallenge db (selfChallenge pf now id authId challenge macAddr platform) with
    | .error e => raise db e
    | .ok db' => done db' (authId,pf.b64encode challenge)

def initiateAssistedClaim (pf : Platform) (db : Db) (now : Time) (id userId : Uuid)
    (macAddr platform : Text) : Reply Text :=
  match addClaimChallenge db (assistedChallenge pf now id userId macAddr platform) with
  | .error e => raise db e
  | .ok db' => done db' (generateNodeId pf macAddr)

inductive Verdict where
  | refuse (e : Exc)
  | mismatch (row : ClaimChallenge)
  | accept (row : ClaimChallenge)

def verifySelfClaimCheck (pf : Platform) (db : Db) (now : Time)
    (authId challengeResponse : Text) : Verdict :=
  match scalarOneOrNone (db.claimChallenges.select fun r => r.authId == some authId) with
  | .error e => .refuse (.database e)
  | .ok none => .refuse (invalidRequest "Unknown auth_id")
  | .ok (some row) =>
    if row.mode ≠ .self then .refuse (invalidRequest "Unknown auth_id")
    else if row.status ≠ .pending then .refuse (invalidRequest "Challenge already used")
    else if row.expiresAt < now then .refuse (invalidRequest "Challenge expired")
    else match scalarOneOrNone (db.deviceProvisioning.select fun r => r.macAddr == row.macAddr) with
    | .error e => .refuse (.database e)
    | .ok none => .refuse (invalidRequest "Device provisioning missing")
    | .ok (some prov) => match pf.b64decode challengeResponse with
      | none => .refuse (invalidRequest "Invalid challenge_response encoding")
      | some got =>
        if pf.hmacSha256 prov.hmacKey (row.challenge.getD []) = got then .accept row
        else .mismatch row

/-- `ORDER BY created_at DESC` before the single-row accessor. -/
def verifyAssistedClaimCheck (db : Db) (now : Time) (userId : Uuid) : Verdict :=
  match scalarOneOrNone ((db.claimChallenges.select fun r =>
      r.userId == some userId && r.mode == .assisted && r.status == .pending).insertionSort
        fun a b => b.createdAt ≤ a.createdAt) with
  | .error e => .refuse (.database e)
  | .ok none => .refuse (invalidRequest "No pending claim for this user")
  | .ok (some row) =>
    if row.expiresAt < now then .refuse (invalidRequest "Claim expired") else .accept row

def setAttempts (db : Db) (id : Uuid) (attempts : Nat) : Db :=
  let t := db.claimChallenges.update (fun r => r.id == id)
    (fun r => {r with attempts := attempts}) (fun _ _ => rfl) fun _ h => h
  {db with claimChallenges := t}

def markVerified (db : Db) (now : Time) (id : Uuid) : Db :=
  let t := db.claimChallenges.update (fun r => r.id == id)
    (fun r => {r with status := .verified, verifiedAt := some now}) (fun _ _ => rfl) fun _ h => h
  {db with claimChallenges := t}

/-- A serial is hexadecimal, so that its column takes it whole or not at all. -/
structure Signed where
  chainPem : Text
  serial : Text
  notBefore : Time
  notAfter : Time
  spaceless : ' ' ∉ serial
  deriving DecidableEq

theorem space_foreign : ∀ d < 16, Nat.digitChar d ≠ ' ' := by decide

theorem serial_spaceless (randbits : Nat) : ' ' ∉ hexadecimal (randbits ||| 1) :=
  hexadecimal_clean space_foreign _

def wholeSeconds (t : Time) : Time := seconds (t / 1000000)

def signDeviceCsr (pf : Platform) (now : Time) (randbits : Nat) (csrPem : Bytes) (nodeId : Text) :
    Except Exc Signed :=
  match pf.loadPemX509Csr csrPem with
  | .error e => .error e
  | .ok csr =>
    if csr.isSignatureValid = false then .error .valueError
    else
      let serial := randbits ||| 1
      let notBefore := now - minutes 1
      let notAfter := now + days pf.settings.certValidityDays
      match pf.buildCertificate csr.publicKey nodeId serial notBefore notAfter with
      | .error e => .error e
      | .ok pem => .ok ⟨pem ++ pf.intermediatePem,hexadecimal serial,wholeSeconds notBefore,
          wholeSeconds notAfter,serial_spaceless randbits⟩

def certificateOf (nodeId : Text) (s : Signed) : NodeCertificate where
  serial := s.serial
  nodeId := nodeId
  certPem := s.chainPem
  cn := nodeId
  notBefore := s.notBefore
  notAfter := s.notAfter

/-- The commit that ends a claim. `nodeSeen` is what the lookup of the node
    found; without a node the same commit stores one. -/
def insertCertificate (db : Db) (now : Time) (nodeSeen : Bool) (nodeId : Text) (s : Signed) :
    Except Exc Db :=
  if nodeSeen then commitInsert db.nodeCertificates (certificateOf nodeId s) (fun _ => true)
    fun t => {db with nodeCertificates := t}
  else match db.nodes.insert {nodeId := nodeId, registrationTs := some now} with
  | .error e => .error (.database e)
  | .ok nodes => commitInsert db.nodeCertificates (certificateOf nodeId s) (fun _ => true)
      fun t => {db with nodes := nodes, nodeCertificates := t}

structure Issued where
  certificate : Text
  mqttHost : Text
  mqttCredHost : Text

def issuedReply (pf : Platform) (s : Signed) : Issued :=
  let host := pf.settings.mqttBrokerHost ++ ":" ++ decimal pf.settings.mqttBrokerPort
  ⟨s.chainPem,host,host⟩

def issueCertificate (pf : Platform) (db : Db) (now : Time) (randbits : Nat) (nodeId : Text)
    (csrPem : Bytes) : Reply Issued :=
  match signDeviceCsr pf now randbits csrPem nodeId with
  | .error e => raise db (invalidRequest (("CSR signing failed: " : Text) ++ pf.excText e))
  | .ok s => match insertCertificate db now (db.hasNode nodeId) nodeId s with
    | .error e => raise db e
    | .ok db' => done db' (issuedReply pf s)

def concludeClaim (pf : Platform) (db : Db) (now : Time) (randbits : Nat) (csrPem : Bytes) :
    Verdict → Reply Issued
  | .refuse e => raise db e
  | .mismatch row => raise (setAttempts db row.id (row.attempts + 1))
      (invalidRequest "Invalid challenge_response")
  | .accept row => issueCertificate pf (markVerified db now row.id) now randbits row.nodeId csrPem

def verifySelfClaim (pf : Platform) (db : Db) (now : Time) (randbits : Nat)
    (authId challengeResponse : Text) (csrPem : Bytes) : Reply Issued :=
  concludeClaim pf db now randbits csrPem
    (verifySelfClaimCheck pf db now authId challengeResponse)

def verifyAssistedClaim (pf : Platform) (db : Db) (now : Time) (randbits : Nat) (userId : Uuid)
    (csrPem : Bytes) : Reply Issued :=
  concludeClaim pf db now randbits csrPem (verifyAssistedClaimCheck db now userId)

def revokeCertificate (db : Db) (now : Time) (serial : Text) : Db :=
  let t := db.nodeCertificates.update (fun r => r.serial == serial)
    (fun r => {r with revoked := true, revokedAt := some now}) (fun _ _ => rfl) fun _ h => h
  {db with nodeCertificates := t}

/-- `LIMIT 1` without an order: one of the matching rows. -/
def activeCertificate (db : Db) (cn : Text) : Option NodeCertificate :=
  (db.nodeCertificates.select fun r => r.cn == cn && !r.revoked).head?

def getNodeFromMtls (db : Db) (sslClientCn : Option Text) : Except Exc Node :=
  match sslClientCn with
  | none => .error (unauthorized "Client certificate required")
  | some [] => .error (unauthorized "Client certificate required")
  | some cn => match activeCertificate db cn with
    | none => .error (unauthorized "Unknown or revoked client certificate")
    | some cert => match scalarOneOrNone (db.nodes.select fun r => r.nodeId == cert.nodeId) with
      | .error e => .error (.database e)
      | .ok none => .error (unauthorized "Node not registered")
      | .ok (some node) => .ok node

/-! What each handler can do. -/

theorem get_node_from_mtls_ok {db : Db} {cn : Option Text} {node : Node}
    (ok : getNodeFromMtls db cn = .ok node) : node ∈ db.nodes ∧
      ∃ cert ∈ db.nodeCertificates, cert.revoked = false ∧ cert.nodeId = node.nodeId := by
  unfold getNodeFromMtls at ok
  split at ok
  · cases ok
  · cases ok
  · split at ok
    · cases ok
    · rename_i cert found
      split at ok
      · cases ok
      · cases ok
      · rename_i there hit
        cases ok
        obtain ⟨known,own⟩ := scalar_mem hit
        obtain ⟨stored,active⟩ := Table.mem_select.mp (List.mem_of_head? found)
        simp only [Bool.and_eq_true, beq_iff_eq, Bool.not_eq_true'] at own active
        exact ⟨known,cert,stored,active.2,own.symm⟩

theorem initiate_self_claim_cases (pf : Platform) (db : Db) (now : Time) (id : Uuid) (authId : Text)
    (challenge : Bytes) (macAddr platform : Text) :
    (initiateSelfClaim pf db now id authId challenge macAddr platform).1 = db ∨
      ∃ t, varchar 32 macAddr = true ∧ db.claimChallenges.insert
          (selfChallenge pf now id authId challenge macAddr platform) = .ok t ∧
        (initiateSelfClaim pf db now id authId challenge macAddr platform).1 =
          {db with claimChallenges := t} := by
  unfold initiateSelfClaim
  split
  · exact Or.inl rfl
  · exact Or.inl rfl
  · rename_i provisioned
    obtain ⟨known,same⟩ := scalar_mem provisioned
    rw [beq_iff_eq] at same
    split
    · exact Or.inl rfl
    · rename_i added
      obtain ⟨t,inserted,-,eq⟩ := commitInsert_ok added
      have held := Table.holds_of_mem known
      simp only [Schema.holds, Bool.and_eq_true, same] at held
      exact Or.inr ⟨t,held.1,inserted,eq⟩

theorem initiate_assisted_claim_cases (pf : Platform) (db : Db) (now : Time) (id userId : Uuid)
    (macAddr platform : Text) :
    (initiateAssistedClaim pf db now id userId macAddr platform).1 = db ∨
      ∃ t, db.claimChallenges.insert
          (assistedChallenge pf now id userId macAddr platform) = .ok t ∧
        (initiateAssistedClaim pf db now id userId macAddr platform).1 =
          {db with claimChallenges := t} := by
  unfold initiateAssistedClaim
  split
  · exact Or.inl rfl
  · rename_i added
    obtain ⟨t,inserted,-,eq⟩ := commitInsert_ok added
    exact Or.inr ⟨t,inserted,eq⟩

/-- A challenge that a verification may still use. -/
structure Usable (db : Db) (now : Time) (mode : ClaimMode) (row : ClaimChallenge) : Prop where
  stored : row ∈ db.claimChallenges
  moded : row.mode = mode
  pending : row.status = .pending
  valid : now ≤ row.expiresAt

def Proves (pf : Platform) (db : Db) (row : ClaimChallenge) (response : Text) : Prop :=
  ∃ prov ∈ db.deviceProvisioning, prov.macAddr = row.macAddr ∧
    pf.b64decode response = some (pf.hmacSha256 prov.hmacKey (row.challenge.getD []))

theorem self_claim_check_row {pf : Platform} {db : Db} {now : Time} {authId response : Text}
    {row : ClaimChallenge}
    (about : verifySelfClaimCheck pf db now authId response = .accept row ∨
      verifySelfClaimCheck pf db now authId response = .mismatch row) :
    Usable db now .self row ∧ row.authId = some authId := by
  unfold verifySelfClaimCheck at about
  split at about
  · simp at about
  · simp at about
  · rename_i r found
    obtain ⟨stored,hit⟩ := scalar_mem found
    split at about
    · simp at about
    · rename_i moded
      split at about
      · simp at about
      · rename_i pending
        split at about
        · simp at about
        · rename_i valid
          have usable : Usable db now .self r ∧ r.authId = some authId :=
            ⟨⟨stored,by simpa using moded,by simpa using pending,Int.not_lt.mp valid⟩,
              by simpa using hit⟩
          split at about
          · simp at about
          · simp at about
          · split at about
            · simp at about
            · split at about
              · simp at about
                exact about ▸ usable
              · simp at about
                exact about ▸ usable

theorem self_claim_check_accept {pf : Platform} {db : Db} {now : Time} {authId response : Text}
    {row : ClaimChallenge} (accepted : verifySelfClaimCheck pf db now authId response = .accept row) :
    Proves pf db row response := by
  unfold verifySelfClaimCheck at accepted
  split at accepted
  · cases accepted
  · cases accepted
  · split at accepted
    · cases accepted
    · split at accepted
      · cases accepted
      · split at accepted
        · cases accepted
        · split at accepted
          · cases accepted
          · cases accepted
          · rename_i prov provisioned
            obtain ⟨stored,hit⟩ := scalar_mem provisioned
            split at accepted
            · cases accepted
            · rename_i got decoded
              split at accepted
              · rename_i equal
                cases accepted
                exact ⟨prov,stored,by simpa using hit,by rw [decoded,equal]⟩
              · cases accepted

/-- `verify_self_claim` accepts exactly the usable challenge with its `auth_id`
    when the response proves possession of the key. -/
structure AcceptsSelf (pf : Platform) (db : Db) (now : Time) (authId response : Text)
    (row : ClaimChallenge) : Prop where
  usable : Usable db now .self row
  addressed : row.authId = some authId
  proof : Proves pf db row response

theorem self_claim_check_iff {pf : Platform} {db : Db} {now : Time} {authId response : Text}
    {row : ClaimChallenge} : verifySelfClaimCheck pf db now authId response = .accept row ↔
      AcceptsSelf pf db now authId response row := by
  constructor
  · intro accepted
    obtain ⟨usable,addressed⟩ := self_claim_check_row (Or.inl accepted)
    exact ⟨usable,addressed,self_claim_check_accept accepted⟩
  · rintro ⟨⟨stored,moded,pending,valid⟩,addressed,prov,provisioned,mac,decoded⟩
    have found : db.claimChallenges.select (fun r => r.authId == some authId) = [row] := by
      apply select_sole (by simp [Schema.conflict]) stored (by simpa using addressed)
      intro a member same
      have auth : a.authId = some authId := by simpa using same
      exact Table.eq_of_conflict member stored (by simp [Schema.conflict, auth, addressed, sameAuthId])
    have key : db.deviceProvisioning.select (fun r => r.macAddr == row.macAddr) = [prov] := by
      apply select_sole (by simp [Schema.conflict]) provisioned (by simpa using mac)
      intro a member same
      have equal : a.macAddr = row.macAddr := by simpa using same
      exact Table.eq_of_conflict member provisioned (by simp [Schema.conflict, equal, mac])
    simp only [verifySelfClaimCheck, found, key, scalarOneOrNone, moded, pending, decoded,
      Int.not_lt.mpr valid, ne_eq, not_true_eq_false, ↓reduceIte]

/-- `verify_assisted_claim` accepts the usable challenge of its user when it is
    the only pending one. -/
structure AcceptsAssisted (db : Db) (now : Time) (userId : Uuid) (row : ClaimChallenge) :
    Prop where
  usable : Usable db now .assisted row
  owned : row.userId = some userId
  sole : ∀ r ∈ db.claimChallenges, r.userId = some userId → r.mode = .assisted →
    r.status = .pending → r = row

theorem assisted_claim_check_iff {db : Db} {now : Time} {userId : Uuid} {row : ClaimChallenge} :
    verifyAssistedClaimCheck db now userId = .accept row ↔ AcceptsAssisted db now userId row := by
  constructor
  · intro accepted
    unfold verifyAssistedClaimCheck at accepted
    split at accepted
    · cases accepted
    · cases accepted
    · rename_i r found
      have listed : ∀ a, a ∈ (db.claimChallenges.select fun r =>
          r.userId == some userId && r.mode == .assisted && r.status == .pending) ↔ a = r := by
        intro a
        rw [← List.mem_insertionSort (r := fun a b => b.createdAt ≤ a.createdAt),
          scalar_some found,List.mem_singleton]
      obtain ⟨stored,hit⟩ := Table.mem_select.mp ((listed r).mpr rfl)
      simp only [Bool.and_eq_true, beq_iff_eq] at hit
      split at accepted
      · cases accepted
      · rename_i valid
        cases accepted
        refine ⟨⟨stored,hit.1.2,hit.2,Int.not_lt.mp valid⟩,hit.1.1,?_⟩
        intro a member owned moded pending
        apply (listed a).mp
        exact Table.mem_select.mpr ⟨member,by simp [owned, moded, pending]⟩
  · rintro ⟨⟨stored,moded,pending,valid⟩,owned,sole⟩
    have found : db.claimChallenges.select (fun r =>
        r.userId == some userId && r.mode == .assisted && r.status == .pending) = [row] := by
      apply select_sole (by simp [Schema.conflict]) stored (by simp [owned, moded, pending])
      intro a member same
      simp only [Bool.and_eq_true, beq_iff_eq] at same
      exact sole a member same.1.1 same.1.2 same.2
    simp only [verifyAssistedClaimCheck, found, List.insertionSort_cons, List.insertionSort_nil,
      List.orderedInsert_nil, scalarOneOrNone, Int.not_lt.mpr valid, ↓reduceIte]

theorem assisted_claim_check_no_mismatch {db : Db} {now : Time} {userId : Uuid}
    {row : ClaimChallenge} : verifyAssistedClaimCheck db now userId ≠ .mismatch row := by
  unfold verifyAssistedClaimCheck
  split
  · simp
  · simp
  · split <;> simp

theorem stored_certificate {n : Text} {s : Signed} (width : varchar 64 n = true)
    (fits : Schema.fits (certificateOf n s) = true) :
    Schema.stored (certificateOf n s) = certificateOf n s := by
  obtain ⟨short,clean⟩ := varchar_iff.mp width
  have wide : varchar 128 n = true := varchar_iff.mpr ⟨by omega,clean⟩
  have serial : varchar 64 s.serial = true := by
    simp only [Schema.fits, certificateOf, Bool.and_eq_true] at fits
    exact varchar_of_spaceless fits.1.1.1 s.spaceless
  simp only [Schema.stored, certificateOf, cut_of_varchar width, cut_of_varchar wide,
    cut_of_varchar serial]

theorem stored_node_id {pf : Platform} {macAddr : Text} (width : varchar 32 macAddr = true) :
    storedNodeId pf macAddr = generateNodeId pf macAddr := by
  apply List.take_of_length_le
  have short := (varchar_iff.mp width).1
  have bound := pf.lower_length macAddr
  unfold generateNodeId
  omega

theorem stored_node {n : Text} {registrationTs : Option Time} (width : varchar 64 n = true) :
    Schema.stored ({nodeId := n, registrationTs := registrationTs} : Node) =
      {nodeId := n, registrationTs := registrationTs} := by
  simp only [Schema.stored, cut_of_varchar width]

theorem claim_node_varchar {db : Db} {row : ClaimChallenge} (stored : row ∈ db.claimChallenges) :
    varchar 64 row.nodeId = true := by
  have held := Table.holds_of_mem stored
  simp only [Schema.holds, Bool.and_eq_true] at held
  exact held.2

theorem insert_certificate_ok {db db' : Db} {now : Time} {seen : Bool} {n : Text} {s : Signed}
    (ok : insertCertificate db now seen n s = .ok db') : ∃ nodes certs,
      db' = {db with nodes := nodes, nodeCertificates := certs} ∧
      db.nodeCertificates.insert (certificateOf n s) = .ok certs ∧
      ((seen = true ∧ nodes = db.nodes) ∨
        (seen = false ∧ db.nodes.insert {nodeId := n, registrationTs := some now} = .ok nodes)) := by
  unfold insertCertificate at ok
  split at ok
  · rename_i present
    obtain ⟨certs,inserted,-,eq⟩ := commitInsert_ok ok
    exact ⟨db.nodes,certs,eq,inserted,Or.inl ⟨present,rfl⟩⟩
  · rename_i absent
    split at ok
    · cases ok
    · rename_i nodes added
      obtain ⟨certs,inserted,-,eq⟩ := commitInsert_ok ok
      exact ⟨nodes,certs,eq,inserted,Or.inr ⟨by simpa using absent,added⟩⟩

inductive Concluded (pf : Platform) (db : Db) (now : Time) (randbits : Nat) (csrPem : Bytes) :
    Verdict → Db → Prop where
  | refused {e : Exc} : Concluded pf db now randbits csrPem (.refuse e) db
  | counted {row : ClaimChallenge} : Concluded pf db now randbits csrPem (.mismatch row)
      (setAttempts db row.id (row.attempts + 1))
  | consumed {row : ClaimChallenge}
      (failed : ∀ s, signDeviceCsr pf now randbits csrPem row.nodeId = .ok s →
        ∃ e, insertCertificate (markVerified db now row.id) now (db.hasNode row.nodeId)
          row.nodeId s = .error e) : Concluded pf db now randbits csrPem (.accept row)
      (markVerified db now row.id)
  | issued {row : ClaimChallenge} {s : Signed} {db' : Db}
      (signed : signDeviceCsr pf now randbits csrPem row.nodeId = .ok s)
      (stored : insertCertificate (markVerified db now row.id) now (db.hasNode row.nodeId)
        row.nodeId s = .ok db') : Concluded pf db now randbits csrPem (.accept row) db'

theorem conclude_claim_concluded (pf : Platform) (db : Db) (now : Time) (randbits : Nat)
    (csrPem : Bytes) (verdict : Verdict) : Concluded pf db now randbits csrPem verdict
      (concludeClaim pf db now randbits csrPem verdict).1 := by
  cases verdict with
  | refuse e => exact .refused
  | mismatch row => exact .counted
  | accept row =>
    simp only [concludeClaim, issueCertificate]
    split
    · rename_i refused
      apply Concluded.consumed
      intro s signed
      rw [refused] at signed
      cases signed
    · rename_i s signed
      split
      · rename_i e broken
        apply Concluded.consumed
        intro s' signed'
        rw [signed] at signed'
        cases signed'
        exact ⟨e,broken⟩
      · rename_i stored
        exact .issued signed stored

theorem concluded_frame {pf : Platform} {db db' : Db} {now : Time} {randbits : Nat} {csrPem : Bytes}
    {verdict : Verdict} (concluded : Concluded pf db now randbits csrPem verdict db') :
    ∃ nodes certs challenges, db' = {db with
      nodes := nodes, nodeCertificates := certs, claimChallenges := challenges} := by
  cases concluded with
  | refused => exact ⟨_,_,_,rfl⟩
  | counted => exact ⟨_,_,_,rfl⟩
  | consumed failed => exact ⟨_,_,_,rfl⟩
  | issued signed stored =>
    obtain ⟨nodes,certs,eq,-⟩ := insert_certificate_ok stored
    exact ⟨nodes,certs,_,eq⟩

/-- Every challenge is an earlier one with another status, time or number of
    attempts. -/
def ChallengesKept (db db' : Db) : Prop :=
  ∀ r ∈ db'.claimChallenges, ∃ old ∈ db.claimChallenges, ∃ attempts status verifiedAt,
    r = {old with attempts := attempts, status := status, verifiedAt := verifiedAt}

theorem mark_kept {db : Db} {now : Time} (id : Uuid) : ChallengesKept db (markVerified db now id) := by
  intro r stored
  simp only [markVerified, Table.mem_update] at stored
  obtain ⟨old,earlier,eq⟩ := stored
  refine ⟨old,earlier,?_⟩
  rw [← eq]
  split
  · exact ⟨_,_,_,rfl⟩
  · exact ⟨_,_,_,rfl⟩

theorem count_kept {db : Db} (id : Uuid) (attempts : Nat) :
    ChallengesKept db (setAttempts db id attempts) := by
  intro r stored
  simp only [setAttempts, Table.mem_update] at stored
  obtain ⟨old,earlier,eq⟩ := stored
  refine ⟨old,earlier,?_⟩
  rw [← eq]
  split
  · exact ⟨_,_,_,rfl⟩
  · exact ⟨_,_,_,rfl⟩

theorem concluded_kept {pf : Platform} {db db' : Db} {now : Time} {randbits : Nat} {csr : Bytes}
    {verdict : Verdict} (concluded : Concluded pf db now randbits csr verdict db') :
    ChallengesKept db db' := by
  cases concluded with
  | refused =>
    intro r stored
    exact ⟨r,stored,_,_,_,rfl⟩
  | counted => exact count_kept _ _
  | consumed failed => exact mark_kept _
  | issued signed stored =>
    obtain ⟨nodes,certs,eq,-⟩ := insert_certificate_ok stored
    subst eq
    exact mark_kept _

end RainmakerServer.Claim
