import Mathlib.Algebra.Group.Nat.Defs
import RainmakerServer.ClaimOutcome

/-!
Which pending challenge an assisted verification serves. A claim that is never
verified stays pending for good, so a user collects them; the query orders
them by age, and its accessor then insists on there being one.
-/
namespace RainmakerServer.AssistedClaims
open Tables Runs Api ClaimIdentity ClaimOutcome

/-- A pending assisted challenge of the user, expired or not. -/
structure Waiting (db : Db) (userId : Uuid) (r : ClaimChallenge) : Prop where
  stored : r ∈ db.claimChallenges
  owned : r.userId = some userId
  moded : r.mode = .assisted
  pending : r.status = .pending

structure Latest (db : Db) (userId : Uuid) (row : ClaimChallenge) : Prop where
  waiting : Waiting db userId row
  newest : ∀ r, Waiting db userId r → r.createdAt ≤ row.createdAt

/-- The verification succeeds, marks the challenge and no other, and stores the
    certificate it returns, with the name of that challenge. -/
structure Serves (pf : Platform) (db : Db) (now : Time) (randbits : Nat) (userId : Uuid)
    (csr : Bytes) (row : ClaimChallenge) (s : Claim.Signed) : Prop where
  replied : (Claim.verifyAssistedClaim pf db now randbits userId csr).2 =
    .ok (Claim.issuedReply pf s)
  marked : (Claim.verifyAssistedClaim pf db now randbits userId csr).1.claimChallenges.rows =
    db.claimChallenges.rows.map fun r =>
      if r = row then {r with status := .verified, verifiedAt := some now} else r
  certified : (Claim.verifyAssistedClaim pf db now randbits userId csr).1.nodeCertificates.rows =
    db.nodeCertificates.rows ++ [Claim.certificateOf row.nodeId s]

def Opened (pf : Platform) (r : ClaimChallenge) : Prop :=
  r.expiresAt = Claim.challengeExpiry pf r.createdAt

section
variable {pf : Platform} {db : Db} {now : Time} {randbits : Nat} {csr : Bytes} {userId : Uuid}
  {row : ClaimChallenge} {s : Claim.Signed}

theorem run_opened {w : World} {cs : List Call} (free : ClaimFree w.db) :
    ∀ r ∈ (run (step pf) w cs).db.claimChallenges, Opened pf r := by
  apply run_preserves (step pf) (I := fun v => ∀ r ∈ v.db.claimChallenges, Opened pf r)
  · intro v c all
    apply ClaimProvenance.step_keeps_challenges _ _ _ all
    · intro r attempts status verifiedAt opened
      exact opened
    · intro now id authId challenge macAddr platform _ _
      rfl
    · intro now id userId macAddr platform _
      rfl
  · intro r stored
    rw [Table.mem_def,free.challenges] at stored
    cases stored

theorem latest_valid (opened : ∀ r ∈ db.claimChallenges, Opened pf r)
    (latest : Latest db userId row) {r : ClaimChallenge} (waiting : Waiting db userId r)
    (valid : now ≤ r.expiresAt) : now ≤ row.expiresAt := by
  have older : r.createdAt ≤ row.createdAt := latest.newest r waiting
  calc now ≤ r.expiresAt := valid
    _ = Claim.challengeExpiry pf r.createdAt := opened r waiting.stored
    _ ≤ Claim.challengeExpiry pf row.createdAt := Int.add_le_add_right older _
    _ = row.expiresAt := (opened row latest.waiting.stored).symm

theorem serial_fits (drawn : randbits < 2 ^ 128) :
    varchar 64 (hexadecimal (randbits ||| 1)) = true := by
  have small : randbits ||| 1 < 2 ^ 128 := Nat.or_lt_two_pow drawn (by decide)
  have short : (hexadecimal (randbits ||| 1)).length ≤ 64 := by
    unfold hexadecimal
    rw [Nat.length_toDigits_le_iff (by omega) (by omega)]
    calc randbits ||| 1 < 2 ^ 128 := small
      _ ≤ 16 ^ 64 := by decide
  have no_nul : '\x00' ∉ hexadecimal (randbits ||| 1) := hexadecimal_clean (by decide) _
  exact varchar_iff.mpr ⟨short,by simpa [bindable] using no_nul⟩

theorem signed_serial (signed : Claim.signDeviceCsr pf now randbits csr row.nodeId = .ok s) :
    s.serial = hexadecimal (randbits ||| 1) := by
  unfold Claim.signDeviceCsr at signed
  split at signed
  · cases signed
  · split at signed
    · cases signed
    · simp only at signed
      split at signed
      · cases signed
      · cases signed
        rfl

theorem certifies (known : row ∈ db.claimChallenges)
    (signed : Claim.signDeviceCsr pf now randbits csr row.nodeId = .ok s)
    (drawn : randbits < 2 ^ 128) (unused : ∀ c ∈ db.nodeCertificates, c.serial ≠ s.serial)
    (printable : '\x00' ∉ s.chainPem) :
    Certifies pf db now randbits csr row.nodeId s := by
  refine ⟨signed,?_,unused⟩
  have serial : varchar 64 s.serial = true := by
    rw [signed_serial signed]
    exact serial_fits drawn
  have named : varchar 64 row.nodeId = true := Claim.claim_node_varchar known
  obtain ⟨short,clean⟩ := varchar_iff.mp named
  have cn : varchar 128 row.nodeId = true := varchar_iff.mpr ⟨by omega,clean⟩
  have pem : bindable s.chainPem = true := by simpa [bindable] using printable
  simp only [Schema.fits, Claim.certificateOf, assignable_of_varchar serial,
    assignable_of_varchar named, assignable_of_varchar cn, pem, Bool.and_self]

theorem accepted_serves (accepts : Claim.AcceptsAssisted db now userId row)
    (certifies : Certifies pf db now randbits csr row.nodeId s) :
    Serves pf db now randbits userId csr row s := by
  have accepted := Claim.assisted_claim_check_iff.mpr accepts
  have storable : ∃ db', Claim.insertCertificate (Claim.markVerified db now row.id) now
      ((Claim.markVerified db now row.id).hasNode row.nodeId) row.nodeId s = .ok db' :=
    (insert_certificate_iff (Claim.claim_node_varchar accepts.usable.stored)).mpr
      ⟨certifies.fits,certifies.fresh⟩
  obtain ⟨db',stored⟩ := storable
  have reply : Claim.verifyAssistedClaim pf db now randbits userId csr =
      done db' (Claim.issuedReply pf s) := by
    simp only [Claim.verifyAssistedClaim, accepted, Claim.concludeClaim, Claim.issueCertificate,
      certifies.signed, stored]
  obtain ⟨nodes,certs,eq,inserted,-⟩ := Claim.insert_certificate_ok stored
  constructor
  · rw [reply]
    rfl
  · rw [reply,eq]
    apply List.map_congr_left
    intro r member
    by_cases same : r.id = row.id
    · have equal : r = row :=
        Table.eq_of_conflict member accepts.usable.stored (by simp [Schema.conflict, same])
      simp [equal]
    · have other : r ≠ row := fun equal => same (by rw [equal])
      simp [same, other]
  · rw [reply,eq]
    have appended := (Table.insert_ok inserted).1
    rw [Claim.stored_certificate (Claim.claim_node_varchar accepts.usable.stored)
      certifies.fits] at appended
    exact appended

theorem replied_sole {issued : Claim.Issued}
    (replied : (Claim.verifyAssistedClaim pf db now randbits userId csr).2 = .ok issued)
    {r r' : ClaimChallenge} (first : Waiting db userId r) (second : Waiting db userId r') :
    r = r' := by
  unfold Claim.verifyAssistedClaim at replied
  cases verdict : Claim.verifyAssistedClaimCheck db now userId with
  | refuse e =>
    rw [verdict] at replied
    cases replied
  | mismatch row => exact absurd verdict Claim.assisted_claim_check_no_mismatch
  | accept row =>
    have sole := (Claim.assisted_claim_check_iff.mp verdict).sole
    rw [sole r first.stored first.owned first.moded first.pending,
      sole r' second.stored second.owned second.moded second.pending]

end

/-- In a reachable state in which a user has a pending assisted challenge that
    has not expired, the latest one is served, for a request that is accepted,
    exactly when it is the only pending one. -/
theorem latest_claim_served_iff (pf : Platform) (w : World) (cs : List Call)
    (free : ClaimFree w.db) (userId : Uuid) (randbits : Nat) (csr : Bytes) (row : ClaimChallenge)
    (s : Claim.Signed) (latest : Latest (run (step pf) w cs).db userId row)
    (valid : ∃ r, Waiting (run (step pf) w cs).db userId r ∧
      (run (step pf) w cs).now ≤ r.expiresAt)
    (signed : Claim.signDeviceCsr pf (run (step pf) w cs).now randbits csr row.nodeId = .ok s)
    (drawn : randbits < 2 ^ 128)
    (unused : ∀ c ∈ (run (step pf) w cs).db.nodeCertificates, c.serial ≠ s.serial)
    (printable : '\x00' ∉ s.chainPem) :
    Serves pf (run (step pf) w cs).db (run (step pf) w cs).now randbits userId csr row s ↔
      ∀ r, Waiting (run (step pf) w cs).db userId r → r = row := by
  have opened : ∀ r ∈ (run (step pf) w cs).db.claimChallenges, Opened pf r := run_opened free
  constructor
  · intro serves r waiting
    exact replied_sole serves.replied waiting latest.waiting
  · intro sole
    obtain ⟨r,waiting,unexpired⟩ := valid
    have usable : Claim.Usable (run (step pf) w cs).db (run (step pf) w cs).now .assisted row :=
      ⟨latest.waiting.stored,latest.waiting.moded,latest.waiting.pending,
        latest_valid opened latest waiting unexpired⟩
    apply accepted_serves
    · refine ⟨usable,latest.waiting.owned,?_⟩
      intro a stored owned moded pending
      exact sole a ⟨stored,owned,moded,pending⟩
    · exact certifies latest.waiting.stored signed drawn unused printable

def deviceSigned (now : Time) (randbits : Nat) : Claim.Signed :=
  ⟨Deployment.platform.intermediatePem ++ Deployment.platform.intermediatePem,
    hexadecimal (randbits ||| 1),Claim.wholeSeconds (now - minutes 1),
    Claim.wholeSeconds (now + days 1825),Claim.serial_spaceless randbits⟩

def onlyClaim : List Call := [.user 1 (.initiateAssistedClaim 10 "AABBCCDDEEFF" "esp32")]

def onlyChallenge : ClaimChallenge :=
  Claim.assistedChallenge Deployment.platform 0 10 1 "AABBCCDDEEFF" "esp32"

theorem only_claim_served :
    (run (step Deployment.platform) oneUser onlyClaim).db.claimChallenges.rows =
        [onlyChallenge] ∧
      Serves Deployment.platform (run (step Deployment.platform) oneUser onlyClaim).db 0 4 1
        Deployment.deviceCsr onlyChallenge (deviceSigned 0 4) := by
  have rows : (run (step Deployment.platform) oneUser onlyClaim).db.claimChallenges.rows =
      [onlyChallenge] := by decide +kernel
  refine ⟨rows,?_⟩
  have sole : ∀ r, Waiting (run (step Deployment.platform) oneUser onlyClaim).db 1 r →
      r = onlyChallenge := by
    intro r waiting
    have stored := waiting.stored
    rw [Table.mem_def,rows,List.mem_singleton] at stored
    exact stored
  have waiting : Waiting (run (step Deployment.platform) oneUser onlyClaim).db 1 onlyChallenge :=
    ⟨by rw [Table.mem_def,rows]; exact List.mem_singleton_self _,rfl,rfl,rfl⟩
  apply (latest_claim_served_iff Deployment.platform oneUser onlyClaim ⟨rfl,rfl⟩ 1 4
    Deployment.deviceCsr onlyChallenge (deviceSigned 0 4) _ _ _ _ _ _).mpr sole
  · refine ⟨waiting,?_⟩
    intro r other
    rw [sole r other]
  · exact ⟨onlyChallenge,waiting,by decide +kernel⟩
  · exact device_csr_signed 0 4 _
  · decide
  · decide +kernel
  · decide +kernel

def twoClaims : List Call :=
  [.user 1 (.initiateAssistedClaim 10 "AABBCCDDEEFF" "esp32"),.tick 1000000,
   .user 1 (.initiateAssistedClaim 11 "AABBCCDDEE00" "esp32")]

/-- The newer of two pending challenges is not served: the query raises. -/
theorem newer_claim_refused :
    let v := run (step Deployment.platform) oneUser twoClaims
    let newer := Claim.assistedChallenge Deployment.platform 1000000 11 1 "AABBCCDDEE00" "esp32"
    Latest v.db 1 newer ∧ v.now ≤ newer.expiresAt ∧
      Claim.signDeviceCsr Deployment.platform v.now 4 Deployment.deviceCsr newer.nodeId =
        .ok (deviceSigned 1000000 4) ∧
      (Claim.verifyAssistedClaim Deployment.platform v.db v.now 4 1 Deployment.deviceCsr).2.isOk =
        false ∧
      ¬ Serves Deployment.platform v.db v.now 4 1 Deployment.deviceCsr newer
        (deviceSigned 1000000 4) := by
  intro v newer
  have rows : v.db.claimChallenges.rows = [onlyChallenge,newer] := by decide +kernel
  have refused : (Claim.verifyAssistedClaim Deployment.platform v.db v.now 4 1
      Deployment.deviceCsr).2.isOk = false := by decide +kernel
  refine ⟨⟨⟨?_,rfl,rfl,rfl⟩,?_⟩,by decide +kernel,device_csr_signed 1000000 4 _,refused,?_⟩
  · rw [Table.mem_def,rows]
    simp
  · intro r waiting
    have stored := waiting.stored
    rw [Table.mem_def,rows] at stored
    simp only [List.mem_cons, List.not_mem_nil, or_false] at stored
    rcases stored with old | new
    · rw [old]
      decide +kernel
    · rw [new]
  · intro serves
    rw [serves.replied] at refused
    cases refused

end RainmakerServer.AssistedClaims
