import RainmakerServer.Deployment
import RainmakerServer.Effects

/-!
Which identities the claim flows mint. A challenge takes its node id from the
MAC address of the request, a certificate takes its CN from the challenge, and
nothing else writes either, so a predicate that holds of every node id that is
verified holds of every CN. The broker's hooks compare a CN with the name of
the internal user.
-/
namespace RainmakerServer.ClaimIdentity
open Tables Runs Api

def mints : Call → Option Text
  | .initiateSelfClaim _ _ _ macAddr _ => some macAddr
  | .user _ (.initiateAssistedClaim _ macAddr _) => some macAddr
  | _ => none

/-- The call reaches a verification that accepts this challenge. -/
inductive Accepts (pf : Platform) (w : World) : Call → ClaimChallenge → Nat → Bytes → Prop where
  | self {randbits : Nat} {authId response : Text} {csr : Bytes} {row : ClaimChallenge}
      (present : (csr.isEmpty || authId.isEmpty || response.isEmpty) = false)
      (accepted : Claim.AcceptsSelf pf w.db w.now authId response row) :
      Accepts pf w (.verifySelfClaim randbits authId response csr) row randbits csr
  | assisted {userId : Uuid} {user : User} {randbits : Nat} {csr : Bytes} {row : ClaimChallenge}
      (auth : Accounts.currentUser w.db userId = .ok user) (present : csr.isEmpty = false)
      (accepted : Claim.AcceptsAssisted w.db w.now userId row) :
      Accepts pf w (.user userId (.verifyAssistedClaim randbits csr)) row randbits csr

theorem accepts_stored {pf : Platform} {w : World} {c : Call} {row : ClaimChallenge}
    {randbits : Nat} {csr : Bytes} (accepts : Accepts pf w c row randbits csr) :
    row ∈ w.db.claimChallenges := by
  cases accepts with
  | self present accepted => exact accepted.usable.stored
  | assisted auth present accepted => exact accepted.usable.stored

def Certified (P : Text → Prop) (db : Db) : Prop :=
  ∀ c ∈ db.nodeCertificates, c.cn = c.nodeId ∧ P c.cn

structure Minted (P : Text → Prop) (db : Db) : Prop where
  challenges : ∀ r ∈ db.claimChallenges, P r.nodeId
  certificates : Certified P db

section
variable {P : Text → Prop} {db db' : Db}

theorem minted_of_equal (minted : Minted P db) (challenges : db'.claimChallenges = db.claimChallenges)
    (certificates : db'.nodeCertificates = db.nodeCertificates) : Minted P db' := by
  constructor
  · rw [challenges]
    exact minted.challenges
  · unfold Certified
    rw [certificates]
    exact minted.certificates

theorem minted_of_inserted {row : ClaimChallenge} {t : Table ClaimChallenge} (minted : Minted P db)
    (inserted : db.claimChallenges.insert row = .ok t) (named : P (cut 64 row.nodeId)) :
    Minted P {db with claimChallenges := t} := by
  constructor
  · intro r stored
    rcases (Table.mem_insert inserted).mp stored with old | new
    · exact minted.challenges r old
    · subst new
      exact named
  · exact minted.certificates

theorem minted_of_kept (minted : Minted P db) (kept : Claim.ChallengesKept db db')
    (certificates : Certified P db') : Minted P db' := by
  refine ⟨?_,certificates⟩
  intro r stored
  obtain ⟨old,earlier,_,_,_,eq⟩ := kept r stored
  rw [eq]
  exact minted.challenges old earlier

theorem certified_of_concluded {pf : Platform} {now : Time} {randbits : Nat} {csr : Bytes}
    {verdict : Claim.Verdict} (certified : Certified P db)
    (named : ∀ row, verdict = .accept row → row ∈ db.claimChallenges ∧ P row.nodeId)
    (concluded : Claim.Concluded pf db now randbits csr verdict db') : Certified P db' := by
  cases concluded with
  | refused => exact certified
  | counted => exact certified
  | consumed failed => exact certified
  | @issued row s _ signed stored =>
    obtain ⟨nodes,certs,eq,inserted,-⟩ := Claim.insert_certificate_ok stored
    subst eq
    obtain ⟨known,allowed⟩ := named row rfl
    have whole := Claim.stored_certificate (Claim.claim_node_varchar known)
      (Table.insert_ok inserted).2.1
    intro c member
    rcases (Table.mem_insert inserted).mp member with old | new
    · exact certified c old
    · rw [new,whole]
      exact ⟨rfl,allowed⟩

theorem minted_of_concluded {pf : Platform} {now : Time} {randbits : Nat} {csr : Bytes}
    {verdict : Claim.Verdict} (minted : Minted P db)
    (known : ∀ row, verdict = .accept row → row ∈ db.claimChallenges)
    (concluded : Claim.Concluded pf db now randbits csr verdict db') : Minted P db' := by
  apply minted_of_kept minted (Claim.concluded_kept concluded)
  apply certified_of_concluded minted.certificates _ concluded
  intro row accepted
  exact ⟨known row accepted,minted.challenges row (known row accepted)⟩

theorem certified_of_revoked {now : Time} {serial : Text} (certified : Certified P db) :
    Certified P (Claim.revokeCertificate db now serial) := by
  intro c stored
  simp only [Claim.revokeCertificate, Table.mem_update] at stored
  obtain ⟨old,earlier,eq⟩ := stored
  rw [← eq]
  split <;> exact certified old earlier

end

variable {pf : Platform} {P : Text → Prop}

theorem effect_keeps_minted {w : World} {c : Call} {db' : Db} (minted : Minted P w.db)
    (effect : ClaimEffect pf w.db w.now c db')
    (named : ∀ macAddr, mints c = some macAddr → P (Claim.storedNodeId pf macAddr)) :
    Minted P db' := by
  cases effect with
  | initiatedSelf provisioned inserted => exact minted_of_inserted minted inserted (named _ rfl)
  | initiatedAssisted inserted => exact minted_of_inserted minted inserted (named _ rfl)
  | verifiedSelf present concluded =>
    apply minted_of_concluded minted _ concluded
    intro row accepted
    exact (Claim.self_claim_check_row (Or.inl accepted)).1.stored
  | verifiedAssisted auth present concluded =>
    apply minted_of_concluded minted _ concluded
    intro row accepted
    exact (Claim.assisted_claim_check_iff.mp accepted).usable.stored
  | revoked => exact ⟨minted.challenges,certified_of_revoked minted.certificates⟩

theorem step_keeps_minted {w : World} {c : Call} (minted : Minted P w.db)
    (named : ∀ macAddr, mints c = some macAddr → P (Claim.storedNodeId pf macAddr)) :
    Minted P (step pf w c).db := by
  rcases effect_claims (step_effect pf w c) with same | effect
  · exact minted_of_equal minted same.challenges same.certificates
  · exact effect_keeps_minted minted effect named

theorem step_keeps_certified {w : World} {c : Call} (certified : Certified P w.db)
    (named : ∀ row randbits csr, Accepts pf w c row randbits csr → P row.nodeId) : Certified P (step pf w c).db := by
  rcases effect_claims (step_effect pf w c) with same | effect
  · unfold Certified
    rw [same.certificates]
    exact certified
  · generalize (step pf w c).db = db' at effect
    cases effect with
    | initiatedSelf provisioned inserted => exact certified
    | initiatedAssisted inserted => exact certified
    | verifiedSelf present concluded =>
      apply certified_of_concluded certified _ concluded
      intro row accepted
      have accepts := Claim.self_claim_check_iff.mp accepted
      exact ⟨accepts.usable.stored,named row _ _ (.self present accepts)⟩
    | verifiedAssisted auth present concluded =>
      apply certified_of_concluded certified _ concluded
      intro row accepted
      have accepts := Claim.assisted_claim_check_iff.mp accepted
      exact ⟨accepts.usable.stored,named row _ _ (.assisted auth present accepts)⟩
    | revoked => exact certified_of_revoked certified

/-- A database before the first claim. -/
structure ClaimFree (db : Db) : Prop where
  challenges : db.claimChallenges.rows = []
  certificates : db.nodeCertificates.rows = []

theorem claim_free_minted {db : Db} (free : ClaimFree db) : Minted P db := by
  constructor
  · intro r stored
    rw [Table.mem_def,free.challenges] at stored
    cases stored
  · intro c stored
    rw [Table.mem_def,free.certificates] at stored
    cases stored

theorem run_minted {w : World} {cs : List Call} (free : ClaimFree w.db)
    (named : ∀ c ∈ cs, ∀ macAddr, mints c = some macAddr → P (Claim.storedNodeId pf macAddr)) :
    Minted P (run (step pf) w cs).db := by
  apply run_invariant (step pf) (I := fun w => Minted P w.db) _ (claim_free_minted free)
    (along_of_forall (step pf) named)
  intro w c minted condition
  exact step_keeps_minted minted condition

/-- The hooks treat `x` as a device: it registers with an active certificate and
    publishes and subscribes below its own name only. -/
structure TreatedAsDevice (pf : Platform) (x : Text) : Prop where
  name : VmqAuthz.isBackend pf (some x) = false
  register : ∀ db, VmqAuthz.authoriseRegister pf db (some x) = .ok →
    (Claim.activeCertificate db x).isSome = true
  publish : ∀ topic, VmqAuthz.authorisePublish pf (some x) topic = .ok →
    VmqAuthz.allowedTopic x topic = true
  subscribe : ∀ ts, VmqAuthz.authoriseSubscribe pf (some x) (some ts) = .ok →
    ∀ t ∈ ts, VmqAuthz.allowedTopic x (t.getD []) = true

theorem treated_as_device {x : Text} (name : VmqAuthz.isBackend pf (some x) = false) :
    TreatedAsDevice pf x := by
  by_cases empty : x = []
  · subst empty
    constructor
    · exact name
    · intro db ok
      cases ok
    · intro topic ok
      unfold VmqAuthz.authorisePublish at ok
      split at ok
      · cases ok
      · simp [name] at ok
    · intro ts ok
      simp [VmqAuthz.authoriseSubscribe, name] at ok
  · constructor
    · exact name
    · intro db ok
      exact (VmqAuthz.register_ok_iff name empty).mp ok
    · intro topic ok
      exact (VmqAuthz.publish_ok_iff name empty).mp ok
    · intro ts ok
      exact (VmqAuthz.subscribe_ok_iff name empty).mp ok

/-- As long as no challenge with the name of the internal user is verified, no
    claimed certificate is taken for the backend, in any state of the run. -/
theorem claimed_name_is_a_device (pf : Platform) (w : World) (cs : List Call)
    (free : ClaimFree w.db)
    (named : Along (step pf) (fun v c => ∀ row randbits csr, Accepts pf v c row randbits csr →
      row.nodeId ≠ pf.settings.mqttInternalUser) w cs) :
    ∀ cert ∈ (run (step pf) w cs).db.nodeCertificates, TreatedAsDevice pf cert.cn := by
  have certified : Certified (fun x => x ≠ pf.settings.mqttInternalUser)
      (run (step pf) w cs).db := by
    apply run_invariant (step pf)
      (I := fun v => Certified (fun x => x ≠ pf.settings.mqttInternalUser) v.db) _
      (claim_free_minted free).certificates named
    intro v c certified condition
    exact step_keeps_certified certified condition
  intro cert stored
  exact treated_as_device (VmqAuthz.not_backend (certified cert stored).2)

def oneUser : World where
  db := {users := .one (Deployment.account 1 "user@example.com")}
  now := 0

def assistedClaim (macAddr : Text) : List Call :=
  [.user 1 (.initiateAssistedClaim 10 macAddr "esp32"),
   .user 1 (.verifyAssistedClaim 4 Deployment.deviceCsr)]

theorem assisted_claim_name :
    (run (step Deployment.platform) oneUser
      (assistedClaim "AABBCCDDEEFF")).db.nodeCertificates.rows.map (·.cn) =
        ["aabbccddeeff".toList] := by
  decide +kernel

theorem claimed_mac_is_a_device :
    (run (step Deployment.platform) oneUser
      (assistedClaim "AABBCCDDEEFF")).db.nodeCertificates.rows.map (·.cn) =
        ["aabbccddeeff".toList] ∧
      ∀ cert ∈ (run (step Deployment.platform) oneUser
        (assistedClaim "AABBCCDDEEFF")).db.nodeCertificates,
        TreatedAsDevice Deployment.platform cert.cn := by
  refine ⟨assisted_claim_name,?_⟩
  apply claimed_name_is_a_device
  · exact ⟨rfl,rfl⟩
  · have names : Along (step Deployment.platform) (fun v _ => ∀ r ∈ v.db.claimChallenges.rows,
        r.nodeId ≠ Deployment.platform.settings.mqttInternalUser) oneUser
        (assistedClaim "AABBCCDDEEFF") := by decide +kernel
    apply along_mono (step Deployment.platform) _ names
    intro v c others row randbits csr accepts
    exact others row (accepts_stored accepts)

/-- A MAC address is any text: this one mints the internal user. -/
theorem claim_mints_the_backend :
    ClaimFree oneUser.db ∧
      (run (step Deployment.platform) oneUser
        (assistedClaim "RainMaker-Backend")).db.nodeCertificates.rows.map (·.cn) =
          ["rainmaker-backend".toList] ∧
      VmqAuthz.isBackend Deployment.platform (some "rainmaker-backend".toList) = true ∧
      VmqAuthz.authorisePublish Deployment.platform (some "rainmaker-backend".toList)
        "node/aabbccddeeff/params/remote" = .ok :=
  ⟨⟨rfl,rfl⟩,by decide +kernel,by decide +kernel,by decide +kernel⟩

end RainmakerServer.ClaimIdentity
