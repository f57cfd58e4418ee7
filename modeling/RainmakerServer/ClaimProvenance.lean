import RainmakerServer.ClaimIdentity

/-!
Where a certificate comes from. A self-claim needs the HMAC of its challenge
under the provisioned key; an assisted claim needs the token of the user who
opened it and nothing of the device, also for a MAC address that is
provisioned.
-/
namespace RainmakerServer.ClaimProvenance
open Tables Runs Api ClaimIdentity

structure SoundChallenge (pf : Platform) (r : ClaimChallenge) : Prop where
  minted : r.mode = .self → r.nodeId = Claim.generateNodeId pf r.macAddr
  posed : r.mode = .self → ∃ challenge, r.challenge = some challenge

theorem stored_mac {pf : Platform} {macAddr : Text} (width : varchar 32 macAddr = true) :
    Claim.storedNodeId pf macAddr = Claim.generateNodeId pf (cut 32 macAddr) := by
  rw [Claim.stored_node_id width,cut_of_varchar width]

theorem self_challenge_sound {pf : Platform} {now : Time} {id : Uuid} {authId : Text}
    {challenge : Bytes} {macAddr platform : Text} (width : varchar 32 macAddr = true) :
    SoundChallenge pf
      (Schema.stored (Claim.selfChallenge pf now id authId challenge macAddr platform)) :=
  ⟨fun _ => stored_mac width,fun _ => ⟨challenge,rfl⟩⟩

theorem assisted_challenge_sound {pf : Platform} {now : Time} {id userId : Uuid}
    {macAddr platform : Text} :
    SoundChallenge pf
      (Schema.stored (Claim.assistedChallenge pf now id userId macAddr platform)) := by
  constructor <;> (intro self; cases self)

def ChallengesSound (pf : Platform) (db : Db) : Prop :=
  ∀ r ∈ db.claimChallenges, SoundChallenge pf r

section
variable {Q : ClaimChallenge → Prop} {db db' : Db}

theorem all_of_kept (settled : ∀ r attempts status verifiedAt, Q r →
      Q {r with attempts := attempts, status := status, verifiedAt := verifiedAt})
    (all : ∀ r ∈ db.claimChallenges, Q r) (kept : Claim.ChallengesKept db db') :
    ∀ r ∈ db'.claimChallenges, Q r := by
  intro r stored
  obtain ⟨old,earlier,_,_,_,eq⟩ := kept r stored
  rw [eq]
  exact settled old _ _ _ (all old earlier)

theorem all_of_inserted {row : ClaimChallenge} {t : Table ClaimChallenge}
    (all : ∀ r ∈ db.claimChallenges, Q r) (inserted : db.claimChallenges.insert row = .ok t)
    (fine : Q (Schema.stored row)) : ∀ r ∈ t, Q r := by
  intro r stored
  rcases (Table.mem_insert inserted).mp stored with old | new
  · exact all r old
  · rw [new]
    exact fine

end

variable {pf : Platform}

theorem step_keeps_challenges {Q : ClaimChallenge → Prop} {w : World} {c : Call}
    (settled : ∀ r attempts status verifiedAt, Q r →
      Q {r with attempts := attempts, status := status, verifiedAt := verifiedAt})
    (selfOpened : ∀ now id authId challenge macAddr platform, varchar 32 macAddr = true →
      Schema.fits (Claim.selfChallenge pf now id authId challenge macAddr platform) = true →
        Q (Schema.stored (Claim.selfChallenge pf now id authId challenge macAddr platform)))
    (assistedOpened : ∀ now id userId macAddr platform,
      Schema.fits (Claim.assistedChallenge pf now id userId macAddr platform) = true →
        Q (Schema.stored (Claim.assistedChallenge pf now id userId macAddr platform)))
    (all : ∀ r ∈ w.db.claimChallenges, Q r) : ∀ r ∈ (step pf w c).db.claimChallenges, Q r := by
  rcases effect_claims (step_effect pf w c) with same | effect
  · rw [same.challenges]
    exact all
  · generalize (step pf w c).db = db' at effect
    cases effect with
    | initiatedSelf provisioned inserted =>
      exact all_of_inserted all inserted
        (selfOpened _ _ _ _ _ _ provisioned (Table.insert_ok inserted).2.1)
    | initiatedAssisted inserted =>
      exact all_of_inserted all inserted (assistedOpened _ _ _ _ _ (Table.insert_ok inserted).2.1)
    | verifiedSelf present concluded =>
      exact all_of_kept settled all (Claim.concluded_kept concluded)
    | verifiedAssisted auth present concluded =>
      exact all_of_kept settled all (Claim.concluded_kept concluded)
    | revoked => exact all

theorem sound_settled {r : ClaimChallenge} (attempts : Nat) (status : ClaimStatus)
    (verifiedAt : Option Time) (fine : SoundChallenge pf r) : SoundChallenge pf
      {r with attempts := attempts, status := status, verifiedAt := verifiedAt} :=
  ⟨fine.minted,fine.posed⟩

theorem sound_of_kept {db db' : Db} (sound : ChallengesSound pf db)
    (kept : Claim.ChallengesKept db db') : ChallengesSound pf db' :=
  all_of_kept (fun _ _ _ _ => sound_settled _ _ _) sound kept

theorem step_keeps_sound {w : World} {c : Call} (sound : ChallengesSound pf w.db) :
    ChallengesSound pf (step pf w c).db := by
  apply step_keeps_challenges _ _ _ sound
  · intro r attempts status verifiedAt fine
    exact sound_settled attempts status verifiedAt fine
  · intro now id authId challenge macAddr platform provisioned _
    exact self_challenge_sound provisioned
  · intro now id userId macAddr platform _
    exact assisted_challenge_sound

theorem run_provisioning (w : World) (cs : List Call) :
    (run (step pf) w cs).db.deviceProvisioning = w.db.deviceProvisioning := by
  apply run_preserves (step pf) (I := fun v => v.db.deviceProvisioning = w.db.deviceProvisioning)
    _ cs rfl
  intro v c same
  rw [← same]
  rcases effect_claims (step_effect pf v c) with kept | effect
  · exact kept.provisioning
  · generalize (step pf v c).db = db' at effect
    cases effect with
    | verifiedSelf present concluded =>
      obtain ⟨_,_,_,eq⟩ := Claim.concluded_frame concluded
      rw [eq]
    | verifiedAssisted auth present concluded =>
      obtain ⟨_,_,_,eq⟩ := Claim.concluded_frame concluded
      rw [eq]
    | _ => rfl

/-- The call is a self-claim verification whose response is the HMAC of the
    pending challenge under a key provisioned for a MAC address of the name. -/
def IssuedBySelfClaim (pf : Platform) (provisioned : Table DeviceProvisioning) (w : World)
    (c : Call) (cn : Text) : Prop :=
  ∃ randbits authId response csr row challenge, ∃ prov ∈ provisioned,
    c = .verifySelfClaim randbits authId response csr ∧
    Claim.Usable w.db w.now .self row ∧ row.authId = some authId ∧
    row.challenge = some challenge ∧ prov.macAddr = row.macAddr ∧
    pf.b64decode response = some (pf.hmacSha256 prov.hmacKey challenge) ∧
    cn = Claim.generateNodeId pf prov.macAddr

/-- The call is an assisted verification by the confirmed user who opened the
    pending challenge for this name. -/
def IssuedByAssistedClaim (w : World) (c : Call) (cn : Text) : Prop :=
  ∃ userId user randbits csr row,
    c = .user userId (.verifyAssistedClaim randbits csr) ∧
    user ∈ w.db.users ∧ user.id = userId ∧ user.status = .confirmed ∧
    Claim.Usable w.db w.now .assisted row ∧ row.userId = some userId ∧ cn = row.nodeId

def Holds (serial cn : Text) (w : World) : Prop :=
  ∃ c ∈ w.db.nodeCertificates, c.serial = serial ∧ c.cn = cn

theorem concluded_issues {db db' : Db} {now : Time} {randbits : Nat} {csr : Bytes}
    {verdict : Claim.Verdict} {serial cn : Text}
    (known : ∀ row, verdict = .accept row → row ∈ db.claimChallenges)
    (concluded : Claim.Concluded pf db now randbits csr verdict db')
    (before : ¬ ∃ c ∈ db.nodeCertificates, c.serial = serial ∧ c.cn = cn)
    (after : ∃ c ∈ db'.nodeCertificates, c.serial = serial ∧ c.cn = cn) :
    ∃ row, verdict = .accept row ∧ row.nodeId = cn := by
  cases concluded with
  | refused => exact absurd after before
  | counted => exact absurd after before
  | consumed failed => exact absurd after before
  | @issued row s _ signed stored =>
    obtain ⟨nodes,certs,eq,inserted,-⟩ := Claim.insert_certificate_ok stored
    subst eq
    obtain ⟨c,member,number,name⟩ := after
    rcases (Table.mem_insert inserted).mp member with old | new
    · exact absurd ⟨c,old,number,name⟩ before
    · rw [new,Claim.stored_certificate (Claim.claim_node_varchar (known row rfl))
        (Table.insert_ok inserted).2.1] at name
      exact ⟨row,rfl,name⟩

theorem step_issues {v : World} {c : Call} {serial cn : Text}
    (sound : ChallengesSound pf v.db) (early : ¬ Holds serial cn v)
    (late : Holds serial cn (step pf v c)) :
    IssuedBySelfClaim pf v.db.deviceProvisioning v c cn ∨ IssuedByAssistedClaim v c cn := by
  unfold Holds at late
  rcases effect_claims (step_effect pf v c) with same | effect
  · rw [same.certificates] at late
    exact absurd late early
  · generalize (step pf v c).db = db' at effect late
    cases effect with
    | initiatedSelf provisioned inserted => exact absurd late early
    | initiatedAssisted inserted => exact absurd late early
    | @verifiedSelf randbits authId response csr _ present concluded =>
      obtain ⟨row,accepted,named⟩ := concluded_issues
        (fun row accepted => (Claim.self_claim_check_iff.mp accepted).usable.stored) concluded
        early late
      obtain ⟨usable,addressed,prov,known,mac,decoded⟩ := Claim.self_claim_check_iff.mp accepted
      obtain ⟨minted,posed⟩ := sound row usable.stored
      obtain ⟨challenge,present⟩ := posed usable.moded
      rw [present] at decoded
      left
      exact ⟨randbits,authId,response,csr,row,challenge,prov,known,rfl,usable,addressed,present,mac,
        decoded,by rw [← named,minted usable.moded,mac]⟩
    | @verifiedAssisted userId user randbits csr _ auth present concluded =>
      obtain ⟨row,accepted,named⟩ := concluded_issues
        (fun row accepted => (Claim.assisted_claim_check_iff.mp accepted).usable.stored) concluded
        early late
      obtain ⟨usable,owned,-⟩ := Claim.assisted_claim_check_iff.mp accepted
      obtain ⟨member,key,confirmed⟩ := Accounts.current_user_ok auth
      right
      exact ⟨userId,user,randbits,csr,row,rfl,member,key,confirmed,usable,owned,named.symm⟩
    | revoked =>
      obtain ⟨r,member,number,name⟩ := late
      simp only [Claim.revokeCertificate, Table.mem_update] at member
      obtain ⟨old,earlier,eq⟩ := member
      have kept : old.serial = serial ∧ old.cn = cn := by
        rw [← number,← name,← eq]
        split <;> exact ⟨rfl,rfl⟩
      exact absurd ⟨old,earlier,kept⟩ early

/-- Every certificate that a run adds was issued by one call of it: a self-claim
    with the right HMAC, or an assisted claim of a confirmed user. -/
theorem certificate_provenance (pf : Platform) (w : World) (cs : List Call)
    (sound : ChallengesSound pf w.db) :
    ∀ cert ∈ (run (step pf) w cs).db.nodeCertificates,
      (∀ old ∈ w.db.nodeCertificates, old.serial ≠ cert.serial) →
        ∃ pre c post, cs = pre ++ c :: post ∧
          (IssuedBySelfClaim pf w.db.deviceProvisioning (run (step pf) w pre) c cert.cn ∨
            IssuedByAssistedClaim (run (step pf) w pre) c cert.cn) := by
  intro cert stored new
  have before : ¬ Holds cert.serial cert.cn w := by
    rintro ⟨old,earlier,same,-⟩
    exact new old earlier same
  obtain ⟨pre,c,post,split,early,late⟩ :=
    run_origin (step pf) before ⟨cert,stored,rfl,rfl⟩
  have soundHere : ChallengesSound pf (run (step pf) w pre).db :=
    run_preserves (step pf) (I := fun v => ChallengesSound pf v.db)
      (fun _ _ => step_keeps_sound) pre sound
  have issued := step_issues soundHere early late
  rw [run_provisioning w pre] at issued
  exact ⟨pre,c,post,split,issued⟩

def provisionedDevice : World where
  db := {
    users := .one (Deployment.account 1 "user@example.com"),
    deviceProvisioning := .one ⟨"AABBCCDDEEFF","esp32c3",Deployment.deviceKey⟩}
  now := 0

def selfClaim : List Call :=
  [.initiateSelfClaim 10 Deployment.token16 Deployment.claimBytes "AABBCCDDEEFF" "esp32c3",
   .verifySelfClaim 4 Deployment.token16 Deployment.claimResponse Deployment.deviceCsr]

theorem self_claim_has_provenance :
    (run (step Deployment.platform) provisionedDevice selfClaim).db.nodeCertificates.rows.map
      (·.cn) = ["aabbccddeeff".toList] ∧
      ∀ cert ∈ (run (step Deployment.platform) provisionedDevice selfClaim).db.nodeCertificates,
        (∀ old ∈ provisionedDevice.db.nodeCertificates, old.serial ≠ cert.serial) →
          ∃ pre c post, selfClaim = pre ++ c :: post ∧
            (IssuedBySelfClaim Deployment.platform provisionedDevice.db.deviceProvisioning
                (run (step Deployment.platform) provisionedDevice pre) c cert.cn ∨
              IssuedByAssistedClaim
                (run (step Deployment.platform) provisionedDevice pre) c cert.cn) := by
  refine ⟨by decide +kernel,?_⟩
  apply certificate_provenance
  intro r stored
  cases stored

/-- A user claims the provisioned device without knowing its key: no call of
    the run is a self-claim verification. -/
theorem assisted_claim_needs_no_key :
    ⟨"AABBCCDDEEFF","esp32c3",Deployment.deviceKey⟩ ∈ provisionedDevice.db.deviceProvisioning ∧
      (run (step Deployment.platform) provisionedDevice
        (assistedClaim "AABBCCDDEEFF")).db.nodeCertificates.rows.map (·.cn) =
          [Claim.generateNodeId Deployment.platform "AABBCCDDEEFF"] ∧
      ∀ c ∈ assistedClaim "AABBCCDDEEFF", ∀ randbits authId response csr,
        c ≠ .verifySelfClaim randbits authId response csr := by
  refine ⟨List.mem_singleton_self _,by decide +kernel,?_⟩
  intro c member randbits authId response csr same
  subst same
  simp [assistedClaim] at member

end RainmakerServer.ClaimProvenance
