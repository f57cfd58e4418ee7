import RainmakerServer.ClaimProvenance

/-!
What a verification leaves behind when it fails. The challenge is marked
verified by a commit of its own, before the request is signed and before the
certificate is stored; whatever fails afterwards fails with the challenge
already spent. A wrong response, in contrast, leaves the challenge pending.
-/
namespace RainmakerServer.ClaimOutcome
open Tables Runs Api ClaimIdentity

/-- The request can be signed for the node and the certificate can be stored. -/
structure Certifies (pf : Platform) (db : Db) (now : Time) (randbits : Nat) (csr : Bytes)
    (n : Text) (s : Claim.Signed) : Prop where
  signed : Claim.signDeviceCsr pf now randbits csr n = .ok s
  fits : Schema.fits (Claim.certificateOf n s) = true
  fresh : ∀ c ∈ db.nodeCertificates, c.serial ≠ s.serial

def Kept (addressed : ClaimChallenge → Prop) (old new : ClaimChallenge) : Prop :=
  new = old ∨ addressed old ∧ new = {old with attempts := old.attempts + 1}

structure Unconsumed (addressed : ClaimChallenge → Prop) (db db' : Db) : Prop where
  challenges : List.Forall₂ (Kept addressed) db.claimChallenges.rows db'.claimChallenges.rows
  nodes : db'.nodes = db.nodes
  certificates : db'.nodeCertificates = db.nodeCertificates

section
variable {pf : Platform} {db : Db} {now : Time} {randbits : Nat} {csr : Bytes}
  {addressed : ClaimChallenge → Prop}

theorem unconsumed_refl : Unconsumed addressed db db := by
  refine ⟨List.forall₂_same.mpr ?_,rfl,rfl⟩
  intro r _
  exact Or.inl rfl

theorem counted_unconsumed {row : ClaimChallenge} (stored : row ∈ db.claimChallenges)
    (named : addressed row) :
    Unconsumed addressed db (Claim.setAttempts db row.id (row.attempts + 1)) := by
  refine ⟨?_,rfl,rfl⟩
  simp only [Claim.setAttempts, Table.update]
  rw [List.forall₂_map_right_iff,List.forall₂_same]
  intro r member
  by_cases same : r.id = row.id
  · have equal : r = row :=
      Table.eq_of_conflict member stored (by simp [Schema.conflict, same])
    subst equal
    right
    exact ⟨named,by simp⟩
  · left
    simp [same]

theorem insert_certificate_iff {n : Text} {s : Claim.Signed} (width : varchar 64 n = true) :
    (∃ db', Claim.insertCertificate db now (db.hasNode n) n s = .ok db') ↔
      Schema.fits (Claim.certificateOf n s) = true ∧
        ∀ c ∈ db.nodeCertificates, c.serial ≠ s.serial := by
  constructor
  · rintro ⟨db',ok⟩
    obtain ⟨nodes,certs,-,inserted,-⟩ := Claim.insert_certificate_ok ok
    obtain ⟨-,wide,free⟩ := Table.insert_ok inserted
    rw [Claim.stored_certificate width wide] at free
    refine ⟨wide,?_⟩
    intro c stored same
    have apart := free c stored
    simp [Schema.conflict, Claim.certificateOf, same] at apart
  · rintro ⟨wide,fresh⟩
    have free : ∀ c ∈ db.nodeCertificates,
        Schema.conflict c (Schema.stored (Claim.certificateOf n s)) = false := by
      intro c stored
      rw [Claim.stored_certificate width wide]
      simpa [Schema.conflict, Claim.certificateOf] using fresh c stored
    obtain ⟨certs,inserted⟩ := Table.insert_succeeds wide free
    by_cases seen : db.hasNode n = true
    · exact ⟨_,by simp [Claim.insertCertificate, seen, commitInsert, inserted]; rfl⟩
    · have narrow : Schema.fits ({nodeId := n, registrationTs := some now} : Node) = true := by
        have all := wide
        simp only [Schema.fits, Claim.certificateOf, Bool.and_eq_true] at all
        exact all.1.1.2
      have absent : ∀ r ∈ db.nodes, Schema.conflict r
          (Schema.stored ({nodeId := n, registrationTs := some now} : Node)) = false := by
        intro r stored
        rw [Claim.stored_node width]
        by_contra hit
        have same : r.nodeId = n := by simpa [Schema.conflict] using hit
        exact seen (Db.hasNode_iff.mpr ⟨r,stored,same⟩)
      obtain ⟨nodes,added⟩ := Table.insert_succeeds narrow absent
      exact ⟨_,by simp [Claim.insertCertificate, seen, commitInsert, added, inserted]; rfl⟩

theorem accepted_ok_iff {row : ClaimChallenge} (stored : row ∈ db.claimChallenges) :
    (∃ issued, (Claim.concludeClaim pf db now randbits csr (.accept row)).2 = .ok issued) ↔
      ∃ s, Certifies pf db now randbits csr row.nodeId s := by
  have width := Claim.claim_node_varchar stored
  simp only [Claim.concludeClaim, Claim.issueCertificate]
  constructor
  · rintro ⟨issued,ok⟩
    split at ok
    · cases ok
    · rename_i s signed
      split at ok
      · cases ok
      · rename_i db' stored
        obtain ⟨wide,fresh⟩ := (insert_certificate_iff width).mp ⟨db',stored⟩
        exact ⟨s,signed,wide,fresh⟩
  · rintro ⟨s,signed,wide,fresh⟩
    have storable : ∃ db', Claim.insertCertificate (Claim.markVerified db now row.id) now
        ((Claim.markVerified db now row.id).hasNode row.nodeId) row.nodeId s = .ok db' :=
      (insert_certificate_iff width).mpr ⟨wide,fresh⟩
    obtain ⟨db',stored⟩ := storable
    rw [signed]
    simp only [stored]
    exact ⟨_,rfl⟩

theorem accepted_consumed {row : ClaimChallenge} (stored : row ∈ db.claimChallenges)
    (pending : row.status = .pending) :
    ¬ Unconsumed addressed db (Claim.concludeClaim pf db now randbits csr (.accept row)).1 := by
  intro kept
  have marked : {row with status := .verified, verifiedAt := some now} ∈
      (Claim.concludeClaim pf db now randbits csr (.accept row)).1.claimChallenges := by
    have here : {row with status := .verified, verifiedAt := some now} ∈
        (Claim.markVerified db now row.id).claimChallenges := by
      simp only [Claim.markVerified, Table.mem_update]
      exact ⟨row,stored,by simp⟩
    have concluded := Claim.conclude_claim_concluded pf db now randbits csr (.accept row)
    generalize (Claim.concludeClaim pf db now randbits csr (.accept row)).1 = db' at concluded
    cases concluded with
    | consumed failed => exact here
    | issued signed inserted =>
      obtain ⟨nodes,certs,eq,-⟩ := Claim.insert_certificate_ok inserted
      subst eq
      exact here
  obtain ⟨old,earlier,same⟩ : ∃ old ∈ db.claimChallenges,
      Kept addressed old {row with status := .verified, verifiedAt := some now} := by
    obtain ⟨i,inside,at_i⟩ := List.getElem_of_mem marked
    have bound : i < db.claimChallenges.rows.length := by
      rw [kept.challenges.length_eq]
      exact inside
    refine ⟨db.claimChallenges.rows[i],List.getElem_mem bound,?_⟩
    rw [← at_i]
    exact kept.challenges.get bound inside
  have kind : old.status = .verified ∧ old.id = row.id := by
    rcases same with eq | ⟨-,eq⟩
    · rw [← eq]
      exact ⟨rfl,rfl⟩
    · have status := congrArg ClaimChallenge.status eq
      have key := congrArg ClaimChallenge.id eq
      exact ⟨status.symm,key.symm⟩
  have equal : old = row :=
    Table.eq_of_conflict earlier stored (by simp [Schema.conflict, kind.2])
  rw [equal,pending] at kind
  cases kind.1

theorem conclusion_keeps_iff {verdict : Claim.Verdict}
    (about : ∀ row, verdict = .mismatch row → row ∈ db.claimChallenges ∧ addressed row)
    (usable : ∀ row, verdict = .accept row →
      row ∈ db.claimChallenges ∧ row.status = .pending) :
    (∀ e, (Claim.concludeClaim pf db now randbits csr verdict).2 = .error e →
        Unconsumed addressed db (Claim.concludeClaim pf db now randbits csr verdict).1) ↔
      ∀ row, verdict = .accept row → ∃ s, Certifies pf db now randbits csr row.nodeId s := by
  constructor
  · intro keeps row accepted
    subst accepted
    obtain ⟨stored,pending⟩ := usable row rfl
    rw [← accepted_ok_iff stored]
    match reply : (Claim.concludeClaim pf db now randbits csr (.accept row)).2 with
    | .ok issued => exact ⟨issued,rfl⟩
    | .error e => exact absurd (keeps e reply) (accepted_consumed stored pending)
  · intro certifiable e failed
    cases verdict with
    | refuse _ => exact unconsumed_refl
    | mismatch row =>
      obtain ⟨stored,named⟩ := about row rfl
      exact counted_unconsumed stored named
    | accept row =>
      obtain ⟨issued,ok⟩ := (accepted_ok_iff (usable row rfl).1).mpr (certifiable row rfl)
      rw [ok] at failed
      cases failed

end

variable {pf : Platform}

/-- Whatever challenge the call gets accepted, its request can be certified. -/
def Clean (pf : Platform) (w : World) (c : Call) : Prop :=
  ∀ row randbits csr, Accepts pf w c row randbits csr →
    ∃ s, Certifies pf w.db w.now randbits csr row.nodeId s

/-- The call accepts the challenge and stores a certificate of its own for it. -/
def IssuedFor (pf : Platform) (w : World) (c : Call) (row : ClaimChallenge)
    (s : Claim.Signed) : Prop :=
  ∃ randbits csr, Accepts pf w c row randbits csr ∧
    Certifies pf w.db w.now randbits csr row.nodeId s ∧
    Claim.certificateOf row.nodeId s ∈ (step pf w c).db.nodeCertificates

def Verified (id : Uuid) (n : Text) (db : Db) : Prop :=
  ∃ r ∈ db.claimChallenges, r.id = id ∧ r.nodeId = n ∧ r.status = .verified

def Stored (cert : NodeCertificate) (db : Db) : Prop :=
  ∃ revoked revokedAt, {cert with revoked := revoked, revokedAt := revokedAt} ∈ db.nodeCertificates

theorem concluded_verifies {db db' : Db} {now : Time} {randbits : Nat} {csr : Bytes}
    {verdict : Claim.Verdict} {id : Uuid} {n : Text}
    (concluded : Claim.Concluded pf db now randbits csr verdict db')
    (known : ∀ row, verdict = .accept row → row ∈ db.claimChallenges)
    (before : ¬ Verified id n db) (after : Verified id n db') :
    ∃ row, verdict = .accept row ∧ row.id = id ∧ row.nodeId = n := by
  have marked : ∀ row ∈ db.claimChallenges,
      Verified id n (Claim.markVerified db now row.id) → row.id = id ∧ row.nodeId = n := by
    intro row stored turned
    obtain ⟨r,member,key,named,status⟩ := turned
    simp only [Claim.markVerified, Table.mem_update] at member
    obtain ⟨old,earlier,eq⟩ := member
    split at eq
    · rename_i hit
      have equal : old = row :=
        Table.eq_of_conflict earlier stored (by simpa [Schema.conflict] using Or.inl hit)
      subst equal
      subst eq
      exact ⟨key,named⟩
    · subst eq
      exact absurd ⟨old,earlier,key,named,status⟩ before
  cases concluded with
  | refused => exact absurd after before
  | @counted row =>
    obtain ⟨r,member,key,named,status⟩ := after
    simp only [Claim.setAttempts, Table.mem_update] at member
    obtain ⟨old,earlier,eq⟩ := member
    have kept : old.id = id ∧ old.nodeId = n ∧ old.status = .verified := by
      rw [← key,← named,← status,← eq]
      split <;> exact ⟨rfl,rfl,rfl⟩
    exact absurd ⟨old,earlier,kept⟩ before
  | @consumed row failed =>
    obtain ⟨key,named⟩ := marked row (known row rfl) after
    exact ⟨row,rfl,key,named⟩
  | @issued row s _ signed stored =>
    obtain ⟨nodes,certs,eq,-⟩ := Claim.insert_certificate_ok stored
    subst eq
    obtain ⟨key,named⟩ := marked row (known row rfl) after
    exact ⟨row,rfl,key,named⟩

theorem concluded_stores {db db' : Db} {now : Time} {randbits : Nat} {csr : Bytes}
    {row : ClaimChallenge} {s : Claim.Signed} (known : row ∈ db.claimChallenges)
    (concluded : Claim.Concluded pf db now randbits csr (.accept row) db')
    (certifies : Certifies pf db now randbits csr row.nodeId s) :
    Claim.certificateOf row.nodeId s ∈ db'.nodeCertificates := by
  have width := Claim.claim_node_varchar known
  cases concluded with
  | consumed failed =>
    have storable : ∃ db', Claim.insertCertificate (Claim.markVerified db now row.id) now
        ((Claim.markVerified db now row.id).hasNode row.nodeId) row.nodeId s = .ok db' :=
      (insert_certificate_iff width).mpr ⟨certifies.fits,certifies.fresh⟩
    obtain ⟨_,ok⟩ := storable
    obtain ⟨e,broken⟩ := failed s certifies.signed
    have clash := ok.symm.trans broken
    cases clash
  | issued signed stored =>
    rw [certifies.signed] at signed
    cases signed
    obtain ⟨nodes,certs,eq,inserted,-⟩ := Claim.insert_certificate_ok stored
    subst eq
    apply (Table.mem_insert inserted).mpr
    exact Or.inr (Claim.stored_certificate width certifies.fits).symm

theorem concluded_issues_for {w : World} {c : Call} {id : Uuid} {n : Text} {db' : Db}
    {randbits : Nat} {csr : Bytes} {verdict : Claim.Verdict} (clean : Clean pf w c)
    (concluded : Claim.Concluded pf w.db w.now randbits csr verdict db')
    (accepts : ∀ row, verdict = .accept row →
      row ∈ w.db.claimChallenges ∧ Accepts pf w c row randbits csr)
    (before : ¬ Verified id n w.db) (after : Verified id n db') :
    ∃ row s, (∃ randbits csr, Accepts pf w c row randbits csr ∧
      Certifies pf w.db w.now randbits csr row.nodeId s ∧
      Claim.certificateOf row.nodeId s ∈ db'.nodeCertificates) ∧ row.id = id ∧ row.nodeId = n := by
  obtain ⟨row,accepted,key,named⟩ :=
    concluded_verifies concluded (fun row h => (accepts row h).1) before after
  have reached : Accepts pf w c row randbits csr := (accepts row accepted).2
  obtain ⟨s,certifies⟩ := clean row randbits csr reached
  rw [accepted] at concluded
  exact ⟨row,s,⟨randbits,csr,reached,certifies,
    concluded_stores (accepts row accepted).1 concluded certifies⟩,key,named⟩

theorem step_verifies {w : World} {c : Call} {id : Uuid} {n : Text} (clean : Clean pf w c)
    (before : ¬ Verified id n w.db) (after : Verified id n (step pf w c).db) :
    ∃ row s, IssuedFor pf w c row s ∧ row.id = id ∧ row.nodeId = n := by
  unfold IssuedFor
  rcases effect_claims (step_effect pf w c) with same | effect
  · unfold Verified at after
    rw [same.challenges] at after
    exact absurd after before
  · generalize (step pf w c).db = db' at effect after ⊢
    have inserted_pending : ∀ {row : ClaimChallenge} {t : Table ClaimChallenge},
        w.db.claimChallenges.insert row = .ok t → row.status = .pending →
          ¬ Verified id n {w.db with claimChallenges := t} := by
      intro row t inserted pending turned
      obtain ⟨r,member,key,named,status⟩ := turned
      rcases (Table.mem_insert inserted).mp member with old | new
      · exact before ⟨r,old,key,named,status⟩
      · rw [new] at status
        rw [show (Schema.stored row).status = row.status from rfl,pending] at status
        cases status
    cases effect with
    | initiatedSelf provisioned inserted => exact absurd after (inserted_pending inserted rfl)
    | initiatedAssisted inserted => exact absurd after (inserted_pending inserted rfl)
    | verifiedSelf present concluded =>
      refine concluded_issues_for clean concluded ?_ before after
      intro row accepted
      have accepts := Claim.self_claim_check_iff.mp accepted
      exact ⟨accepts.usable.stored,.self present accepts⟩
    | verifiedAssisted auth present concluded =>
      refine concluded_issues_for clean concluded ?_ before after
      intro row accepted
      have accepts := Claim.assisted_claim_check_iff.mp accepted
      exact ⟨accepts.usable.stored,.assisted auth present accepts⟩
    | revoked => exact absurd after before

theorem concluded_keeps_stored {db db' : Db} {now : Time} {randbits : Nat} {csr : Bytes}
    {verdict : Claim.Verdict} {cert : NodeCertificate} (stored : Stored cert db)
    (concluded : Claim.Concluded pf db now randbits csr verdict db') : Stored cert db' := by
  cases concluded with
  | refused => exact stored
  | counted => exact stored
  | consumed failed => exact stored
  | issued signed inserted =>
    obtain ⟨nodes,certs,eq,added,-⟩ := Claim.insert_certificate_ok inserted
    subst eq
    obtain ⟨revoked,revokedAt,member⟩ := stored
    exact ⟨revoked,revokedAt,(Table.mem_insert added).mpr (Or.inl member)⟩

theorem step_keeps_stored {w : World} {c : Call} {cert : NodeCertificate}
    (stored : Stored cert w.db) : Stored cert (step pf w c).db := by
  rcases effect_claims (step_effect pf w c) with same | effect
  · unfold Stored
    rw [same.certificates]
    exact stored
  · generalize (step pf w c).db = db' at effect ⊢
    cases effect with
    | initiatedSelf provisioned inserted => exact stored
    | initiatedAssisted inserted => exact stored
    | verifiedSelf present concluded => exact concluded_keeps_stored stored concluded
    | verifiedAssisted auth present concluded => exact concluded_keeps_stored stored concluded
    | @revoked serial =>
      obtain ⟨revoked,revokedAt,member⟩ := stored
      unfold Stored
      simp only [Claim.revokeCertificate, Table.mem_update]
      by_cases hit : cert.serial = serial
      · exact ⟨true,some w.now,_,member,by simp [hit]⟩
      · exact ⟨revoked,revokedAt,_,member,by simp [hit]⟩

theorem run_verified_issued {w : World} {cs : List Call} (free : ClaimFree w.db)
    (clean : Along (step pf) (Clean pf) w cs) {r : ClaimChallenge}
    (stored : r ∈ (run (step pf) w cs).db.claimChallenges) (status : r.status = .verified) :
    ∃ pre c post row s, cs = pre ++ c :: post ∧
      IssuedFor pf (run (step pf) w pre) c row s ∧ row.id = r.id ∧
      Stored (Claim.certificateOf r.nodeId s) (run (step pf) w cs).db := by
  have before : ¬ Verified r.id r.nodeId w.db := by
    rintro ⟨old,earlier,-⟩
    rw [Table.mem_def,free.challenges] at earlier
    cases earlier
  obtain ⟨pre,c,post,split,early,late⟩ := run_origin (step pf)
    (Q := fun v => Verified r.id r.nodeId v.db) before ⟨r,stored,rfl,rfl,status⟩
  subst split
  rw [along_append] at clean
  obtain ⟨row,s,issued,key,named⟩ := step_verifies clean.2.1 early late
  refine ⟨pre,c,post,row,s,rfl,issued,key,?_⟩
  rw [run_append]
  apply run_preserves (step pf) (I := fun v => Stored (Claim.certificateOf r.nodeId s) v.db)
    (fun _ _ => step_keeps_stored) post
  obtain ⟨_,_,-,-,certificate⟩ := issued
  rw [named] at certificate
  exact ⟨false,none,certificate⟩

/-- A failed verification keeps the challenges exactly when every challenge it
    accepts can be certified, and in a run of such calls every verified
    challenge has the certificate that was issued for it. -/
theorem failed_verification_keeps_challenges (pf : Platform) :
    (∀ db now randbits authId response csr,
      (∀ e, (Claim.verifySelfClaim pf db now randbits authId response csr).2 = .error e →
        Unconsumed (fun r => r.authId = some authId) db
          (Claim.verifySelfClaim pf db now randbits authId response csr).1) ↔
      ∀ row, Claim.AcceptsSelf pf db now authId response row →
        ∃ s, Certifies pf db now randbits csr row.nodeId s) ∧
    (∀ db now randbits userId csr,
      (∀ e, (Claim.verifyAssistedClaim pf db now randbits userId csr).2 = .error e →
        Unconsumed (fun r => r.userId = some userId) db
          (Claim.verifyAssistedClaim pf db now randbits userId csr).1) ↔
      ∀ row, Claim.AcceptsAssisted db now userId row →
        ∃ s, Certifies pf db now randbits csr row.nodeId s) ∧
    (∀ w cs, ClaimFree w.db → Along (step pf) (Clean pf) w cs →
      ∀ r ∈ (run (step pf) w cs).db.claimChallenges, r.status = .verified →
        ∃ pre c post row s, cs = pre ++ c :: post ∧
          IssuedFor pf (run (step pf) w pre) c row s ∧ row.id = r.id ∧
          Stored (Claim.certificateOf r.nodeId s) (run (step pf) w cs).db) := by
  refine ⟨?_,?_,?_⟩
  · intro db now randbits authId response csr
    unfold Claim.verifySelfClaim
    rw [conclusion_keeps_iff]
    · simp only [Claim.self_claim_check_iff]
    · intro row mismatched
      obtain ⟨usable,addressed⟩ := Claim.self_claim_check_row (Or.inr mismatched)
      exact ⟨usable.stored,addressed⟩
    · intro row accepted
      obtain ⟨usable,-⟩ := Claim.self_claim_check_row (Or.inl accepted)
      exact ⟨usable.stored,usable.pending⟩
  · intro db now randbits userId csr
    unfold Claim.verifyAssistedClaim
    rw [conclusion_keeps_iff]
    · simp only [Claim.assisted_claim_check_iff]
    · intro row mismatched
      exact absurd mismatched Claim.assisted_claim_check_no_mismatch
    · intro row accepted
      have usable := (Claim.assisted_claim_check_iff.mp accepted).usable
      exact ⟨usable.stored,usable.pending⟩
  · intro w cs free clean r stored status
    exact run_verified_issued free clean stored status

theorem device_csr_signed (now : Time) (randbits : Nat) (n : Text) :
    Claim.signDeviceCsr Deployment.platform now randbits Deployment.deviceCsr n =
      .ok ⟨Deployment.platform.intermediatePem ++ Deployment.platform.intermediatePem,
        hexadecimal (randbits ||| 1),Claim.wholeSeconds (now - minutes 1),
        Claim.wholeSeconds (now + days 1825),Claim.serial_spaceless randbits⟩ := by
  simp only [Claim.signDeviceCsr, Deployment.platform, ↓reduceIte]
  rfl

theorem claimed_challenge_has_certificate :
    (run (step Deployment.platform) oneUser
      (assistedClaim "AABBCCDDEEFF")).db.claimChallenges.rows.map (·.status) = [.verified] ∧
      ∀ r ∈ (run (step Deployment.platform) oneUser
        (assistedClaim "AABBCCDDEEFF")).db.claimChallenges, r.status = .verified →
        ∃ pre c post row s, assistedClaim "AABBCCDDEEFF" = pre ++ c :: post ∧
          IssuedFor Deployment.platform (run (step Deployment.platform) oneUser pre) c row s ∧
          row.id = r.id ∧ Stored (Claim.certificateOf r.nodeId s)
            (run (step Deployment.platform) oneUser (assistedClaim "AABBCCDDEEFF")).db := by
  refine ⟨by decide +kernel,?_⟩
  apply (failed_verification_keeps_challenges Deployment.platform).2.2
  · exact ⟨rfl,rfl⟩
  · refine ⟨?_,?_,trivial⟩
    · intro row randbits csr accepts
      cases accepts
    · intro row randbits csr accepts
      cases accepts with
      | assisted auth present accepted =>
        have minted : ∀ r ∈ (step Deployment.platform oneUser (.user 1
            (.initiateAssistedClaim 10 "AABBCCDDEEFF" "esp32"))).db.claimChallenges.rows,
            r.nodeId = "aabbccddeeff".toList := by decide +kernel
        rw [minted row accepted.usable.stored]
        exact ⟨_,device_csr_signed 0 4 _,by decide +kernel,by decide +kernel⟩

/-- A malformed request is refused, and the challenge it was sent for is spent
    all the same. -/
theorem malformed_request_spends_challenge :
    let opened := (run (step Deployment.platform) oneUser
      [.user 1 (.initiateAssistedClaim 10 "AABBCCDDEEFF" "esp32")]).db
    opened.claimChallenges.rows.map (·.status) = [.pending] ∧
      (Claim.verifyAssistedClaim Deployment.platform opened 0 4 1 [1]).2.isOk = false ∧
      (Claim.verifyAssistedClaim Deployment.platform opened 0 4 1 [1]).1.claimChallenges.rows.map
        (·.status) = [.verified] ∧
      (Claim.verifyAssistedClaim Deployment.platform opened 0 4 1 [1]).1.nodeCertificates.rows =
        [] := by
  decide +kernel

end RainmakerServer.ClaimOutcome
