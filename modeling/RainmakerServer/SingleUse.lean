import RainmakerServer.ClaimInterleaving

/-!
How many certificates one challenge can turn into. The status of a challenge is
tested by the read and set by a later commit that does not test it again, so
two verifications that have both read the challenge both issue from it. When
every such commit still finds the challenge pending, at most one does.
-/
namespace RainmakerServer.SingleUse
open Tables Runs ClaimIdentity ClaimInterleaving
variable {ι : Type}

/-- The stored certificates that were issued from one challenge. -/
def certificatesOf (c : Config ι) (id : Uuid) : List NodeCertificate :=
  c.world.db.nodeCertificates.select fun cert => c.issued.contains (id,cert.serial)

def marksPending (c : Config ι) : Action ι → Bool
  | .next i _ => match c.phase i with
    | .accepted row => c.world.db.claimChallenges.rows.any fun r =>
        r.id == row.id && r.status == .pending
    | _ => true
  | .call _ => true

def Spent (db : Db) (id : Uuid) : Prop :=
  ∃ r ∈ db.claimChallenges, r.id = id ∧ r.status = .verified

section
variable {db db' : Db} {id : Uuid}

theorem spent_grows (grows : Grows db db') (spent : Spent db id) : Spent db' id := by
  obtain ⟨r,stored,key,status⟩ := spent
  obtain ⟨r',stored',key',-,kept⟩ := grows.challenges r stored
  exact ⟨r',stored',key'.trans key,kept status⟩

theorem pending_not_spent {r : ClaimChallenge} (stored : r ∈ db.claimChallenges) (key : r.id = id)
    (pending : r.status = .pending) : ¬ Spent db id := by
  rintro ⟨other,member,same,verified⟩
  have equal : other = r :=
    Table.eq_of_conflict member stored (by simp [Schema.conflict, same, key])
  rw [equal,pending] at verified
  cases verified

theorem mark_spends {r : ClaimChallenge} {now : Time} (stored : r ∈ db.claimChallenges)
    (key : r.id = id) : Spent (Claim.markVerified db now id) id := by
  unfold Spent
  simp only [Claim.markVerified, Table.mem_update]
  exact ⟨_,⟨r,stored,rfl⟩,by simp [key]⟩

end

structure UsedOnce (c : Config ι) : Prop where
  spending : ∀ i row, (c.phase i).spending = some row → Spent c.world.db row.id
  apart : ∀ i j row other, (c.phase i).spending = some row →
    (c.phase j).spending = some other → row.id = other.id → i = j
  logged : ∀ entry ∈ c.issued, Spent c.world.db entry.1
  released : ∀ i row, (c.phase i).spending = some row → ∀ entry ∈ c.issued, entry.1 ≠ row.id
  once : (c.issued.map (·.1)).Nodup

theorem used_once_start (w : World) : UsedOnce (Config.start (ι := ι) w) where
  spending i row held := by cases held
  apart i j row other held := by cases held
  logged entry member := by cases member
  released i row held := by cases held
  once := List.nodup_nil

section
variable {c : Config ι} {db' : Db}

theorem used_once_grown {w : World} (used : UsedOnce c) (grows : Grows c.world.db w.db) :
    UsedOnce {c with world := w} where
  spending i row held := spent_grows grows (used.spending i row held)
  apart := used.apart
  logged entry member := spent_grows grows (used.logged entry member)
  released := used.released
  once := used.once

variable [DecidableEq ι]

theorem used_once_kept {i : ι} {q : Phase} (used : UsedOnce c) (grows : Grows c.world.db db')
    (kept : ∀ row, q.spending = some row → (c.phase i).spending = some row) :
    UsedOnce (⟨{c.world with db := db'},Function.update c.phase i q,c.issued⟩ : Config ι) := by
  have earlier : ∀ j row, (Function.update c.phase i q j).spending = some row →
      (c.phase j).spending = some row := by
    intro j row held
    by_cases same : j = i
    · subst j
      rw [Function.update_self] at held
      exact kept row held
    · rwa [Function.update_of_ne same] at held
  constructor
  · intro j row held
    exact spent_grows grows (used.spending j row (earlier j row held))
  · intro j k row other first second
    exact used.apart j k row other (earlier j row first) (earlier k other second)
  · intro entry member
    exact spent_grows grows (used.logged entry member)
  · intro j row held
    exact used.released j row (earlier j row held)
  · exact used.once

theorem used_once_marked {i : ι} {row r : ClaimChallenge} (used : UsedOnce c)
    (stored : r ∈ c.world.db.claimChallenges) (key : r.id = row.id)
    (pending : r.status = .pending) :
    UsedOnce (⟨{c.world with db := Claim.markVerified c.world.db c.world.now row.id},
      Function.update c.phase i (.marked row),c.issued⟩ : Config ι) := by
  have grows : Grows c.world.db (Claim.markVerified c.world.db c.world.now row.id) :=
    mark_grows row.id
  have fresh : ¬ Spent c.world.db row.id := pending_not_spent stored key pending
  have others : ∀ j held, j ≠ i →
      (Function.update c.phase i (.marked row) j).spending = some held →
        (c.phase j).spending = some held ∧ held.id ≠ row.id := by
    intro j held different spending
    rw [Function.update_of_ne different] at spending
    refine ⟨spending,?_⟩
    intro same
    have spent := used.spending j held spending
    rw [same] at spent
    exact fresh spent
  have own : ∀ held, (Function.update c.phase i (.marked row) i).spending = some held →
      held = row := by
    intro held spending
    rw [Function.update_self] at spending
    cases spending
    rfl
  constructor
  · intro j held spending
    by_cases same : j = i
    · subst j
      rw [own held spending]
      exact mark_spends stored key
    · exact spent_grows grows (used.spending j held (others j held same spending).1)
  · intro j k first second left right equal
    by_cases here : j = i
    · by_cases there : k = i
      · rw [here,there]
      · subst j
        rw [own first left] at equal
        exact absurd equal.symm (others k second there right).2
    · by_cases there : k = i
      · subst k
        rw [own second right] at equal
        exact absurd equal (others j first here left).2
      · exact used.apart j k first second (others j first here left).1
          (others k second there right).1 equal
  · intro entry member
    exact spent_grows grows (used.logged entry member)
  · intro j held spending entry member
    by_cases same : j = i
    · subst j
      rw [own held spending]
      intro equal
      have spent := used.logged entry member
      rw [equal] at spent
      exact fresh spent
    · exact used.released j held (others j held same spending).1 entry member
  · exact used.once

theorem used_once_stored {i : ι} {row : ClaimChallenge} {serial : Text} (used : UsedOnce c)
    (held : (c.phase i).spending = some row) (grows : Grows c.world.db db') :
    UsedOnce (⟨{c.world with db := db'},Function.update c.phase i .finished,
      [(row.id,serial)] ++ c.issued⟩ : Config ι) := by
  have others : ∀ j other, (Function.update c.phase i .finished j).spending = some other →
      j ≠ i ∧ (c.phase j).spending = some other := by
    intro j other spending
    by_cases same : j = i
    · subst j
      rw [Function.update_self] at spending
      cases spending
    · rw [Function.update_of_ne same] at spending
      exact ⟨same,spending⟩
  constructor
  · intro j other spending
    exact spent_grows grows (used.spending j other (others j other spending).2)
  · intro j k first second left right equal
    exact used.apart j k first second (others j first left).2 (others k second right).2 equal
  · intro entry member
    rcases List.mem_cons.mp member with new | old
    · subst new
      exact spent_grows grows (used.spending i row held)
    · exact spent_grows grows (used.logged entry old)
  · intro j other spending entry member
    obtain ⟨different,earlier⟩ := others j other spending
    rcases List.mem_cons.mp member with new | old
    · subst new
      intro equal
      exact different (used.apart j i other row earlier held equal.symm)
    · exact used.released j other earlier entry old
  · refine List.nodup_cons.mpr ⟨?_,used.once⟩
    intro again
    obtain ⟨entry,member,equal⟩ := List.mem_map.mp again
    exact used.released i row held entry member equal

end

theorem used_once_certificates {c : Config ι} (used : UsedOnce c) (id : Uuid) :
    (certificatesOf c id).length ≤ 1 := by
  have key : ∀ a b : NodeCertificate, c.issued.contains (id,a.serial) = true →
      c.issued.contains (id,b.serial) = true → Schema.conflict a b = true := by
    intro a b first second
    have left : (id,a.serial) ∈ c.issued := by simpa using first
    have right : (id,b.serial) ∈ c.issued := by simpa using second
    have equal : (id,a.serial) = (id,b.serial) :=
      List.inj_on_of_nodup_map used.once left right rfl
    simp only [Prod.mk.injEq, true_and] at equal
    simp [Schema.conflict, equal]
  rcases scalar_by_key (t := c.world.db.nodeCertificates) key with ⟨r,-,-,sole⟩ | ⟨-,none⟩
  · unfold certificatesOf
    rw [scalar_some sole]
    simp
  · unfold certificatesOf
    rw [scalar_none none]
    simp

variable [DecidableEq ι]

theorem act_used_once (pf : Platform) (jobs : ι → Job) {c : Config ι} {a : Action ι}
    (used : UsedOnce c) (pending : marksPending c a = true) : UsedOnce (act pf jobs c a) := by
  cases a with
  | next i randbits =>
    have moved := advance_moved pf c.world.db c.world.now randbits (jobs i) (c.phase i)
    simp only [act]
    generalize advance pf c.world.db c.world.now randbits (jobs i) (c.phase i) = out at moved ⊢
    obtain ⟨db',q,issued⟩ := out
    dsimp only at moved ⊢
    have grows : Grows c.world.db db' := moved_grows moved
    generalize current : c.phase i = p at moved
    cases moved with
    | quiet same empty =>
      apply used_once_kept used grows
      intro row spending
      cases q <;> simp [Phase.held, Phase.spending] at empty spending
    | checked stored verdict =>
      apply used_once_kept used grows
      intro row spending
      rcases verdict with eq | eq <;> simp [eq, Phase.spending] at spending
    | counted =>
      apply used_once_kept used grows
      intro row spending
      cases spending
    | @marked row =>
      simp only [marksPending, current, List.any_eq_true, Bool.and_eq_true, beq_iff_eq] at pending
      obtain ⟨r,stored,key,unused⟩ := pending
      exact used_once_marked used stored key unused
    | @signed row s =>
      apply used_once_kept used grows
      intro other spending
      rw [current]
      exact spending
    | @looked row s =>
      apply used_once_kept used grows
      intro other spending
      rw [current]
      exact spending
    | @stored row s seen _ inserted =>
      exact used_once_stored used (by rw [current]; rfl) grows
  | call d =>
    have grows := act_grows pf jobs c (.call d)
    simp only [act] at grows ⊢
    split
    · exact used
    · rename_i plain
      rw [if_neg plain] at grows
      exact used_once_grown used grows

/-- However the steps of any jobs and calls are interleaved, a challenge turns
    into at most one certificate when every mark finds it pending. -/
theorem one_certificate_per_challenge (pf : Platform) (jobs : ι → Job) (w : World)
    (acts : List (Action ι))
    (pending : Along (act pf jobs) (fun c a => marksPending c a = true) (Config.start w) acts)
    (id : Uuid) :
    (certificatesOf (run (act pf jobs) (Config.start w) acts) id).length ≤ 1 := by
  apply used_once_certificates
  exact run_invariant (act pf jobs) (fun _ _ => act_used_once pf jobs) (used_once_start w) pending

def twoRequests (_ : Bool) : Job := .verifyAssistedClaim 1 Deployment.deviceCsr

def opening : Action Bool := .call (.user 1 (.initiateAssistedClaim 10 "AABBCCDDEEFF" "esp32"))

def oneAfterTheOther : List (Action Bool) :=
  [opening,.next false 0,.next false 0,.next true 0,.next false 4,.next false 0,.next false 0,
   .next true 0]

def bothRead : List (Action Bool) :=
  [opening,.next false 0,.next true 0,.next false 0,.next true 0,.next false 4,.next false 0,
   .next false 0,.next true 6,.next true 0,.next true 0]

theorem second_request_issues_nothing :
    (certificatesOf (run (act Deployment.platform twoRequests) (Config.start oneUser)
        oneAfterTheOther) 10).map (·.cn) = ["aabbccddeeff".toList] ∧
      ∀ id, (certificatesOf (run (act Deployment.platform twoRequests) (Config.start oneUser)
        oneAfterTheOther) id).length ≤ 1 := by
  refine ⟨by decide +kernel,?_⟩
  exact one_certificate_per_challenge Deployment.platform twoRequests oneUser oneAfterTheOther
    (by decide +kernel)

/-- One challenge, two certificates. -/
theorem both_requests_issue :
    (certificatesOf (run (act Deployment.platform twoRequests) (Config.start oneUser)
      bothRead) 10).map (fun cert => (cert.cn,cert.serial)) =
        [("aabbccddeeff".toList,"5".toList),("aabbccddeeff".toList,"7".toList)] := by
  decide +kernel

end RainmakerServer.SingleUse
