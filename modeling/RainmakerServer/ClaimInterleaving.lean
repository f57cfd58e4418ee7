import RainmakerServer.ClaimOutcome

/-!
Replicas serving at the same time. A verification is five database steps (the
checks on the challenge, the commit that marks it, the signature, the lookup of
the node, the commit of the certificate) and an ingested report is four; any
job may be advanced between two steps of another, and every other call may be
served in between. Nothing locks the challenge between the check and the mark.
-/
namespace RainmakerServer.ClaimInterleaving
open Tables Runs ClaimIdentity ClaimProvenance

/-- A call that is served step by step. -/
inductive Job where
  | verifySelfClaim (authId challengeResponse : Text) (csr : Bytes)
  | verifyAssistedClaim (userId : Uuid) (csr : Bytes)
  | config (nodeId : Text) (payload : JsonObject)
  | paramsLocal (nodeId : Text) (payload : JsonObject)

namespace Job

def csr : Job → Bytes
  | .verifySelfClaim _ _ csr => csr
  | .verifyAssistedClaim _ csr => csr
  | _ => []

end Job

inductive Phase where
  | idle
  | mismatched (row : ClaimChallenge)
  | accepted (row : ClaimChallenge)
  | marked (row : ClaimChallenge)
  | signed (row : ClaimChallenge) (s : Claim.Signed)
  | looked (row : ClaimChallenge) (s : Claim.Signed) (nodeSeen : Bool)
  | nodeLooked (nodeId : Text) (nodeSeen : Bool)
  | nodeEnsured
  | configRead (nodeId : Text) (seen : Option NodeConfig) (payload : JsonObject)
  | shadowRead (nodeId : Text) (seen : Option NodeParamsShadow) (params : JsonObject)
  | finished

def afterCheck : Claim.Verdict → Phase
  | .refuse _ => .finished
  | .mismatch row => .mismatched row
  | .accept row => .accepted row

/-- The first step: the route's own checks and the first query. -/
def begin (pf : Platform) (db : Db) (now : Time) : Job → Phase
  | .verifySelfClaim authId response csr =>
    if csr.isEmpty || authId.isEmpty || response.isEmpty then .finished
    else afterCheck (Claim.verifySelfClaimCheck pf db now authId response)
  | .verifyAssistedClaim userId csr => match Accounts.currentUser db userId with
    | .error _ => .finished
    | .ok _ =>
      if csr.isEmpty then .finished else afterCheck (Claim.verifyAssistedClaimCheck db now userId)
  | .config n _ => .nodeLooked n (db.hasNode n)
  | .paramsLocal n _ => .nodeLooked n (db.hasNode n)

structure Outcome where
  db : Db
  phase : Phase
  issued : List (Uuid × Text) := []

def committed (db : Db) (next : Phase) : Except Exc Db → Outcome
  | .error _ => {db := db, phase := .finished}
  | .ok db' => {db := db', phase := next}

def advance (pf : Platform) (db : Db) (now : Time) (randbits : Nat) (job : Job) :
    Phase → Outcome
  | .idle => {db := db, phase := begin pf db now job}
  | .mismatched row => {db := Claim.setAttempts db row.id (row.attempts + 1), phase := .finished}
  | .accepted row => {db := Claim.markVerified db now row.id, phase := .marked row}
  | .marked row => match Claim.signDeviceCsr pf now randbits job.csr row.nodeId with
    | .error _ => {db := db, phase := .finished}
    | .ok s => {db := db, phase := .signed row s}
  | .signed row s => {db := db, phase := .looked row s (db.hasNode row.nodeId)}
  | .looked row s seen => match Claim.insertCertificate db now seen row.nodeId s with
    | .error _ => {db := db, phase := .finished}
    | .ok db' => {db := db', phase := .finished, issued := [(row.id,s.serial)]}
  | .nodeLooked n seen => if seen then {db := db, phase := .nodeEnsured}
    else committed db .nodeEnsured (Mqtt.createNode db now n)
  | .nodeEnsured => match job with
    | .config n payload => {db := db, phase := .configRead n (Nodes.readConfig db n) payload}
    | .paramsLocal n params => {db := db, phase := .shadowRead n (Nodes.readShadow db n) params}
    | _ => {db := db, phase := .finished}
  | .configRead n seen payload => committed db .finished (Nodes.commitConfig db n seen payload)
  | .shadowRead n seen params => committed db .finished (Nodes.commitShadow db n seen params)
  | .finished => {db := db, phase := .finished}

def drive (pf : Platform) (now : Time) (randbits : Nat) (job : Job) : Nat → Db → Phase → Db
  | 0, db, _ => db
  | k + 1, db, phase =>
    let out := advance pf db now randbits job phase
    drive pf now randbits job k out.db out.phase

theorem drive_finished (pf : Platform) (now : Time) (randbits : Nat) (job : Job) (k : Nat)
    (db : Db) : drive pf now randbits job k db .finished = db := by
  induction k with
  | zero => rfl
  | succ k ih => exact ih

theorem drive_verdict (pf : Platform) (now : Time) (randbits : Nat) (job : Job) (db : Db)
    (verdict : Claim.Verdict) : drive pf now randbits job 4 db (afterCheck verdict) =
      (Claim.concludeClaim pf db now randbits job.csr verdict).1 := by
  cases verdict with
  | refuse e => exact drive_finished pf now randbits job 4 db
  | mismatch row => exact drive_finished pf now randbits job 3 _
  | accept row =>
    simp only [Claim.concludeClaim, Claim.issueCertificate]
    cases signing : Claim.signDeviceCsr pf now randbits job.csr row.nodeId with
    | error e => simp only [afterCheck, drive, advance, signing, raise]
    | ok s =>
      cases storing : Claim.insertCertificate (Claim.markVerified db now row.id) now
          ((Claim.markVerified db now row.id).hasNode row.nodeId) row.nodeId s with
      | error e => simp only [afterCheck, drive, advance, signing, storing, raise]
      | ok db' => simp only [afterCheck, drive, advance, signing, storing, done]

theorem drive_verify_self (pf : Platform) (now : Time) (randbits : Nat) (db : Db)
    (authId response : Text) (csr : Bytes) :
    drive pf now randbits (.verifySelfClaim authId response csr) 5 db .idle =
      Api.serve pf db now (.verifySelfClaim randbits authId response csr) := by
  rw [drive]
  simp only [advance, begin, Api.serve]
  split
  · exact drive_finished pf now randbits _ 4 db
  · exact drive_verdict pf now randbits _ db _

theorem drive_verify_assisted (pf : Platform) (now : Time) (randbits : Nat) (db : Db)
    (userId : Uuid) (csr : Bytes) :
    drive pf now randbits (.verifyAssistedClaim userId csr) 5 db .idle =
      Api.serve pf db now (.user userId (.verifyAssistedClaim randbits csr)) := by
  rw [drive]
  simp only [advance, begin, Api.serve]
  cases auth : Accounts.currentUser db userId with
  | error e => exact drive_finished pf now randbits _ 4 db
  | ok user =>
    have key : user.id = userId := (Accounts.current_user_ok auth).2.1
    simp only [Api.serveUser]
    split
    · exact drive_finished pf now randbits _ 4 db
    · rw [key]
      exact drive_verdict pf now randbits _ db _

theorem drive_committed (pf : Platform) (now : Time) (randbits : Nat) (job : Job) (db : Db)
    (last : Except Exc Db) : drive pf now randbits job 0 (committed db .finished last).db
      (committed db .finished last).phase = (Mqtt.commitLast db last).1 := by
  cases last with
  | error e => rfl
  | ok db' => rfl

theorem drive_ensured {pf : Platform} {now : Time} {randbits : Nat} {job : Job} {db : Db} {n : Text}
    {last : Db → Except Exc Db} (first : begin pf db now job = .nodeLooked n (db.hasNode n))
    (rest : ∀ db', drive pf now randbits job 2 db' .nodeEnsured =
      (Mqtt.commitLast db' (last db')).1) : drive pf now randbits job 4 db .idle =
      (match Mqtt.ensureNode db now n with
        | .error e => raise db e
        | .ok db' => Mqtt.commitLast db' (last db')).1 := by
  rw [drive,drive]
  simp only [advance, first, Mqtt.ensureNode]
  cases known : db.hasNode n with
  | true => exact rest db
  | false =>
    simp only [Bool.false_eq_true, ↓reduceIte]
    cases created : Mqtt.createNode db now n with
    | error e => exact drive_finished pf now randbits job 2 db
    | ok db' => exact rest db'

theorem refreshed_report {db : Db} {now : Time} {n : Text} {last : Db → Except Exc Db}
    {found : Db → Bool} :
    (match Mqtt.ensureNode db now n with
      | .error e => raise db e
      | .ok db' => Nodes.refreshed found (Mqtt.commitLast db' (last db'))).1 =
    (match Mqtt.ensureNode db now n with
      | .error e => raise db e
      | .ok db' => Mqtt.commitLast db' (last db')).1 := by
  cases Mqtt.ensureNode db now n with
  | error e => rfl
  | ok db' => exact Nodes.refreshed_db found _

theorem drive_config (pf : Platform) (now : Time) (randbits : Nat) (db : Db) (n : Text)
    (payload : JsonObject) : drive pf now randbits (.config n payload) 4 db .idle =
      (Mqtt.handleConfig db now n (.obj payload)).1 := by
  have rest : ∀ db', drive pf now randbits (.config n payload) 2 db' .nodeEnsured =
      (Mqtt.commitLast db' (Nodes.upsertNodeConfig db' n payload)).1 := by
    intro db'
    exact drive_committed pf now randbits (.config n payload) db' _
  exact (drive_ensured rfl rest).trans refreshed_report.symm

theorem drive_params_local (pf : Platform) (now : Time) (randbits : Nat) (db : Db) (n : Text)
    (params : JsonObject) : drive pf now randbits (.paramsLocal n params) 4 db .idle =
      (Mqtt.handleParamsLocal db now n (.obj params)).1 := by
  have rest : ∀ db', drive pf now randbits (.paramsLocal n params) 2 db' .nodeEnsured =
      (Mqtt.commitLast db' (Nodes.upsertParamsShadow db' n params)).1 := by
    intro db'
    exact drive_committed pf now randbits (.paramsLocal n params) db' _
  exact (drive_ensured rfl rest).trans refreshed_report.symm

structure Config (ι : Type) where
  world : World
  phase : ι → Phase
  issued : List (Uuid × Text)

def Config.start {ι : Type} (w : World) : Config ι := ⟨w,fun _ => .idle,[]⟩

inductive Action (ι : Type) where
  | next (i : ι) (randbits : Nat)
  | call (c : Call)

def isVerification : Call → Bool
  | .verifySelfClaim _ _ _ _ => true
  | .user _ (.verifyAssistedClaim _ _) => true
  | _ => false

variable {ι : Type} [DecidableEq ι]

/-- Verifications are jobs; any other call is served in one piece. -/
def act (pf : Platform) (jobs : ι → Job) (c : Config ι) : Action ι → Config ι
  | .next i randbits =>
    let out := advance pf c.world.db c.world.now randbits (jobs i) (c.phase i)
    ⟨{c.world with db := out.db},Function.update c.phase i out.phase,out.issued ++ c.issued⟩
  | .call d => if isVerification d then c else {c with world := Api.step pf c.world d}

/-! What one step can do. -/

def Phase.held : Phase → Option ClaimChallenge
  | .mismatched row => some row
  | .accepted row => some row
  | .marked row => some row
  | .signed row _ => some row
  | .looked row _ _ => some row
  | _ => none

def Phase.spending : Phase → Option ClaimChallenge
  | .marked row => some row
  | .signed row _ => some row
  | .looked row _ _ => some row
  | _ => none

inductive Moved (db : Db) (now : Time) : Phase → Db → Phase → List (Uuid × Text) → Prop where
  | quiet {p q : Phase} {db' : Db} (same : SameClaims db db') (empty : q.held = none) :
      Moved db now p db' q []
  | checked {row : ClaimChallenge} {q : Phase} (stored : row ∈ db.claimChallenges)
      (verdict : q = .mismatched row ∨ q = .accepted row) : Moved db now .idle db q []
  | counted {row : ClaimChallenge} : Moved db now (.mismatched row)
      (Claim.setAttempts db row.id (row.attempts + 1)) .finished []
  | marked {row : ClaimChallenge} : Moved db now (.accepted row)
      (Claim.markVerified db now row.id) (.marked row) []
  | signed {row : ClaimChallenge} {s : Claim.Signed} :
      Moved db now (.marked row) db (.signed row s) []
  | looked {row : ClaimChallenge} {s : Claim.Signed} :
      Moved db now (.signed row s) db (.looked row s (db.hasNode row.nodeId)) []
  | stored {row : ClaimChallenge} {s : Claim.Signed} {seen : Bool} {db' : Db}
      (inserted : Claim.insertCertificate db now seen row.nodeId s = .ok db') :
      Moved db now (.looked row s seen) db' .finished [(row.id,s.serial)]

section
variable {pf : Platform} {db db' : Db} {now : Time}

theorem check_moved {verdict : Claim.Verdict}
    (about : ∀ row, verdict = .accept row ∨ verdict = .mismatch row → row ∈ db.claimChallenges) :
    Moved db now .idle db (afterCheck verdict) [] := by
  cases verdict with
  | refuse e => exact .quiet (same_claims_refl db) rfl
  | mismatch row => exact .checked (about row (Or.inr rfl)) (Or.inl rfl)
  | accept row => exact .checked (about row (Or.inl rfl)) (Or.inr rfl)

theorem begin_moved (job : Job) : Moved db now .idle db (begin pf db now job) [] := by
  have silent : ∀ {q : Phase}, q.held = none → Moved db now .idle db q [] := by
    intro q empty
    exact .quiet (same_claims_refl db) empty
  cases job with
  | verifySelfClaim authId response csr =>
    simp only [begin]
    split
    · exact silent rfl
    · apply check_moved
      intro row about
      exact (Claim.self_claim_check_row about).1.stored
  | verifyAssistedClaim userId csr =>
    simp only [begin]
    split
    · exact silent rfl
    · split
      · exact silent rfl
      · apply check_moved
        intro row about
        rcases about with accepted | mismatched
        · exact (Claim.assisted_claim_check_iff.mp accepted).usable.stored
        · exact absurd mismatched Claim.assisted_claim_check_no_mismatch
  | config n payload => exact silent rfl
  | paramsLocal n params => exact silent rfl

theorem committed_moved {p next : Phase} {last : Except Exc Db} {n : Text} (empty : next.held = none)
    (report : ∀ db', last = .ok db' → Nodes.Reports n db db') :
    Moved db now p (committed db next last).db (committed db next last).phase
      (committed db next last).issued := by
  cases last with
  | error e => exact .quiet (same_claims_refl db) rfl
  | ok db' => exact .quiet (reports_same_claims (report db' rfl)) empty

theorem advance_moved (pf : Platform) (db : Db) (now : Time) (randbits : Nat) (job : Job)
    (p : Phase) :
    Moved db now p (advance pf db now randbits job p).db (advance pf db now randbits job p).phase
      (advance pf db now randbits job p).issued := by
  cases p with
  | idle => exact begin_moved job
  | mismatched row => exact .counted
  | accepted row => exact .marked
  | marked row =>
    simp only [advance]
    split
    · exact .quiet (same_claims_refl db) rfl
    · exact .signed
  | signed row s => exact .looked
  | looked row s seen =>
    simp only [advance]
    split
    · exact .quiet (same_claims_refl db) rfl
    · rename_i inserted
      exact .stored inserted
  | nodeLooked n seen =>
    simp only [advance]
    split
    · exact .quiet (same_claims_refl db) rfl
    · exact committed_moved rfl fun _ => Mqtt.create_node_reports
  | nodeEnsured =>
    simp only [advance]
    split
    · exact .quiet (same_claims_refl db) rfl
    · exact .quiet (same_claims_refl db) rfl
    · exact .quiet (same_claims_refl db) rfl
  | configRead n seen payload => exact committed_moved rfl fun _ => Nodes.commit_config_reports
  | shadowRead n seen params => exact committed_moved rfl fun _ => Nodes.commit_shadow_reports
  | finished => exact .quiet (same_claims_refl db) rfl

structure Grows (db db' : Db) : Prop where
  challenges : ∀ r ∈ db.claimChallenges, ∃ r' ∈ db'.claimChallenges, r'.id = r.id ∧
    r'.nodeId = r.nodeId ∧ (r.status = .verified → r'.status = .verified)
  nodes : ∀ n, db.hasNode n = true → db'.hasNode n = true

theorem grows_of_same (same : SameClaims db db') : Grows db db' := by
  refine ⟨?_,same.nodes⟩
  intro r stored
  rw [same.challenges]
  exact ⟨r,stored,rfl,rfl,fun h => h⟩

theorem grows_refl (db : Db) : Grows db db := grows_of_same (same_claims_refl db)

theorem grows_of_inserted {row : ClaimChallenge} {t : Table ClaimChallenge}
    (inserted : db.claimChallenges.insert row = .ok t) :
    Grows db {db with claimChallenges := t} := by
  refine ⟨?_,fun _ h => h⟩
  intro r stored
  exact ⟨r,(Table.mem_insert inserted).mpr (Or.inl stored),rfl,rfl,fun h => h⟩

theorem mark_grows (id : Uuid) : Grows db (Claim.markVerified db now id) := by
  refine ⟨?_,fun _ h => h⟩
  intro r stored
  simp only [Claim.markVerified, Table.mem_update]
  refine ⟨_,⟨r,stored,rfl⟩,?_⟩
  split
  · exact ⟨rfl,rfl,fun _ => rfl⟩
  · exact ⟨rfl,rfl,fun h => h⟩

theorem count_grows (id : Uuid) (attempts : Nat) : Grows db (Claim.setAttempts db id attempts) := by
  refine ⟨?_,fun _ h => h⟩
  intro r stored
  simp only [Claim.setAttempts, Table.mem_update]
  refine ⟨_,⟨r,stored,rfl⟩,?_⟩
  split
  · exact ⟨rfl,rfl,fun h => h⟩
  · exact ⟨rfl,rfl,fun h => h⟩

theorem store_grows {seen : Bool} {n : Text} {s : Claim.Signed}
    (inserted : Claim.insertCertificate db now seen n s = .ok db') : Grows db db' := by
  obtain ⟨nodes,certs,eq,-,⟨-,same⟩ | ⟨-,added⟩⟩ := Claim.insert_certificate_ok inserted
  · subst eq
    subst same
    exact ⟨fun r stored => ⟨r,stored,rfl,rfl,fun h => h⟩,fun _ h => h⟩
  · subst eq
    refine ⟨fun r stored => ⟨r,stored,rfl,rfl,fun h => h⟩,?_⟩
    intro m present
    obtain ⟨r,stored,named⟩ := Db.hasNode_iff.mp present
    exact Db.hasNode_iff.mpr ⟨r,(Table.mem_insert added).mpr (Or.inl stored),named⟩

theorem moved_grows {p q : Phase} {issued : List (Uuid × Text)}
    (moved : Moved db now p db' q issued) : Grows db db' := by
  cases moved with
  | quiet same empty => exact grows_of_same same
  | checked stored verdict => exact grows_refl db
  | counted => exact count_grows _ _
  | marked => exact mark_grows _
  | signed => exact grows_refl db
  | looked => exact grows_refl db
  | stored inserted => exact store_grows inserted

theorem call_cases (pf : Platform) (w : World) (d : Call) (plain : isVerification d = false) :
    SameClaims w.db (Api.step pf w d).db ∨
      (∃ row t, w.db.claimChallenges.insert row = .ok t ∧
        SoundChallenge pf (Schema.stored row) ∧
        (Api.step pf w d).db = {w.db with claimChallenges := t}) ∨
      ∃ serial, (Api.step pf w d).db = Claim.revokeCertificate w.db w.now serial := by
  rcases effect_claims (Api.step_effect pf w d) with same | effect
  · exact Or.inl same
  · right
    generalize (Api.step pf w d).db = after at effect ⊢
    cases effect with
    | initiatedSelf provisioned inserted =>
      exact Or.inl ⟨_,_,inserted,self_challenge_sound provisioned,rfl⟩
    | initiatedAssisted inserted => exact Or.inl ⟨_,_,inserted,assisted_challenge_sound,rfl⟩
    | verifiedSelf present concluded => cases plain
    | verifiedAssisted auth present concluded => cases plain
    | revoked => exact Or.inr ⟨_,rfl⟩

theorem call_grows {w : World} {d : Call} (plain : isVerification d = false) :
    Grows w.db (Api.step pf w d).db := by
  rcases call_cases pf w d plain with same | ⟨row,t,inserted,-,eq⟩ | ⟨serial,eq⟩
  · exact grows_of_same same
  · rw [eq]
    exact grows_of_inserted inserted
  · rw [eq]
    exact ⟨fun r stored => ⟨r,stored,rfl,rfl,fun h => h⟩,fun _ h => h⟩

end

theorem act_grows (pf : Platform) (jobs : ι → Job) (c : Config ι) (a : Action ι) :
    Grows c.world.db (act pf jobs c a).world.db := by
  cases a with
  | next i randbits => exact moved_grows (advance_moved pf _ _ randbits (jobs i) (c.phase i))
  | call d =>
    simp only [act]
    split
    · exact grows_refl _
    · rename_i plain
      exact call_grows (by simpa using plain)

end RainmakerServer.ClaimInterleaving
