import RainmakerServer.ClaimInterleaving

/-!
The central invariant of device identity: the CN of a certificate is the id of
an existing node and comes from a verified challenge. It holds in every state
of every interleaving, because a job that has marked a challenge keeps the node
id of a row that no step removes or reopens. The two ways a device is
authenticated, by the CN alone and through the node, therefore agree. That the
node id is the lower case of the MAC address stored with it takes more: the
column of the address is narrower than that of the node id.
-/
namespace RainmakerServer.CertificateIdentity
open Tables Runs ClaimIdentity ClaimProvenance ClaimInterleaving ClaimOutcome

/-- The CN names a node and comes from a verified challenge for it. -/
structure Rooted (db : Db) (cert : NodeCertificate) : Prop where
  named : cert.cn = cert.nodeId
  node : ∃ node ∈ db.nodes, node.nodeId = cert.nodeId
  claimed : ∃ r ∈ db.claimChallenges, r.status = .verified ∧ r.nodeId = cert.nodeId

/-- That challenge also has the MAC address of the name. -/
structure Identified (pf : Platform) (db : Db) (cert : NodeCertificate) : Prop where
  named : cert.cn = cert.nodeId
  node : ∃ node ∈ db.nodes, node.nodeId = cert.nodeId
  claimed : ∃ r ∈ db.claimChallenges, r.status = .verified ∧ r.nodeId = cert.nodeId ∧
    cert.nodeId = Claim.generateNodeId pf r.macAddr

def Backed (db : Db) (cert : NodeCertificate) : Prop :=
  cert.cn = cert.nodeId ∧ db.hasNode cert.nodeId = true ∧ ∃ id, Verified id cert.nodeId db

def Known (db : Db) (row : ClaimChallenge) : Prop :=
  ∃ r ∈ db.claimChallenges, r.id = row.id ∧ r.nodeId = row.nodeId

section
variable {pf : Platform} {db db' : Db} {now : Time}

theorem verified_grows {id : Uuid} {n : Text} (grows : Grows db db') (verified : Verified id n db) :
    Verified id n db' := by
  obtain ⟨r,stored,key,named,status⟩ := verified
  obtain ⟨r',stored',key',named',kept⟩ := grows.challenges r stored
  exact ⟨r',stored',key'.trans key,named'.trans named,kept status⟩

theorem known_grows {row : ClaimChallenge} (grows : Grows db db') (known : Known db row) :
    Known db' row := by
  obtain ⟨r,stored,key,named⟩ := known
  obtain ⟨r',stored',key',named',-⟩ := grows.challenges r stored
  exact ⟨r',stored',key'.trans key,named'.trans named⟩

theorem backed_grows {cert : NodeCertificate} (grows : Grows db db') (backed : Backed db cert) :
    Backed db' cert := by
  obtain ⟨named,present,id,verified⟩ := backed
  exact ⟨named,grows.nodes _ present,id,verified_grows grows verified⟩

theorem mark_verifies {row : ClaimChallenge} (known : Known db row) :
    Verified row.id row.nodeId (Claim.markVerified db now row.id) := by
  obtain ⟨r,stored,key,named⟩ := known
  unfold Verified
  simp only [Claim.markVerified, Table.mem_update]
  exact ⟨_,⟨r,stored,rfl⟩,by simp [key, named]⟩

theorem stored_node {seen : Bool} {n : Text} {s : Claim.Signed} (width : varchar 64 n = true)
    (inserted : Claim.insertCertificate db now seen n s = .ok db')
    (present : seen = true → db.hasNode n = true) : db'.hasNode n = true := by
  obtain ⟨nodes,certs,eq,-,⟨found,same⟩ | ⟨-,added⟩⟩ := Claim.insert_certificate_ok inserted
  · subst eq
    subst same
    exact present found
  · subst eq
    refine Db.hasNode_iff.mpr ⟨_,(Table.mem_insert added).mpr (Or.inr rfl),?_⟩
    rw [Claim.stored_node width]

end

structure Sound {ι : Type} (pf : Platform) (c : Config ι) : Prop where
  challenges : ChallengesSound pf c.world.db
  certificates : ∀ cert ∈ c.world.db.nodeCertificates, Backed c.world.db cert
  held : ∀ i row, (c.phase i).held = some row → Known c.world.db row
  spending : ∀ i row, (c.phase i).spending = some row → Verified row.id row.nodeId c.world.db
  looked : ∀ i row s, c.phase i = .looked row s true → c.world.db.hasNode row.nodeId = true

section
variable {ι : Type} {pf : Platform}

theorem sound_start {w : World} (free : ClaimFree w.db) : Sound pf (Config.start w : Config ι) where
  challenges r stored := by
    have nothing : r ∈ w.db.claimChallenges.rows := stored
    rw [free.challenges] at nothing
    cases nothing
  certificates cert stored := by
    have nothing : cert ∈ w.db.nodeCertificates.rows := stored
    rw [free.certificates] at nothing
    cases nothing
  held i row held := by cases held
  spending i row held := by cases held
  looked i row s held := by cases held

theorem sound_call {c : Config ι} {d : Call} (sound : Sound pf c)
    (plain : isVerification d = false) : Sound pf {c with world := Api.step pf c.world d} := by
  have grows : Grows c.world.db (Api.step pf c.world d).db := call_grows plain
  have claims : ChallengesSound pf (Api.step pf c.world d).db ∧
      ∀ cert ∈ (Api.step pf c.world d).db.nodeCertificates,
        Backed (Api.step pf c.world d).db cert := by
    rcases call_cases pf c.world d plain with same | ⟨row,t,inserted,minted,eq⟩ | ⟨serial,eq⟩
    · constructor
      · intro r stored
        rw [same.challenges] at stored
        exact sound.challenges r stored
      · intro cert stored
        rw [same.certificates] at stored
        exact backed_grows grows (sound.certificates cert stored)
    · rw [eq] at grows ⊢
      refine ⟨all_of_inserted sound.challenges inserted minted,?_⟩
      intro cert stored
      exact backed_grows grows (sound.certificates cert stored)
    · rw [eq] at grows ⊢
      refine ⟨sound.challenges,?_⟩
      intro cert stored
      simp only [Claim.revokeCertificate, Table.mem_update] at stored
      obtain ⟨old,earlier,same⟩ := stored
      have backed := backed_grows grows (sound.certificates old earlier)
      rw [← same]
      split <;> exact backed
  exact ⟨claims.1,claims.2,
    fun i row h => known_grows grows (sound.held i row h),
    fun i row h => verified_grows grows (sound.spending i row h),
    fun i row s h => grows.nodes _ (sound.looked i row s h)⟩

variable [DecidableEq ι]

theorem sound_next {c : Config ι} {i : ι} {db' : Db} {q : Phase} {issued : List (Uuid × Text)}
    (sound : Sound pf c) (grows : Grows c.world.db db') (challenges : ChallengesSound pf db')
    (certificates : ∀ cert ∈ db'.nodeCertificates, Backed db' cert)
    (held : ∀ row, q.held = some row → Known db' row)
    (spending : ∀ row, q.spending = some row → Verified row.id row.nodeId db')
    (looked : ∀ row s, q = .looked row s true → db'.hasNode row.nodeId = true) :
    Sound pf (⟨{c.world with db := db'},Function.update c.phase i q,issued⟩ : Config ι) := by
  constructor
  · exact challenges
  · exact certificates
  · apply (Function.forall_update_iff c.phase fun _ p => ∀ row, p.held = some row →
      Known db' row).mpr
    exact ⟨held,fun j _ row here => known_grows grows (sound.held j row here)⟩
  · apply (Function.forall_update_iff c.phase fun _ p => ∀ row, p.spending = some row →
      Verified row.id row.nodeId db').mpr
    exact ⟨spending,fun j _ row here => verified_grows grows (sound.spending j row here)⟩
  · apply (Function.forall_update_iff c.phase fun _ p => ∀ row s, p = .looked row s true →
      db'.hasNode row.nodeId = true).mpr
    exact ⟨looked,fun j _ row s here => grows.nodes _ (sound.looked j row s here)⟩

theorem sound_rest {c : Config ι} {i : ι} {db' : Db} {q : Phase} {issued : List (Uuid × Text)}
    (sound : Sound pf c) (grows : Grows c.world.db db') (challenges : ChallengesSound pf db')
    (certificates : ∀ cert ∈ db'.nodeCertificates, Backed db' cert) (empty : q.held = none) :
    Sound pf (⟨{c.world with db := db'},Function.update c.phase i q,issued⟩ : Config ι) := by
  refine sound_next sound grows challenges certificates ?_ ?_ ?_
  · intro row here
    rw [empty] at here
    cases here
  · intro row here
    cases q <;> simp [Phase.held, Phase.spending] at empty here
  · intro row s here
    rw [here] at empty
    cases empty

theorem act_sound {jobs : ι → Job} {c : Config ι} {a : Action ι} (sound : Sound pf c) :
    Sound pf (act pf jobs c a) := by
  cases a with
  | next i randbits =>
    have moved := advance_moved pf c.world.db c.world.now randbits (jobs i) (c.phase i)
    simp only [act]
    generalize advance pf c.world.db c.world.now randbits (jobs i) (c.phase i) = out at moved ⊢
    obtain ⟨db',q,issued⟩ := out
    dsimp only at moved ⊢
    have grows : Grows c.world.db db' := moved_grows moved
    have heldBefore := sound.held i
    have spendingBefore := sound.spending i
    have lookedBefore := sound.looked i
    generalize c.phase i = p at moved heldBefore spendingBefore lookedBefore
    cases moved with
    | quiet same empty =>
      refine sound_rest sound grows ?_ ?_ empty
      · intro r stored
        rw [same.challenges] at stored
        exact sound.challenges r stored
      · intro cert stored
        rw [same.certificates] at stored
        exact backed_grows grows (sound.certificates cert stored)
    | @checked row _ stored verdict =>
      refine sound_next sound grows sound.challenges sound.certificates ?_ ?_ ?_
      · intro other here
        have same : other = row := by
          rcases verdict with eq | eq <;> simp [eq, Phase.held] at here <;> exact here.symm
        rw [same]
        exact ⟨row,stored,rfl,rfl⟩
      · intro other here
        rcases verdict with eq | eq <;> simp [eq, Phase.spending] at here
      · intro other s here
        rcases verdict with eq | eq <;> simp [eq] at here
    | counted =>
      refine sound_rest sound grows (sound_of_kept sound.challenges (Claim.count_kept _ _)) ?_ rfl
      intro cert stored
      exact backed_grows grows (sound.certificates cert stored)
    | @marked row =>
      have known : Known c.world.db row := heldBefore row rfl
      refine sound_next sound grows (sound_of_kept sound.challenges (Claim.mark_kept _)) ?_ ?_ ?_ ?_
      · intro cert stored
        exact backed_grows grows (sound.certificates cert stored)
      · intro other here
        cases here
        exact known_grows grows known
      · intro other here
        cases here
        exact mark_verifies known
      · intro other s here
        cases here
    | @signed row s =>
      refine sound_next sound grows sound.challenges sound.certificates heldBefore spendingBefore ?_
      intro other s' here
      cases here
    | @looked row s =>
      refine sound_next sound grows sound.challenges sound.certificates heldBefore spendingBefore ?_
      intro other s' here
      simp only [Phase.looked.injEq] at here
      obtain ⟨same,-,found⟩ := here
      rw [← same]
      exact found
    | @stored row s seen _ inserted =>
      have verified : Verified row.id row.nodeId c.world.db := spendingBefore row rfl
      have width : varchar 64 row.nodeId = true := by
        obtain ⟨r,known,-,same⟩ := heldBefore row rfl
        rw [← same]
        exact Claim.claim_node_varchar known
      have present : db'.hasNode row.nodeId = true := by
        apply stored_node width inserted
        intro found
        subst found
        exact lookedBefore row s rfl
      obtain ⟨nodes,certs,eq,added,-⟩ := Claim.insert_certificate_ok inserted
      subst eq
      refine sound_rest sound grows sound.challenges ?_ rfl
      intro cert stored
      rcases (Table.mem_insert added).mp stored with old | new
      · exact backed_grows grows (sound.certificates cert old)
      · rw [new,Claim.stored_certificate width (Table.insert_ok added).2.1]
        exact ⟨rfl,present,row.id,verified_grows grows verified⟩
  | call d =>
    simp only [act]
    split
    · exact sound
    · rename_i plain
      exact sound_call sound (by simpa using plain)

theorem run_sound (jobs : ι → Job) {w : World} (acts : List (Action ι)) (free : ClaimFree w.db) :
    Sound pf (run (act pf jobs) (Config.start w) acts) :=
  run_preserves (act pf jobs) (fun _ _ => act_sound) acts (sound_start free)

end

/-- The HTTPS dependency and the broker hook admit the same names, and the node
    of a name is the one it names. -/
structure PathsAgree (pf : Platform) (db : Db) (x : Text) : Prop where
  admitted : (∃ node, Claim.getNodeFromMtls db (some x) = .ok node) ↔
    VmqAuthz.authoriseRegister pf db (some x) = .ok
  named : ∀ node, Claim.getNodeFromMtls db (some x) = .ok node → node.nodeId = x

section
variable {pf : Platform} {db : Db}

theorem rooted_of_backed {cert : NodeCertificate} (backed : Backed db cert) : Rooted db cert := by
  obtain ⟨named,present,id,r,stored,-,same,status⟩ := backed
  exact ⟨named,Db.hasNode_iff.mp present,r,stored,status,same⟩

def Lowered (pf : Platform) (db : Db) : Prop :=
  ∀ r ∈ db.claimChallenges, r.nodeId = Claim.generateNodeId pf r.macAddr

theorem identified_of_rooted {cert : NodeCertificate} (lowered : Lowered pf db)
    (rooted : Rooted db cert) : Identified pf db cert := by
  obtain ⟨named,node,r,stored,status,same⟩ := rooted
  refine ⟨named,node,r,stored,status,same,?_⟩
  rw [← same]
  exact lowered r stored

theorem active_certificate_some {x : Text} {cert : NodeCertificate}
    (active : Claim.activeCertificate db x = some cert) :
    cert ∈ db.nodeCertificates ∧ cert.cn = x := by
  obtain ⟨stored,hit⟩ := Table.mem_select.mp (List.mem_of_head? active)
  simp only [Bool.and_eq_true, beq_iff_eq] at hit
  exact ⟨stored,hit.1⟩

theorem mtls_node {x : Text} {cert : NodeCertificate} (nonempty : x ≠ [])
    (active : Claim.activeCertificate db x = some cert) (rooted : Rooted db cert) :
    ∃ node, Claim.getNodeFromMtls db (some x) = .ok node ∧ node.nodeId = x := by
  have own : cert.nodeId = x := by
    rw [← rooted.named]
    exact (active_certificate_some active).2
  obtain ⟨known,present,same⟩ := rooted.node
  have key : ∀ a b : Node, (a.nodeId == cert.nodeId) = true → (b.nodeId == cert.nodeId) = true →
      Schema.conflict a b = true := by
    intro a b left right
    rw [beq_iff_eq] at left right
    simp [Schema.conflict, left, right]
  cases x with
  | nil => exact absurd rfl nonempty
  | cons c cs =>
    rcases scalar_by_key (t := db.nodes) key with ⟨node,-,hit,found⟩ | ⟨absent,-⟩
    · refine ⟨node,by simp only [Claim.getNodeFromMtls, active, found],?_⟩
      rw [beq_iff_eq] at hit
      exact hit.trans own
    · have missing := absent known present
      simp [same] at missing

theorem paths_agree {x : Text} (rooted : ∀ cert ∈ db.nodeCertificates, Rooted db cert)
    (nonempty : x ≠ []) (device : x ≠ pf.settings.mqttInternalUser) : PathsAgree pf db x := by
  have register : VmqAuthz.authoriseRegister pf db (some x) = .ok ↔
      (Claim.activeCertificate db x).isSome = true :=
    VmqAuthz.register_ok_iff (VmqAuthz.not_backend device) nonempty
  cases active : Claim.activeCertificate db x with
  | none =>
    have refused : ∀ node, Claim.getNodeFromMtls db (some x) ≠ .ok node := by
      intro node ok
      cases x with
      | nil => exact nonempty rfl
      | cons c cs => simp [Claim.getNodeFromMtls, active] at ok
    rw [active] at register
    constructor
    · constructor
      · intro found
        obtain ⟨node,ok⟩ := found
        exact absurd ok (refused node)
      · intro ok
        cases register.mp ok
    · intro node ok
      exact absurd ok (refused node)
  | some cert =>
    obtain ⟨node,ok,own⟩ :=
      mtls_node nonempty active (rooted cert (active_certificate_some active).1)
    rw [active] at register
    constructor
    · exact ⟨fun _ => register.mpr rfl,fun _ => ⟨node,ok⟩⟩
    · intro other same
      rw [ok] at same
      cases same
      exact own

end

/-! The MAC address. -/

def narrow {ι : Type} : Action ι → Bool
  | .call (.user _ (.initiateAssistedClaim _ macAddr _)) => macAddr.length ≤ 32
  | _ => true

section
variable {pf : Platform}

theorem call_lowered {w : World} {d : Call} (lowered : Lowered pf w.db)
    (plain : isVerification d = false) (fitting : ∀ userId id macAddr platform,
      d = .user userId (.initiateAssistedClaim id macAddr platform) → macAddr.length ≤ 32) :
    Lowered pf (Api.step pf w d).db := by
  rcases effect_claims (Api.step_effect pf w d) with same | effect
  · unfold Lowered
    rw [same.challenges]
    exact lowered
  · generalize (Api.step pf w d).db = after at effect
    cases effect with
    | initiatedSelf provisioned inserted =>
      exact all_of_inserted lowered inserted (stored_mac provisioned)
    | initiatedAssisted inserted =>
      have taken := (Table.insert_ok inserted).2.1
      simp only [Schema.fits, Claim.assistedChallenge, Bool.and_eq_true] at taken
      apply all_of_inserted lowered inserted
      exact stored_mac (varchar_iff.mpr
        ⟨fitting _ _ _ _ rfl,assignable_bindable taken.1.1.2⟩)
    | verifiedSelf present concluded => cases plain
    | verifiedAssisted auth present concluded => cases plain
    | revoked => exact lowered

variable {ι : Type} [DecidableEq ι]

theorem act_lowered {jobs : ι → Job} {c : Config ι} {a : Action ι} (lowered : Lowered pf c.world.db)
    (fitting : narrow a = true) : Lowered pf (act pf jobs c a).world.db := by
  cases a with
  | next i randbits =>
    have moved := advance_moved pf c.world.db c.world.now randbits (jobs i) (c.phase i)
    simp only [act]
    generalize advance pf c.world.db c.world.now randbits (jobs i) (c.phase i) = out at moved ⊢
    obtain ⟨db',q,issued⟩ := out
    dsimp only at moved ⊢
    generalize c.phase i = p at moved
    cases moved with
    | quiet same empty =>
      unfold Lowered
      rw [same.challenges]
      exact lowered
    | counted => exact all_of_kept (fun _ _ _ _ same => same) lowered (Claim.count_kept _ _)
    | marked => exact all_of_kept (fun _ _ _ _ same => same) lowered (Claim.mark_kept _)
    | stored inserted =>
      obtain ⟨nodes,certs,eq,-⟩ := Claim.insert_certificate_ok inserted
      subst eq
      exact lowered
    | _ => exact lowered
  | call d =>
    simp only [act]
    split
    · exact lowered
    · rename_i plain
      apply call_lowered lowered (by simpa using plain)
      intro userId id macAddr platform same
      subst same
      simpa [narrow] using fitting

end

/-- In every state of every interleaving each certificate names a node and comes
    from a verified challenge for it, and both authentication paths agree on every
    device name. As long as no assisted claim is opened for a MAC address that is
    wider than its column, the name is the lower case of the address. -/
theorem certificate_identity {ι : Type} [DecidableEq ι] (pf : Platform) (jobs : ι → Job) (w : World)
    (acts : List (Action ι)) (free : ClaimFree w.db) :
    let db := (run (act pf jobs) (Config.start w) acts).world.db
    (∀ cert ∈ db.nodeCertificates, Rooted db cert) ∧
      (∀ x, x ≠ [] → x ≠ pf.settings.mqttInternalUser → PathsAgree pf db x) ∧
      ((∀ a ∈ acts, narrow a = true) → ∀ cert ∈ db.nodeCertificates, Identified pf db cert) := by
  intro db
  have sound : Sound pf (run (act pf jobs) (Config.start w) acts) := run_sound jobs acts free
  have rooted : ∀ cert ∈ db.nodeCertificates, Rooted db cert := by
    intro cert stored
    exact rooted_of_backed (sound.certificates cert stored)
  refine ⟨rooted,?_,?_⟩
  · intro x nonempty device
    exact paths_agree rooted nonempty device
  · intro fitting cert stored
    have lowered : Lowered pf db := by
      apply run_invariant (act pf jobs) (I := fun c => Lowered pf c.world.db) 
        (P := fun _ a => narrow a = true)
      · intro c a lowered fitting
        exact act_lowered lowered fitting
      · intro r nothing
        have none : r ∈ w.db.claimChallenges.rows := nothing
        rw [free.challenges] at none
        cases none
      · exact along_of_forall (act pf jobs) fitting
    exact identified_of_rooted lowered (rooted cert stored)

def claimAndReport : Bool → Job
  | false => .verifyAssistedClaim 1 Deployment.deviceCsr
  | true => .config "aabbccddeeff" []

def reportWithinClaim (macAddr : Text) : List (Action Bool) :=
  [.call (.user 1 (.initiateAssistedClaim 10 macAddr "esp32")),.next false 0,.next false 0,
   .next true 0,.next false 4,.next true 0,.next false 0,.next true 0,.next false 0,.next true 0]

theorem claim_within_report_identified :
    let db := (run (act Deployment.platform claimAndReport) (Config.start oneUser)
      (reportWithinClaim "AABBCCDDEEFF")).world.db
    db.nodeCertificates.rows.map (·.cn) = ["aabbccddeeff".toList] ∧
      VmqAuthz.authoriseRegister Deployment.platform db (some "aabbccddeeff") = .ok ∧
      (∀ x, x ≠ [] → x ≠ Deployment.platform.settings.mqttInternalUser →
        PathsAgree Deployment.platform db x) ∧
      ∀ cert ∈ db.nodeCertificates, Identified Deployment.platform db cert := by
  have identity := certificate_identity Deployment.platform claimAndReport oneUser
    (reportWithinClaim "AABBCCDDEEFF") ⟨rfl,rfl⟩
  exact ⟨by decide +kernel,by decide +kernel,identity.2.1,identity.2.2 (by decide +kernel)⟩

def paddedMac : Text := "AABBCCDDEEFF".toList ++ List.replicate 25 ' '

/-- The address is stored in 32 characters, the node id in 37. -/
theorem padded_mac_is_cut_apart :
    let db := (run (act Deployment.platform claimAndReport) (Config.start oneUser)
      (reportWithinClaim paddedMac)).world.db
    db.nodeCertificates.rows.map (fun c => (c.cn.length,c.nodeId.length)) = [(37,37)] ∧
      db.claimChallenges.rows.map (·.macAddr.length) = [32] ∧
      ¬ ∀ cert ∈ db.nodeCertificates, Identified Deployment.platform db cert := by
  intro db
  refine ⟨by decide +kernel,by decide +kernel,?_⟩
  intro identified
  have names : ∃ c ∈ db.nodeCertificates.rows, ∀ r ∈ db.claimChallenges.rows,
      c.nodeId ≠ Claim.generateNodeId Deployment.platform r.macAddr := by decide +kernel
  obtain ⟨cert,issued,apart⟩ := names
  obtain ⟨r,stored,-,-,lowered⟩ := (identified cert issued).claimed
  exact apart r stored lowered

end RainmakerServer.CertificateIdentity
