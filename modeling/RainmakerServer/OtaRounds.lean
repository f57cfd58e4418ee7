import RainmakerServer.Footprint
import RainmakerServer.ReferentialIntegrity
import RainmakerServer.Sessions

/-!
Rollouts from the side of a device that asks for its job and reports how it
ended, again and again. Each round closes one open target of the node, whatever
the rest of the server does in between, so a device with `k` open targets waits
after `k` rounds and not before.
-/
namespace RainmakerServer.OtaRounds
open Tables Runs Fleet OtaOffers

/-- One round is `GET /node/otafetch` and, where there is a job, one
    `POST /node/otastatus` about it. -/
inductive Event where
  | round (sslClientCn : Option Text) (status : Text) (additionalInfo : Option Text)
  | call (c : Call)

def step (pf : Platform) (w : World) : Event → World
  | .round cn status info => match Claim.getNodeFromMtls w.db cn with
    | .error _ => w
    | .ok node => match fetchPendingForNode pf w.db node.nodeId with
      | .wait _ _ => w
      | .job otaJobId _ _ _ _ _ _ =>
        Api.step pf w (.node cn (.postNodeOtastatus otaJobId status info))
  | .call c => Api.step pf w c

def isRound : Event → Bool
  | .round _ _ _ => true
  | .call _ => false

def openTargets (n : Text) (db : Db) : Nat :=
  db.otaJobNodes.rows.countP fun r => r.nodeId == n && openStatus r.status

def Aside (n : Text) (db : Db) : Call → Prop
  | .admin _ (.createOtajob _ _ _ _ nodes _) => n ∉ nodes.map (cut 64)
  | .node cn (.postNodeOtastatus _ _ _) =>
    ∀ node, Claim.getNodeFromMtls db cn = .ok node → node.nodeId ≠ n
  | _ => True

def Unreported (n : Text) (db : Db) : Call → Prop
  | .node cn (.postNodeOtastatus _ _ _) =>
    ∀ node, Claim.getNodeFromMtls db cn = .ok node → node.nodeId ≠ n
  | _ => True

/-- A round is made with a certificate of the node and reports an outcome. -/
inductive Lawful (n : Text) (w : World) : Event → Prop where
  | round {cn : Option Text} {status : Text} {info : Option Text} {node : Node}
      (certified : Claim.getNodeFromMtls w.db cn = .ok node) (named : node.nodeId = n)
      (filled : status ≠ []) (closing : openStatus status = false)
      (fits : (assignable 32 status && assignableOpt 512 info) = true) :
      Lawful n w (.round cn status info)
  | call {c : Call} (aside : Aside n w.db c) : Lawful n w (.call c)

/-- The foreign keys hold and every job is active. -/
structure Rolled (db : Db) : Prop where
  linked : ReferentialIntegrity.Linked db
  active : ∀ job ∈ db.otaJobs, job.status = .active

inductive RolloutEffect (db : Db) (now : Time) : Call → Db → Prop where
  | kept {c : Call} {db' : Db} (jobs : db'.otaJobs = db.otaJobs)
      (targets : db'.otaJobNodes = db.otaJobNodes) : RolloutEffect db now c db'
  | added {id jobId imageId : Uuid} {rowIds : Nat → Uuid} {name : Text} {nodes : List Text}
      {policy : JsonObject} {createdBy : Option Uuid} {jobs : Table OtaJob}
      {targets : Table OtaJobNode}
      (inserted : db.otaJobs.insert (BatchCreation.newJob now jobId name imageId policy createdBy) =
        .ok jobs)
      (rows : db.otaJobNodes.insertAll (BatchCreation.newTargets now jobId rowIds nodes) =
        .ok targets) :
      RolloutEffect db now (.admin id (.createOtajob jobId rowIds name imageId nodes policy))
        {db with otaJobs := jobs, otaJobNodes := targets}
  | reported {cn : Option Text} {job status : Text} {info : Option Text} {node : Node}
      {row : OtaJobNode} (certified : Claim.getNodeFromMtls db cn = .ok node)
      (stored : row ∈ db.otaJobNodes) (named : row.nodeId = node.nodeId) :
      RolloutEffect db now (.node cn (.postNodeOtastatus job status info))
        (withReport db now status info row)

section
variable {pf : Platform} {n : Text} {db db' : Db} {now : Time}

/-! What is offered and what is open. -/

theorem open_target {row : OtaJobNode} : (row ∈ db.otaJobNodes ∧ row.nodeId = n ∧
    openStatus row.status = true) → 0 < openTargets n db := by
  intro target
  obtain ⟨stored,node,opened⟩ := target
  exact List.countP_pos_iff.mpr ⟨row,stored,by simp [node, opened]⟩

theorem pending_of_open (rolled : Rolled db) {row : OtaJobNode} (stored : row ∈ db.otaJobNodes)
    (opened : openStatus row.status = true) : ∃ image, (row,image) ∈ pendingRows db row.nodeId := by
  obtain ⟨job,listed,key⟩ := rolled.linked.jobs row stored _ rfl
  obtain ⟨image,present,same⟩ := rolled.linked.images job listed _ rfl
  exact ⟨image,mem_pending_rows.mpr
    ⟨⟨stored,rfl,opened⟩,job,listed,⟨key,rolled.active job listed⟩,present,same⟩⟩

theorem waits_iff (rolled : Rolled db) :
    fetchPendingForNode pf db n = .wait 60 600 ↔ openTargets n db = 0 := by
  rcases fetch_cases pf db n with ⟨waits,none⟩ | ⟨p,pending,-,offered⟩
  · refine iff_of_true waits ?_
    by_contra left
    obtain ⟨row,stored,hit⟩ := List.countP_pos_iff.mp (Nat.pos_of_ne_zero left)
    rw [Bool.and_eq_true,beq_iff_eq] at hit
    obtain ⟨image,member⟩ := pending_of_open rolled stored hit.2
    rw [hit.1,none] at member
    cases member
  · refine iff_of_false ?_ ?_
    · rw [offered]
      exact nofun
    · have target := (mem_pending_rows.mp pending).1
      exact Nat.ne_of_gt (open_target target)

/-! A report. -/

theorem report_found {row : OtaJobNode} {otaJobId status : Text} {info : Option Text}
    (stored : row ∈ db.otaJobNodes) (parsed : pf.parseUuid otaJobId = some row.jobId)
    (fits : (assignable 32 status && assignableOpt 512 info) = true) :
    (updateStatus pf db now row.nodeId otaJobId status info).1 = withReport db now status info row := by
  have found : scalarOneOrNone (db.otaJobNodes.select fun r =>
      r.jobId == row.jobId && r.nodeId == row.nodeId) = .ok (some row) := by
    rw [select_sole (by simp [Schema.conflict]) stored (by simp)]
    · rfl
    · intro a there same
      rw [Bool.and_eq_true,beq_iff_eq,beq_iff_eq] at same
      exact Table.eq_of_conflict there stored (by simp [Schema.conflict, same])
  simp only [updateStatus, parsed, found, fits, Bool.true_eq_false, if_false]
  rfl

theorem closing_stored {status : Text} (closing : openStatus status = false) :
    openStatus (cut 32 status) = false := by
  rcases Nat.lt_or_ge 32 status.length with long | short
  · have stored : (cut 32 status).length = 32 := List.length_take_of_le (Nat.le_of_lt long)
    have apart : ∀ s : Text, s.length < 32 → cut 32 status ≠ s := by
      intro s bound same
      rw [same] at stored
      omega
    rw [openStatus,Bool.or_eq_false_iff,beq_eq_false_iff_ne,beq_eq_false_iff_ne]
    exact ⟨apart _ (by decide),apart _ (by decide)⟩
  · rw [cut,List.take_of_length_le short]
    exact closing

theorem report_closes {row : OtaJobNode} {status : Text} {info : Option Text}
    (stored : row ∈ db.otaJobNodes) (node : row.nodeId = n) (opened : openStatus row.status = true)
    (closing : openStatus status = false) :
    openTargets n (withReport db now status info row) = openTargets n db - 1 := by
  obtain ⟨pre,post,split⟩ := List.append_of_mem stored
  have apart : (pre ++ row :: post).Pairwise fun a b => Schema.conflict a b = false := by
    rw [← split]
    exact db.otaJobNodes.unique
  obtain ⟨-,later,earlier⟩ := List.pairwise_append.mp apart
  have other : ∀ r, r ∈ pre ∨ r ∈ post → (r.id == row.id) = false := by
    intro r member
    rcases member with before | after
    · have free := earlier r before row (by simp)
      exact (Bool.or_eq_false_iff.mp free).1
    · have free := (List.pairwise_cons.mp later).1 r after
      rw [Bool.beq_comm]
      exact (Bool.or_eq_false_iff.mp free).1
  have kept : ∀ rows : List OtaJobNode, (∀ r ∈ rows, (r.id == row.id) = false) →
      rows.map (fun r => if r.id == row.id then reported now status info r else r) = rows := by
    intro rows outside
    induction rows with
    | nil => rfl
    | cons r rows ih =>
      have first : (if r.id == row.id then reported now status info r else r) = r :=
        if_neg (by simp [outside r (by simp)])
      rw [List.map_cons,first,ih fun q member => outside q (List.mem_cons_of_mem r member)]
  have rows : (withReport db now status info row).otaJobNodes.rows =
      pre ++ reported now status info row :: post := by
    show db.otaJobNodes.rows.map (fun r =>
      if r.id == row.id then reported now status info r else r) = _
    rw [split,List.map_append,List.map_cons,kept pre fun r member => other r (Or.inl member),
      kept post fun r member => other r (Or.inr member),if_pos (by simp)]
  have before : (row.nodeId == n && openStatus row.status) = true := by simp [node, opened]
  have after : ((reported now status info row).nodeId == n &&
      openStatus (reported now status info row).status) = false := by
    simp [reported, closing_stored closing]
  unfold openTargets
  rw [rows,split]
  simp only [List.countP_append, List.countP_cons, before, after, if_true, Bool.false_eq_true,
    if_false]
  omega

/-! What the other calls leave. -/

theorem same_targets (same : db'.otaJobNodes = db.otaJobNodes) :
    openTargets n db' = openTargets n db := by
  unfold openTargets
  rw [same]

theorem report_elsewhere {row : OtaJobNode} {status : Text} {info : Option Text}
    (stored : row ∈ db.otaJobNodes) (other : row.nodeId ≠ n) :
    openTargets n (withReport db now status info row) = openTargets n db := by
  unfold openTargets
  show (db.otaJobNodes.rows.map fun r =>
    if r.id == row.id then reported now status info r else r).countP _ = _
  rw [List.countP_map]
  apply List.countP_congr
  intro r member
  by_cases same : r.id = row.id
  · have whole : r = row := Table.eq_of_conflict member stored (by simp [Schema.conflict, same])
    subst whole
    simp [reported, other]
  · simp [same]

theorem rollout_elsewhere {jobId : Uuid} {rowIds : Nat → Uuid} {nodes : List Text}
    {jobs : Table OtaJob} {targets : Table OtaJobNode} (outside : n ∉ nodes.map (cut 64))
    (rows : db.otaJobNodes.insertAll (BatchCreation.newTargets now jobId rowIds nodes) =
      .ok targets) :
    openTargets n {db with otaJobs := jobs, otaJobNodes := targets} = openTargets n db := by
  have none : ((BatchCreation.newTargets now jobId rowIds nodes).map Schema.stored).countP
      (fun r => r.nodeId == n && openStatus r.status) = 0 := by
    rw [List.countP_eq_zero]
    intro row member
    obtain ⟨given,listed,eq⟩ := List.mem_map.mp member
    obtain ⟨i,bound,same⟩ := List.mem_mapIdx.mp listed
    have apart : row.nodeId ≠ n := by
      intro named
      apply outside
      rw [← named,← eq,← same]
      exact List.mem_map_of_mem (List.getElem_mem bound)
    simp [apart]
  unfold openTargets
  show targets.rows.countP _ = _
  rw [Table.insertAll_rows rows,List.countP_append,none]
  rfl

theorem serve_rollouts (pf : Platform) (db : Db) (now : Time) (c : Call) :
    RolloutEffect db now c (Api.serve pf db now c) := by
  have outside : .rollouts ∉ Footprint.footprint c →
      RolloutEffect db now c (Api.serve pf db now c) := by
    intro outside
    obtain ⟨jobs,targets⟩ := Footprint.serve_only pf db now c .rollouts outside
    exact .kept jobs targets
  cases c with
  | user id request => exact outside (Footprint.user_footprint_outside request).2
  | admin id request =>
    cases request with
    | createOtajob jobId rowIds name imageId nodes policy =>
      simp only [Api.serve]
      split
      · exact .kept rfl rfl
      · rename_i admin allowed
        simp only [Api.serveAdmin]
        split
        · exact .kept rfl rfl
        · rcases BatchCreation.create_job_cases db now jobId rowIds name imageId nodes policy
            (some admin.id) with ⟨e,failed⟩ | ⟨jobs,targets,-,-,inserted,rows,eq⟩
          · rw [failed]
            exact .kept rfl rfl
          · rw [eq]
            exact .added inserted rows
    | _ => exact outside (by simp)
  | node cn request =>
    cases request with
    | postNodeOtastatus jobId status info =>
      simp only [Api.serve]
      split
      · exact .kept rfl rfl
      · rename_i node certified
        simp only [Api.serveNode]
        split
        · exact .kept rfl rfl
        · rcases update_status_eq pf db now node.nodeId jobId status info with
            ⟨e,failed⟩ | ⟨row,stored,-,named,eq⟩
          · rw [failed]
            exact .kept rfl rfl
          · rw [eq]
            exact .reported certified stored named
    | _ => exact outside (by simp)
  | _ => exact outside (by simp)

theorem aside_keeps {c : Call} (aside : Aside n db c)
    (effect : RolloutEffect db now c db') : openTargets n db' = openTargets n db := by
  cases effect with
  | kept jobs targets => exact same_targets targets
  | added inserted rows => exact rollout_elsewhere aside rows
  | reported certified stored named =>
    apply report_elsewhere stored
    rw [named]
    exact aside _ certified

theorem active_kept {c : Call} (active : ∀ job ∈ db.otaJobs, job.status = .active)
    (effect : RolloutEffect db now c db') : ∀ job ∈ db'.otaJobs, job.status = .active := by
  cases effect with
  | kept jobs targets =>
    rw [jobs]
    exact active
  | added inserted rows =>
    intro job member
    rcases (Table.mem_insert inserted).mp member with old | new
    · exact active job old
    · rw [new]
      rfl
  | reported certified stored named => exact active

theorem unreported_keeps {row : OtaJobNode} {c : Call} (stored : row ∈ db.otaJobNodes)
    (unreported : Unreported row.nodeId db c) (effect : RolloutEffect db now c db') :
    row ∈ db'.otaJobNodes := by
  cases effect with
  | kept jobs targets =>
    rw [targets]
    exact stored
  | added inserted rows => exact (Table.mem_insertAll rows).mpr (Or.inl stored)
  | @reported cn job status info node other certified present named =>
    have apart : ¬ (row.id == other.id) = true := by
      intro same
      have whole : row = other :=
        Table.eq_of_conflict stored present (by simp [Schema.conflict, same])
      rw [whole] at unreported
      exact unreported node certified named.symm
    show row ∈ db.otaJobNodes.update (fun r => r.id == other.id) (reported now status info)
      (reported_conflict now status info) (reported_holds now status info)
    exact Table.mem_update.mpr ⟨row,stored,if_neg apart⟩

theorem serve_rolled (c : Call) (rolled : Rolled db) : Rolled (Api.serve pf db now c) where
  linked := ReferentialIntegrity.serve_keeps c rolled.linked
  active := active_kept rolled.active (serve_rollouts pf db now c)

end

/-! Rounds. -/

section
variable {pf : Platform} {n : Text} {w : World}

/-- An open target stays pending, and it is offered, or one that was made no
    later, until its node reports over HTTP, over every run of the server. -/
theorem unreported_is_offered (rolled : Rolled w.db) {row : OtaJobNode}
    (stored : row ∈ w.db.otaJobNodes) (opened : openStatus row.status = true) {cs : List Call}
    (unreported : Along (Api.step pf) (fun w c => Unreported row.nodeId w.db c) w cs) :
    (row ∈ (run (Api.step pf) w cs).db.otaJobNodes ∧
      ∃ image, (row,image) ∈ pendingRows (run (Api.step pf) w cs).db row.nodeId) ∧
    ∃ p ∈ pendingRows (run (Api.step pf) w cs).db row.nodeId, p.1.createdAt ≤ row.createdAt ∧
      fetchPendingForNode pf (run (Api.step pf) w cs).db row.nodeId = offer pf p := by
  have kept : Rolled (run (Api.step pf) w cs).db ∧ row ∈ (run (Api.step pf) w cs).db.otaJobNodes := by
    apply run_invariant (Api.step pf) (I := fun w => Rolled w.db ∧ row ∈ w.db.otaJobNodes) _
      ⟨rolled,stored⟩ unreported
    intro w c held unreported
    exact ⟨serve_rolled c held.1,
      unreported_keeps held.2 unreported (serve_rollouts pf w.db w.now c)⟩
  obtain ⟨image,pending⟩ := pending_of_open kept.1 kept.2 opened
  refine ⟨⟨kept.2,image,pending⟩,?_⟩
  rcases fetch_cases pf (run (Api.step pf) w cs).db row.nodeId with
    ⟨-,none⟩ | ⟨p,listed,earliest,offered⟩
  · rw [none] at pending
    cases pending
  · exact ⟨p,listed,earliest (row,image) pending,offered⟩

theorem round_cases (w : World) (cn : Option Text) (status : Text) (info : Option Text) :
    step pf w (.round cn status info) = w ∨ ∃ job, step pf w (.round cn status info) =
      Api.step pf w (.node cn (.postNodeOtastatus job status info)) := by
  simp only [step]
  split
  · exact Or.inl rfl
  · split
    · exact Or.inl rfl
    · exact Or.inr ⟨_,rfl⟩

theorem step_rolled (e : Event) (rolled : Rolled w.db) : Rolled (step pf w e).db := by
  cases e with
  | round cn status info =>
    rcases @round_cases pf w cn status info with idle | ⟨job,called⟩
    · rw [idle]
      exact rolled
    · rw [called]
      exact serve_rolled (.node cn (.postNodeOtastatus job status info)) rolled
  | call c => exact serve_rolled c rolled

theorem round_certified (w : World) (cn : Option Text) (status : Text) (info : Option Text)
    (x : Option Text) : Claim.getNodeFromMtls (step pf w (.round cn status info)).db x =
      Claim.getNodeFromMtls w.db x := by
  rcases @round_cases pf w cn status info with idle | ⟨job,called⟩
  · rw [idle]
  · rw [called]
    have only := Footprint.serve_only pf w.db w.now (.node cn (.postNodeOtastatus job status info))
    have nodes : (Api.step pf w (.node cn (.postNodeOtastatus job status info))).db.nodes =
        w.db.nodes := only .nodes (by simp)
    obtain ⟨-,certificates,-⟩ := only .claims (by simp)
    have same : (Api.step pf w (.node cn (.postNodeOtastatus job status info))).db.nodeCertificates =
        w.db.nodeCertificates := certificates
    simp only [Claim.getNodeFromMtls, Claim.activeCertificate, nodes, same]

theorem round_closes (uuids : Sessions.UuidText pf) (rolled : Rolled w.db)
    {cn : Option Text} {status : Text} {info : Option Text} {node : Node}
    (certified : Claim.getNodeFromMtls w.db cn = .ok node) (named : node.nodeId = n)
    (filled : status ≠ []) (closing : openStatus status = false)
    (fits : (assignable 32 status && assignableOpt 512 info) = true) :
    openTargets n (step pf w (.round cn status info)).db = openTargets n w.db - 1 := by
  subst named
  rcases fetch_cases pf w.db node.nodeId with ⟨waits,-⟩ | ⟨p,pending,-,offered⟩
  · have none := (waits_iff rolled).mp waits
    simp only [step, certified, waits, none]
  · obtain ⟨⟨stored,owner,opened⟩,-⟩ := mem_pending_rows.mp pending
    have written : (step pf w (.round cn status info)).db = withReport w.db w.now status info p.1 := by
      have full : (pf.uuidStr p.1.jobId).isEmpty = false := by
        simpa using uuids.full p.1.jobId
      have told : status.isEmpty = false := by
        simpa using filled
      simp only [step, certified, offered, offer, Api.step, Api.serve, Api.serveNode, full, told,
        Bool.or_self, Bool.false_eq_true, if_false]
      rw [← owner]
      exact report_found stored (uuids.parses p.1.jobId) fits
    rw [written]
    exact report_closes stored owner opened closing

/-- However the rounds of a device are spread over a run, each closes one of its
    targets until none is left, and the device waits from then on. -/
theorem rounds_drain (uuids : Sessions.UuidText pf) (rolled : Rolled w.db) {es : List Event}
    (lawful : Along (step pf) (Lawful n) w es) :
    openTargets n (run (step pf) w es).db = openTargets n w.db - es.countP isRound ∧
      (fetchPendingForNode pf (run (step pf) w es).db n = .wait 60 600 ↔
        openTargets n w.db ≤ es.countP isRound) := by
  have drained : openTargets n (run (step pf) w es).db =
      openTargets n w.db - es.countP isRound := by
    apply run_countdown (step pf) (I := fun w => Rolled w.db) (P := Lawful n)
      (fun w => openTargets n w.db) isRound
    · intro w e rolled _
      exact step_rolled e rolled
    · intro w e rolled lawful round
      cases lawful with
      | round certified named filled closing fits =>
        exact round_closes uuids rolled certified named filled closing fits
      | call aside => cases round
    · intro w e rolled lawful idle
      cases lawful with
      | round certified named filled closing fits => cases idle
      | call aside => exact aside_keeps aside (serve_rollouts pf w.db w.now _)
    · exact rolled
    · exact lawful
  have kept : Rolled (run (step pf) w es).db :=
    run_preserves (I := fun w => Rolled w.db) (step pf) (fun _ e => step_rolled e) es rolled
  refine ⟨drained,?_⟩
  rw [waits_iff kept,drained]
  omega

end

/-! Two rollouts to one plug. -/

def firstJob : Text := "00000000-0000-0000-0000-000000000028"
def secondJob : Text := "00000000-0000-0000-0000-000000000029"

def report : Bytes :=
  (("\x7b\"ota_job_id\":\"" : Text) ++ firstJob ++ "\",\"status\":\"success\"\x7d").map fun c =>
    UInt8.ofNat c.toNat

def platform : Platform := {Deployment.platform with
  jsonLoads := fun b => if b = report then
    some (.obj [("ota_job_id",.str firstJob),("status",.str "success")]) else none
  uuidStr := fun id => if id = 40 then firstJob else if id = 41 then secondJob
    else List.replicate (id + 37) '0'
  parseUuid := fun s => if s = firstJob then some 40 else if s = secondJob then some 41
    else if 37 ≤ s.length then some (s.length - 37) else none}

theorem platform_uuids : Sessions.UuidText platform := by
  have long : ∀ (id : Nat) (s : Text), s.length = 36 → List.replicate (id + 37) '0' ≠ s := by
    intro id s short same
    have lengths := congrArg List.length same
    rw [List.length_replicate,short] at lengths
    omega
  constructor
  · intro id
    simp only [platform]
    by_cases first : id = 40
    · subst first
      decide
    · by_cases second : id = 41
      · subst second
        decide
      · rw [if_neg first,if_neg second,if_neg (long id _ (by decide)),
          if_neg (long id _ (by decide))]
        simp
  · intro id
    simp only [platform]
    split
    · decide
    · split
      · decide
      · simp

def image : OtaImage where
  id := 7
  name := "light"
  fwVersion := "1.1"
  model := none
  fileSize := 4096
  storageKey := "images/7/light.bin"
  status := .ready
  metadata := []

def certificate : NodeCertificate where
  serial := "1"
  nodeId := "plug"
  certPem := "-----BEGIN CERTIFICATE-----"
  cn := "plug"
  notBefore := 0
  notAfter := hours 1

def server : World where
  db := {
    nodes := .one {nodeId := "plug"}
    nodeCertificates := .one certificate
    otaImages := .one image
    otaJobs := .of [BatchCreation.newJob 0 40 "first" 7 [] none,
      BatchCreation.newJob 0 41 "second" 7 [] none]
    otaJobNodes := .of [BatchCreation.newTarget 0 40 50 "plug",
      BatchCreation.newTarget 0 41 51 "plug"]}
  now := 0

theorem server_rolled : Rolled server.db where
  linked := {ReferentialIntegrity.empty_linked with
    configs := References.refers_empty
    shadows := References.refers_empty
    mappingNodes := References.refers_empty
    shareNodes := References.refers_empty
    requestNodes := References.refers_empty
    members := References.refers_empty
    images := by
      intro job stored k named
      have same : ∀ job ∈ server.db.otaJobs.rows, job.imageId = 7 := by decide
      cases named
      exact ⟨image,List.mem_singleton.mpr rfl,(same job stored).symm⟩
    jobs := by
      intro row stored k named
      have known : ∀ row ∈ server.db.otaJobNodes.rows,
          ∃ job ∈ server.db.otaJobs.rows, job.id = row.jobId := by decide
      cases named
      exact known row stored
    targets := by
      intro row stored k named
      have known : ∀ row ∈ server.db.otaJobNodes.rows,
          ∃ node ∈ server.db.nodes.rows, node.nodeId = row.nodeId := by decide
      cases named
      exact known row stored}
  active := by
    have active : ∀ job ∈ server.db.otaJobs.rows, job.status = .active := by decide
    exact active

def installed : List Event :=
  [.round (some "plug") "failed" (some "no space left"),.call (.tick 60),
    .round (some "plug") "success" none]

def published : List Call := [.dispatch 9 "node/plug/otastatus" report,.tick 60]

theorem plug_is_offered :
    (BatchCreation.newTarget 0 40 50 "plug" ∈
        (run (Api.step platform) server published).db.otaJobNodes ∧
      ∃ image, (BatchCreation.newTarget 0 40 50 "plug",image) ∈
        pendingRows (run (Api.step platform) server published).db "plug") ∧
    ∃ p ∈ pendingRows (run (Api.step platform) server published).db "plug",
      p.1.createdAt ≤ 0 ∧ fetchPendingForNode platform
        (run (Api.step platform) server published).db "plug" = offer platform p :=
  @unreported_is_offered platform server server_rolled (BatchCreation.newTarget 0 40 50 "plug")
    (by decide) (by decide) published ⟨trivial,trivial,trivial⟩

theorem installed_lawful : Along (step platform) (Lawful "plug") server installed := by
  have certified : Claim.getNodeFromMtls server.db (some "plug") = .ok {nodeId := "plug"} := by
    decide +kernel
  have still := @round_certified platform server (some "plug") "failed"
    (some "no space left") (some "plug")
  exact ⟨.round certified rfl (by decide) (by decide) (by decide),.call trivial,
    .round (still.trans certified) rfl (by decide) (by decide) (by decide),trivial⟩

theorem rounds_drain_plug : openTargets "plug" (run (step platform) server installed).db = 0 ∧
    fetchPendingForNode platform (run (step platform) server installed).db "plug" =
      .wait 60 600 := by
  obtain ⟨drained,waits⟩ := rounds_drain platform_uuids server_rolled installed_lawful
  have two : openTargets "plug" server.db = 2 := by decide
  rw [two] at drained waits
  exact ⟨drained,waits.mpr (Nat.le_refl 2)⟩

end RainmakerServer.OtaRounds
