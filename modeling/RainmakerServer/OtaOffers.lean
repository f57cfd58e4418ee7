import RainmakerServer.Api
import RainmakerServer.BatchCreation

/-!
Firmware offers over whole runs. A job is offered from its status column, and
every report overwrites that column. The column agrees with the history of the
node's reports as long as no report reopens a finished target and no report
puts off an open one; a late `in-progress` and a `delayed` do just that.
-/
namespace RainmakerServer.OtaOffers
open Tables Fleet Runs

inductive OtaCall where
  | tick (elapsed : Nat)
  | createJob (jobId : Uuid) (rowIds : Nat → Uuid) (name : Text) (imageId : Uuid)
      (nodeIds : List Text) (rolloutPolicy : JsonObject) (createdBy : Option Uuid)
  | updateStatus (nodeId otaJobId status : Text) (additionalInfo : Option Text)
  | fetchPendingForNode (nodeId : Text)

def step (pf : Platform) (w : World) : OtaCall → World
  | .tick elapsed => ⟨w.db,w.now + elapsed⟩
  | .createJob jobId rowIds name imageId nodeIds policy createdBy =>
    ⟨(createJob w.db w.now jobId rowIds name imageId nodeIds policy createdBy).1,w.now⟩
  | .updateStatus nodeId otaJobId status info =>
    ⟨(updateStatus pf w.db w.now nodeId otaJobId status info).1,w.now⟩
  | .fetchPendingForNode _ => w

/-! The contract of the reports. -/

def terminal : List Text := ["success","failed","rejected"]

def documented : List Text := "in-progress".toList :: "delayed".toList :: terminal

def Documented : OtaCall → Prop
  | .updateStatus _ _ status _ => status ∈ documented
  | _ => True

def Finishes (pf : Platform) (job : Uuid) (n : Text) (w : World) : OtaCall → Prop
  | .updateStatus nodeId otaJobId status info => nodeId = n ∧ pf.parseUuid otaJobId = some job ∧
      status ∈ terminal ∧ (updateStatus pf w.db w.now nodeId otaJobId status info).2 = .ok ()
  | _ => False

instance decidableFinishes (pf : Platform) (job : Uuid) (n : Text) (w : World) :
    ∀ c, Decidable (Finishes pf job n w c)
  | .updateStatus nodeId otaJobId status info => inferInstanceAs (Decidable (nodeId = n ∧
      pf.parseUuid otaJobId = some job ∧ status ∈ terminal ∧
      (updateStatus pf w.db w.now nodeId otaJobId status info).2 = .ok ()))
  | .tick _ => isFalse id
  | .createJob _ _ _ _ _ _ _ => isFalse id
  | .fetchPendingForNode _ => isFalse id

def Finished (pf : Platform) (start : World) (cs : List OtaCall) (job : Uuid) (n : Text) : Prop :=
  Occurred (step pf) (Finishes pf job n) start cs

instance (pf : Platform) (start : World) (cs : List OtaCall) (job : Uuid) (n : Text) :
    Decidable (Finished pf start cs job n) :=
  inferInstanceAs (Decidable (Occurred (step pf) (Finishes pf job n) start cs))

def Due (pf : Platform) (start : World) (cs : List OtaCall) (n : Text) (row : OtaJobNode) : Prop :=
  row ∈ (run (step pf) start cs).db.otaJobNodes ∧ row.nodeId = n ∧
  (∃ job ∈ (run (step pf) start cs).db.otaJobs, job.id = row.jobId ∧ job.status = .active) ∧
  ¬ Finished pf start cs row.jobId n

def otaAvailable : OtaFetch → Bool
  | .wait _ _ => false
  | .job _ _ _ _ _ _ _ => true

def offeredJob : OtaFetch → Option Text
  | .wait _ _ => none
  | .job otaJobId _ _ _ _ _ _ => some otaJobId

/-- A fetch offers a job exactly when one is due, and then the earliest one. -/
def OfferedUntilDone (pf : Platform) (start : World) (cs : List OtaCall) (n : Text) : Prop :=
  let fetched := fetchPendingForNode pf (run (step pf) start cs).db n
  (otaAvailable fetched = true ↔ ∃ row, Due pf start cs n row) ∧
  ∀ job, offeredJob fetched = some job → ∃ row, Due pf start cs n row ∧
    job = pf.uuidStr row.jobId ∧ ∀ other, Due pf start cs n other → row.createdAt ≤ other.createdAt

/-- No accepted report reopens a target that is not open, and none puts off one that is. -/
def InOrder (pf : Platform) (w : World) : OtaCall → Prop
  | .updateStatus nodeId otaJobId status info =>
    (updateStatus pf w.db w.now nodeId otaJobId status info).2 = .ok () → ∀ row ∈ w.db.otaJobNodes,
      pf.parseUuid otaJobId = some row.jobId → row.nodeId = nodeId →
        (status = "in-progress".toList → openStatus row.status = true) ∧
        (status = "delayed".toList → openStatus row.status = false)
  | _ => True

instance decidableInOrder (pf : Platform) (w : World) : ∀ c, Decidable (InOrder pf w c)
  | .updateStatus nodeId otaJobId status info => inferInstanceAs (Decidable
      ((updateStatus pf w.db w.now nodeId otaJobId status info).2 = .ok () →
        ∀ row ∈ w.db.otaJobNodes.rows, pf.parseUuid otaJobId = some row.jobId → row.nodeId = nodeId →
        (status = "in-progress".toList → openStatus row.status = true) ∧
        (status = "delayed".toList → openStatus row.status = false)))
  | .tick _ => isTrue trivial
  | .createJob _ _ _ _ _ _ _ => isTrue trivial
  | .fetchPendingForNode _ => isTrue trivial

/-! What each call does. -/

theorem pending_open : openStatus "pending".toList = true := by decide

theorem job_offered_cases {db : Db} {now : Time} {jobId : Uuid} {rowIds : Nat → Uuid} {name : Text}
    {imageId : Uuid} {nodeIds : List Text} {policy : JsonObject} {createdBy : Option Uuid} :
    (createJob db now jobId rowIds name imageId nodeIds policy createdBy).1 = db ∨
    ∃ (image : OtaImage) (job : OtaJob) (jobs : Table OtaJob) (targets : Table OtaJobNode),
      image ∈ db.otaImages ∧ image.status = .ready ∧ job.id = jobId ∧ job.imageId = image.id ∧
      job.status = .active ∧
      (∀ old ∈ db.otaJobs, old.id ≠ jobId) ∧ jobs.rows = db.otaJobs.rows ++ [job] ∧
      (∀ row ∈ targets, row ∈ db.otaJobNodes ∨
        row.jobId = jobId ∧ openStatus row.status = true) ∧
      (∀ row ∈ db.otaJobNodes, row ∈ targets) ∧
      (createJob db now jobId rowIds name imageId nodeIds policy createdBy).1 =
        {db with otaJobs := jobs, otaJobNodes := targets} := by
  rcases BatchCreation.create_job_cases db now jobId rowIds name imageId nodeIds policy createdBy with
    ⟨e,refused⟩ | ⟨jobs,targets,⟨image,present,key,ready⟩,-,inserted,added,eq⟩
  · rw [refused]
    exact Or.inl rfl
  · rw [eq]
    obtain ⟨appended,-,unused⟩ := Table.insert_ok inserted
    refine Or.inr ⟨image,_,jobs,targets,present,ready,rfl,key.symm,rfl,?_,appended,?_,?_,rfl⟩
    · intro old stored same
      have free := unused old stored
      simp [Schema.conflict, Schema.stored, BatchCreation.newJob, same] at free
    · intro row member
      rcases (Table.mem_insertAll added).mp member with old | new
      · exact Or.inl old
      · obtain ⟨target,listed,eq⟩ := List.mem_map.mp new
        obtain ⟨i,bound,built⟩ := List.mem_mapIdx.mp listed
        subst eq built
        exact Or.inr ⟨rfl,pending_open⟩
    · intro row member
      exact (Table.mem_insertAll added).mpr (Or.inl member)

def reported (now : Time) (status : Text) (info : Option Text) (row : OtaJobNode) : OtaJobNode :=
  {row with
    status := cut 32 status, additionalInfo := info.map (cut 512), lastUpdate := some now}

theorem reported_conflict (now : Time) (status : Text) (info : Option Text) (a b : OtaJobNode) :
    Schema.conflict (reported now status info a) b = Schema.conflict a b := rfl

theorem reported_holds (now : Time) (status : Text) (info : Option Text) (a : OtaJobNode)
    (held : Schema.holds a = true) : Schema.holds (reported now status info a) = true := held

def withReport (db : Db) (now : Time) (status : Text) (info : Option Text) (row : OtaJobNode) : Db :=
  let t := db.otaJobNodes.update (fun r => r.id == row.id) (reported now status info)
    (reported_conflict now status info) (reported_holds now status info)
  {db with otaJobNodes := t}

theorem update_status_eq (pf : Platform) (db : Db) (now : Time) (nodeId otaJobId status : Text)
    (info : Option Text) :
    (∃ e, updateStatus pf db now nodeId otaJobId status info = raise db e) ∨
    ∃ row ∈ db.otaJobNodes, pf.parseUuid otaJobId = some row.jobId ∧ row.nodeId = nodeId ∧
      updateStatus pf db now nodeId otaJobId status info =
        done (withReport db now status info row) () := by
  unfold updateStatus
  split
  · exact Or.inl ⟨_,rfl⟩
  · rename_i job parsed
    split
    · exact Or.inl ⟨_,rfl⟩
    · exact Or.inl ⟨_,rfl⟩
    · rename_i row found
      split
      · exact Or.inl ⟨_,rfl⟩
      · obtain ⟨stored,hit⟩ := scalar_mem found
        rw [Bool.and_eq_true,beq_iff_eq,beq_iff_eq] at hit
        exact Or.inr ⟨row,stored,by rw [hit.1]; exact parsed,hit.2,rfl⟩

theorem update_status_cases {pf : Platform} {db : Db} {now : Time}
    {nodeId otaJobId status : Text} {info : Option Text} :
    ((updateStatus pf db now nodeId otaJobId status info).1 = db ∧
      (updateStatus pf db now nodeId otaJobId status info).2 ≠ .ok ()) ∨
    ∃ (row : OtaJobNode) (targets : Table OtaJobNode), row ∈ db.otaJobNodes ∧
      pf.parseUuid otaJobId = some row.jobId ∧ row.nodeId = nodeId ∧
      (updateStatus pf db now nodeId otaJobId status info).2 = .ok () ∧
      (∀ r, r ∈ targets ↔ (r ∈ db.otaJobNodes ∧ r ≠ row) ∨ r = reported now status info row) ∧
      (updateStatus pf db now nodeId otaJobId status info).1 = {db with otaJobNodes := targets} := by
  rcases update_status_eq pf db now nodeId otaJobId status info with
    ⟨e,failed⟩ | ⟨row,stored,parsed,node,eq⟩
  · rw [failed]
    exact Or.inl ⟨rfl,by simp [raise]⟩
  · rw [eq]
    refine Or.inr ⟨row,_,stored,parsed,node,rfl,?_,rfl⟩
    intro r
    rw [Table.mem_update]
    constructor
    · rintro ⟨b,member,eq⟩
      by_cases same : b.id = row.id
      · have whole : b = row := Table.eq_of_conflict member stored (by simp [Schema.conflict, same])
        subst whole
        rw [if_pos (by simp)] at eq
        exact Or.inr eq.symm
      · rw [if_neg (by simpa using same)] at eq
        subst eq
        exact Or.inl ⟨member,fun equal => same (by rw [equal])⟩
    · rintro (⟨member,other⟩ | eq)
      · refine ⟨r,member,if_neg ?_⟩
        intro same
        exact other (Table.eq_of_conflict member stored (by
          rw [beq_iff_eq] at same
          simp [Schema.conflict, same]))
      · exact ⟨row,stored,by rw [if_pos (by simp),eq]⟩

/-! The column agrees with the history. -/

structure Ledger (pf : Platform) (start : World) (cs : List OtaCall) (w : World) : Prop where
  backed : ∀ row ∈ w.db.otaJobNodes, ∃ job ∈ w.db.otaJobs, job.id = row.jobId ∧
    job.status = .active ∧ ∃ image ∈ w.db.otaImages, image.id = job.imageId
  known : ∀ job n, Finished pf start cs job n →
    ∃ row ∈ w.db.otaJobNodes, row.jobId = job ∧ row.nodeId = n
  settled : ∀ row ∈ w.db.otaJobNodes,
    openStatus row.status = true ↔ ¬ Finished pf start cs row.jobId row.nodeId

theorem finished_append {pf : Platform} {start : World} {cs : List OtaCall} {c : OtaCall}
    {job : Uuid} {n : Text} : Finished pf start (cs ++ [c]) job n ↔
      Finished pf start cs job n ∨ Finishes pf job n (run (step pf) start cs) c := by
  unfold Finished
  rw [occurred_append]
  simp [Occurred]

theorem finished_silent {pf : Platform} {start : World} {cs : List OtaCall} {c : OtaCall}
    (silent : ∀ job n, ¬ Finishes pf job n (run (step pf) start cs) c) (job : Uuid) (n : Text) :
    Finished pf start (cs ++ [c]) job n ↔ Finished pf start cs job n := by
  rw [finished_append]
  simp [silent job n]

theorem ledger_idle {pf : Platform} {start : World} {cs : List OtaCall} {c : OtaCall} {w : World}
    (ledger : Ledger pf start cs (run (step pf) start cs))
    (idle : w.db = (run (step pf) start cs).db)
    (silent : ∀ job n, ¬ Finishes pf job n (run (step pf) start cs) c) :
    Ledger pf start (cs ++ [c]) w := by
  have same := finished_silent silent
  constructor
  · rw [idle]
    exact ledger.backed
  · intro job n finished
    rw [idle]
    exact ledger.known job n ((same job n).mp finished)
  · intro row stored
    rw [idle] at stored
    rw [same]
    exact ledger.settled row stored

theorem ledger_create {pf : Platform} {start : World} {cs : List OtaCall} {jobId : Uuid}
    {rowIds : Nat → Uuid} {name : Text} {imageId : Uuid} {nodeIds : List Text}
    {policy : JsonObject} {createdBy : Option Uuid}
    (ledger : Ledger pf start cs (run (step pf) start cs)) :
    let c := OtaCall.createJob jobId rowIds name imageId nodeIds policy createdBy
    Ledger pf start (cs ++ [c]) (step pf (run (step pf) start cs) c) := by
  intro c
  have silent : ∀ job n, ¬ Finishes pf job n (run (step pf) start cs) c := fun _ _ h => h
  rcases @job_offered_cases (run (step pf) start cs).db (run (step pf) start cs).now jobId rowIds
    name imageId nodeIds policy createdBy with kept |
      ⟨image,job,jobs,targets,present,-,key,image_key,active,unused,appended,origin,kept,eq⟩
  · exact ledger_idle ledger kept silent
  · have same := finished_silent silent
    have after : (step pf (run (step pf) start cs) c).db =
        {(run (step pf) start cs).db with otaJobs := jobs, otaJobNodes := targets} := eq
    have fresh : ∀ n, ¬ Finished pf start cs jobId n := by
      intro n finished
      obtain ⟨row,stored,row_job,-⟩ := ledger.known jobId n finished
      obtain ⟨old,old_stored,old_key,-⟩ := ledger.backed row stored
      exact unused old old_stored (old_key.trans row_job)
    constructor
    · rw [after]
      intro row member
      rcases origin row member with old | ⟨new,-⟩
      · obtain ⟨owner,stored,rest⟩ := ledger.backed row old
        exact ⟨owner,(Table.mem_appended appended).mpr (Or.inl stored),rest⟩
      · exact ⟨job,(Table.mem_appended appended).mpr (Or.inr rfl),by rw [key,new],active,image,
          present,image_key.symm⟩
    · rw [after]
      intro job n finished
      obtain ⟨row,stored,rest⟩ := ledger.known job n ((same job n).mp finished)
      exact ⟨row,kept row stored,rest⟩
    · rw [after]
      intro row member
      rw [same]
      rcases origin row member with old | ⟨new,opened⟩
      · exact ledger.settled row old
      · rw [new]
        exact iff_of_true opened (fresh row.nodeId)

theorem terminal_closed {status : Text} (ends : status ∈ terminal) : openStatus status = false := by
  simp only [terminal, List.mem_cons, List.not_mem_nil, or_false] at ends
  rcases ends with h | h | h <;> subst h <;> decide

theorem documented_cases {status : Text} (known : status ∈ documented) :
    status = "in-progress".toList ∨ status = "delayed".toList ∨ status ∈ terminal := by
  rcases List.mem_cons.mp known with h | h
  · exact Or.inl h
  · rcases List.mem_cons.mp h with h | h
    · exact Or.inr (Or.inl h)
    · exact Or.inr (Or.inr h)

theorem report_settles {row : OtaJobNode} {status : Text} {finished : Prop}
    (settled : openStatus row.status = true ↔ ¬ finished) (known : status ∈ documented)
    (reopen : status = "in-progress".toList → openStatus row.status = true)
    (delay : status = "delayed".toList → openStatus row.status = false) :
    openStatus status = true ↔ ¬ (finished ∨ status ∈ terminal) := by
  rcases documented_cases known with h | h | h
  · have opened : openStatus status = true := by
      subst h
      decide
    have unfinished : ¬ finished := settled.mp (reopen h)
    have running : status ∉ terminal := by
      subst h
      decide
    simp [opened, unfinished, running]
  · have closed : openStatus status = false := by
      subst h
      decide
    have done : finished := by
      by_contra unfinished
      have opened := settled.mpr unfinished
      rw [delay h] at opened
      cases opened
    simp [closed, done]
  · simp [terminal_closed h, h]

theorem documented_short {status : Text} (known : status ∈ documented) : cut 32 status = status := by
  revert status
  decide

theorem ledger_report {pf : Platform} {start : World} {cs : List OtaCall}
    {nodeId otaJobId status : Text} {info : Option Text}
    (ledger : Ledger pf start cs (run (step pf) start cs)) (known : status ∈ documented)
    (ordered : InOrder pf (run (step pf) start cs) (.updateStatus nodeId otaJobId status info)) :
    let c := OtaCall.updateStatus nodeId otaJobId status info
    Ledger pf start (cs ++ [c]) (step pf (run (step pf) start cs) c) := by
  intro c
  rcases @update_status_cases pf (run (step pf) start cs).db (run (step pf) start cs).now nodeId
    otaJobId status info with ⟨kept,refused⟩ | ⟨row,targets,stored,parsed,node,accepted,member,eq⟩
  · exact ledger_idle ledger kept fun _ _ h => refused h.2.2.2
  · have after : (step pf (run (step pf) start cs) c).db =
        {(run (step pf) start cs).db with otaJobNodes := targets} := eq
    have here : ∀ job n, Finishes pf job n (run (step pf) start cs) c ↔
        (row.jobId = job ∧ row.nodeId = n) ∧ status ∈ terminal := by
      intro job n
      simp only [c, Finishes, accepted, parsed, node, Option.some.injEq, and_true]
      exact ⟨fun h => ⟨⟨h.2.1,h.1⟩,h.2.2⟩,fun h => ⟨h.1.2,h.1.1,h.2⟩⟩
    have own : reported (run (step pf) start cs).now status info row ∈ targets :=
      (member _).mpr (Or.inr rfl)
    constructor
    · rw [after]
      intro r inside
      rcases (member r).mp inside with ⟨old,-⟩ | same
      · exact ledger.backed r old
      · subst same
        exact ledger.backed row stored
    · rw [after]
      intro job n finished
      rw [finished_append,here] at finished
      rcases finished with earlier | ⟨now,-⟩
      · obtain ⟨r,old,keys⟩ := ledger.known job n earlier
        by_cases same : r = row
        · subst same
          exact ⟨_,own,keys⟩
        · exact ⟨r,(member r).mpr (Or.inl ⟨old,same⟩),keys⟩
      · exact ⟨_,own,now⟩
    · rw [after]
      intro r inside
      rw [finished_append,here]
      rcases (member r).mp inside with ⟨old,other⟩ | same
      · have apart : ¬ (row.jobId = r.jobId ∧ row.nodeId = r.nodeId) := by
          intro keys
          exact other (Table.eq_of_conflict old stored (by simp [Schema.conflict, keys]))
        simp only [apart, false_and, or_false]
        exact ledger.settled r old
      · subst same
        obtain ⟨reopen,delay⟩ := ordered accepted row stored parsed node
        have settles := report_settles (ledger.settled row stored) known reopen delay
        simpa [reported, documented_short known] using settles

/-! What is offered. -/

theorem mem_pending_rows {db : Db} {n : Text} {row : OtaJobNode} {image : OtaImage} :
    (row,image) ∈ pendingRows db n ↔ (row ∈ db.otaJobNodes ∧ row.nodeId = n ∧
      openStatus row.status = true) ∧ ∃ job ∈ db.otaJobs, (job.id = row.jobId ∧
        job.status = .active) ∧ image ∈ db.otaImages ∧ image.id = job.imageId := by
  simp only [pendingRows, List.mem_flatMap, List.mem_map, Table.mem_select, Bool.and_eq_true,
    beq_iff_eq, Prod.mk.injEq]
  constructor
  · rintro ⟨r,target,job,⟨stored,active⟩,i,found,same,equal⟩
    subst same
    subst equal
    exact ⟨target,job,stored,active,found⟩
  · rintro ⟨target,job,stored,active,found⟩
    exact ⟨row,target,job,⟨stored,active⟩,image,found,rfl,rfl⟩

def offer (pf : Platform) (p : OtaJobNode × OtaImage) : OtaFetch :=
  .job (pf.uuidStr p.1.jobId) (pf.signedDownloadUrl p.2.storageKey) p.2.fileSize p.2.fileMd5
    p.2.fileSha256 p.2.fwVersion p.2.metadata

theorem fetch_cases (pf : Platform) (db : Db) (n : Text) :
    (fetchPendingForNode pf db n = .wait 60 600 ∧ pendingRows db n = []) ∨
    ∃ p ∈ pendingRows db n, (∀ q ∈ pendingRows db n, p.1.createdAt ≤ q.1.createdAt) ∧
      fetchPendingForNode pf db n = offer pf p := by
  have same := List.mergeSort_perm (pendingRows db n)
    fun a b => decide (a.1.createdAt ≤ b.1.createdAt)
  have sorted : ((pendingRows db n).mergeSort fun a b => decide (a.1.createdAt ≤ b.1.createdAt)).Pairwise
      fun a b => decide (a.1.createdAt ≤ b.1.createdAt) = true := by
    apply List.pairwise_mergeSort
    · intro a b c ab bc
      rw [decide_eq_true_eq] at ab bc ⊢
      exact Int.le_trans ab bc
    · intro a b
      rw [Bool.or_eq_true,decide_eq_true_eq,decide_eq_true_eq]
      exact Int.le_total a.1.createdAt b.1.createdAt
  unfold fetchPendingForNode
  generalize (pendingRows db n).mergeSort (fun a b => decide (a.1.createdAt ≤ b.1.createdAt)) =
    ordered at same sorted
  cases ordered with
  | nil => exact Or.inl ⟨rfl,same.nil_eq.symm⟩
  | cons p rest =>
    refine Or.inr ⟨p,same.mem_iff.mp (by simp),?_,rfl⟩
    intro q member
    rcases List.mem_cons.mp (same.mem_iff.mpr member) with here | there
    · rw [here]
    · simpa using (List.pairwise_cons.mp sorted).1 q there

theorem due_iff_pending {pf : Platform} {start : World} {cs : List OtaCall} {n : Text}
    (ledger : Ledger pf start cs (run (step pf) start cs)) {row : OtaJobNode} :
    Due pf start cs n row ↔ ∃ image, (row,image) ∈ pendingRows (run (step pf) start cs).db n := by
  constructor
  · rintro ⟨stored,node,-,unfinished⟩
    obtain ⟨job,job_stored,key,active,image,image_stored,image_key⟩ := ledger.backed row stored
    have opened : openStatus row.status = true := by
      rw [ledger.settled row stored,node]
      exact unfinished
    exact ⟨image,mem_pending_rows.mpr
      ⟨⟨stored,node,opened⟩,job,job_stored,⟨key,active⟩,image_stored,image_key⟩⟩
  · rintro ⟨image,pending⟩
    obtain ⟨⟨stored,node,opened⟩,job,job_stored,key,-⟩ := mem_pending_rows.mp pending
    have unfinished := (ledger.settled row stored).mp opened
    rw [node] at unfinished
    exact ⟨stored,node,⟨job,job_stored,key⟩,unfinished⟩

theorem ledger_offers {pf : Platform} {start : World} {cs : List OtaCall}
    (ledger : Ledger pf start cs (run (step pf) start cs)) (n : Text) :
    OfferedUntilDone pf start cs n := by
  unfold OfferedUntilDone
  intro fetched
  rcases fetch_cases pf (run (step pf) start cs).db n with ⟨waits,none⟩ |
    ⟨p,pending,earliest,offered⟩
  · constructor
    · constructor
      · intro available
        rw [show fetched = .wait 60 600 from waits] at available
        cases available
      · rintro ⟨row,due⟩
        obtain ⟨image,pending⟩ := (due_iff_pending ledger).mp due
        rw [none] at pending
        cases pending
    · intro job offered
      rw [show fetched = .wait 60 600 from waits] at offered
      cases offered
  · have due : Due pf start cs n p.1 := (due_iff_pending ledger).mpr ⟨p.2,pending⟩
    constructor
    · refine iff_of_true ?_ ⟨p.1,due⟩
      rw [show fetched = offer pf p from offered]
      rfl
    · intro job named
      rw [show fetched = offer pf p from offered] at named
      have equal : some job = some (pf.uuidStr p.1.jobId) := named.symm
      refine ⟨p.1,due,Option.some.inj equal,?_⟩
      intro other due'
      obtain ⟨image,pending'⟩ := (due_iff_pending ledger).mp due'
      exact earliest (other,image) pending'

/-- From a server without jobs, every state of a run whose reports are
    documented and in order offers exactly what is due. -/
theorem offered_until_done (pf : Platform) (start : World)
    (jobless : start.db.otaJobs.rows = [] ∧ start.db.otaJobNodes.rows = []) (cs : List OtaCall)
    (contract : ∀ c ∈ cs, Documented c) (ordered : Along (step pf) (InOrder pf) start cs)
    {pre post : List OtaCall} (reached : cs = pre ++ post) (n : Text) :
    OfferedUntilDone pf start pre n := by
  subst reached
  have rules : Along (step pf) (fun w c => Documented c ∧ InOrder pf w c) start pre :=
    along_and (step pf) (along_of_forall (step pf) fun c member =>
      contract c (List.mem_append_left _ member)) ((along_append (step pf)).mp ordered).1
  have first : Ledger pf start [] start := by
    constructor
    · intro row stored
      rw [Table.mem_def,jobless.2] at stored
      cases stored
    · intro job n finished
      cases finished
    · intro row stored
      rw [Table.mem_def,jobless.2] at stored
      cases stored
  have ledger : Ledger pf start pre (run (step pf) start pre) := by
    apply run_history (step pf) (I := Ledger pf start) first ?_ rules
    intro cs c ledger rule
    cases c with
    | tick elapsed => exact ledger_idle ledger rfl fun _ _ h => h
    | createJob jobId rowIds name imageId nodeIds policy createdBy => exact ledger_create ledger
    | updateStatus nodeId otaJobId status info => exact ledger_report ledger rule.1 rule.2
    | fetchPendingForNode nodeId => exact ledger_idle ledger rfl fun _ _ h => h
  exact ledger_offers ledger n

/-! Three runs with one job. -/

def jobText : Text := "00000000-0000-0000-0000-000000000028"

def platform : Platform := {Deployment.platform with
  parseUuid := fun s => if s = jobText then some 40 else none
  uuidStr := fun id => if id = 40 then jobText else []
  signedDownloadUrl := fun key => ("https://storage/ota/" : Text) ++ key}

def image : OtaImage where
  id := 7
  name := "light"
  fwVersion := "1.1"
  model := none
  fileSize := 4096
  storageKey := "images/7/light.bin"
  status := .ready
  metadata := []

def server : World where
  db := {
    nodes := .one {nodeId := "n1"}
    otaImages := .one image}
  now := 0

def rollout : OtaCall := .createJob 40 (fun _ => 50) "rollout" 7 ["n1"] [] none

def report (status : Text) : OtaCall := .updateStatus "n1" jobText status none

def installed : List OtaCall :=
  [rollout,report "in-progress",.tick 60,report "success",.fetchPendingForNode "n1"]

def reportedLate : List OtaCall := [rollout,report "success",report "in-progress"]

def putOff : List OtaCall := [rollout,report "delayed"]

theorem offered_until_installed : OfferedUntilDone platform server installed "n1" ∧
    OfferedUntilDone platform server [rollout,report "in-progress"] "n1" := by
  have contract : ∀ c ∈ installed, Documented c := by
    simp [installed, rollout, report, Documented, documented, terminal]
  have ordered : Along (step platform) (InOrder platform) server installed := by
    decide +kernel
  have whole : installed = installed ++ [] := (List.append_nil installed).symm
  have started : installed = [rollout,report "in-progress"] ++
      [.tick 60,report "success",.fetchPendingForNode "n1"] := by simp [installed]
  exact ⟨offered_until_done platform server ⟨rfl,rfl⟩ installed contract ordered whole "n1",
    offered_until_done platform server ⟨rfl,rfl⟩ installed contract ordered started "n1"⟩

/-- A late report brings the job back, and a delay withdraws it. -/
theorem late_and_delayed_reports :
    (∀ c ∈ reportedLate ++ putOff, Documented c) ∧
    ¬ OfferedUntilDone platform server reportedLate "n1" ∧
    ¬ OfferedUntilDone platform server putOff "n1" := by
  have contract : ∀ c ∈ reportedLate ++ putOff, Documented c := by
    simp [reportedLate, putOff, rollout, report, Documented, documented, terminal]
  have offered : otaAvailable (fetchPendingForNode platform
      (run (step platform) server reportedLate).db "n1") = true := by decide +kernel
  have finished : ∀ row ∈ (run (step platform) server reportedLate).db.otaJobNodes.rows,
      Finished platform server reportedLate row.jobId "n1" := by decide +kernel
  have withdrawn : otaAvailable (fetchPendingForNode platform
      (run (step platform) server putOff).db "n1") = false := by decide +kernel
  have unfinished : ∃ row ∈ (run (step platform) server putOff).db.otaJobNodes.rows,
      row.nodeId = "n1".toList ∧
      (∃ job ∈ (run (step platform) server putOff).db.otaJobs.rows,
        job.id = row.jobId ∧ job.status = .active) ∧
      ¬ Finished platform server putOff row.jobId "n1" := by decide +kernel
  refine ⟨contract,?_,?_⟩
  · intro holds
    obtain ⟨row,stored,-,-,unreported⟩ := holds.1.mp offered
    exact unreported (finished row stored)
  · intro holds
    obtain ⟨row,stored,node,active,unreported⟩ := unfinished
    have available := holds.1.mpr ⟨row,stored,node,active,unreported⟩
    rw [withdrawn] at available
    cases available

end RainmakerServer.OtaOffers
