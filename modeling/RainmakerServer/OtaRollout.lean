import RainmakerServer.BatchCreation
import RainmakerServer.OtaOffers

/-!
Images, jobs and targets over whole runs. An image that is ready stays ready,
so every job keeps the ready image it was created for, and what a device is
offered is read off that image. A report writes the row of its own job and
node, and no other node is offered anything else for it. The app is told the
status of a node as long as one job at most has targeted it.
-/
namespace RainmakerServer.OtaRollout
open Tables Fleet Runs OtaOffers

/-- What the administrators call, beside the jobs and the devices' calls. -/
inductive RolloutCall where
  | createImageUpload (imageId : Uuid) (name fwVersion : Text) (fileSize : Int)
      (model : Option Text) (metadata : JsonObject)
  | confirmImageUpload (imageId : Uuid) (fileMd5 fileSha256 : Option Text)
  | ota (call : OtaCall)

def rolloutStep (pf : Platform) (w : World) : RolloutCall → World
  | .createImageUpload imageId name fwVersion fileSize model metadata =>
    ⟨(createImageUpload pf w.db imageId name fwVersion fileSize model metadata).1,w.now⟩
  | .confirmImageUpload imageId md5 sha256 => ⟨(confirmImageUpload w.db imageId md5 sha256).1,w.now⟩
  | .ota call => step pf w call

def unrolled (w : World) : World where
  db := {w.db with otaImages := .empty, otaJobs := .empty, otaJobNodes := .empty}
  now := w.now

def Ready (db : Db) : Prop :=
  ∀ job ∈ db.otaJobs, ∃ image ∈ db.otaImages, image.id = job.imageId ∧ image.status = .ready

/-- What a payload says, read off a target of the node, its job and its image. -/
structure OfferOf (pf : Platform) (db : Db) (n otaJobId url : Text) (fileSize : Int)
    (fileMd5 fileSha256 : Option Text) (fwVersion : Text) (metadata : JsonObject)
    (row : OtaJobNode) (job : OtaJob) (image : OtaImage) : Prop where
  target : row ∈ db.otaJobNodes ∧ row.jobId = job.id ∧ row.nodeId = n
  opened : row.status = "pending".toList ∨ row.status = "in-progress".toList
  stored : job ∈ db.otaJobs ∧ otaJobId = pf.uuidStr job.id
  ready : image ∈ db.otaImages ∧ image.id = job.imageId ∧ image.status = .ready
  file : url = pf.signedDownloadUrl image.storageKey ∧ fileSize = image.fileSize ∧
    fileMd5 = image.fileMd5 ∧ fileSha256 = image.fileSha256
  version : fwVersion = image.fwVersion ∧ metadata = image.metadata

/-! Images. -/

section
variable {pf : Platform} {db : Db}

theorem ready_of_images {images : Table OtaImage} (ready : Ready db)
    (kept : ∀ image ∈ db.otaImages, image.status = .ready →
      ∃ new ∈ images, new.id = image.id ∧ new.status = .ready) :
    Ready {db with otaImages := images} := by
  intro job stored
  obtain ⟨image,present,key,status⟩ := ready job stored
  obtain ⟨new,there,same,still⟩ := kept image present status
  exact ⟨new,there,same.trans key,still⟩

theorem upload_ready {imageId : Uuid} {name fwVersion : Text} {fileSize : Int}
    {model : Option Text} {metadata : JsonObject} (ready : Ready db) :
    Ready (createImageUpload pf db imageId name fwVersion fileSize model metadata).1 := by
  unfold createImageUpload
  dsimp only
  split
  · exact ready
  · rename_i stored
    obtain ⟨t,inserted,-,eq⟩ := commitInsert_ok stored
    subst eq
    apply ready_of_images ready
    intro image present status
    exact ⟨image,(Table.mem_insert inserted).mpr (Or.inl present),rfl,status⟩

theorem confirm_ready {imageId : Uuid} {md5 sha256 : Option Text} (ready : Ready db) :
    Ready (confirmImageUpload db imageId md5 sha256).1 := by
  unfold confirmImageUpload
  split
  · exact ready
  · exact ready
  · rename_i found image
    split
    · exact ready
    · apply ready_of_images ready
      intro image present status
      refine ⟨_,Table.mem_update.mpr ⟨image,present,rfl⟩,?_⟩
      split
      · exact ⟨rfl,rfl⟩
      · exact ⟨rfl,status⟩

/-! Jobs and reports. -/

theorem create_job_ready {now : Time} {jobId : Uuid} {rowIds : Nat → Uuid} {name : Text}
    {imageId : Uuid} {nodeIds : List Text} {policy : JsonObject} {createdBy : Option Uuid}
    (ready : Ready db) :
    Ready (createJob db now jobId rowIds name imageId nodeIds policy createdBy).1 := by
  rcases @job_offered_cases db now jobId rowIds name imageId nodeIds policy createdBy with kept |
    ⟨image,job,jobs,targets,present,status,-,key,-,-,appended,-,-,eq⟩
  · rw [kept]
    exact ready
  · rw [eq]
    intro other stored
    rcases (Table.mem_appended appended).mp stored with old | new
    · exact ready other old
    · subst new
      exact ⟨image,present,key.symm,status⟩

theorem report_ready {now : Time} {nodeId otaJobId status : Text} {info : Option Text}
    (ready : Ready db) : Ready (updateStatus pf db now nodeId otaJobId status info).1 := by
  rcases update_status_eq pf db now nodeId otaJobId status info with
    ⟨e,failed⟩ | ⟨row,stored,parsed,node,eq⟩
  · rw [failed]
    exact ready
  · rw [eq]
    exact ready

end

theorem step_ready {pf : Platform} {w : World} (c : RolloutCall) (ready : Ready w.db) :
    Ready (rolloutStep pf w c).db := by
  cases c with
  | createImageUpload imageId name fwVersion fileSize model metadata => exact upload_ready ready
  | confirmImageUpload imageId md5 sha256 => exact confirm_ready ready
  | ota call =>
    cases call with
    | tick elapsed => exact ready
    | createJob jobId rowIds name imageId nodeIds policy createdBy => exact create_job_ready ready
    | updateStatus nodeId otaJobId status info => exact report_ready ready
    | fetchPendingForNode nodeId => exact ready

theorem run_ready (pf : Platform) (start : World) (cs : List RolloutCall) :
    Ready (run (rolloutStep pf) (unrolled start) cs).db := by
  have kept : ∀ (w : World) (c : RolloutCall), Ready w.db → Ready (rolloutStep pf w c).db :=
    fun w c => step_ready c
  apply run_preserves (rolloutStep pf) (I := fun w => Ready w.db) kept cs
  intro job stored
  cases stored

/-! Offers. -/

theorem fetch_offer {pf : Platform} {db : Db} (ready : Ready db) {n otaJobId url : Text}
    {fileSize : Int} {md5 sha256 : Option Text} {fwVersion : Text} {metadata : JsonObject}
    (fetched : fetchPendingForNode pf db n =
      .job otaJobId url fileSize md5 sha256 fwVersion metadata) :
    ∃ row job image,
      OfferOf pf db n otaJobId url fileSize md5 sha256 fwVersion metadata row job image := by
  rcases fetch_cases pf db n with ⟨waits,-⟩ | ⟨p,pending,-,offered⟩
  · rw [waits] at fetched
    cases fetched
  · obtain ⟨row,image⟩ := p
    rw [offered] at fetched
    cases fetched
    obtain ⟨⟨stored,node,opened⟩,job,listed,⟨key,-⟩,present,image_key⟩ := mem_pending_rows.mp pending
    obtain ⟨own,there,same,status⟩ := ready job listed
    -- the joined image and the ready one have the same key
    have single := Table.eq_of_conflict present there
      (by simp [Schema.conflict, image_key, same])
    subst single
    have either : row.status = "pending".toList ∨ row.status = "in-progress".toList := by
      simpa [openStatus] using opened
    exact ⟨row,job,image,⟨stored,key.symm,node⟩,either,⟨listed,by rw [key]⟩,
      ⟨present,image_key,status⟩,⟨rfl,rfl,rfl,rfl⟩,rfl,rfl⟩

theorem report_fetch_other {pf : Platform} {db : Db} {now : Time} {status m : Text}
    {info : Option Text} {row : OtaJobNode} (stored : row ∈ db.otaJobNodes) (other : m ≠ row.nodeId) :
    fetchPendingForNode pf (withReport db now status info row) m = fetchPendingForNode pf db m := by
  have rows : (withReport db now status info row).otaJobNodes.select (fun r => r.nodeId == m &&
      openStatus r.status) = db.otaJobNodes.select fun r => r.nodeId == m && openStatus r.status := by
    unfold withReport Table.select
    dsimp only
    rw [Table.update_filter]
    intro r present hit
    have single := Table.eq_of_conflict present stored (by
      rw [beq_iff_eq] at hit
      simp [Schema.conflict, hit])
    subst single
    have apart : (r.nodeId == m) = false := by simpa using Ne.symm other
    exact ⟨by simp [apart],by simp [reported, apart]⟩
  unfold fetchPendingForNode pendingRows
  rw [rows]
  rfl

/-! Reports. -/

/-- Only the row of the job and the node is written. -/
structure Confined (pf : Platform) (db db' : Db) (now : Time) (n otaJobId status : Text)
    (info : Option Text) : Prop where
  frame : db' = {db with otaJobNodes := db'.otaJobNodes}
  rows : db'.otaJobNodes.rows = db.otaJobNodes.rows.map fun r =>
    if pf.parseUuid otaJobId = some r.jobId ∧ r.nodeId = n then reported now status info r else r

theorem report_confined {pf : Platform} {db : Db} {now : Time} {n otaJobId status : Text}
    {info : Option Text} {row : OtaJobNode} (stored : row ∈ db.otaJobNodes)
    (parsed : pf.parseUuid otaJobId = some row.jobId) (node : row.nodeId = n) :
    Confined pf db (withReport db now status info row) now n otaJobId status info := by
  refine ⟨rfl,?_⟩
  apply List.map_congr_left
  intro r present
  have same : (r.id == row.id) = true ↔ pf.parseUuid otaJobId = some r.jobId ∧ r.nodeId = n := by
    rw [parsed,← node,beq_iff_eq,Option.some.injEq]
    constructor
    · intro key
      rw [Table.eq_of_conflict present stored (by simp [Schema.conflict, key])]
      exact ⟨rfl,rfl⟩
    · intro keys
      rw [Table.eq_of_conflict present stored (by simp [Schema.conflict, keys.1, keys.2])]
  simp only [same]

/-- In every state that is reached jobs have ready images, a node is offered
    what its job's image says, and a report is confined to its own row. -/
theorem rollout_invariants (pf : Platform) (start : World) (cs : List RolloutCall) :
    let w := run (rolloutStep pf) (unrolled start) cs
    (∀ job ∈ w.db.otaJobs, ∃ image ∈ w.db.otaImages,
      image.id = job.imageId ∧ image.status = .ready) ∧
    (w.db.otaJobNodes.rows.map fun r => (r.jobId,r.nodeId)).Nodup ∧
    (∀ n otaJobId url fileSize md5 sha256 fwVersion metadata,
      fetchPendingForNode pf w.db n = .job otaJobId url fileSize md5 sha256 fwVersion metadata →
      ∃ row job image,
        OfferOf pf w.db n otaJobId url fileSize md5 sha256 fwVersion metadata row job image) ∧
    ∀ n otaJobId status info,
      ((∃ e, updateStatus pf w.db w.now n otaJobId status info = raise w.db e) ∨
        (updateStatus pf w.db w.now n otaJobId status info).2 = .ok () ∧
        Confined pf w.db (updateStatus pf w.db w.now n otaJobId status info).1 w.now n otaJobId
          status info) ∧
      (∀ m, m ≠ n →
        fetchPendingForNode pf (updateStatus pf w.db w.now n otaJobId status info).1 m =
          fetchPendingForNode pf w.db m) ∧
      ((∀ row ∈ w.db.otaJobNodes, row.nodeId = n → pf.parseUuid otaJobId ≠ some row.jobId) →
        ∃ e, updateStatus pf w.db w.now n otaJobId status info = raise w.db e) := by
  intro w
  have ready : Ready w.db := run_ready pf start cs
  have targets : (w.db.otaJobNodes.rows.map fun r => (r.jobId,r.nodeId)).Nodup := by
    apply Table.nodup_map
    intro a b same
    simp only [Prod.mk.injEq] at same
    simp [Schema.conflict, same.1, same.2]
  refine ⟨ready,targets,?_,?_⟩
  · intro n otaJobId url fileSize md5 sha256 fwVersion metadata fetched
    exact fetch_offer ready fetched
  · intro n otaJobId status info
    rcases update_status_eq pf w.db w.now n otaJobId status info with
      ⟨e,failed⟩ | ⟨row,stored,parsed,node,eq⟩
    · refine ⟨Or.inl ⟨e,failed⟩,?_,fun _ => ⟨e,failed⟩⟩
      intro m other
      rw [failed]
      rfl
    · refine ⟨Or.inr ?_,?_,?_⟩
      · rw [eq]
        exact ⟨rfl,report_confined stored parsed node⟩
      · intro m other
        rw [eq]
        exact report_fetch_other stored (node.symm ▸ other)
      · intro unknown
        exact absurd parsed (unknown row stored node)

/-! One rollout. -/

def imageText : Text := "00000000-0000-0000-0000-000000000007"

def uploader : Platform := {OtaOffers.platform with
  uuidStr := fun id => if id = 40 then jobText else imageText}

def lightRollout : List RolloutCall :=
  [.createImageUpload 7 "light" "1.1" 4096 none [],
   .confirmImageUpload 7 (some "d41d8cd9") none,.ota rollout]

theorem light_offered : ∃ row job image, OfferOf uploader
    (run (rolloutStep uploader) (unrolled server) lightRollout).db "n1" jobText
    (("https://storage/ota/images/" : Text) ++ imageText ++ "/light.bin") 4096 (some "d41d8cd9")
    none "1.1" [] row job image := by
  have fetched : fetchPendingForNode uploader
      (run (rolloutStep uploader) (unrolled server) lightRollout).db "n1" =
      .job jobText (("https://storage/ota/images/" : Text) ++ imageText ++ "/light.bin") 4096
        (some "d41d8cd9") none "1.1" [] := by
    have pending : pendingRows (run (rolloutStep uploader) (unrolled server) lightRollout).db "n1" =
        [({id := 50, jobId := 40, nodeId := "n1", createdAt := 0},{image with
          storageKey := ("images/" : Text) ++ imageText ++ "/light.bin"
          fileMd5 := some "d41d8cd9"})] := by rfl
    unfold fetchPendingForNode
    rw [pending,List.mergeSort_singleton]
    rfl
  exact (rollout_invariants uploader server lightRollout).2.2.1 _ _ _ _ _ _ _ _ fetched

/-! The status the app is told. -/

def StatusKnown (pf : Platform) (db : Db) (n : Text) : Prop :=
  (∀ r ∈ db.otaJobNodes, r.nodeId ≠ n) ∧ getStatusForNode pf db n = .ok none ∨
    ∃ row ∈ db.otaJobNodes, row.nodeId = n ∧
      (∀ r ∈ db.otaJobNodes, r.nodeId = n → r.createdAt ≤ row.createdAt) ∧
      getStatusForNode pf db n =
        .ok (some ⟨n,pf.uuidStr row.jobId,row.status,row.progress,row.additionalInfo⟩)

/-- The call creates a job for a node that an earlier job has targeted. -/
def Retargets (n : Text) (w : World) : RolloutCall → Prop
  | .ota (.createJob jobId rowIds name imageId nodeIds policy createdBy) =>
    n ∈ nodeIds.map (cut 64) ∧ (∃ r ∈ w.db.otaJobNodes, r.nodeId = n) ∧ ∃ db' id,
        createJob w.db w.now jobId rowIds name imageId nodeIds policy createdBy = done db' id
  | _ => False

def targetCount (n : Text) (db : Db) : Nat := db.otaJobNodes.rows.countP fun r => r.nodeId == n

section
variable {pf : Platform} {db : Db} {n : Text}

theorem target_count_pos : 0 < targetCount n db ↔ ∃ r ∈ db.otaJobNodes, r.nodeId = n := by
  unfold targetCount
  rw [List.countP_pos_iff]
  simp [Table.mem_def]

theorem status_raises (many : 1 < targetCount n db) :
    getStatusForNode pf db n = .error (.database .multipleResultsFound) := by
  have several : scalarOneOrNone ((db.otaJobNodes.select fun r => r.nodeId == n).mergeSort
      fun a b => decide (b.createdAt ≤ a.createdAt)) = .error .multipleResultsFound := by
    apply scalar_many
    rw [List.length_mergeSort]
    exact lt_of_lt_of_eq many List.countP_eq_length_filter
  simp [getStatusForNode, several]

theorem status_known_iff : StatusKnown pf db n ↔ targetCount n db ≤ 1 := by
  constructor
  · intro known
    by_contra many
    unfold StatusKnown at known
    rw [status_raises (by omega)] at known
    simp at known
  · intro few
    have listed : ∀ r, r ∈ (db.otaJobNodes.select fun r => r.nodeId == n) ↔
        r ∈ db.otaJobNodes ∧ r.nodeId = n := by simp
    rw [targetCount,List.countP_eq_length_filter] at few
    unfold StatusKnown getStatusForNode
    match shape : db.otaJobNodes.select fun r => r.nodeId == n with
    | [] =>
      rw [shape] at listed
      left
      refine ⟨?_,by simp [scalarOneOrNone]⟩
      intro r stored named
      cases (listed r).mpr ⟨stored,named⟩
    | [row] =>
      rw [shape] at listed
      obtain ⟨stored,named⟩ := (listed row).mp (by simp)
      right
      refine ⟨row,stored,named,?_,by simp [scalarOneOrNone]⟩
      intro r there same
      rw [List.mem_singleton.mp ((listed r).mpr ⟨there,same⟩)]
    | a :: b :: rest =>
      unfold Table.select at shape
      rw [shape] at few
      simp at few

theorem new_targets_count {now : Time} {jobId : Uuid} {rowIds : Nat → Uuid} {nodeIds : List Text}
    {targets : Table OtaJobNode}
    (rows : db.otaJobNodes.insertAll (BatchCreation.newTargets now jobId rowIds nodeIds) =
      .ok targets) :
    targets.rows.countP (·.nodeId == n) = targetCount n db + (nodeIds.map (cut 64)).count n ∧
      (nodeIds.map (cut 64)).Nodup := by
  have nodes : (BatchCreation.newTargets now jobId rowIds nodeIds).map
      (fun r => (Schema.stored r).nodeId) = nodeIds.map (cut 64) := by
    apply List.ext_getElem
    · simp [BatchCreation.newTargets]
    · intro i _ _
      simp [BatchCreation.newTargets, BatchCreation.newTarget, Schema.stored]
  have same_job : ∀ r ∈ BatchCreation.newTargets now jobId rowIds nodeIds,
      (Schema.stored r).jobId = jobId :=
    BatchCreation.all_rows fun _ _ _ _ => rfl
  constructor
  · unfold targetCount
    rw [Table.insertAll_rows rows,List.countP_append,List.countP_map,← nodes,List.count_eq_countP,
      List.countP_map]
    rfl
  · have apart := (Table.insertAll_ok_iff.mp ⟨_,rows⟩).2.2
    rw [← nodes,List.Nodup,List.pairwise_map]
    apply apart.imp_of_mem
    intro a b first second free same
    simp only [Schema.conflict, same_job a first, same_job b second, same, BEq.rfl, Bool.and_true,
      Bool.or_true] at free
    cases free

theorem report_count {now : Time} {nodeId otaJobId status : Text} {info : Option Text} :
    targetCount n (updateStatus pf db now nodeId otaJobId status info).1 = targetCount n db := by
  rcases update_status_eq pf db now nodeId otaJobId status info with ⟨e,failed⟩ | ⟨row,-,-,-,eq⟩
  · rw [failed]
    rfl
  · rw [eq]
    unfold targetCount
    simp only [done, withReport, Table.update, List.countP_map]
    congr 1
    funext r
    dsimp only [Function.comp]
    split <;> rfl

theorem same_targets_count {db' : Db} (same : db'.otaJobNodes = db.otaJobNodes) :
    targetCount n db' = targetCount n db := by
  unfold targetCount
  rw [same]

end

theorem step_count {pf : Platform} {w : World} {n : Text} (c : RolloutCall) :
    targetCount n (rolloutStep pf w c).db ≤ 1 ↔ targetCount n w.db ≤ 1 ∧ ¬ Retargets n w c := by
  cases c with
  | createImageUpload imageId name fwVersion fileSize model metadata =>
    have same : (createImageUpload pf w.db imageId name fwVersion fileSize model
        metadata).1.otaJobNodes = w.db.otaJobNodes := by
      unfold createImageUpload
      dsimp only
      split
      · rfl
      · rename_i stored
        obtain ⟨t,-,-,eq⟩ := commitInsert_ok stored
        subst eq
        rfl
    simp [rolloutStep, same_targets_count same, Retargets]
  | confirmImageUpload imageId md5 sha256 =>
    have same : (confirmImageUpload w.db imageId md5 sha256).1.otaJobNodes =
        w.db.otaJobNodes := by
      unfold confirmImageUpload
      split
      · rfl
      · rfl
      · split <;> rfl
    simp [rolloutStep, same_targets_count same, Retargets]
  | ota call =>
    cases call with
    | tick elapsed => simp [rolloutStep, step, Retargets]
    | fetchPendingForNode nodeId => simp [rolloutStep, step, Retargets]
    | updateStatus nodeId otaJobId status info =>
      simp [rolloutStep, step, report_count, Retargets]
    | createJob jobId rowIds name imageId nodeIds policy createdBy =>
      simp only [rolloutStep, step, Retargets]
      rcases BatchCreation.create_job_cases w.db w.now jobId rowIds name imageId nodeIds policy
        createdBy with ⟨e,failed⟩ | ⟨jobs,targets,-,-,-,rows,eq⟩
      · rw [failed]
        simp [raise, done]
      · obtain ⟨grown,distinct⟩ := new_targets_count (n := n) rows
        have once : (nodeIds.map (cut 64)).count n ≤ 1 := List.nodup_iff_count_le_one.mp distinct n
        have listed : n ∈ nodeIds.map (cut 64) ↔ 0 < (nodeIds.map (cut 64)).count n := List.count_pos_iff.symm
        have created : ∃ db' id,
            (done {w.db with otaJobs := jobs, otaJobNodes := targets} jobId : Reply Uuid) =
              done db' id := ⟨_,_,rfl⟩
        rw [eq,← target_count_pos,listed]
        simp only [created, and_true]
        show targets.rows.countP (·.nodeId == n) ≤ 1 ↔ _
        omega

/-- In every state that is reached the app is told the latest status of a node
    exactly when no job was created for a node that had been targeted before. -/
theorem status_known_until_retargeted (pf : Platform) (start : World) (cs : List RolloutCall)
    (n : Text) : StatusKnown pf (run (rolloutStep pf) (unrolled start) cs).db n ↔
      ¬ Occurred (rolloutStep pf) (Retargets n) (unrolled start) cs := by
  rw [status_known_iff]
  induction cs using List.reverseRecOn with
  | nil => simp [run, Occurred, targetCount, unrolled, Table.empty]
  | append_singleton cs c ih =>
    rw [run_append,occurred_append,not_or,← ih]
    simp only [run, Occurred, or_false]
    exact step_count c

def lightRetargeted : List RolloutCall :=
  lightRollout ++ [.ota (.tick 60000000),
    .ota (.createJob 41 (fun _ => 51) "second rollout" 7 ["n1"] [] none)]

/-- With two jobs behind it the node has no status any more: the query raises. -/
theorem second_job_hides_status :
    getStatusForNode uploader (run (rolloutStep uploader) (unrolled server) lightRetargeted).db
        "n1" = .error (.database .multipleResultsFound) ∧
      ¬ StatusKnown uploader (run (rolloutStep uploader) (unrolled server) lightRetargeted).db
        "n1" := by
  have twice : targetCount "n1"
      (run (rolloutStep uploader) (unrolled server) lightRetargeted).db = 2 := by decide +kernel
  refine ⟨status_raises (by rw [twice]; decide),?_⟩
  rw [status_known_iff,twice]
  decide

end RainmakerServer.OtaRollout
