import Mathlib.Logic.Function.Iterate
import RainmakerServer.Models

/-!
Groups, automations and firmware rollouts. None of these tables takes part in
the access decision. Deleting a group cascades over its descendants.
-/
namespace RainmakerServer.Fleet
open Tables

/-! Groups. -/

def childGroups (groups : List NodeGroup) (ids : List Uuid) : List Uuid :=
  ids ++ (groups.filter fun g => match g.parentId with
    | some p => ids.contains p && !ids.contains g.id
    | none => false).map (·.id)

def descendants (groups : List NodeGroup) (roots : List Uuid) : List Uuid :=
  (childGroups groups)^[groups.length] roots

def cascadeGroups (db : Db) (roots : List Uuid) : Db :=
  let ids := descendants db.nodeGroups.rows roots
  {db with
    nodeGroups := db.nodeGroups.delete fun g => ids.contains g.id,
    nodeGroupNodes := db.nodeGroupNodes.delete fun m => ids.contains m.groupId}

def knownParent (db : Db) (ownerId : Uuid) : Option Uuid → Bool
  | none => true
  | some p => db.nodeGroups.rows.any fun g => g.id == p && g.ownerId == ownerId

def createGroup (db : Db) (groupId : Uuid) (memberIds : Nat → Uuid) (ownerId : Uuid) (name : Text)
    (parentGroupId : Option Uuid) (groupType : Option Text) (mutuallyExclusive : Bool)
    (nodes : List Text) (metadata : Json) : Reply Uuid :=
  if name.isEmpty then raise db (invalidRequest "group_name required")
  else if knownParent db ownerId parentGroupId = false then raise db (invalidRequest "Unknown parent group")
  else match commitInsert db.nodeGroups ⟨groupId,ownerId,parentGroupId,name,groupType,
      mutuallyExclusive,metadata.orElse (.obj [])⟩ (fun r => db.hasUser r.ownerId)
      fun t => {db with nodeGroups := t} with
  | .error e => raise db e
  | .ok db' => match db'.nodeGroupNodes.insertAll
        (nodes.mapIdx fun i nid => ⟨memberIds i,groupId,nid⟩) with
    | .error e => raise db (.database e)
    | .ok t => if nodes.all fun nid => db.hasNode (cut 64 nid) then
        done {db' with nodeGroupNodes := t} groupId
      else raise db (.database .integrityError)

def deleteGroup (db : Db) (ownerId groupId : Uuid) : Reply Unit :=
  match scalarOneOrNone (db.nodeGroups.select fun g => g.id == groupId && g.ownerId == ownerId) with
  | .error e => raise db (.database e)
  | .ok none => raise db (.rainmakerError 404 100015 "Group not found")
  | .ok (some group) => done (cascadeGroups db [group.id]) ()

structure GroupItem where
  groupId : Text
  groupName : Text
  type : Option Text
  mutuallyExclusive : Bool
  parentGroupId : Option Text
  nodes : List Text
  deriving DecidableEq

/-- Rows in the order of the table, where the database promises none. -/
def listGroups (pf : Platform) (db : Db) (ownerId : Uuid) (groupId : Option Uuid) :
    List GroupItem :=
  (db.nodeGroups.select fun g => g.ownerId == ownerId && groupId.all (g.id == ·)).map fun g =>
    ⟨pf.uuidStr g.id,g.name,g.type,g.mutuallyExclusive,g.parentId.map pf.uuidStr,
      (db.nodeGroupNodes.select fun m => m.groupId == g.id).map (·.nodeId)⟩

/-! Automations. -/

/-- What a text column is given: only text and `None` can be bound. -/
def columnText : Json → Except Exc (Option Text)
  | .str s => .ok (some s)
  | .null => .ok none
  | _ => .error (.database .dataError)

/-- The values come from the body of the request as they are. Both text columns
    are NOT NULL; an operator that is `None` is left out of the INSERT and takes
    the default of its column. -/
def createAutomation (db : Db) (id userId : Uuid) (name events actions eventOperator
    metadata : Json) : Reply Uuid :=
  match columnText name, columnText eventOperator with
  | .ok name, .ok operator =>
    match commitInsert db.automations ⟨id,userId,name.getD [],true,operator.getD "and",
        events.orElse (.arr []),actions.orElse (.arr []),metadata.orElse (.obj [])⟩
        (fun r => db.hasUser r.userId && name.isSome)
        fun t => {db with automations := t} with
    | .error e => raise db e
    | .ok db' => done db' id
  | _, _ => raise db (.database .dataError)

structure AutomationItem where
  automationId : Text
  name : Text
  enabled : Bool
  eventOperator : Text
  events : Json
  actions : Json
  metadata : Json

def serialise (pf : Platform) (row : Automation) : AutomationItem :=
  ⟨pf.uuidStr row.id,row.name,row.enabled,row.eventOperator,row.events,row.actions,
    row.metadata.orElse (.obj [])⟩

def listAutomations (db : Db) (userId : Uuid) : List Automation :=
  db.automations.select fun r => r.userId == userId

/-- An assigned document. One that equals what is stored is not sent. -/
def reassigned (patch : JsonObject) (key : Text) (stored empty : Json) : Json :=
  match Dict.get? key patch with
  | none => stored
  | some v => if Json.pyEq (v.orElse empty) stored then stored else v.orElse empty

/-- The row after the assignments of `update_automation`; absent keys keep
    their column. -/
def patched (patch : JsonObject) (r : Automation) : Except Exc Automation :=
  let name := (Dict.get? "name".toList patch).getD (.str r.name)
  let operator := (Dict.get? "event_operator".toList patch).getD (.str r.eventOperator)
  match columnText name, columnText operator with
  | .ok name, .ok operator =>
    let row := {r with
      name := name.getD [],
      enabled := ((Dict.get? "enabled".toList patch).map Json.truthy).getD r.enabled,
      eventOperator := operator.getD [],
      events := reassigned patch "events" r.events (.arr []),
      actions := reassigned patch "actions" r.actions (.arr []),
      metadata := reassigned patch "metadata" r.metadata (.obj [])}
    if Schema.fits row = false then .error (.database .dataError)
    else if name.isNone || operator.isNone then .error (.database .integrityError)
    else .ok (Schema.stored row)
  | _, _ => .error (.database .dataError)

def updateAutomation (db : Db) (userId automationId : Uuid) (patch : JsonObject) : Reply Unit :=
  match scalarOneOrNone (db.automations.select fun r => r.id == automationId && r.userId == userId) with
  | .error e => raise db (.database e)
  | .ok none => raise db (.rainmakerError 404 100015 "Automation not found")
  | .ok (some row) => match patched patch row with
    | .error e => raise db e
    | .ok new =>
      let t := db.automations.update (fun r => r.id == row.id)
        (fun r => {r with
          name := new.name, enabled := new.enabled, eventOperator := new.eventOperator,
          events := new.events, actions := new.actions, metadata := new.metadata})
        (fun _ _ => rfl) fun _ h => h
      done {db with automations := t} ()

def deleteAutomation (db : Db) (userId automationId : Uuid) : Reply Unit :=
  match scalarOneOrNone (db.automations.select fun r => r.id == automationId && r.userId == userId) with
  | .error e => raise db (.database e)
  | .ok none => raise db (.rainmakerError 404 100015 "Automation not found")
  | .ok (some row) => done {db with automations := db.automations.delete fun r => r.id == row.id} ()

/-! Firmware rollouts. -/

def createImageUpload (pf : Platform) (db : Db) (imageId : Uuid) (name fwVersion : Text)
    (fileSize : Int) (model : Option Text) (metadata : JsonObject) : Reply (Uuid × Text × Text) :=
  let storageKey := ("images/" : Text) ++ pf.uuidStr imageId ++ "/" ++ name ++ ".bin"
  let row : OtaImage := {
    id := imageId, name := name, fwVersion := fwVersion, model := model, fileSize := fileSize,
    storageKey := storageKey, metadata := metadata}
  match commitInsert db.otaImages row (fun _ => true) fun t => {db with otaImages := t} with
  | .error e => raise db e
  | .ok db' => done db' (imageId,pf.signedUploadUrl storageKey,storageKey)

def confirmImageUpload (db : Db) (imageId : Uuid) (fileMd5 fileSha256 : Option Text) :
    Reply ImageStatus :=
  match scalarOneOrNone (db.otaImages.select fun r => r.id == imageId) with
  | .error e => raise db (.database e)
  | .ok none => raise db (invalidRequest "Unknown ota_image_id")
  | .ok (some image) =>
    if (assignableOpt 64 fileMd5 && assignableOpt 128 fileSha256) = false then
      raise db (.database .dataError)
    else
      let t := db.otaImages.update (fun r => r.id == image.id)
        (fun r => {r with
          fileMd5 := fileMd5.map (cut 64), fileSha256 := fileSha256.map (cut 128),
          status := .ready})
        (fun _ _ => rfl) fun _ h => h
      done {db with otaImages := t} .ready

def createJob (db : Db) (now : Time) (jobId : Uuid) (rowIds : Nat → Uuid) (name : Text)
    (imageId : Uuid) (nodeIds : List Text) (rolloutPolicy : JsonObject) (createdBy : Option Uuid) :
    Reply Uuid :=
  let job : OtaJob := {
    id := jobId, imageId := imageId, name := name, status := .active,
    rolloutPolicy := rolloutPolicy, startedAt := some now, createdBy := createdBy}
  let targets : List OtaJobNode := nodeIds.mapIdx fun i nid => {
    id := rowIds i, jobId := jobId, nodeId := nid, createdAt := now}
  match scalarOneOrNone (db.otaImages.select fun r => r.id == imageId) with
  | .error e => raise db (.database e)
  | .ok none => raise db (invalidRequest "Image not ready")
  | .ok (some image) =>
    if image.status ≠ .ready then raise db (invalidRequest "Image not ready")
    else match commitInsert db.otaJobs job (fun _ => true) fun t => {db with otaJobs := t} with
    | .error e => raise db e
    | .ok db' => match db'.otaJobNodes.insertAll targets with
      | .error e => raise db (.database e)
      | .ok t => if nodeIds.all fun nid => db.hasNode (cut 64 nid) then
          done {db' with otaJobNodes := t} jobId
        else raise db (.database .integrityError)

def updateStatus (pf : Platform) (db : Db) (now : Time) (nodeId otaJobId status : Text)
    (additionalInfo : Option Text) : Reply Unit :=
  match pf.parseUuid otaJobId with
  | none => raise db (invalidRequest "Invalid ota_job_id")
  | some jobId => match scalarOneOrNone (db.otaJobNodes.select fun r =>
        r.jobId == jobId && r.nodeId == nodeId) with
    | .error e => raise db (.database e)
    | .ok none => raise db (.rainmakerError 404 105012 "OTA job not found for node")
    | .ok (some row) =>
      if (assignable 32 status && assignableOpt 512 additionalInfo) = false then
        raise db (.database .dataError)
      else
        let t := db.otaJobNodes.update (fun r => r.id == row.id)
          (fun r => {r with
            status := cut 32 status, additionalInfo := additionalInfo.map (cut 512),
            lastUpdate := some now})
          (fun _ _ => rfl) fun _ h => h
        done {db with otaJobNodes := t} ()

/-- What a device is told; `ota_available` is the constructor, and the action of
    the first form is always `wait`. -/
inductive OtaFetch where
  | wait (minWait maxWait : Nat)
  | job (otaJobId url : Text) (fileSize : Int) (fileMd5 fileSha256 : Option Text)
      (fwVersion : Text) (metadata : JsonObject)

def openStatus (status : Text) : Bool := status == "pending".toList || status == "in-progress".toList

def pendingRows (db : Db) (nodeId : Text) : List (OtaJobNode × OtaImage) :=
  (db.otaJobNodes.select fun r => r.nodeId == nodeId && openStatus r.status).flatMap fun r =>
    (db.otaJobs.select fun j => j.id == r.jobId && j.status == .active).flatMap fun j =>
      (db.otaImages.select fun i => i.id == j.imageId).map fun i => (r,i)

def fetchPendingForNode (pf : Platform) (db : Db) (nodeId : Text) : OtaFetch :=
  match (pendingRows db nodeId).mergeSort fun a b => decide (a.1.createdAt ≤ b.1.createdAt) with
  | [] => .wait 60 600
  | (row,image) :: _ => .job (pf.uuidStr row.jobId) (pf.signedDownloadUrl image.storageKey)
      image.fileSize image.fileMd5 image.fileSha256 image.fwVersion image.metadata

structure OtaStatus where
  nodeId : Text
  otaJobId : Text
  status : Text
  progress : Int
  additionalInfo : Option Text
  deriving DecidableEq

def getStatusForNode (pf : Platform) (db : Db) (nodeId : Text) : Except Exc (Option OtaStatus) :=
  match scalarOneOrNone ((db.otaJobNodes.select fun r => r.nodeId == nodeId).mergeSort
      fun a b => decide (b.createdAt ≤ a.createdAt)) with
  | .error e => .error (.database e)
  | .ok none => .ok none
  | .ok (some row) =>
    .ok (some ⟨nodeId,pf.uuidStr row.jobId,row.status,row.progress,row.additionalInfo⟩)

/-! Frames. -/

def Writes (db db' : Db) : Prop :=
  ∃ groups members automations images jobs targets, db' = {db with
    nodeGroups := groups, nodeGroupNodes := members, automations := automations,
    otaImages := images, otaJobs := jobs, otaJobNodes := targets}

theorem writes_refl (db : Db) : Writes db db := ⟨_,_,_,_,_,_,rfl⟩

theorem create_group_writes {db : Db} {groupId ownerId : Uuid} {memberIds : Nat → Uuid}
    {name : Text} {parent : Option Uuid} {type : Option Text} {exclusive : Bool}
    {nodes : List Text} {metadata : Json} : Writes db
      (createGroup db groupId memberIds ownerId name parent type exclusive nodes metadata).1 := by
  unfold createGroup
  split
  · exact writes_refl db
  · split
    · exact writes_refl db
    · split
      · exact writes_refl db
      · rename_i stored
        obtain ⟨t,-,-,eq⟩ := commitInsert_ok stored
        subst eq
        split
        · exact writes_refl db
        · split
          · exact ⟨_,_,_,_,_,_,rfl⟩
          · exact writes_refl db

theorem delete_group_writes {db : Db} {ownerId groupId : Uuid} :
    Writes db (deleteGroup db ownerId groupId).1 := by
  unfold deleteGroup
  split
  · exact writes_refl db
  · exact writes_refl db
  · exact ⟨_,_,_,_,_,_,rfl⟩

theorem create_automation_writes {db : Db} {id userId : Uuid}
    {name events actions operator metadata : Json} :
    Writes db (createAutomation db id userId name events actions operator metadata).1 := by
  unfold createAutomation
  split
  · split
    · exact writes_refl db
    · rename_i stored
      obtain ⟨t,-,-,eq⟩ := commitInsert_ok stored
      subst eq
      exact ⟨_,_,_,_,_,_,rfl⟩
  · exact writes_refl db

theorem update_automation_writes {db : Db} {userId automationId : Uuid} {patch : JsonObject} :
    Writes db (updateAutomation db userId automationId patch).1 := by
  unfold updateAutomation
  split
  · exact writes_refl db
  · exact writes_refl db
  · split
    · exact writes_refl db
    · exact ⟨_,_,_,_,_,_,rfl⟩

theorem delete_automation_writes {db : Db} {userId automationId : Uuid} :
    Writes db (deleteAutomation db userId automationId).1 := by
  unfold deleteAutomation
  split
  · exact writes_refl db
  · exact writes_refl db
  · exact ⟨_,_,_,_,_,_,rfl⟩

theorem create_image_upload_writes {pf : Platform} {db : Db} {imageId : Uuid}
    {name fwVersion : Text} {fileSize : Int} {model : Option Text} {metadata : JsonObject} :
    Writes db (createImageUpload pf db imageId name fwVersion fileSize model metadata).1 := by
  unfold createImageUpload
  dsimp only
  split
  · exact writes_refl db
  · rename_i stored
    obtain ⟨t,-,-,eq⟩ := commitInsert_ok stored
    subst eq
    exact ⟨_,_,_,_,_,_,rfl⟩

theorem confirm_image_upload_writes {db : Db} {imageId : Uuid} {md5 sha256 : Option Text} :
    Writes db (confirmImageUpload db imageId md5 sha256).1 := by
  unfold confirmImageUpload
  split
  · exact writes_refl db
  · exact writes_refl db
  · split
    · exact writes_refl db
    · exact ⟨_,_,_,_,_,_,rfl⟩

theorem create_job_writes {db : Db} {now : Time} {jobId : Uuid} {rowIds : Nat → Uuid} {name : Text}
    {imageId : Uuid} {nodeIds : List Text} {policy : JsonObject} {createdBy : Option Uuid} :
    Writes db (createJob db now jobId rowIds name imageId nodeIds policy createdBy).1 := by
  unfold createJob
  dsimp only
  split
  · exact writes_refl db
  · exact writes_refl db
  · split
    · exact writes_refl db
    · split
      · exact writes_refl db
      · rename_i stored
        obtain ⟨t,-,-,eq⟩ := commitInsert_ok stored
        subst eq
        split
        · exact writes_refl db
        · split
          · exact ⟨_,_,_,_,_,_,rfl⟩
          · exact writes_refl db

theorem update_status_writes {pf : Platform} {db : Db} {now : Time} {nodeId jobId status : Text}
    {info : Option Text} : Writes db (updateStatus pf db now nodeId jobId status info).1 := by
  unfold updateStatus
  split
  · exact writes_refl db
  · split
    · exact writes_refl db
    · exact writes_refl db
    · split
      · exact writes_refl db
      · exact ⟨_,_,_,_,_,_,rfl⟩

end RainmakerServer.Fleet
