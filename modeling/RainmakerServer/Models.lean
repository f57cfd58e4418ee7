import RainmakerServer.Core

/-!
The rows of the database and their constraints. `conflict` collects, for each
table, its primary key and its unique indexes; `fits` collects what its text
columns and its JSONB columns take, `stored` cuts the texts to their columns,
and `holds` says of the texts that no UPDATE writes that they were cut. Columns
that no handler reads are left out, and so is `node_attributes`, which nothing
uses.
-/
namespace RainmakerServer
open Tables

inductive UserStatus where
  | unconfirmed
  | confirmed
  deriving DecidableEq

structure User where
  id : Uuid
  userName : Text
  email : Text
  passwordHash : Option Text
  status : UserStatus
  isSuperAdmin : Bool := false
  isAdmin : Bool := false
  customData : JsonObject := []
  confirmCode : Option Text := none
  confirmCodeExp : Option Time := none
  resetCode : Option Text := none
  resetCodeExp : Option Time := none
  lastLoginAt : Option Time := none

instance : Schema User where
  conflict a b := a.id == b.id || a.userName == b.userName
  conflict_symm a b := by rw [Bool.beq_comm (a := a.id), Bool.beq_comm (a := a.userName)]
  fits r := assignable 254 r.userName && assignable 254 r.email && assignableOpt 255 r.passwordHash &&
    assignableOpt 16 r.confirmCode && assignableOpt 16 r.resetCode &&
    Json.storableFields r.customData
  stored r := {r with
    userName := cut 254 r.userName, email := cut 254 r.email,
    passwordHash := r.passwordHash.map (cut 255), confirmCode := r.confirmCode.map (cut 16),
    resetCode := r.resetCode.map (cut 16)}
  holds r := varchar 254 r.userName && varchar 254 r.email
  stored_holds r fits := by
    simp only [Bool.and_eq_true] at fits ⊢
    exact ⟨cut_varchar fits.1.1.1.1.1,cut_varchar fits.1.1.1.1.2⟩

structure RefreshToken where
  id : Uuid
  userId : Uuid
  jti : Text
  expiresAt : Time
  revokedAt : Option Time := none
  deriving DecidableEq

instance : Schema RefreshToken where
  conflict a b := a.id == b.id || a.jti == b.jti
  conflict_symm a b := by rw [Bool.beq_comm (a := a.id), Bool.beq_comm (a := a.jti)]
  fits r := assignable 64 r.jti
  stored r := {r with jti := cut 64 r.jti}
  holds r := varchar 64 r.jti
  stored_holds _ fits := cut_varchar fits

structure Node where
  nodeId : Text
  nodeType : Option Text := none
  fwVersion : Option Text := none
  model : Option Text := none
  lastSeenAt : Option Time := none
  online : Bool := false
  registrationTs : Option Time := none
  tags : List Text := []
  deriving DecidableEq

instance : Schema Node where
  conflict a b := a.nodeId == b.nodeId
  conflict_symm _ _ := Bool.beq_comm
  fits r := assignable 64 r.nodeId
  stored r := {r with nodeId := cut 64 r.nodeId}
  holds r := varchar 64 r.nodeId
  stored_holds _ fits := cut_varchar fits

structure NodeConfig where
  nodeId : Text
  configVersion : Option Text
  payload : JsonObject

instance : Schema NodeConfig where
  conflict a b := a.nodeId == b.nodeId
  conflict_symm _ _ := Bool.beq_comm
  fits r := assignable 64 r.nodeId && assignableOpt 32 r.configVersion &&
    Json.storableFields r.payload
  stored r := {r with
    nodeId := cut 64 r.nodeId, configVersion := r.configVersion.map (cut 32)}
  holds r := varchar 64 r.nodeId
  stored_holds r fits := by
    simp only [Bool.and_eq_true] at fits
    exact cut_varchar fits.1.1

structure NodeParamsShadow where
  nodeId : Text
  payload : JsonObject

instance : Schema NodeParamsShadow where
  conflict a b := a.nodeId == b.nodeId
  conflict_symm _ _ := Bool.beq_comm
  fits r := assignable 64 r.nodeId && Json.storableFields r.payload
  stored r := {r with nodeId := cut 64 r.nodeId}
  holds r := varchar 64 r.nodeId
  stored_holds r fits := by
    rw [Bool.and_eq_true] at fits
    exact cut_varchar fits.1

structure NodeCertificate where
  serial : Text
  nodeId : Text
  certPem : Text
  cn : Text
  notBefore : Time
  notAfter : Time
  revoked : Bool := false
  revokedAt : Option Time := none
  deriving DecidableEq

instance : Schema NodeCertificate where
  conflict a b := a.serial == b.serial
  conflict_symm _ _ := Bool.beq_comm
  fits r := assignable 64 r.serial && assignable 64 r.nodeId && assignable 128 r.cn &&
    bindable r.certPem
  stored r := {r with
    serial := cut 64 r.serial, nodeId := cut 64 r.nodeId, cn := cut 128 r.cn}
  holds r := varchar 64 r.serial && varchar 64 r.nodeId && varchar 128 r.cn
  stored_holds r fits := by
    simp only [Bool.and_eq_true] at fits ⊢
    exact ⟨⟨cut_varchar fits.1.1.1,cut_varchar fits.1.1.2⟩,cut_varchar fits.1.2⟩

inductive MappingRole where
  | primary
  deriving DecidableEq

structure UserNodeMapping where
  id : Uuid
  userId : Uuid
  nodeId : Text
  role : MappingRole := .primary
  primary : Bool := true
  deriving DecidableEq

instance : Schema UserNodeMapping where
  conflict a b := a.id == b.id || (a.userId == b.userId && a.nodeId == b.nodeId)
  conflict_symm a b := by
    rw [Bool.beq_comm (a := a.id), Bool.beq_comm (a := a.userId), Bool.beq_comm (a := a.nodeId)]
  fits r := assignable 64 r.nodeId
  stored r := {r with nodeId := cut 64 r.nodeId}
  holds r := varchar 64 r.nodeId
  stored_holds _ fits := cut_varchar fits

inductive MappingStatus where
  | pending
  | completed
  | expired
  deriving DecidableEq

structure MappingChallenge where
  id : Uuid
  requestId : Text
  userId : Uuid
  nodeId : Option Text
  secretKey : Option Text := none
  challenge : Option Text := none
  status : MappingStatus := .pending
  operation : Text
  expiresAt : Time
  completedAt : Option Time := none
  deriving DecidableEq

instance : Schema MappingChallenge where
  conflict a b := a.id == b.id || a.requestId == b.requestId
  conflict_symm a b := by rw [Bool.beq_comm (a := a.id), Bool.beq_comm (a := a.requestId)]
  fits r := assignable 64 r.requestId && assignableOpt 64 r.nodeId && assignableOpt 128 r.secretKey &&
    assignableOpt 256 r.challenge && assignable 16 r.operation
  stored r := {r with
    requestId := cut 64 r.requestId, nodeId := r.nodeId.map (cut 64),
    secretKey := r.secretKey.map (cut 128), challenge := r.challenge.map (cut 256),
    operation := cut 16 r.operation}
  holds r := varchar 64 r.requestId && varcharOpt 64 r.nodeId && varcharOpt 128 r.secretKey &&
    varcharOpt 256 r.challenge && varchar 16 r.operation
  stored_holds r fits := by
    simp only [Bool.and_eq_true] at fits ⊢
    obtain ⟨⟨⟨⟨requestId,nodeId⟩,secretKey⟩,challenge⟩,operation⟩ := fits
    exact ⟨⟨⟨⟨cut_varchar requestId,cut_varcharOpt nodeId⟩,cut_varcharOpt secretKey⟩,
      cut_varcharOpt challenge⟩,cut_varchar operation⟩

structure DeviceProvisioning where
  macAddr : Text
  platform : Text
  hmacKey : Bytes
  deriving DecidableEq

instance : Schema DeviceProvisioning where
  conflict a b := a.macAddr == b.macAddr
  conflict_symm _ _ := Bool.beq_comm
  fits r := assignable 32 r.macAddr && assignable 32 r.platform
  stored r := {r with macAddr := cut 32 r.macAddr, platform := cut 32 r.platform}
  holds r := varchar 32 r.macAddr && varchar 32 r.platform
  stored_holds r fits := by
    simp only [Bool.and_eq_true] at fits ⊢
    exact ⟨cut_varchar fits.1,cut_varchar fits.2⟩

inductive ClaimStatus where
  | pending
  | verified
  deriving DecidableEq

inductive ClaimMode where
  | self
  | assisted
  deriving DecidableEq

structure ClaimChallenge where
  id : Uuid
  authId : Option Text := none
  macAddr : Text
  platform : Text
  nodeId : Text
  userId : Option Uuid := none
  challenge : Option Bytes := none
  status : ClaimStatus := .pending
  mode : ClaimMode
  attempts : Nat := 0
  expiresAt : Time
  verifiedAt : Option Time := none
  createdAt : Time
  deriving DecidableEq

def sameAuthId : Option Text → Option Text → Bool
  | some a, some b => a == b
  | _, _ => false

instance : Schema ClaimChallenge where
  conflict a b := a.id == b.id || sameAuthId a.authId b.authId
  conflict_symm a b := by
    rw [Bool.beq_comm (a := a.id)]
    cases a.authId <;> cases b.authId <;> simp [sameAuthId, Bool.beq_comm]
  fits r := assignableOpt 64 r.authId && assignable 32 r.macAddr && assignable 32 r.platform &&
    assignable 64 r.nodeId
  stored r := {r with
    authId := r.authId.map (cut 64), macAddr := cut 32 r.macAddr, platform := cut 32 r.platform,
    nodeId := cut 64 r.nodeId}
  holds r := varcharOpt 64 r.authId && varchar 32 r.macAddr && varchar 32 r.platform &&
    varchar 64 r.nodeId
  stored_holds r fits := by
    simp only [Bool.and_eq_true] at fits ⊢
    obtain ⟨⟨⟨authId,macAddr⟩,platform⟩,nodeId⟩ := fits
    exact ⟨⟨⟨cut_varcharOpt authId,cut_varchar macAddr⟩,cut_varchar platform⟩,cut_varchar nodeId⟩

inductive SharingRole where
  | secondary
  deriving DecidableEq

structure NodeSharing where
  id : Uuid
  nodeId : Text
  fromUserId : Uuid
  toUserId : Uuid
  role : SharingRole := .secondary
  deriving DecidableEq

instance : Schema NodeSharing where
  conflict a b := a.id == b.id || (a.nodeId == b.nodeId && a.toUserId == b.toUserId)
  conflict_symm a b := by
    rw [Bool.beq_comm (a := a.id), Bool.beq_comm (a := a.nodeId), Bool.beq_comm (a := a.toUserId)]
  fits r := assignable 64 r.nodeId
  stored r := {r with nodeId := cut 64 r.nodeId}
  holds r := varchar 64 r.nodeId
  stored_holds _ fits := cut_varchar fits

inductive RequestStatus where
  | pending
  | accepted
  | declined
  | expired
  deriving DecidableEq

structure NodeSharingRequest where
  id : Uuid
  nodeId : Text
  fromUserId : Uuid
  toUserName : Text
  status : RequestStatus := .pending
  expiresAt : Time
  deriving DecidableEq

instance : Schema NodeSharingRequest where
  conflict a b := a.id == b.id
  conflict_symm _ _ := Bool.beq_comm
  fits r := assignable 64 r.nodeId && assignable 254 r.toUserName
  stored r := {r with nodeId := cut 64 r.nodeId, toUserName := cut 254 r.toUserName}
  holds r := varchar 64 r.nodeId && varchar 254 r.toUserName
  stored_holds r fits := by
    simp only [Bool.and_eq_true] at fits ⊢
    exact ⟨cut_varchar fits.1,cut_varchar fits.2⟩

structure NodeGroup where
  id : Uuid
  ownerId : Uuid
  parentId : Option Uuid
  name : Text
  type : Option Text
  mutuallyExclusive : Bool
  metadata : Json

instance : Schema NodeGroup where
  conflict a b := a.id == b.id
  conflict_symm _ _ := Bool.beq_comm
  fits r := assignable 128 r.name && assignableOpt 64 r.type && Json.storable r.metadata
  stored r := {r with name := cut 128 r.name, type := r.type.map (cut 64)}
  holds r := varchar 128 r.name && varcharOpt 64 r.type
  stored_holds r fits := by
    simp only [Bool.and_eq_true] at fits ⊢
    exact ⟨cut_varchar fits.1.1,cut_varcharOpt fits.1.2⟩

structure NodeGroupNode where
  id : Uuid
  groupId : Uuid
  nodeId : Text
  deriving DecidableEq

instance : Schema NodeGroupNode where
  conflict a b := a.id == b.id || (a.groupId == b.groupId && a.nodeId == b.nodeId)
  conflict_symm a b := by
    rw [Bool.beq_comm (a := a.id), Bool.beq_comm (a := a.groupId), Bool.beq_comm (a := a.nodeId)]
  fits r := assignable 64 r.nodeId
  stored r := {r with nodeId := cut 64 r.nodeId}
  holds r := varchar 64 r.nodeId
  stored_holds _ fits := cut_varchar fits

structure Automation where
  id : Uuid
  userId : Uuid
  name : Text
  enabled : Bool
  eventOperator : Text
  events : Json
  actions : Json
  metadata : Json

instance : Schema Automation where
  conflict a b := a.id == b.id
  conflict_symm _ _ := Bool.beq_comm
  fits r := assignable 128 r.name && assignable 8 r.eventOperator && Json.storable r.events &&
    Json.storable r.actions && Json.storable r.metadata
  stored r := {r with name := cut 128 r.name, eventOperator := cut 8 r.eventOperator}
  holds _ := true
  stored_holds _ _ := rfl

inductive ImageStatus where
  | staged
  | ready
  deriving DecidableEq

structure OtaImage where
  id : Uuid
  name : Text
  fwVersion : Text
  model : Option Text
  fileSize : Int
  fileMd5 : Option Text := none
  fileSha256 : Option Text := none
  storageKey : Text
  status : ImageStatus := .staged
  metadata : JsonObject

instance : Schema OtaImage where
  conflict a b := a.id == b.id
  conflict_symm _ _ := Bool.beq_comm
  fits r := assignable 128 r.name && assignable 64 r.fwVersion && assignableOpt 64 r.model &&
    decide (-2147483648 ≤ r.fileSize ∧ r.fileSize ≤ 2147483647) && assignableOpt 64 r.fileMd5 &&
    assignableOpt 128 r.fileSha256 && assignable 512 r.storageKey &&
    Json.storableFields r.metadata
  stored r := {r with
    name := cut 128 r.name, fwVersion := cut 64 r.fwVersion, model := r.model.map (cut 64),
    fileMd5 := r.fileMd5.map (cut 64), fileSha256 := r.fileSha256.map (cut 128),
    storageKey := cut 512 r.storageKey}
  holds _ := true
  stored_holds _ _ := rfl

inductive JobStatus where
  | pending
  | active
  deriving DecidableEq

structure OtaJob where
  id : Uuid
  imageId : Uuid
  name : Text
  status : JobStatus := .pending
  rolloutPolicy : JsonObject
  startedAt : Option Time := none
  createdBy : Option Uuid := none

instance : Schema OtaJob where
  conflict a b := a.id == b.id
  conflict_symm _ _ := Bool.beq_comm
  fits r := assignable 128 r.name && Json.storableFields r.rolloutPolicy
  stored r := {r with name := cut 128 r.name}
  holds r := varchar 128 r.name
  stored_holds r fits := by
    rw [Bool.and_eq_true] at fits
    exact cut_varchar fits.1

/-- The status is whatever text the device reports. -/
structure OtaJobNode where
  id : Uuid
  jobId : Uuid
  nodeId : Text
  status : Text := "pending"
  progress : Int := 0
  additionalInfo : Option Text := none
  lastUpdate : Option Time := none
  createdAt : Time
  deriving DecidableEq

instance : Schema OtaJobNode where
  conflict a b := a.id == b.id || (a.jobId == b.jobId && a.nodeId == b.nodeId)
  conflict_symm a b := by
    rw [Bool.beq_comm (a := a.id), Bool.beq_comm (a := a.jobId), Bool.beq_comm (a := a.nodeId)]
  fits r := assignable 64 r.nodeId && assignable 32 r.status && assignableOpt 512 r.additionalInfo
  stored r := {r with
    nodeId := cut 64 r.nodeId, status := cut 32 r.status,
    additionalInfo := r.additionalInfo.map (cut 512)}
  holds r := varchar 64 r.nodeId
  stored_holds r fits := by
    simp only [Bool.and_eq_true] at fits
    exact cut_varchar fits.1.1

structure TsData where
  ts : Int
  nodeId : Text
  deviceName : Text
  paramName : Text
  dataType : Text
  valueInt : Option Int := none
  valueFloat : Option PyFloat := none
  valueBool : Option Bool := none
  valueStr : Option Text := none
  deriving DecidableEq

structure Db where
  users : Table User := .empty
  refreshTokens : Table RefreshToken := .empty
  nodes : Table Node := .empty
  nodeConfigs : Table NodeConfig := .empty
  nodeParamsShadow : Table NodeParamsShadow := .empty
  nodeCertificates : Table NodeCertificate := .empty
  userNodeMappings : Table UserNodeMapping := .empty
  mappingChallenges : Table MappingChallenge := .empty
  deviceProvisioning : Table DeviceProvisioning := .empty
  claimChallenges : Table ClaimChallenge := .empty
  nodeSharing : Table NodeSharing := .empty
  nodeSharingRequests : Table NodeSharingRequest := .empty
  nodeGroups : Table NodeGroup := .empty
  nodeGroupNodes : Table NodeGroupNode := .empty
  automations : Table Automation := .empty
  otaImages : Table OtaImage := .empty
  otaJobs : Table OtaJob := .empty
  otaJobNodes : Table OtaJobNode := .empty
  tsdata : List TsData := []

def Db.empty : Db := {}

def Db.hasUser (db : Db) (id : Uuid) : Bool := db.users.rows.any (·.id == id)
def Db.hasNode (db : Db) (nodeId : Text) : Bool := db.nodes.rows.any (·.nodeId == nodeId)

/-- One commit that stores a row: the column checks, the unique indexes, then
    the foreign keys of the row as it is stored. -/
def commitInsert {α : Type} [Schema α] (t : Table α) (row : α) (present : α → Bool)
    (store : Table α → Db) : Except Exc Db :=
  match t.insert row with
  | .error e => .error (.database e)
  | .ok t' => if present (Schema.stored row) then .ok (store t')
    else .error (.database .integrityError)

theorem commitInsert_ok {α : Type} [Schema α] {t : Table α} {row : α} {present : α → Bool}
    {store : Table α → Db} {db' : Db} (h : commitInsert t row present store = .ok db') :
    ∃ t', t.insert row = .ok t' ∧ present (Schema.stored row) = true ∧ db' = store t' := by
  unfold commitInsert at h
  split at h
  · cases h
  · rename_i t' stored
    split at h
    · rename_i fk
      cases h
      exact ⟨t',stored,fk,rfl⟩
    · cases h

/-- A handler's reply: the database it leaves behind, with every commit it has
    made, and what it returns or raises. -/
abbrev Reply (α : Type) := Db × Except Exc α

def raise {α : Type} (db : Db) (e : Exc) : Reply α := (db,.error e)
def done {α : Type} (db : Db) (a : α) : Reply α := (db,.ok a)

def binding {α : Type} (db : Db) (s : Text) (handler : Reply α) : Reply α :=
  if bindable s then handler else raise db (.database .dataError)

theorem Db.hasUser_iff {db : Db} {id : Uuid} :
    db.hasUser id = true ↔ ∃ r ∈ db.users, r.id = id := by
  simp [Db.hasUser, List.any_eq_true, Table.mem_def]

theorem Db.hasNode_iff {db : Db} {n : Text} :
    db.hasNode n = true ↔ ∃ r ∈ db.nodes, r.nodeId = n := by
  simp [Db.hasNode, List.any_eq_true, Table.mem_def]

theorem Db.hasNode_varchar {db : Db} {n : Text} (present : db.hasNode n = true) :
    varchar 64 n = true := by
  obtain ⟨r,stored,named⟩ := Db.hasNode_iff.mp present
  rw [← named]
  exact Table.holds_of_mem stored

end RainmakerServer
