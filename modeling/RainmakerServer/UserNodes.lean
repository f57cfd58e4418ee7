import RainmakerServer.Deployment
import RainmakerServer.Mqtt.Router
import RainmakerServer.Services.Accounts
import RainmakerServer.Services.Fleet
import RainmakerServer.Services.Tsdata

/-!
The routes by which a user reads a node and sends it parameters. Each route
about one node asks for access before it reads anything, and the list of nodes
is the list of those with access. So a user without access to a node sees and
sends the same whatever that node's data is.
-/
namespace RainmakerServer.UserNodes
open Tables Access Fleet Mqtt Tsdata

/-! Routes. -/

structure Publication where
  topic : Text
  payload : JsonObject
  qos : Nat := 1
  retain : Bool := false

def publishNodeTopic (nodeId suffix : Text) (payload : JsonObject) : Publication where
  topic := Topics.nodeTopic nodeId suffix
  payload := payload

structure NodeDetail where
  id : Text
  type : Option Text
  fwVersion : Option Text
  model : Option Text
  online : Bool
  tags : List Text

inductive Response where
  | nodes (nodes : List Text) (total : Nat) (nodeDetails : Option (List NodeDetail))
  | config (fields : JsonObject)
  | connectivity (nodeId : Text) (connected : Bool) (timestamp : Option Time)
  | params (fields : JsonObject)
  | success (description : Text)
  | records (nodeId param : Text) (records : List Record)
  | otaStatus (status : OtaStatus)
  | noOta (nodeId : Text)

structure Outcome where
  reply : Except Exc Response
  published : List Publication

def readNode (db : Db) (nodeId : Text) : Option Node :=
  db.nodes.rows.find? fun r => r.nodeId == nodeId

def nodeDetail (db : Db) (nodeId : Text) : Option NodeDetail :=
  (readNode db nodeId).map fun node =>
    ⟨nodeId,node.nodeType,node.fwVersion,node.model,node.online,node.tags⟩

def listUserNodes (db : Db) (userId : Uuid) (nodeDetails : Bool) : Except Exc Response :=
  let nodeIds := accessibleNodeIds db userId
  .ok (.nodes nodeIds nodeIds.length
    (if nodeDetails then some (nodeIds.filterMap (nodeDetail db)) else none))

def orNull : Option Text → Json
  | none => .null
  | some s => .str s

def getUserNodeConfig (db : Db) (userId : Uuid) (nodeId : Text) : Except Exc Response :=
  (requireAccess db userId nodeId).bind fun _ => match Nodes.readConfig db nodeId with
    | none => .ok (.config [("node_id",.str nodeId),("config_version",.null),("payload",.obj [])])
    | some cfg => .ok (.config (Dict.update
        [("node_id",.str nodeId),("config_version",orNull cfg.configVersion)] cfg.payload))

def getUserNodeStatus (db : Db) (userId : Uuid) (nodeId : Text) : Except Exc Response :=
  (requireAccess db userId nodeId).bind fun _ => match readNode db nodeId with
    | none => .error (.rainmakerError 404 ErrorCode.nodesDoNotExist "Node not found")
    | some node => .ok (.connectivity nodeId node.online node.lastSeenAt)

def getUserNodeParams (db : Db) (userId : Uuid) (nodeId : Text) : Except Exc Response :=
  (requireAccess db userId nodeId).bind fun _ => match Nodes.readShadow db nodeId with
    | none => .ok (.params [])
    | some shadow => .ok (.params shadow.payload)

def putUserNodeParams (db : Db) (userId : Uuid) (nodeId : Text) (payload : JsonObject) : Outcome :=
  match requireAccess db userId nodeId with
  | .error e => ⟨.error e,[]⟩
  | .ok _ => ⟨.ok (.success "Params published"),
      [publishNodeTopic nodeId Topics.paramsRemote payload]⟩

def timestamp (pf : Platform) (seconds : Int) : Except QueryExc Int :=
  match Nodes.fromTimestamp seconds with
  | .ok ts => .ok ts
  | .error .valueError => .error (.valueError (pf.fromTimestampText seconds))
  | .error e => .error (.other e)

abbrev NumRecords := {k : Int // k ≤ 200}

def readRecords (pf : Platform) (ts : Timescale) (db : Db) (nodeId param : Text)
    (startTime endTime : Int) (aggregate aggregateInterval : Option Text)
    (numRecords : NumRecords) : Except QueryExc (List Record) :=
  (timestamp pf startTime).bind fun first => (timestamp pf endTime).bind fun last =>
    queryTsdata pf ts db.tsdata ⟨nodeId,param,first,last,aggregate,aggregateInterval,numRecords⟩

def getTsdata (pf : Platform) (ts : Timescale) (db : Db) (userId : Uuid) (nodeId param : Text)
    (startTime endTime : Int) (aggregate aggregateInterval : Option Text)
    (numRecords : NumRecords) : Except Exc Response :=
  (requireAccess db userId nodeId).bind fun _ =>
    match readRecords pf ts db nodeId param startTime endTime aggregate aggregateInterval
        numRecords with
    | .ok records => .ok (.records nodeId param records)
    | .error (.valueError text) => .error (invalidRequest text)
    | .error (.other e) => .error e

def getSimpleTsdata (pf : Platform) (ts : Timescale) (db : Db) (userId : Uuid)
    (nodeId param : Text) (startTime endTime : Int) (numRecords : NumRecords) :
    Except Exc Response :=
  getTsdata pf ts db userId nodeId param startTime endTime none none numRecords

def userOtaStatus (pf : Platform) (db : Db) (userId : Uuid) (nodeId : Text) : Except Exc Response :=
  (requireAccess db userId nodeId).bind fun _ => match getStatusForNode pf db nodeId with
    | .error e => .error e
    | .ok none => .ok (.noOta nodeId)
    | .ok (some status) => .ok (.otaStatus status)

inductive Request where
  | listUserNodes (nodeDetails : Bool)
  | getUserNodeConfig (nodeId : Text)
  | getUserNodeStatus (nodeId : Text)
  | getUserNodeParams (nodeId : Text)
  | putUserNodeParams (nodeId : Text) (payload : JsonObject)
  | getTsdata (nodeId param : Text) (startTime endTime : Int)
      (aggregate aggregateInterval : Option Text) (numRecords : NumRecords)
  | getSimpleTsdata (nodeId param : Text) (startTime endTime : Int) (numRecords : NumRecords)
  | userOtaStatus (nodeId : Text)

def answer (pf : Platform) (ts : Timescale) (db : Db) (userId : Uuid) : Request → Outcome
  | .listUserNodes nodeDetails => ⟨listUserNodes db userId nodeDetails,[]⟩
  | .getUserNodeConfig nodeId => ⟨getUserNodeConfig db userId nodeId,[]⟩
  | .getUserNodeStatus nodeId => ⟨getUserNodeStatus db userId nodeId,[]⟩
  | .getUserNodeParams nodeId => ⟨getUserNodeParams db userId nodeId,[]⟩
  | .putUserNodeParams nodeId payload => putUserNodeParams db userId nodeId payload
  | .getTsdata nodeId param startTime endTime aggregate interval numRecords =>
    ⟨getTsdata pf ts db userId nodeId param startTime endTime aggregate interval numRecords,[]⟩
  | .getSimpleTsdata nodeId param startTime endTime numRecords =>
    ⟨getSimpleTsdata pf ts db userId nodeId param startTime endTime numRecords,[]⟩
  | .userOtaStatus nodeId => ⟨userOtaStatus pf db userId nodeId,[]⟩

/-- `ORJSONResponse` on the result of a route. Only documents of a device can be
    more than it renders; its error is a `TypeError`. -/
def render : Response → Except Exc Response
  | .config fields => if Json.renderedObject fields then .ok (.config fields) else .error .typeError
  | .params fields => if Json.renderedObject fields then .ok (.params fields) else .error .typeError
  | response => .ok response

def serve (pf : Platform) (ts : Timescale) (db : Db) (u : Uuid) (request : Request) : Outcome :=
  match Accounts.currentUser db u with
  | .error e => ⟨.error e,[]⟩
  | .ok user =>
    let outcome := answer pf ts db user.id request
    {outcome with reply := outcome.reply.bind render}

/-! Two states that differ in one node. -/

/-- Everything but the data of node `n` is the same. -/
structure DifferAt (n : Text) (db db' : Db) : Prop where
  frame : ∃ nodes configs shadows points targets, db' = {db with
    nodes := nodes, nodeConfigs := configs, nodeParamsShadow := shadows, tsdata := points,
    otaJobNodes := targets}
  nodes : db'.nodes.rows.filter (·.nodeId != n) = db.nodes.rows.filter (·.nodeId != n)
  configs : db'.nodeConfigs.rows.filter (·.nodeId != n) =
    db.nodeConfigs.rows.filter (·.nodeId != n)
  shadows : db'.nodeParamsShadow.rows.filter (·.nodeId != n) =
    db.nodeParamsShadow.rows.filter (·.nodeId != n)
  points : db'.tsdata.filter (·.nodeId != n) = db.tsdata.filter (·.nodeId != n)
  targets : db'.otaJobNodes.rows.filter (·.nodeId != n) =
    db.otaJobNodes.rows.filter (·.nodeId != n)

section
variable {n m : Text} {db db' : Db} {u : Uuid}

theorem other_node {x : Text} (other : m ≠ n) (hit : (x == m) = true) : (x != n) = true := by
  rw [beq_iff_eq] at hit
  rw [hit,bne_iff_ne]
  exact other

theorem current_user_same (differ : DifferAt n db db') :
    Accounts.currentUser db' u = Accounts.currentUser db u := by
  obtain ⟨_,_,_,_,_,eq⟩ := differ.frame
  rw [eq]
  rfl

theorem require_access_same (differ : DifferAt n db db') :
    requireAccess db' u m = requireAccess db u m := by
  obtain ⟨_,_,_,_,_,eq⟩ := differ.frame
  rw [eq]
  rfl

theorem accessible_same (differ : DifferAt n db db') :
    accessibleNodeIds db' u = accessibleNodeIds db u := by
  obtain ⟨_,_,_,_,_,eq⟩ := differ.frame
  rw [eq]
  rfl

theorem read_node_same (differ : DifferAt n db db') (other : m ≠ n) :
    readNode db' m = readNode db m :=
  find_narrow differ.nodes fun _ hit => other_node other hit

theorem read_config_same (differ : DifferAt n db db') (other : m ≠ n) :
    Nodes.readConfig db' m = Nodes.readConfig db m :=
  find_narrow differ.configs fun _ hit => other_node other hit

theorem read_shadow_same (differ : DifferAt n db db') (other : m ≠ n) :
    Nodes.readShadow db' m = Nodes.readShadow db m :=
  find_narrow differ.shadows fun _ hit => other_node other hit

theorem ota_status_same {pf : Platform} (differ : DifferAt n db db') (other : m ≠ n) :
    getStatusForNode pf db' m = getStatusForNode pf db m := by
  have targets : (db'.otaJobNodes.select fun r => r.nodeId == m) =
      db.otaJobNodes.select fun r => r.nodeId == m :=
    filter_narrow differ.targets fun _ hit => other_node other hit
  unfold getStatusForNode
  rw [targets]

theorem query_same {pf : Platform} {ts : Timescale} {q : Query} (differ : DifferAt n db db')
    (other : q.nodeId ≠ n) :
    queryTsdata pf ts db'.tsdata q = queryTsdata pf ts db.tsdata q := by
  have rows : ∀ deviceName paramName, (db'.tsdata.filter fun r => r.nodeId == q.nodeId &&
      r.deviceName == deviceName && r.paramName == paramName) = db.tsdata.filter fun r =>
        r.nodeId == q.nodeId && r.deviceName == deviceName && r.paramName == paramName := by
    intro deviceName paramName
    apply filter_narrow differ.points
    intro r hit
    rw [Bool.and_eq_true,Bool.and_eq_true] at hit
    exact other_node other hit.1.1
  simp only [queryTsdata, series, dataType, rows]

theorem denied_error (denied : hasAccess db u n = .ok false) :
    requireAccess db u n = .error (forbidden "Node not mapped to this user") := by
  simp only [requireAccess, denied]

theorem allowed_other (denied : hasAccess db u n = .ok false)
    (allowed : hasAccess db u m = .ok true) : m ≠ n := by
  intro same
  rw [same,denied] at allowed
  cases allowed

theorem guarded_same {body body' : Except Exc Response} (differ : DifferAt n db db')
    (denied : hasAccess db u n = .ok false) (reads : m ≠ n → body' = body) :
    ((requireAccess db' u m).bind fun _ => body') = (requireAccess db u m).bind fun _ => body := by
  rw [require_access_same differ]
  by_cases same : m = n
  · subst same
    rw [denied_error denied]
    rfl
  · rw [reads same]

theorem list_user_nodes_same {details : Bool} (differ : DifferAt n db db')
    (denied : hasAccess db u n = .ok false) :
    listUserNodes db' u details = listUserNodes db u details := by
  have described : (accessibleNodeIds db u).filterMap (nodeDetail db') =
      (accessibleNodeIds db u).filterMap (nodeDetail db) := by
    apply List.filterMap_congr
    intro m member
    have other : m ≠ n := allowed_other denied (mem_accessible_node_ids.mp member)
    unfold nodeDetail
    rw [read_node_same differ other]
  simp only [listUserNodes, accessible_same differ, described]

theorem put_params_same {payload : JsonObject} (differ : DifferAt n db db') :
    putUserNodeParams db' u m payload = putUserNodeParams db u m payload := by
  unfold putUserNodeParams
  rw [require_access_same differ]

theorem read_records_same {pf : Platform} {ts : Timescale} {param : Text} {startTime endTime : Int}
    {aggregate interval : Option Text} {numRecords : NumRecords} (differ : DifferAt n db db')
    (other : m ≠ n) :
    readRecords pf ts db' m param startTime endTime aggregate interval numRecords =
      readRecords pf ts db m param startTime endTime aggregate interval numRecords := by
  have queried : ∀ first last, queryTsdata pf ts db'.tsdata
      ⟨m,param,first,last,aggregate,interval,numRecords⟩ = queryTsdata pf ts db.tsdata
        ⟨m,param,first,last,aggregate,interval,numRecords⟩ :=
    fun first last => query_same differ other
  simp only [readRecords, queried]

theorem get_tsdata_same {pf : Platform} {ts : Timescale} {param : Text} {startTime endTime : Int}
    {aggregate interval : Option Text} {numRecords : NumRecords} (differ : DifferAt n db db')
    (denied : hasAccess db u n = .ok false) :
    getTsdata pf ts db' u m param startTime endTime aggregate interval numRecords =
      getTsdata pf ts db u m param startTime endTime aggregate interval numRecords := by
  apply guarded_same differ denied
  intro other
  rw [read_records_same differ other]

theorem answer_same {pf : Platform} {ts : Timescale} {request : Request}
    (differ : DifferAt n db db') (denied : hasAccess db u n = .ok false) :
    answer pf ts db' u request = answer pf ts db u request := by
  cases request with
  | listUserNodes details => simp only [answer, list_user_nodes_same differ denied]
  | getUserNodeConfig m =>
    have same : getUserNodeConfig db' u m = getUserNodeConfig db u m :=
      guarded_same differ denied fun other => by rw [read_config_same differ other]
    simp only [answer, same]
  | getUserNodeStatus m =>
    have same : getUserNodeStatus db' u m = getUserNodeStatus db u m :=
      guarded_same differ denied fun other => by rw [read_node_same differ other]
    simp only [answer, same]
  | getUserNodeParams m =>
    have same : getUserNodeParams db' u m = getUserNodeParams db u m :=
      guarded_same differ denied fun other => by rw [read_shadow_same differ other]
    simp only [answer, same]
  | putUserNodeParams m payload => exact put_params_same differ
  | getTsdata m param startTime endTime aggregate interval numRecords =>
    simp only [answer, get_tsdata_same differ denied]
  | getSimpleTsdata m param startTime endTime numRecords =>
    simp only [answer, getSimpleTsdata, get_tsdata_same differ denied]
  | userOtaStatus m =>
    have same : userOtaStatus pf db' u m = userOtaStatus pf db u m :=
      guarded_same differ denied fun other => by rw [ota_status_same differ other]
    simp only [answer, same]

theorem answer_publishes {pf : Platform} {ts : Timescale} {request : Request}
    {message : Publication} (sent : message ∈ (answer pf ts db u request).published) :
    ∃ m payload, request = .putUserNodeParams m payload ∧ hasAccess db u m = .ok true ∧
      message = publishNodeTopic m Topics.paramsRemote payload := by
  cases request with
  | putUserNodeParams m payload =>
    simp only [answer, putUserNodeParams] at sent
    split at sent
    · cases sent
    · rename_i granted
      refine ⟨m,payload,rfl,?_,List.mem_singleton.mp sent⟩
      unfold requireAccess at granted
      split at granted
      · cases granted
      · assumption
      · cases granted
  | _ => cases sent

end

theorem node_topic_injective {m n suffix : Text}
    (same : Topics.nodeTopic m suffix = Topics.nodeTopic n suffix) : m = n := by
  rw [node_topic_levels,node_topic_levels,List.append_cancel_left_eq,List.cons.injEq] at same
  exact List.append_cancel_right same.2

theorem node_topic_disjoint {m n a b : Text} (left : '/' ∉ m) (right : '/' ∉ n)
    (same : Topics.nodeTopic m a = Topics.nodeTopic n b) : m = n := by
  rw [node_topic_levels,node_topic_levels,List.append_cancel_left_eq,List.cons.injEq] at same
  have first : Split.cut '/' (m ++ '/' :: a) = some (m,a) := Split.cut_append left
  rw [same.2,Split.cut_append right] at first
  cases first
  rfl

/-- What a user without access to `n` is told and sends does not depend on the
    data of `n`. Nothing is sent to `n`: every message goes to the parameters of
    a node with access, and for identifiers without a slash none of the topics
    of `n` is used at all. -/
theorem no_access_no_leak (pf : Platform) (ts : Timescale) {db db' : Db} {u : Uuid} {n : Text}
    (differ : DifferAt n db db') (denied : hasAccess db u n = .ok false) (request : Request) :
    serve pf ts db' u request = serve pf ts db u request ∧
    ∀ message ∈ (serve pf ts db u request).published,
      message.topic ≠ Topics.nodeTopic n Topics.paramsRemote ∧
      ∃ m, m ≠ n ∧ hasAccess db u m = .ok true ∧
        message.topic = Topics.nodeTopic m Topics.paramsRemote ∧
        ('/' ∉ m → '/' ∉ n → ∀ suffix, message.topic ≠ Topics.nodeTopic n suffix) := by
  constructor
  · unfold serve
    rw [current_user_same differ]
    split
    · rfl
    · rename_i user authenticated
      obtain ⟨-,key,-⟩ := Accounts.current_user_ok authenticated
      rw [key,answer_same differ denied]
  · intro message sent
    unfold serve at sent
    split at sent
    · cases sent
    · rename_i user authenticated
      obtain ⟨-,key,-⟩ := Accounts.current_user_ok authenticated
      rw [key] at sent
      obtain ⟨m,payload,-,allowed,command⟩ := answer_publishes sent
      have topic : message.topic = Topics.nodeTopic m Topics.paramsRemote := by
        rw [command]
        rfl
      have other : m ≠ n := allowed_other denied allowed
      refine ⟨?_,m,other,allowed,topic,?_⟩
      · intro reached
        rw [topic] at reached
        exact other (node_topic_injective reached)
      · intro left right suffix reached
        rw [topic] at reached
        exact other (node_topic_disjoint left right reached)

/-! A stranger asks for a lamp, before and after the lamp reports. -/

def stranger : User := Deployment.account 7 "ana@example.com"

def silentLamp : Db where
  users := .one stranger
  nodes := .one {nodeId := "lamp"}

def lampTarget : OtaJobNode := {id := 5, jobId := 6, nodeId := "lamp", createdAt := 0}

def lampPoint : TsData :=
  {ts := 1700000000, nodeId := "lamp", deviceName := "Light", paramName := "power",
   dataType := "bool", valueBool := some true}

def reportingLamp : Db := {silentLamp with
  nodes := .one {nodeId := "lamp", fwVersion := some "1.1", online := true}
  nodeConfigs := .one ⟨"lamp",some "2",[("model",.str "lamp")]⟩
  nodeParamsShadow := .one ⟨"lamp",[("Light",.obj [("power",.bool true)])]⟩
  tsdata := [lampPoint]
  otaJobNodes := .one lampTarget}

theorem stranger_learns_nothing :
    serve Deployment.platform Deployment.timescale reportingLamp 7 (.getUserNodeParams "lamp") =
      serve Deployment.platform Deployment.timescale silentLamp 7 (.getUserNodeParams "lamp") := by
  have differ : DifferAt "lamp" silentLamp reportingLamp :=
    ⟨⟨_,_,_,_,_,rfl⟩,rfl,rfl,rfl,rfl,rfl⟩
  have denied : hasAccess silentLamp 7 "lamp" = .ok false := by decide
  exact (no_access_no_leak Deployment.platform Deployment.timescale differ denied
    (.getUserNodeParams "lamp")).1

end RainmakerServer.UserNodes
