import RainmakerServer.Api
import RainmakerServer.Lib.Levels
import RainmakerServer.UserStores

/-!
The routes that write, from the request on: which route a method and a path
reach, what the framework checks before it, what the route checks of the header,
the query and the body, and what it answers. The framework reads the body before
it authenticates and validates it afterwards.
-/
namespace RainmakerServer.Http
open Tables Accounts UserStores Mqtt

inductive Method where
  | get
  | post
  | put
  | delete
  deriving DecidableEq

inductive UserRoute where
  | changePassword
  | logout
  | deleteCurrentUser
  | putSharingRequest
  | revokeSharing
  | createGroup
  | deleteUserNodeGroup
  | createAutomation
  | updateAutomation
  | deleteAutomation
  | deleteUserNode
  | putUserNodeMapping
  | initiateMapping
  | verifyMapping
  | putCustomData
  deriving DecidableEq

inductive NodeRoute where
  | putNodeConfig
  | postNodeParamsLocal
  | postNodeOtastatus
  deriving DecidableEq

inductive OpenRoute where
  | login2
  | signup
  | confirmSignupOrUpdate
  | forgotPassword
  | claimInitiate
  | claimVerify
  deriving DecidableEq

inductive Endpoint where
  | user (route : UserRoute)
  | node (route : NodeRoute)
  | anyone (route : OpenRoute)
  /-- A route that only reads, one of the broker's hooks, or an administrator's. -/
  | elsewhere
  deriving DecidableEq

/-! Routing. -/

inductive Segment where
  | lit (s : Text)
  | param
  deriving DecidableEq

structure Route where
  method : Method
  pattern : List Segment
  endpoint : Endpoint
  deriving DecidableEq

def patternOf (path : Text) : List Segment :=
  (path.splitOn '/').map fun s => if s.head? = some '{' then .param else .lit s

def route (method : Method) (path : Text) (endpoint : Endpoint) : Route :=
  ⟨method,patternOf path,endpoint⟩

def healthRouter : List Route := [
  route .get "/healthz" .elsewhere,
  route .get "/readyz" .elsewhere]

def claimRouter : List Route := [
  route .post "/claim/initiate" (.anyone .claimInitiate),
  route .post "/claim/verify" (.anyone .claimVerify)]

def vmqAuthzRouter : List Route := [
  route .post "/auth/on_register" .elsewhere,
  route .post "/auth/on_publish" .elsewhere,
  route .post "/auth/on_subscribe" .elsewhere,
  route .post "/on_client_online" .elsewhere,
  route .post "/on_client_offline" .elsewhere]

def metaRouter : List Route := [
  route .get "/v1/apiversions" .elsewhere,
  route .get "/v1/mqtt_host" .elsewhere]

def authRouter : List Route := [
  route .post "/v1/login2" (.anyone .login2),
  route .post "/v1/user2" (.anyone .signup),
  route .put "/v1/user2" (.anyone .confirmSignupOrUpdate),
  route .put "/v1/password2" (.user .changePassword),
  route .put "/v1/forgotpassword2" (.anyone .forgotPassword),
  route .post "/v1/logout2" (.user .logout)]

def userRouter : List Route := [
  route .get "/v1/user2" .elsewhere,
  route .delete "/v1/user2" (.user .deleteCurrentUser)]

def sharingRouter : List Route := [
  route .put "/v1/user/nodes/sharing/requests" (.user .putSharingRequest),
  route .get "/v1/user/nodes/sharing" .elsewhere,
  route .delete "/v1/user/nodes/sharing" (.user .revokeSharing)]

def groupsRouter : List Route := [
  route .post "/v1/user/node_group" (.user .createGroup),
  route .get "/v1/user/node_group" .elsewhere,
  route .delete "/v1/user/node_group/{group_id}" (.user .deleteUserNodeGroup)]

def automationsRouter : List Route := [
  route .post "/v1/user/node_automation" (.user .createAutomation),
  route .get "/v1/user/node_automation" .elsewhere,
  route .put "/v1/user/node_automation" (.user .updateAutomation),
  route .delete "/v1/user/node_automation" (.user .deleteAutomation)]

def tsdataRouter : List Route := [
  route .get "/v1/user/nodes/tsdata" .elsewhere,
  route .get "/v1/user/nodes/simple_tsdata" .elsewhere]

def userNodesRouter : List Route := [
  route .get "/v1/user/nodes" .elsewhere,
  route .delete "/v1/user/nodes/{node_id}" (.user .deleteUserNode),
  route .get "/v1/user/nodes/config" .elsewhere,
  route .get "/v1/user/nodes/status" .elsewhere,
  route .get "/v1/user/nodes/params" .elsewhere,
  route .put "/v1/user/nodes/params" .elsewhere,
  route .put "/v1/user/nodes/mapping" (.user .putUserNodeMapping),
  route .get "/v1/user/nodes/mapping" .elsewhere,
  route .post "/v1/user/nodes/mapping/initiate" (.user .initiateMapping),
  route .post "/v1/user/nodes/mapping/verify" (.user .verifyMapping),
  route .get "/v1/user/custom_data" .elsewhere,
  route .put "/v1/user/custom_data" (.user .putCustomData)]

def nodeRouter : List Route := [
  route .put "/v1/node/config" (.node .putNodeConfig),
  route .put "/v1/node/params/local" (.node .postNodeParamsLocal),
  route .post "/v1/node/params/local" (.node .postNodeParamsLocal),
  route .get "/v1/node/otafetch" .elsewhere,
  route .post "/v1/node/otastatus" (.node .postNodeOtastatus)]

def otaRouters : List Route := [
  route .post "/v1/admin/otaimage/upload_request" .elsewhere,
  route .post "/v1/admin/otaimage/upload_confirm" .elsewhere,
  route .post "/v1/admin/otajob" .elsewhere,
  route .get "/v1/user/nodes/ota_status" .elsewhere]

/-- In the order of registration: the fixed paths of the sharing router stand
    before the parameter of `DELETE /user/nodes/{node_id}`. -/
def app : List Route :=
  healthRouter ++ claimRouter ++ vmqAuthzRouter ++ metaRouter ++ authRouter ++ userRouter ++
    sharingRouter ++ groupsRouter ++ automationsRouter ++ tsdataRouter ++ userNodesRouter ++
    nodeRouter ++ otaRouters

/-- The parameter of a path that matches, empty where the pattern has none. The
    end of a pattern also matches before a last line break. -/
def matchPath : List Segment → List Text → Option Text
  | [], [] => some []
  | [.lit s], [t] => if t = s ∨ t = s ++ ['\n'] then some [] else none
  | .lit s :: ps, t :: ts => if s = t then matchPath ps ts else none
  | .param :: ps, t :: ts => if t.isEmpty then none else (matchPath ps ts).map fun _ => t
  | _, _ => none

def resolve (method : Method) (path : Text) : Option (Endpoint × Text) :=
  app.findSome? fun r =>
    if r.method = method then (matchPath r.pattern (path.splitOn '/')).map fun t => (r.endpoint,t)
    else none

/-! Requests and answers. -/

/-- The path and the query are decoded. A body that is no JSON is `none`, one
    that is absent or not declared as JSON is null. -/
structure Incoming where
  method : Method
  path : Text
  query : List (Text × Text) := []
  authorization : Option Text := none
  sslClientCn : Option Text := none
  body : Option Json := some .null

/-- What the handlers draw at random. -/
structure Draws where
  id : Uuid
  ids : Nat → Uuid
  token16 : Text
  token32 : Text
  bytes : Bytes
  code : Fin 1000000
  salt : Text
  login : TokenDraw
  randbits : Nat

inductive Answer where
  | success (description : Text)
  | login (tokens : Tokens)
  | mappingRequested (requestId : Text)
  | challenge (requestId challenge : Text)
  | mappingStatus (requestId : Text) (requestStatus : MappingStatus)
  | sharingRequested (requestId : Text)
  | sharingResolved (requestStatus : RequestStatus)
  | selfClaim (authId challenge : Text)
  | assistedClaim (nodeId : Text)
  | certificate (issued : Claim.Issued)
  | stored (reply : StoreReply)

/-- No route, a failed validation (422), a route that is not modelled here, or
    what the route answers. -/
inductive Outcome where
  | unrouted
  | unprocessable
  | elsewhere
  | answered (reply : Except Exc Answer)

def returning {α β : Type} (reply : Reply α) (f : α → β) : Reply β := (reply.1,reply.2.map f)

def answer (reply : Reply Answer) : Db × Outcome := (reply.1,.answered reply.2)

/-! Validation of the bodies with a schema. -/

def within (lo : Nat) (hi : Option Nat) (s : Text) : Bool :=
  decide (lo ≤ s.length) && hi.all fun n => decide (s.length ≤ n)

def requiredText (key : Text) (lo : Nat) (hi : Option Nat) (payload : JsonObject) : Option Text :=
  match Dict.get? key payload with
  | some (.str s) => if within lo hi s then some s else none
  | _ => none

def optionalText (key : Text) (lo : Nat) (hi : Option Nat) (payload : JsonObject) :
    Option (Option Text) :=
  match field key .null payload with
  | .null => some none
  | .str s => if within lo hi s then some (some s) else none
  | _ => none

structure LoginRequest where
  userName : Option Text
  password : Option Text
  refreshtoken : Option Text
  otp : Option Text

def loginRequest (payload : JsonObject) : Option LoginRequest :=
  match optionalText "user_name" 0 none payload, optionalText "password" 0 none payload,
      optionalText "refreshtoken" 0 none payload, optionalText "otp" 0 none payload with
  | some userName, some password, some refreshtoken, some otp =>
    some ⟨userName,password,refreshtoken,otp⟩
  | _, _, _, _ => none

structure SignUpRequest where
  userName : Text
  password : Text

def signUpRequest (payload : JsonObject) : Option SignUpRequest :=
  match requiredText "user_name" 3 (some 254) payload,
      requiredText "password" 8 (some 128) payload with
  | some userName, some password => some ⟨userName,password⟩
  | _, _ => none

structure ConfirmSignUpRequest where
  userName : Text
  verificationCode : Text

def confirmSignUpRequest (payload : JsonObject) : Option ConfirmSignUpRequest :=
  match requiredText "user_name" 0 none payload,
      requiredText "verification_code" 4 (some 16) payload with
  | some userName, some code => some ⟨userName,code⟩
  | _, _ => none

structure PasswordChangeRequest where
  password : Text
  newpassword : Text

def passwordChangeRequest (payload : JsonObject) : Option PasswordChangeRequest :=
  match requiredText "password" 0 none payload,
      requiredText "newpassword" 8 (some 128) payload with
  | some password, some new => some ⟨password,new⟩
  | _, _ => none

structure ForgotPasswordRequest where
  userName : Text
  verificationCode : Option Text
  password : Option Text

def forgotPasswordRequest (payload : JsonObject) : Option ForgotPasswordRequest :=
  match requiredText "user_name" 0 none payload,
      optionalText "verification_code" 0 none payload,
      optionalText "password" 8 (some 128) payload with
  | some userName, some code, some password => some ⟨userName,code,password⟩
  | _, _, _ => none

/-! Open routes. -/

section
variable (pf : Platform) (db : Db) (now : Time) (d : Draws)

def login2 (payload : LoginRequest) : Reply Answer :=
  match Tsdata.given payload.refreshtoken, Tsdata.given payload.password with
  | some token, none =>
    (db,(loginRefresh pf db now d.login.accessJti d.login.idJti token).map .login)
  | _, password => match Tsdata.given payload.userName, password with
    | some userName, some password =>
      returning (loginPassword pf db now d.login userName password) .login
    | _, _ => raise db (invalidRequest "user_name and password required")

def signup (payload : SignUpRequest) : Reply Answer :=
  returning (Accounts.signup pf db now d.id d.salt (generateCode d.code) payload.userName
    payload.password) fun _ => .success "Confirmation code sent"

def confirmSignupOrUpdate (payload : JsonObject) : Reply Answer :=
  if (Dict.get? "verification_code".toList payload).isSome &&
      (Dict.get? "user_name".toList payload).isSome then
    match confirmSignUpRequest payload with
    | none => raise db (invalidRequest "Invalid confirm body")
    | some confirm => returning (confirmSignup db now confirm.userName confirm.verificationCode)
        fun _ => .success "User confirmed"
  else raise db (invalidRequest "Missing verification_code (use authed endpoint to update profile)")

def forgotPassword (payload : ForgotPasswordRequest) : Reply Answer :=
  match Tsdata.given payload.verificationCode, Tsdata.given payload.password with
  | some code, some password =>
    returning (confirmPasswordReset pf db now d.salt payload.userName code password)
      fun _ => .success "Password reset"
  | _, _ => returning (requestPasswordReset db now (generateCode d.code) payload.userName)
      fun _ => .success "Reset code sent"

def encode (s : Text) : Bytes := s.flatMap String.utf8EncodeChar

/-- A header decides between the assisted and the self claim. Values that are no
    text reach the lower-casing, or the columns. -/
def claimInitiate (authorization : Option Text) (payload : JsonObject) : Reply Answer :=
  let macAddr := field "mac_addr" .null payload
  let platform := field "platform" .null payload
  if macAddr.truthy = false ∨ platform.truthy = false then
    raise db (invalidRequest "mac_addr and platform required")
  else match Tsdata.given authorization with
  | some header => match resolveUserFromHeader pf db now header with
    | .error e => raise db e
    | .ok user => match macAddr, platform with
      | .str macAddr, .str platform =>
        returning (Claim.initiateAssistedClaim pf db now d.id user.id macAddr platform)
          .assistedClaim
      | .str _, _ => raise db (.database .dataError)
      | _, _ => raise db .attributeError
  | none => match macAddr, platform with
    | .str macAddr, .str platform =>
      returning (Claim.initiateSelfClaim pf db now d.id d.token16 d.bytes macAddr platform)
        fun reply => .selfClaim reply.1 reply.2
    | .str macAddr, _ => match scalarOneOrNone (db.deviceProvisioning.select fun r =>
          r.macAddr == macAddr) with
      | .error e => raise db (.database e)
      | .ok none => raise db
          (.rainmakerError 400 ErrorCode.invalidRequest "Device not registered for self-claim")
      | .ok (some _) => raise db (.database .dataError)
    | _, _ => raise db (.database .dataError)

def claimVerify (authorization : Option Text) (payload : JsonObject) : Reply Answer :=
  let csr := field "csr" .null payload
  if csr.truthy = false then raise db (invalidRequest "csr required")
  else match csr with
  | .str csr => match Tsdata.given authorization with
    | some header => match resolveUserFromHeader pf db now header with
      | .error e => raise db e
      | .ok user => returning (Claim.verifyAssistedClaim pf db now d.randbits user.id (encode csr))
          .certificate
    | none =>
      let authId := field "auth_id" .null payload
      let response := field "challenge_response" .null payload
      if authId.truthy = false ∨ response.truthy = false then
        raise db (invalidRequest "auth_id and challenge_response required for self-claim")
      else match authId, response with
      | .str authId, .str response =>
        returning (Claim.verifySelfClaim pf db now d.randbits authId response (encode csr))
          .certificate
      | .str authId, _ => match Claim.verifySelfClaimCheck pf db now authId [] with
        | .refuse e => raise db e
        | _ => raise db (invalidRequest "Invalid challenge_response encoding")
      | _, _ => raise db (.database .dataError)
  | _ => raise db .attributeError

/-- The schema of the body is checked before the route runs. -/
def handleOpen (request : Incoming) : OpenRoute → Db × Outcome
  | .login2 => match request.body with
    | some (.obj payload) => match loginRequest payload with
      | some login => answer (login2 pf db now d login)
      | none => (db,.unprocessable)
    | _ => (db,.unprocessable)
  | .signup => match request.body with
    | some (.obj payload) => match signUpRequest payload with
      | some account => answer (signup pf db now d account)
      | none => (db,.unprocessable)
    | _ => (db,.unprocessable)
  | .confirmSignupOrUpdate => match request.body with
    | some (.obj payload) => answer (confirmSignupOrUpdate db now payload)
    | _ => (db,.unprocessable)
  | .forgotPassword => match request.body with
    | some (.obj payload) => match forgotPasswordRequest payload with
      | some forgot => answer (forgotPassword pf db now d forgot)
      | none => (db,.unprocessable)
    | _ => (db,.unprocessable)
  | .claimInitiate => match request.body with
    | some (.obj payload) => answer (claimInitiate pf db now d request.authorization payload)
    | _ => (db,.unprocessable)
  | .claimVerify => match request.body with
    | some (.obj payload) => answer (claimVerify pf db now d request.authorization payload)
    | _ => (db,.unprocessable)

end

/-! Routes of a user. -/

section
variable (pf : Platform) (db : Db) (now : Time) (d : Draws) (user : User)

def changePassword (payload : PasswordChangeRequest) : Reply Answer :=
  returning (Accounts.changePassword pf db d.salt user payload.password payload.newpassword)
    fun _ => .success "Password changed"

def logout : Reply Answer := done (Accounts.logout db now user.id) (.success "Logged out")

def deleteCurrentUser : Reply Answer :=
  done (Accounts.deleteCurrentUser db user.id) (.success "User deleted")

def textPrefix : List Json → List Text × Option Json
  | [] => ([],none)
  | .str s :: rest => (s :: (textPrefix rest).1,(textPrefix rest).2)
  | v :: _ => ([],some v)

/-- `create_request` on what the body holds: the nodes are checked in turn, and
    a null is compared like any other value. -/
def offerNodes (items : List Json) (userName : Json) : Reply Answer :=
  match textPrefix items, userName with
  | (nodes,none), .str userName =>
    returning (Access.createRequest db now d.ids user.id nodes userName)
      fun id => .sharingRequested (pf.uuidStr id)
  | (nodes,stop), _ => match Access.checkOwner db user.id nodes with
    | .error e => raise db e
    | .ok _ => match stop with
      | some .null => raise db (.rainmakerError 403 100070 "Not owner of node None")
      | _ => raise db (.database .dataError)

def putSharingRequest (payload : JsonObject) : Reply Answer :=
  match Dict.get? "request_id".toList payload with
  | some v => match uuidOf pf v with
    | .error .attributeError => raise db .attributeError
    | .error _ => raise db (invalidRequest "invalid request_id")
    | .ok requestId => returning (Access.acceptOrDecline db now d.id user.id user.userName requestId
        (field "accept" (.bool true) payload).truthy) .sharingResolved
  | none =>
    let nodes := field "nodes" .null payload
    let userName := field "user_name" .null payload
    if nodes.truthy = false ∨ userName.truthy = false then
      raise db (invalidRequest "nodes and user_name required")
    else match iterate nodes with
    | .error e => raise db e
    | .ok items => offerNodes pf db now d user items userName

def revokeSharing (nodes userName : Text) : Reply Answer :=
  returning (Access.revokeShare db user.id (Api.nodeList nodes) userName)
    fun _ => .success "Sharing revoked"

def deleteUserNode (nodeId : Text) : Reply Answer :=
  returning (Access.deleteUserNode db user.id nodeId) fun _ => .success "Node unmapped"

/-- A null is left out of the insert, where the column has its default. -/
def operationOf : Json → Option Text
  | .null => some "add"
  | .str s => some s
  | _ => none

def putUserNodeMapping (payload : JsonObject) : Reply Answer :=
  let nodeId := field "node_id" .null payload
  let secretKey := field "secret_key" .null payload
  if nodeId.truthy = false ∨ secretKey.truthy = false then
    raise db (invalidRequest "node_id and secret_key required")
  else match nodeId, secretKey, operationOf (field "operation" (.str "add") payload) with
  | .str nodeId, .str secretKey, some operation =>
    returning (Access.requestLegacyMapping db now d.id d.token16 user.id nodeId secretKey operation)
      .mappingRequested
  | _, _, _ => raise db (.database .dataError)

def initiateMapping (payload : JsonObject) : Reply Answer :=
  let nodeId := field "node_id" .null payload
  if nodeId.truthy = false then raise db (invalidRequest "node_id required")
  else match nodeId with
  | .str nodeId =>
    returning (Access.initiateChallenge db now d.id d.token16 d.token32 user.id nodeId)
      fun reply => .challenge reply.1 reply.2
  | _ => raise db (.database .dataError)

/-- A response that is no text fails in the comparison, once it is reached. -/
def verifyMapping (payload : JsonObject) : Reply Answer :=
  let requestId := field "request_id" .null payload
  let response := field "challenge_response" .null payload
  if requestId.truthy = false ∨ response.truthy = false then
    raise db (invalidRequest "request_id and challenge_response required")
  else match requestId, response with
  | .str requestId, .str response =>
    returning (Access.verifyChallenge db now d.id user.id requestId response)
      fun reply => .mappingStatus reply.1 reply.2
  | .str requestId, _ => match Access.verifyChallengeCheck db now user.id requestId [] with
    | .error e => raise db (if e = invalidRequest "Invalid challenge_response" then .typeError else e)
    | .ok _ => raise db .typeError
  | _, _ => raise db (.database .dataError)

def ofStore (reply : Reply StoreReply) : Db × Outcome := answer (returning reply .stored)

def withObject (body : Option Json) (handler : JsonObject → Db × Outcome) : Db × Outcome :=
  match body with
  | some (.obj payload) => handler payload
  | _ => (db,.unprocessable)

def handleUser (request : Incoming) (parameter : Text) : UserRoute → Db × Outcome
  | .changePassword => withObject db request.body fun payload =>
    match passwordChangeRequest payload with
    | some change => answer (changePassword pf db d user change)
    | none => (db,.unprocessable)
  | .logout => answer (logout db now user)
  | .deleteCurrentUser => answer (deleteCurrentUser db user)
  | .putSharingRequest => withObject db request.body fun payload =>
    answer (putSharingRequest pf db now d user payload)
  | .revokeSharing =>
    match Dict.get? "nodes".toList request.query, Dict.get? "user_name".toList request.query with
    | some nodes, some userName => answer (revokeSharing db user nodes userName)
    | _, _ => (db,.unprocessable)
  | .createGroup => withObject db request.body fun payload =>
    ofStore (UserStores.createGroup pf db user d.id d.ids payload)
  | .deleteUserNodeGroup => ofStore (UserStores.deleteUserNodeGroup pf db user parameter)
  | .createAutomation => withObject db request.body fun payload =>
    ofStore (UserStores.createAutomation pf db user d.id payload)
  | .updateAutomation => withObject db request.body fun payload =>
    ofStore (UserStores.updateAutomation pf db user payload)
  | .deleteAutomation => match Dict.get? "automation_id".toList request.query with
    | some automationId => ofStore (UserStores.deleteAutomation pf db user automationId)
    | none => (db,.unprocessable)
  | .deleteUserNode => answer (deleteUserNode db user parameter)
  | .putUserNodeMapping => withObject db request.body fun payload =>
    answer (putUserNodeMapping db now d user payload)
  | .initiateMapping => withObject db request.body fun payload =>
    answer (initiateMapping db now d user payload)
  | .verifyMapping => withObject db request.body fun payload =>
    answer (verifyMapping db now d user payload)
  | .putCustomData => withObject db request.body fun payload =>
    ofStore (UserStores.serveStore pf db user (.putCustomData payload))

end

/-! Routes of a node. -/

section
variable (pf : Platform) (db : Db) (now : Time) (node : Node)

def postNodeOtastatus (payload : JsonObject) : Reply Answer :=
  let jobId := field "ota_job_id" .null payload
  let status := field "status" .null payload
  if jobId.truthy = false ∨ status.truthy = false then
    raise db (invalidRequest "ota_job_id and status required")
  else match jobId, status, Fleet.columnText (field "additional_info" .null payload) with
  | .str jobId, .str status, .ok info =>
    returning (Fleet.updateStatus pf db now node.nodeId jobId status info)
      fun _ => .success "OTA status recorded"
  | .str jobId, _, _ => match (Fleet.updateStatus pf db now node.nodeId jobId [] none).2 with
    | .error e => raise db e
    | .ok _ => raise db (.database .dataError)
  | _, _, _ => raise db .attributeError

def handleNode (body : Option Json) : NodeRoute → Db × Outcome
  | .putNodeConfig => withObject db body fun payload =>
    answer (returning (commitLast db (Nodes.upsertNodeConfig db node.nodeId payload))
      fun _ => .success "Config stored")
  | .postNodeParamsLocal => withObject db body fun payload =>
    answer (returning (commitLast db (Nodes.upsertParamsShadow db node.nodeId payload))
      fun _ => .success "Params merged")
  | .postNodeOtastatus => withObject db body fun payload =>
    answer (postNodeOtastatus pf db now node payload)

end

/-! The application. -/

/-- A route without a body never looks at one. -/
def readsBody : UserRoute → Bool
  | .logout => false
  | .deleteCurrentUser => false
  | .revokeSharing => false
  | .deleteUserNodeGroup => false
  | .deleteAutomation => false
  | .deleteUserNode => false
  | _ => true

def serve (pf : Platform) (db : Db) (now : Time) (d : Draws) (request : Incoming) : Db × Outcome :=
  match resolve request.method request.path with
  | none => (db,.unrouted)
  | some (.elsewhere,_) => (db,.elsewhere)
  | some (.anyone route,_) => handleOpen pf db now d request route
  | some (.user route,parameter) =>
    if request.body.isNone && readsBody route then (db,.unprocessable)
    else match getCurrentUser pf db now request.authorization with
    | .error e => (db,.answered (.error e))
    | .ok user => handleUser pf db now d user request parameter route
  | some (.node route,_) =>
    if request.body.isNone then (db,.unprocessable)
    else match Claim.getNodeFromMtls db request.sslClientCn with
    | .error e => (db,.answered (.error e))
    | .ok node => handleNode pf db now node request.body route

end RainmakerServer.Http
