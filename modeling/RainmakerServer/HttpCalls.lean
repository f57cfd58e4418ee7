import RainmakerServer.Http
import RainmakerServer.Lib.Refinement

/-!
Requests read as calls. A request changes nothing or is one call of the server,
which its path names, its query and body spell out and, where the call needs one,
its header or certificate authenticates. So a run of requests, with what comes
from inside the cluster in between, is a run of calls, and what is known of every
run of calls holds of it.
-/
namespace RainmakerServer.HttpCalls
open Tables Runs Accounts Http Mqtt Refinement

inductive Internal where
  | tick (elapsed : Nat)
  | dispatch (mappingId : Uuid) (topic : Text) (payload : Bytes)
  | onClientOnline (clientId username : Option Text)
  | onClientOffline (clientId username : Option Text)
  | revokeCertificate (serial : Text)
  | admin (id : Uuid) (request : AdminRequest)

def Internal.call : Internal → Call
  | .tick elapsed => .tick elapsed
  | .dispatch mappingId topic payload => .dispatch mappingId topic payload
  | .onClientOnline clientId username => .onClientOnline clientId username
  | .onClientOffline clientId username => .onClientOffline clientId username
  | .revokeCertificate serial => .revokeCertificate serial
  | .admin id request => .admin id request

inductive Event where
  | request (d : Draws) (r : Incoming)
  | internal (c : Internal)

def step (pf : Platform) (w : World) : Event → World
  | .request d r => {w with db := (serve pf w.db w.now d r).1}
  | .internal c => Api.step pf w c.call

/-- What a route behind `get_current_user` asks for, as the path, the query and
    the body of the request give it. -/
inductive Asks (pf : Platform) (d : Draws) (r : Incoming) (parameter : Text) :
    UserRoute → UserRequest → Prop where
  | changePassword {payload : JsonObject} {change : PasswordChangeRequest}
      (body : r.body = some (.obj payload)) (valid : passwordChangeRequest payload = some change) :
      Asks pf d r parameter .changePassword
        (.changePassword d.salt change.password change.newpassword)
  | logout : Asks pf d r parameter .logout .logout
  | deleteCurrentUser : Asks pf d r parameter .deleteCurrentUser .deleteCurrentUser
  | resolve {payload : JsonObject} {v : Json} {requestId : Uuid}
      (body : r.body = some (.obj payload))
      (present : Dict.get? "request_id".toList payload = some v)
      (parsed : UserStores.uuidOf pf v = .ok requestId) :
      Asks pf d r parameter .putSharingRequest
        (.resolveSharingRequest d.id requestId (field "accept" (.bool true) payload).truthy)
  | offer {payload : JsonObject} {items : List Json} {nodes : List Text} {userName : Text}
      (body : r.body = some (.obj payload))
      (absent : Dict.get? "request_id".toList payload = none)
      (listed : iterate (field "nodes" .null payload) = .ok items)
      (texts : textPrefix items = (nodes,none))
      (named : field "user_name" .null payload = .str userName) :
      Asks pf d r parameter .putSharingRequest (.createSharingRequest d.ids nodes userName)
  | revoke {nodes userName : Text} (listed : Dict.get? "nodes".toList r.query = some nodes)
      (named : Dict.get? "user_name".toList r.query = some userName) :
      Asks pf d r parameter .revokeSharing (.revokeSharing nodes userName)
  | createGroup {payload : JsonObject} {parent : Option Uuid} {name : Text} {type : Option Text}
      {nodes : List Text} (body : r.body = some (.obj payload))
      (below : UserStores.parentOf pf (field "parent_group_id" .null payload) = .ok parent)
      (named : Fleet.columnText (field "group_name" .null payload) = .ok (some name))
      (typed : Fleet.columnText (field "type" .null payload) = .ok type)
      (members : UserStores.membersOf (field "nodes" .null payload) = .ok nodes) :
      Asks pf d r parameter .createGroup (.createGroup d.id d.ids name parent type
        (field "mutually_exclusive" (.bool false) payload).truthy nodes
        (field "metadata" .null payload))
  | deleteGroup {groupId : Uuid} (parsed : pf.parseUuid parameter = some groupId) :
      Asks pf d r parameter .deleteUserNodeGroup (.deleteGroup groupId)
  | createAutomation {payload : JsonObject} (body : r.body = some (.obj payload)) :
      Asks pf d r parameter .createAutomation (.createAutomation d.id (field "name" .null payload)
        (field "events" .null payload) (field "actions" .null payload)
        (field "event_operator" (.str "and") payload) (field "metadata" .null payload))
  | updateAutomation {payload : JsonObject} {automationId : Uuid}
      (body : r.body = some (.obj payload))
      (addressed : UserStores.automationIdOf pf payload = .ok automationId) :
      Asks pf d r parameter .updateAutomation (.updateAutomation automationId payload)
  | deleteAutomation {text : Text} {automationId : Uuid}
      (addressed : Dict.get? "automation_id".toList r.query = some text)
      (parsed : pf.parseUuid text = some automationId) :
      Asks pf d r parameter .deleteAutomation (.deleteAutomation automationId)
  | deleteUserNode : Asks pf d r parameter .deleteUserNode (.deleteUserNode parameter)
  | putUserNodeMapping {payload : JsonObject} {nodeId secretKey operation : Text}
      (body : r.body = some (.obj payload)) (node : field "node_id" .null payload = .str nodeId)
      (secret : field "secret_key" .null payload = .str secretKey)
      (operated : operationOf (field "operation" (.str "add") payload) = some operation) :
      Asks pf d r parameter .putUserNodeMapping
        (.putUserNodeMapping d.id d.token16 nodeId secretKey operation)
  | initiateMapping {payload : JsonObject} {nodeId : Text} (body : r.body = some (.obj payload))
      (node : field "node_id" .null payload = .str nodeId) :
      Asks pf d r parameter .initiateMapping (.initiateMapping d.id d.token16 d.token32 nodeId)
  | verifyMapping {payload : JsonObject} {requestId response : Text}
      (body : r.body = some (.obj payload))
      (request : field "request_id" .null payload = .str requestId)
      (answered : field "challenge_response" .null payload = .str response) :
      Asks pf d r parameter .verifyMapping (.verifyMapping d.id requestId response)
  | putCustomData {payload : JsonObject} (body : r.body = some (.obj payload)) :
      Asks pf d r parameter .putCustomData (.putCustomData payload)

/-- What an open route asks for with the body `payload`. A claim with a header is
    an assisted one. -/
inductive Opens (d : Draws) (authorization : Option Text) (payload : JsonObject) :
    OpenRoute → Call → Prop where
  | login {login : LoginRequest} {userName password : Text}
      (valid : loginRequest payload = some login) (named : login.userName = some userName)
      (known : login.password = some password) :
      Opens d authorization payload .login2 (.login d.login userName password)
  | signup {account : SignUpRequest} (valid : signUpRequest payload = some account) :
      Opens d authorization payload .signup
        (.signup d.id d.salt (generateCode d.code) account.userName account.password)
  | confirm {confirm : ConfirmSignUpRequest} (valid : confirmSignUpRequest payload = some confirm) :
      Opens d authorization payload .confirmSignupOrUpdate
        (.confirmSignup confirm.userName confirm.verificationCode)
  | forgot {forgot : ForgotPasswordRequest} (valid : forgotPasswordRequest payload = some forgot)
      (incomplete : Tsdata.given forgot.verificationCode = none ∨
        Tsdata.given forgot.password = none) :
      Opens d authorization payload .forgotPassword
        (.forgotPassword (generateCode d.code) forgot.userName)
  | reset {forgot : ForgotPasswordRequest} {code password : Text}
      (valid : forgotPasswordRequest payload = some forgot)
      (coded : forgot.verificationCode = some code) (known : forgot.password = some password) :
      Opens d authorization payload .forgotPassword
        (.resetPassword d.salt forgot.userName code password)
  | initiateClaim {macAddr platform : Text} (headless : Tsdata.given authorization = none)
      (mac : field "mac_addr" .null payload = .str macAddr)
      (kind : field "platform" .null payload = .str platform) :
      Opens d authorization payload .claimInitiate
        (.initiateSelfClaim d.id d.token16 d.bytes macAddr platform)
  | verifyClaim {authId response csr : Text} (headless : Tsdata.given authorization = none)
      (addressed : field "auth_id" .null payload = .str authId)
      (responded : field "challenge_response" .null payload = .str response)
      (signed : field "csr" .null payload = .str csr) :
      Opens d authorization payload .claimVerify
        (.verifySelfClaim d.randbits authId response (encode csr))

inductive Assists (d : Draws) (payload : JsonObject) : OpenRoute → UserRequest → Prop where
  | initiate {macAddr platform : Text} (mac : field "mac_addr" .null payload = .str macAddr)
      (kind : field "platform" .null payload = .str platform) :
      Assists d payload .claimInitiate (.initiateAssistedClaim d.id macAddr platform)
  | verify {csr : Text} (signed : field "csr" .null payload = .str csr) :
      Assists d payload .claimVerify (.verifyAssistedClaim d.randbits (encode csr))

inductive Reports (payload : JsonObject) : NodeRoute → NodeRequest → Prop where
  | config : Reports payload .putNodeConfig (.putNodeConfig payload)
  | params : Reports payload .postNodeParamsLocal (.postNodeParamsLocal payload)
  | status {jobId status : Text} {info : Option Text}
      (job : field "ota_job_id" .null payload = .str jobId)
      (reported : field "status" .null payload = .str status)
      (informed : Fleet.columnText (field "additional_info" .null payload) = .ok info) :
      Reports payload .postNodeOtastatus (.postNodeOtastatus jobId status info)

/-- Why an event may make a call in the state `w`. -/
inductive Vouches (pf : Platform) (w : World) : Event → Call → Prop where
  | internal {c : Internal} : Vouches pf w (.internal c) c.call
  | anyone {d : Draws} {r : Incoming} {route : OpenRoute} {parameter : Text} {payload : JsonObject}
      {c : Call} (routed : resolve r.method r.path = some (.anyone route,parameter))
      (body : r.body = some (.obj payload)) (opens : Opens d r.authorization payload route c) :
      Vouches pf w (.request d r) c
  | user {d : Draws} {r : Incoming} {route : UserRoute} {parameter : Text} {user : User}
      {request : UserRequest} (routed : resolve r.method r.path = some (.user route,parameter))
      (auth : getCurrentUser pf w.db w.now r.authorization = .ok user)
      (asked : Asks pf d r parameter route request) :
      Vouches pf w (.request d r) (.user user.id request)
  | assisted {d : Draws} {r : Incoming} {route : OpenRoute} {parameter header : Text} {user : User}
      {payload : JsonObject} {request : UserRequest}
      (routed : resolve r.method r.path = some (.anyone route,parameter))
      (body : r.body = some (.obj payload)) (given : r.authorization = some header)
      (auth : resolveUserFromHeader pf w.db w.now header = .ok user)
      (assists : Assists d payload route request) :
      Vouches pf w (.request d r) (.user user.id request)
  | node {d : Draws} {r : Incoming} {route : NodeRoute} {parameter : Text} {node : Node}
      {payload : JsonObject} {request : NodeRequest}
      (routed : resolve r.method r.path = some (.node route,parameter))
      (certified : Claim.getNodeFromMtls w.db r.sslClientCn = .ok node)
      (body : r.body = some (.obj payload)) (reports : Reports payload route request) :
      Vouches pf w (.request d r) (.node r.sslClientCn request)

/-! Each route. -/

section
variable {pf : Platform} {db : Db} {now : Time} {d : Draws} {user : User} {r : Incoming}
  {parameter : Text}

def Performs (pf : Platform) (db : Db) (now : Time) (d : Draws) (user : User) (r : Incoming)
    (parameter : Text) (route : UserRoute) (db' : Db) : Prop :=
  db' = db ∨ ∃ request, Asks pf d r parameter route request ∧
    db' = Api.serveUser pf db now user request

theorem performs_call {route : UserRoute} {request : UserRequest} {db' : Db}
    (asked : Asks pf d r parameter route request)
    (same : db' = Api.serveUser pf db now user request) :
    Performs pf db now d user r parameter route db' :=
  Or.inr ⟨request,asked,same⟩

theorem encode_filled {s : Text} (filled : s.isEmpty = false) : (encode s).isEmpty = false := by
  cases s with
  | nil => cases filled
  | cons c cs =>
    have wide : (String.utf8EncodeChar c).length = c.utf8Size := String.length_utf8EncodeChar c
    have positive := c.utf8Size_pos
    simp only [encode, List.flatMap_cons]
    cases bytes : String.utf8EncodeChar c with
    | nil =>
      rw [bytes,List.length_nil] at wide
      omega
    | cons b bs => rfl

theorem truthy_text {s : Text} (truthy : ¬ (Json.str s).truthy = false) : s.isEmpty = false := by
  simpa [Json.truthy] using truthy

section
variable {payload : JsonObject} (body : r.body = some (.obj payload))
include body

theorem put_sharing_performs : Performs pf db now d user r parameter .putSharingRequest
    (putSharingRequest pf db now d user payload).1 := by
  unfold putSharingRequest
  split
  · rename_i present
    split
    · exact Or.inl rfl
    · exact Or.inl rfl
    · rename_i parsed
      exact performs_call (.resolve body present parsed) rfl
  · rename_i absent
    dsimp only
    split
    · exact Or.inl rfl
    · split
      · exact Or.inl rfl
      · rename_i listed
        unfold offerNodes
        split
        · rename_i texts named
          exact performs_call (.offer body absent listed texts named) rfl
        · split
          · exact Or.inl rfl
          · split <;> exact Or.inl rfl

theorem put_mapping_performs : Performs pf db now d user r parameter .putUserNodeMapping
    (putUserNodeMapping db now d user payload).1 := by
  unfold putUserNodeMapping
  dsimp only
  split
  · exact Or.inl rfl
  · rename_i given
    rw [not_or] at given
    split
    · rename_i nodeId secretKey operation node secret operated
      rw [node,secret] at given
      apply performs_call (.putUserNodeMapping body node secret operated)
      simp only [Api.serveUser, truthy_text given.1, truthy_text given.2, Bool.or_self,
        Bool.false_eq_true, if_false]
      rfl
    · exact Or.inl rfl

theorem initiate_mapping_performs : Performs pf db now d user r parameter .initiateMapping
    (initiateMapping db now d user payload).1 := by
  unfold initiateMapping
  dsimp only
  split
  · exact Or.inl rfl
  · rename_i given
    split
    · rename_i nodeId node
      rw [node] at given
      apply performs_call (.initiateMapping body node)
      simp only [Api.serveUser, truthy_text given, Bool.false_eq_true, if_false]
      rfl
    · exact Or.inl rfl

theorem verify_mapping_performs : Performs pf db now d user r parameter .verifyMapping
    (verifyMapping db now d user payload).1 := by
  unfold verifyMapping
  dsimp only
  split
  · exact Or.inl rfl
  · rename_i given
    rw [not_or] at given
    split
    · rename_i requestId response request answered
      rw [request,answered] at given
      apply performs_call (.verifyMapping body request answered)
      simp only [Api.serveUser, truthy_text given.1, truthy_text given.2, Bool.or_self,
        Bool.false_eq_true, if_false]
      rfl
    · split <;> exact Or.inl rfl
    · exact Or.inl rfl

theorem create_group_performs : Performs pf db now d user r parameter .createGroup
    (UserStores.createGroup pf db user d.id d.ids payload).1 := by
  unfold UserStores.createGroup
  dsimp only
  split
  · exact Or.inl rfl
  · split
    · exact Or.inl rfl
    · rename_i below
      split
      · exact Or.inl rfl
      · split
        · rename_i named typed
          split
          · exact Or.inl rfl
          · exact Or.inl rfl
          · rename_i members
            exact performs_call (.createGroup body below named typed members) rfl
        · exact Or.inl rfl

theorem create_automation_performs : Performs pf db now d user r parameter .createAutomation
    (UserStores.createAutomation pf db user d.id payload).1 := by
  unfold UserStores.createAutomation
  dsimp only
  split
  · exact Or.inl rfl
  · rename_i named
    apply performs_call (.createAutomation body)
    rw [Api.serveUser,if_neg named]
    rfl

theorem update_automation_performs : Performs pf db now d user r parameter .updateAutomation
    (UserStores.updateAutomation pf db user payload).1 := by
  unfold UserStores.updateAutomation
  split
  · exact Or.inl rfl
  · rename_i addressed
    exact performs_call (.updateAutomation body addressed) rfl

end

theorem delete_group_performs : Performs pf db now d user r parameter .deleteUserNodeGroup
    (UserStores.deleteUserNodeGroup pf db user parameter).1 := by
  unfold UserStores.deleteUserNodeGroup
  split
  · exact Or.inl rfl
  · rename_i parsed
    exact performs_call (.deleteGroup parsed) rfl

theorem delete_automation_performs {automationId : Text}
    (addressed : Dict.get? "automation_id".toList r.query = some automationId) :
    Performs pf db now d user r parameter .deleteAutomation
      (UserStores.deleteAutomation pf db user automationId).1 := by
  unfold UserStores.deleteAutomation
  split
  · exact Or.inl rfl
  · rename_i parsed
    exact performs_call (.deleteAutomation addressed parsed) rfl

theorem with_object_performs {route : UserRoute} {handler : JsonObject → Db × Outcome}
    (performs : ∀ payload, r.body = some (.obj payload) →
      Performs pf db now d user r parameter route (handler payload).1) :
    Performs pf db now d user r parameter route (withObject db r.body handler).1 := by
  unfold withObject
  split
  · rename_i body
    exact performs _ body
  · exact Or.inl rfl

theorem handle_user_performs (pf : Platform) (db : Db) (now : Time) (d : Draws) (user : User)
    (r : Incoming) (parameter : Text) (route : UserRoute) :
    Performs pf db now d user r parameter route
      (handleUser pf db now d user r parameter route).1 := by
  cases route with
  | changePassword =>
    apply with_object_performs
    intro payload body
    split
    · rename_i valid
      exact performs_call (.changePassword body valid) rfl
    · exact Or.inl rfl
  | logout => exact performs_call .logout rfl
  | deleteCurrentUser => exact performs_call .deleteCurrentUser rfl
  | putSharingRequest => exact with_object_performs fun _ body => put_sharing_performs body
  | revokeSharing =>
    simp only [handleUser]
    split
    · rename_i listed named
      exact performs_call (.revoke listed named) rfl
    · exact Or.inl rfl
  | createGroup => exact with_object_performs fun _ body => create_group_performs body
  | deleteUserNodeGroup => exact delete_group_performs
  | createAutomation => exact with_object_performs fun _ body => create_automation_performs body
  | updateAutomation => exact with_object_performs fun _ body => update_automation_performs body
  | deleteAutomation =>
    simp only [handleUser]
    split
    · rename_i addressed
      exact delete_automation_performs addressed
    · exact Or.inl rfl
  | deleteUserNode => exact performs_call .deleteUserNode rfl
  | putUserNodeMapping => exact with_object_performs fun _ body => put_mapping_performs body
  | initiateMapping => exact with_object_performs fun _ body => initiate_mapping_performs body
  | verifyMapping => exact with_object_performs fun _ body => verify_mapping_performs body
  | putCustomData =>
    exact with_object_performs fun payload body => performs_call (.putCustomData body) rfl

def Answers (pf : Platform) (db : Db) (now : Time) (d : Draws) (authorization : Option Text)
    (payload : JsonObject) (route : OpenRoute) (db' : Db) : Prop :=
  db' = db ∨ (∃ c, Opens d authorization payload route c ∧ db' = Api.serve pf db now c) ∨
    ∃ header user request, authorization = some header ∧
      resolveUserFromHeader pf db now header = .ok user ∧ Assists d payload route request ∧
      db' = Api.serveUser pf db now user request

theorem given_some {arg : Option Text} {s : Text} (given : Tsdata.given arg = some s) :
    arg = some s ∧ s.isEmpty = false := by
  unfold Tsdata.given at given
  split at given
  · cases given
  · rename_i present
    subst given
    cases s with
    | nil => exact absurd rfl present
    | cons c cs => exact ⟨rfl,rfl⟩

theorem login_answers {payload : JsonObject} {login : LoginRequest} {authorization : Option Text}
    (valid : loginRequest payload = some login) :
    Answers pf db now d authorization payload .login2 (login2 pf db now d login).1 := by
  unfold login2
  split
  · exact Or.inl rfl
  · split
    · rename_i userName password named known
      refine Or.inr (Or.inl ⟨_,.login valid (given_some named).1 (given_some known).1,?_⟩)
      simp only [Api.serve, (given_some named).2, (given_some known).2, Bool.or_self,
        Bool.false_eq_true, if_false]
      rfl
    · exact Or.inl rfl

theorem confirm_answers {payload : JsonObject} {authorization : Option Text} :
    Answers pf db now d authorization payload .confirmSignupOrUpdate
      (confirmSignupOrUpdate db now payload).1 := by
  unfold confirmSignupOrUpdate
  split
  · split
    · exact Or.inl rfl
    · rename_i valid
      exact Or.inr (Or.inl ⟨_,.confirm valid,rfl⟩)
  · exact Or.inl rfl

theorem forgot_answers {payload : JsonObject} {forgot : ForgotPasswordRequest}
    {authorization : Option Text} (valid : forgotPasswordRequest payload = some forgot) :
    Answers pf db now d authorization payload .forgotPassword
      (forgotPassword pf db now d forgot).1 := by
  unfold forgotPassword
  split
  · rename_i coded known
    exact Or.inr (Or.inl ⟨_,.reset valid (given_some coded).1 (given_some known).1,rfl⟩)
  · rename_i incomplete
    refine Or.inr (Or.inl ⟨_,.forgot valid ?_,rfl⟩)
    cases coded : Tsdata.given forgot.verificationCode with
    | none => exact Or.inl rfl
    | some code =>
      cases known : Tsdata.given forgot.password with
      | none => exact Or.inr rfl
      | some password => exact absurd known (incomplete code password coded)

theorem claim_initiate_answers {payload : JsonObject} {authorization : Option Text} :
    Answers pf db now d authorization payload .claimInitiate
      (claimInitiate pf db now d authorization payload).1 := by
  unfold claimInitiate
  dsimp only
  split
  · exact Or.inl rfl
  · rename_i given
    rw [not_or] at given
    split
    · rename_i header present
      split
      · exact Or.inl rfl
      · rename_i user auth
        split
        · rename_i macAddr platform mac named
          rw [mac,named] at given
          refine Or.inr (Or.inr ⟨header,user,.initiateAssistedClaim d.id macAddr platform,
            (given_some present).1,auth,.initiate mac named,?_⟩)
          simp only [Api.serveUser, truthy_text given.1, truthy_text given.2, Bool.or_self,
            Bool.false_eq_true, if_false]
          rfl
        · exact Or.inl rfl
        · exact Or.inl rfl
    · rename_i headless
      split
      · rename_i macAddr platform mac named
        rw [mac,named] at given
        refine Or.inr (Or.inl ⟨_,.initiateClaim headless mac named,?_⟩)
        simp only [Api.serve, truthy_text given.1, truthy_text given.2, Bool.or_self,
          Bool.false_eq_true, if_false]
        rfl
      · split <;> exact Or.inl rfl
      · exact Or.inl rfl

theorem claim_verify_answers {payload : JsonObject} {authorization : Option Text} :
    Answers pf db now d authorization payload .claimVerify
      (claimVerify pf db now d authorization payload).1 := by
  unfold claimVerify
  dsimp only
  split
  · exact Or.inl rfl
  · rename_i present
    split
    · rename_i csr signed
      rw [signed] at present
      have filled : (encode csr).isEmpty = false := encode_filled (truthy_text present)
      split
      · rename_i header sent
        split
        · exact Or.inl rfl
        · rename_i user auth
          refine Or.inr (Or.inr ⟨header,user,.verifyAssistedClaim d.randbits (encode csr),
            (given_some sent).1,auth,.verify signed,?_⟩)
          simp only [Api.serveUser, filled, Bool.false_eq_true, if_false]
          rfl
      · rename_i headless
        split
        · exact Or.inl rfl
        · rename_i given
          rw [not_or] at given
          split
          · rename_i authId response addressed responded
            rw [addressed,responded] at given
            refine Or.inr (Or.inl ⟨_,.verifyClaim headless addressed responded signed,?_⟩)
            simp only [Api.serve, filled, truthy_text given.1, truthy_text given.2, Bool.or_self,
              Bool.false_eq_true, if_false]
            rfl
          · split <;> exact Or.inl rfl
          · exact Or.inl rfl
    · exact Or.inl rfl

theorem handle_open_answers (pf : Platform) (db : Db) (now : Time) (d : Draws) (r : Incoming)
    (route : OpenRoute) :
    (handleOpen pf db now d r route).1 = db ∨ ∃ payload, r.body = some (.obj payload) ∧
      Answers pf db now d r.authorization payload route (handleOpen pf db now d r route).1 := by
  unfold handleOpen
  cases body : r.body with
  | none => cases route <;> exact Or.inl rfl
  | some v =>
    cases v with
    | obj payload =>
      cases route with
      | login2 =>
        dsimp only
        split
        · rename_i valid
          exact Or.inr ⟨payload,rfl,login_answers valid⟩
        · exact Or.inl rfl
      | signup =>
        dsimp only
        split
        · rename_i valid
          exact Or.inr ⟨payload,rfl,Or.inr (Or.inl ⟨_,.signup valid,rfl⟩)⟩
        · exact Or.inl rfl
      | confirmSignupOrUpdate => exact Or.inr ⟨payload,rfl,confirm_answers⟩
      | forgotPassword =>
        dsimp only
        split
        · rename_i valid
          exact Or.inr ⟨payload,rfl,forgot_answers valid⟩
        · exact Or.inl rfl
      | claimInitiate => exact Or.inr ⟨payload,rfl,claim_initiate_answers⟩
      | claimVerify => exact Or.inr ⟨payload,rfl,claim_verify_answers⟩
    | _ => cases route <;> exact Or.inl rfl

theorem handle_node_performs (pf : Platform) (db : Db) (now : Time) (node : Node)
    (body : Option Json) (route : NodeRoute) :
    (handleNode pf db now node body route).1 = db ∨ ∃ payload request,
      body = some (.obj payload) ∧ Reports payload route request ∧
      (handleNode pf db now node body route).1 = Api.serveNode pf db now node request := by
  unfold handleNode
  cases route with
  | putNodeConfig =>
    dsimp only [withObject]
    split
    · exact Or.inr ⟨_,.putNodeConfig _,rfl,.config,rfl⟩
    · exact Or.inl rfl
  | postNodeParamsLocal =>
    dsimp only [withObject]
    split
    · exact Or.inr ⟨_,.postNodeParamsLocal _,rfl,.params,rfl⟩
    · exact Or.inl rfl
  | postNodeOtastatus =>
    dsimp only [withObject]
    split
    · rename_i payload
      have performs : (postNodeOtastatus pf db now node payload).1 = db ∨
          ∃ request, Reports payload .postNodeOtastatus request ∧
            (postNodeOtastatus pf db now node payload).1 =
              Api.serveNode pf db now node request := by
        unfold postNodeOtastatus
        dsimp only
        split
        · exact Or.inl rfl
        · rename_i given
          rw [not_or] at given
          split
          · rename_i jobId status info job reported informed
            rw [job,reported] at given
            refine Or.inr ⟨.postNodeOtastatus jobId status info,.status job reported informed,?_⟩
            simp only [Api.serveNode, truthy_text given.1, truthy_text given.2, Bool.or_self,
              Bool.false_eq_true, if_false]
            rfl
          · split <;> exact Or.inl rfl
          · exact Or.inl rfl
      rcases performs with same | ⟨request,reports,same⟩
      · exact Or.inl same
      · exact Or.inr ⟨payload,request,rfl,reports,same⟩
    · exact Or.inl rfl
end

/-! Every event. -/

section
variable {pf : Platform}

theorem step_of_serve {w : World} {c : Call} (timeless : ∀ n, c ≠ .tick n) :
    Api.step pf w c = {w with db := Api.serve pf w.db w.now c} := by
  cases c with
  | tick n => exact absurd rfl (timeless n)
  | _ => rfl

theorem opens_timeless {d : Draws} {payload : JsonObject} {route : OpenRoute} {c : Call}
    {authorization : Option Text} (opens : Opens d authorization payload route c) (n : Nat) : c ≠ .tick n := by
  cases opens <;> nofun

theorem current_user_of_header {db : Db} {now : Time} {header : Option Text} {user : User}
    (auth : getCurrentUser pf db now header = .ok user) : currentUser db user.id = .ok user := by
  unfold getCurrentUser at auth
  split at auth
  · cases auth
  · split at auth
    · cases auth
    · cases auth
    · cases auth
    · split at auth
      · cases auth
      · split at auth
        · cases auth
        · rename_i id _
          rw [(current_user_ok auth).2.1]
          exact auth

theorem current_user_of_claim {db : Db} {now : Time} {header : Text} {user : User}
    (auth : resolveUserFromHeader pf db now header = .ok user) :
    currentUser db user.id = .ok user := by
  unfold resolveUserFromHeader at auth
  dsimp only at auth
  split at auth
  · cases auth
  · split at auth
    · cases auth
    · cases auth
    · cases auth
    · split at auth
      · cases auth
      · rw [(current_user_ok auth).2.1]
        exact auth

def ReadAs (pf : Platform) (w : World) (e : Event) : Prop :=
  step pf w e = w ∨ ∃ c, Vouches pf w e c ∧ step pf w e = Api.step pf w c

theorem read_as_nothing {w : World} {d : Draws} {r : Incoming}
    (same : (serve pf w.db w.now d r).1 = w.db) : ReadAs pf w (.request d r) := by
  left
  simp only [step, same]

theorem read_as_call {w : World} {d : Draws} {r : Incoming} {c : Call}
    (vouched : Vouches pf w (.request d r) c) (timeless : ∀ n, c ≠ .tick n)
    (same : (serve pf w.db w.now d r).1 = Api.serve pf w.db w.now c) :
    ReadAs pf w (.request d r) := by
  refine Or.inr ⟨c,vouched,?_⟩
  rw [step_of_serve timeless,← same]
  rfl

section
variable {w : World} {d : Draws} {r : Incoming} {parameter : Text}

theorem anyone_reads {route : OpenRoute}
    (routed : resolve r.method r.path = some (.anyone route,parameter)) :
    ReadAs pf w (.request d r) := by
  have served : serve pf w.db w.now d r = handleOpen pf w.db w.now d r route := by
    simp only [serve, routed]
  rcases handle_open_answers pf w.db w.now d r route with
    same | ⟨payload,body,same | ⟨c,opens,same⟩ | ⟨header,user,request,given,auth,asked,same⟩⟩
  · apply read_as_nothing
    rw [served,same]
  · apply read_as_nothing
    rw [served,same]
  · apply read_as_call (.anyone routed body opens) (opens_timeless opens)
    rw [served,same]
  · apply read_as_call (.assisted routed body given auth asked) nofun
    rw [served,same,Api.serve,current_user_of_claim auth]

theorem user_reads {route : UserRoute}
    (routed : resolve r.method r.path = some (.user route,parameter)) :
    ReadAs pf w (.request d r) := by
  by_cases unread : (r.body.isNone && readsBody route) = true
  · apply read_as_nothing
    simp only [serve, routed, unread, if_true]
  · cases auth : getCurrentUser pf w.db w.now r.authorization with
    | error e =>
      apply read_as_nothing
      simp only [serve, routed, unread, auth]
      rfl
    | ok user =>
      have served : serve pf w.db w.now d r =
          handleUser pf w.db w.now d user r parameter route := by
        simp only [serve, routed, unread, auth]
        rfl
      rcases handle_user_performs pf w.db w.now d user r parameter route with
        same | ⟨request,asked,same⟩
      · apply read_as_nothing
        rw [served,same]
      · apply read_as_call (.user routed auth asked) nofun
        rw [served,same,Api.serve,current_user_of_header auth]

theorem node_reads {route : NodeRoute}
    (routed : resolve r.method r.path = some (.node route,parameter)) :
    ReadAs pf w (.request d r) := by
  by_cases unread : r.body.isNone = true
  · apply read_as_nothing
    simp only [serve, routed, unread, if_true]
  · cases certified : Claim.getNodeFromMtls w.db r.sslClientCn with
    | error e =>
      apply read_as_nothing
      simp only [serve, routed, unread, certified]
      rfl
    | ok node =>
      have served : serve pf w.db w.now d r = handleNode pf w.db w.now node r.body route := by
        simp only [serve, routed, unread, certified]
        rfl
      rcases handle_node_performs pf w.db w.now node r.body route with
        same | ⟨payload,request,body,reports,same⟩
      · apply read_as_nothing
        rw [served,same]
      · have vouched : Vouches pf w (.request d r) (.node r.sslClientCn request) :=
          .node routed certified body reports
        apply read_as_call vouched nofun
        rw [served,same,Api.serve,certified]

end

theorem step_reads (w : World) (e : Event) : ReadAs pf w e := by
  cases e with
  | internal c => exact Or.inr ⟨c.call,.internal,rfl⟩
  | request d r =>
    cases routed : resolve r.method r.path with
    | none =>
      apply read_as_nothing
      simp only [serve, routed]
    | some found =>
      obtain ⟨endpoint,parameter⟩ := found
      cases endpoint with
      | user route => exact user_reads routed
      | node route => exact node_reads routed
      | anyone route => exact anyone_reads routed
      | elsewhere =>
        apply read_as_nothing
        simp only [serve, routed]

/-- A run of requests is a run of calls, each of them made by an event that
    vouches for it in the state the call finds. What vouches for none, because
    of its path, its header, its query or its body, leaves everything as it was. -/
theorem requests_are_calls (pf : Platform) (w : World) (es : List Event) :
    (∃ cs, run (step pf) w es = run (Api.step pf) w cs ∧
      ∀ pre c post, cs = pre ++ c :: post → ∃ before e after, es = before ++ e :: after ∧
        run (step pf) w before = run (Api.step pf) w pre ∧
        Vouches pf (run (Api.step pf) w pre) e c) ∧
      ∀ before e after, es = before ++ e :: after →
        (∀ c, ¬ Vouches pf (run (step pf) w before) e c) →
          run (step pf) w (before ++ [e]) = run (step pf) w before := by
  constructor
  · obtain ⟨cs,reads⟩ := run_reads (@step_reads pf) w es
    exact ⟨cs,reads_run reads,fun pre c post split => reads_vouched reads split⟩
  · intro before e after _ unvouched
    rw [run_append]
    rcases @step_reads pf (run (step pf) w before) e with same | ⟨c,vouched,-⟩
    · exact same
    · exact absurd vouched (unvouched c)

end
end RainmakerServer.HttpCalls
