import RainmakerServer.Lib.Runs
import RainmakerServer.Mqtt.Router
import RainmakerServer.Services.Accounts
import RainmakerServer.Services.VmqAuthz

/-!
The server as one transition system. A call is what reaches a handler from
outside, grouped by the dependency that authenticates it, together with the
random values the handler draws. A call that is refused or fails keeps what its
handler had committed. Routes that only read a node are in `UserNodes`.
-/
namespace RainmakerServer

structure World where
  db : Db
  now : Time

inductive UserRequest where
  | changePassword (salt password newpassword : Text)
  | logout
  | putCustomData (payload : JsonObject)
  | deleteCurrentUser
  | putUserNodeMapping (id : Uuid) (requestId nodeId secretKey operation : Text)
  | initiateMapping (id : Uuid) (requestId challenge nodeId : Text)
  | verifyMapping (mappingId : Uuid) (requestId challengeResponse : Text)
  | deleteUserNode (nodeId : Text)
  | createSharingRequest (ids : Nat → Uuid) (nodes : List Text) (userName : Text)
  | resolveSharingRequest (shareId requestId : Uuid) (accept : Bool)
  | revokeSharing (nodes userName : Text)
  | createGroup (groupId : Uuid) (memberIds : Nat → Uuid) (groupName : Text)
      (parentGroupId : Option Uuid) (type : Option Text) (mutuallyExclusive : Bool)
      (nodes : List Text) (metadata : Json)
  | deleteGroup (groupId : Uuid)
  | createAutomation (id : Uuid) (name events actions eventOperator metadata : Json)
  | updateAutomation (automationId : Uuid) (patch : JsonObject)
  | deleteAutomation (automationId : Uuid)
  | initiateAssistedClaim (id : Uuid) (macAddr platform : Text)
  | verifyAssistedClaim (randbits : Nat) (csr : Bytes)

inductive AdminRequest where
  | uploadRequest (imageId : Uuid) (name fwVersion : Text) (fileSize : Int) (model : Option Text)
      (metadata : JsonObject)
  | uploadConfirm (imageId : Uuid) (fileMd5 fileSha256 : Option Text)
  | createOtajob (jobId : Uuid) (rowIds : Nat → Uuid) (name : Text) (imageId : Uuid)
      (nodes : List Text) (rolloutPolicy : JsonObject)

inductive NodeRequest where
  | putNodeConfig (payload : JsonObject)
  | postNodeParamsLocal (payload : JsonObject)
  | postNodeOtastatus (otaJobId status : Text) (additionalInfo : Option Text)

inductive Call where
  | tick (elapsed : Nat)
  | signup (id : Uuid) (salt code userName password : Text)
  | confirmSignup (userName verificationCode : Text)
  | login (draw : Accounts.TokenDraw) (userName password : Text)
  | forgotPassword (code userName : Text)
  | resetPassword (salt userName verificationCode password : Text)
  | initiateSelfClaim (id : Uuid) (authId : Text) (challenge : Bytes) (macAddr platform : Text)
  | verifySelfClaim (randbits : Nat) (authId challengeResponse : Text) (csr : Bytes)
  | user (id : Uuid) (request : UserRequest)
  | admin (id : Uuid) (request : AdminRequest)
  | node (sslClientCn : Option Text) (request : NodeRequest)
  | dispatch (mappingId : Uuid) (topic : Text) (payload : Bytes)
  | onClientOnline (clientId username : Option Text)
  | onClientOffline (clientId username : Option Text)
  | revokeCertificate (serial : Text)

namespace Api
variable (pf : Platform)

def nodeList (nodes : Text) : List Text := (nodes.splitOn ',').filter fun n => !n.isEmpty

def serveUser (db : Db) (now : Time) (user : User) : UserRequest → Db
  | .changePassword salt password new => (Accounts.changePassword pf db salt user password new).1
  | .logout => Accounts.logout db now user.id
  | .putCustomData payload => (Accounts.putCustomData db user payload).1
  | .deleteCurrentUser => Accounts.deleteCurrentUser db user.id
  | .putUserNodeMapping id requestId nodeId secretKey operation =>
    if nodeId.isEmpty || secretKey.isEmpty then db
    else (Access.requestLegacyMapping db now id requestId user.id nodeId secretKey operation).1
  | .initiateMapping id requestId challenge nodeId =>
    if nodeId.isEmpty then db
    else (Access.initiateChallenge db now id requestId challenge user.id nodeId).1
  | .verifyMapping mappingId requestId response =>
    if requestId.isEmpty || response.isEmpty then db
    else (Access.verifyChallenge db now mappingId user.id requestId response).1
  | .deleteUserNode nodeId => (Access.deleteUserNode db user.id nodeId).1
  | .createSharingRequest ids nodes userName =>
    (Access.createRequest db now ids user.id nodes userName).1
  | .resolveSharingRequest shareId requestId accept =>
    (Access.acceptOrDecline db now shareId user.id user.userName requestId accept).1
  | .revokeSharing nodes userName => (Access.revokeShare db user.id (nodeList nodes) userName).1
  | .createGroup groupId memberIds name parent type exclusive nodes metadata =>
    (Fleet.createGroup db groupId memberIds user.id name parent type exclusive nodes metadata).1
  | .deleteGroup groupId => (Fleet.deleteGroup db user.id groupId).1
  | .createAutomation id name events actions operator metadata =>
    if name.truthy = false then db
    else (Fleet.createAutomation db id user.id name events actions operator metadata).1
  | .updateAutomation id patch => (Fleet.updateAutomation db user.id id patch).1
  | .deleteAutomation id => (Fleet.deleteAutomation db user.id id).1
  | .initiateAssistedClaim id macAddr platform =>
    if macAddr.isEmpty || platform.isEmpty then db
    else (Claim.initiateAssistedClaim pf db now id user.id macAddr platform).1
  | .verifyAssistedClaim randbits csr =>
    if csr.isEmpty then db else (Claim.verifyAssistedClaim pf db now randbits user.id csr).1

def serveAdmin (db : Db) (now : Time) (admin : User) : AdminRequest → Db
  | .uploadRequest imageId name fwVersion fileSize model metadata =>
    if name.isEmpty || fwVersion.isEmpty || fileSize == 0 then db
    else (Fleet.createImageUpload pf db imageId name fwVersion fileSize model metadata).1
  | .uploadConfirm imageId md5 sha256 => (Fleet.confirmImageUpload db imageId md5 sha256).1
  | .createOtajob jobId rowIds name imageId nodes policy =>
    if name.isEmpty || nodes.isEmpty then db
    else (Fleet.createJob db now jobId rowIds name imageId nodes policy (some admin.id)).1

def serveNode (db : Db) (now : Time) (node : Node) : NodeRequest → Db
  | .putNodeConfig payload => (Mqtt.commitLast db (Nodes.upsertNodeConfig db node.nodeId payload)).1
  | .postNodeParamsLocal payload =>
    (Mqtt.commitLast db (Nodes.upsertParamsShadow db node.nodeId payload)).1
  | .postNodeOtastatus jobId status info =>
    if jobId.isEmpty || status.isEmpty then db
    else (Fleet.updateStatus pf db now node.nodeId jobId status info).1

def serve (db : Db) (now : Time) : Call → Db
  | .tick _ => db
  | .signup id salt code userName password =>
    (Accounts.signup pf db now id salt code userName password).1
  | .confirmSignup userName code => (Accounts.confirmSignup db now userName code).1
  | .login draw userName password =>
    if userName.isEmpty || password.isEmpty then db
    else (Accounts.loginPassword pf db now draw userName password).1
  | .forgotPassword code userName => (Accounts.requestPasswordReset db now code userName).1
  | .resetPassword salt userName code password =>
    (Accounts.confirmPasswordReset pf db now salt userName code password).1
  | .initiateSelfClaim id authId challenge macAddr platform =>
    if macAddr.isEmpty || platform.isEmpty then db
    else (Claim.initiateSelfClaim pf db now id authId challenge macAddr platform).1
  | .verifySelfClaim randbits authId response csr =>
    if csr.isEmpty || authId.isEmpty || response.isEmpty then db
    else (Claim.verifySelfClaim pf db now randbits authId response csr).1
  | .user id request => match Accounts.currentUser db id with
    | .error _ => db
    | .ok user => serveUser pf db now user request
  | .admin id request => match Accounts.requireAdmin db id with
    | .error _ => db
    | .ok admin => serveAdmin pf db now admin request
  | .node cn request => match Claim.getNodeFromMtls db cn with
    | .error _ => db
    | .ok node => serveNode pf db now node request
  | .dispatch mappingId topic payload => Mqtt.dispatch pf db now mappingId topic payload
  | .onClientOnline clientId username => VmqAuthz.markOnline pf db now clientId username
  | .onClientOffline clientId username => VmqAuthz.markOffline pf db now clientId username
  | .revokeCertificate serial => Claim.revokeCertificate db now serial

def step (w : World) (c : Call) : World where
  db := serve pf w.db w.now c
  now := match c with
    | .tick elapsed => w.now + elapsed
    | _ => w.now

end Api
end RainmakerServer
