import RainmakerServer.Services.Claim
import RainmakerServer.Services.Nodes

/-!
The answers to the broker's webhooks. On the TLS listener the user name is the
CN of the verified client certificate; the internal user name is accepted
without a certificate and is not confined to a namespace.
-/
namespace RainmakerServer.VmqAuthz
open Tables

inductive Answer where
  | ok
  | error (reason : Text)
  deriving DecidableEq

def isBackend (pf : Platform) : Option Text → Bool
  | none => false
  | some [] => false
  | some username => username == pf.settings.mqttInternalUser

def authoriseRegister (pf : Platform) (db : Db) (username : Option Text) : Answer :=
  match username with
  | none => .error "missing username"
  | some [] => .error "missing username"
  | some name =>
    if isBackend pf (some name) then .ok
    else match Claim.activeCertificate db name with
    | none => .error "unknown or revoked client"
    | some _ => .ok

def allowedTopic (username topic : Text) : Bool :=
  (("node/" : Text) ++ username ++ "/").isPrefixOf topic

def authorisePublish (pf : Platform) (username : Option Text) (topic : Text) : Answer :=
  if topic.isEmpty then .error "missing topic"
  else if isBackend pf username then .ok
  else match username with
  | none => .error "missing username"
  | some [] => .error "missing username"
  | some name => if allowedTopic name topic then .ok else .error "topic outside namespace"

/-- The loop over the requested subscriptions; an entry without a topic counts
    as the empty one. -/
def checkTopics (username : Text) : List (Option Text) → Answer
  | [] => .ok
  | t :: rest =>
    let topic := t.getD []
    if allowedTopic username topic then checkTopics username rest
    else .error (("topic outside namespace: " : Text) ++ topic)

def authoriseSubscribe (pf : Platform) (username : Option Text)
    (topics : Option (List (Option Text))) : Answer :=
  if isBackend pf username then .ok
  else match username with
  | none => .error "missing username"
  | some [] => .error "missing username"
  | some name => match topics with
    | none => .ok
    | some ts => checkTopics name ts

def setOnline (db : Db) (now : Time) (nodeId : Text) (online : Bool) : Db :=
  let t := db.nodes.update (fun r => r.nodeId == nodeId)
    (fun r => {r with online := online, lastSeenAt := some now}) (fun _ _ => rfl) fun _ held => held
  {db with nodes := t}

def clientNode (clientId username : Option Text) : Text :=
  match username with
  | some (c :: cs) => c :: cs
  | _ => clientId.getD []

def markOnline (pf : Platform) (db : Db) (now : Time) (clientId username : Option Text) : Db :=
  if isBackend pf username then db
  else if (clientNode clientId username).isEmpty then db
  else setOnline db now (clientNode clientId username) true

def markOffline (pf : Platform) (db : Db) (now : Time) (clientId username : Option Text) : Db :=
  if isBackend pf username then db
  else if (clientNode clientId username).isEmpty then db
  else setOnline db now (clientNode clientId username) false

theorem set_online_reports {db : Db} {now : Time} {n : Text} {online : Bool} :
    Nodes.Reports n db (setOnline db now n online) := by
  refine ⟨⟨_,_,_,_,rfl⟩,?_,?_,rfl,rfl,rfl⟩
  · intro m present
    obtain ⟨r,stored,named⟩ := Db.hasNode_iff.mp present
    rw [Db.hasNode_iff]
    simp only [setOnline, Table.mem_update]
    refine ⟨_,⟨r,stored,rfl⟩,?_⟩
    split <;> exact named
  · simp only [setOnline]
    rw [Table.update_filter]
    intro r _ here
    simpa using here

theorem not_backend {pf : Platform} {name : Text} (other : name ≠ pf.settings.mqttInternalUser) :
    isBackend pf (some name) = false := by
  cases name with
  | nil => rfl
  | cons c cs => simpa [isBackend] using other

theorem allowed_topic_iff {username topic : Text} : allowedTopic username topic = true ↔
    ∃ rest, topic = "node/".toList ++ username ++ "/".toList ++ rest := by
  simp only [allowedTopic, List.isPrefixOf_iff_prefix]
  constructor
  · rintro ⟨rest,eq⟩
    exact ⟨rest,eq.symm⟩
  · rintro ⟨rest,eq⟩
    exact ⟨rest,eq.symm⟩

theorem publish_ok_iff {pf : Platform} {name topic : Text} (device : isBackend pf (some name) = false)
    (named : name ≠ []) :
    authorisePublish pf (some name) topic = .ok ↔ allowedTopic name topic = true := by
  cases name with
  | nil => exact absurd rfl named
  | cons c cs =>
    by_cases empty : topic = []
    · subst topic
      have outside : allowedTopic (c :: cs) [] = false := rfl
      rw [outside]
      constructor <;> intro h <;> cases h
    · have present : topic.isEmpty = false := by simpa using empty
      unfold authorisePublish
      rw [present,device]
      cases allowed : allowedTopic (c :: cs) topic <;> simp [allowed]

theorem check_topics_ok_iff {name : Text} {ts : List (Option Text)} :
    checkTopics name ts = .ok ↔ ∀ t ∈ ts, allowedTopic name (t.getD []) = true := by
  induction ts with
  | nil => simp [checkTopics]
  | cons t ts ih =>
    simp only [checkTopics, List.forall_mem_cons]
    split
    · rename_i allowed
      simp [ih, allowed]
    · rename_i refused
      simp [refused]

theorem subscribe_ok_iff {pf : Platform} {name : Text} {ts : List (Option Text)}
    (device : isBackend pf (some name) = false) (named : name ≠ []) :
    authoriseSubscribe pf (some name) (some ts) = .ok ↔
      ∀ t ∈ ts, allowedTopic name (t.getD []) = true := by
  cases name with
  | nil => exact absurd rfl named
  | cons c cs => simp [authoriseSubscribe, device, check_topics_ok_iff]

theorem register_ok_iff {pf : Platform} {db : Db} {name : Text}
    (device : isBackend pf (some name) = false) (named : name ≠ []) :
    authoriseRegister pf db (some name) = .ok ↔ (Claim.activeCertificate db name).isSome = true := by
  cases name with
  | nil => exact absurd rfl named
  | cons c cs =>
    simp only [authoriseRegister, device]
    cases Claim.activeCertificate db (c :: cs) <;> simp

end RainmakerServer.VmqAuthz
