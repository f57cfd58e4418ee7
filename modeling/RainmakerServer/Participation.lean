import RainmakerServer.Deployment
import RainmakerServer.Effects

/-!
Who can come to have access to a node that neither the node nor one of its
owners has granted. Access rows are written by two mapping flows and by
sharing. The message flow needs a topic of the node and sharing needs an
owner; the challenge flow of the API accepts the challenge it has handed out.
-/
namespace RainmakerServer.Participation
open Tables Runs Api

structure Apart (u : Uuid) (n : Text) (db : Db) : Prop where
  unmapped : ¬ Access.Owns db u n
  unshared : ¬ Access.SharedWith db u n
  uninvited : ∀ r ∈ db.nodeSharingRequests, r.nodeId = n → r.status = .pending →
    ∀ user ∈ db.users, user.id = u → r.toUserName ≠ user.userName

/-- Neither node `n` nor an owner of it other than `u` takes part in the call. -/
def Uninvolved (u : Uuid) (n : Text) (w : World) : Call → Prop
  | .dispatch _ topic _ => VmqAuthz.allowedTopic n topic = false
  | .user o (.createSharingRequest _ nodes _) => ¬ (o ≠ u ∧ Access.Owns w.db o n ∧ n ∈ nodes)
  | _ => True

/-- User `u` sends back the challenge of one of its own open requests for `n`. -/
def EchoesChallenge (u : Uuid) (n : Text) (w : World) : Call → Prop
  | .user id (.verifyMapping _ requestId response) => id = u ∧
      ∃ row, Access.Answerable w.db w.now u requestId response row ∧ row.nodeId = some n
  | _ => False

/-- Keys are drawn fresh: no signup draws the key of `u` again. -/
def DrawsFresh (u : Uuid) : Call → Prop
  | .signup id _ _ _ _ => id ≠ u
  | _ => True

section
variable {u : Uuid} {n : Text} {db db' : Db} {now : Time}

theorem apart_of_same (apart : Apart u n db)
    (mappings : ∀ m ∈ db'.userNodeMappings, m ∈ db.userNodeMappings)
    (sharing : ∀ s ∈ db'.nodeSharing, s ∈ db.nodeSharing)
    (requests : ∀ r ∈ db'.nodeSharingRequests, r.status = .pending → r ∈ db.nodeSharingRequests)
    (users : ∀ r ∈ db'.users, r.id = u →
      ∃ old ∈ db.users, old.id = r.id ∧ old.userName = r.userName) : Apart u n db' where
  unmapped := by
    rintro ⟨m,stored,user,node⟩
    exact apart.unmapped ⟨m,mappings m stored,user,node⟩
  unshared := by
    rintro ⟨s,stored,user,node⟩
    exact apart.unshared ⟨s,sharing s stored,user,node⟩
  uninvited := by
    intro r stored node pending user present key
    obtain ⟨old,earlier,id,name⟩ := users user present key
    rw [← name]
    exact apart.uninvited r (requests r stored pending) node pending old earlier (id.trans key)

theorem apart_of_rows (apart : Apart u n db) (users : db'.users = db.users)
    (mappings : ∀ m ∈ db'.userNodeMappings, m ∈ db.userNodeMappings)
    (sharing : ∀ s ∈ db'.nodeSharing, s ∈ db.nodeSharing)
    (requests : ∀ r ∈ db'.nodeSharingRequests, r.status = .pending → r ∈ db.nodeSharingRequests) :
    Apart u n db' := by
  apply apart_of_same apart mappings sharing requests
  intro r stored _
  rw [users] at stored
  exact ⟨r,stored,rfl,rfl⟩

theorem apart_of_equal (apart : Apart u n db) (users : db'.users = db.users)
    (mappings : db'.userNodeMappings = db.userNodeMappings)
    (sharing : db'.nodeSharing = db.nodeSharing)
    (requests : db'.nodeSharingRequests = db.nodeSharingRequests) : Apart u n db' := by
  apply apart_of_rows apart users
  · intro m stored
    rwa [mappings] at stored
  · intro s stored
    rwa [sharing] at stored
  · intro r stored _
    rwa [requests] at stored

theorem apart_of_finalised {mappingId : Uuid} {row : MappingChallenge} (apart : Apart u n db)
    (challenge : row ∈ db.mappingChallenges)
    (ok : Access.finaliseMapping db now mappingId row = .ok db')
    (other : ¬ (row.userId = u ∧ row.nodeId = some n)) : Apart u n db' := by
  obtain ⟨m,named,⟨owned,eq⟩ | ⟨t,inserted,-,-,eq⟩⟩ := Access.finalise_mapping_ok challenge ok
  · subst eq
    exact apart_of_equal apart rfl rfl rfl rfl
  · subst eq
    constructor
    · rintro ⟨r,stored,user,node⟩
      rcases (Table.mem_appended inserted).mp stored with old | new
      · exact apart.unmapped ⟨r,old,user,node⟩
      · subst new
        exact other ⟨user,by rw [named]; exact congrArg some node⟩
    · exact apart.unshared
    · exact apart.uninvited

theorem apart_of_resolved {shareId id : Uuid} {row : NodeSharingRequest} {accept : Bool}
    {user : User} (apart : Apart u n db) (present : user ∈ db.users) (key : user.id = id)
    (stored : row ∈ db.nodeSharingRequests) (addressed : row.toUserName = user.userName)
    (pending : row.status = .pending)
    (resolution : Access.Resolved db now shareId id row accept db') : Apart u n db' := by
  have settled : ∀ (status : RequestStatus) (base : Db), status ≠ .pending →
      base.nodeSharingRequests = db.nodeSharingRequests →
      ∀ r ∈ (Access.setRequest base row.id status).nodeSharingRequests, r.status = .pending →
        r ∈ db.nodeSharingRequests := by
    intro status base done same r member still
    simp only [Access.setRequest, Table.mem_update] at member
    obtain ⟨old,earlier,eq⟩ := member
    split at eq
    · rw [← eq] at still
      exact absurd still done
    · rw [← eq,← same]
      exact earlier
  cases resolution with
  | closed status done =>
    exact apart_of_rows apart rfl (fun _ h => h) (fun _ h => h) (settled status db done rfl)
  | shared t accepted valid inserted =>
    constructor
    · exact apart.unmapped
    · rintro ⟨s,member,guest,node⟩
      rcases (Table.mem_appended inserted).mp member with old | new
      · exact apart.unshared ⟨s,old,guest,node⟩
      · subst new
        exact apart.uninvited row stored node pending user present (key.trans guest) addressed
    · intro r member node still
      have earlier := settled .accepted {db with nodeSharing := t} (by decide) rfl r member still
      exact apart.uninvited r earlier node still

end

variable {pf : Platform} {u : Uuid} {n : Text}

theorem effect_keeps_apart {w : World} {c : Call} {db' : Db} (apart : Apart u n w.db)
    (effect : AccessEffect w.db w.now c db') (uninvolved : Uninvolved u n w c)
    (unechoed : ¬ EchoesChallenge u n w c) : Apart u n db' := by
  cases effect with
  | expired topical stored named pending => exact apart_of_equal apart rfl rfl rfl rfl
  | @confirmed _ topic _ m suffix row _ topical stored named pending valid finalised =>
    -- the message is on a topic of node `m`, which is not `n`
    have other : m ≠ n := by
      intro same
      subst same
      have below : VmqAuthz.allowedTopic m topic = true :=
        VmqAuthz.allowed_topic_iff.mpr ⟨suffix,(Mqtt.split_topic_iff.mp topical).1⟩
      have off : VmqAuthz.allowedTopic m topic = false := uninvolved
      rw [below] at off
      cases off
    apply apart_of_finalised apart stored finalised
    rintro ⟨-,node⟩
    rw [named] at node
    exact other (Option.some.inj node)
  | removed auth =>
    apply apart_of_same apart
    · intro m stored
      exact (Table.mem_delete.mp stored).1
    · intro s stored
      exact (Table.mem_delete.mp stored).1
    · intro r stored _
      exact (Table.mem_delete.mp stored).1
    · intro r stored _
      exact ⟨r,(Table.mem_delete.mp stored).1,rfl,rfl⟩
  | asked caller pending known named keyed inserted => exact apart_of_equal apart rfl rfl rfl rfl
  | @verified id _ _ _ row _ answer finalised =>
    apply apart_of_finalised apart answer.stored finalised
    rintro ⟨caller,node⟩
    have self : id = u := answer.caller.symm.trans caller
    rw [self] at answer
    exact unechoed ⟨self,row,answer,node⟩
  | unmapped stored caller named =>
    refine apart_of_rows apart rfl ?_ (fun _ h => h) (fun _ h _ => h)
    intro m kept
    exact (Table.mem_delete.mp kept).1
  | @invited id _ nodes _ t appended owned =>
    -- whoever invites owns every node of the list, and `u` does not own `n`
    have elsewhere : n ∉ nodes := by
      intro listed
      by_cases self : id = u
      · exact apart.unmapped (self ▸ owned n listed)
      · exact uninvolved ⟨self,owned n listed,listed⟩
    constructor
    · exact apart.unmapped
    · exact apart.unshared
    · intro r stored node pending
      rcases (Table.mem_appendedAll appended).mp stored with old | new
      · exact apart.uninvited r old node pending
      · have listed := (Access.mem_request_rows new).1
        rw [node] at listed
        exact absurd listed elsewhere
  | resolved auth stored requested addressed pending resolution =>
    obtain ⟨present,key,-⟩ := Accounts.current_user_ok auth
    exact apart_of_resolved apart present key stored addressed pending resolution
  | unshared known named =>
    refine apart_of_rows apart rfl (fun _ h => h) ?_ (fun _ h _ => h)
    intro s kept
    exact (Table.mem_delete.mp kept).1

theorem step_keeps_apart {w : World} {c : Call} (apart : Apart u n w.db)
    (uninvolved : Uninvolved u n w c) (fresh : DrawsFresh u c)
    (unechoed : ¬ EchoesChallenge u n w c) : Apart u n (step pf w c).db := by
  rcases effect_access (step_effect pf w c) with same | effect
  · apply apart_of_same apart
    · intro m stored
      rwa [same.mappings] at stored
    · intro s stored
      rwa [same.sharing] at stored
    · intro r stored _
      rwa [same.requests] at stored
    · intro r stored key
      rcases same.users r stored with ⟨salt,code,userName,password,eq⟩ | old
      · subst eq
        exact absurd key fresh
      · exact old
  · exact effect_keeps_apart apart effect uninvolved unechoed

/-- No run of calls gives `u` access to `n` when neither the node nor another
    owner takes part and `u` never echoes a challenge of the challenge flow. -/
theorem no_access_without_participation (pf : Platform) (u : Uuid) (n : Text) (w : World)
    (cs : List Call) (outside : Access.hasAccess w.db u n = .ok false)
    (uninvited : ∀ r ∈ w.db.nodeSharingRequests, r.nodeId = n → r.status = .pending →
      ∀ user ∈ w.db.users, user.id = u → r.toUserName ≠ user.userName)
    (uninvolved : Along (step pf) (Uninvolved u n) w cs)
    (fresh : ∀ c ∈ cs, DrawsFresh u c)
    (unechoed : Along (step pf) (fun w c => ¬ EchoesChallenge u n w c) w cs) :
    Access.hasAccess (run (step pf) w cs).db u n = .ok false := by
  obtain ⟨unmapped,unshared⟩ := (Access.has_access_false_iff w.db u n).mp outside
  have admissible := along_and (step pf) uninvolved
    (along_and (step pf) (along_of_forall (step pf) fresh) unechoed)
  have apart : Apart u n (run (step pf) w cs).db := by
    apply run_invariant (step pf) (I := fun w => Apart u n w.db) _ ⟨unmapped,unshared,uninvited⟩
      admissible
    intro w c apart conditions
    exact step_keeps_apart apart conditions.1 conditions.2.1 conditions.2.2
  exact (Access.has_access_false_iff _ u n).mpr ⟨apart.unmapped,apart.unshared⟩

def strangerAndNode : World where
  db := {
    users := .one (Deployment.account 7 "eve@example.com"),
    nodes := .one {nodeId := "aabbccddeeff"}}
  now := 0

theorem wrong_response_stays_outside :
    Access.hasAccess (run (step Deployment.platform) strangerAndNode
      [.user 7 (.initiateMapping 20 Deployment.token16 Deployment.token32 "aabbccddeeff"),
       .user 7 (.verifyMapping 21 Deployment.token16 "guess")]).db 7 "aabbccddeeff" =
      .ok false := by
  apply no_access_without_participation
  · decide +kernel
  · intro r stored
    cases stored
  · exact ⟨trivial,trivial,trivial⟩
  · intro c member
    simp only [List.mem_cons, List.not_mem_nil, or_false] at member
    rcases member with eq | eq <;> subst eq <;> trivial
  · refine ⟨id,?_,trivial⟩
    rintro ⟨-,row,answer,-⟩
    have unguessed : ∀ r ∈ (step Deployment.platform strangerAndNode (.user 7 (.initiateMapping 20
        Deployment.token16 Deployment.token32 "aabbccddeeff"))).db.mappingChallenges.rows,
        r.challenge ≠ some "guess".toList := by decide +kernel
    exact unguessed row answer.stored answer.echoed

/-- The stranger sends back the challenge it was given and has access, although
    no message of the node was dispatched and nobody shared it. -/
theorem echoed_challenge_grants_access :
    strangerAndNode.db.hasNode "aabbccddeeff" = true ∧
      Access.hasAccess strangerAndNode.db 7 "aabbccddeeff" = .ok false ∧
      strangerAndNode.db.nodeSharingRequests.rows = [] ∧
      Along (step Deployment.platform) (Uninvolved 7 "aabbccddeeff") strangerAndNode
        [.user 7 (.initiateMapping 20 Deployment.token16 Deployment.token32 "aabbccddeeff"),
         .user 7 (.verifyMapping 21 Deployment.token16 Deployment.token32)] ∧
      Access.hasAccess (run (step Deployment.platform) strangerAndNode
        [.user 7 (.initiateMapping 20 Deployment.token16 Deployment.token32 "aabbccddeeff"),
         .user 7 (.verifyMapping 21 Deployment.token16 Deployment.token32)]).db 7
        "aabbccddeeff" = .ok true :=
  ⟨by decide +kernel,by decide +kernel,rfl,⟨trivial,trivial,trivial⟩,by decide +kernel⟩

end RainmakerServer.Participation
