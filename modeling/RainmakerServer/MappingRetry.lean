import RainmakerServer.Deployment
import RainmakerServer.GrantSteps

/-!
A device confirms a mapping by publishing the secret the phone gave it. Each
`PUT /user/nodes/mapping` stores a row of its own, and the ingestor looks the
secret up with a query that may match one row only: with several pending rows
for the same node and secret the query raises, and the message is dropped. The
row also says whether to add or to remove the mapping; nothing reads that.
-/
namespace RainmakerServer.MappingRetry
open Tables Runs Api

/-- A pending row for the node and the secret, expired or not. -/
structure Pending (n secret : Text) (row : MappingChallenge) : Prop where
  node : row.nodeId = some n
  secret : row.secretKey = some secret
  pending : row.status = .pending

/-- A request of user `u` that waits for the device. -/
structure Waiting (u : Uuid) (n secret : Text) (now : Time) (row : MappingChallenge) : Prop
    extends Pending n secret row where
  user : row.userId = u
  operation : row.operation = "add".toList
  valid : now ≤ row.expiresAt

/-- The message carries the secret and names no other node. -/
structure Confirms (pf : Platform) (n secret : Text) (payload : Bytes) : Prop where
  document : ∃ doc, Mqtt.parsePayload pf payload = some (.obj doc) ∧
    Dict.get? "secret_key".toList doc = some (.str secret) ∧
    (Dict.get? "node_id".toList doc = none ∨ Dict.get? "node_id".toList doc = some (.str n))

def mappingTopic (n : Text) : Text := Mqtt.Topics.nodeTopic n Mqtt.Topics.userMapping

/-! The rows of a reachable state. -/

def WellOpened (db : Db) : Prop := ∀ row ∈ db.mappingChallenges, GrantSteps.Opened db row

theorem step_keeps_opened {pf : Platform} {w : World} {c : Call} (opened : WellOpened w.db) :
    WellOpened (step pf w c).db := by
  intro row stored
  have earlier : GrantSteps.Opened w.db row := by
    rcases GrantSteps.challenge_origin stored with ⟨old,before,same⟩ | new
    · have was := opened old before
      rw [same]
      exact ⟨was.known,was.named,was.keyed⟩
    · exact new
  obtain ⟨user,present,key⟩ := Db.hasUser_iff.mp earlier.known
  have account : (∃ new ∈ (step pf w c).db.users, new.id = user.id ∧
      new.userName = user.userName) ∨ GrantSteps.AccountGone user (step pf w c).db :=
    GrantSteps.account_stays present
  rcases account with ⟨new,member,id,-⟩ | gone
  · exact ⟨Db.hasUser_iff.mpr ⟨new,member,id.trans key⟩,earlier.named,earlier.keyed⟩
  · exact absurd key.symm (gone.challenges row stored)

theorem reachable_opened (pf : Platform) (now : Time) (cs : List Call) :
    WellOpened (run (step pf) ⟨Db.empty,now⟩ cs).db := by
  apply run_preserves (step pf) (I := fun w => WellOpened w.db)
  · intro w c opened
    exact step_keeps_opened opened
  · intro row stored
    cases stored

/-! The message. -/

theorem slash_drops_message {pf : Platform} {db : Db} {now : Time} {mappingId : Uuid} {n : Text}
    {payload : Bytes} (slash : '/' ∈ n) :
    Mqtt.dispatch pf db now mappingId (mappingTopic n) payload = db := by
  unfold Mqtt.dispatch
  split
  · rfl
  · rename_i a suffix topical
    split
    · rfl
    · obtain ⟨eq,-,clean,-⟩ := Mqtt.split_topic_iff.mp topical
      obtain ⟨b,rest,first⟩ := Split.cut_of_mem slash
      obtain ⟨name,bare⟩ := Split.cut_some first
      -- the first slash of the name ends the name the topic is parsed to
      have levels : b ++ '/' :: (rest ++ '/' :: Mqtt.Topics.userMapping) = a ++ '/' :: suffix := by
        have same := eq
        unfold mappingTopic at same
        rw [Mqtt.node_topic_levels,Mqtt.node_topic_levels,name] at same
        simpa using same
      have parts := congrArg (Split.cut '/') levels
      rw [Split.cut_append bare,Split.cut_append clean] at parts
      simp only [Option.some.injEq, Prod.mk.injEq] at parts
      have ends : '/' :: Mqtt.Topics.userMapping <:+ suffix := ⟨rest,parts.2⟩
      have unhandled : ∀ known, ¬ '/' :: Mqtt.Topics.userMapping <:+ known → suffix ≠ known := by
        intro known miss same
        exact miss (same ▸ ends)
      unfold Mqtt.handle
      rw [if_neg (unhandled _ (by decide)),if_neg (not_or.mpr ⟨unhandled _ (by decide),
        unhandled _ (by decide)⟩),if_neg (unhandled _ (by decide)),
        if_neg (unhandled _ (by decide)),if_neg (unhandled _ (by decide))]
      rfl

theorem message_reaches_challenges {pf : Platform} {db : Db} {now : Time} {mappingId : Uuid}
    {n secret : Text} {payload : Bytes} (confirms : Confirms pf n secret payload)
    (named : n ≠ []) (clean : '/' ∉ n) (keyed : secret ≠ []) :
    Mqtt.dispatch pf db now mappingId (mappingTopic n) payload =
      (Mqtt.matchChallenge db now mappingId n secret).1 := by
  obtain ⟨doc,parsed,carried,own⟩ := confirms.document
  have topical : Mqtt.splitTopic (mappingTopic n) = some (n,Mqtt.Topics.userMapping) :=
    Mqtt.split_topic_iff.mpr ⟨rfl,named,clean,by decide⟩
  have truthy : (Json.str secret).truthy = true := by
    cases secret with
    | nil => exact absurd rfl keyed
    | cons c cs => rfl
  have honest : Mqtt.claimsOtherNode n doc = false := by
    unfold Mqtt.claimsOtherNode
    rcases own with absent | same
    · rw [absent]
    · rw [same]
      simp [Json.pyEq]
  have config : Mqtt.Topics.userMapping ≠ Mqtt.Topics.config := by decide
  have params : ¬ (Mqtt.Topics.userMapping = Mqtt.Topics.paramsLocal ∨
      Mqtt.Topics.userMapping = Mqtt.Topics.paramsLocalInit) := by decide
  simp only [Mqtt.dispatch, topical, parsed, Mqtt.handle, if_neg config, if_neg params, if_true,
    Mqtt.handleUserMapping, carried, truthy, honest, Bool.true_eq_false, Bool.false_eq_true,
    if_false]

theorem mem_pending {db : Db} {n secret : Text} {row : MappingChallenge} :
    row ∈ db.mappingChallenges.select (fun r =>
      r.secretKey == some secret && r.nodeId == some n && r.status == .pending) ↔
      row ∈ db.mappingChallenges ∧ Pending n secret row := by
  rw [Table.mem_select]
  simp only [Bool.and_eq_true, beq_iff_eq]
  constructor
  · rintro ⟨stored,hit⟩
    exact ⟨stored,hit.1.2,hit.1.1,hit.2⟩
  · rintro ⟨stored,hit⟩
    exact ⟨stored,⟨hit.secret,hit.node⟩,hit.pending⟩

theorem several_rows_drop_message {db : Db} {now : Time} {mappingId : Uuid} {n secret : Text}
    {a b : MappingChallenge} (ha : a ∈ db.mappingChallenges) (hb : b ∈ db.mappingChallenges)
    (first : Pending n secret a) (second : Pending n secret b) (different : a ≠ b) :
    (Mqtt.matchChallenge db now mappingId n secret).1 = db := by
  unfold Mqtt.matchChallenge
  rw [scalar_several (mem_pending.mpr ⟨ha,first⟩) (mem_pending.mpr ⟨hb,second⟩) different]
  rfl

theorem sole_row_is_completed {db : Db} {now : Time} {mappingId : Uuid} {u : Uuid}
    {n secret : Text} {row : MappingChallenge} (stored : row ∈ db.mappingChallenges)
    (pending : Pending n secret row) (user : row.userId = u) (valid : now ≤ row.expiresAt)
    (sole : ∀ r ∈ db.mappingChallenges, Pending n secret r → r = row)
    (opened : GrantSteps.Opened db row) (node : db.hasNode n = true)
    (fresh : ∀ m ∈ db.userNodeMappings, m.id ≠ mappingId) :
    Access.Owns (Mqtt.matchChallenge db now mappingId n secret).1 u n ∧
      ∃ r ∈ (Mqtt.matchChallenge db now mappingId n secret).1.mappingChallenges,
        r.id = row.id ∧ r.status = .completed := by
  have query := select_sole (t := db.mappingChallenges) (r := row)
    (p := fun r => r.secretKey == some secret && r.nodeId == some n && r.status == .pending)
    (by simp [Schema.conflict]) stored
    (Table.mem_select.mp (mem_pending.mpr ⟨stored,pending⟩)).2
    (by
      intro r member hit
      exact sole r member (mem_pending.mp (Table.mem_select.mpr ⟨member,hit⟩)).2)
  obtain ⟨db',ok,owns,challenges⟩ := @Access.finalise_mapping_succeeds db now mappingId row n
    pending.node opened.known node fresh
  have result : (Mqtt.matchChallenge db now mappingId n secret).1 = db' := by
    unfold Mqtt.matchChallenge
    rw [query]
    simp only [scalarOneOrNone, if_neg (Int.not_lt.mpr valid), ok]
    rfl
  rw [result]
  constructor
  · rw [← user]
    exact owns
  · rw [challenges]
    exact ⟨_,GrantSteps.set_challenge_sets stored,rfl,rfl⟩

/-- The user has the node, and one of the waiting requests is completed. -/
def Confirmed (w : World) (u : Uuid) (n secret : Text) (after : Db) : Prop :=
  Access.Owns after u n ∧ ∃ row ∈ w.db.mappingChallenges, Waiting u n secret w.now row ∧
    ∃ r ∈ after.mappingChallenges, r.id = row.id ∧ r.status = .completed

theorem unchanged_confirms_nothing {w : World} {u : Uuid} {n secret : Text} :
    ¬ Confirmed w u n secret w.db := by
  rintro ⟨-,row,stored,waiting,r,present,same,completed⟩
  have eq : r = row := Table.eq_of_conflict present stored (by simp [Schema.conflict, same])
  rw [eq,waiting.pending] at completed
  cases completed

/-- In a reachable state the device's message confirms a waiting request exactly
    when the name of the node is one topic level and no other row for the node
    and the secret is pending. -/
theorem confirmation_not_lost (pf : Platform) (now : Time) (cs : List Call) (u : Uuid)
    (n secret : Text) (mappingId : Uuid) (payload : Bytes)
    (node : (run (step pf) ⟨Db.empty,now⟩ cs).db.hasNode n = true)
    (asked : ∃ row ∈ (run (step pf) ⟨Db.empty,now⟩ cs).db.mappingChallenges,
      Waiting u n secret (run (step pf) ⟨Db.empty,now⟩ cs).now row)
    (confirms : Confirms pf n secret payload)
    (fresh : ∀ m ∈ (run (step pf) ⟨Db.empty,now⟩ cs).db.userNodeMappings, m.id ≠ mappingId) :
    Confirmed (run (step pf) ⟨Db.empty,now⟩ cs) u n secret
        (Mqtt.dispatch pf (run (step pf) ⟨Db.empty,now⟩ cs).db
          (run (step pf) ⟨Db.empty,now⟩ cs).now mappingId (mappingTopic n) payload) ↔
      '/' ∉ n ∧ ∀ a ∈ (run (step pf) ⟨Db.empty,now⟩ cs).db.mappingChallenges,
        ∀ b ∈ (run (step pf) ⟨Db.empty,now⟩ cs).db.mappingChallenges,
          Pending n secret a → Pending n secret b → a = b := by
  have opened := reachable_opened pf now cs
  generalize run (step pf) ⟨Db.empty,now⟩ cs = w at *
  obtain ⟨row,stored,waiting⟩ := asked
  have origin := opened row stored
  have named : n ≠ [] := by
    intro empty
    exact origin.named (by rw [waiting.node,empty])
  have keyed : secret ≠ [] := by
    intro empty
    exact origin.keyed (by rw [waiting.secret,empty])
  constructor
  · intro confirmed
    have clean : '/' ∉ n := by
      intro slash
      rw [slash_drops_message slash] at confirmed
      exact unchanged_confirms_nothing confirmed
    refine ⟨clean,?_⟩
    intro a ha b hb first second
    by_contra different
    rw [message_reaches_challenges confirms named clean keyed,
      several_rows_drop_message ha hb first second different] at confirmed
    exact unchanged_confirms_nothing confirmed
  · rintro ⟨clean,sole⟩
    rw [message_reaches_challenges confirms named clean keyed]
    obtain ⟨owns,completed⟩ := sole_row_is_completed stored waiting.toPending waiting.user
      waiting.valid (fun r member pending => sole r member row stored pending waiting.toPending)
      origin node fresh
    exact ⟨owns,row,stored,waiting,completed⟩

/-- What a confirmed request is to come to. -/
structure Executed (u : Uuid) (n : Text) (row : MappingChallenge) (after : Db) : Prop where
  completed : ∃ r ∈ after.mappingChallenges, r.id = row.id ∧ r.status = .completed
  added : row.operation = "add".toList → Access.Owns after u n
  removed : row.operation = "remove".toList → ¬ Access.Owns after u n

/-- In a reachable state the device's message executes the one pending request
    exactly when the name of the node is one topic level and the request is not
    a removal. -/
theorem operation_executed_iff (pf : Platform) (now : Time) (cs : List Call) (u : Uuid)
    (n secret : Text) (mappingId : Uuid) (payload : Bytes) (row : MappingChallenge)
    (node : (run (step pf) ⟨Db.empty,now⟩ cs).db.hasNode n = true)
    (stored : row ∈ (run (step pf) ⟨Db.empty,now⟩ cs).db.mappingChallenges)
    (pending : Pending n secret row) (user : row.userId = u)
    (valid : (run (step pf) ⟨Db.empty,now⟩ cs).now ≤ row.expiresAt)
    (sole : ∀ r ∈ (run (step pf) ⟨Db.empty,now⟩ cs).db.mappingChallenges,
      Pending n secret r → r = row)
    (confirms : Confirms pf n secret payload)
    (fresh : ∀ m ∈ (run (step pf) ⟨Db.empty,now⟩ cs).db.userNodeMappings, m.id ≠ mappingId) :
    Executed u n row (Mqtt.dispatch pf (run (step pf) ⟨Db.empty,now⟩ cs).db
        (run (step pf) ⟨Db.empty,now⟩ cs).now mappingId (mappingTopic n) payload) ↔
      '/' ∉ n ∧ row.operation ≠ "remove".toList := by
  have origin := reachable_opened pf now cs row stored
  generalize run (step pf) ⟨Db.empty,now⟩ cs = w at *
  have named : n ≠ [] := by
    intro empty
    exact origin.named (by rw [pending.node,empty])
  have keyed : secret ≠ [] := by
    intro empty
    exact origin.keyed (by rw [pending.secret,empty])
  by_cases slash : '/' ∈ n
  · rw [slash_drops_message slash]
    simp only [slash, not_true_eq_false, false_and, iff_false]
    rintro ⟨⟨r,present,same,completed⟩,-,-⟩
    have eq : r = row := Table.eq_of_conflict present stored (by simp [Schema.conflict, same])
    rw [eq,pending.pending] at completed
    cases completed
  · rw [message_reaches_challenges confirms named slash keyed]
    obtain ⟨owns,completed⟩ :=
      sole_row_is_completed stored pending user valid sole origin node fresh
    constructor
    · intro executed
      exact ⟨slash,fun removal => executed.removed removal owns⟩
    · rintro ⟨-,kept⟩
      exact ⟨completed,fun _ => owns,fun removal => absurd removal kept⟩

def emptyBody : Bytes := [123,125]

def secretBody : Bytes :=
  ("\x7b\"secret_key\":\"k3y\"\x7d" : Text).map fun c => UInt8.ofNat c.toNat

def platform : Platform := {Deployment.platform with
  jsonLoads := fun body => if body = emptyBody then some (.obj [])
    else if body = secretBody then some (.obj [("secret_key",.str "k3y")]) else none}

def askedOnce : List Call :=
  [.signup 7 "salt" "123456" "eve@example.com" "password",
   .confirmSignup "eve@example.com" "123456",
   .dispatch 10 "node/aabbccddeeff/config" emptyBody,
   .user 7 (.putUserNodeMapping 20 Deployment.token16 "aabbccddeeff" "k3y" "add")]

def askedTwice : List Call := askedOnce ++
  [.user 7 (.putUserNodeMapping 21 "EBESExQVFhcYGRobHB0eHw" "aabbccddeeff" "k3y" "add")]

theorem secret_body_confirms : Confirms platform "aabbccddeeff" "k3y" secretBody :=
  ⟨[("secret_key".toList,.str "k3y")],rfl,rfl,Or.inl rfl⟩

theorem asked_once_row :
    ∃ row, (run (step platform) ⟨Db.empty,0⟩ askedOnce).db.mappingChallenges.rows = [row] ∧
      row.nodeId = some "aabbccddeeff".toList ∧ row.secretKey = some "k3y".toList ∧
      row.status = .pending ∧ row.userId = 7 ∧ row.operation = "add".toList ∧
      (0 : Int) ≤ row.expiresAt := ⟨_,rfl,by decide +kernel⟩

theorem asked_once_unmapped :
    (run (step platform) ⟨Db.empty,0⟩ askedOnce).db.userNodeMappings.rows = [] := by
  decide +kernel

theorem single_request_is_confirmed :
    Confirmed (run (step platform) ⟨Db.empty,0⟩ askedOnce) 7 "aabbccddeeff" "k3y"
      (Mqtt.dispatch platform (run (step platform) ⟨Db.empty,0⟩ askedOnce).db
        (run (step platform) ⟨Db.empty,0⟩ askedOnce).now 30 (mappingTopic "aabbccddeeff")
        secretBody) := by
  obtain ⟨row,only,node,secret,pending,user,operation,valid⟩ := asked_once_row
  have stored : row ∈ (run (step platform) ⟨Db.empty,0⟩ askedOnce).db.mappingChallenges := by
    rw [Table.mem_def,only]
    exact List.mem_singleton_self row
  apply (confirmation_not_lost platform 0 askedOnce 7 "aabbccddeeff" "k3y" 30 secretBody
    (by decide +kernel) ⟨row,stored,⟨node,secret,pending⟩,user,operation,valid⟩
    secret_body_confirms (by
      intro m member
      rw [Table.mem_def,asked_once_unmapped] at member
      cases member)).mpr
  refine ⟨by decide,?_⟩
  intro a ha b hb _ _
  rw [Table.mem_def,only,List.mem_singleton] at ha hb
  rw [ha,hb]

/-- After a retry the same message confirms nothing. -/
theorem retried_request_is_lost :
    (run (step platform) ⟨Db.empty,0⟩ askedTwice).db.hasNode "aabbccddeeff" = true ∧
      (∃ row ∈ (run (step platform) ⟨Db.empty,0⟩ askedTwice).db.mappingChallenges,
        Waiting 7 "aabbccddeeff" "k3y" (run (step platform) ⟨Db.empty,0⟩ askedTwice).now row) ∧
      (∀ row ∈ (run (step platform) ⟨Db.empty,0⟩ askedTwice).db.mappingChallenges,
        Pending "aabbccddeeff" "k3y" row → row.userId = 7) ∧
      Confirms platform "aabbccddeeff" "k3y" secretBody ∧
      ¬ Confirmed (run (step platform) ⟨Db.empty,0⟩ askedTwice) 7 "aabbccddeeff" "k3y"
        (Mqtt.dispatch platform (run (step platform) ⟨Db.empty,0⟩ askedTwice).db
          (run (step platform) ⟨Db.empty,0⟩ askedTwice).now 30 (mappingTopic "aabbccddeeff")
          secretBody) := by
  have waiting : ∃ row ∈ (run (step platform) ⟨Db.empty,0⟩ askedTwice).db.mappingChallenges.rows,
      row.nodeId = some "aabbccddeeff".toList ∧ row.secretKey = some "k3y".toList ∧
      row.status = .pending ∧ row.userId = 7 ∧ row.operation = "add".toList ∧
      (0 : Int) ≤ row.expiresAt := by decide +kernel
  obtain ⟨row,stored,node,secret,pending,user,operation,valid⟩ := waiting
  have own : ∀ row ∈ (run (step platform) ⟨Db.empty,0⟩ askedTwice).db.mappingChallenges.rows,
      row.userId = 7 := by decide +kernel
  have unmapped : (Mqtt.dispatch platform (run (step platform) ⟨Db.empty,0⟩ askedTwice).db
      (run (step platform) ⟨Db.empty,0⟩ askedTwice).now 30 (mappingTopic "aabbccddeeff")
      secretBody).userNodeMappings.rows = [] := by decide +kernel
  refine ⟨by decide +kernel,⟨row,stored,⟨node,secret,pending⟩,user,operation,valid⟩,
    fun row member _ => own row member,secret_body_confirms,?_⟩
  rintro ⟨⟨m,member,-⟩,-⟩
  rw [Table.mem_def,unmapped] at member
  cases member

theorem addition_is_executed : ∃ row,
    row ∈ (run (step platform) ⟨Db.empty,0⟩ askedOnce).db.mappingChallenges ∧
      row.operation = "add".toList ∧
      Executed 7 "aabbccddeeff" row
        (Mqtt.dispatch platform (run (step platform) ⟨Db.empty,0⟩ askedOnce).db
          (run (step platform) ⟨Db.empty,0⟩ askedOnce).now 30 (mappingTopic "aabbccddeeff")
          secretBody) := by
  obtain ⟨row,only,node,secret,pending,user,operation,valid⟩ := asked_once_row
  have stored : row ∈ (run (step platform) ⟨Db.empty,0⟩ askedOnce).db.mappingChallenges := by
    rw [Table.mem_def,only]
    exact List.mem_singleton_self row
  refine ⟨row,stored,operation,?_⟩
  apply (operation_executed_iff platform 0 askedOnce 7 "aabbccddeeff" "k3y" 30 secretBody row
    (by decide +kernel) stored ⟨node,secret,pending⟩ user valid (by
      intro r member _
      rw [Table.mem_def,only,List.mem_singleton] at member
      exact member) secret_body_confirms (by
      intro m member
      rw [Table.mem_def,asked_once_unmapped] at member
      cases member)).mpr
  exact ⟨by decide,by rw [operation]; decide⟩

def removalAsked : List Call := askedOnce ++
  [.dispatch 30 (mappingTopic "aabbccddeeff") secretBody,
   .user 7 (.putUserNodeMapping 21 "EBESExQVFhcYGRobHB0eHw" "aabbccddeeff" "k3y" "remove")]

/-- The removal is reported as completed, and the mapping is still there. -/
theorem removal_is_not_executed : ∃ row,
    row ∈ (run (step platform) ⟨Db.empty,0⟩ removalAsked).db.mappingChallenges ∧
      Pending "aabbccddeeff" "k3y" row ∧ row.userId = 7 ∧ row.operation = "remove".toList ∧
      (run (step platform) ⟨Db.empty,0⟩ removalAsked).now ≤ row.expiresAt ∧
      (∀ r ∈ (run (step platform) ⟨Db.empty,0⟩ removalAsked).db.mappingChallenges,
        Pending "aabbccddeeff" "k3y" r → r = row) ∧
      ¬ Executed 7 "aabbccddeeff" row
        (Mqtt.dispatch platform (run (step platform) ⟨Db.empty,0⟩ removalAsked).db
          (run (step platform) ⟨Db.empty,0⟩ removalAsked).now 31 (mappingTopic "aabbccddeeff")
          secretBody) := by
  have rows : ∃ row, row ∈ (run (step platform) ⟨Db.empty,0⟩
      removalAsked).db.mappingChallenges.rows ∧ row.nodeId = some "aabbccddeeff".toList ∧
      row.secretKey = some "k3y".toList ∧ row.status = .pending ∧ row.userId = 7 ∧
      row.operation = "remove".toList ∧ (0 : Int) ≤ row.expiresAt ∧
      ∀ r ∈ (run (step platform) ⟨Db.empty,0⟩ removalAsked).db.mappingChallenges.rows,
        r.status = .pending → r = row := by decide +kernel
  have mapped : ∃ m ∈ (Mqtt.dispatch platform
      (run (step platform) ⟨Db.empty,0⟩ removalAsked).db
      (run (step platform) ⟨Db.empty,0⟩ removalAsked).now 31 (mappingTopic "aabbccddeeff")
      secretBody).userNodeMappings.rows, m.userId = 7 ∧ m.nodeId = "aabbccddeeff".toList := by
    decide +kernel
  obtain ⟨row,stored,node,secret,pending,user,operation,valid,sole⟩ := rows
  refine ⟨row,stored,⟨node,secret,pending⟩,user,operation,valid,?_,?_⟩
  · intro r member other
    exact sole r member other.pending
  · intro executed
    exact executed.removed operation mapped

end RainmakerServer.MappingRetry
