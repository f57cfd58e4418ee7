import RainmakerServer.Deployment
import RainmakerServer.Lib.Interleaving
import RainmakerServer.Services.Access

/-!
An invitation answered by several calls at once. A call reads the request and
the share that may exist, and commits later; nothing locks the request between
the two, and the commit overwrites its status whatever that is by then. So a
decline that read the request in time undoes an acceptance that has already
been reported, while the share it granted stays.
-/
namespace RainmakerServer.ShareRace
open Tables Runs Interleaving Access

/-! The two steps of a call. -/

inductive Seen where
  | refused (e : Exc)
  | expired (row : NodeSharingRequest)
  | accepting (row : NodeSharingRequest) (existing : Bool)
  | declining (row : NodeSharingRequest)

def readRequest (db : Db) (now : Time) (inviteeId : Uuid) (inviteeName : Text) (requestId : Uuid)
    (accept : Bool) : Seen :=
  match scalarOneOrNone (db.nodeSharingRequests.select fun r => r.id == requestId) with
  | .error e => .refused (.database e)
  | .ok none => .refused (.rainmakerError 404 100015 "Request not found")
  | .ok (some row) =>
    if row.toUserName ≠ inviteeName then
      .refused (.rainmakerError 403 100070 "Request is for a different user")
    else if row.status ≠ .pending then .refused (invalidRequest "Request already resolved")
    else if row.expiresAt < now then .expired row
    else if accept then match scalarOneOrNone (db.nodeSharing.select fun r =>
        r.nodeId == row.nodeId && r.toUserId == inviteeId) with
      | .error e => .refused (.database e)
      | .ok share => .accepting row share.isSome
    else .declining row

def shareOf (row : NodeSharingRequest) (shareId inviteeId : Uuid) : NodeSharing :=
  {id := shareId, nodeId := row.nodeId, fromUserId := row.fromUserId, toUserId := inviteeId}

def commitRequest (db : Db) (shareId inviteeId : Uuid) : Seen → Reply RequestStatus
  | .refused e => raise db e
  | .expired row => raise (setRequest db row.id .expired) (invalidRequest "Request expired")
  | .accepting row existing =>
    if existing then done (setRequest db row.id .accepted) .accepted
    else match addSharing db (shareOf row shareId inviteeId) with
    | .error e => raise db e
    | .ok db' => done (setRequest db' row.id .accepted) .accepted
  | .declining row => done (setRequest db row.id .declined) .declined

theorem read_then_commit (db : Db) (now : Time) (shareId inviteeId : Uuid) (name : Text)
    (requestId : Uuid) (accept : Bool) :
    commitRequest db shareId inviteeId (readRequest db now inviteeId name requestId accept) =
      acceptOrDecline db now shareId inviteeId name requestId accept := by
  unfold readRequest acceptOrDecline
  cases scalarOneOrNone (db.nodeSharingRequests.select fun r => r.id == requestId) with
  | error e => rfl
  | ok found =>
    cases found with
    | none => rfl
    | some row =>
      dsimp only
      by_cases other : row.toUserName ≠ name
      · simp only [if_pos other, commitRequest]
      by_cases resolved : row.status ≠ .pending
      · simp only [if_neg other, if_pos resolved, commitRequest]
      by_cases late : row.expiresAt < now
      · simp only [if_neg other, if_neg resolved, if_pos late, commitRequest]
      simp only [if_neg other, if_neg resolved, if_neg late]
      cases accept with
      | false => rfl
      | true =>
        simp only [if_true]
        cases scalarOneOrNone (db.nodeSharing.select fun r =>
            r.nodeId == row.nodeId && r.toUserId == inviteeId) with
        | error e => rfl
        | ok share =>
          cases share with
          | none => rfl
          | some s => rfl

/-! Several calls. -/

/-- A call of the invitee: its reading of the clock, the key it draws for a
    share, and what it answers. -/
structure Attempt where
  now : Time
  shareId : Uuid
  accept : Bool

structure Desk (ι : Type) where
  db : Db
  reported : ι → Option (Except Exc RequestStatus)

section
variable {ι : Type} [DecidableEq ι]

def opened (db : Db) : Desk ι := ⟨db,fun _ => none⟩

def resolvers (row : NodeSharingRequest) (inviteeId : Uuid) (attempts : ι → Attempt) (i : ι) :
    Interleaving.Call (Desk ι) Seen where
  read d := readRequest d.db (attempts i).now inviteeId row.toUserName row.id (attempts i).accept
  commit seen d :=
    let reply := commitRequest d.db (attempts i).shareId inviteeId seen
    ⟨reply.1,Function.update d.reported i (some reply.2)⟩

def StatusIs (db : Db) (requestId : Uuid) (status : RequestStatus) : Prop :=
  ∃ r ∈ db.nodeSharingRequests, r.id = requestId ∧ r.status = status

def Reported (attempts : ι → Attempt) (d : Desk ι) : Prop :=
  ∃ i, (attempts i).accept = true ∧ d.reported i = some (.ok .accepted)

/-- The request is accepted when and only when a call said so, and a declined
    one has granted nothing beyond the shares of `start`. -/
structure ResolvedOnce (attempts : ι → Attempt) (requestId : Uuid) (start : Db) (d : Desk ι) :
    Prop where
  accepted : StatusIs d.db requestId .accepted ↔ Reported attempts d
  declined : StatusIs d.db requestId .declined → ∀ s ∈ d.db.nodeSharing, s ∈ start.nodeSharing

/-- A decline that has read a pending request commits although the request has
    been accepted in between. -/
def Overwrites (requestId : Uuid) (c : Config ι (Desk ι) Seen) : Action ι → Prop
  | .read _ => False
  | .commit i => (∃ row, c.phase i = .holding (.declining row)) ∧
    StatusIs c.shared.db requestId .accepted

structure Storable (db : Db) (share : NodeSharing) : Prop where
  fits : Schema.fits share = true
  free : ∀ s ∈ db.nodeSharing, Schema.conflict s (Schema.stored share) = false
  present : (db.hasNode (Schema.stored share).nodeId && db.hasUser share.fromUserId &&
    db.hasUser share.toUserId) = true

/-- An accept call that has read a pending request commits, and saw a share or
    can store its own. -/
def GoesThrough (inviteeId : Uuid) (attempts : ι → Attempt) (c : Config ι (Desk ι) Seen) :
    Action ι → Prop
  | .read _ => False
  | .commit i => ∃ row existing, c.phase i = .holding (.accepting row existing) ∧
    (existing = true ∨ Storable c.shared.db (shareOf row (attempts i).shareId inviteeId))

/-! What is kept. -/

variable {row : NodeSharingRequest} {inviteeId : Uuid} {attempts : ι → Attempt} {start : Db}

structure Kept (row : NodeSharingRequest) (attempts : ι → Attempt) (start : Db)
    (c : Config ι (Desk ι) Seen) (status : RequestStatus) : Prop where
  stored : {row with status := status} ∈ c.shared.db.nodeSharingRequests
  settled : status = .pending ∨ status = .accepted ∨ status = .declined
  held : ∀ i seen, c.phase i = .holding seen → (∃ e, seen = .refused e) ∨
    (∃ existing, (attempts i).accept = true ∧ seen = .accepting row existing) ∨
    (attempts i).accept = false ∧ seen = .declining row
  silent : ∀ i, c.phase i ≠ .finished → c.shared.reported i = none
  told : status = .accepted → Reported attempts c.shared
  resolved : Reported attempts c.shared → status ≠ .pending
  shares : ¬ Reported attempts c.shared → c.shared.db.nodeSharing = start.nodeSharing

theorem status_is_iff {db : Db} {status other : RequestStatus}
    (stored : {row with status := status} ∈ db.nodeSharingRequests) :
    StatusIs db row.id other ↔ status = other := by
  constructor
  · rintro ⟨r,there,key,is⟩
    have same : r = {row with status := status} :=
      Table.eq_of_conflict there stored (by simp [Schema.conflict, key])
    rw [same] at is
    exact is
  · intro is
    exact ⟨_,stored,rfl,is⟩

theorem set_request_stored {db : Db} {status new : RequestStatus}
    (stored : {row with status := status} ∈ db.nodeSharingRequests) :
    {row with status := new} ∈ (setRequest db row.id new).nodeSharingRequests := by
  unfold setRequest
  rw [Table.mem_update]
  exact ⟨_,stored,by simp⟩

theorem read_request_cases {db : Db} {now : Time} {accept : Bool} {status : RequestStatus}
    (stored : {row with status := status} ∈ db.nodeSharingRequests)
    (pending : row.status = .pending) (unexpired : now ≤ row.expiresAt) :
    (∃ e, readRequest db now inviteeId row.toUserName row.id accept = .refused e) ∨
    (∃ existing, accept = true ∧
      readRequest db now inviteeId row.toUserName row.id accept = .accepting row existing) ∨
    accept = false ∧ readRequest db now inviteeId row.toUserName row.id accept = .declining row := by
  have found : scalarOneOrNone (db.nodeSharingRequests.select fun r => r.id == row.id) =
      .ok (some {row with status := status}) := by
    rw [select_sole (r := {row with status := status}) (by simp [Schema.conflict]) stored (by simp)]
    · rfl
    · intro a there key
      exact Table.eq_of_conflict there stored (by simpa [Schema.conflict] using key)
  unfold readRequest
  simp only [found]
  by_cases open' : status = .pending
  · have same : {row with status := status} = row := by rw [open',← pending]
    rw [same]
    rw [if_neg (by simp),if_neg (by simp [open']),if_neg (Int.not_lt.mpr unexpired)]
    cases accept with
    | false => exact Or.inr (Or.inr ⟨rfl,rfl⟩)
    | true =>
      simp only [if_true]
      split
      · exact Or.inl ⟨_,rfl⟩
      · exact Or.inr (Or.inl ⟨_,trivial,rfl⟩)
  · left
    simp [open']

theorem add_sharing_cases (db : Db) (share : NodeSharing) :
    (Storable db share ∧ ∃ t, db.nodeSharing.insert share = .ok t ∧
      addSharing db share = .ok {db with nodeSharing := t}) ∨
    ¬ Storable db share ∧ ∃ e, addSharing db share = .error e := by
  unfold addSharing commitInsert
  cases inserted : db.nodeSharing.insert share with
  | error e =>
    right
    refine ⟨?_,_,rfl⟩
    intro storable
    obtain ⟨t,ok⟩ := Table.insert_succeeds storable.fits storable.free
    rw [inserted] at ok
    cases ok
  | ok t =>
    obtain ⟨-,fits,free⟩ := Table.insert_ok inserted
    dsimp only
    split
    · rename_i present
      exact Or.inl ⟨⟨fits,free,present⟩,t,rfl,rfl⟩
    · rename_i absent
      right
      refine ⟨?_,_,rfl⟩
      intro storable
      exact absent storable.present

variable (row inviteeId) in
theorem commit_accepting (db : Db) (shareId : Uuid) (existing : Bool) :
    ((existing = true ∨ Storable db (shareOf row shareId inviteeId)) ∧
      ∃ db', db'.nodeSharingRequests = db.nodeSharingRequests ∧
        commitRequest db shareId inviteeId (.accepting row existing) =
          done (setRequest db' row.id .accepted) .accepted) ∨
    ¬ (existing = true ∨ Storable db (shareOf row shareId inviteeId)) ∧
      ∃ e, commitRequest db shareId inviteeId (.accepting row existing) = raise db e := by
  unfold commitRequest
  cases existing with
  | true => exact Or.inl ⟨Or.inl rfl,db,rfl,rfl⟩
  | false =>
    rcases add_sharing_cases db (shareOf row shareId inviteeId) with
      ⟨storable,t,-,added⟩ | ⟨refused,e,failed⟩
    · left
      refine ⟨Or.inr storable,_,?_,by simp only [added]; rfl⟩
      rfl
    · right
      refine ⟨by simpa using refused,e,?_⟩
      simp [failed]

/-! One action. -/

theorem reported_update {d : Desk ι} {i : ι} {db : Db} {reply : Except Exc RequestStatus}
    (silent : d.reported i = none) :
    Reported attempts ⟨db,Function.update d.reported i (some reply)⟩ ↔
      Reported attempts d ∨ (attempts i).accept = true ∧ reply = .ok .accepted := by
  constructor
  · rintro ⟨j,accepts,told⟩
    by_cases same : j = i
    · subst same
      simp only [Function.update_self, Option.some.injEq] at told
      exact Or.inr ⟨accepts,told⟩
    · simp only [Function.update_of_ne same] at told
      exact Or.inl ⟨j,accepts,told⟩
  · rintro (⟨j,accepts,told⟩ | ⟨accepts,told⟩)
    · have other : j ≠ i := by
        intro same
        rw [same,silent] at told
        cases told
      exact ⟨j,accepts,by simpa [Function.update_of_ne other] using told⟩
    · exact ⟨i,accepts,by simp [told]⟩

theorem held_after_commit {c : Config ι (Desk ι) Seen} {status : RequestStatus} {i : ι} {d : Desk ι}
    (kept : Kept row attempts start c status) (reply : Except Exc RequestStatus)
    (reported : d.reported = Function.update c.shared.reported i (some reply)) :
    (∀ j seen, Function.update c.phase i .finished j = .holding seen → (∃ e, seen = .refused e) ∨
      (∃ existing, (attempts j).accept = true ∧ seen = .accepting row existing) ∨
      (attempts j).accept = false ∧ seen = .declining row) ∧
    ∀ j, Function.update c.phase i .finished j ≠ .finished → d.reported j = none := by
  constructor
  · intro j seen holding
    by_cases same : j = i
    · subst same
      simp at holding
    · rw [Function.update_of_ne same] at holding
      exact kept.held j seen holding
  · intro j running
    by_cases same : j = i
    · subst same
      simp at running
    · rw [Function.update_of_ne same] at running
      rw [reported,Function.update_of_ne same]
      exact kept.silent j running

def Undone (attempts : ι → Attempt) (c : Config ι (Desk ι) Seen) (status : RequestStatus) : Prop :=
  status = .declined ∧ Reported attempts c.shared

variable (inviteeId) in
theorem read_step {c : Config ι (Desk ι) Seen} {status : RequestStatus} (i : ι)
    (kept : Kept row attempts start c status) (pending : row.status = .pending)
    (unexpired : ∀ i, (attempts i).now ≤ row.expiresAt) :
    Kept row attempts start (act (resolvers row inviteeId attempts) c (.read i)) status ∧
      (act (resolvers row inviteeId attempts) c (.read i)).shared = c.shared := by
  simp only [act]
  split
  · rename_i waiting
    refine ⟨⟨kept.stored,kept.settled,?_,?_,kept.told,kept.resolved,kept.shares⟩,rfl⟩
    · intro j seen holding
      by_cases same : j = i
      · subst same
        simp only [Function.update_self, Phase.holding.injEq] at holding
        rw [← holding]
        exact read_request_cases kept.stored pending (unexpired j)
      · simp only [Function.update_of_ne same] at holding
        exact kept.held j seen holding
    · intro j running
      by_cases same : j = i
      · subst same
        exact kept.silent j (by rw [waiting]; simp)
      · simp only [Function.update_of_ne same] at running
        exact kept.silent j running
  · exact ⟨kept,rfl⟩

section
variable {c : Config ι (Desk ι) Seen} {status : RequestStatus} {i : ι}

variable (inviteeId) in
theorem refused_step {seen : Seen} {e : Exc} (kept : Kept row attempts start c status)
    (phase : c.phase i = .holding seen)
    (committed : commitRequest c.shared.db (attempts i).shareId inviteeId seen =
      raise c.shared.db e) :
    Kept row attempts start (act (resolvers row inviteeId attempts) c (.commit i)) status ∧
      (Undone attempts (act (resolvers row inviteeId attempts) c (.commit i)) status ↔
        Undone attempts c status) := by
  have silent : c.shared.reported i = none := kept.silent i (by rw [phase]; simp)
  have told : Reported attempts
      ⟨c.shared.db,Function.update c.shared.reported i (some (.error e))⟩ ↔
      Reported attempts c.shared := by
    rw [reported_update silent]
    simp
  obtain ⟨held,quiet⟩ := held_after_commit (d := ⟨c.shared.db,_⟩) kept (.error e) rfl
  simp only [act, phase, resolvers, committed, raise]
  refine ⟨⟨kept.stored,kept.settled,held,quiet,?_,?_,?_⟩,?_⟩
  · intro accepted
    exact told.mpr (kept.told accepted)
  · intro reported
    exact kept.resolved (told.mp reported)
  · intro unreported
    exact kept.shares fun reported => unreported (told.mpr reported)
  · unfold Undone
    rw [told]

theorem accepted_step {existing : Bool} {db' : Db} (kept : Kept row attempts start c status)
    (phase : c.phase i = .holding (.accepting row existing)) (accepts : (attempts i).accept = true)
    (requests : db'.nodeSharingRequests = c.shared.db.nodeSharingRequests)
    (committed : commitRequest c.shared.db (attempts i).shareId inviteeId
      (.accepting row existing) = done (setRequest db' row.id .accepted) .accepted) :
    Kept row attempts start (act (resolvers row inviteeId attempts) c (.commit i)) .accepted := by
  have silent : c.shared.reported i = none := kept.silent i (by rw [phase]; simp)
  have reported : Reported attempts ⟨setRequest db' row.id .accepted,
      Function.update c.shared.reported i (some (.ok .accepted))⟩ :=
    (reported_update silent).mpr (Or.inr ⟨accepts,rfl⟩)
  have stored : {row with status := status} ∈ db'.nodeSharingRequests := by
    rw [requests]
    exact kept.stored
  obtain ⟨held,quiet⟩ := held_after_commit (d := ⟨setRequest db' row.id .accepted,_⟩) kept
    (.ok .accepted) rfl
  simp only [act, phase, resolvers, committed, done]
  exact ⟨set_request_stored stored,Or.inr (Or.inl rfl),held,quiet,fun _ => reported,by simp,
    fun unreported => absurd reported unreported⟩

variable (inviteeId) in
theorem declined_step (kept : Kept row attempts start c status)
    (phase : c.phase i = .holding (.declining row)) :
    Kept row attempts start (act (resolvers row inviteeId attempts) c (.commit i)) .declined ∧
      (Undone attempts (act (resolvers row inviteeId attempts) c (.commit i)) .declined ↔
        Reported attempts c.shared) := by
  have silent : c.shared.reported i = none := kept.silent i (by rw [phase]; simp)
  have told : Reported attempts ⟨setRequest c.shared.db row.id .declined,
      Function.update c.shared.reported i (some (.ok .declined))⟩ ↔
      Reported attempts c.shared := by
    rw [reported_update silent]
    simp
  obtain ⟨held,quiet⟩ := held_after_commit (d := ⟨setRequest c.shared.db row.id .declined,_⟩) kept
    (.ok .declined) rfl
  simp only [act, phase, resolvers, commitRequest, done]
  refine ⟨⟨set_request_stored kept.stored,Or.inr (Or.inr rfl),held,quiet,by simp,by simp,?_⟩,?_⟩
  · intro unreported
    exact kept.shares fun reported => unreported (told.mpr reported)
  · unfold Undone
    rw [told]
    simp

variable (inviteeId) in
theorem act_step (a : Action ι) (kept : Kept row attempts start c status)
    (pending : row.status = .pending) (unexpired : ∀ i, (attempts i).now ≤ row.expiresAt) :
    ∃ status', Kept row attempts start (act (resolvers row inviteeId attempts) c a) status' ∧
      (Undone attempts (act (resolvers row inviteeId attempts) c a) status' ↔
        Overwrites row.id c a ∨
          Undone attempts c status ∧ ¬ GoesThrough inviteeId attempts c a) := by
  cases a with
  | read i =>
    obtain ⟨after,same⟩ := read_step inviteeId i kept pending unexpired
    refine ⟨status,after,?_⟩
    unfold Undone
    rw [same]
    simp [Overwrites, GoesThrough]
  | commit i =>
    cases phase : c.phase i with
    | waiting => exact ⟨status,by simpa [act, phase] using kept,by
        simp [act, phase, Overwrites, GoesThrough, Undone]⟩
    | finished => exact ⟨status,by simpa [act, phase] using kept,by
        simp [act, phase, Overwrites, GoesThrough, Undone]⟩
    | holding seen =>
      rcases kept.held i seen phase with ⟨e,eq⟩ | ⟨existing,accepts,eq⟩ | ⟨declines,eq⟩
      · subst eq
        obtain ⟨after,same⟩ := refused_step inviteeId kept phase rfl
        refine ⟨status,after,?_⟩
        rw [same]
        simp [Overwrites, GoesThrough, phase]
      · subst eq
        have goes : GoesThrough inviteeId attempts c (.commit i) ↔ (existing = true ∨
            Storable c.shared.db (shareOf row (attempts i).shareId inviteeId)) := by
          simp only [GoesThrough, phase]
          constructor
          · rintro ⟨r,e,same,either⟩
            cases same
            exact either
          · intro either
            exact ⟨row,existing,rfl,either⟩
        rcases commit_accepting row inviteeId c.shared.db
          (attempts i).shareId existing with ⟨through,db',requests,committed⟩ | ⟨stuck,e,committed⟩
        · refine ⟨.accepted,accepted_step kept phase accepts requests committed,?_⟩
          rw [goes]
          simp [Undone, Overwrites, phase, through]
        · obtain ⟨after,same⟩ := refused_step inviteeId kept phase committed
          refine ⟨status,after,?_⟩
          rw [same,goes]
          simp [Overwrites, phase, stuck]
      · subst eq
        obtain ⟨after,same⟩ := declined_step inviteeId kept phase
        refine ⟨.declined,after,?_⟩
        rw [same]
        simp only [Overwrites, GoesThrough, phase]
        rw [status_is_iff kept.stored]
        constructor
        · intro reported
          rcases kept.settled with still | accepted | declined
          · exact absurd still (kept.resolved reported)
          · exact Or.inl ⟨⟨row,rfl⟩,accepted⟩
          · exact Or.inr ⟨⟨declined,reported⟩,by simp⟩
        · rintro (⟨-,accepted⟩ | ⟨⟨-,reported⟩,-⟩)
          · exact kept.told accepted
          · exact reported

omit [DecidableEq ι] in
theorem resolved_once_of_kept (kept : Kept row attempts start c status) :
    ResolvedOnce attempts row.id start c.shared ↔ ¬ Undone attempts c status := by
  constructor
  · rintro ⟨accepted,-⟩ ⟨declined,reported⟩
    have contrary := (status_is_iff kept.stored).mp (accepted.mpr reported)
    rw [declined] at contrary
    cases contrary
  · intro intact
    constructor
    · rw [status_is_iff kept.stored]
      constructor
      · exact kept.told
      · intro reported
        rcases kept.settled with still | accepted | declined
        · exact absurd still (kept.resolved reported)
        · exact accepted
        · exact absurd ⟨declined,reported⟩ intact
    · rw [status_is_iff kept.stored]
      intro declined s stored
      have unreported : ¬ Reported attempts c.shared := fun reported => intact ⟨declined,reported⟩
      rw [kept.shares unreported] at stored
      exact stored

end

variable (inviteeId) in
theorem run_kept (db : Db) (stored : row ∈ db.nodeSharingRequests) (pending : row.status = .pending)
    (unexpired : ∀ i, (attempts i).now ≤ row.expiresAt) (schedule : List (Action ι)) :
    ∃ status, Kept row attempts db
        (run (act (resolvers row inviteeId attempts)) (Config.start (opened db)) schedule) status ∧
      (Undone attempts
          (run (act (resolvers row inviteeId attempts)) (Config.start (opened db)) schedule) status ↔
        Since (act (resolvers row inviteeId attempts)) (Overwrites row.id)
          (GoesThrough inviteeId attempts) (Config.start (opened db)) schedule) := by
  have none : ¬ Reported attempts (opened db : Desk ι) := by
    rintro ⟨i,-,told⟩
    cases told
  induction schedule using List.reverseRecOn with
  | nil =>
    have same : {row with status := .pending} = row := by rw [← pending]
    refine ⟨.pending,⟨?_,Or.inl rfl,?_,fun _ _ => rfl,by simp,fun told => absurd told none,
      fun _ => rfl⟩,?_⟩
    · rw [same]
      exact stored
    · intro i seen holding
      cases holding
    · simp [Undone, since_nil]
  | append_singleton schedule a ih =>
    obtain ⟨status,kept,undone⟩ := ih
    obtain ⟨status',after,same⟩ := act_step inviteeId a kept pending unexpired
    refine ⟨status',by rw [run_append]; exact after,?_⟩
    rw [run_append,since_snoc,← undone]
    exact same

/-- For every interleaving, the request is resolved once exactly when no decline
    has overwritten an acceptance for good. -/
theorem resolved_once_iff (db : Db) (row : NodeSharingRequest) (inviteeId : Uuid)
    (attempts : ι → Attempt) (stored : row ∈ db.nodeSharingRequests)
    (pending : row.status = .pending) (unexpired : ∀ i, (attempts i).now ≤ row.expiresAt)
    (schedule : List (Action ι)) :
    ResolvedOnce attempts row.id db
        (run (act (resolvers row inviteeId attempts)) (Config.start (opened db)) schedule).shared ↔
      ¬ Since (act (resolvers row inviteeId attempts)) (Overwrites row.id)
        (GoesThrough inviteeId attempts) (Config.start (opened db)) schedule := by
  obtain ⟨status,kept,undone⟩ := run_kept inviteeId db stored pending unexpired schedule
  rw [resolved_once_of_kept kept,undone]

end

/-! Bob answers an invitation twice, from two devices. -/

def invitation : NodeSharingRequest :=
  {id := 5, nodeId := "lamp", fromUserId := 1, toUserName := "bob@example.com",
   expiresAt := days 7}

def invited : Db where
  users := Deployment.anaAndBob
  nodes := .one {nodeId := "lamp"}
  userNodeMappings := .one {id := 3, userId := 1, nodeId := "lamp"}
  nodeSharingRequests := .one invitation

def bothAnswers (accept : Bool) : Attempt := ⟨0,7,accept⟩

def oneAfterTheOther : List (Action Bool) := [.read true,.commit true,.read false,.commit false]

theorem second_answer_refused : ResolvedOnce bothAnswers 5 invited
    (run (act (resolvers invitation 2 bothAnswers)) (Config.start (opened invited))
      oneAfterTheOther).shared := by
  apply (resolved_once_iff invited invitation 2 bothAnswers (by decide) rfl (by decide)
    oneAfterTheOther).mpr
  intro since
  have late := since_occurred _ since
  rcases late with none | ⟨⟨row,accepting⟩,-⟩ | none | ⟨⟨row,refused⟩,-⟩ | none
  · exact none
  · have held : (run (act (resolvers invitation 2 bothAnswers)) (Config.start (opened invited))
        [.read true]).phase true = .holding (.accepting invitation false) := rfl
    cases held.symm.trans accepting
  · exact none
  · have held : (run (act (resolvers invitation 2 bothAnswers)) (Config.start (opened invited))
        [.read true,.commit true,.read false]).phase false =
          .holding (.refused (invalidRequest "Request already resolved")) := rfl
    cases held.symm.trans refused
  · exact none

def bothAtOnce : List (Action Bool) := [.read true,.read false,.commit true,.commit false]

theorem decline_undoes_acceptance :
    let c := run (act (resolvers invitation 2 bothAnswers)) (Config.start (opened invited))
      bothAtOnce
    (∀ i, c.phase i = .finished) ∧ c.shared.reported true = some (.ok .accepted) ∧
    c.shared.db.nodeSharingRequests.rows.map (·.status) = [.declined] ∧
    c.shared.db.nodeSharing.rows = [shareOf invitation 7 2] ∧
    ¬ ResolvedOnce bothAnswers 5 invited c.shared := by
  intro c
  have told : c.shared.reported true = some (.ok .accepted) := rfl
  have declined : c.shared.db.nodeSharingRequests.rows = [{invitation with status := .declined}] := rfl
  refine ⟨?_,told,by rw [declined]; rfl,rfl,?_⟩
  · intro i
    cases i with
    | false => rfl
    | true => rfl
  · intro once
    obtain ⟨r,stored,-,accepted⟩ := once.accepted.mpr ⟨true,rfl,told⟩
    rw [Table.mem_def,declined,List.mem_singleton] at stored
    rw [stored] at accepted
    cases accepted

end RainmakerServer.ShareRace
