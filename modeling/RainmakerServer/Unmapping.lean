import RainmakerServer.GrantSteps
import RainmakerServer.Ownership

/-!
Which mappings their user can give up. `DELETE /user/nodes/{node_id}` takes the
node from one segment of the path, and a fixed path of the sharing router stands
before it. For a node whose name is no such segment, nothing but the end of the
account removes a mapping.
-/
namespace RainmakerServer.Unmapping
open Tables Runs Accounts Http HttpCalls

/-- A name that `{node_id}` can stand for once the sharing router has passed. -/
def Nameable (n : Text) : Prop := n ≠ [] ∧ '/' ∉ n ∧ n ≠ "sharing" ∧ n ≠ "sharing\n"

def nodePath (n : Text) : Text := ("/v1/user/nodes/" : Text) ++ n

def nodeSegments (n : Text) : List Text := ["","v1","user","nodes",n]

def EndsAccount (pf : Platform) (u : Uuid) (w : World) : Event → Prop
  | .request _ r => ∃ user parameter,
      resolve r.method r.path = some (.user .deleteCurrentUser,parameter) ∧
        getCurrentUser pf w.db w.now r.authorization = .ok user ∧ user.id = u
  | .internal _ => False

/-! Routing. -/

def nodeRoute : Route := route .delete "/v1/user/nodes/{node_id}" (.user .deleteUserNode)

def earlierRoutes : List Route := app.takeWhile fun r => r.endpoint != .user .deleteUserNode

theorem split_node_path {n : Text} (clean : '/' ∉ n) :
    (nodePath n).splitOn '/' = nodeSegments n := by
  have joined : nodePath n = ['/'].intercalate (nodeSegments n) := by
    simp only [nodeSegments, List.intercalate_cons_cons, List.intercalate_singleton]
    rfl
  have parts : ∀ s ∈ nodeSegments n, '/' ∉ s := by
    simp [nodeSegments, clean]
  rw [joined]
  exact List.splitOn_intercalate '/' parts (List.cons_ne_nil _ _)

theorem app_split : app = earlierRoutes ++ nodeRoute ::
    (app.dropWhile fun r => r.endpoint != .user .deleteUserNode).tail := by
  decide +kernel

theorem earlier_deletions : ∀ r ∈ earlierRoutes, r.method = .delete →
    r.pattern ∈ [patternOf "/v1/user2",patternOf "/v1/user/nodes/sharing",
      patternOf "/v1/user/node_group/{group_id}",patternOf "/v1/user/node_automation"] := by
  decide +kernel

theorem sole_node_route : ∀ r ∈ app, r.endpoint = .user .deleteUserNode → r = nodeRoute := by
  decide +kernel

theorem match_lit {s n : Text} {p : Segment} {ps : List Segment} {segments : List Text} :
    matchPath (.lit s :: p :: ps) segments = some n ↔
      ∃ rest, segments = s :: rest ∧ matchPath (p :: ps) rest = some n := by
  cases segments with
  | nil => simp [matchPath]
  | cons t ts =>
    have unfolded : matchPath (.lit s :: p :: ps) (t :: ts) =
        if s = t then matchPath (p :: ps) ts else none := by
      rw [matchPath]
      simp
    rw [unfolded]
    by_cases same : s = t
    · simp [same]
    · simp [same, Ne.symm same]

theorem match_parameter {n : Text} {segments : List Text} :
    matchPath [.param] segments = some n ↔ segments = [n] ∧ n ≠ [] := by
  cases segments with
  | nil => simp [matchPath]
  | cons t ts =>
    cases ts with
    | nil =>
      by_cases filled : t = []
      · subst filled
        simp only [matchPath, List.isEmpty_nil, if_true]
        constructor
        · intro none
          cases none
        · intro found
          cases found.1
          exact absurd rfl found.2
      · have taken : matchPath [.param] [t] = some t := by
          simp [matchPath, filled]
        rw [taken]
        constructor
        · intro same
          cases same
          exact ⟨rfl,filled⟩
        · intro found
          cases found.1
          rfl
    | cons u us => simp [matchPath]

theorem match_node_route {n : Text} {segments : List Text} :
    matchPath nodeRoute.pattern segments = some n ↔ segments = nodeSegments n ∧ n ≠ [] := by
  have pattern : nodeRoute.pattern =
      [.lit "",.lit "v1",.lit "user",.lit "nodes",.param] := by decide +kernel
  rw [pattern]
  simp only [match_lit, match_parameter, nodeSegments]
  constructor
  · intro found
    obtain ⟨a,whole,b,first,c,second,d,third,last,filled⟩ := found
    subst whole first second third last
    exact ⟨rfl,filled⟩
  · intro found
    exact ⟨_,found.1,_,rfl,_,rfl,_,rfl,rfl,found.2⟩

theorem resolve_nameable {n : Text} (nameable : Nameable n) :
    resolve .delete (nodePath n) = some (.user .deleteUserNode,n) := by
  obtain ⟨filled,clean,other,broken⟩ := nameable
  unfold resolve
  rw [split_node_path clean,List.findSome?_eq_some_iff]
  refine ⟨earlierRoutes,nodeRoute,_,app_split,?_,?_⟩
  · have deletes : nodeRoute.method = .delete := rfl
    rw [if_pos deletes,match_node_route.mpr ⟨rfl,filled⟩]
    rfl
  · intro r listed
    split
    · rename_i deletes
      have patterns := earlier_deletions r listed deletes
      simp only [List.mem_cons, List.not_mem_nil, or_false] at patterns
      rcases patterns with same | same | same | same
      · rw [same]
        rfl
      · rw [same]
        have passed : matchPath (patternOf "/v1/user/nodes/sharing") (nodeSegments n) =
            if n = "sharing".toList ∨ n = "sharing\n".toList then some [] else none := rfl
        rw [passed,if_neg (not_or.mpr ⟨other,broken⟩)]
        rfl
      · rw [same]
        rfl
      · rw [same]
        rfl
    · rfl

theorem sharing_resolved {n : Text} (fixed : n = "sharing".toList ∨ n = "sharing\n".toList) :
    (app.findSome? fun r => if r.method = .delete then
      (matchPath r.pattern (nodeSegments n)).map fun t => (r.endpoint,t) else none) =
        some (.user .revokeSharing,[]) := by
  rcases fixed with same | same
  · rw [same]
    decide +kernel
  · rw [same]
    decide +kernel

theorem resolved_nameable {method : Method} {path n : Text}
    (routed : resolve method path = some (.user .deleteUserNode,n)) : Nameable n := by
  obtain ⟨r,listed,found⟩ := List.exists_of_findSome?_eq_some routed
  split at found
  · rename_i same
    obtain ⟨parameter,matched,eq⟩ := Option.map_eq_some_iff.mp found
    rw [Prod.mk.injEq] at eq
    have sole := sole_node_route r listed eq.1
    rw [sole,eq.2] at matched
    obtain ⟨split,filled⟩ := match_node_route.mp matched
    have clean : '/' ∉ n := by
      have level : n ∈ path.splitOn '/' := by
        rw [split]
        simp [nodeSegments]
      exact Levels.sep_not_mem_level level
    have passed : ¬ (n = "sharing".toList ∨ n = "sharing\n".toList) := by
      intro fixed
      have deletes : method = .delete := by
        rw [← same,sole]
        rfl
      unfold resolve at routed
      rw [deletes,split,sharing_resolved fixed] at routed
      cases routed
    exact ⟨filled,clean,fun same => passed (Or.inl same),fun same => passed (Or.inr same)⟩
  · cases found

/-! Requests and runs. -/

section
variable {pf : Platform} {w : World} {m : UserNodeMapping}

theorem vouched_user {e : Event} {u : Uuid} {request : UserRequest}
    (vouched : Vouches pf w e (.user u request)) (own : ∀ d payload route,
      ¬ Assists d payload route request) :
    ∃ d r route parameter user, e = .request d r ∧
      resolve r.method r.path = some (.user route,parameter) ∧
      getCurrentUser pf w.db w.now r.authorization = .ok user ∧ user.id = u ∧
      Asks pf d r parameter route request := by
  generalize made : Call.user u request = c at vouched
  cases vouched with
  | @internal c => cases c <;> cases made
  | anyone routed body opens => cases opens <;> cases made
  | user routed auth asked =>
    cases made
    exact ⟨_,_,_,_,_,rfl,routed,auth,rfl,asked⟩
  | assisted routed body given auth assists =>
    cases made
    exact absurd assists (own _ _ _)
  | node routed certified body reports => cases made

theorem step_keeps_mapping {e : Event} (stored : m ∈ w.db.userNodeMappings)
    (unnameable : ¬ Nameable m.nodeId) (staying : ¬ EndsAccount pf m.userId w e) :
    m ∈ (step pf w e).db.userNodeMappings := by
  by_contra gone
  rcases @step_reads pf w e with same | ⟨c,vouched,same⟩
  · rw [same] at gone
    exact gone stored
  · rw [same] at gone
    rcases GrantSteps.mapping_gone stored gone with call | call
    · rw [call] at vouched
      obtain ⟨d,r,route,parameter,user,request,routed,-,-,asked⟩ := vouched_user vouched nofun
      cases asked
      exact unnameable (resolved_nameable routed)
    · rw [call] at vouched
      obtain ⟨d,r,route,parameter,user,request,routed,auth,own,asked⟩ := vouched_user vouched nofun
      cases asked
      rw [request] at staying
      exact staying ⟨user,parameter,routed,auth,own⟩

theorem unmapped {u : Uuid} {db : Db} (stored : m ∈ db.userNodeMappings) (own : m.userId = u) :
    m ∉ (Access.deleteUserNode db u m.nodeId).1.userNodeMappings := by
  have found : db.userNodeMappings.select (fun r => r.userId == u && r.nodeId == m.nodeId) = [m] := by
    apply select_sole (by simp [Schema.conflict]) stored (by simp [own])
    intro a listed hit
    rw [Bool.and_eq_true,beq_iff_eq,beq_iff_eq] at hit
    exact Table.eq_of_conflict listed stored (by simp [Schema.conflict, hit, own])
  intro left
  simp only [Access.deleteUserNode, found, scalarOneOrNone, done, Table.mem_delete] at left
  simp at left

def unmapping (header n : Text) : Incoming where
  method := .delete
  path := nodePath n
  authorization := some header

/-- A user can give a mapping up and keep the account exactly when the name of
    the node is one that the path can carry. -/
theorem given_up_iff {user : User} {header : Text} (d : Draws) (stored : m ∈ w.db.userNodeMappings)
    (auth : getCurrentUser pf w.db w.now (some header) = .ok user) (own : user.id = m.userId) :
    (∃ es, Along (step pf) (fun w e => ¬ EndsAccount pf m.userId w e) w es ∧
      m ∉ (run (step pf) w es).db.userNodeMappings) ↔ Nameable m.nodeId := by
  constructor
  · intro given
    by_contra unnameable
    obtain ⟨es,staying,gone⟩ := given
    apply gone
    apply run_invariant (step pf) (I := fun w => m ∈ w.db.userNodeMappings) _ stored staying
    intro w e stored staying
    exact step_keeps_mapping stored unnameable staying
  · intro nameable
    have routed := resolve_nameable nameable
    refine ⟨[.request d (unmapping header m.nodeId)],⟨?_,trivial⟩,?_⟩
    · intro ends
      obtain ⟨user,parameter,other,-⟩ := ends
      cases routed.symm.trans other
    · have served : (step pf w (.request d (unmapping header m.nodeId))).db =
          (Access.deleteUserNode w.db user.id m.nodeId).1 := by
        simp only [step, serve, unmapping, routed, readsBody, Option.isNone_some, Bool.false_and,
          Bool.false_eq_true, if_false, auth, handleUser, deleteUserNode, answer, returning]
      show m ∉ (step pf w (.request d (unmapping header m.nodeId))).db.userNodeMappings
      rw [served]
      exact unmapped stored own.symm

end

/-! Bob has a node called `sharing`. -/

def sharing : UserNodeMapping := {id := 3, userId := 2, nodeId := "sharing"}

def household : World where
  db := {
    users := Deployment.anaAndBob
    nodes := .one {nodeId := "sharing"}
    userNodeMappings := .one sharing}
  now := 0

theorem sharing_is_kept : ¬ ∃ es, Along (step Ownership.platform)
      (fun w e => ¬ EndsAccount Ownership.platform 2 w e) household es ∧
    sharing ∉ (run (step Ownership.platform) household es).db.userNodeMappings := by
  have bob : getCurrentUser Ownership.platform household.db household.now (some "bob".toList) =
      .ok (Deployment.account 2 "bob@example.com") := rfl
  intro given
  have nameable := (given_up_iff (m := sharing) Ownership.draws (List.mem_singleton.mpr rfl) bob
    rfl).mp given
  exact nameable.2.2.1 rfl

end RainmakerServer.Unmapping
