import RainmakerServer.Deployment
import RainmakerServer.GrantSteps

/-!
What accepting an invitation grants. One call of `create_request` stores one
row for each node of its list and returns the key of the first; acceptance
resolves the row it names, so the rest of the list stays pending.
-/
namespace RainmakerServer.ShareInvitations
open Tables Runs Api

def SparesRequest (r : Uuid) : Call → Prop
  | .user _ (.createSharingRequest ids nodes _) => ∀ i < nodes.length, ids i ≠ r
  | _ => True

def NamesNode (r : Uuid) (n : Text) (db : Db) : Prop :=
  ∀ row ∈ db.nodeSharingRequests, row.id = r → row.nodeId = n

section
variable {pf : Platform} {r : Uuid} {n : Text}

theorem step_names_node {w : World} {c : Call} (names : NamesNode r n w.db)
    (spares : SparesRequest r c) : NamesNode r n (step pf w c).db := by
  intro row stored key
  cases GrantSteps.request_origin stored with
  | kept earlier => exact names row earlier key
  | settled old earlier closed same =>
    rw [same] at key ⊢
    exact names old earlier key
  | invited id ids nodes userName call fresh owned =>
    obtain ⟨i,place,drawn⟩ := Access.request_row_place fresh
    obtain ⟨small,-⟩ := List.getElem?_eq_some_iff.mp place
    subst call
    exact absurd (drawn.symm.trans key) (spares i small)

theorem created_names_head {db db' : Db} {now : Time} {ids : Nat → Uuid} {o : Uuid}
    {head : Text} {tail : List Text} {name : Text}
    (created : Access.createRequest db now ids o (head :: tail) name = (db',.ok r)) :
    NamesNode r head db' := by
  have stored : ∃ t, Access.Owns db o head ∧ db.nodeSharingRequests.insertAll
      (Access.requestRows now ids o (head :: tail) name) = .ok t ∧
        db' = {db with nodeSharingRequests := t} ∧ ids 0 = r := by
    unfold Access.createRequest at created
    split at created
    · cases created
    · split at created
      · cases created
      · rename_i owned
        split at created
        · cases created
        · rename_i t inserted
          split at created
          · cases created
            exact ⟨t,Access.check_owner_ok owned head (by simp),inserted,rfl,rfl⟩
          · cases created
  obtain ⟨t,owned,inserted,eq,first⟩ := stored
  subst eq
  have here : Schema.stored ({
      id := ids 0, nodeId := head, fromUserId := o, toUserName := name,
      expiresAt := now + days 7} : NodeSharingRequest) ∈ t := by
    refine (Table.mem_insertAll inserted).mpr (Or.inr (List.mem_map_of_mem ?_))
    simp [Access.requestRows, List.mapIdx_cons]
  intro row member key
  have eq := Table.eq_of_conflict member here (by simp [Schema.conflict, Schema.stored, key, first])
  rw [eq]
  exact cut_of_varchar (Access.owned_varchar owned)

end

/-- An accepted invitation gives access to every node it was made for exactly
    when each of them is the first of the list or was accessible before. Other
    calls may come between the invitation and its acceptance. -/
theorem accepted_invitation_grants (pf : Platform) (w : World) (o : Uuid) (guest : User)
    (ids : Nat → Uuid) (nodes : List Text) (r : Uuid) (invited : Db) (between : List Call)
    (shareId : Uuid) (status : RequestStatus) (after : Db)
    (created : Access.createRequest w.db w.now ids o nodes guest.userName = (invited,.ok r))
    (spares : ∀ c ∈ between, SparesRequest r c)
    (accepted : Access.acceptOrDecline (run (step pf) ⟨invited,w.now⟩ between).db
      (run (step pf) ⟨invited,w.now⟩ between).now shareId guest.id guest.userName r true =
        (after,.ok status)) :
    (∀ n ∈ nodes, Access.hasAccess after guest.id n = .ok true) ↔
      ∀ n ∈ nodes, nodes.head? = some n ∨
        Access.hasAccess (run (step pf) ⟨invited,w.now⟩ between).db guest.id n = .ok true := by
  cases nodes with
  | nil => simp
  | cons head tail =>
    have names : NamesNode r head (run (step pf) ⟨invited,w.now⟩ between).db := by
      apply run_invariant (step pf) (I := fun w => NamesNode r head w.db) _
        (created_names_head created) (along_of_forall (step pf) spares)
      intro w c names spares
      exact step_names_node names spares
    obtain ⟨row,key,-,granted⟩ := Access.accept_ok accepted
    have node : row.nodeId = head := names row granted.stored key
    have grants : ∀ n, Access.hasAccess after guest.id n = .ok true ↔ head = n ∨
        Access.hasAccess (run (step pf) ⟨invited,w.now⟩ between).db guest.id n = .ok true := by
      intro n
      have owns : Access.Owns after guest.id n ↔
          Access.Owns (run (step pf) ⟨invited,w.now⟩ between).db guest.id n := by
        simp only [Access.Owns, granted.mappings]
      rw [Access.has_access_true_iff,Access.has_access_true_iff,granted.sharing,owns,node]
      constructor
      · rintro (mapped | shared | ⟨-,here⟩)
        · exact Or.inr (Or.inl mapped)
        · exact Or.inr (Or.inr shared)
        · exact Or.inl here.symm
      · rintro (here | mapped | shared)
        · exact Or.inr (Or.inr ⟨rfl,here.symm⟩)
        · exact Or.inl mapped
        · exact Or.inr (Or.inl shared)
    simp only [grants, List.head?_cons, Option.some.injEq]

def ownerOfTwo : World where
  db := {
    users := Deployment.ownerAndGuest,
    nodes := .of [{nodeId := "aabbccddeeff"},{nodeId := "001122334455"}]}
  now := 0

def mappingCalls : List Call :=
  [.user 1 (.initiateMapping 20 Deployment.token16 Deployment.token32 "aabbccddeeff"),
   .user 1 (.verifyMapping 21 Deployment.token16 Deployment.token32),
   .user 1 (.initiateMapping 22 "EBESExQVFhcYGRobHB0eHw" Deployment.token32 "001122334455"),
   .user 1 (.verifyMapping 23 "EBESExQVFhcYGRobHB0eHw" Deployment.token32)]

def twoOwned : World := run (step Deployment.platform) ownerOfTwo mappingCalls

def invitation (w : World) (nodes : List Text) : Reply Uuid :=
  Access.createRequest w.db w.now (fun i => 30 + i) 1 nodes "guest@example.com"

def acceptance (w : World) (nodes : List Text) : Reply RequestStatus :=
  Access.acceptOrDecline (invitation w nodes).1 w.now 40 2 "guest@example.com" 30 true

def bothNodes : List Text := ["aabbccddeeff","001122334455"]

def secondShared : World := run (step Deployment.platform) twoOwned
  [.user 1 (.createSharingRequest (fun i => 50 + i) ["001122334455"] "guest@example.com"),
   .user 2 (.resolveSharingRequest 60 50 true)]

theorem second_invitation_grants :
    Access.hasAccess (acceptance secondShared bothNodes).1 2 "aabbccddeeff" = .ok true ∧
      Access.hasAccess (acceptance secondShared bothNodes).1 2 "001122334455" = .ok true := by
  have exact := accepted_invitation_grants Deployment.platform secondShared 1
    (Deployment.account 2 "guest@example.com") (fun i => 30 + i) bothNodes 30
    (invitation secondShared bothNodes).1 [] 40 .accepted (acceptance secondShared bothNodes).1
    (Prod.ext rfl (by decide +kernel)) (by intro c member; cases member)
    (Prod.ext rfl (by decide +kernel))
  have granted := exact.mpr <| by
    intro n member
    rcases List.mem_cons.mp member with first | rest
    · exact Or.inl (by rw [first]; rfl)
    · rw [List.mem_singleton.mp rest]
      exact Or.inr (by decide +kernel)
  exact ⟨granted _ List.mem_cons_self,granted _ (List.mem_cons_of_mem _ List.mem_cons_self)⟩

/-- Of an invitation to two nodes only the first is granted: the call returns
    key 30, the guest accepts it at once, and has no access to the second. -/
theorem second_node_is_not_granted :
    (∀ n ∈ bothNodes, Access.Owns twoOwned.db 1 n) ∧
      (invitation twoOwned bothNodes).2 = .ok 30 ∧
      (acceptance twoOwned bothNodes).2 = .ok .accepted ∧
      Access.hasAccess (acceptance twoOwned bothNodes).1 2 "aabbccddeeff" = .ok true ∧
      Access.hasAccess (acceptance twoOwned bothNodes).1 2 "001122334455" = .ok false := by
  refine ⟨?_,by decide +kernel,by decide +kernel,by decide +kernel,by decide +kernel⟩
  have mapped : ∀ n ∈ bothNodes,
      ∃ m ∈ twoOwned.db.userNodeMappings.rows, m.userId = 1 ∧ m.nodeId = n := by decide +kernel
  exact mapped

end RainmakerServer.ShareInvitations
