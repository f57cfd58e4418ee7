import RainmakerServer.Deployment
import RainmakerServer.Effects

/-!
How long a share may live. A share names the user who granted it; deleting that
user's account removes the share through its foreign key, but unmapping the
node does not, and an invitation may be accepted after its sender has unmapped
the node. Apart from these two steps every share stays backed by a mapping.
-/
namespace RainmakerServer.ShareLifetime
open Tables Runs Api

def SharesBacked (db : Db) : Prop :=
  ∀ s ∈ db.nodeSharing, Access.Owns db s.fromUserId s.nodeId

/-- An unmapping leaves no share of its user behind, and an invitation is
    accepted while its sender owns the node. -/
def KeepsBacking (w : World) : Call → Prop
  | .user id (.deleteUserNode n) =>
    ∀ s ∈ w.db.nodeSharing, s.fromUserId = id → s.nodeId ≠ n
  | .user _ (.resolveSharingRequest _ requestId true) =>
    ∀ r ∈ w.db.nodeSharingRequests, r.id = requestId → r.status = .pending →
      w.now ≤ r.expiresAt → Access.Owns w.db r.fromUserId r.nodeId
  | _ => True

section
variable {db db' : Db}

theorem backed_of_grow (backed : SharesBacked db)
    (sharing : ∀ s ∈ db'.nodeSharing, s ∈ db.nodeSharing)
    (mappings : ∀ m ∈ db.userNodeMappings, m ∈ db'.userNodeMappings) : SharesBacked db' := by
  intro s stored
  obtain ⟨m,member,user,node⟩ := backed s (sharing s stored)
  exact ⟨m,mappings m member,user,node⟩

theorem backed_of_equal (backed : SharesBacked db) (sharing : db'.nodeSharing = db.nodeSharing)
    (mappings : db'.userNodeMappings = db.userNodeMappings) : SharesBacked db' := by
  apply backed_of_grow backed
  · intro s stored
    rwa [sharing] at stored
  · intro m stored
    rwa [mappings]

theorem backed_of_finalised {now : Time} {mappingId : Uuid} {row : MappingChallenge}
    (backed : SharesBacked db) (ok : Access.finaliseMapping db now mappingId row = .ok db') :
    SharesBacked db' := by
  obtain ⟨n,-,⟨-,eq⟩ | ⟨t,inserted,-,-,eq⟩⟩ := Access.finalise_mapping_cases ok
  · subst eq
    exact backed_of_equal backed rfl rfl
  · subst eq
    refine backed_of_grow backed (fun _ h => h) ?_
    intro m stored
    exact (Table.mem_appended inserted).mpr (Or.inl stored)

theorem backed_of_removed (backed : SharesBacked db) (id : Uuid) :
    SharesBacked (Accounts.deleteCurrentUser db id) := by
  intro s stored
  obtain ⟨earlier,outside⟩ := Table.mem_delete.mp stored
  simp only [Bool.or_eq_false_iff, beq_eq_false_iff_ne] at outside
  obtain ⟨m,member,user,node⟩ := backed s earlier
  refine ⟨m,Table.mem_delete.mpr ⟨member,?_⟩,user,node⟩
  have other : m.userId ≠ id := by
    rw [user]
    exact outside.1
  simpa using other

theorem backed_of_unmapped {m : UserNodeMapping} (backed : SharesBacked db)
    (stored : m ∈ db.userNodeMappings)
    (unused : ∀ s ∈ db.nodeSharing, s.fromUserId = m.userId → s.nodeId ≠ m.nodeId) :
    SharesBacked {db with
      userNodeMappings := db.userNodeMappings.delete fun r => r.id == m.id} := by
  intro s share
  obtain ⟨r,member,user,node⟩ := backed s share
  refine ⟨r,Table.mem_delete.mpr ⟨member,?_⟩,user,node⟩
  have other : r.id ≠ m.id := by
    intro same
    have eq : r = m := Table.eq_of_conflict member stored (by simp [Schema.conflict, same])
    subst eq
    exact unused s share user.symm node.symm
  simpa using other

theorem backed_of_resolved {now : Time} {shareId id : Uuid} {row : NodeSharingRequest}
    {accept : Bool} (backed : SharesBacked db)
    (resolution : Access.Resolved db now shareId id row accept db')
    (owned : accept = true → now ≤ row.expiresAt → Access.Owns db row.fromUserId row.nodeId) :
    SharesBacked db' := by
  cases resolution with
  | closed status settled => exact backed_of_equal backed rfl rfl
  | shared t accepted valid inserted =>
    intro s stored
    rcases (Table.mem_appended inserted).mp stored with old | new
    · exact backed s old
    · subst new
      exact owned accepted valid

end

variable {pf : Platform}

theorem effect_keeps_backing {w : World} {c : Call} {db' : Db} (backed : SharesBacked w.db)
    (effect : AccessEffect w.db w.now c db') (keeps : KeepsBacking w c) : SharesBacked db' := by
  cases effect with
  | expired topical stored named pending => exact backed_of_equal backed rfl rfl
  | confirmed topical stored named pending valid finalised =>
    exact backed_of_finalised backed finalised
  | removed auth => exact backed_of_removed backed _
  | asked caller pending known named keyed inserted => exact backed_of_equal backed rfl rfl
  | verified answer finalised => exact backed_of_finalised backed finalised
  | unmapped stored caller named =>
    subst caller named
    exact backed_of_unmapped backed stored keeps
  | invited inserted owned => exact backed_of_equal backed rfl rfl
  | resolved auth stored requested addressed pending resolution =>
    apply backed_of_resolved backed resolution
    intro accepted valid
    subst accepted
    exact keeps _ stored requested pending valid
  | unshared known named =>
    refine backed_of_grow backed ?_ (fun _ h => h)
    intro s kept
    exact (Table.mem_delete.mp kept).1

theorem step_keeps_backing {w : World} {c : Call} (backed : SharesBacked w.db)
    (keeps : KeepsBacking w c) : SharesBacked (step pf w c).db := by
  rcases effect_access (step_effect pf w c) with same | effect
  · exact backed_of_equal backed same.sharing same.mappings
  · exact effect_keeps_backing backed effect keeps

/-- Along every run whose unmappings leave no share behind and whose accepted
    invitations come from owners, every share is backed, and whoever has access
    through a share has it to a node that somebody owns. -/
theorem shares_backed_along_runs (pf : Platform) (w : World) (cs : List Call)
    (start : SharesBacked w.db) (keeps : Along (step pf) KeepsBacking w cs) :
    SharesBacked (run (step pf) w cs).db ∧
      ∀ g n, Access.SharedWith (run (step pf) w cs).db g n →
        ∃ o, Access.Owns (run (step pf) w cs).db o n := by
  have backed : SharesBacked (run (step pf) w cs).db := by
    apply run_invariant (step pf) (I := fun w => SharesBacked w.db) _ start keeps
    intro w c backed condition
    exact step_keeps_backing backed condition
  refine ⟨backed,?_⟩
  rintro g n ⟨s,stored,-,node⟩
  subst node
  exact ⟨s.fromUserId,backed s stored⟩

def ownerAndGuest : World where
  db := {
    users := Deployment.ownerAndGuest,
    nodes := .one {nodeId := "aabbccddeeff"}}
  now := 0

def sharingCalls : List Call :=
  [.user 1 (.initiateMapping 20 Deployment.token16 Deployment.token32 "aabbccddeeff"),
   .user 1 (.verifyMapping 21 Deployment.token16 Deployment.token32),
   .user 1 (.createSharingRequest (fun _ => 30) ["aabbccddeeff".toList] "guest@example.com"),
   .user 2 (.resolveSharingRequest 31 30 true)]

theorem shared_node_is_backed :
    SharesBacked (run (step Deployment.platform) ownerAndGuest sharingCalls).db ∧
      ∀ g n, Access.SharedWith (run (step Deployment.platform) ownerAndGuest sharingCalls).db g n →
        ∃ o, Access.Owns (run (step Deployment.platform) ownerAndGuest sharingCalls).db o n := by
  apply shares_backed_along_runs
  · intro s stored
    cases stored
  · refine ⟨trivial,trivial,trivial,?_,trivial⟩
    intro r stored _ _ _
    have owned : ∀ r ∈ (run (step Deployment.platform) ownerAndGuest
        (sharingCalls.take 3)).db.nodeSharingRequests.rows,
        ∃ m ∈ (run (step Deployment.platform) ownerAndGuest
          (sharingCalls.take 3)).db.userNodeMappings.rows,
          m.userId = r.fromUserId ∧ m.nodeId = r.nodeId := by decide +kernel
    exact owned r stored

/-- After the owner has unmapped the node the guest still has access to it,
    and nobody owns it. -/
theorem unmapping_leaves_the_share :
    SharesBacked ownerAndGuest.db ∧
      ¬ SharesBacked (run (step Deployment.platform) ownerAndGuest
        (sharingCalls ++ [.user 1 (.deleteUserNode "aabbccddeeff")])).db ∧
      Access.hasAccess (run (step Deployment.platform) ownerAndGuest
        (sharingCalls ++ [.user 1 (.deleteUserNode "aabbccddeeff")])).db 2 "aabbccddeeff" =
          .ok true := by
  refine ⟨?_,?_,by decide +kernel⟩
  · intro s stored
    cases stored
  · intro backed
    have unowned : (run (step Deployment.platform) ownerAndGuest (sharingCalls ++
        [.user 1 (.deleteUserNode "aabbccddeeff")])).db.userNodeMappings.rows = [] := by
      decide +kernel
    have shared : {id := 31, nodeId := "aabbccddeeff", fromUserId := 1, toUserId := 2} ∈
        (run (step Deployment.platform) ownerAndGuest (sharingCalls ++
          [.user 1 (.deleteUserNode "aabbccddeeff")])).db.nodeSharing.rows := by decide +kernel
    obtain ⟨m,stored,-⟩ := backed _ shared
    rw [Table.mem_def,unowned] at stored
    cases stored

end RainmakerServer.ShareLifetime
