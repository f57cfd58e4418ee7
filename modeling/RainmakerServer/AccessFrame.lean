import RainmakerServer.GrantSteps

/-!
Which pairs of a user and a node a call can change. Access is a mapping or a
share; each is written by few calls, and each of these names the pairs it is
about. Every other call leaves the whole matrix as it is. The list of a user's
nodes is a row of that matrix, with the owned nodes first.
-/
namespace RainmakerServer.AccessFrame
open Tables Runs Api

def MayGrant (pf : Platform) (w : World) (u : Uuid) (n : Text) : Call → Prop
  | .user id (.verifyMapping _ requestId response) => id = u ∧
      ∃ row, Access.Answerable w.db w.now id requestId response row ∧ row.nodeId = some n
  | .dispatch _ topic payload =>
      ∃ row, Mqtt.Matched pf w.db topic payload n row ∧ row.userId = u
  | .user id (.resolveSharingRequest _ requestId accept) => id = u ∧ accept = true ∧
      ∃ row ∈ w.db.nodeSharingRequests, row.id = requestId ∧ row.nodeId = n
  | _ => False

/-- The pairs a call may take access from; `after` is the state it leaves. -/
def MayRevoke (w : World) (after : Db) (u : Uuid) (n : Text) : Call → Prop
  | .user o (.revokeSharing nodes userName) => n ∈ nodeList nodes ∧
      (∃ guest ∈ w.db.users, guest.userName = userName ∧ guest.id = u) ∧
      ∃ s ∈ w.db.nodeSharing, s ∉ after.nodeSharing ∧
        s.nodeId = n ∧ s.toUserId = u ∧ s.fromUserId = o
  | .user id (.deleteUserNode nodeId) => id = u ∧ nodeId = n
  | .user id .deleteCurrentUser => id = u ∨
      ∃ s ∈ w.db.nodeSharing, s.nodeId = n ∧ s.toUserId = u ∧ s.fromUserId = id
  | _ => False

variable {pf : Platform} {w : World} {c : Call}

theorem new_mapping_names_pair {m : UserNodeMapping}
    (stored : m ∈ (step pf w c).db.userNodeMappings) (new : m ∉ w.db.userNodeMappings) :
    MayGrant pf w m.userId m.nodeId c := by
  rcases effect_access (step_effect pf w c) with same | effect
  · rw [same.mappings] at stored
    exact absurd stored new
  · generalize left : (step pf w c).db = after at effect stored
    cases effect with
    | @confirmed mappingId topic payload _ _ _ _ topical present named pending valid finalised =>
      rcases Mqtt.dispatch_maps pf w.db w.now mappingId topic payload with
        same | ⟨n,row,matched,ok⟩
      · have mappings : after.userNodeMappings = w.db.userNodeMappings := by
          rw [← left]
          exact same
        rw [mappings] at stored
        exact absurd stored new
      · have ok' : Access.finaliseMapping w.db w.now mappingId row = .ok after := by
          rw [← left]
          exact ok
        obtain ⟨n',target,⟨-,eq⟩ | ⟨t,inserted,-,-,eq⟩⟩ := Access.finalise_mapping_ok matched.stored ok'
        · rw [eq] at stored
          exact absurd stored new
        · rw [eq] at stored
          have own : n' = n := Option.some.inj (target.symm.trans matched.named)
          rcases (Table.mem_appended inserted).mp stored with old | added
          · exact absurd old new
          · rw [added,own]
            exact ⟨row,matched,rfl⟩
    | removed auth => exact absurd (Table.mem_delete.mp stored).1 new
    | verified answer finalised =>
      obtain ⟨n,target,⟨-,eq⟩ | ⟨t,inserted,-,-,eq⟩⟩ := Access.finalise_mapping_ok answer.stored finalised
      · rw [eq] at stored
        exact absurd stored new
      · rw [eq] at stored
        rcases (Table.mem_appended inserted).mp stored with old | added
        · exact absurd old new
        · rw [added]
          exact ⟨answer.caller.symm,_,answer,target⟩
    | unmapped present caller named => exact absurd (Table.mem_delete.mp stored).1 new
    | resolved auth present requested addressed pending resolution =>
      cases resolution with
      | closed status closed => exact absurd stored new
      | shared t accepted valid inserted => exact absurd stored new
    | _ => exact absurd stored new

theorem new_share_names_pair {s : NodeSharing} (stored : s ∈ (step pf w c).db.nodeSharing)
    (new : s ∉ w.db.nodeSharing) : MayGrant pf w s.toUserId s.nodeId c := by
  rcases GrantSteps.share_origin stored with old | ⟨row,guest,accepted⟩
  · exact absurd old new
  · rw [accepted.call]
    exact ⟨rfl,rfl,row,accepted.stored,rfl,accepted.node⟩

theorem lost_mapping_names_pair {m : UserNodeMapping} (stored : m ∈ w.db.userNodeMappings)
    (gone : m ∉ (step pf w c).db.userNodeMappings) :
    MayRevoke w (step pf w c).db m.userId m.nodeId c := by
  rcases GrantSteps.mapping_gone stored gone with call | call
  · rw [call]
    exact ⟨rfl,rfl⟩
  · rw [call]
    exact Or.inl rfl

theorem lost_share_names_pair {s : NodeSharing} (stored : s ∈ w.db.nodeSharing)
    (gone : s ∉ (step pf w c).db.nodeSharing) :
    MayRevoke w (step pf w c).db s.toUserId s.nodeId c := by
  cases GrantSteps.share_gone stored gone with
  | @revoked nodes userName guest known key named listed =>
    exact ⟨listed,⟨guest,known,named,key⟩,s,stored,gone,rfl,rfl,rfl⟩
  | grantorLeft => exact Or.inr ⟨s,stored,rfl,rfl,rfl⟩
  | guestLeft => exact Or.inl rfl

/-- A call leaves the access of `u` to `n` as it is, or it names the pair: it
    turns access on for a pair it may grant, or off for a pair it may revoke. -/
theorem access_frame (pf : Platform) (w : World) (c : Call) (u : Uuid) (n : Text) :
    Access.hasAccess (step pf w c).db u n = Access.hasAccess w.db u n ∨
      (Access.hasAccess w.db u n = .ok false ∧ Access.hasAccess (step pf w c).db u n = .ok true ∧
        MayGrant pf w u n c) ∨
      (Access.hasAccess w.db u n = .ok true ∧ Access.hasAccess (step pf w c).db u n = .ok false ∧
        MayRevoke w (step pf w c).db u n c) := by
  rcases Access.has_access_spec w.db u n with ⟨before,had⟩ | ⟨before,unmapped,unshared⟩
  · rcases Access.has_access_spec (step pf w c).db u n with ⟨after,-⟩ | ⟨after,unmapped,unshared⟩
    · exact Or.inl (after.trans before.symm)
    · right; right
      refine ⟨before,after,?_⟩
      rcases had with ⟨m,stored,user,node⟩ | ⟨s,stored,user,node⟩
      · subst user node
        apply lost_mapping_names_pair stored
        intro kept
        exact unmapped ⟨m,kept,rfl,rfl⟩
      · subst user node
        apply lost_share_names_pair stored
        intro kept
        exact unshared ⟨s,kept,rfl,rfl⟩
  · rcases Access.has_access_spec (step pf w c).db u n with ⟨after,has⟩ | ⟨after,-⟩
    · right; left
      refine ⟨before,after,?_⟩
      rcases has with ⟨m,stored,user,node⟩ | ⟨s,stored,user,node⟩
      · subst user node
        apply new_mapping_names_pair stored
        intro old
        exact unmapped ⟨m,old,rfl,rfl⟩
      · subst user node
        apply new_share_names_pair stored
        intro old
        exact unshared ⟨s,old,rfl,rfl⟩
    · exact Or.inl (after.trans before.symm)

/-! The listing. -/

/-- The check of one node and the list of all of them say the same. -/
structure ListingAgrees (db : Db) (u : Uuid) : Prop where
  checked : ∀ n, Access.hasAccess db u n = .ok true ∨ Access.hasAccess db u n = .ok false
  listed : ∀ n, Access.hasAccess db u n = .ok true ↔ n ∈ Access.accessibleNodeIds db u
  once : (Access.accessibleNodeIds db u).Nodup
  owned_first : ∃ owned shared, Access.accessibleNodeIds db u = owned ++ shared ∧
    (∀ n, n ∈ owned ↔ Access.Owns db u n) ∧
    ∀ n, n ∈ shared ↔ Access.SharedWith db u n ∧ ¬ Access.Owns db u n

theorem listing_owned_first (db : Db) (u : Uuid) :
    ∃ owned shared, Access.accessibleNodeIds db u = owned ++ shared ∧
      (∀ n, n ∈ owned ↔ Access.Owns db u n) ∧
      ∀ n, n ∈ shared ↔ Access.SharedWith db u n ∧ ¬ Access.Owns db u n := by
  have mapped : ∀ n, n ∈ ((db.userNodeMappings.select fun r => r.userId == u).map (·.nodeId)) ↔
      Access.Owns db u n := by
    intro n
    simp only [List.mem_map, Table.mem_select, beq_iff_eq, Access.Owns, and_assoc]
  have given : ∀ n, n ∈ ((db.nodeSharing.select fun r => r.toUserId == u).map (·.nodeId)) ↔
      Access.SharedWith db u n := by
    intro n
    simp only [List.mem_map, Table.mem_select, beq_iff_eq, Access.SharedWith, and_assoc]
  unfold Access.accessibleNodeIds
  dsimp only
  rw [List.eraseDups_append]
  refine ⟨_,_,rfl,?_,?_⟩
  · intro n
    rw [List.mem_eraseDups,mapped]
  · intro n
    rw [List.mem_eraseDups,List.removeAll,List.mem_filter,given,← mapped]
    simp

theorem listing_agrees (db : Db) (u : Uuid) : ListingAgrees db u where
  checked n := by
    rcases Access.has_access_spec db u n with ⟨yes,-⟩ | ⟨no,-⟩
    · exact Or.inl yes
    · exact Or.inr no
  listed n := Access.mem_accessible_node_ids.symm
  once := Dict.fromkeys_nodup _
  owned_first := listing_owned_first db u

/-- In every state of every run the check and the list of a user's nodes agree. -/
theorem check_agrees_with_listing (pf : Platform) (w : World) (cs : List Call) (u : Uuid) :
    ListingAgrees (run (step pf) w cs).db u :=
  listing_agrees _ u

end RainmakerServer.AccessFrame
