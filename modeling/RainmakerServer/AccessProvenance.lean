import RainmakerServer.GrantSteps

/-!
Why somebody has access. Every mapping is backed by a challenge that its user
completed in time, and every share by an accepted invitation that was made by
an owner. Both tokens are used once: they leave `pending` for good, and they
go only with the account that also takes the grants behind them.
-/
namespace RainmakerServer.AccessProvenance
open Tables Runs Api

def MappingBacked (db : Db) (m : UserNodeMapping) : Prop :=
  ∃ row ∈ db.mappingChallenges, row.userId = m.userId ∧ row.nodeId = some m.nodeId ∧
    row.status = .completed ∧ ∃ ended, row.completedAt = some ended ∧ ended ≤ row.expiresAt

structure ShareBacked (db : Db) (s : NodeSharing) (q : NodeSharingRequest) : Prop where
  stored : q ∈ db.nodeSharingRequests
  node : q.nodeId = s.nodeId
  sender : q.fromUserId = s.fromUserId
  accepted : q.status = .accepted
  guest : ∃ user ∈ db.users, user.id = s.toUserId ∧ user.userName = q.toUserName

def CreatedByOwner (pf : Platform) (w : World) (cs : List Call) (q : NodeSharingRequest) : Prop :=
  ∃ pre ids nodes userName post, cut 254 userName = q.toUserName ∧
    cs = pre ++ .user q.fromUserId (.createSharingRequest ids nodes userName) :: post ∧
    q.nodeId ∈ nodes ∧ Access.Owns (run (step pf) w pre).db q.fromUserId q.nodeId ∧
    {q with status := .pending} ∈ (step pf (run (step pf) w pre)
      (.user q.fromUserId (.createSharingRequest ids nodes userName))).db.nodeSharingRequests

structure Backed (db : Db) : Prop where
  mappings : ∀ m ∈ db.userNodeMappings, MappingBacked db m
  shares : ∀ s ∈ db.nodeSharing, ∃ q, ShareBacked db s q

variable {pf : Platform}

theorem step_backs_mapping {w : World} {c : Call} (backed : Backed w.db) {m : UserNodeMapping}
    (stored : m ∈ (step pf w c).db.userNodeMappings) : MappingBacked (step pf w c).db m := by
  rcases GrantSteps.mapping_origin stored with old | ⟨row,backing⟩
  · obtain ⟨row,earlier,user,node,completed,ended,at',valid⟩ := backed.mappings m old
    have settled : row.status ≠ .pending := by rw [completed]; decide
    have stays : row ∈ (step pf w c).db.mappingChallenges ∨
        GrantSteps.ChallengeGone row (step pf w c).db :=
      GrantSteps.settled_challenge_stays earlier settled
    rcases stays with kept | gone
    · exact ⟨row,kept,user,node,completed,ended,at',valid⟩
    · exact absurd user.symm (gone.mappings m stored)
  · exact ⟨_,backing.completed,backing.user,backing.node,rfl,w.now,rfl,backing.valid⟩

theorem step_backs_share {w : World} {c : Call} (backed : Backed w.db) {s : NodeSharing}
    (stored : s ∈ (step pf w c).db.nodeSharing) : ∃ q, ShareBacked (step pf w c).db s q := by
  rcases GrantSteps.share_origin stored with old | ⟨row,guest,accepted⟩
  · obtain ⟨q,backing⟩ := backed.shares s old
    obtain ⟨user,known,key,name⟩ := backing.guest
    have settled : q.status ≠ .pending := by rw [backing.accepted]; decide
    have stays : q ∈ (step pf w c).db.nodeSharingRequests ∨
        GrantSteps.RequestGone q (step pf w c).db :=
      GrantSteps.settled_request_stays backing.stored settled
    have account : (∃ new ∈ (step pf w c).db.users, new.id = user.id ∧
        new.userName = user.userName) ∨ GrantSteps.AccountGone user (step pf w c).db :=
      GrantSteps.account_stays known
    rcases stays with kept | gone
    · rcases account with ⟨new,present,id,same⟩ | left
      · exact ⟨q,kept,backing.node,backing.sender,backing.accepted,
          new,present,id.trans key,same.trans name⟩
      · exact absurd key.symm (left.shares s stored)
    · exact absurd backing.sender.symm (gone.shares s stored)
  · refine ⟨_,accepted.accepted,accepted.node,accepted.sender,rfl,guest,?_,accepted.key,
      accepted.addressed.symm⟩
    rw [accepted.users]
    exact accepted.known

theorem step_keeps_backed {w : World} {c : Call} (backed : Backed w.db) :
    Backed (step pf w c).db where
  mappings := fun _ => step_backs_mapping backed
  shares := fun _ => step_backs_share backed

theorem request_created {w : World} {cs : List Call} {q : NodeSharingRequest}
    (none : w.db.nodeSharingRequests.rows = [])
    (stored : q ∈ (run (step pf) w cs).db.nodeSharingRequests) : CreatedByOwner pf w cs q := by
  have before : ¬ ∃ r ∈ w.db.nodeSharingRequests,
      {r with status := .pending} = {q with status := .pending} := by
    rintro ⟨r,early,-⟩
    rw [Table.mem_def,none] at early
    cases early
  obtain ⟨pre,c,post,split,absent,row,present,same⟩ := run_origin (step pf)
    (Q := fun v => ∃ r ∈ v.db.nodeSharingRequests,
      {r with status := .pending} = {q with status := .pending}) before ⟨q,stored,rfl⟩
  cases GrantSteps.request_origin present with
  | kept earlier => exact absurd ⟨row,earlier,same⟩ absent
  | settled old earlier closed update =>
    have still : {old with status := .pending} = {row with status := .pending} := by rw [update]
    exact absurd ⟨old,earlier,still.trans same⟩ absent
  | invited id ids nodes userName call fresh owned =>
    obtain ⟨listed,sender,name,pending,-⟩ := Access.mem_request_rows fresh
    have new : row = {q with status := .pending} := by rw [← same,← pending]
    subst new call
    have caller : id = q.fromUserId := sender.symm
    subst caller
    exact ⟨pre,ids,nodes,userName,post,name.symm,split,listed,owned _ listed,present⟩

theorem settled_challenge_is_final {w : World} {row : MappingChallenge}
    (stored : row ∈ w.db.mappingChallenges) (settled : row.status ≠ .pending) (cs : List Call) :
    row ∈ (run (step pf) w cs).db.mappingChallenges ∨ ∃ pre post, cs = pre ++ post ∧
      ∀ r ∈ (run (step pf) w pre).db.mappingChallenges, r.id ≠ row.id := by
  apply run_keeps_or_ends (step pf) (I := fun v => row ∈ v.db.mappingChallenges)
    (G := fun v => ∀ r ∈ v.db.mappingChallenges, r.id ≠ row.id) _ cs stored
  intro v c member
  exact (GrantSteps.settled_challenge_stays member settled).imp_right fun gone => gone.gone

theorem settled_request_is_final {w : World} {row : NodeSharingRequest}
    (stored : row ∈ w.db.nodeSharingRequests) (settled : row.status ≠ .pending) (cs : List Call) :
    row ∈ (run (step pf) w cs).db.nodeSharingRequests ∨ ∃ pre post, cs = pre ++ post ∧
      ∀ r ∈ (run (step pf) w pre).db.nodeSharingRequests, r.id ≠ row.id := by
  apply run_keeps_or_ends (step pf) (I := fun v => row ∈ v.db.nodeSharingRequests)
    (G := fun v => ∀ r ∈ v.db.nodeSharingRequests, r.id ≠ row.id) _ cs stored
  intro v c member
  exact (GrantSteps.settled_request_stays member settled).imp_right fun gone => gone.gone

/-- What stands behind the grants of a state that a run from the empty database
    reaches, and that the tokens behind them are spent. -/
structure Provenance (pf : Platform) (start : World) (cs : List Call) : Prop where
  mappings : ∀ m ∈ (run (step pf) start cs).db.userNodeMappings,
    MappingBacked (run (step pf) start cs).db m
  shares : ∀ s ∈ (run (step pf) start cs).db.nodeSharing,
    ∃ q, ShareBacked (run (step pf) start cs).db s q ∧ CreatedByOwner pf start cs q
  grantors : ∀ s ∈ (run (step pf) start cs).db.nodeSharing, ∃ pre post, cs = pre ++ post ∧
    Access.Owns (run (step pf) start pre).db s.fromUserId s.nodeId
  challenges : ∀ row ∈ (run (step pf) start cs).db.mappingChallenges, row.status ≠ .pending →
    ∀ later, row ∈ (run (step pf) start (cs ++ later)).db.mappingChallenges ∨
      ∃ pre post, later = pre ++ post ∧
        ∀ r ∈ (run (step pf) start (cs ++ pre)).db.mappingChallenges, r.id ≠ row.id
  requests : ∀ row ∈ (run (step pf) start cs).db.nodeSharingRequests, row.status ≠ .pending →
    ∀ later, row ∈ (run (step pf) start (cs ++ later)).db.nodeSharingRequests ∨
      ∃ pre post, later = pre ++ post ∧
        ∀ r ∈ (run (step pf) start (cs ++ pre)).db.nodeSharingRequests, r.id ≠ row.id

theorem access_provenance (pf : Platform) (now : Time) (cs : List Call) :
    Provenance pf ⟨Db.empty,now⟩ cs := by
  have backed : Backed (run (step pf) ⟨Db.empty,now⟩ cs).db := by
    apply run_preserves (step pf) (I := fun w => Backed w.db)
    · intro w c backed
      exact step_keeps_backed backed
    · constructor
      · intro m stored
        cases stored
      · intro s stored
        cases stored
  have shares : ∀ s ∈ (run (step pf) ⟨Db.empty,now⟩ cs).db.nodeSharing,
      ∃ q, ShareBacked (run (step pf) ⟨Db.empty,now⟩ cs).db s q ∧
        CreatedByOwner pf ⟨Db.empty,now⟩ cs q := by
    intro s stored
    obtain ⟨q,backing⟩ := backed.shares s stored
    exact ⟨q,backing,request_created rfl backing.stored⟩
  refine ⟨backed.mappings,shares,?_,?_,?_⟩
  · intro s stored
    obtain ⟨q,backing,pre,ids,nodes,userName,post,-,split,-,owned,-⟩ := shares s stored
    rw [backing.sender,backing.node] at owned
    exact ⟨pre,_,split,owned⟩
  · intro row stored settled later
    simp only [run_append]
    exact settled_challenge_is_final stored settled later
  · intro row stored settled later
    simp only [run_append]
    exact settled_request_is_final stored settled later

end RainmakerServer.AccessProvenance
