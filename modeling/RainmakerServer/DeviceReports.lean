import RainmakerServer.Footprint

/-!
Who writes what the devices report: configurations, parameter shadows and time
series. Of all calls only an ingested message and a request on the mutual TLS
host do, the one for the node of its topic and the other for the node of its
certificate.
-/
namespace RainmakerServer.DeviceReports
open Tables

structure SameReports (db db' : Db) : Prop where
  configs : db'.nodeConfigs = db.nodeConfigs
  shadows : db'.nodeParamsShadow = db.nodeParamsShadow
  points : db'.tsdata = db.tsdata

/-- What one node reported is as it was, in the order in which it is stored. -/
structure KeptFor (n : Text) (db db' : Db) : Prop where
  configs : db'.nodeConfigs.rows.filter (·.nodeId == n) = db.nodeConfigs.rows.filter (·.nodeId == n)
  shadows : db'.nodeParamsShadow.rows.filter (·.nodeId == n) =
    db.nodeParamsShadow.rows.filter (·.nodeId == n)
  points : db'.tsdata.filter (·.nodeId == n) = db.tsdata.filter (·.nodeId == n)

section
variable {db db' : Db} {n : Text}

theorem kept_refl (n : Text) (db : Db) : KeptFor n db db := ⟨rfl,rfl,rfl⟩

theorem kept_trans {db'' : Db} (first : KeptFor n db db') (second : KeptFor n db' db'') :
    KeptFor n db db'' :=
  ⟨second.configs.trans first.configs,second.shadows.trans first.shadows,
    second.points.trans first.points⟩

theorem kept_of_same (same : SameReports db db') : KeptFor n db db' := by
  constructor
  · rw [same.configs]
  · rw [same.shadows]
  · rw [same.points]

theorem filter_other {α : Type} {key : α → Text} {m : Text} {xs ys : List α} (other : m ≠ n)
    (same : xs.filter (key · != m) = ys.filter (key · != m)) :
    xs.filter (key · == n) = ys.filter (key · == n) := by
  have narrower : ∀ zs : List α,
      zs.filter (key · == n) = (zs.filter (key · != m)).filter (key · == n) := by
    intro zs
    rw [List.filter_filter]
    apply List.filter_congr
    intro z _
    by_cases here : key z = n
    · simp [here, Ne.symm other]
    · simp [here]
  rw [narrower xs,narrower ys,same]

theorem kept_of_reports {m : Text} (report : Nodes.Reports m db db') (other : m ≠ n) :
    KeptFor n db db' where
  configs := filter_other other report.configs
  shadows := filter_other other report.shadows
  points := filter_other other report.points

theorem kept_of_confined {m : Text} (confined : Mqtt.Confined m db db') (other : m ≠ n) :
    KeptFor n db db' where
  configs := filter_other other confined.configs
  shadows := filter_other other confined.shadows
  points := filter_other other confined.points

theorem same_of_only {parts : List Footprint.Part} (only : Footprint.Only parts db db')
    (outside : .reports ∉ parts) : SameReports db db' := by
  obtain ⟨configs,shadows,points⟩ := only .reports outside
  exact ⟨configs,shadows,points⟩

end

section
variable {pf : Platform} {db : Db} {now : Time}

theorem admin_footprint_reports (request : AdminRequest) :
    .reports ∉ Footprint.adminFootprint request := by
  cases request <;> simp

theorem serve_node_reports (pf : Platform) (db : Db) (now : Time) (node : Node)
    (request : NodeRequest) :
    Nodes.Reports (cut 64 node.nodeId) db (Api.serveNode pf db now node request) ∨
      SameReports db (Api.serveNode pf db now node request) := by
  cases request with
  | putNodeConfig payload =>
    exact Or.inl (Mqtt.commit_last_reports (Nodes.Reports.refl _ db)
      fun _ => Nodes.commit_config_reports)
  | postNodeParamsLocal payload =>
    exact Or.inl (Mqtt.commit_last_reports (Nodes.Reports.refl _ db)
      fun _ => Nodes.commit_shadow_reports)
  | postNodeOtastatus jobId status info =>
    exact Or.inr (same_of_only (Footprint.serve_node_only _) (by simp))

inductive Speaks (db : Db) (n : Text) : Call → Prop where
  | message {mappingId : Uuid} {topic m suffix : Text} {payload : Bytes}
      (topical : Mqtt.splitTopic topic = some (m,suffix)) (column : cut 64 m = n) :
      Speaks db n (.dispatch mappingId topic payload)
  | request {cn : Option Text} {request : NodeRequest} {node : Node}
      (certified : Claim.getNodeFromMtls db cn = .ok node) (named : node.nodeId = n) :
      Speaks db n (.node cn request)

theorem serve_keeps_reports {n : Text} {c : Call} (silent : ¬ Speaks db n c) :
    KeptFor n db (Api.serve pf db now c) := by
  have outside : .reports ∉ Footprint.footprint c → KeptFor n db (Api.serve pf db now c) :=
    fun outside => kept_of_same (same_of_only (Footprint.serve_only pf db now c) outside)
  cases c with
  | node cn request =>
    simp only [Api.serve]
    split
    · exact kept_refl n db
    · rename_i node certified
      rcases serve_node_reports pf db now node request with report | same
      · have width : varchar 64 node.nodeId = true :=
          Table.holds_of_mem (Claim.get_node_from_mtls_ok certified).1
        rw [cut_of_varchar width] at report
        exact kept_of_reports report fun named => silent (.request certified named)
      · exact kept_of_same same
  | dispatch mappingId topic payload =>
    cases found : Mqtt.splitTopic topic with
    | none =>
      simp only [Api.serve, Mqtt.dispatch, found]
      exact kept_refl n db
    | some pair =>
      obtain ⟨m,suffix⟩ := pair
      apply kept_of_confined (Mqtt.dispatch_confined (Or.inr ⟨suffix,found⟩))
      intro same
      exact silent (.message found same)
  | user id request => exact outside (Footprint.user_footprint_outside request).1
  | admin id request => exact outside (admin_footprint_reports request)
  | _ => exact outside (by simp)

end
end RainmakerServer.DeviceReports
