import RainmakerServer.Effects
import RainmakerServer.Redelivery
import RainmakerServer.ShadowFold
import RainmakerServer.StateRedelivery
import RainmakerServer.UserNodes

/-!
What a user reads of the configuration a device has sent. The stored document
is spread over the fields of the answer, after them, so a field that the device
names `node_id` takes the place of the node's own. A document that compares
equal to the stored one is not written, and `true` compares equal to `1`. The
columns take integers and depths that the answer cannot be rendered with.
-/
namespace RainmakerServer.ConfigRoundTrip
open Tables Runs Api

/-! The answer. -/

mutual
/-- Equal as JSON: numbers by value, booleans among themselves only, objects
    without regard to the order of their keys. -/
def same : Json → Json → Bool
  | .null, .null => true
  | .bool a, .bool b => a == b
  | .int a, w => sameNumber (.int a) w
  | .float a, w => sameNumber (.float a) w
  | .str a, .str b => a == b
  | .arr xs, .arr ys => sameItems xs ys
  | .obj d, .obj e => d.length == e.length && sameFields d e
  | _, _ => false
def sameItems : List Json → List Json → Bool
  | [], [] => true
  | x :: xs, y :: ys => same x y && sameItems xs ys
  | _, _ => false
def sameFields : List (Text × Json) → List (Text × Json) → Bool
  | [], _ => true
  | (k,v) :: d, e => (match Dict.get? k e with
    | some w => same v w
    | none => false) && sameFields d e
def sameNumber : Json → Json → Bool
  | _, .bool _ => false
  | v, w => Json.numEq v w
end

/-- The two that Python takes for equal and JSON does not. -/
example : same (.int 1) (.float (.fin 1)) = true ∧ same (.int 1) (.bool true) = false ∧
    Json.pyEq (.int 1) (.bool true) = true := by decide +kernel

def Same (v w : Json) : Prop := v = w ∨ same v w = true

section
variable {n : Text} {doc held : JsonObject} {version column : Option Text}

section
variable (distinct : (Dict.keys held).Nodup)
include distinct

end

end

/-! Documents as they arrive. -/

/-- A call that delivers the document for node `n`, over MQTT or over HTTPS, and
    is not refused. -/
inductive Accepts (pf : Platform) (n : Text) (w : World) : Call → JsonObject → Prop where
  | mqtt {mappingId : Uuid} {topic : Text} {body : Bytes} {doc : JsonObject}
      (topical : Mqtt.splitTopic topic = some (n,Mqtt.Topics.config))
      (parsed : Mqtt.parsePayload pf body = some (.obj doc))
      (ok : (Mqtt.handleConfig w.db w.now n (.obj doc)).2 = .ok ()) :
      Accepts pf n w (.dispatch mappingId topic body) doc
  | https {cn : Option Text} {node : Node} {doc : JsonObject}
      (auth : Claim.getNodeFromMtls w.db cn = .ok node) (named : node.nodeId = n)
      (ok : (Mqtt.commitLast w.db (Nodes.upsertNodeConfig w.db n doc)).2 = .ok ()) :
      Accepts pf n w (.node cn (.putNodeConfig doc)) doc

section
variable {pf : Platform} {db db' : Db} {now : Time} {n : Text}

theorem ensure_node_configs (ready : Mqtt.ensureNode db now n = .ok db') :
    db'.nodeConfigs = db.nodeConfigs := by
  obtain ⟨_,eq⟩ := Mqtt.ensure_node_frame ready
  rw [eq]

theorem read_config_width {row : NodeConfig} (found : Nodes.readConfig db n = some row) :
    varchar 64 n = true := by
  obtain ⟨stored,named⟩ := StateRedelivery.read_config_named found
  rw [← named]
  exact Table.holds_of_mem stored

theorem handle_config_width {doc : JsonObject}
    (ok : (Mqtt.handleConfig db now n (.obj doc)).2 = .ok ()) : varchar 64 n = true := by
  simp only [Mqtt.handleConfig] at ok
  split at ok
  · cases ok
  · obtain ⟨-,found⟩ := Nodes.refreshed_ok ok
    obtain ⟨row,read⟩ := Option.isSome_iff_exists.mp found
    exact read_config_width read

theorem accepts_upsert {w : World} {c : Call} {doc : JsonObject} (accepts : Accepts pf n w c doc) :
    varchar 64 n = true ∧ ∃ base, base.nodeConfigs = w.db.nodeConfigs ∧
      Nodes.upsertNodeConfig base n doc = .ok (step pf w c).db := by
  cases accepts with
  | @mqtt mappingId topic body doc topical parsed ok =>
    have served : (step pf w (.dispatch mappingId topic body)).db =
        (Mqtt.handleConfig w.db w.now n (.obj doc)).1 := by
      simp only [step, serve, Mqtt.dispatch, topical, parsed, Mqtt.handle, if_true]
    rw [served]
    refine ⟨handle_config_width ok,?_⟩
    simp only [Mqtt.handleConfig] at ok ⊢
    cases ready : Mqtt.ensureNode w.db w.now n with
    | error e =>
      simp only [ready] at ok
      cases ok
    | ok base =>
      simp only [ready, Nodes.refreshed_db] at ok ⊢
      exact ⟨base,ensure_node_configs ready,ShadowFold.commit_last_ok (Nodes.refreshed_ok ok).1⟩
  | @https cn node doc auth named ok =>
    have served : (step pf w (.node cn (.putNodeConfig doc))).db =
        (Mqtt.commitLast w.db (Nodes.upsertNodeConfig w.db n doc)).1 := by
      simp only [step, serve, auth, serveNode, named]
    rw [served]
    have width : varchar 64 n = true := by
      rw [← named]
      exact Table.holds_of_mem (Claim.get_node_from_mtls_ok auth).1
    exact ⟨width,w.db,rfl,ShadowFold.commit_last_ok ok⟩

/-! What else a call does to the configurations: nothing. -/

/-- The call delivers no configuration of `n` that is accepted. -/
def Silent (pf : Platform) (n : Text) (w : World) (c : Call) : Prop :=
  ∀ doc, ¬ Accepts pf n w c doc

end

/-! The last document of a run, read back. -/

section
variable {pf : Platform} {n : Text} {w : World}

end

def certificate : NodeCertificate where
  serial := "01"
  nodeId := "lamp"
  certPem := "-----BEGIN CERTIFICATE-----"
  cn := "lamp"
  notBefore := 0
  notAfter := days 365

def put (doc : JsonObject) : Call := .node (some "lamp") (.putNodeConfig doc)

end RainmakerServer.ConfigRoundTrip
