import RainmakerServer.Deployment
import RainmakerServer.Lib.Split
import RainmakerServer.Services.Access
import RainmakerServer.Services.Nodes

/-!
Topics and the ingestor. `dispatch` never raises: a handler's exception is
logged and dropped, and what the handler had committed before it stays.
-/
namespace RainmakerServer.Mqtt
open Tables

namespace Topics
def config : Text := "config"
def paramsLocal : Text := "params/local"
def paramsLocalInit : Text := "params/local/init"
def paramsRemote : Text := "params/remote"
def userMapping : Text := "user/mapping"
def tsdata : Text := "tsdata"
def simpleTsdata : Text := "simple_tsdata"

def nodeTopic (nodeId suffix : Text) : Text := ("node/" : Text) ++ nodeId ++ "/" ++ suffix
end Topics

def splitTopic (topic : Text) : Option (Text × Text) :=
  if ("node/".toList.isPrefixOf topic) = false then none
  else match Split.splitMax '/' 2 topic with
  | [_,nodeId,suffix] => if nodeId.isEmpty || suffix.isEmpty then none else some (nodeId,suffix)
  | _ => none

theorem node_topic_levels (n suffix : Text) :
    Topics.nodeTopic n suffix = "node".toList ++ '/' :: (n ++ '/' :: suffix) := by
  have head : "node/".toList = "node".toList ++ ['/'] := by decide
  have slash : "/".toList = ['/'] := by decide
  unfold Topics.nodeTopic
  rw [head,slash]
  simp only [List.append_assoc, List.cons_append, List.nil_append]

theorem below_node_iff {topic : Text} : "node/".toList.isPrefixOf topic = true ↔
    ∃ rest, topic = "node".toList ++ '/' :: rest := by
  have head : "node/".toList = "node".toList ++ ['/'] := by decide
  rw [List.isPrefixOf_iff_prefix,head]
  constructor
  · rintro ⟨rest,eq⟩
    refine ⟨rest,?_⟩
    rw [← eq,List.append_assoc,List.singleton_append]
  · rintro ⟨rest,eq⟩
    refine ⟨rest,?_⟩
    rw [eq,List.append_assoc,List.singleton_append]

theorem split_topic_iff {topic n suffix : Text} : splitTopic topic = some (n,suffix) ↔
    topic = Topics.nodeTopic n suffix ∧ n ≠ [] ∧ '/' ∉ n ∧ suffix ≠ [] := by
  have root : '/' ∉ "node".toList := by decide
  constructor
  · intro found
    unfold splitTopic at found
    split at found
    · cases found
    · rename_i below
      rw [Bool.not_eq_false] at below
      obtain ⟨rest,eq⟩ := below_node_iff.mp below
      have first : Split.cut '/' topic = some ("node".toList,rest) := by
        rw [eq]
        exact Split.cut_append root
      rw [Split.splitMax,first] at found
      dsimp only at found
      cases second : Split.cut '/' rest with
      | none =>
        rw [Split.splitMax,second] at found
        cases found
      | some p =>
        obtain ⟨a,b⟩ := p
        obtain ⟨rest_eq,clean⟩ := Split.cut_some second
        rw [Split.splitMax,second] at found
        dsimp only [Split.splitMax] at found
        split at found
        · cases found
        · rename_i full
          cases found
          rw [Bool.or_eq_true,List.isEmpty_iff,List.isEmpty_iff,not_or] at full
          refine ⟨?_,full.1,clean,full.2⟩
          rw [eq,rest_eq,node_topic_levels]
  · rintro ⟨eq,named,clean,below⟩
    have first : Split.cut '/' topic = some ("node".toList,n ++ '/' :: suffix) := by
      rw [eq,node_topic_levels]
      exact Split.cut_append root
    have second : Split.cut '/' (n ++ '/' :: suffix) = some (n,suffix) := Split.cut_append clean
    have prefixed : "node/".toList.isPrefixOf topic = true :=
      below_node_iff.mpr ⟨n ++ '/' :: suffix,by rw [eq,node_topic_levels]⟩
    have full : (n.isEmpty || suffix.isEmpty) = false := by simp [named, below]
    unfold splitTopic
    rw [if_neg (by rw [prefixed]; decide),Split.splitMax,first]
    dsimp only
    rw [Split.splitMax,second]
    dsimp only [Split.splitMax]
    rw [full]
    rfl

def parsePayload (pf : Platform) (payload : Bytes) : Option Json :=
  match pf.jsonLoads payload with
  | some .null => none
  | other => other

/-! Handlers. -/

def createNode (db : Db) (now : Time) (nodeId : Text) : Except Exc Db :=
  commitInsert db.nodes {nodeId := nodeId, registrationTs := some now} (fun _ => true)
    fun t => {db with nodes := t}

def ensureNode (db : Db) (now : Time) (nodeId : Text) : Except Exc Db :=
  if db.hasNode nodeId then .ok db else createNode db now nodeId

/-- A last commit after earlier ones: its failure keeps what is stored. -/
def commitLast (db : Db) : Except Exc Db → Reply Unit
  | .error e => raise db e
  | .ok db' => done db' ()

def handleConfig (db : Db) (now : Time) (nodeId : Text) : Json → Reply Unit
  | .obj payload => match ensureNode db now nodeId with
    | .error e => raise db e
    | .ok db1 => Nodes.refreshed (fun db2 => (Nodes.readConfig db2 nodeId).isSome)
        (commitLast db1 (Nodes.upsertNodeConfig db1 nodeId payload))
  | _ => done db ()

def handleParamsLocal (db : Db) (now : Time) (nodeId : Text) : Json → Reply Unit
  | .obj payload => match ensureNode db now nodeId with
    | .error e => raise db e
    | .ok db1 => Nodes.refreshed (fun db2 => (Nodes.readShadow db2 nodeId).isSome)
        (commitLast db1 (Nodes.upsertParamsShadow db1 nodeId payload))
  | _ => done db ()

def claimsOtherNode (nodeId : Text) (payload : JsonObject) : Bool :=
  match Dict.get? "node_id".toList payload with
  | none => false
  | some v => v.truthy && !Json.pyEq v (.str nodeId)

def matchChallenge (db : Db) (now : Time) (mappingId : Uuid) (nodeId secretKey : Text) :
    Reply Unit :=
  match scalarOneOrNone (db.mappingChallenges.select fun r =>
      r.secretKey == some secretKey && r.nodeId == some nodeId && r.status == .pending) with
  | .error e => raise db (.database e)
  | .ok none => done db ()
  | .ok (some challenge) =>
    if challenge.expiresAt < now then
      done (Access.setChallenge db challenge.id .expired challenge.completedAt) ()
    else commitLast db (Access.finaliseMapping db now mappingId challenge)

def handleUserMapping (db : Db) (now : Time) (mappingId : Uuid) (nodeId : Text) : Json → Reply Unit
  | .obj payload => match Dict.get? "secret_key".toList payload with
    | none => done db ()
    | some secret =>
      if secret.truthy = false then done db ()
      else if claimsOtherNode nodeId payload then done db ()
      else match secret with
      | .str s => matchChallenge db now mappingId nodeId s
      | _ => raise db (.database .dataError)
  | _ => done db ()

/-- `"." in full_name`, then `full_name.split(".", 1)`: only text splits, and
    only text, lists and objects can be searched. -/
def splitName : Json → Except Exc (Option (Text × Text))
  | .str s => .ok (Split.cut '.' s)
  | .arr xs => if xs.any (Json.pyEq (.str ".")) then .error .attributeError else .ok none
  | .obj d => if (Dict.keys d).contains "." then .error .attributeError else .ok none
  | _ => .error .typeError

def field (name : Text) (absent : Json) (d : JsonObject) : Json := (Dict.get? name d).getD absent

/-- The exceptions of a bad timestamp that a handler skips over. -/
def timestampOf (pf : Platform) (t : Json) : Except Exc (Option Int) :=
  match (Nodes.pyInt pf t).bind Nodes.fromTimestamp with
  | .ok ts => .ok (some ts)
  | .error .typeError => .ok none
  | .error .valueError => .ok none
  | .error .keyError => .ok none
  | .error e => .error e

/-- A record without a usable timestamp is skipped; anything but an object
    fails the subscript with a `TypeError` and is skipped too. -/
def pointOf (pf : Platform) : Json → Except Exc (Option (Int × Json))
  | .obj r => match Dict.get? "t".toList r with
    | none => .ok none
    | some t => (timestampOf pf t).map fun ts? => ts?.map fun ts => (ts,field "v" .null r)
  | _ => .ok none

def pointsOf (pf : Platform) : List Json → Except Exc (List (Int × Json))
  | [] => .ok []
  | r :: rest => match pointOf pf r with
    | .error e => .error e
    | .ok p? => (pointsOf pf rest).map fun ps => p?.toList ++ ps

def iterate (records : Json) : Except Exc (List Json) :=
  if records.truthy = false then .ok []
  else match records with
  | .arr xs => .ok xs
  | .str s => .ok (s.map fun c => .str [c])
  | .obj d => .ok ((Dict.keys d).map .str)
  | _ => .error .typeError

def tsdataEntry (pf : Platform) (db : Db) (nodeId : Text) : Json → Except Exc Db
  | .obj entry => match splitName (field "name" (.str []) entry) with
    | .error e => .error e
    | .ok none => .ok db
    | .ok (some (deviceName,paramName)) => match iterate (field "records" .null entry) with
      | .error e => .error e
      | .ok records => match pointsOf pf records with
        | .error e => .error e
        | .ok points => Nodes.insertTsdata pf db nodeId deviceName paramName
            (field "dt" (.str "int") entry) points
  | _ => .error .attributeError

def tsdataEntries (pf : Platform) (db : Db) (nodeId : Text) : List Json → Reply Unit
  | [] => done db ()
  | entry :: rest => match tsdataEntry pf db nodeId entry with
    | .error e => raise db e
    | .ok db' => tsdataEntries pf db' nodeId rest

def handleTsdata (pf : Platform) (db : Db) (nodeId : Text) : Json → Reply Unit
  | .obj payload => match Dict.get? "ts_data".toList payload with
    | some (.arr series) => tsdataEntries pf db nodeId series
    | _ => done db ()
  | _ => done db ()

def handleSimpleTsdata (pf : Platform) (db : Db) (nodeId : Text) : Json → Reply Unit
  | .obj payload => match splitName (field "name" (.str []) payload) with
    | .error e => raise db e
    | .ok none => done db ()
    | .ok (some (deviceName,paramName)) => match pointOf pf (.obj payload) with
      | .error e => raise db e
      | .ok none => done db ()
      | .ok (some point) => commitLast db (Nodes.insertTsdata pf db nodeId deviceName paramName
          (field "dt" (.str "int") payload) [point])
  | _ => done db ()

def handle (pf : Platform) (db : Db) (now : Time) (mappingId : Uuid) (nodeId suffix : Text)
    (payload : Json) : Reply Unit :=
  if suffix = Topics.config then handleConfig db now nodeId payload
  else if suffix = Topics.paramsLocal ∨ suffix = Topics.paramsLocalInit then
    handleParamsLocal db now nodeId payload
  else if suffix = Topics.userMapping then handleUserMapping db now mappingId nodeId payload
  else if suffix = Topics.tsdata then handleTsdata pf db nodeId payload
  else if suffix = Topics.simpleTsdata then handleSimpleTsdata pf db nodeId payload
  else done db ()

def dispatch (pf : Platform) (db : Db) (now : Time) (mappingId : Uuid) (topic : Text)
    (payload : Bytes) : Db :=
  match splitTopic topic with
  | none => db
  | some (nodeId,suffix) => match parsePayload pf payload with
    | none => db
    | some value => (handle pf db now mappingId nodeId suffix value).1

/-! What a message can do. -/

open Nodes in
theorem create_node_reports {db db' : Db} {now : Time} {n : Text}
    (ok : createNode db now n = .ok db') : Reports (cut 64 n) db db' := by
  obtain ⟨t,inserted,-,eq⟩ := commitInsert_ok ok
  subst eq
  refine ⟨⟨_,_,_,_,rfl⟩,?_,Table.insert_filter inserted (by simp [Schema.stored]),rfl,rfl,rfl⟩
  intro m present
  obtain ⟨r,stored,named⟩ := Db.hasNode_iff.mp present
  exact Db.hasNode_iff.mpr ⟨r,(Table.mem_insert inserted).mpr (Or.inl stored),named⟩

open Nodes in
theorem ensure_node_reports {db db' : Db} {now : Time} {n : Text}
    (ok : ensureNode db now n = .ok db') : Reports (cut 64 n) db db' := by
  unfold ensureNode at ok
  split at ok
  · cases ok
    exact Reports.refl _ db
  · exact create_node_reports ok

theorem ensure_node_frame {db db' : Db} {now : Time} {n : Text}
    (ok : ensureNode db now n = .ok db') : ∃ t, db' = {db with nodes := t} := by
  unfold ensureNode at ok
  split at ok
  · cases ok
    exact ⟨db.nodes,rfl⟩
  · obtain ⟨t,-,-,eq⟩ := commitInsert_ok ok
    exact ⟨t,eq⟩

open Nodes in
theorem commit_last_reports {n : Text} {db db' : Db} {last : Except Exc Db}
    (first : Reports n db db') (ok : ∀ db'', last = .ok db'' → Reports n db' db'') :
    Reports n db (commitLast db' last).1 := by
  unfold commitLast
  split
  · exact first
  · exact first.trans (ok _ rfl)

open Nodes in
theorem handle_config_reports {db : Db} {now : Time} {n : Text} {payload : Json} :
    Reports (cut 64 n) db (handleConfig db now n payload).1 := by
  unfold handleConfig
  split
  · split
    · exact Reports.refl _ db
    · rename_i ready
      rw [refreshed_db]
      exact commit_last_reports (ensure_node_reports ready) fun _ => commit_config_reports
  · exact Reports.refl _ db

open Nodes in
theorem handle_params_local_reports {db : Db} {now : Time} {n : Text} {payload : Json} :
    Reports (cut 64 n) db (handleParamsLocal db now n payload).1 := by
  unfold handleParamsLocal
  split
  · split
    · exact Reports.refl _ db
    · rename_i ready
      rw [refreshed_db]
      exact commit_last_reports (ensure_node_reports ready) fun _ => commit_shadow_reports
  · exact Reports.refl _ db

open Nodes in
theorem tsdata_entry_reports {pf : Platform} {db db' : Db} {n : Text} {entry : Json}
    (ok : tsdataEntry pf db n entry = .ok db') : Reports (cut 64 n) db db' := by
  unfold tsdataEntry at ok
  split at ok
  · split at ok
    · cases ok
    · cases ok
      exact Reports.refl _ db
    · split at ok
      · cases ok
      · split at ok
        · cases ok
        · exact insert_tsdata_reports ok
  · cases ok

open Nodes in
theorem tsdata_entries_reports {pf : Platform} {db : Db} {n : Text} {entries : List Json} :
    Reports (cut 64 n) db (tsdataEntries pf db n entries).1 := by
  induction entries generalizing db with
  | nil => exact Reports.refl _ db
  | cons entry rest ih =>
    unfold tsdataEntries
    split
    · exact Reports.refl _ db
    · rename_i stored
      exact (tsdata_entry_reports stored).trans ih

open Nodes in
theorem handle_tsdata_reports {pf : Platform} {db : Db} {n : Text} {payload : Json} :
    Reports (cut 64 n) db (handleTsdata pf db n payload).1 := by
  unfold handleTsdata
  split
  · split
    · exact tsdata_entries_reports
    · exact Reports.refl _ db
  · exact Reports.refl _ db

open Nodes in
theorem handle_simple_tsdata_reports {pf : Platform} {db : Db} {n : Text} {payload : Json} :
    Reports (cut 64 n) db (handleSimpleTsdata pf db n payload).1 := by
  unfold handleSimpleTsdata
  split
  · split
    · exact Reports.refl _ db
    · exact Reports.refl _ db
    · split
      · exact Reports.refl _ db
      · exact Reports.refl _ db
      · exact commit_last_reports (Reports.refl _ db) fun _ => insert_tsdata_reports
  · exact Reports.refl _ db

/-- A message of node `n` is a report, or it settles a pending challenge for
    `n` whose secret it carries. What it reports is stored under the name that
    the columns make of `n`. -/
inductive Ingested (db : Db) (now : Time) (mappingId : Uuid) (n : Text) : Db → Prop where
  | reported {db'} (report : Nodes.Reports (cut 64 n) db db') : Ingested db now mappingId n db'
  | expired (row : MappingChallenge) (stored : row ∈ db.mappingChallenges)
      (named : row.nodeId = some n) (pending : row.status = .pending) (late : row.expiresAt < now) :
      Ingested db now mappingId n (Access.setChallenge db row.id .expired row.completedAt)
  | finalised {db'} (row : MappingChallenge) (stored : row ∈ db.mappingChallenges)
      (named : row.nodeId = some n) (pending : row.status = .pending)
      (valid : now ≤ row.expiresAt)
      (done : Access.finaliseMapping db now mappingId row = .ok db') :
      Ingested db now mappingId n db'

/-- Only rows of node `n` are written, in the six tables of the ingestor. -/
structure Confined (n : Text) (db db' : Db) : Prop where
  frame : ∃ nodes configs shadows points mappings challenges, db' = {db with
    nodes := nodes, nodeConfigs := configs, nodeParamsShadow := shadows, tsdata := points,
    userNodeMappings := mappings, mappingChallenges := challenges}
  nodes : db'.nodes.rows.filter (·.nodeId != n) = db.nodes.rows.filter (·.nodeId != n)
  configs : db'.nodeConfigs.rows.filter (·.nodeId != n) =
    db.nodeConfigs.rows.filter (·.nodeId != n)
  shadows : db'.nodeParamsShadow.rows.filter (·.nodeId != n) =
    db.nodeParamsShadow.rows.filter (·.nodeId != n)
  points : db'.tsdata.filter (·.nodeId != n) = db.tsdata.filter (·.nodeId != n)
  mappings : db'.userNodeMappings.rows.filter (·.nodeId != n) =
    db.userNodeMappings.rows.filter (·.nodeId != n)
  challenges : db'.mappingChallenges.rows.filter (·.nodeId != some n) =
    db.mappingChallenges.rows.filter (·.nodeId != some n)

theorem confined_refl (n : Text) (db : Db) : Confined n db db :=
  ⟨⟨_,_,_,_,_,_,rfl⟩,rfl,rfl,rfl,rfl,rfl,rfl⟩

theorem set_challenge_filter {db : Db} {row : MappingChallenge} {n : Text}
    {status : MappingStatus} {completedAt : Option Time} (stored : row ∈ db.mappingChallenges)
    (named : row.nodeId = some n) :
    (Access.setChallenge db row.id status completedAt).mappingChallenges.rows.filter
        (·.nodeId != some n) = db.mappingChallenges.rows.filter (·.nodeId != some n) := by
  simp only [Access.setChallenge]
  rw [Table.update_filter]
  intro r member same
  have clash : Schema.conflict r row = true := by simp [Schema.conflict, same]
  have eq : r = row := Table.eq_of_conflict member stored clash
  subst eq
  simp [named]

theorem ingested_confined {db db' : Db} {now : Time} {mappingId : Uuid} {n : Text}
    (ingest : Ingested db now mappingId n db') :
    Confined (cut 64 n) db db' := by
  cases ingest with
  | reported report =>
    obtain ⟨_,_,_,_,eq⟩ := report.frame
    have nodes := report.nodes
    have configs := report.configs
    have shadows := report.shadows
    have points := report.points
    subst eq
    exact ⟨⟨_,_,_,_,_,_,rfl⟩,nodes,configs,shadows,points,rfl,rfl⟩
  | expired row stored named pending late =>
    rw [cut_of_varchar (Access.challenge_node_varchar stored named)]
    exact ⟨⟨_,_,_,_,_,_,rfl⟩,rfl,rfl,rfl,rfl,rfl,set_challenge_filter stored named⟩
  | finalised row stored named pending valid done =>
    rw [cut_of_varchar (Access.challenge_node_varchar stored named)]
    obtain ⟨m,target,⟨-,eq⟩ | ⟨t,inserted,-,-,eq⟩⟩ := Access.finalise_mapping_ok stored done
    · subst eq
      exact ⟨⟨_,_,_,_,_,_,rfl⟩,rfl,rfl,rfl,rfl,rfl,set_challenge_filter stored named⟩
    · subst eq
      have own : m = n := Option.some.inj (target.symm.trans named)
      subst own
      exact ⟨⟨_,_,_,_,_,_,rfl⟩,rfl,rfl,rfl,rfl,Table.appended_filter inserted (by simp),
        @set_challenge_filter {db with userNodeMappings := t} row m _ _ stored named⟩

theorem match_challenge_ingested {db : Db} {now : Time} {mappingId : Uuid} {n secretKey : Text} :
    Ingested db now mappingId n (matchChallenge db now mappingId n secretKey).1 := by
  unfold matchChallenge
  split
  · exact .reported (Nodes.Reports.refl _ db)
  · exact .reported (Nodes.Reports.refl _ db)
  · rename_i row found
    obtain ⟨stored,hit⟩ := scalar_mem found
    simp only [Bool.and_eq_true, beq_iff_eq] at hit
    split
    · rename_i late
      exact .expired row stored hit.1.2 hit.2 late
    · rename_i valid
      unfold commitLast
      split
      · exact .reported (Nodes.Reports.refl _ db)
      · rename_i ok
        exact .finalised row stored hit.1.2 hit.2 (Int.not_lt.mp valid) ok

theorem handle_ingested {pf : Platform} {db : Db} {now : Time} {mappingId : Uuid}
    {n suffix : Text} {payload : Json} :
    Ingested db now mappingId n (handle pf db now mappingId n suffix payload).1 := by
  unfold handle
  split
  · exact .reported handle_config_reports
  · split
    · exact .reported handle_params_local_reports
    · split
      · unfold handleUserMapping
        split
        · split
          · exact .reported (Nodes.Reports.refl _ db)
          · split
            · exact .reported (Nodes.Reports.refl _ db)
            · split
              · exact .reported (Nodes.Reports.refl _ db)
              · split
                · exact match_challenge_ingested
                · exact .reported (Nodes.Reports.refl _ db)
        · exact .reported (Nodes.Reports.refl _ db)
      · split
        · exact .reported handle_tsdata_reports
        · split
          · exact .reported handle_simple_tsdata_reports
          · exact .reported (Nodes.Reports.refl _ db)

theorem dispatch_cases (pf : Platform) (db : Db) (now : Time) (mappingId : Uuid) (topic : Text)
    (payload : Bytes) : dispatch pf db now mappingId topic payload = db ∨
      ∃ n suffix, splitTopic topic = some (n,suffix) ∧
        Ingested db now mappingId n (dispatch pf db now mappingId topic payload) := by
  unfold dispatch
  split
  · exact Or.inl rfl
  · rename_i n suffix split
    split
    · exact Or.inl rfl
    · exact Or.inr ⟨n,suffix,split,handle_ingested⟩

/-- The message is a mapping message of node `n` that carries the secret of the
    pending challenge `row` for `n`. -/
structure Matched (pf : Platform) (db : Db) (topic : Text) (payload : Bytes) (n : Text)
    (row : MappingChallenge) : Prop where
  topical : splitTopic topic = some (n,Topics.userMapping)
  secret : ∃ doc s, parsePayload pf payload = some (.obj doc) ∧
    Dict.get? "secret_key".toList doc = some (.str s) ∧ row.secretKey = some s
  stored : row ∈ db.mappingChallenges
  named : row.nodeId = some n
  pending : row.status = .pending

theorem reports_mappings {n : Text} {db db' : Db} (report : Nodes.Reports n db db') :
    db'.userNodeMappings = db.userNodeMappings := by
  obtain ⟨_,_,_,_,eq⟩ := report.frame
  rw [eq]

theorem match_challenge_maps (db : Db) (now : Time) (mappingId : Uuid) (n secretKey : Text) :
    (matchChallenge db now mappingId n secretKey).1.userNodeMappings = db.userNodeMappings ∨
      ∃ row ∈ db.mappingChallenges, row.secretKey = some secretKey ∧ row.nodeId = some n ∧
        row.status = .pending ∧ Access.finaliseMapping db now mappingId row =
          .ok (matchChallenge db now mappingId n secretKey).1 := by
  unfold matchChallenge
  split
  · exact Or.inl rfl
  · exact Or.inl rfl
  · rename_i row found
    obtain ⟨stored,hit⟩ := scalar_mem found
    simp only [Bool.and_eq_true, beq_iff_eq] at hit
    split
    · exact Or.inl rfl
    · unfold commitLast
      split
      · exact Or.inl rfl
      · rename_i ok
        exact Or.inr ⟨row,stored,hit.1.1,hit.1.2,hit.2,ok⟩

theorem dispatch_maps (pf : Platform) (db : Db) (now : Time) (mappingId : Uuid) (topic : Text)
    (payload : Bytes) :
    (dispatch pf db now mappingId topic payload).userNodeMappings = db.userNodeMappings ∨
      ∃ n row, Matched pf db topic payload n row ∧
        Access.finaliseMapping db now mappingId row =
          .ok (dispatch pf db now mappingId topic payload) := by
  unfold dispatch
  split
  · exact Or.inl rfl
  · rename_i n suffix topical
    split
    · exact Or.inl rfl
    · rename_i value parsed
      unfold handle
      split
      · exact Or.inl (reports_mappings handle_config_reports)
      · split
        · exact Or.inl (reports_mappings handle_params_local_reports)
        · split
          · rename_i mapping
            subst mapping
            unfold handleUserMapping
            split
            · rename_i doc
              split
              · exact Or.inl rfl
              · rename_i secret carried
                split
                · exact Or.inl rfl
                · split
                  · exact Or.inl rfl
                  · split
                    · rename_i s _
                      rcases match_challenge_maps db now mappingId n s with
                        same | ⟨row,stored,key,named,pending,ok⟩
                      · exact Or.inl same
                      · exact Or.inr ⟨n,row,⟨topical,⟨doc,s,parsed,carried,key⟩,stored,named,
                          pending⟩,ok⟩
                    · exact Or.inl rfl
            · exact Or.inl rfl
          · split
            · exact Or.inl (reports_mappings handle_tsdata_reports)
            · split
              · exact Or.inl (reports_mappings handle_simple_tsdata_reports)
              · exact Or.inl rfl

theorem dispatch_confined {pf : Platform} {db : Db} {now : Time} {mappingId : Uuid}
    {topic : Text} {payload : Bytes} {n : Text}
    (own : splitTopic topic = none ∨ ∃ suffix, splitTopic topic = some (n,suffix)) :
    Confined (cut 64 n) db (dispatch pf db now mappingId topic payload) := by
  rcases dispatch_cases pf db now mappingId topic payload with eq | ⟨m,suffix,topical,ingest⟩
  · rw [eq]
    exact confined_refl _ db
  · rcases own with none | ⟨suffix',same⟩
    · rw [none] at topical
      cases topical
    · rw [same] at topical
      cases topical
      exact ingested_confined ingest

/-- Whatever a message says and however its handler ends, it writes rows of the
    node its topic names, as the columns store that name, in six tables; a message
    without one writes nothing. -/
theorem ingest_isolation (pf : Platform) (db : Db) (now : Time) (mappingId : Uuid) (topic : Text)
    (payload : Bytes) :
    (splitTopic topic = none → dispatch pf db now mappingId topic payload = db) ∧
      ∀ n suffix, splitTopic topic = some (n,suffix) →
        Confined (cut 64 n) db (dispatch pf db now mappingId topic payload) := by
  constructor
  · intro unnamed
    simp only [dispatch, unnamed]
  · intro n suffix named
    exact dispatch_confined (Or.inr ⟨suffix,named⟩)

/-! A name of 64 characters, and a topic with a space behind it. -/

def wideNode : Text := List.replicate 64 'n'

def paddedTopic : Text := "node/".toList ++ wideNode ++ " /params/local".toList

def emptyReport : Bytes := [123,125]

def reportPlatform : Platform := {Deployment.platform with
  jsonLoads := fun body => if body = emptyReport then some (.obj []) else none}

/-- The column cuts the space, so what is written are rows of the other name. -/
theorem padded_topic_writes_another_node :
    splitTopic paddedTopic = some (wideNode ++ [' '],Topics.paramsLocal) ∧
      (dispatch reportPlatform .empty 30 0 paddedTopic emptyReport).nodes.rows.map (·.nodeId) =
        [wideNode] ∧
      ¬ Confined (wideNode ++ [' ']) .empty
        (dispatch reportPlatform .empty 30 0 paddedTopic emptyReport) := by
  have written : (dispatch reportPlatform .empty 30 0 paddedTopic emptyReport).nodes.rows.map
      (·.nodeId) = [wideNode] := by
    decide +kernel
  refine ⟨by decide +kernel,written,?_⟩
  intro confined
  have others := confined.nodes
  have stored : wideNode ∈ (dispatch reportPlatform .empty 30 0 paddedTopic
      emptyReport).nodes.rows.map (·.nodeId) := by
    rw [written]
    exact List.mem_singleton.mpr rfl
  obtain ⟨r,member,named⟩ := List.mem_map.mp stored
  have apart : (r.nodeId != wideNode ++ [' ']) = true := by
    rw [named]
    decide
  have present : r ∈ (dispatch reportPlatform .empty 30 0 paddedTopic emptyReport).nodes.rows.filter
      (·.nodeId != wideNode ++ [' ']) := List.mem_filter.mpr ⟨member,apart⟩
  rw [others] at present
  exact List.not_mem_nil present

end RainmakerServer.Mqtt
