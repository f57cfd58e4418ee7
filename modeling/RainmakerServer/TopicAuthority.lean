import RainmakerServer.Lib.Levels
import RainmakerServer.ClaimIdentity

/-!
What the topics of a claimed device mean to others. Publishing is decided by a
prefix of the topic, the ingestor attributes a message by splitting it, and the
broker reads a subscription as a filter over levels. The three agree for the
names the claim flows are meant to mint; a name may however be any text.
-/
namespace RainmakerServer.TopicAuthority
open Tables Runs Api ClaimIdentity

theorem run_names {pf : Platform} {w : World} {cs : List Call} (free : ClaimFree w.db)
    {cert : NodeCertificate} (stored : cert ∈ (run (step pf) w cs).db.nodeCertificates) :
    ∃ c ∈ cs, ∃ macAddr, mints c = some macAddr ∧ cert.cn = Claim.storedNodeId pf macAddr := by
  have minted : Minted (fun x => ∃ c ∈ cs, ∃ macAddr, mints c = some macAddr ∧
      x = Claim.storedNodeId pf macAddr) (run (step pf) w cs).db := by
    apply run_minted free
    intro c member macAddr named
    exact ⟨c,member,macAddr,named,rfl⟩
  exact (minted.certificates cert stored).2

/-! Publishing. -/

/-- Whatever `x` may publish, the ingestor attributes to `x` or drops. -/
def AttributedToSender (pf : Platform) (x : Text) : Prop :=
  ∀ topic, VmqAuthz.authorisePublish pf (some x) topic = .ok →
    Mqtt.splitTopic topic = none ∨ ∃ suffix, Mqtt.splitTopic topic = some (x,suffix)

def WritesOwnRows (pf : Platform) (x : Text) : Prop :=
  ∀ topic, VmqAuthz.authorisePublish pf (some x) topic = .ok →
    ∀ db now mappingId payload,
      Mqtt.Confined x db (Mqtt.dispatch pf db now mappingId topic payload)

/-- The name has no slash, or the ingestor drops all its topics because the
    first level of the name is empty. -/
def Addressable (x : Text) : Prop := '/' ∉ x ∨ ∃ rest, x = '/' :: rest

instance (x : Text) : Decidable (Addressable x) :=
  decidable_of_iff ('/' ∉ x ∨ x.head? = some '/') (by
    unfold Addressable
    cases x with
    | nil => simp
    | cons c cs => simp [eq_comm])

theorem allowed_topic_levels {x topic : Text} : VmqAuthz.allowedTopic x topic = true ↔
    ∃ rest, topic = "node".toList ++ '/' :: (x ++ '/' :: rest) := by
  rw [VmqAuthz.allowed_topic_iff]
  constructor
  · rintro ⟨rest,eq⟩
    exact ⟨rest,by rw [eq]; exact Mqtt.node_topic_levels x rest⟩
  · rintro ⟨rest,eq⟩
    exact ⟨rest,by rw [eq]; exact (Mqtt.node_topic_levels x rest).symm⟩

theorem allowed_topic_owner {a b topic : Text} (clearA : '/' ∉ a) (clearB : '/' ∉ b)
    (first : VmqAuthz.allowedTopic a topic = true)
    (second : VmqAuthz.allowedTopic b topic = true) : a = b := by
  obtain ⟨restA,builtA⟩ := allowed_topic_levels.mp first
  obtain ⟨restB,builtB⟩ := allowed_topic_levels.mp second
  have same : '/' :: (a ++ '/' :: restA) = '/' :: (b ++ '/' :: restB) := by
    rw [builtA] at builtB
    exact List.append_cancel_left builtB
  have cutA : Split.cut '/' (a ++ '/' :: restA) = some (a,restA) := Split.cut_append clearA
  have cutB : Split.cut '/' (b ++ '/' :: restB) = some (b,restB) := Split.cut_append clearB
  rw [(List.cons.inj same).2,cutB] at cutA
  cases cutA
  rfl

/-- Building, parsing and permitting a topic describe one grammar. -/
theorem topics_have_one_reading :
    (∀ t n s, Mqtt.splitTopic t = some (n,s) ↔
      t = Mqtt.Topics.nodeTopic n s ∧ n ≠ [] ∧ '/' ∉ n ∧ s ≠ []) ∧
    (∀ a b : Text, a ≠ [] → '/' ∉ a → b ≠ [] → '/' ∉ b → a ≠ b →
      ¬ ∃ t, VmqAuthz.allowedTopic a t = true ∧ VmqAuthz.allowedTopic b t = true) := by
  constructor
  · intro t n s
    exact Mqtt.split_topic_iff
  · intro a b _ clearA _ clearB distinct shared
    obtain ⟨t,first,second⟩ := shared
    exact distinct (allowed_topic_owner clearA clearB first second)

theorem prefixed_names_share_no_topic :
    ¬ ∃ t, VmqAuthz.allowedTopic "ab" t = true ∧ VmqAuthz.allowedTopic "abc" t = true :=
  topics_have_one_reading.2 "ab".toList "abc".toList (by decide) (by decide) (by decide)
    (by decide) (by decide)

variable {pf : Platform} {x : Text}

theorem attributed_of_addressable (device : VmqAuthz.isBackend pf (some x) = false)
    (address : Addressable x) : AttributedToSender pf x := by
  intro topic ok
  obtain ⟨rest,eq⟩ := allowed_topic_levels.mp ((treated_as_device device).publish topic ok)
  cases found : Mqtt.splitTopic topic with
  | none => exact Or.inl rfl
  | some p =>
    right
    obtain ⟨n,suffix⟩ := p
    obtain ⟨built,named,clean,-⟩ := Mqtt.split_topic_iff.mp found
    -- both readings cut the same text at its first slash after `node/`
    have same : n ++ '/' :: suffix = x ++ '/' :: rest := by
      rw [built,Mqtt.node_topic_levels] at eq
      exact List.cons.inj (List.append_cancel_left eq) |>.2
    have cutting : Split.cut '/' (x ++ '/' :: rest) = some (n,suffix) := by
      rw [← same]
      exact Split.cut_append clean
    rcases address with clear | ⟨tail,lead⟩
    · rw [Split.cut_append clear] at cutting
      cases cutting
      exact ⟨_,rfl⟩
    · subst lead
      cases cutting
      exact absurd rfl named

theorem misattributed (device : VmqAuthz.isBackend pf (some x) = false)
    (address : ¬ Addressable x) : ∃ topic n suffix,
      VmqAuthz.authorisePublish pf (some x) topic = .ok ∧
        Mqtt.splitTopic topic = some (n,suffix) ∧ n ≠ x := by
  simp only [Addressable, not_or, not_not] at address
  obtain ⟨inner,lead⟩ := address
  obtain ⟨n,b,cutting⟩ := Split.cut_of_mem inner
  obtain ⟨eq,clean⟩ := Split.cut_some cutting
  have named : n ≠ [] := by
    intro empty
    subst empty
    exact lead ⟨b,eq⟩
  have present : x ≠ [] := by
    intro empty
    rw [empty] at inner
    cases inner
  refine ⟨Mqtt.Topics.nodeTopic n (b ++ "/".toList),n,b ++ "/".toList,?_,?_,?_⟩
  · rw [VmqAuthz.publish_ok_iff device present,allowed_topic_levels]
    refine ⟨[],?_⟩
    rw [Mqtt.node_topic_levels,eq]
    simp
  · exact Mqtt.split_topic_iff.mpr ⟨rfl,named,clean,by simp⟩
  · intro same
    rw [same] at clean
    exact clean inner

theorem attributed_iff (device : VmqAuthz.isBackend pf (some x) = false) (short : cut 64 x = x) :
    (AttributedToSender pf x ∧ WritesOwnRows pf x) ↔ Addressable x := by
  constructor
  · rintro ⟨attributed,-⟩
    by_contra address
    obtain ⟨topic,n,suffix,ok,found,other⟩ := misattributed device address
    rcases attributed topic ok with none | ⟨suffix',own⟩
    · rw [none] at found
      cases found
    · rw [own] at found
      cases found
      exact other rfl
  · intro address
    have attributed := attributed_of_addressable device address
    refine ⟨attributed,?_⟩
    intro topic ok db now mappingId payload
    have confined := @Mqtt.dispatch_confined pf db now mappingId topic payload _
      (attributed topic ok)
    rwa [short] at confined

/-- In every state of every run, the ingestor agrees with the hooks about a
    claimed device, and the device writes its own rows only, exactly when the
    lowercased MAC address it was claimed with is addressable. -/
theorem publish_attribution (pf : Platform) (w : World) (cs : List Call) (free : ClaimFree w.db) :
    ∀ cert ∈ (run (step pf) w cs).db.nodeCertificates,
      VmqAuthz.isBackend pf (some cert.cn) = false →
        ∃ c ∈ cs, ∃ macAddr, mints c = some macAddr ∧
          cert.cn = Claim.storedNodeId pf macAddr ∧
          ((AttributedToSender pf cert.cn ∧ WritesOwnRows pf cert.cn) ↔
            Addressable (Claim.storedNodeId pf macAddr)) := by
  intro cert stored device
  obtain ⟨c,member,macAddr,minted,eq⟩ := run_names free stored
  refine ⟨c,member,macAddr,minted,eq,?_⟩
  have short : cut 64 cert.cn = cert.cn := by
    simp [eq, Claim.storedNodeId, cut]
  rw [← eq]
  exact attributed_iff device short

theorem claimed_mac_is_attributed :
    (run (step Deployment.platform) oneUser
      (assistedClaim "AABBCCDDEEFF")).db.nodeCertificates.rows.map (·.cn) =
        ["aabbccddeeff".toList] ∧
      ∀ cert ∈ (run (step Deployment.platform) oneUser
        (assistedClaim "AABBCCDDEEFF")).db.nodeCertificates,
        VmqAuthz.isBackend Deployment.platform (some cert.cn) = false →
          ∃ c ∈ assistedClaim "AABBCCDDEEFF", ∃ macAddr, mints c = some macAddr ∧
            cert.cn = Claim.storedNodeId Deployment.platform macAddr ∧
            ((AttributedToSender Deployment.platform cert.cn ∧
                WritesOwnRows Deployment.platform cert.cn) ↔
              Addressable (Claim.storedNodeId Deployment.platform macAddr)) :=
  ⟨assisted_claim_name,publish_attribution Deployment.platform oneUser _ ⟨rfl,rfl⟩⟩

/-- A device claimed as `aabbccddeeff/params` reports parameters of
    `aabbccddeeff`. -/
theorem slash_in_name_speaks_for_another :
    ClaimFree oneUser.db ∧
      (run (step Deployment.platform) oneUser
        (assistedClaim "AABBCCDDEEFF/params")).db.nodeCertificates.rows.map (·.cn) =
          ["aabbccddeeff/params".toList] ∧
      VmqAuthz.isBackend Deployment.platform (some "aabbccddeeff/params".toList) = false ∧
      VmqAuthz.authorisePublish Deployment.platform (some "aabbccddeeff/params".toList)
        "node/aabbccddeeff/params/local" = .ok ∧
      Mqtt.splitTopic "node/aabbccddeeff/params/local" =
        some ("aabbccddeeff".toList,"params/local".toList) :=
  ⟨⟨rfl,rfl⟩,by decide +kernel,by decide +kernel,by decide +kernel,by decide +kernel⟩

/-! Subscribing. -/

def levels (topic : Text) : List Text := topic.splitOn '/'

def singleLevel : Text := "+"
def multiLevel : Text := "#"

def filterMatches (filter topic : Text) : Bool :=
  Levels.matchLevels singleLevel multiLevel (levels filter) (levels topic)

/-- A topic that can be published to has no wildcard characters. -/
def Concrete (topic : Text) : Prop := '+' ∉ topic ∧ '#' ∉ topic

def InNamespace (x topic : Text) : Prop :=
  topic = ("node/" : Text) ++ x ∨ VmqAuthz.allowedTopic x topic = true

/-- Every message that a granted subscription of `x` delivers is of `x`. -/
def ReceivesOwnTopics (pf : Platform) (x : Text) : Prop :=
  ∀ ts, VmqAuthz.authoriseSubscribe pf (some x) (some ts) = .ok →
    ∀ f ∈ ts, ∀ topic, Concrete topic → filterMatches (f.getD []) topic = true →
      InNamespace x topic

/-- No level of the name is a wildcard, or the name has a level that makes every
    filter below it match nothing. -/
def Unambiguous (x : Text) : Prop := singleLevel ∉ levels x ∨
  ∃ l ∈ levels x, l ≠ singleLevel ∧ ('+' ∈ l ∨ '#' ∈ l)

instance (x : Text) : Decidable (Unambiguous x) := inferInstanceAs (Decidable
  (singleLevel ∉ levels x ∨ ∃ l ∈ levels x, l ≠ singleLevel ∧ ('+' ∈ l ∨ '#' ∈ l)))

theorem levels_below_node (x rest : Text) :
    levels ("node".toList ++ '/' :: (x ++ '/' :: rest)) =
      ("node".toList :: levels x) ++ levels rest := by
  have root : '/' ∉ "node".toList := by decide
  unfold levels
  rw [List.splitOn_append_cons_self_of_not_mem root,List.splitOn_append_cons_self,List.cons_append]

theorem levels_node (x : Text) : levels ("node".toList ++ '/' :: x) = "node".toList :: levels x := by
  have root : '/' ∉ "node".toList := by decide
  unfold levels
  rw [List.splitOn_append_cons_self_of_not_mem root]

theorem node_below (x : Text) : ("node/" : Text) ++ x = "node".toList ++ '/' :: x := by
  have head : "node/".toList = "node".toList ++ ['/'] := by decide
  rw [head,List.append_assoc,List.singleton_append]

theorem in_namespace_of_levels {x topic : Text} {bs : List Text}
    (eq : levels topic = ("node".toList :: levels x) ++ bs) : InNamespace x topic := by
  by_cases last : bs = []
  · left
    rw [last,List.append_nil,← levels_node] at eq
    rw [node_below]
    exact Levels.split_injective eq
  · right
    have clean : ∀ l ∈ bs, '/' ∉ l := by
      intro l member
      have level : l ∈ levels topic := by
        rw [eq]
        exact List.mem_append_right _ member
      exact Levels.sep_not_mem_level level
    have rest : levels (['/'].intercalate bs) = bs := List.splitOn_intercalate '/' clean last
    refine allowed_topic_levels.mpr ⟨['/'].intercalate bs,?_⟩
    rw [← rest,← levels_below_node] at eq
    exact Levels.split_injective eq

theorem node_is_plain : "node".toList ≠ singleLevel := by decide

theorem filter_matches_iff {x rest topic : Text} :
    filterMatches ("node".toList ++ '/' :: (x ++ '/' :: rest)) topic = true ↔
      ∃ as bs, levels topic = ("node".toList :: as) ++ bs ∧
        List.Forall₂ (Levels.Admits singleLevel) (levels x) as ∧
        Levels.matchLevels singleLevel multiLevel (levels rest) bs = true := by
  have more : levels rest ≠ [] := List.splitOn_ne_nil '/' rest
  unfold filterMatches
  rw [levels_below_node,Levels.match_append_iff singleLevel multiLevel more]
  constructor
  · rintro ⟨as,bs,eq,front,back⟩
    cases front with
    | cons admits others =>
      rcases admits with wild | same
      · exact absurd wild node_is_plain
      · subst same
        exact ⟨_,bs,eq,others,back⟩
  · rintro ⟨as,bs,eq,front,back⟩
    exact ⟨"node".toList :: as,bs,eq,.cons (Or.inr rfl) front,back⟩

theorem receives_of_unambiguous (device : VmqAuthz.isBackend pf (some x) = false)
    (clear : Unambiguous x) : ReceivesOwnTopics pf x := by
  intro ts ok f member topic concrete matched
  obtain ⟨rest,eq⟩ := allowed_topic_levels.mp ((treated_as_device device).subscribe ts ok f member)
  rw [eq] at matched
  obtain ⟨as,bs,shape,admitted,-⟩ := filter_matches_iff.mp matched
  rcases clear with plain | ⟨l,level,other,wild⟩
  · rw [Levels.admitted_eq singleLevel plain admitted] at shape
    exact in_namespace_of_levels shape
  · -- the literal wildcard would have to be a level of the topic
    have present : l ∈ levels topic := by
      rw [shape]
      have found := Levels.admitted_mem singleLevel level other admitted
      exact List.mem_append_left _ (List.mem_cons_of_mem _ found)
    rcases wild with plus | hash
    · exact absurd (Levels.mem_of_level present plus) concrete.1
    · exact absurd (Levels.mem_of_level present hash) concrete.2

def other (l : Text) : Text := if l = singleLevel then "x" else l

def otherTopic (x : Text) : Text :=
  ['/'].intercalate ("node".toList :: ((levels x).map other ++ ["x".toList]))

theorem other_plain {l : Text} (clear : l = singleLevel ∨ ('+' ∉ l ∧ '#' ∉ l)) (clean : '/' ∉ l) :
    '+' ∉ other l ∧ '#' ∉ other l ∧ '/' ∉ other l := by
  unfold other
  split
  · decide
  · rename_i plain
    rcases clear with wild | literal
    · exact absurd wild plain
    · exact ⟨literal.1,literal.2,clean⟩

theorem other_ne_single (l : Text) : other l ≠ singleLevel := by
  unfold other
  split
  · decide
  · rename_i plain
    exact plain

theorem other_admitted (l : Text) : Levels.Admits singleLevel l (other l) := by
  unfold other
  split
  · rename_i wild
    exact Or.inl wild
  · exact Or.inr rfl

theorem overheard (device : VmqAuthz.isBackend pf (some x) = false) (ambiguous : ¬ Unambiguous x) :
    ¬ ReceivesOwnTopics pf x := by
  simp only [Unambiguous, not_or, not_not, not_exists, not_and] at ambiguous
  obtain ⟨wild,literal⟩ := ambiguous
  have parts : ∀ l ∈ "node".toList :: ((levels x).map other ++ ["x".toList]),
      '+' ∉ l ∧ '#' ∉ l ∧ '/' ∉ l := by
    intro l member
    rw [List.mem_cons,List.mem_append,List.mem_map,List.mem_singleton] at member
    rcases member with root | ⟨k,level,eq⟩ | last
    · subst root
      decide
    · subst eq
      apply other_plain _ (Levels.sep_not_mem_level level)
      by_cases single : k = singleLevel
      · exact Or.inl single
      · exact Or.inr (literal k level single)
    · subst last
      decide
  have shape : levels (otherTopic x) = ("node".toList :: (levels x).map other) ++ ["x".toList] :=
    List.splitOn_intercalate '/' (fun l member => (parts l member).2.2) (by simp)
  have concrete : Concrete (otherTopic x) := by
    constructor
    · intro inside
      rcases Levels.mem_join inside with slash | ⟨l,level,there⟩
      · cases slash
      · exact (parts l level).1 there
    · intro inside
      rcases Levels.mem_join inside with slash | ⟨l,level,there⟩
      · cases slash
      · exact (parts l level).2.1 there
  have present : x ≠ [] := by
    intro empty
    subst empty
    revert wild
    decide
  intro receives
  have granted : VmqAuthz.authoriseSubscribe pf (some x)
      (some [some (Mqtt.Topics.nodeTopic x "x")]) = .ok := by
    rw [VmqAuthz.subscribe_ok_iff device present]
    intro t member
    rw [List.mem_singleton] at member
    subst member
    exact allowed_topic_levels.mpr ⟨"x".toList,Mqtt.node_topic_levels x "x"⟩
  have matched : filterMatches (Mqtt.Topics.nodeTopic x "x") (otherTopic x) = true := by
    rw [Mqtt.node_topic_levels]
    refine filter_matches_iff.mpr ⟨(levels x).map other,["x".toList],shape,?_,by decide⟩
    rw [List.forall₂_map_right_iff,List.forall₂_same]
    intro l _
    exact other_admitted l
  have inside := receives _ granted _ (List.mem_singleton_self _) _ concrete matched
  rcases inside with eq | below
  · rw [eq,node_below,levels_node] at shape
    have sizes := congrArg List.length shape
    simp only [List.length_append, List.length_cons, List.length_map, List.length_nil] at sizes
    omega
  · obtain ⟨rest,eq⟩ := allowed_topic_levels.mp below
    rw [eq,levels_below_node,List.cons_append,List.cons_append,List.cons.injEq] at shape
    have same : levels x = (levels x).map other := List.append_inj_left shape.2 (by simp)
    rw [same,List.mem_map] at wild
    obtain ⟨l,-,single⟩ := wild
    exact other_ne_single l single

theorem receives_iff (device : VmqAuthz.isBackend pf (some x) = false) :
    ReceivesOwnTopics pf x ↔ Unambiguous x := by
  constructor
  · intro receives
    by_contra ambiguous
    exact overheard device ambiguous receives
  · exact receives_of_unambiguous device

/-- In every state of every run, a claimed device hears its own namespace only
    exactly when the lowercased MAC address it was claimed with is unambiguous. -/
theorem subscription_confinement (pf : Platform) (w : World) (cs : List Call)
    (free : ClaimFree w.db) :
    ∀ cert ∈ (run (step pf) w cs).db.nodeCertificates,
      VmqAuthz.isBackend pf (some cert.cn) = false →
        ∃ c ∈ cs, ∃ macAddr, mints c = some macAddr ∧
          cert.cn = Claim.storedNodeId pf macAddr ∧
          (ReceivesOwnTopics pf cert.cn ↔ Unambiguous (Claim.storedNodeId pf macAddr)) := by
  intro cert stored device
  obtain ⟨c,member,macAddr,minted,eq⟩ := run_names free stored
  refine ⟨c,member,macAddr,minted,eq,?_⟩
  rw [← eq]
  exact receives_iff device

theorem claimed_mac_is_confined :
    (run (step Deployment.platform) oneUser
      (assistedClaim "AABBCCDDEEFF")).db.nodeCertificates.rows.map (·.cn) =
        ["aabbccddeeff".toList] ∧
      ∀ cert ∈ (run (step Deployment.platform) oneUser
        (assistedClaim "AABBCCDDEEFF")).db.nodeCertificates,
        VmqAuthz.isBackend Deployment.platform (some cert.cn) = false →
          ∃ c ∈ assistedClaim "AABBCCDDEEFF", ∃ macAddr, mints c = some macAddr ∧
            cert.cn = Claim.storedNodeId Deployment.platform macAddr ∧
            (ReceivesOwnTopics Deployment.platform cert.cn ↔
              Unambiguous (Claim.storedNodeId Deployment.platform macAddr)) :=
  ⟨assisted_claim_name,subscription_confinement Deployment.platform oneUser _ ⟨rfl,rfl⟩⟩

/-- A device claimed as `+` hears the topics of every node. -/
theorem plus_name_hears_another :
    ClaimFree oneUser.db ∧
      (run (step Deployment.platform) oneUser
        (assistedClaim "+")).db.nodeCertificates.rows.map (·.cn) = ["+".toList] ∧
      VmqAuthz.isBackend Deployment.platform (some "+".toList) = false ∧
      VmqAuthz.authoriseSubscribe Deployment.platform (some "+".toList)
        (some [some "node/+/#".toList]) = .ok ∧
      Concrete "node/aabbccddeeff/params/remote" ∧
      filterMatches "node/+/#" "node/aabbccddeeff/params/remote" = true ∧
      ¬ InNamespace "+" "node/aabbccddeeff/params/remote" := by
  refine ⟨⟨rfl,rfl⟩,by decide +kernel,by decide +kernel,by decide +kernel,?_,by decide +kernel,?_⟩
  · constructor <;> decide
  · rintro (eq | below)
    · revert eq
      decide
    · revert below
      decide

end RainmakerServer.TopicAuthority
