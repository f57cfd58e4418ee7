import RainmakerServer.Sessions

/-!
The two checks of the `Authorization` header. `get_current_user` looks for the
`Bearer` prefix before it strips the header and tells an expired token from an
invalid one; `claim._resolve_user_from_header` strips first. Both accept the
same headers, for the same account, and refuse all others with a 401.
-/
namespace RainmakerServer.HeaderChecks
open Tables Runs Accounts Sessions

/-- Lowering goes character by character on ASCII and on white space. -/
def LowersPrefix (pf : Platform) : Prop := ∀ a b : Text,
  (∀ c ∈ a, c.val < 128 ∨ isSpace c = true) → ∃ rest, pf.lower (a ++ b) = a.map Char.toLower ++ rest

/-- The compact serialisation: base64url parts with dots between them. -/
def CompactText (pf : Platform) (tokens : List Claims) : Prop := ∀ c ∈ tokens,
  (∀ x ∈ pf.jwtEncode c, x.val < 128 ∧ isSpace x = false) ∧ '.' ∈ pf.jwtEncode c

/-- The header is, up to white space, an access token for the account. -/
def Carries (pf : Platform) (tokens : List Claims) (now : Time) (header : Text) (user : User) :
    Prop :=
  ∃ c ∈ tokens, c.tokenUse = .access ∧ c.sub = pf.uuidStr user.id ∧
    strip header = pf.jwtEncode c ∧ now < seconds c.exp

/-! The prefix. -/

theorem strip_parts (s : Text) : ∃ a b, s = a ++ (strip s ++ b) ∧ (∀ c ∈ a, isSpace c = true) ∧
    ∀ c ∈ b, isSpace c = true := by
  refine ⟨s.takeWhile isSpace,(s.dropWhile isSpace).rtakeWhile isSpace,?_,?_,?_⟩
  · unfold strip
    rw [List.rdropWhile_append_rtakeWhile,List.takeWhile_append_dropWhile]
  · intro c member
    exact List.mem_takeWhile_imp member
  · intro c member
    exact List.mem_rtakeWhile_imp member

theorem space_lower {c : Char} (space : isSpace c = true) : c.toLower = c := by
  unfold Char.toLower
  split
  · rename_i upper
    exfalso
    obtain ⟨low,high⟩ := upper
    have low' : 65 ≤ c.toNat := low
    have high' : c.toNat ≤ 90 := high
    simp only [isSpace, Bool.or_eq_true, Bool.and_eq_true, decide_eq_true_eq, beq_iff_eq] at space
    omega
  · rfl

theorem lower_space {c : Char} (lowered : c.toLower = ' ') : c = ' ' := by
  unfold Char.toLower at lowered
  split at lowered
  · rename_i upper
    exfalso
    have low : 65 ≤ c.val.toNat := upper.1
    have high : c.val.toNat ≤ 90 := upper.2
    have code : (c.val + 32).toNat = 32 := congrArg Char.toNat lowered
    rw [UInt32.toNat_add] at code
    have shift : (32 : UInt32).toNat = 32 := rfl
    omega
  · exact lowered

theorem no_bearer {pf : Platform} (lowers : LowersPrefix pf) {a t b : Text}
    (spaces : ∀ c ∈ a, isSpace c = true) (ascii : ∀ x ∈ t, x.val < 128 ∧ isSpace x = false)
    (dotted : '.' ∈ t) : "bearer ".toList.isPrefixOf (pf.lower (a ++ (t ++ b))) = false := by
  by_contra found
  rw [Bool.not_eq_false,List.isPrefixOf_iff_prefix] at found
  cases a with
  | cons x rest =>
    have head : isSpace x = true := spaces x (by simp)
    obtain ⟨after,eq⟩ := lowers [x] (rest ++ (t ++ b)) (by
      intro c member
      rw [List.mem_singleton.mp member]
      exact Or.inr head)
    obtain ⟨tail,same⟩ := found
    have whole : x :: rest ++ (t ++ b) = [x] ++ (rest ++ (t ++ b)) := rfl
    rw [whole,eq,List.map_singleton,space_lower head] at same
    have letter : 'b' = x := (List.cons.inj same).1
    rw [← letter] at head
    cases head
  | nil =>
    obtain ⟨after,eq⟩ := lowers t b (by
      intro c member
      exact Or.inl (ascii c member).1)
    rw [List.nil_append,eq] at found
    have own : t.map Char.toLower <+: t.map Char.toLower ++ after := List.prefix_append _ _
    rcases List.prefix_or_prefix_of_prefix found own with inside | short
    · have blank : ' ' ∈ t.map Char.toLower := inside.subset (by decide)
      obtain ⟨c,member,lowered⟩ := List.mem_map.mp blank
      rw [lower_space lowered] at member
      have plain := (ascii ' ' member).2
      cases plain
    · have dot : '.' ∈ t.map Char.toLower := List.mem_map.mpr ⟨'.',dotted,by decide⟩
      have letter : '.' ∈ "bearer ".toList := short.subset dot
      exact absurd letter (by decide)

section
variable {pf : Platform} {tokens : List Claims} {header : Text}

theorem token_header_not_bearer (lowers : LowersPrefix pf) (compact : CompactText pf tokens)
    {c : Claims} (member : c ∈ tokens) (eq : strip header = pf.jwtEncode c) :
    "bearer ".toList.isPrefixOf (pf.lower header) = false ∧
      "bearer ".toList.isPrefixOf (pf.lower (strip header)) = false := by
  obtain ⟨ascii,dotted⟩ := compact c member
  rw [← eq] at ascii dotted
  obtain ⟨a,b,parts,before,-⟩ := strip_parts header
  constructor
  · have whole := no_bearer lowers (b := b) before ascii dotted
    rw [← parts] at whole
    exact whole
  · have bare := no_bearer lowers (a := []) (b := []) (by simp) ascii dotted
    rw [List.nil_append,List.append_nil] at bare
    exact bare

/-! Each check. -/

theorem decode_token_raises (jwt : Jwt pf tokens) {token : Text} {now : Time} {kind : TokenKind}
    {e : Exc} (raised : decodeToken pf now token kind = .error e) :
    e = .expiredSignatureError ∨ e = .pyJWTError := by
  unfold decodeToken at raised
  cases decoded : pf.jwtDecode now token with
  | error f =>
    rw [decoded] at raised
    cases raised
    have unknown : ∀ c ∈ tokens, now < seconds c.exp → token ≠ pf.jwtEncode c := by
      intro c member valid eq
      rw [(jwt_decode_iff jwt).mpr ⟨member,valid,eq⟩] at decoded
      cases decoded
    rcases jwt.raises token now unknown with expired | invalid
    · rw [decoded] at expired
      cases expired
      exact Or.inl rfl
    · rw [decoded] at invalid
      cases invalid
      exact Or.inr rfl
  | ok c =>
    rw [decoded] at raised
    dsimp only at raised
    split at raised
    · cases raised
      exact Or.inr rfl
    · cases raised

theorem get_current_user_ok {db : Db} {now : Time} {user : User} (full : header ≠ []) :
    getCurrentUser pf db now (some header) = .ok user ↔
      "bearer ".toList.isPrefixOf (pf.lower header) = false ∧ ∃ claims id,
        decodeToken pf now (strip header) .access = .ok claims ∧ claims.sub ≠ [] ∧
        pf.parseUuid claims.sub = some id ∧ currentUser db id = .ok user := by
  have present : header.isEmpty = false := by simp [full]
  unfold getCurrentUser extractToken
  simp only [present, Bool.false_eq_true, if_false]
  cases bearer : "bearer ".toList.isPrefixOf (pf.lower header) with
  | true => simp
  | false =>
    simp only [Bool.false_eq_true, if_false]
    cases decoded : decodeToken pf now (strip header) .access with
    | error e => cases e <;> simp
    | ok claims =>
      dsimp only
      constructor
      · intro ok
        split at ok
        · cases ok
        · rename_i named
          split at ok
          · cases ok
          · rename_i id parsed
            exact ⟨trivial,claims,id,rfl,by simpa using named,parsed,ok⟩
      · rintro ⟨-,other,id,same,named,parsed,known⟩
        cases same
        rw [if_neg (by simpa using named),parsed]
        exact known

theorem resolve_user_ok {db : Db} {now : Time} {user : User} :
    resolveUserFromHeader pf db now header = .ok user ↔
      "bearer ".toList.isPrefixOf (pf.lower (strip header)) = false ∧ ∃ claims id,
        decodeToken pf now (strip header) .access = .ok claims ∧
        pf.parseUuid claims.sub = some id ∧ currentUser db id = .ok user := by
  unfold resolveUserFromHeader
  dsimp only
  generalize "bearer ".toList.isPrefixOf (pf.lower (strip header)) = bearer
  cases bearer with
  | true => simp
  | false =>
    simp only [Bool.false_eq_true, if_false]
    cases decoded : decodeToken pf now (strip header) .access with
    | error e => cases e <;> simp
    | ok claims =>
      dsimp only
      constructor
      · intro ok
        split at ok
        · cases ok
        · rename_i id parsed
          exact ⟨trivial,claims,id,rfl,parsed,ok⟩
      · rintro ⟨-,other,id,same,parsed,known⟩
        cases same
        rw [parsed]
        exact known

def Unauthorized (e : Exc) : Prop := ∃ description, e = unauthorized description

theorem current_user_refuses {db : Db} {id : Uuid} {e : Exc} (refused : currentUser db id = .error e) :
    Unauthorized e := by
  unfold currentUser at refused
  split at refused
  · cases refused
    exact ⟨_,rfl⟩
  · split at refused
    · cases refused
      exact ⟨_,rfl⟩
    · cases refused

theorem get_current_user_refuses (jwt : Jwt pf tokens) {db : Db} {now : Time}
    {authorization : Option Text} {e : Exc}
    (refused : getCurrentUser pf db now authorization = .error e) : Unauthorized e := by
  unfold getCurrentUser at refused
  cases extracted : extractToken pf authorization with
  | error f =>
    rw [extracted] at refused
    cases refused
    unfold extractToken at extracted
    split at extracted
    · cases extracted
      exact ⟨_,rfl⟩
    · split at extracted
      · cases extracted
        exact ⟨_,rfl⟩
      · split at extracted
        · cases extracted
          exact ⟨_,rfl⟩
        · cases extracted
  | ok token =>
    rw [extracted] at refused
    dsimp only at refused
    cases decoded : decodeToken pf now token .access with
    | error f =>
      rw [decoded] at refused
      rcases decode_token_raises jwt decoded with expired | invalid
      · subst expired
        cases refused
        exact ⟨_,rfl⟩
      · subst invalid
        cases refused
        exact ⟨_,rfl⟩
    | ok claims =>
      rw [decoded] at refused
      dsimp only at refused
      split at refused
      · cases refused
        exact ⟨_,rfl⟩
      · split at refused
        · cases refused
          exact ⟨_,rfl⟩
        · exact current_user_refuses refused

theorem resolve_user_refuses (jwt : Jwt pf tokens) {db : Db} {now : Time} {e : Exc}
    (refused : resolveUserFromHeader pf db now header = .error e) : Unauthorized e := by
  unfold resolveUserFromHeader at refused
  dsimp only at refused
  split at refused
  · cases refused
    exact ⟨_,rfl⟩
  · cases decoded : decodeToken pf now (strip header) .access with
    | error f =>
      rw [decoded] at refused
      rcases decode_token_raises jwt decoded with expired | invalid
      · subst expired
        cases refused
        exact ⟨_,rfl⟩
      · subst invalid
        cases refused
        exact ⟨_,rfl⟩
    | ok claims =>
      rw [decoded] at refused
      dsimp only at refused
      split at refused
      · cases refused
        exact ⟨_,rfl⟩
      · exact current_user_refuses refused

end

/-! Agreement. -/

theorem encoded_subject {pf : Platform} {w : World} {cs : List AccountCall} {c : Claims}
    (member : c ∈ encoded pf w cs) : ∃ id, c.sub = pf.uuidStr id := by
  obtain ⟨pre,call,post,-,here⟩ := (mem_gather (accountStep pf)).mp member
  unfold minted at here
  split at here
  · split at here
    · cases here
    · rename_i user _
      simp only [List.mem_cons, List.not_mem_nil, or_false] at here
      rcases here with access | identity | refresh
      · exact ⟨user.id,by rw [access]; rfl⟩
      · exact ⟨user.id,by rw [identity]; rfl⟩
      · exact ⟨user.id,by rw [refresh]; rfl⟩
  · split at here
    · cases here
    · rename_i user _
      simp only [List.mem_cons, List.not_mem_nil, or_false] at here
      rcases here with access | identity
      · exact ⟨user.id,by rw [access]; rfl⟩
      · exact ⟨user.id,by rw [identity]; rfl⟩
  · cases here

section
variable {pf : Platform} {w : World} {cs : List AccountCall} {db : Db} {now : Time}
  {header : Text} {user : User}

theorem accepted_iff (jwt : Jwt pf (encoded pf w cs)) (uuids : UuidText pf) :
    (∃ claims id, decodeToken pf now (strip header) .access = .ok claims ∧
      pf.parseUuid claims.sub = some id ∧ currentUser db id = .ok user) ↔
    user ∈ db.users ∧ user.status = .confirmed ∧
      Carries pf (encoded pf w cs) now header user := by
  constructor
  · rintro ⟨claims,id,decoded,parsed,known⟩
    obtain ⟨member,valid,eq,kind⟩ := (decode_token_iff jwt).mp decoded
    obtain ⟨stored,key,confirmed⟩ := current_user_iff.mp known
    obtain ⟨holder,subject⟩ := encoded_subject member
    have same : holder = id := by
      rw [subject,uuids.parses] at parsed
      exact Option.some.inj parsed
    refine ⟨stored,confirmed,claims,member,kind,?_,eq,valid⟩
    rw [subject,same,key]
  · rintro ⟨stored,confirmed,claims,member,kind,subject,eq,valid⟩
    refine ⟨claims,user.id,(decode_token_iff jwt).mpr ⟨member,valid,eq,kind⟩,?_,
      current_user_iff.mpr ⟨stored,rfl,confirmed⟩⟩
    rw [subject]
    exact uuids.parses user.id

theorem get_current_user_iff (jwt : Jwt pf (encoded pf w cs)) (uuids : UuidText pf)
    (compact : CompactText pf (encoded pf w cs)) (lowers : LowersPrefix pf) (full : header ≠ []) :
    getCurrentUser pf db now (some header) = .ok user ↔
      user ∈ db.users ∧ user.status = .confirmed ∧
        Carries pf (encoded pf w cs) now header user := by
  rw [get_current_user_ok full,← accepted_iff jwt uuids]
  constructor
  · rintro ⟨-,claims,id,decoded,-,parsed,known⟩
    exact ⟨claims,id,decoded,parsed,known⟩
  · rintro ⟨claims,id,decoded,parsed,known⟩
    obtain ⟨member,-,eq,-⟩ := (decode_token_iff jwt).mp decoded
    obtain ⟨holder,subject⟩ := encoded_subject member
    refine ⟨(token_header_not_bearer lowers compact member eq).1,claims,id,decoded,?_,parsed,known⟩
    rw [subject]
    exact uuids.full holder

theorem resolve_user_iff (jwt : Jwt pf (encoded pf w cs)) (uuids : UuidText pf)
    (compact : CompactText pf (encoded pf w cs)) (lowers : LowersPrefix pf) :
    resolveUserFromHeader pf db now header = .ok user ↔
      user ∈ db.users ∧ user.status = .confirmed ∧
        Carries pf (encoded pf w cs) now header user := by
  rw [resolve_user_ok,← accepted_iff jwt uuids]
  constructor
  · exact fun accepted => accepted.2
  · rintro ⟨claims,id,decoded,parsed,known⟩
    obtain ⟨member,-,eq,-⟩ := (decode_token_iff jwt).mp decoded
    exact ⟨(token_header_not_bearer lowers compact member eq).2,claims,id,decoded,parsed,known⟩

end

/-- After every run, both checks accept a header for the same account: exactly
    when it is an unexpired access token of that account, which exists and is
    confirmed. Everything else is refused with a 401 by both. -/
theorem header_checks_agree (pf : Platform) (w : World) (cs : List AccountCall)
    (jwt : Jwt pf (encoded pf w cs)) (uuids : UuidText pf)
    (compact : CompactText pf (encoded pf w cs)) (lowers : LowersPrefix pf) (header : Text)
    (full : header ≠ []) :
    (∀ user, getCurrentUser pf (run (accountStep pf) w cs).db (run (accountStep pf) w cs).now
        (some header) = .ok user ↔
      resolveUserFromHeader pf (run (accountStep pf) w cs).db (run (accountStep pf) w cs).now
        header = .ok user) ∧
    (∀ user, getCurrentUser pf (run (accountStep pf) w cs).db (run (accountStep pf) w cs).now
        (some header) = .ok user ↔
      user ∈ (run (accountStep pf) w cs).db.users ∧ user.status = .confirmed ∧
        Carries pf (encoded pf w cs) (run (accountStep pf) w cs).now header user) ∧
    (∀ e, getCurrentUser pf (run (accountStep pf) w cs).db (run (accountStep pf) w cs).now
        (some header) = .error e → ∃ code description, e = .rainmakerError 401 code description) ∧
    (∀ e, resolveUserFromHeader pf (run (accountStep pf) w cs).db (run (accountStep pf) w cs).now
        header = .error e → ∃ code description, e = .rainmakerError 401 code description) := by
  have first : ∀ user, _ := fun user =>
    @get_current_user_iff pf w cs (run (accountStep pf) w cs).db (run (accountStep pf) w cs).now
      header user jwt uuids compact lowers full
  have second : ∀ user, _ := fun user =>
    @resolve_user_iff pf w cs (run (accountStep pf) w cs).db (run (accountStep pf) w cs).now
      header user jwt uuids compact lowers
  refine ⟨fun user => (first user).trans (second user).symm,first,?_,?_⟩
  · intro e refused
    obtain ⟨description,eq⟩ := get_current_user_refuses jwt refused
    exact ⟨_,description,eq⟩
  · intro e refused
    obtain ⟨description,eq⟩ := resolve_user_refuses jwt refused
    exact ⟨_,description,eq⟩

theorem compact_of_all {pf : Platform} {tokens : List Claims}
    (all : (tokens.all fun c => (pf.jwtEncode c).all (fun x => decide (x.val < 128) && !isSpace x) &&
      (pf.jwtEncode c).contains '.') = true) : CompactText pf tokens := by
  intro c member
  have each := List.all_eq_true.mp all c member
  rw [Bool.and_eq_true,List.all_eq_true,List.contains_iff_mem] at each
  refine ⟨?_,each.2⟩
  intro x inside
  simpa using each.1 x inside

theorem header_after_login : ∃ user,
    getCurrentUser platform (run (accountStep platform) opening (session.take 3)).db
      (run (accountStep platform) opening (session.take 3)).now (some (' ' :: firstAccess)) =
        .ok user ∧
    resolveUserFromHeader platform (run (accountStep platform) opening (session.take 3)).db
      (run (accountStep platform) opening (session.take 3)).now (' ' :: firstAccess) = .ok user ∧
    user.id = anaId := by
  have compact : CompactText platform (encoded platform opening (session.take 3)) := by
    rw [login_encoded]
    apply compact_of_all
    decide +kernel
  have lowers : LowersPrefix platform := fun a b _ => ⟨b.map Char.toLower,List.map_append⟩
  obtain ⟨user,found,id,confirmed,-⟩ := login_account
  have agree := header_checks_agree platform opening (session.take 3) (platform_jwt login_encoded)
    platform_uuids compact lowers (' ' :: firstAccess) (List.cons_ne_nil _ _)
  have accepted := (agree.2.1 user).mpr ⟨(user_by_name found).1,confirmed,by
    unfold Carries
    rw [login_encoded,id]
    decide +kernel⟩
  exact ⟨user,accepted,(agree.1 user).mp accepted,id⟩

end RainmakerServer.HeaderChecks
