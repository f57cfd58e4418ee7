import RainmakerServer.AccountCalls
import RainmakerServer.Deployment

/-!
Refresh tokens over whole runs. A token is valid in two places: its signature
and expiry are checked by the JWT library, and its row in `refresh_tokens` must
be there and not revoked. The row is stored by the login that mints the token,
revoked by the next logout of the account, and deleted with the account only.
-/
namespace RainmakerServer.Sessions
open Tables Runs Accounts

section
variable (pf : Platform) (now : Time) (jti : Text) (user : User)

def accessClaims : Claims :=
  ⟨pf.uuidStr user.id,now / 1000000,(now + seconds pf.settings.accessTokenTtlSeconds) / 1000000,
    .access,jti,[("role",role user)]⟩

def idClaims : Claims :=
  ⟨pf.uuidStr user.id,now / 1000000,(now + seconds pf.settings.idTokenTtlSeconds) / 1000000,
    .id,jti,[("user_name",user.userName),("email",user.email)]⟩

def refreshClaims : Claims :=
  ⟨pf.uuidStr user.id,now / 1000000,(now + seconds pf.settings.refreshTokenTtlSeconds) / 1000000,
    .refresh,jti,[]⟩

end

def refreshUser (pf : Platform) (db : Db) (now : Time) (refreshtoken : Text) : Except Exc User :=
  match decodeToken pf now refreshtoken .refresh with
  | .error _ => .error (unauthorized "Invalid refresh token")
  | .ok claims =>
    if claims.jti.isEmpty || claims.sub.isEmpty then .error (unauthorized "Invalid refresh token")
    else match db.refreshTokens.rows.find? fun r => r.jti == claims.jti with
    | none => .error (unauthorized "Invalid refresh token")
    | some row =>
      if row.revokedAt.isSome || row.expiresAt < now then
        .error (unauthorized "Invalid refresh token")
      else match pf.parseUuid claims.sub with
      | none => .error .valueError
      | some id => match currentUser db id with
        | .error _ => .error (unauthorized "Invalid refresh token")
        | .ok user => .ok user

theorem login_refresh_eq (pf : Platform) (db : Db) (now : Time) (accessJti idJti token : Text) :
    loginRefresh pf db now accessJti idJti token =
      (refreshUser pf db now token).map fun user => ⟨accessToken pf now accessJti user,
        idToken pf now idJti user,token,pf.settings.accessTokenTtlSeconds⟩ := by
  unfold loginRefresh refreshUser
  cases decodeToken pf now token .refresh with
  | error e => rfl
  | ok claims =>
    dsimp only
    split
    · rfl
    · cases db.refreshTokens.rows.find? fun r => r.jti == claims.jti with
      | none => rfl
      | some row =>
        dsimp only
        split
        · rfl
        · cases pf.parseUuid claims.sub with
          | none => rfl
          | some id =>
            dsimp only
            cases currentUser db id <;> rfl

theorem refresh_user_ok {pf : Platform} {db : Db} {now : Time} {token : Text} {user : User} :
    refreshUser pf db now token = .ok user ↔ ∃ claims row id,
      decodeToken pf now token .refresh = .ok claims ∧ claims.jti ≠ [] ∧ claims.sub ≠ [] ∧
      db.refreshTokens.rows.find? (fun r => r.jti == claims.jti) = some row ∧
      row.revokedAt = none ∧ now ≤ row.expiresAt ∧ pf.parseUuid claims.sub = some id ∧
      currentUser db id = .ok user := by
  constructor
  · intro ok
    unfold refreshUser at ok
    split at ok
    · cases ok
    · rename_i claims decoded
      split at ok
      · cases ok
      · rename_i full
        split at ok
        · cases ok
        · rename_i row found
          split at ok
          · cases ok
          · rename_i active
            split at ok
            · cases ok
            · rename_i id parsed
              split at ok
              · cases ok
              · rename_i account known
                cases ok
                simp only [Bool.or_eq_true, List.isEmpty_iff, not_or] at full
                simp only [Bool.or_eq_true, Option.isSome_iff_ne_none, decide_eq_true_eq, not_or,
                  not_not, Int.not_lt] at active
                exact ⟨claims,row,id,decoded,full.1,full.2,found,active.1,active.2,parsed,known⟩
  · rintro ⟨claims,row,id,decoded,jti,sub,found,active,valid,parsed,known⟩
    unfold refreshUser
    rw [decoded]
    have full : (claims.jti.isEmpty || claims.sub.isEmpty) = false := by simp [jti, sub]
    have live : (row.revokedAt.isSome || decide (row.expiresAt < now)) = false := by
      simp [active, valid]
    simp only [full, found, live, parsed, known, Bool.false_eq_true, if_false]

/-! What the server encodes. -/

def minted (pf : Platform) (w : World) : AccountCall → List Claims
  | .loginPassword draw userName password => match admitted pf w.db userName password with
    | .error _ => []
    | .ok user => [accessClaims pf w.now draw.accessJti user,idClaims pf w.now draw.idJti user,
        refreshClaims pf w.now draw.refreshJti user]
  | .loginRefresh accessJti idJti token => match refreshUser pf w.db w.now token with
    | .error _ => []
    | .ok user => [accessClaims pf w.now accessJti user,idClaims pf w.now idJti user]
  | _ => []

def encoded (pf : Platform) (w : World) (cs : List AccountCall) : List Claims :=
  gather (accountStep pf) (minted pf) w cs

/-- What the JWT library promises: it returns the claims of a token that was
    encoded with the server key and has not expired, and raises for every other
    string. -/
structure Jwt (pf : Platform) (tokens : List Claims) : Prop where
  returns : ∀ c ∈ tokens, ∀ now, now < seconds c.exp →
    pf.jwtDecode now (pf.jwtEncode c) = .ok c
  raises : ∀ token now, (∀ c ∈ tokens, now < seconds c.exp → token ≠ pf.jwtEncode c) →
    pf.jwtDecode now token = .error .expiredSignatureError ∨
      pf.jwtDecode now token = .error .pyJWTError

structure UuidText (pf : Platform) : Prop where
  parses : ∀ id, pf.parseUuid (pf.uuidStr id) = some id
  full : ∀ id, pf.uuidStr id ≠ []

section
variable {pf : Platform} {tokens : List Claims}

theorem jwt_decode_iff (jwt : Jwt pf tokens) {token : Text} {now : Time} {c : Claims} :
    pf.jwtDecode now token = .ok c ↔
      c ∈ tokens ∧ now < seconds c.exp ∧ token = pf.jwtEncode c := by
  constructor
  · intro decoded
    by_cases known : ∃ d ∈ tokens, now < seconds d.exp ∧ token = pf.jwtEncode d
    · obtain ⟨d,member,valid,eq⟩ := known
      rw [eq,jwt.returns d member now valid] at decoded
      cases decoded
      exact ⟨member,valid,eq⟩
    · exfalso
      have other : ∀ d ∈ tokens, now < seconds d.exp → token ≠ pf.jwtEncode d :=
        fun d member valid eq => known ⟨d,member,valid,eq⟩
      rcases jwt.raises token now other with raised | raised
      · rw [raised] at decoded
        cases decoded
      · rw [raised] at decoded
        cases decoded
  · rintro ⟨member,valid,eq⟩
    rw [eq]
    exact jwt.returns c member now valid

theorem jwt_encode_injective (jwt : Jwt pf tokens) {c d : Claims} (hc : c ∈ tokens)
    (hd : d ∈ tokens) (same : pf.jwtEncode c = pf.jwtEncode d) : c = d := by
  -- both are read back at a moment at which neither has expired
  have first := jwt.returns c hc (min (seconds c.exp) (seconds d.exp) - 1)
    (Int.sub_one_lt_iff.mpr (Int.min_le_left _ _))
  have second := jwt.returns d hd (min (seconds c.exp) (seconds d.exp) - 1)
    (Int.sub_one_lt_iff.mpr (Int.min_le_right _ _))
  rw [same,second] at first
  cases first
  rfl

theorem decode_token_iff (jwt : Jwt pf tokens) {token : Text} {now : Time} {kind : TokenKind}
    {c : Claims} : decodeToken pf now token kind = .ok c ↔
      c ∈ tokens ∧ now < seconds c.exp ∧ token = pf.jwtEncode c ∧ c.tokenUse = kind := by
  unfold decodeToken
  cases decoded : pf.jwtDecode now token with
  | error e =>
    constructor
    · intro impossible
      cases impossible
    · rintro ⟨member,valid,eq,-⟩
      rw [(jwt_decode_iff jwt).mpr ⟨member,valid,eq⟩] at decoded
      cases decoded
  | ok d =>
    dsimp only
    obtain ⟨member,valid,eq⟩ := (jwt_decode_iff jwt).mp decoded
    constructor
    · intro ok
      split at ok
      · cases ok
      · rename_i kindly
        cases ok
        exact ⟨member,valid,eq,not_not.mp kindly⟩
    · rintro ⟨member',-,eq',kindly⟩
      have same : d = c := jwt_encode_injective jwt member member' (eq.symm.trans eq')
      rw [same,if_neg (not_not.mpr kindly)]

end

/-! One login. -/

/-- The values a login draws: neither the token id nor the row key was drawn
    before, and the token id is text that fits its column. -/
def FreshDraw (w : World) : AccountCall → Prop
  | .loginPassword draw _ _ => draw.refreshJti ≠ [] ∧ varchar 64 draw.refreshJti = true ∧
      ∀ row ∈ w.db.refreshTokens, row.id ≠ draw.rowId ∧ row.jti ≠ draw.refreshJti
  | _ => True

section
variable {pf : Platform} {w : World} {draw : TokenDraw} {userName password : Text} {user : User}

def tokenRow (pf : Platform) (now : Time) (draw : TokenDraw) (user : User) : RefreshToken where
  id := draw.rowId
  userId := user.id
  jti := draw.refreshJti
  expiresAt := now + seconds pf.settings.refreshTokenTtlSeconds

def tokensOf (pf : Platform) (now : Time) (draw : TokenDraw) (user : User) : Tokens :=
  ⟨accessToken pf now draw.accessJti user,idToken pf now draw.idJti user,
    pf.jwtEncode (refreshClaims pf now draw.refreshJti user),
    pf.settings.accessTokenTtlSeconds⟩

theorem minted_by_login (checked : admitted pf w.db userName password = .ok user) :
    refreshClaims pf w.now draw.refreshJti user ∈
      minted pf w (.loginPassword draw userName password) := by
  simp only [minted, checked]
  simp

theorem stored_token_row {now : Time} (wide : varchar 64 draw.refreshJti = true) :
    Schema.stored (tokenRow pf now draw user) = tokenRow pf now draw user := by
  simp only [Schema.stored, tokenRow, cut_of_varchar wide]

theorem login_succeeds (checked : admitted pf w.db userName password = .ok user)
    (own : decodeToken pf w.now (pf.jwtEncode (refreshClaims pf w.now draw.refreshJti user))
      .refresh = .ok (refreshClaims pf w.now draw.refreshJti user))
    (fresh : FreshDraw w (.loginPassword draw userName password)) :
    ∃ t, w.db.refreshTokens.insert (tokenRow pf w.now draw user) = .ok t ∧
      loginPassword pf w.db w.now draw userName password =
        done {stamp w.now user w.db with refreshTokens := t} (tokensOf pf w.now draw user) := by
  obtain ⟨-,wide,unused⟩ := fresh
  have free : ∀ a ∈ w.db.refreshTokens,
      Schema.conflict a (Schema.stored (tokenRow pf w.now draw user)) = false := by
    intro a stored
    rw [stored_token_row wide]
    simp [Schema.conflict, tokenRow, unused a stored]
  obtain ⟨t,inserted⟩ := Table.insert_succeeds (assignable_of_varchar wide) free
  have member := (user_by_name (admitted_ok checked).1).1
  have known : (stamp w.now user w.db).hasUser user.id = true := by
    have same : (stamp w.now user w.db).hasUser user.id = w.db.hasUser user.id :=
      set_user_has fun _ => rfl
    rw [same]
    exact Db.hasUser_iff.mpr ⟨user,member,rfl⟩
  have read : decodeToken pf w.now (mintToken pf w.now draw.refreshJti (pf.uuidStr user.id)
      .refresh []).1 .refresh = .ok (refreshClaims pf w.now draw.refreshJti user) := own
  have stored : (stamp w.now user w.db).refreshTokens.insert {
      id := draw.rowId, userId := user.id, jti := draw.refreshJti,
      expiresAt := w.now + seconds pf.settings.refreshTokenTtlSeconds} = .ok t := inserted
  refine ⟨t,inserted,?_⟩
  rw [login_password_eq,checked]
  dsimp only [mintTokenTriple]
  rw [read]
  dsimp only [refreshClaims, mintToken, ttlFor, commitInsert]
  rw [stored]
  dsimp only [Schema.stored]
  rw [if_pos known]
  rfl

theorem login_returned {tokens : Tokens}
    (ok : (loginPassword pf w.db w.now draw userName password).2 = .ok tokens) :
    ∃ user claims, admitted pf w.db userName password = .ok user ∧
      decodeToken pf w.now (pf.jwtEncode (refreshClaims pf w.now draw.refreshJti user)) .refresh =
        .ok claims ∧
      tokens.refresh = pf.jwtEncode (refreshClaims pf w.now draw.refreshJti user) := by
  rw [login_password_eq] at ok
  cases checked : admitted pf w.db userName password with
  | error e =>
    rw [checked] at ok
    cases ok
  | ok user =>
    rw [checked] at ok
    dsimp only [mintTokenTriple] at ok
    split at ok
    · cases ok
    · rename_i claims read
      split at ok
      · cases ok
      · cases ok
        exact ⟨user,claims,rfl,read,rfl⟩

end

/-! The row of a token. -/

section
variable {pf : Platform} {w : World} {u : Uuid}

theorem token_row_step {c : AccountCall} {row : RefreshToken}
    (present : (accountStep pf w c).db.hasUser u = true) (stored : row ∈ w.db.refreshTokens)
    (owner : row.userId = u) :
    (c ≠ .logout u → row ∈ (accountStep pf w c).db.refreshTokens) ∧
      (c = .logout u → ∃ moment, {row with revokedAt := some moment} ∈
        (accountStep pf w c).db.refreshTokens) := by
  have effect := @serve_account_effect pf w.db w.now c
  unfold accountStep at present ⊢
  dsimp only at present ⊢
  constructor
  · intro other
    generalize (serveAccount pf w.db w.now c).1 = after at effect present ⊢
    cases effect with
    | kept => exact stored
    | signedUp absent inserted => exact stored
    | edited edit => exact stored
    | loggedIn checked inserted owned => exact (Table.mem_insert inserted).mpr (Or.inl stored)
    | @loggedOut userId =>
      have apart : userId ≠ u := fun same => other (by rw [same])
      simp only [logout, Table.mem_update]
      refine ⟨row,stored,?_⟩
      rw [if_neg (by simp [owner, Ne.symm apart])]
    | @deleted userId =>
      have apart : row.userId ≠ userId := by
        intro same
        obtain ⟨user,kept,key⟩ := Db.hasUser_iff.mp present
        rw [(delete_current_user_users w.db userId).1,Table.mem_delete] at kept
        simp [key, ← owner, same] at kept
      rw [(delete_current_user_users w.db userId).2,Table.mem_delete]
      exact ⟨stored,by simpa using apart⟩
  · intro logout
    subst logout
    simp only [serveAccount, done, Accounts.logout, Table.mem_update]
    cases active : row.revokedAt with
    | none => exact ⟨w.now,row,stored,by simp [owner, active]⟩
    | some earlier =>
      refine ⟨earlier,row,stored,?_⟩
      rw [if_neg (by simp [active])]
      cases row
      cases active
      rfl

theorem token_tracked {post : List AccountCall} {row : RefreshToken}
    (stored : row ∈ w.db.refreshTokens) (owner : row.userId = u) (active : row.revokedAt = none)
    (unused : ∀ c ∈ post, signupId c ≠ some u)
    (present : (run (accountStep pf) w post).db.hasUser u = true) :
    ∃ last ∈ (run (accountStep pf) w post).db.refreshTokens, last.userId = u ∧
      last.jti = row.jti ∧ last.expiresAt = row.expiresAt ∧
      (last.revokedAt = none ↔ ∀ c ∈ post, c ≠ .logout u) := by
  have tracked := run_history (accountStep pf) (I := fun cs v => v.db.hasUser u = true →
      ∃ last ∈ v.db.refreshTokens, last.userId = u ∧ last.jti = row.jti ∧
        last.expiresAt = row.expiresAt ∧ (last.revokedAt = none ↔ ∀ c ∈ cs, c ≠ .logout u))
    (P := fun _ c => signupId c ≠ some u) (s := w)
    (fun _ => ⟨row,stored,owner,rfl,rfl,by simp [active]⟩)
    (by
      intro cs c earlier other now
      have before := (account_stays_or_new now).resolve_right other
      obtain ⟨old,there,own,jti,exp,revoked⟩ := earlier before
      obtain ⟨kept,ended⟩ := token_row_step now there own
      by_cases logout : c = .logout u
      · obtain ⟨moment,member⟩ := ended logout
        refine ⟨_,member,own,jti,exp,?_⟩
        simp [logout]
      · refine ⟨old,kept logout,own,jti,exp,revoked.trans ?_⟩
        rw [List.forall_mem_append,List.forall_mem_singleton]
        simp [logout])
    (along_of_forall (accountStep pf) unused)
  exact tracked present

end

/-! Validity. -/

/-- User ids are never reused: a signup draws no key of the first database or
    of an earlier signup. -/
structure NeverReused (db : Db) (cs : List AccountCall) : Prop where
  distinct : (cs.filterMap signupId).Nodup
  unknown : ∀ id ∈ cs.filterMap signupId, db.hasUser id = false

/-- The token was returned by a login of account `u`, has not expired at `now`,
    and `u` has not logged out since. -/
def Held (pf : Platform) (w : World) (cs : List AccountCall) (u : Uuid) (token : Text)
    (now : Time) : Prop :=
  ∃ pre draw userName password post user tokens,
    cs = pre ++ .loginPassword draw userName password :: post ∧
    userByName (run (accountStep pf) w pre).db userName = some user ∧ user.id = u ∧
    (loginPassword pf (run (accountStep pf) w pre).db (run (accountStep pf) w pre).now draw userName
      password).2 = .ok tokens ∧
    tokens.refresh = token ∧
    now < seconds (((run (accountStep pf) w pre).now +
      seconds pf.settings.refreshTokenTtlSeconds) / 1000000) ∧
    ∀ c ∈ post, c ≠ .logout u

section
variable {pf : Platform} {w : World} {pre post : List AccountCall} {call : AccountCall}

theorem minted_encoded {c : Claims} (member : c ∈ minted pf (run (accountStep pf) w pre) call) :
    c ∈ encoded pf w (pre ++ call :: post) :=
  (mem_gather (accountStep pf)).mpr ⟨pre,call,post,rfl,member⟩

theorem minted_refresh {v : World} {c : Claims} (member : c ∈ minted pf v call)
    (kind : c.tokenUse = .refresh) : ∃ draw userName password user,
      call = .loginPassword draw userName password ∧
      admitted pf v.db userName password = .ok user ∧
      c = refreshClaims pf v.now draw.refreshJti user := by
  unfold minted at member
  split at member
  · rename_i draw userName password
    split at member
    · cases member
    · rename_i user checked
      simp only [List.mem_cons, List.not_mem_nil, or_false] at member
      rcases member with access | identity | refresh
      · rw [access] at kind
        cases kind
      · rw [identity] at kind
        cases kind
      · exact ⟨draw,userName,password,user,rfl,checked,refresh⟩
  · split at member
    · cases member
    · simp only [List.mem_cons, List.not_mem_nil, or_false] at member
      rcases member with access | identity
      · rw [access] at kind
        cases kind
      · rw [identity] at kind
        cases kind
  · cases member

theorem not_signed_up_again {u : Uuid} (ids : NeverReused w.db (pre ++ call :: post))
    (present : (run (accountStep pf) w pre).db.hasUser u = true) :
    ∀ c ∈ post, signupId c ≠ some u := by
  intro c member drawn
  have later : u ∈ post.filterMap signupId := List.mem_filterMap.mpr ⟨c,member,drawn⟩
  have somewhere : u ∈ (pre ++ call :: post).filterMap signupId := by
    rw [List.filterMap_append,List.mem_append]
    right
    exact List.mem_filterMap.mpr ⟨c,List.mem_cons_of_mem _ member,drawn⟩
  rcases run_account_origin present with first | earlier
  · rw [ids.unknown u somewhere] at first
    cases first
  · have distinct := ids.distinct
    rw [List.filterMap_append,List.nodup_append] at distinct
    have suffix : u ∈ (call :: post).filterMap signupId :=
      List.mem_filterMap.mpr ⟨c,List.mem_cons_of_mem _ member,drawn⟩
    exact distinct.2.2 u earlier u suffix rfl

end

section
variable {pf : Platform} {w : World} {pre post : List AccountCall} {draw : TokenDraw}
  {userName password : Text} {user : User}

theorem login_row
    (jwt : Jwt pf (encoded pf w (pre ++ .loginPassword draw userName password :: post)))
    (draws : Along (accountStep pf) FreshDraw w (pre ++ .loginPassword draw userName password :: post))
    (ids : NeverReused w.db (pre ++ .loginPassword draw userName password :: post))
    (checked : admitted pf (run (accountStep pf) w pre).db userName password = .ok user)
    (valid : (run (accountStep pf) w pre).now <
      seconds (refreshClaims pf (run (accountStep pf) w pre).now draw.refreshJti user).exp)
    (present : (run (accountStep pf) w
      (pre ++ .loginPassword draw userName password :: post)).db.hasUser user.id = true) :
    (loginPassword pf (run (accountStep pf) w pre).db (run (accountStep pf) w pre).now draw userName
      password).2 = .ok (tokensOf pf (run (accountStep pf) w pre).now draw user) ∧
    ∃ row ∈ (run (accountStep pf) w
        (pre ++ .loginPassword draw userName password :: post)).db.refreshTokens,
      row.userId = user.id ∧ row.jti = draw.refreshJti ∧
      row.expiresAt = (run (accountStep pf) w pre).now +
        seconds pf.settings.refreshTokenTtlSeconds ∧
      (row.revokedAt = none ↔ ∀ c ∈ post, c ≠ .logout user.id) := by
  have fresh := ((along_append (accountStep pf)).mp draws).2.1
  have own : decodeToken pf (run (accountStep pf) w pre).now
      (pf.jwtEncode (refreshClaims pf (run (accountStep pf) w pre).now draw.refreshJti user))
      .refresh = .ok (refreshClaims pf (run (accountStep pf) w pre).now draw.refreshJti user) :=
    (decode_token_iff jwt).mpr ⟨minted_encoded (minted_by_login checked),valid,rfl,rfl⟩
  obtain ⟨t,inserted,login⟩ := login_succeeds checked own fresh
  have member := (user_by_name (admitted_ok checked).1).1
  have unused := not_signed_up_again ids (Db.hasUser_iff.mpr ⟨user,member,rfl⟩)
  -- the state after the login holds the row
  have after : tokenRow pf (run (accountStep pf) w pre).now draw user ∈ (accountStep pf
      (run (accountStep pf) w pre) (.loginPassword draw userName password)).db.refreshTokens := by
    simp only [accountStep, serveAccount, Accounts.discard, login, done]
    exact (Table.mem_insert inserted).mpr (Or.inr (stored_token_row fresh.2.1).symm)
  rw [run_append] at present ⊢
  refine ⟨by rw [login]; rfl,?_⟩
  exact token_tracked after rfl rfl unused present

end

theorem refresh_user_iff {pf : Platform} {w : World} {cs : List AccountCall} {token : Text}
    {user : User} (jwt : Jwt pf (encoded pf w cs)) (uuids : UuidText pf)
    (draws : Along (accountStep pf) FreshDraw w cs) (ids : NeverReused w.db cs) :
    refreshUser pf (run (accountStep pf) w cs).db (run (accountStep pf) w cs).now token = .ok user ↔
      user ∈ (run (accountStep pf) w cs).db.users ∧ user.status = .confirmed ∧
        Held pf w cs user.id token (run (accountStep pf) w cs).now := by
  rw [refresh_user_ok]
  constructor
  · rintro ⟨claims,row,id,decoded,-,-,found,active,-,parsed,known⟩
    obtain ⟨member,valid,eq,kind⟩ := (decode_token_iff jwt).mp decoded
    obtain ⟨pre,call,post,split,here⟩ := (mem_gather (accountStep pf)).mp member
    obtain ⟨draw,userName,password,holder,login,checked,same⟩ := minted_refresh here kind
    subst split login same
    obtain ⟨stored,key,confirmed⟩ := current_user_iff.mp known
    have holding : holder.id = user.id := by
      have subject : pf.parseUuid (pf.uuidStr holder.id) = some id := parsed
      rw [uuids.parses] at subject
      rw [key]
      exact Option.some.inj subject
    have earlier : (run (accountStep pf) w pre).now ≤ (run (accountStep pf) w
        (pre ++ .loginPassword draw userName password :: post)).now := by
      rw [run_append]
      exact run_time _ _
    obtain ⟨returned,last,there,-,jti,-,revoked⟩ := login_row jwt draws ids checked
      (Int.lt_of_le_of_lt earlier valid) (Db.hasUser_iff.mpr ⟨user,stored,holding.symm⟩)
    -- the row that was found is the row of the login
    have located : row = last := by
      have hit := List.find?_some found
      rw [beq_iff_eq] at hit
      exact Table.eq_of_conflict (List.mem_of_find?_eq_some found) there
        (by simp [Schema.conflict, hit, jti, refreshClaims])
    subst located
    refine ⟨stored,confirmed,pre,draw,userName,password,post,holder,_,rfl,
      (admitted_ok checked).1,holding,returned,eq.symm,valid,?_⟩
    rw [← holding]
    exact revoked.mp active
  · rintro ⟨stored,confirmed,pre,draw,userName,password,post,holder,tokens,split,named,holding,
      returned,same,valid,quiet⟩
    subst split
    obtain ⟨account,claims,checked,-,refresh⟩ := login_returned returned
    have holder_eq : account = holder := by
      rw [(admitted_ok checked).1] at named
      exact Option.some.inj named
    subst holder_eq
    have earlier : (run (accountStep pf) w pre).now ≤ (run (accountStep pf) w
        (pre ++ .loginPassword draw userName password :: post)).now := by
      rw [run_append]
      exact run_time _ _
    obtain ⟨-,row,there,-,jti,exp,revoked⟩ := login_row jwt draws ids checked
      (Int.lt_of_le_of_lt earlier valid) (Db.hasUser_iff.mpr ⟨user,stored,holding.symm⟩)
    have fresh := ((along_append (accountStep pf)).mp draws).2.1
    refine ⟨refreshClaims pf (run (accountStep pf) w pre).now draw.refreshJti account,row,
      account.id,?_,fresh.1,uuids.full account.id,?_,?_,?_,uuids.parses account.id,?_⟩
    · refine (decode_token_iff jwt).mpr ⟨minted_encoded (minted_by_login checked),valid,?_,rfl⟩
      exact same.symm.trans refresh
    · apply Table.find_by_key there
      · simp [jti, refreshClaims]
      · intro a hit
        rw [beq_iff_eq] at hit
        simp [Schema.conflict, hit, jti, refreshClaims]
    · rw [holding] at revoked
      exact revoked.mpr quiet
    · rw [exp]
      apply Int.le_of_lt (Int.lt_of_lt_of_le valid _)
      exact Int.ediv_mul_le _ (by decide)
    · exact current_user_iff.mpr ⟨stored,holding.symm,confirmed⟩

/-- `login_refresh` returns exactly for a token that an earlier login of a
    confirmed account has returned, before it expires and before the next
    logout of the account; the new tokens are for that account, and no row
    changes. -/
theorem refresh_valid_iff (pf : Platform) (w : World) (cs : List AccountCall)
    (jwt : Jwt pf (encoded pf w cs)) (uuids : UuidText pf)
    (draws : Along (accountStep pf) FreshDraw w cs) (ids : NeverReused w.db cs)
    (accessJti idJti token : Text) (tokens : Tokens) :
    (loginRefresh pf (run (accountStep pf) w cs).db (run (accountStep pf) w cs).now accessJti idJti
        token = .ok tokens ↔
      ∃ user ∈ (run (accountStep pf) w cs).db.users, user.status = .confirmed ∧
        Held pf w cs user.id token (run (accountStep pf) w cs).now ∧
        tokens = ⟨accessToken pf (run (accountStep pf) w cs).now accessJti user,
          idToken pf (run (accountStep pf) w cs).now idJti user,token,
          pf.settings.accessTokenTtlSeconds⟩) ∧
    (accountStep pf (run (accountStep pf) w cs)
      (.loginRefresh accessJti idJti token)).db.refreshTokens =
      (run (accountStep pf) w cs).db.refreshTokens := by
  refine ⟨?_,rfl⟩
  rw [login_refresh_eq]
  constructor
  · intro ok
    cases checked : refreshUser pf (run (accountStep pf) w cs).db (run (accountStep pf) w cs).now
        token with
    | error e =>
      rw [checked] at ok
      cases ok
    | ok user =>
      rw [checked] at ok
      cases ok
      obtain ⟨stored,confirmed,held⟩ := (refresh_user_iff jwt uuids draws ids).mp checked
      exact ⟨user,stored,confirmed,held,rfl⟩
  · rintro ⟨user,stored,confirmed,held,eq⟩
    rw [(refresh_user_iff jwt uuids draws ids).mpr ⟨stored,confirmed,held⟩,eq]
    rfl

/-! One session, with the tokens of the default secret key. -/

def anaId : Uuid := 148397667964594752995524071387077555550
def anaText : Text := "6fa459ea-ee8a-4ca4-894e-db77e160355e"
def ana : Text := "ana@example.com"
def password : Text := "correct horse"
def salt : Text := "R9h/cIPz0gi.URNNX3kh2O"
def hashed : Text := "$2b$12$R9h/cIPz0gi.URNNX3kh2O08cp6KlAm3PlA5tOQRarQ9GRRUJUncu"

def drawn : TokenDraw :=
  ⟨7,"AAECAwQFBgcICQoLDA0ODw","EBESExQVFhcYGRobHB0eHw","ICEiIyQlJicoKSorLC0uLw"⟩

def firstAccess : Text :=
  ("eyJhbGciOiJIUzI1NiIs" : Text) ++ "InR5cCI6IkpXVCJ9.eyJ" ++ "zdWIiOiI2ZmE0NTllYS1" ++
  "lZThhLTRjYTQtODk0ZS1" ++ "kYjc3ZTE2MDM1NWUiLCJ" ++ "pYXQiOjE3MDAwMDAwMDA" ++
  "sImV4cCI6MTcwMDAwMzY" ++ "wMCwidG9rZW5fdXNlIjo" ++ "iYWNjZXNzIiwianRpIjo" ++
  "iQUFFQ0F3UUZCZ2NJQ1F" ++ "vTERBME9EdyIsInJvbGU" ++ "iOiJ1c2VyIn0.zDFOkFl" ++
  "9fyN-izZs5X-PHd9ePMd" ++ "waSYHvb06Degn8rc"

def firstId : Text :=
  ("eyJhbGciOiJIUzI1NiIs" : Text) ++ "InR5cCI6IkpXVCJ9.eyJ" ++ "zdWIiOiI2ZmE0NTllYS1" ++
  "lZThhLTRjYTQtODk0ZS1" ++ "kYjc3ZTE2MDM1NWUiLCJ" ++ "pYXQiOjE3MDAwMDAwMDA" ++
  "sImV4cCI6MTcwMDAwMzY" ++ "wMCwidG9rZW5fdXNlIjo" ++ "iaWQiLCJqdGkiOiJFQkV" ++
  "TRXhRVkZoY1lHUm9iSEI" ++ "wZUh3IiwidXNlcl9uYW1" ++ "lIjoiYW5hQGV4YW1wbGU" ++
  "uY29tIiwiZW1haWwiOiJ" ++ "hbmFAZXhhbXBsZS5jb20" ++ "ifQ.Dtb6p-yEQNXnuQ6W" ++
  "_4RUVMa1LIyW9-cTBQUK" ++ "ahJD9k8"

def firstRefresh : Text :=
  ("eyJhbGciOiJIUzI1NiIs" : Text) ++ "InR5cCI6IkpXVCJ9.eyJ" ++ "zdWIiOiI2ZmE0NTllYS1" ++
  "lZThhLTRjYTQtODk0ZS1" ++ "kYjc3ZTE2MDM1NWUiLCJ" ++ "pYXQiOjE3MDAwMDAwMDA" ++
  "sImV4cCI6MTcwMjU5MjA" ++ "wMCwidG9rZW5fdXNlIjo" ++ "icmVmcmVzaCIsImp0aSI" ++
  "6IklDRWlJeVFsSmljb0t" ++ "Tb3JMQzB1THcifQ.Kh25" ++ "p-Gw55l6KbgZRVVvjHeD" ++
  "Kb7jV17xvc_gOPeyKkY"

def laterAccess : Text :=
  ("eyJhbGciOiJIUzI1NiIs" : Text) ++ "InR5cCI6IkpXVCJ9.eyJ" ++ "zdWIiOiI2ZmE0NTllYS1" ++
  "lZThhLTRjYTQtODk0ZS1" ++ "kYjc3ZTE2MDM1NWUiLCJ" ++ "pYXQiOjE3MDAwMDM2MDA" ++
  "sImV4cCI6MTcwMDAwNzI" ++ "wMCwidG9rZW5fdXNlIjo" ++ "iYWNjZXNzIiwianRpIjo" ++
  "iTURFeU16UTFOamM0T1R" ++ "vN1BEMC1QdyIsInJvbGU" ++ "iOiJ1c2VyIn0.XPEarAn" ++
  "Sp1PBf00-dvTw9kTWfkv" ++ "oScC4S0Fa5YhfeiM"

def laterId : Text :=
  ("eyJhbGciOiJIUzI1NiIs" : Text) ++ "InR5cCI6IkpXVCJ9.eyJ" ++ "zdWIiOiI2ZmE0NTllYS1" ++
  "lZThhLTRjYTQtODk0ZS1" ++ "kYjc3ZTE2MDM1NWUiLCJ" ++ "pYXQiOjE3MDAwMDM2MDA" ++
  "sImV4cCI6MTcwMDAwNzI" ++ "wMCwidG9rZW5fdXNlIjo" ++ "iaWQiLCJqdGkiOiJRRUZ" ++
  "DUTBSRlJrZElTVXBMVEU" ++ "xT1R3IiwidXNlcl9uYW1" ++ "lIjoiYW5hQGV4YW1wbGU" ++
  "uY29tIiwiZW1haWwiOiJ" ++ "hbmFAZXhhbXBsZS5jb20" ++ "ifQ.xvsSTfqABMlQsg6s" ++
  "CDGXc1c407N_iVpM300h" ++ "LTTvqEc"

def handedOut : List (Text × Claims) :=
  [(firstAccess,⟨anaText,1700000000,1700003600,.access,drawn.accessJti,[("role","user")]⟩),
   (firstId,⟨anaText,1700000000,1700003600,.id,drawn.idJti,[("user_name",ana),("email",ana)]⟩),
   (firstRefresh,⟨anaText,1700000000,1702592000,.refresh,drawn.refreshJti,[]⟩)]

def refreshed : List (Text × Claims) :=
  [(laterAccess,⟨anaText,1700003600,1700007200,.access,"MDEyMzQ1Njc4OTo7PD0-Pw",
      [("role","user")]⟩),
   (laterId,⟨anaText,1700003600,1700007200,.id,"QEFCQ0RFRkdISUpLTE1OTw",
      [("user_name",ana),("email",ana)]⟩)]

def decodeFrom (table : List (Text × Claims)) (now : Time) (token : Text) : Except Exc Claims :=
  match table.find? fun p => p.1 == token with
  | none => .error .pyJWTError
  | some p => if now < seconds p.2.exp then .ok p.2 else .error .expiredSignatureError

def encodeFrom (table : List (Text × Claims)) (c : Claims) : Text :=
  match table.find? fun p => p.2 == c with
  | none => []
  | some p => p.1

def platform : Platform := {Deployment.platform with
  hashPassword := fun s p => if s = salt ∧ p = password then hashed else []
  verifyPassword := fun p hash => p == password && hash == hashed
  jwtEncode := encodeFrom (handedOut ++ refreshed)
  jwtDecode := decodeFrom handedOut
  uuidStr := fun id => if id = anaId then anaText else List.replicate (id + 37) '0'
  parseUuid := fun s => if s = anaText then some anaId
    else if 37 ≤ s.length then some (s.length - 37) else none}

def opening : World := ⟨Db.empty,1700000000000000⟩

def session : List AccountCall :=
  [.signup anaId salt 271828 ana password,.confirmSignup ana "271828",
   .loginPassword drawn ana password,.tick 3600000000]

theorem platform_uuids : UuidText platform := by
  have long : ∀ id, List.replicate (id + 37) '0' ≠ anaText := by
    intro id same
    have lengths := congrArg List.length same
    rw [List.length_replicate] at lengths
    have short : anaText.length = 36 := by decide
    omega
  constructor
  · intro id
    simp only [platform]
    by_cases own : id = anaId
    · simp [own]
    · rw [if_neg own,if_neg (long id)]
      simp
  · intro id
    simp only [platform]
    split
    · decide
    · simp

theorem login_encoded : encoded platform opening (session.take 3) = handedOut.map (·.2) := by
  decide +kernel

theorem session_ticks : session = session.take 3 ++ [.tick 3600000000] := rfl

theorem session_encoded : encoded platform opening session = handedOut.map (·.2) := by
  rw [session_ticks]
  unfold encoded
  rw [gather_append]
  simp only [gather, minted, List.append_nil]
  exact login_encoded

theorem platform_jwt {cs : List AccountCall}
    (same : encoded platform opening cs = handedOut.map (·.2)) :
    Jwt platform (encoded platform opening cs) := by
  have known : ∀ p ∈ handedOut, handedOut.find? (fun q => q.1 == platform.jwtEncode p.2) = some p ∧
      platform.jwtEncode p.2 = p.1 := by decide +kernel
  rw [same]
  constructor
  · intro c member now valid
    obtain ⟨p,listed,eq⟩ := List.mem_map.mp member
    subst eq
    show decodeFrom handedOut now _ = _
    rw [decodeFrom,(known p listed).1]
    simp only [if_pos valid]
  · intro token now unknown
    show decodeFrom handedOut now token = _ ∨ decodeFrom handedOut now token = _
    unfold decodeFrom
    cases found : handedOut.find? fun p => p.1 == token with
    | none => exact Or.inr rfl
    | some p =>
      have listed := List.mem_of_find?_eq_some found
      have same := List.find?_some found
      rw [beq_iff_eq] at same
      dsimp only
      split
      · rename_i valid
        have other := unknown p.2 (List.mem_map.mpr ⟨p,listed,rfl⟩) valid
        exact absurd ((known p listed).2.trans same).symm other
      · exact Or.inl rfl

theorem session_draws : Along (accountStep platform) FreshDraw opening session := by
  refine ⟨trivial,trivial,⟨by decide,by decide,?_⟩,trivial,trivial⟩
  have empty : (run (accountStep platform) opening (session.take 2)).db.refreshTokens.rows = [] := by
    decide +kernel
  intro row stored
  rw [Table.mem_def] at stored
  have none : row ∈ (run (accountStep platform) opening (session.take 2)).db.refreshTokens.rows :=
    stored
  rw [empty] at none
  cases none

theorem session_ids : NeverReused opening.db session := ⟨by decide,by decide⟩

theorem session_account {cs : List AccountCall} (reads : (userByName (run (accountStep platform)
      opening cs).db ana).map (fun u => (u.id,u.status,role u,u.userName,u.email)) =
      some (anaId,.confirmed,"user".toList,ana,ana)) :
    ∃ user, userByName (run (accountStep platform) opening cs).db ana = some user ∧
      user.id = anaId ∧ user.status = .confirmed ∧ role user = "user".toList ∧
      user.userName = ana ∧ user.email = ana := by
  obtain ⟨user,found,eq⟩ := Option.map_eq_some_iff.mp reads
  simp only [Prod.mk.injEq] at eq
  exact ⟨user,found,eq⟩

theorem login_account : ∃ user,
    userByName (run (accountStep platform) opening (session.take 3)).db ana = some user ∧
      user.id = anaId ∧ user.status = .confirmed ∧ role user = "user".toList ∧
      user.userName = ana ∧ user.email = ana :=
  session_account (by decide +kernel)

theorem tick_keeps_database (pf : Platform) (w : World) (cs : List AccountCall) (elapsed : Nat) :
    (run (accountStep pf) w (cs ++ [.tick elapsed])).db = (run (accountStep pf) w cs).db := by
  rw [run_append]
  rfl

theorem session_database : (run (accountStep platform) opening session).db =
    (run (accountStep platform) opening (session.take 3)).db := by
  conv_lhs => rw [session_ticks]
  exact tick_keeps_database _ _ _ _

theorem refresh_after_an_hour :
    loginRefresh platform (run (accountStep platform) opening session).db
      (run (accountStep platform) opening session).now "MDEyMzQ1Njc4OTo7PD0-Pw"
      "QEFCQ0RFRkdISUpLTE1OTw" firstRefresh =
    .ok ⟨laterAccess,laterId,firstRefresh,3600⟩ := by
  obtain ⟨user,found,id,confirmed,plain,named,mail⟩ := login_account
  rw [← session_database] at found
  obtain ⟨before,there,same,-⟩ := @session_account (session.take 2) (by decide +kernel)
  have returned : (loginPassword platform
      (run (accountStep platform) opening (session.take 2)).db
      (run (accountStep platform) opening (session.take 2)).now drawn ana password).2 =
      .ok ⟨firstAccess,firstId,firstRefresh,3600⟩ := by decide +kernel
  refine (refresh_valid_iff platform opening session (platform_jwt session_encoded) platform_uuids session_draws
    session_ids "MDEyMzQ1Njc4OTo7PD0-Pw" "QEFCQ0RFRkdISUpLTE1OTw" firstRefresh _).1.mpr
    ⟨user,(user_by_name found).1,confirmed,⟨session.take 2,drawn,ana,password,[.tick 3600000000],
      before,_,rfl,there,same.trans id.symm,returned,rfl,by decide +kernel,?_⟩,?_⟩
  · simp
  · have moment : (run (accountStep platform) opening session).now = 1700003600000000 := by
      decide +kernel
    simp only [accessToken, idToken, mintToken, id, plain, named, mail, moment]
    decide +kernel

end RainmakerServer.Sessions
