import RainmakerServer.Services.Fleet

/-!
Accounts: signup and confirmation, login and refresh, logout, passwords, and
deletion with its cascades. Codes, token ids and row keys are arguments.
-/
namespace RainmakerServer.Accounts
open Tables

def userByName (db : Db) (userName : Text) : Option User :=
  db.users.rows.find? fun r => r.userName == userName

def userById (db : Db) (id : Uuid) : Option User := db.users.rows.find? fun r => r.id == id

def setUser (db : Db) (id : Uuid) (f : User → User)
    (keep : ∀ a b : User, Schema.conflict (f a) b = Schema.conflict a b)
    (hold : ∀ a : User, Schema.holds a = true → Schema.holds (f a) = true) : Db :=
  {db with users := db.users.update (fun r => r.id == id) f keep hold}

/-- The part of `get_current_user` that follows the token: `sub` must be the
    key of a confirmed account. -/
def currentUser (db : Db) (id : Uuid) : Except Exc User :=
  match userById db id with
  | none => .error (unauthorized "User not found")
  | some user =>
    if user.status ≠ .confirmed then .error (unauthorized "User not found") else .ok user

def requireAdmin (db : Db) (id : Uuid) : Except Exc User :=
  match currentUser db id with
  | .error e => .error e
  | .ok user => if user.isAdmin || user.isSuperAdmin then .ok user
    else .error (forbidden "Admin role required")

def generateCode (draw : Fin 1000000) : Text :=
  let digits := decimal draw.val
  List.replicate (6 - digits.length) '0' ++ digits

def hashable (password : Text) : Bool := bindable password && password.length ≤ 4096

def hashPassword (pf : Platform) (salt plain : Text) : Except Exc Text :=
  if hashable plain then .ok (pf.hashPassword salt plain) else .error .valueError

def verifyPassword (pf : Platform) (plain hashed : Text) : Except Exc Bool :=
  if hashable plain then .ok (pf.verifyPassword plain hashed) else .error .valueError

def signup (pf : Platform) (db : Db) (now : Time) (id : Uuid) (salt code : Text)
    (userName password : Text) : Reply (Uuid × Text) :=
  binding db userName <| match userByName db userName with
  | some _ => raise db (conflict "User already exists")
  | none => match hashPassword pf salt password with
    | .error e => raise db e
    | .ok hash => match commitInsert db.users {
          id := id, userName := userName, email := userName, passwordHash := some hash,
          status := .unconfirmed, confirmCode := some code,
          confirmCodeExp := some (now + hours 24)} (fun _ => true)
          fun t => {db with users := t} with
      | .error e => raise db e
      | .ok db' => done db' (id,code)

def confirmSignup (db : Db) (now : Time) (userName verificationCode : Text) : Reply Uuid :=
  binding db userName <| match userByName db userName with
  | none => raise db (.rainmakerError 404 ErrorCode.userDoesNotExist "User does not exist")
  | some user => match user.confirmCode, user.confirmCodeExp with
    | some code, some exp =>
      if exp < now then
        raise db (.rainmakerError 400 ErrorCode.invalidRequest "Confirmation code expired")
      else match compareDigest code verificationCode with
      | .error e => raise db e
      | .ok false =>
        raise db (.rainmakerError 400 ErrorCode.invalidRequest "Invalid verification code")
      | .ok true => done (setUser db user.id (fun r =>
          {r with status := .confirmed, confirmCode := none, confirmCodeExp := none})
          (fun _ _ => rfl) fun _ held => held) user.id
    | _, _ => raise db (.rainmakerError 400 ErrorCode.invalidRequest "No pending confirmation")

/-! Tokens. -/

def ttlFor (s : Settings) : TokenKind → Int
  | .access => s.accessTokenTtlSeconds
  | .id => s.idTokenTtlSeconds
  | .refresh => s.refreshTokenTtlSeconds

def mintToken (pf : Platform) (now : Time) (jti : Text) (subject : Text) (kind : TokenKind)
    (extraClaims : List (Text × Text)) : Text × Time :=
  let exp := now + seconds (ttlFor pf.settings kind)
  (pf.jwtEncode ⟨subject,now / 1000000,exp / 1000000,kind,jti,extraClaims⟩,exp)

def decodeToken (pf : Platform) (now : Time) (token : Text) (expectedKind : TokenKind) :
    Except Exc Claims :=
  match pf.jwtDecode now token with
  | .error e => .error e
  | .ok claims => if claims.tokenUse ≠ expectedKind then .error .pyJWTError else .ok claims

/-- The header as the framework hands it over; an empty one counts as missing. -/
def extractToken (pf : Platform) (authorization : Option Text) : Except Exc Text :=
  match authorization with
  | none => .error (unauthorized "Authorization header missing")
  | some header =>
    if header.isEmpty then .error (unauthorized "Authorization header missing")
    else if "bearer ".toList.isPrefixOf (pf.lower header) then
      .error (unauthorized "Bearer-prefixed tokens are not supported")
    else .ok (strip header)

def getCurrentUser (pf : Platform) (db : Db) (now : Time) (authorization : Option Text) :
    Except Exc User :=
  match extractToken pf authorization with
  | .error e => .error e
  | .ok token => match decodeToken pf now token .access with
    | .error .expiredSignatureError => .error (unauthorized "Token expired")
    | .error .pyJWTError => .error (unauthorized "Invalid token")
    | .error e => .error e
    | .ok claims =>
      if claims.sub.isEmpty then .error (unauthorized "Invalid token")
      else match pf.parseUuid claims.sub with
      | none => .error (unauthorized "Invalid token")
      | some id => currentUser db id

/-- `claim._resolve_user_from_header`: the header value is stripped before the
    `Bearer` check, and `uuid.UUID` is given an empty subject as well. -/
def resolveUserFromHeader (pf : Platform) (db : Db) (now : Time) (authorization : Text) :
    Except Exc User :=
  let token := strip authorization
  if "bearer ".toList.isPrefixOf (pf.lower token) then
    .error (unauthorized "Bearer-prefixed tokens are not supported")
  else match decodeToken pf now token .access with
  | .error .expiredSignatureError => .error (unauthorized "Invalid token")
  | .error .pyJWTError => .error (unauthorized "Invalid token")
  | .error e => .error e
  | .ok claims => match pf.parseUuid claims.sub with
    | none => .error (unauthorized "Invalid token")
    | some id => currentUser db id

def role (user : User) : Text :=
  if user.isSuperAdmin then "super_admin" else if user.isAdmin then "admin" else "user"

structure Tokens where
  access : Text
  id : Text
  refresh : Text
  expiresIn : Int
  deriving DecidableEq

structure TokenDraw where
  rowId : Uuid
  accessJti : Text
  idJti : Text
  refreshJti : Text

def accessToken (pf : Platform) (now : Time) (jti : Text) (user : User) : Text :=
  (mintToken pf now jti (pf.uuidStr user.id) .access [("role",role user)]).1

def idToken (pf : Platform) (now : Time) (jti : Text) (user : User) : Text :=
  (mintToken pf now jti (pf.uuidStr user.id) .id
    [("user_name",user.userName),("email",user.email)]).1

def mintTokenTriple (pf : Platform) (db : Db) (now : Time) (draw : TokenDraw) (user : User) :
    Reply Tokens :=
  let refresh := mintToken pf now draw.refreshJti (pf.uuidStr user.id) .refresh []
  match decodeToken pf now refresh.1 .refresh with
  | .error e => raise db e
  | .ok claims => match commitInsert db.refreshTokens {
        id := draw.rowId, userId := user.id, jti := claims.jti, expiresAt := refresh.2}
        (fun r => db.hasUser r.userId) fun t => {db with refreshTokens := t} with
    | .error e => raise db e
    | .ok db' => done db' ⟨accessToken pf now draw.accessJti user,idToken pf now draw.idJti user,
        refresh.1,pf.settings.accessTokenTtlSeconds⟩

def loginPassword (pf : Platform) (db : Db) (now : Time) (draw : TokenDraw)
    (userName password : Text) : Reply Tokens :=
  binding db userName <| match userByName db userName with
  | none => raise db (unauthorized "Invalid credentials")
  | some user => match user.passwordHash with
    | none => raise db (unauthorized "Invalid credentials")
    | some hash => match verifyPassword pf password hash with
      | .error e => raise db e
      | .ok false => raise db (unauthorized "Invalid credentials")
      | .ok true =>
        if user.status ≠ .confirmed then
          raise db (.rainmakerError 401 ErrorCode.invalidCredentials "User not confirmed")
        else mintTokenTriple pf (setUser db user.id (fun r => {r with lastLoginAt := some now})
          (fun _ _ => rfl) fun _ held => held) now draw user

def loginRefresh (pf : Platform) (db : Db) (now : Time) (accessJti idJti refreshtoken : Text) :
    Except Exc Tokens :=
  match decodeToken pf now refreshtoken .refresh with
  | .error _ => .error (unauthorized "Invalid refresh token")
  | .ok claims =>
    if claims.jti.isEmpty || claims.sub.isEmpty then .error (unauthorized "Invalid refresh token")
    else match db.refreshTokens.rows.find? fun r => r.jti == claims.jti with
    | none => .error (unauthorized "Invalid refresh token")
    | some row =>
      if row.revokedAt.isSome || row.expiresAt < now then
        .error (unauthorized "Invalid refresh token")
      else match pf.parseUuid claims.sub with
      | none => .error .valueError
      | some id => match currentUser db id with
        | .error _ => .error (unauthorized "Invalid refresh token")
        | .ok user => .ok ⟨accessToken pf now accessJti user,idToken pf now idJti user,
            refreshtoken,pf.settings.accessTokenTtlSeconds⟩

def logout (db : Db) (now : Time) (userId : Uuid) : Db :=
  let t := db.refreshTokens.update (fun r => r.userId == userId && r.revokedAt == none)
    (fun r => {r with revokedAt := some now}) (fun _ _ => rfl) fun _ held => held
  {db with refreshTokens := t}

/-! Passwords. -/

def changePassword (pf : Platform) (db : Db) (salt : Text) (user : User) (current new : Text) :
    Reply Unit :=
  match user.passwordHash with
  | none => raise db (unauthorized "Invalid credentials")
  | some hash => match verifyPassword pf current hash with
    | .error e => raise db e
    | .ok false => raise db (unauthorized "Invalid credentials")
    | .ok true => match hashPassword pf salt new with
      | .error e => raise db e
      | .ok hash => done (setUser db user.id (fun r => {r with passwordHash := some hash})
          (fun _ _ => rfl) fun _ held => held) ()

def requestPasswordReset (db : Db) (now : Time) (code userName : Text) : Reply (Option Text) :=
  binding db userName <| match userByName db userName with
  | none => done db none
  | some user => done (setUser db user.id (fun r =>
      {r with resetCode := some code, resetCodeExp := some (now + hours 1)})
      (fun _ _ => rfl) fun _ held => held) code

def confirmPasswordReset (pf : Platform) (db : Db) (now : Time) (salt : Text)
    (userName verificationCode password : Text) : Reply Unit :=
  let refused : Exc := .rainmakerError 400 ErrorCode.invalidRequest "Invalid or expired code"
  binding db userName <| match userByName db userName with
  | none => raise db refused
  | some user => match user.resetCode, user.resetCodeExp with
    | some code, some exp =>
      if exp < now then raise db refused
      else match compareDigest code verificationCode with
      | .error e => raise db e
      | .ok false => raise db refused
      | .ok true => match hashPassword pf salt password with
        | .error e => raise db e
        | .ok hash => done (setUser db user.id (fun r =>
            {r with passwordHash := some hash, resetCode := none, resetCodeExp := none})
            (fun _ _ => rfl) fun _ held => held) ()
    | _, _ => raise db refused

/-! Profile and deletion. -/

def putCustomData (db : Db) (user : User) (payload : JsonObject) : Reply Unit :=
  if Json.pyEq (.obj payload) (.obj user.customData) then done db ()
  else if Json.storableFields payload = false then raise db (.database .dataError)
  else done (setUser db user.id (fun r => {r with customData := payload})
    (fun _ _ => rfl) fun _ held => held) ()

/-- `DELETE /user2`: the row and everything that refers to it. Claim challenges
    and jobs keep the key of a deleted user, they have no foreign key. -/
def deleteCurrentUser (db : Db) (userId : Uuid) : Db :=
  let owned := (db.nodeGroups.select fun g => g.ownerId == userId).map (·.id)
  let db := Fleet.cascadeGroups db owned
  {db with
    users := db.users.delete fun r => r.id == userId,
    refreshTokens := db.refreshTokens.delete fun r => r.userId == userId,
    userNodeMappings := db.userNodeMappings.delete fun r => r.userId == userId,
    mappingChallenges := db.mappingChallenges.delete fun r => r.userId == userId,
    nodeSharing := db.nodeSharing.delete fun r => r.fromUserId == userId || r.toUserId == userId,
    nodeSharingRequests := db.nodeSharingRequests.delete fun r => r.fromUserId == userId,
    automations := db.automations.delete fun r => r.userId == userId}

/-! Frames. -/

/-- Apart from deletion, only accounts and tokens are written, and no account
    changes its key or its name. `drawn` is the key of a new account. -/
def Writes (drawn : Option Uuid) (db db' : Db) : Prop :=
  ∃ users tokens, db' = {db with users := users, refreshTokens := tokens} ∧
    (∀ r ∈ users, some r.id = drawn ∨
      ∃ old ∈ db.users, old.id = r.id ∧ old.userName = r.userName) ∧
    ∀ r ∈ db.users, ∃ new ∈ users, new.id = r.id ∧ new.userName = r.userName

theorem writes_tokens (drawn : Option Uuid) (db : Db) (tokens : Table RefreshToken) :
    Writes drawn db {db with refreshTokens := tokens} :=
  ⟨db.users,tokens,rfl,fun r stored => Or.inr ⟨r,stored,rfl,rfl⟩,
    fun r stored => ⟨r,stored,rfl,rfl⟩⟩

theorem writes_refl (drawn : Option Uuid) (db : Db) : Writes drawn db db :=
  writes_tokens drawn db db.refreshTokens

theorem writes_trans {drawn : Option Uuid} {a b c : Db} (first : Writes drawn a b)
    (second : Writes drawn b c) : Writes drawn a c := by
  obtain ⟨users,tokens,eq,origin,kept⟩ := first
  obtain ⟨users',tokens',eq',origin',kept'⟩ := second
  subst eq
  refine ⟨users',tokens',eq',?_,?_⟩
  · intro r stored
    rcases origin' r stored with new | ⟨mid,member,id,name⟩
    · exact Or.inl new
    · rw [← id,← name]
      exact origin mid member
  · intro r stored
    obtain ⟨mid,member,id,name⟩ := kept r stored
    rw [← id,← name]
    exact kept' mid member

theorem set_user_writes {drawn : Option Uuid} {db : Db} {id : Uuid} {f : User → User} {keep hold}
    (named : ∀ r, (f r).id = r.id ∧ (f r).userName = r.userName) :
    Writes drawn db (setUser db id f keep hold) := by
  have same : ∀ r : User, (if r.id == id then f r else r).id = r.id ∧
      (if r.id == id then f r else r).userName = r.userName := by
    intro r
    split
    · exact named r
    · exact ⟨rfl,rfl⟩
  refine ⟨_,db.refreshTokens,rfl,?_,?_⟩
  · intro r stored
    obtain ⟨old,member,eq⟩ := Table.mem_update.mp stored
    subst eq
    exact Or.inr ⟨old,member,(same old).1.symm,(same old).2.symm⟩
  · intro r stored
    exact ⟨_,Table.mem_update.mpr ⟨r,stored,rfl⟩,same r⟩

theorem binding_writes {α : Type} {drawn : Option Uuid} {db : Db} {s : Text} {handler : Reply α}
    (writes : Writes drawn db handler.1) : Writes drawn db (binding db s handler).1 := by
  unfold binding
  split
  · exact writes
  · exact writes_refl _ db

theorem signup_writes {pf : Platform} {db : Db} {now : Time} {id : Uuid}
    {salt code userName password : Text} :
    Writes (some id) db (signup pf db now id salt code userName password).1 := by
  unfold signup
  apply binding_writes
  split
  · exact writes_refl _ db
  · split
    · exact writes_refl _ db
    · split
      · exact writes_refl _ db
      · rename_i stored
        obtain ⟨t,inserted,-,eq⟩ := commitInsert_ok stored
        subst eq
        refine ⟨t,db.refreshTokens,rfl,?_,?_⟩
        · intro r member
          rcases (Table.mem_insert inserted).mp member with old | new
          · exact Or.inr ⟨r,old,rfl,rfl⟩
          · exact Or.inl (by rw [new]; rfl)
        · intro r member
          exact ⟨r,(Table.mem_insert inserted).mpr (Or.inl member),rfl,rfl⟩

theorem confirm_signup_writes {db : Db} {now : Time} {userName code : Text} :
    Writes none db (confirmSignup db now userName code).1 := by
  unfold confirmSignup
  apply binding_writes
  split
  · exact writes_refl _ db
  · split
    · split
      · exact writes_refl _ db
      · split
        · exact writes_refl _ db
        · exact writes_refl _ db
        · exact set_user_writes fun _ => ⟨rfl,rfl⟩
    · exact writes_refl _ db

theorem mint_token_triple_writes {pf : Platform} {db : Db} {now : Time} {draw : TokenDraw}
    {user : User} : Writes none db (mintTokenTriple pf db now draw user).1 := by
  unfold mintTokenTriple
  dsimp only
  split
  · exact writes_refl _ db
  · split
    · exact writes_refl _ db
    · rename_i stored
      obtain ⟨t,-,-,eq⟩ := commitInsert_ok stored
      subst eq
      exact writes_tokens _ db t

theorem login_password_writes {pf : Platform} {db : Db} {now : Time} {draw : TokenDraw}
    {userName password : Text} :
    Writes none db (loginPassword pf db now draw userName password).1 := by
  unfold loginPassword
  apply binding_writes
  split
  · exact writes_refl _ db
  · split
    · exact writes_refl _ db
    · split
      · exact writes_refl _ db
      · exact writes_refl _ db
      · split
        · exact writes_refl _ db
        · apply writes_trans _ mint_token_triple_writes
          exact set_user_writes fun _ => ⟨rfl,rfl⟩

theorem change_password_writes {pf : Platform} {db : Db} {salt : Text} {user : User}
    {current new : Text} : Writes none db (changePassword pf db salt user current new).1 := by
  unfold changePassword
  split
  · exact writes_refl _ db
  · split
    · exact writes_refl _ db
    · exact writes_refl _ db
    · split
      · exact writes_refl _ db
      · exact set_user_writes fun _ => ⟨rfl,rfl⟩

theorem request_password_reset_writes {db : Db} {now : Time} {code userName : Text} :
    Writes none db (requestPasswordReset db now code userName).1 := by
  unfold requestPasswordReset
  apply binding_writes
  split
  · exact writes_refl _ db
  · exact set_user_writes fun _ => ⟨rfl,rfl⟩

theorem confirm_password_reset_writes {pf : Platform} {db : Db} {now : Time} {salt : Text}
    {userName code password : Text} :
    Writes none db (confirmPasswordReset pf db now salt userName code password).1 := by
  unfold confirmPasswordReset
  apply binding_writes
  split
  · exact writes_refl _ db
  · split
    · split
      · exact writes_refl _ db
      · split
        · exact writes_refl _ db
        · exact writes_refl _ db
        · split
          · exact writes_refl _ db
          · exact set_user_writes fun _ => ⟨rfl,rfl⟩
    · exact writes_refl _ db

theorem put_custom_data_writes {db : Db} {user : User} {payload : JsonObject} :
    Writes none db (putCustomData db user payload).1 := by
  unfold putCustomData
  split
  · exact writes_refl _ db
  · split
    · exact writes_refl _ db
    · exact set_user_writes fun _ => ⟨rfl,rfl⟩

theorem user_by_id {db : Db} {id : Uuid} {user : User} (found : userById db id = some user) :
    user ∈ db.users ∧ user.id = id := by
  have member := List.mem_of_find?_eq_some found
  have key := List.find?_some found
  exact ⟨member,by simpa using key⟩

theorem current_user_ok {db : Db} {id : Uuid} {user : User} (ok : currentUser db id = .ok user) :
    user ∈ db.users ∧ user.id = id ∧ user.status = .confirmed := by
  unfold currentUser at ok
  split at ok
  · cases ok
  · rename_i row found
    split at ok
    · cases ok
    · rename_i confirmed
      cases ok
      obtain ⟨member,key⟩ := user_by_id found
      exact ⟨member,key,by simpa using confirmed⟩

theorem current_user_iff {db : Db} {id : Uuid} {user : User} : currentUser db id = .ok user ↔
    user ∈ db.users ∧ user.id = id ∧ user.status = .confirmed := by
  constructor
  · exact current_user_ok
  · rintro ⟨stored,key,confirmed⟩
    have found : userById db id = some user := by
      apply Table.find_by_key stored
      · simp [key]
      · intro a same
        rw [beq_iff_eq] at same
        simp [Schema.conflict, same, key]
    unfold currentUser
    rw [found]
    simp [confirmed]

end RainmakerServer.Accounts
