import RainmakerServer.Api

/-!
The account operations as a system of their own: the service functions, called
one at a time by anyone, in any order. They are the operations of the server
that write the accounts and the refresh tokens; what a call can do to these is
said once, in `AccountEffect`.
-/
namespace RainmakerServer.Accounts
open Tables Runs

inductive AccountCall where
  | tick (elapsed : Nat)
  | signup (id : Uuid) (salt : Text) (draw : Fin 1000000) (userName password : Text)
  | confirmSignup (userName verificationCode : Text)
  | loginPassword (draw : TokenDraw) (userName password : Text)
  | loginRefresh (accessJti idJti refreshtoken : Text)
  | logout (userId : Uuid)
  | changePassword (userId : Uuid) (salt current new : Text)
  | requestPasswordReset (draw : Fin 1000000) (userName : Text)
  | confirmPasswordReset (salt userName verificationCode password : Text)
  | putCustomData (userId : Uuid) (payload : JsonObject)
  | deleteCurrentUser (userId : Uuid)

def discard {α : Type} (r : Reply α) : Reply Unit := (r.1,r.2.map fun _ => ())

section
variable (pf : Platform)

/-- The state a call leaves and whether it returned or raised. -/
def serveAccount (db : Db) (now : Time) : AccountCall → Reply Unit
  | .tick _ => done db ()
  | .signup id salt draw userName password =>
    discard (signup pf db now id salt (generateCode draw) userName password)
  | .confirmSignup userName code => discard (confirmSignup db now userName code)
  | .loginPassword draw userName password =>
    discard (loginPassword pf db now draw userName password)
  | .loginRefresh accessJti idJti token =>
    discard (db,loginRefresh pf db now accessJti idJti token)
  | .logout userId => done (logout db now userId) ()
  | .changePassword userId salt current new => match userById db userId with
    | none => done db ()
    | some user => changePassword pf db salt user current new
  | .requestPasswordReset draw userName =>
    discard (requestPasswordReset db now (generateCode draw) userName)
  | .confirmPasswordReset salt userName code password =>
    confirmPasswordReset pf db now salt userName code password
  | .putCustomData userId payload => match userById db userId with
    | none => done db ()
    | some user => putCustomData db user payload
  | .deleteCurrentUser userId => done (deleteCurrentUser db userId) ()

def accountStep (w : World) (c : AccountCall) : World where
  db := (serveAccount pf w.db w.now c).1
  now := match c with
    | .tick elapsed => w.now + elapsed
    | _ => w.now

def admitted (db : Db) (userName password : Text) : Except Exc User :=
  if bindable userName then match userByName db userName with
  | none => .error (unauthorized "Invalid credentials")
  | some user => match user.passwordHash with
    | none => .error (unauthorized "Invalid credentials")
    | some hash => match verifyPassword pf password hash with
      | .error e => .error e
      | .ok false => .error (unauthorized "Invalid credentials")
      | .ok true =>
        if user.status ≠ .confirmed then
          .error (.rainmakerError 401 ErrorCode.invalidCredentials "User not confirmed")
        else .ok user
  else .error (.database .dataError)

end

/-! What a call does. -/

def stamped (now : Time) (r : User) : User := {r with lastLoginAt := some now}

def stamp (now : Time) (user : User) (db : Db) : Db :=
  setUser db user.id (stamped now) (fun _ _ => rfl) fun _ held => held

def confirmedUser (r : User) : User :=
  {r with status := .confirmed, confirmCode := none, confirmCodeExp := none}

def requestedUser (code : Text) (now : Time) (r : User) : User :=
  {r with resetCode := some code, resetCodeExp := some (now + hours 1)}

def resetUser (hash : Text) (r : User) : User :=
  {r with passwordHash := some hash, resetCode := none, resetCodeExp := none}

inductive Edit (pf : Platform) (db : Db) (now : Time) : AccountCall → User → (User → User) → Prop
    where
  | confirm {userName code : Text} {user : User} (found : userByName db userName = some user) :
      Edit pf db now (.confirmSignup userName code) user confirmedUser
  | stamp {draw : TokenDraw} {userName password : Text} {user : User}
      (checked : admitted pf db userName password = .ok user) :
      Edit pf db now (.loginPassword draw userName password) user (stamped now)
  | change {userId : Uuid} {salt current new : Text} {user : User}
      (found : userById db userId = some user) :
      Edit pf db now (.changePassword userId salt current new) user
        fun r => {r with passwordHash := some (pf.hashPassword salt new)}
  | request {draw : Fin 1000000} {userName : Text} {user : User}
      (found : userByName db userName = some user) :
      Edit pf db now (.requestPasswordReset draw userName) user
        (requestedUser (generateCode draw) now)
  | reset {salt userName code password : Text} {user : User}
      (found : userByName db userName = some user) :
      Edit pf db now (.confirmPasswordReset salt userName code password) user
        (resetUser (pf.hashPassword salt password))
  | customise {userId : Uuid} {payload : JsonObject} {user : User}
      (found : userById db userId = some user) :
      Edit pf db now (.putCustomData userId payload) user fun r => {r with customData := payload}

inductive AccountEffect (pf : Platform) (db : Db) (now : Time) : AccountCall → Db → Prop where
  | kept {c : AccountCall} : AccountEffect pf db now c db
  | signedUp {id : Uuid} {salt : Text} {draw : Fin 1000000} {userName password : Text}
      {t : Table User} (absent : userByName db userName = none)
      (hashed : hashable password = true) (inserted : db.users.insert {
        id := id, userName := userName, email := userName,
        passwordHash := some (pf.hashPassword salt password), status := .unconfirmed,
        confirmCode := some (generateCode draw),
        confirmCodeExp := some (now + hours 24)} = .ok t) :
      AccountEffect pf db now (.signup id salt draw userName password) {db with users := t}
  | edited {c : AccountCall} {user : User} {f : User → User} {keep hold}
      (edit : Edit pf db now c user f) :
      AccountEffect pf db now c (setUser db user.id f keep hold)
  | loggedIn {draw : TokenDraw} {userName password : Text} {user : User}
      {row : RefreshToken} {t : Table RefreshToken}
      (checked : admitted pf db userName password = .ok user)
      (inserted : db.refreshTokens.insert row = .ok t) (owner : row.userId = user.id) :
      AccountEffect pf db now (.loginPassword draw userName password)
        {stamp now user db with refreshTokens := t}
  | loggedOut {userId : Uuid} :
      AccountEffect pf db now (.logout userId) (logout db now userId)
  | deleted {userId : Uuid} :
      AccountEffect pf db now (.deleteCurrentUser userId) (deleteCurrentUser db userId)

/-! The calls that set or take a code. -/

section
variable {pf : Platform} {db : Db} {now : Time}

theorem compare_digest_iff {a b : Text} (ascii : ∀ c ∈ a, c.val < 128) :
    compareDigest a b = .ok true ↔ a = b := by
  constructor
  · exact compare_digest_true
  · intro same
    subst same
    have both : (a ++ a).all (fun c => decide (c.val < 128)) = true := by
      rw [List.all_eq_true]
      intro c member
      rcases List.mem_append.mp member with left | right
      · exact decide_eq_true (ascii c left)
      · exact decide_eq_true (ascii c right)
    unfold compareDigest
    rw [if_pos both]
    simp

/-- The stored code has not expired and is the one that is presented. -/
def Passes (stored : Option Text) (exp : Option Time) (now : Time) (code : Text) : Prop :=
  ∃ text until', stored = some text ∧ exp = some until' ∧ now ≤ until' ∧
    compareDigest text code = .ok true

theorem passes_none {exp : Option Time} {code : Text} : ¬ Passes none exp now code := by
  intro passes
  obtain ⟨text,until',held,-⟩ := passes
  cases held

theorem passes_unlimited {stored : Option Text} {code : Text} : ¬ Passes stored none now code := by
  intro passes
  obtain ⟨text,until',-,limit,-⟩ := passes
  cases limit

theorem passes_some {text code : Text} {until' : Time} :
    Passes (some text) (some until') now code ↔ ¬ until' < now ∧ compareDigest text code = .ok true := by
  constructor
  · intro passes
    obtain ⟨t,u,held,limit,valid,same⟩ := passes
    cases held
    cases limit
    exact ⟨Int.not_lt.mpr valid,same⟩
  · intro passes
    exact ⟨text,until',rfl,rfl,Int.not_lt.mp passes.1,passes.2⟩

def guarded {α : Type} (db : Db) (stored : Option Text) (exp : Option Time) (now : Time)
    (code : Text) (missing late wrong : Exc) (pass : Reply α) : Reply α :=
  match stored, exp with
  | some text, some until' =>
    if until' < now then raise db late
    else match compareDigest text code with
    | .error e => raise db e
    | .ok false => raise db wrong
    | .ok true => pass
  | _, _ => raise db missing

theorem guarded_cases {α : Type} (db : Db) (stored : Option Text) (exp : Option Time) (now : Time)
    (code : Text) (missing late wrong : Exc) (pass : Reply α) :
    (Passes stored exp now code ∧ guarded db stored exp now code missing late wrong pass = pass) ∨
      ¬ Passes stored exp now code ∧
        ∃ e, guarded db stored exp now code missing late wrong pass = raise db e := by
  cases stored with
  | none => exact Or.inr ⟨passes_none,_,rfl⟩
  | some text =>
    cases exp with
    | none => exact Or.inr ⟨passes_unlimited,_,rfl⟩
    | some until' =>
      unfold guarded
      dsimp only
      rw [passes_some]
      by_cases past : until' < now
      · rw [if_pos past]
        exact Or.inr ⟨fun passes => passes.1 past,_,rfl⟩
      · rw [if_neg past]
        cases compared : compareDigest text code with
        | error e =>
          right
          refine ⟨?_,e,rfl⟩
          intro passes
          cases passes.2
        | ok same =>
          cases same with
          | false =>
            right
            refine ⟨?_,wrong,rfl⟩
            intro passes
            cases passes.2
          | true => exact Or.inl ⟨⟨past,rfl⟩,rfl⟩

theorem user_by_name_bindable {userName : Text} {user : User}
    (found : userByName db userName = some user) : bindable userName = true := by
  have stored := List.mem_of_find?_eq_some found
  have named := List.find?_some found
  rw [beq_iff_eq] at named
  have held : Schema.holds user = true := Table.holds_of_mem stored
  simp only [Schema.holds, Bool.and_eq_true, named] at held
  exact varchar_bindable held.1

theorem binding_of_found {α : Type} {userName : Text} {user : User} {handler : Reply α}
    (found : userByName db userName = some user) : binding db userName handler = handler :=
  if_pos (user_by_name_bindable found)

theorem binding_raises {α : Type} {s : Text} {handler : Reply α}
    (raises : ∃ e, handler = raise db e) : ∃ e, binding db s handler = raise db e := by
  unfold binding
  split
  · exact raises
  · exact ⟨_,rfl⟩

def rehashed (pf : Platform) (db : Db) (salt password : Text) (user : User) : Reply Unit :=
  match hashPassword pf salt password with
  | .error e => raise db e
  | .ok hash => done (setUser db user.id (resetUser hash) (fun _ _ => rfl) fun _ held => held) ()

theorem rehashed_cases (salt password : Text) (user : User) :
    hashable password = true ∧ rehashed pf db salt password user =
        done (setUser db user.id (resetUser (pf.hashPassword salt password)) (fun _ _ => rfl)
          fun _ held => held) () ∨
      hashable password = false ∧ rehashed pf db salt password user = raise db .valueError := by
  unfold rehashed hashPassword
  cases hashable password with
  | true => exact Or.inl ⟨rfl,rfl⟩
  | false => exact Or.inr ⟨rfl,rfl⟩

theorem confirm_signup_guarded {userName code : Text} {user : User}
    (found : userByName db userName = some user) : confirmSignup db now userName code =
      guarded db user.confirmCode user.confirmCodeExp now code
        (.rainmakerError 400 ErrorCode.invalidRequest "No pending confirmation")
        (.rainmakerError 400 ErrorCode.invalidRequest "Confirmation code expired")
        (.rainmakerError 400 ErrorCode.invalidRequest "Invalid verification code")
        (done (setUser db user.id confirmedUser (fun _ _ => rfl) fun _ held => held)
          user.id) := by
  unfold confirmSignup
  rw [binding_of_found found]
  simp only [found]
  rfl

theorem confirm_password_reset_guarded {salt userName code password : Text} {user : User}
    (found : userByName db userName = some user) :
    confirmPasswordReset pf db now salt userName code password =
      guarded db user.resetCode user.resetCodeExp now code
        (.rainmakerError 400 ErrorCode.invalidRequest "Invalid or expired code")
        (.rainmakerError 400 ErrorCode.invalidRequest "Invalid or expired code")
        (.rainmakerError 400 ErrorCode.invalidRequest "Invalid or expired code")
        (rehashed pf db salt password user) := by
  unfold confirmPasswordReset
  rw [binding_of_found found]
  simp only [found]
  rfl

theorem confirm_signup_cases (db : Db) (now : Time) (userName code : Text) :
    (∃ user, userByName db userName = some user ∧
      Passes user.confirmCode user.confirmCodeExp now code ∧
      confirmSignup db now userName code =
        done (setUser db user.id confirmedUser (fun _ _ => rfl) fun _ held => held) user.id) ∨
    (∃ e, confirmSignup db now userName code = raise db e) ∧
      ∀ user, userByName db userName = some user →
        ¬ Passes user.confirmCode user.confirmCodeExp now code := by
  cases found : userByName db userName with
  | none =>
    right
    refine ⟨binding_raises ?_,?_⟩
    · simp only [found]
      exact ⟨_,rfl⟩
    · intro user some
      cases some
  | some user =>
    rw [confirm_signup_guarded found]
    rcases guarded_cases db user.confirmCode user.confirmCodeExp now code
      (.rainmakerError 400 ErrorCode.invalidRequest "No pending confirmation")
      (.rainmakerError 400 ErrorCode.invalidRequest "Confirmation code expired")
      (.rainmakerError 400 ErrorCode.invalidRequest "Invalid verification code")
      (done (setUser db user.id confirmedUser (fun _ _ => rfl) fun _ held => held) user.id) with
      ⟨passes,eq⟩ | ⟨refused,raised⟩
    · exact Or.inl ⟨user,rfl,passes,eq⟩
    · right
      refine ⟨raised,?_⟩
      intro other same
      cases same
      exact refused

theorem confirm_password_reset_cases (pf : Platform) (db : Db) (now : Time)
    (salt userName code password : Text) :
    (∃ user, userByName db userName = some user ∧
      Passes user.resetCode user.resetCodeExp now code ∧ hashable password = true ∧
      confirmPasswordReset pf db now salt userName code password =
        done (setUser db user.id (resetUser (pf.hashPassword salt password)) (fun _ _ => rfl)
          fun _ held => held) ()) ∨
    (∃ e, confirmPasswordReset pf db now salt userName code password = raise db e) ∧
      ∀ user, userByName db userName = some user →
        ¬ (Passes user.resetCode user.resetCodeExp now code ∧ hashable password = true) := by
  cases found : userByName db userName with
  | none =>
    right
    refine ⟨binding_raises ?_,?_⟩
    · simp only [found]
      exact ⟨_,rfl⟩
    · intro user some
      cases some
  | some user =>
    rw [confirm_password_reset_guarded found]
    rcases guarded_cases db user.resetCode user.resetCodeExp now code
      (.rainmakerError 400 ErrorCode.invalidRequest "Invalid or expired code")
      (.rainmakerError 400 ErrorCode.invalidRequest "Invalid or expired code")
      (.rainmakerError 400 ErrorCode.invalidRequest "Invalid or expired code")
      (rehashed pf db salt password user) with ⟨passes,eq⟩ | ⟨refused,raised⟩
    · rw [eq]
      rcases @rehashed_cases pf db salt password user with ⟨hashed,stored⟩ | ⟨unhashable,failed⟩
      · exact Or.inl ⟨user,rfl,passes,hashed,stored⟩
      · refine Or.inr ⟨⟨_,failed⟩,?_⟩
        rintro other - ⟨-,hashed⟩
        rw [unhashable] at hashed
        cases hashed
    · right
      refine ⟨raised,?_⟩
      rintro other same ⟨passes,-⟩
      cases same
      exact refused passes

theorem signup_cases (pf : Platform) (db : Db) (now : Time) (id : Uuid)
    (salt code userName password : Text) :
    (∃ t, userByName db userName = none ∧ hashable password = true ∧
      db.users.insert {
        id := id, userName := userName, email := userName,
        passwordHash := some (pf.hashPassword salt password), status := .unconfirmed,
        confirmCode := some code, confirmCodeExp := some (now + hours 24)} = .ok t ∧
      signup pf db now id salt code userName password = done {db with users := t} (id,code)) ∨
    ∃ e, signup pf db now id salt code userName password = raise db e := by
  unfold signup binding
  split
  · cases userByName db userName with
    | some user => exact Or.inr ⟨_,rfl⟩
    | none =>
      dsimp only
      cases hashed : hashable password with
      | false => exact Or.inr ⟨.valueError,by simp [hashPassword, hashed]⟩
      | true =>
        simp only [hashPassword, hashed, if_true]
        split
        · exact Or.inr ⟨_,rfl⟩
        · rename_i stored
          obtain ⟨t,inserted,-,eq⟩ := commitInsert_ok stored
          subst eq
          exact Or.inl ⟨t,trivial,trivial,inserted,rfl⟩
  · exact Or.inr ⟨_,rfl⟩

end

section
variable {pf : Platform} {db : Db} {now : Time}

theorem change_password_cases (pf : Platform) (db : Db) (salt : Text) (user : User)
    (current new : Text) :
    (∃ e, changePassword pf db salt user current new = raise db e) ∨
      changePassword pf db salt user current new = done (setUser db user.id
        (fun r => {r with passwordHash := some (pf.hashPassword salt new)}) (fun _ _ => rfl)
        fun _ held => held) () := by
  unfold changePassword
  split
  · exact Or.inl ⟨_,rfl⟩
  · split
    · exact Or.inl ⟨_,rfl⟩
    · exact Or.inl ⟨_,rfl⟩
    · unfold hashPassword
      cases hashable new with
      | false => exact Or.inl ⟨_,rfl⟩
      | true => exact Or.inr rfl

theorem request_password_reset_cases (db : Db) (now : Time) (code userName : Text) :
    (∃ user, userByName db userName = some user ∧
      requestPasswordReset db now code userName = done (setUser db user.id (fun r =>
        {r with resetCode := some code, resetCodeExp := some (now + hours 1)})
        (fun _ _ => rfl) fun _ held => held) (some code)) ∨
    userByName db userName = none ∧ (requestPasswordReset db now code userName).1 = db := by
  unfold requestPasswordReset
  cases found : userByName db userName with
  | none =>
    refine Or.inr ⟨rfl,?_⟩
    unfold binding
    split <;> rfl
  | some user =>
    rw [binding_of_found found]
    exact Or.inl ⟨user,rfl,rfl⟩

theorem put_custom_data_cases (db : Db) (user : User) (payload : JsonObject) :
    (putCustomData db user payload).1 = db ∨
      putCustomData db user payload = done (setUser db user.id
        (fun r => {r with customData := payload}) (fun _ _ => rfl) fun _ held => held) () := by
  unfold putCustomData
  split
  · exact Or.inl rfl
  · split
    · exact Or.inl rfl
    · exact Or.inr rfl

theorem login_password_eq (draw : TokenDraw) (userName password : Text) :
    loginPassword pf db now draw userName password =
      match admitted pf db userName password with
      | .error e => raise db e
      | .ok user => mintTokenTriple pf (stamp now user db) now draw user := by
  unfold loginPassword admitted
  by_cases clean : bindable userName = true
  · rw [binding,if_pos clean,if_pos clean]
    cases userByName db userName with
    | none => rfl
    | some user =>
      dsimp only
      cases user.passwordHash with
      | none => rfl
      | some hash =>
        dsimp only
        cases verifyPassword pf password hash with
        | error e => rfl
        | ok right =>
          cases right with
          | false => rfl
          | true =>
            dsimp only
            by_cases unconfirmed : user.status ≠ .confirmed
            · rw [if_pos unconfirmed,if_pos unconfirmed]
            · rw [if_neg unconfirmed,if_neg unconfirmed]
              rfl
  · rw [binding,if_neg clean,if_neg clean]

theorem mint_token_triple_cases (draw : TokenDraw) (user : User) (db : Db) :
    (∃ e, mintTokenTriple pf db now draw user = raise db e) ∨
      ∃ t row, db.refreshTokens.insert row = .ok t ∧ row.userId = user.id ∧
        (mintTokenTriple pf db now draw user).1 = {db with refreshTokens := t} := by
  unfold mintTokenTriple
  dsimp only
  split
  · exact Or.inl ⟨_,rfl⟩
  · split
    · exact Or.inl ⟨_,rfl⟩
    · rename_i stored
      obtain ⟨t,inserted,-,eq⟩ := commitInsert_ok stored
      exact Or.inr ⟨t,_,inserted,rfl,eq⟩

theorem serve_account_effect (c : AccountCall) :
    AccountEffect pf db now c (serveAccount pf db now c).1 := by
  cases c with
  | tick elapsed => exact .kept
  | signup id salt draw userName password =>
    simp only [serveAccount, discard]
    rcases signup_cases pf db now id salt (generateCode draw) userName password with
      ⟨t,absent,hashed,inserted,eq⟩ | ⟨e,eq⟩
    · rw [eq]
      exact .signedUp absent hashed inserted
    · rw [eq]
      exact .kept
  | confirmSignup userName code =>
    simp only [serveAccount, discard]
    rcases confirm_signup_cases db now userName code with ⟨user,found,-,eq⟩ | ⟨⟨e,eq⟩,-⟩
    · rw [eq]
      exact .edited (.confirm found)
    · rw [eq]
      exact .kept
  | loginPassword draw userName password =>
    simp only [serveAccount, discard]
    rw [login_password_eq]
    cases checked : admitted pf db userName password with
    | error e => exact .kept
    | ok user =>
      dsimp only
      rcases @mint_token_triple_cases pf now draw user (stamp now user db) with
        ⟨e,failed⟩ | ⟨t,row,inserted,owner,eq⟩
      · rw [failed]
        exact .edited (.stamp checked)
      · rw [eq]
        exact .loggedIn checked inserted owner
  | loginRefresh accessJti idJti token => exact .kept
  | logout userId => exact .loggedOut
  | changePassword userId salt current new =>
    simp only [serveAccount]
    cases found : userById db userId with
    | none => exact .kept
    | some user =>
      dsimp only
      rcases change_password_cases pf db salt user current new with ⟨e,failed⟩ | eq
      · rw [failed]
        exact .kept
      · rw [eq]
        exact .edited (.change found)
  | requestPasswordReset draw userName =>
    simp only [serveAccount, discard]
    rcases request_password_reset_cases db now (generateCode draw) userName with
      ⟨user,found,eq⟩ | ⟨-,same⟩
    · rw [eq]
      exact .edited (.request found)
    · rw [same]
      exact .kept
  | confirmPasswordReset salt userName code password =>
    simp only [serveAccount]
    rcases confirm_password_reset_cases pf db now salt userName code password with
      ⟨user,found,-,-,eq⟩ | ⟨⟨e,eq⟩,-⟩
    · rw [eq]
      exact .edited (.reset found)
    · rw [eq]
      exact .kept
  | putCustomData userId payload =>
    simp only [serveAccount]
    cases found : userById db userId with
    | none => exact .kept
    | some user =>
      dsimp only
      rcases put_custom_data_cases db user payload with kept | eq
      · rw [kept]
        exact .kept
      · rw [eq]
        exact .edited (.customise found)
  | deleteCurrentUser userId => exact .deleted

/-! Accounts over a run. -/

theorem user_by_name {userName : Text} {user : User} (found : userByName db userName = some user) :
    user ∈ db.users ∧ user.userName = userName := by
  have member := List.mem_of_find?_eq_some found
  have named := List.find?_some found
  exact ⟨member,by simpa using named⟩

theorem user_by_name_of_mem {user : User} (stored : user ∈ db.users) :
    userByName db user.userName = some user := by
  apply Table.find_by_key stored
  · simp
  · intro a named
    rw [beq_iff_eq] at named
    simp [Schema.conflict, named]

theorem mem_set_user {id : Uuid} {f : User → User} {keep hold} {user : User} :
    user ∈ (setUser db id f keep hold).users ↔
      ∃ old ∈ db.users, (if old.id == id then f old else old) = user := by
  simp only [setUser, Table.mem_update]

theorem set_user_has {id u : Uuid} {f : User → User} {keep hold} (same : ∀ r, (f r).id = r.id) :
    (setUser db id f keep hold).hasUser u = db.hasUser u := by
  have each : ∀ r : User, (if r.id == id then f r else r).id = r.id := by
    intro r
    split
    · exact same r
    · rfl
  unfold Db.hasUser setUser Table.update
  simp only [List.any_map]
  congr 1
  funext r
  simp only [Function.comp, each]

theorem admitted_ok {userName password : Text} {user : User}
    (checked : admitted pf db userName password = .ok user) :
    userByName db userName = some user ∧ user.status = .confirmed := by
  unfold admitted at checked
  split at checked
  · cases found : userByName db userName with
    | none =>
      rw [found] at checked
      cases checked
    | some row =>
      rw [found] at checked
      dsimp only at checked
      split at checked
      · cases checked
      · split at checked
        · cases checked
        · cases checked
        · split at checked
          · cases checked
          · rename_i confirmed
            cases checked
            exact ⟨rfl,not_not.mp confirmed⟩
  · cases checked

theorem edit_keeps {c : AccountCall} {user : User} {f : User → User}
    (edit : Edit pf db now c user f) (r : User) : (f r).id = r.id ∧ (f r).userName = r.userName := by
  cases edit <;> exact ⟨rfl,rfl⟩

theorem delete_current_user_users (db : Db) (u : Uuid) :
    (deleteCurrentUser db u).users = db.users.delete (fun r => r.id == u) ∧
      (deleteCurrentUser db u).refreshTokens = db.refreshTokens.delete fun r => r.userId == u :=
  ⟨rfl,rfl⟩

def signupId : AccountCall → Option Uuid
  | .signup id _ _ _ _ => some id
  | _ => none

theorem account_stays_or_new {w : World} {c : AccountCall} {u : Uuid}
    (present : (accountStep pf w c).db.hasUser u = true) :
    w.db.hasUser u = true ∨ signupId c = some u := by
  have effect := @serve_account_effect pf w.db w.now c
  unfold accountStep at present
  dsimp only at present
  generalize (serveAccount pf w.db w.now c).1 = after at effect present
  cases effect with
  | kept => exact Or.inl present
  | signedUp absent hashed inserted =>
    obtain ⟨user,stored,key⟩ := Db.hasUser_iff.mp present
    rcases (Table.mem_insert inserted).mp stored with old | new
    · exact Or.inl (Db.hasUser_iff.mpr ⟨user,old,key⟩)
    · subst new
      exact Or.inr (congrArg some key)
  | edited edit =>
    rw [set_user_has fun r => (edit_keeps edit r).1] at present
    exact Or.inl present
  | @loggedIn draw userName password user row t checked inserted owner =>
    have same : (stamp w.now user w.db).hasUser u = w.db.hasUser u := set_user_has fun _ => rfl
    rw [← same]
    exact Or.inl present
  | loggedOut => exact Or.inl present
  | deleted =>
    left
    obtain ⟨user,stored,key⟩ := Db.hasUser_iff.mp present
    rw [(delete_current_user_users w.db _).1,Table.mem_delete] at stored
    exact Db.hasUser_iff.mpr ⟨user,stored.1,key⟩

theorem run_account_origin {w : World} {cs : List AccountCall} {u : Uuid}
    (present : (run (accountStep pf) w cs).db.hasUser u = true) :
    w.db.hasUser u = true ∨ u ∈ cs.filterMap signupId := by
  induction cs generalizing w with
  | nil => exact Or.inl present
  | cons c cs ih =>
    rcases ih present with here | later
    · rcases account_stays_or_new here with before | new
      · exact Or.inl before
      · exact Or.inr (by simp [new])
    · exact Or.inr (List.mem_filterMap.mpr (by
        obtain ⟨d,member,drawn⟩ := List.mem_filterMap.mp later
        exact ⟨d,List.mem_cons_of_mem _ member,drawn⟩))

theorem run_time (w : World) (cs : List AccountCall) :
    w.now ≤ (run (accountStep pf) w cs).now := by
  apply run_preserves (accountStep pf) (I := fun v => w.now ≤ v.now)
  · intro v c earlier
    apply Int.le_trans earlier
    cases c with
    | tick elapsed => exact Int.le_add_of_nonneg_right (Int.natCast_nonneg elapsed)
    | _ => exact Int.le_refl _
  · exact Int.le_refl _

end

end RainmakerServer.Accounts
