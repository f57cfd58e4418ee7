import RainmakerServer.Sessions

/-!
The two one-time codes of an account. A call leaves the codes of an account as
`confirmAfter` and `resetAfter` say; what a code is worth at a moment is then
read off the calls so far, which are searched for the last one that set it.
-/
namespace RainmakerServer.AccountCodes
open Tables Runs Accounts

def resetAfter (pf : Platform) (w : World) (user : User) : AccountCall → Option Text × Option Time
  | .requestPasswordReset draw userName =>
    if userName = user.userName then (some (generateCode draw),some (w.now + hours 1))
    else (user.resetCode,user.resetCodeExp)
  | .confirmPasswordReset salt userName code password =>
    if userName = user.userName ∧
        (confirmPasswordReset pf w.db w.now salt userName code password).2 = .ok () then (none,none)
    else (user.resetCode,user.resetCodeExp)
  | _ => (user.resetCode,user.resetCodeExp)

def confirmAfter (w : World) (user : User) : AccountCall → UserStatus × Option Text × Option Time
  | .confirmSignup userName code =>
    if userName = user.userName ∧ (confirmSignup w.db w.now userName code).2 = .ok user.id then
      (.confirmed,none,none)
    else (user.status,user.confirmCode,user.confirmCodeExp)
  | _ => (user.status,user.confirmCode,user.confirmCodeExp)

/-! One account over one call. -/

structure Follows (pf : Platform) (w : World) (c : AccountCall) (user new : User) : Prop where
  id : new.id = user.id
  named : new.userName = user.userName
  reset : (new.resetCode,new.resetCodeExp) = resetAfter pf w user c
  confirm : (new.status,new.confirmCode,new.confirmCodeExp) = confirmAfter w user c

section
variable {pf : Platform} {w : World} {c : AccountCall} {user : User}

theorem same_name_same_account {target : User} (stored : user ∈ w.db.users)
    (found : userByName w.db target.userName = some target) :
    (user.id == target.id) = true ↔ target.userName = user.userName := by
  have member := (user_by_name found).1
  constructor
  · intro same
    rw [beq_iff_eq] at same
    rw [Table.eq_of_conflict stored member (by simp [Schema.conflict, same])]
  · intro named
    rw [Table.eq_of_conflict stored member (by simp [Schema.conflict, named])]
    simp

theorem quiet_edit {f : User → User} {id : Uuid} {keep hold} (stored : user ∈ w.db.users)
    (quiet : f user = {f user with
      id := user.id, userName := user.userName, status := user.status
      confirmCode := user.confirmCode, confirmCodeExp := user.confirmCodeExp
      resetCode := user.resetCode, resetCodeExp := user.resetCodeExp})
    (reset : resetAfter pf w user c = (user.resetCode,user.resetCodeExp))
    (confirm : confirmAfter w user c = (user.status,user.confirmCode,user.confirmCodeExp)) :
    ∃ new ∈ (setUser w.db id f keep hold).users, Follows pf w c user new := by
  refine ⟨_,mem_set_user.mpr ⟨user,stored,rfl⟩,?_⟩
  split
  · rw [quiet]
    exact ⟨rfl,rfl,reset.symm,confirm.symm⟩
  · exact ⟨rfl,rfl,reset.symm,confirm.symm⟩

theorem quiet_step (stored : user ∈ w.db.users) (kept : c ≠ .deleteCurrentUser user.id)
    (unconfirming : ∀ n k, c ≠ .confirmSignup n k) (unasking : ∀ d n, c ≠ .requestPasswordReset d n)
    (unresetting : ∀ s n k p, c ≠ .confirmPasswordReset s n k p) :
    ∃ new ∈ (accountStep pf w c).db.users, Follows pf w c user new := by
  have reset : resetAfter pf w user c = (user.resetCode,user.resetCodeExp) := by
    cases c with
    | requestPasswordReset draw userName => exact absurd rfl (unasking draw userName)
    | confirmPasswordReset salt userName code password =>
      exact absurd rfl (unresetting salt userName code password)
    | _ => rfl
  have confirm : confirmAfter w user c = (user.status,user.confirmCode,user.confirmCodeExp) := by
    cases c with
    | confirmSignup userName code => exact absurd rfl (unconfirming userName code)
    | _ => rfl
  have same : Follows pf w c user user := ⟨rfl,rfl,reset.symm,confirm.symm⟩
  have effect := @serve_account_effect pf w.db w.now c
  unfold accountStep
  dsimp only
  generalize (serveAccount pf w.db w.now c).1 = after at effect ⊢
  cases effect with
  | kept => exact ⟨user,stored,same⟩
  | signedUp absent hashed inserted =>
    exact ⟨user,(Table.mem_insert inserted).mpr (Or.inl stored),same⟩
  | edited edit =>
    cases edit with
    | confirm found => exact absurd rfl (unconfirming _ _)
    | request found => exact absurd rfl (unasking _ _)
    | reset found => exact absurd rfl (unresetting _ _ _ _)
    | stamp checked => exact quiet_edit stored rfl reset confirm
    | change found => exact quiet_edit stored rfl reset confirm
    | customise found => exact quiet_edit stored rfl reset confirm
  | @loggedIn draw userName password holder row t checked inserted owner =>
    have rewritten : ∃ new ∈ (stamp w.now holder w.db).users,
        Follows pf w (.loginPassword draw userName password) user new :=
      quiet_edit stored rfl reset confirm
    exact rewritten
  | loggedOut => exact ⟨user,stored,same⟩
  | @deleted userId =>
    have apart : user.id ≠ userId := fun eq => kept (by rw [eq])
    refine ⟨user,?_,same⟩
    rw [(delete_current_user_users w.db userId).1,Table.mem_delete]
    exact ⟨stored,by simpa using apart⟩

theorem row_step (stored : user ∈ w.db.users) (kept : c ≠ .deleteCurrentUser user.id) :
    ∃ new ∈ (accountStep pf w c).db.users, Follows pf w c user new := by
  cases c with
  | confirmSignup userName code =>
    simp only [accountStep, serveAccount, Accounts.discard]
    rcases confirm_signup_cases w.db w.now userName code with
      ⟨target,found,-,eq⟩ | ⟨⟨e,eq⟩,-⟩
    · have named := (user_by_name found).2
      subst named
      have single := same_name_same_account stored found
      rw [eq]
      refine ⟨_,mem_set_user.mpr ⟨user,stored,rfl⟩,?_⟩
      by_cases own : target.userName = user.userName
      · have key := single.mpr own
        rw [if_pos key]
        rw [beq_iff_eq] at key
        have after : confirmAfter w user (.confirmSignup target.userName code) =
            (.confirmed,none,none) := if_pos ⟨own,by rw [eq,key]; rfl⟩
        exact ⟨rfl,rfl,rfl,after.symm⟩
      · rw [if_neg fun key => own (single.mp key)]
        refine ⟨rfl,rfl,rfl,?_⟩
        simp [confirmAfter, own]
    · rw [eq]
      refine ⟨user,stored,rfl,rfl,rfl,?_⟩
      simp [confirmAfter, eq, raise]
  | requestPasswordReset draw userName =>
    simp only [accountStep, serveAccount, Accounts.discard]
    rcases request_password_reset_cases w.db w.now (generateCode draw) userName with
      ⟨target,found,eq⟩ | ⟨absent,kept⟩
    · have named := (user_by_name found).2
      subst named
      have single := same_name_same_account stored found
      rw [eq]
      refine ⟨_,mem_set_user.mpr ⟨user,stored,rfl⟩,?_⟩
      by_cases own : target.userName = user.userName
      · rw [if_pos (single.mpr own)]
        refine ⟨rfl,rfl,?_,rfl⟩
        simp [resetAfter, own]
      · rw [if_neg fun key => own (single.mp key)]
        refine ⟨rfl,rfl,?_,rfl⟩
        simp [resetAfter, own]
    · have other : userName ≠ user.userName := by
        intro named
        rw [named,user_by_name_of_mem stored] at absent
        cases absent
      rw [kept]
      refine ⟨user,stored,rfl,rfl,?_,rfl⟩
      simp [resetAfter, other]
  | confirmPasswordReset salt userName code password =>
    simp only [accountStep, serveAccount]
    rcases confirm_password_reset_cases pf w.db w.now salt userName code password with
      ⟨target,found,-,-,eq⟩ | ⟨⟨e,eq⟩,-⟩
    · have named := (user_by_name found).2
      subst named
      have single := same_name_same_account stored found
      rw [eq]
      refine ⟨_,mem_set_user.mpr ⟨user,stored,rfl⟩,?_⟩
      by_cases own : target.userName = user.userName
      · rw [if_pos (single.mpr own)]
        have after : resetAfter pf w user
            (.confirmPasswordReset salt target.userName code password) = (none,none) :=
          if_pos ⟨own,by rw [eq]; rfl⟩
        exact ⟨rfl,rfl,after.symm,rfl⟩
      · rw [if_neg fun key => own (single.mp key)]
        refine ⟨rfl,rfl,?_,rfl⟩
        simp [resetAfter, own]
    · rw [eq]
      refine ⟨user,stored,rfl,rfl,?_,rfl⟩
      simp [resetAfter, eq, raise]
  | _ => exact quiet_step stored kept (by simp) (by simp) (by simp)

theorem stored_code (draw : Fin 1000000) : cut 16 (generateCode draw) = generateCode draw := by
  have digits : (decimal draw.val).length ≤ 6 :=
    (Nat.length_toDigits_le_iff (by decide) (by decide)).mpr draw.isLt
  have padded : (generateCode draw).length = 6 := by
    simp only [generateCode, List.length_append, List.length_replicate]
    omega
  exact List.take_of_length_le (by omega)

theorem row_back {new : User} (stored : new ∈ (accountStep pf w c).db.users) :
    (∃ user ∈ w.db.users, c ≠ .deleteCurrentUser user.id ∧ Follows pf w c user new) ∨
      (w.db.hasUser new.id = false ∧
        ∃ salt draw name password, c = .signup new.id salt draw name password ∧
          cut 254 name = new.userName ∧ (serveAccount pf w.db w.now c).2 = .ok () ∧ new.status = .unconfirmed ∧
          new.confirmCode = some (generateCode draw) ∧
          new.confirmCodeExp = some (w.now + hours 24) ∧ new.resetCode = none ∧
          new.resetCodeExp = none) := by
  have present : (accountStep pf w c).db.hasUser new.id = true :=
    Db.hasUser_iff.mpr ⟨new,stored,rfl⟩
  cases before : w.db.hasUser new.id with
  | true =>
    left
    obtain ⟨user,member,key⟩ := Db.hasUser_iff.mp before
    have kept : c ≠ .deleteCurrentUser user.id := by
      intro deleted
      subst deleted
      simp only [accountStep, serveAccount, done] at stored
      rw [(delete_current_user_users w.db user.id).1,Table.mem_delete] at stored
      simp [key] at stored
    obtain ⟨after,there,follows⟩ := row_step member kept
    have same : after = new := Table.eq_of_conflict there stored
      (by simp [Schema.conflict, follows.id, key])
    subst same
    exact ⟨user,member,kept,follows⟩
  | false =>
    right
    have drawn : signupId c = some new.id := by
      rcases account_stays_or_new present with earlier | drawn
      · rw [before] at earlier
        cases earlier
      · exact drawn
    cases c with
    | signup id salt draw userName password =>
      have id_eq : id = new.id := Option.some.inj drawn
      subst id_eq
      simp only [accountStep, serveAccount, Accounts.discard] at stored
      rcases signup_cases pf w.db w.now new.id salt (generateCode draw) userName password with
        ⟨t,-,-,inserted,eq⟩ | ⟨e,eq⟩
      · rw [eq] at stored
        rcases (Table.mem_insert inserted).mp stored with old | fresh
        · rw [Db.hasUser_iff.mpr ⟨new,old,rfl⟩] at before
          cases before
        · have named : cut 254 userName = new.userName := by rw [fresh]; rfl
          refine ⟨rfl,salt,draw,userName,password,rfl,named,?_,?_⟩
          · simp only [serveAccount, Accounts.discard, eq]
            rfl
          · rw [fresh]
            exact ⟨rfl,congrArg some (stored_code draw),rfl,rfl,rfl⟩
      · rw [eq] at stored
        have old : new ∈ w.db.users := stored
        rw [Db.hasUser_iff.mpr ⟨new,old,rfl⟩] at before
        cases before
    | _ => cases drawn

end

/-! The calls so far. -/

/-- The signup that created the account, with its code and the code's expiry. -/
def SignedUpWith (pf : Platform) (id : Uuid) (userName code : Text) (exp : Time) (v : World)
    (c : AccountCall) : Prop :=
  ∃ salt draw name password, c = .signup id salt draw name password ∧ cut 254 name = userName ∧
    (serveAccount pf v.db v.now c).2 = .ok () ∧ code = generateCode draw ∧ exp = v.now + hours 24

def Deleted (id : Uuid) (_ : World) (c : AccountCall) : Prop := c = .deleteCurrentUser id

def RequestedWith (id : Uuid) (userName code : Text) (exp : Time) (v : World) (c : AccountCall) :
    Prop :=
  ∃ draw, c = .requestPasswordReset draw userName ∧
    (∃ user ∈ v.db.users, user.id = id ∧ user.userName = userName) ∧
    code = generateCode draw ∧ exp = v.now + hours 1

def Voided (pf : Platform) (id : Uuid) (userName : Text) (v : World) (c : AccountCall) : Prop :=
  c = .deleteCurrentUser id ∨ (∃ draw, c = .requestPasswordReset draw userName) ∨
    ∃ salt code password, c = .confirmPasswordReset salt userName code password ∧
      (serveAccount pf v.db v.now c).2 = .ok ()

structure CodeState (pf : Platform) (w : World) (cs : List AccountCall) (user : User) : Prop where
  unconfirmed : user.confirmCode ≠ none ↔ user.status = .unconfirmed
  confirmExp : user.confirmCodeExp ≠ none ↔ user.confirmCode ≠ none
  resetExp : user.resetCodeExp ≠ none ↔ user.resetCode ≠ none
  confirm : ∀ code exp, user.confirmCode = some code ∧ user.confirmCodeExp = some exp ↔
    user.status = .unconfirmed ∧ Since (accountStep pf)
      (SignedUpWith pf user.id user.userName code exp) (Deleted user.id) w cs
  reset : ∀ code exp, user.resetCode = some code ∧ user.resetCodeExp = some exp ↔
    Since (accountStep pf) (RequestedWith user.id user.userName code exp)
      (Voided pf user.id user.userName) w cs

section
variable {pf : Platform} {w v : World} {cs : List AccountCall} {c : AccountCall} {user : User}

theorem since_present {Q P : World → AccountCall → Prop} {id : Uuid} {userName : Text}
    (sets : ∀ v c, Q v c →
      ∃ user ∈ (accountStep pf v c).db.users, user.id = id ∧ user.userName = userName)
    (ends : ∀ v, P v (.deleteCurrentUser id)) (since : Since (accountStep pf) Q P w cs) :
    ∃ user ∈ (run (accountStep pf) w cs).db.users, user.id = id ∧ user.userName = userName := by
  induction cs using List.reverseRecOn with
  | nil => exact absurd since (since_nil (accountStep pf))
  | append_singleton cs c ih =>
    rw [run_append]
    rcases (since_snoc (accountStep pf)).mp since with here | ⟨earlier,still⟩
    · exact sets _ _ here
    · obtain ⟨user,stored,key,named⟩ := ih earlier
      have kept : c ≠ .deleteCurrentUser user.id := by
        intro deleted
        apply still
        rw [deleted,key]
        exact ends _
      obtain ⟨new,there,follows⟩ := row_step stored kept
      exact ⟨new,there,follows.id.trans key,follows.named.trans named⟩

theorem signup_sets {id : Uuid} {userName code : Text} {exp : Time}
    (signed : SignedUpWith pf id userName code exp v c) :
    v.db.hasUser id = false ∧
      ∃ user ∈ (accountStep pf v c).db.users, user.id = id ∧ user.userName = userName := by
  obtain ⟨salt,draw,name,password,call,named,ok,-⟩ := signed
  subst call
  simp only [serveAccount, Accounts.discard] at ok
  simp only [accountStep, serveAccount, Accounts.discard]
  rcases signup_cases pf v.db v.now id salt (generateCode draw) name password with
    ⟨t,absent,-,inserted,eq⟩ | ⟨e,eq⟩
  · constructor
    · by_contra present
      rw [Bool.not_eq_false] at present
      obtain ⟨user,stored,key⟩ := Db.hasUser_iff.mp present
      have free := (Table.insert_ok inserted).2.2 user stored
      simp [Schema.conflict, Schema.stored, key] at free
    · rw [eq]
      exact ⟨_,(Table.mem_insert inserted).mpr (Or.inr rfl),rfl,named⟩
  · rw [eq] at ok
    cases ok

theorem request_sets {id : Uuid} {userName code : Text} {exp : Time}
    (requested : RequestedWith id userName code exp v c) :
    ∃ user ∈ (accountStep pf v c).db.users, user.id = id ∧ user.userName = userName := by
  obtain ⟨draw,call,⟨user,stored,key,named⟩,-⟩ := requested
  subst call
  obtain ⟨new,there,follows⟩ := @row_step pf v (.requestPasswordReset draw userName) user stored
    (by simp)
  exact ⟨new,there,follows.id.trans key,follows.named.trans named⟩

theorem confirm_after_cases (v : World) (user : User) (c : AccountCall) :
    confirmAfter v user c = (.confirmed,none,none) ∨
      confirmAfter v user c = (user.status,user.confirmCode,user.confirmCodeExp) := by
  cases c with
  | confirmSignup userName code =>
    unfold confirmAfter
    dsimp only
    split
    · exact Or.inl rfl
    · exact Or.inr rfl
  | _ => exact Or.inr rfl

theorem reset_after_cases (pf : Platform) (v : World) (kept : c ≠ .deleteCurrentUser user.id) :
    (∃ draw, c = .requestPasswordReset draw user.userName ∧
      resetAfter pf v user c = (some (generateCode draw),some (v.now + hours 1))) ∨
    ((∃ salt code password, c = .confirmPasswordReset salt user.userName code password ∧
      (serveAccount pf v.db v.now c).2 = .ok ()) ∧ resetAfter pf v user c = (none,none)) ∨
    (¬ Voided pf user.id user.userName v c ∧
      resetAfter pf v user c = (user.resetCode,user.resetCodeExp)) := by
  cases c with
  | requestPasswordReset draw userName =>
    by_cases own : userName = user.userName
    · exact Or.inl ⟨draw,by rw [own],by simp [resetAfter, own]⟩
    · right
      right
      simp [Voided, resetAfter, own]
  | confirmPasswordReset salt userName code password =>
    by_cases own : userName = user.userName ∧
        (confirmPasswordReset pf v.db v.now salt userName code password).2 = .ok ()
    · exact Or.inr (Or.inl ⟨⟨salt,code,password,by rw [own.1],own.2⟩,if_pos own⟩)
    · refine Or.inr (Or.inr ⟨?_,if_neg own⟩)
      intro voided
      rcases voided with deleted | ⟨draw,request⟩ | ⟨salt',code',password',call,ok⟩
      · cases deleted
      · cases request
      · cases call
        exact own ⟨rfl,ok⟩
  | deleteCurrentUser id =>
    right
    right
    refine ⟨?_,rfl⟩
    intro voided
    rcases voided with deleted | ⟨draw,request⟩ | ⟨salt,code,password,call,ok⟩
    · exact kept deleted
    · cases request
    · cases call
  | _ => exact Or.inr (Or.inr ⟨by simp [Voided],rfl⟩)

theorem signup_since_snoc {code : Text} {exp : Time}
    (stored : user ∈ (run (accountStep pf) w cs).db.users)
    (kept : c ≠ .deleteCurrentUser user.id) :
    Since (accountStep pf) (SignedUpWith pf user.id user.userName code exp) (Deleted user.id) w
        (cs ++ [c]) ↔
      Since (accountStep pf) (SignedUpWith pf user.id user.userName code exp) (Deleted user.id) w
        cs := by
  rw [since_snoc]
  constructor
  · intro either
    rcases either with here | earlier
    · have absent := (signup_sets here).1
      rw [Db.hasUser_iff.mpr ⟨user,stored,rfl⟩] at absent
      cases absent
    · exact earlier.1
  · intro earlier
    exact Or.inr ⟨earlier,kept⟩

theorem confirm_state_kept {new : User} (state : CodeState pf w cs user)
    (stored : user ∈ (run (accountStep pf) w cs).db.users)
    (kept : c ≠ .deleteCurrentUser user.id)
    (follows : Follows pf (run (accountStep pf) w cs) c user new) :
    (new.confirmCode ≠ none ↔ new.status = .unconfirmed) ∧
    (new.confirmCodeExp ≠ none ↔ new.confirmCode ≠ none) ∧
    ∀ code exp, new.confirmCode = some code ∧ new.confirmCodeExp = some exp ↔
      new.status = .unconfirmed ∧ Since (accountStep pf)
        (SignedUpWith pf new.id new.userName code exp) (Deleted new.id) w (cs ++ [c]) := by
  obtain ⟨key,named,-,confirm⟩ := follows
  rcases confirm_after_cases (run (accountStep pf) w cs) user c with done | same
  · rw [done] at confirm
    simp only [Prod.mk.injEq] at confirm
    obtain ⟨status,stored,exp⟩ := confirm
    simp [status, stored, exp]
  · rw [same] at confirm
    simp only [Prod.mk.injEq] at confirm
    obtain ⟨status,code,exp⟩ := confirm
    rw [status,code,exp,key,named]
    refine ⟨state.unconfirmed,state.confirmExp,?_⟩
    intro text moment
    rw [signup_since_snoc stored kept]
    exact state.confirm text moment

theorem reset_state_kept {new : User} (state : CodeState pf w cs user)
    (stored : user ∈ (run (accountStep pf) w cs).db.users)
    (kept : c ≠ .deleteCurrentUser user.id)
    (follows : Follows pf (run (accountStep pf) w cs) c user new) :
    (new.resetCodeExp ≠ none ↔ new.resetCode ≠ none) ∧
    ∀ code exp, new.resetCode = some code ∧ new.resetCodeExp = some exp ↔
      Since (accountStep pf) (RequestedWith new.id new.userName code exp)
        (Voided pf new.id new.userName) w (cs ++ [c]) := by
  obtain ⟨key,named,reset,-⟩ := follows
  rw [key,named]
  rcases reset_after_cases pf (run (accountStep pf) w cs) kept with
    ⟨draw,call,after⟩ | ⟨⟨salt,text,password,call,ok⟩,after⟩ | ⟨valid,after⟩
  · rw [after] at reset
    simp only [Prod.mk.injEq] at reset
    obtain ⟨code,exp⟩ := reset
    rw [code,exp]
    refine ⟨by simp,?_⟩
    intro text moment
    rw [since_snoc]
    constructor
    · intro same
      simp only [Option.some.injEq] at same
      exact Or.inl ⟨draw,call,⟨user,stored,rfl,rfl⟩,same.1.symm,same.2.symm⟩
    · intro either
      rcases either with ⟨drawn,call',-,text',moment'⟩ | ⟨-,still⟩
      · rw [call] at call'
        cases call'
        simp [text', moment']
      · exact absurd (Or.inr (Or.inl ⟨draw,call⟩)) still
  · rw [after] at reset
    simp only [Prod.mk.injEq] at reset
    obtain ⟨code,exp⟩ := reset
    rw [code,exp]
    refine ⟨by simp,?_⟩
    intro text' moment
    rw [since_snoc]
    constructor
    · intro same
      cases same.1
    · intro either
      rcases either with ⟨drawn,call',-⟩ | ⟨-,still⟩
      · rw [call] at call'
        cases call'
      · exact absurd (Or.inr (Or.inr ⟨salt,text,password,call,ok⟩)) still
  · rw [after] at reset
    simp only [Prod.mk.injEq] at reset
    obtain ⟨code,exp⟩ := reset
    rw [code,exp]
    refine ⟨state.resetExp,?_⟩
    intro text moment
    rw [since_snoc,state.reset]
    constructor
    · intro earlier
      exact Or.inr ⟨earlier,valid⟩
    · intro either
      rcases either with ⟨drawn,call,-⟩ | earlier
      · exact absurd (Or.inr (Or.inl ⟨drawn,call⟩)) valid
      · exact earlier.1

theorem code_state_kept {new : User} (state : CodeState pf w cs user)
    (stored : user ∈ (run (accountStep pf) w cs).db.users)
    (kept : c ≠ .deleteCurrentUser user.id)
    (follows : Follows pf (run (accountStep pf) w cs) c user new) :
    CodeState pf w (cs ++ [c]) new := by
  have confirmation := confirm_state_kept state stored kept follows
  have resetting := reset_state_kept state stored kept follows
  exact ⟨confirmation.1,confirmation.2.1,resetting.1,confirmation.2.2,resetting.2⟩

theorem code_state_signed_up {new : User} {salt name password : Text} {draw : Fin 1000000}
    (absent : (run (accountStep pf) w cs).db.hasUser new.id = false)
    (call : c = .signup new.id salt draw name password) (named : cut 254 name = new.userName)
    (ok : (serveAccount pf (run (accountStep pf) w cs).db (run (accountStep pf) w cs).now c).2 =
      .ok ())
    (status : new.status = .unconfirmed) (code : new.confirmCode = some (generateCode draw))
    (exp : new.confirmCodeExp = some ((run (accountStep pf) w cs).now + hours 24))
    (uncoded : new.resetCode = none) (never : new.resetCodeExp = none) :
    CodeState pf w (cs ++ [c]) new := by
  -- nothing was set on this key before, or the account would be there
  have unset : ∀ Q P, (∀ v d, Q v d → ∃ user ∈ (accountStep pf v d).db.users,
      user.id = new.id ∧ user.userName = new.userName) → (∀ v, P v (.deleteCurrentUser new.id)) →
      ¬ Since (accountStep pf) Q P w cs := by
    intro Q P sets ends since
    obtain ⟨user,stored,key,-⟩ := since_present sets ends since
    rw [Db.hasUser_iff.mpr ⟨user,stored,key⟩] at absent
    cases absent
  have unsigned : ∀ text moment, ¬ Since (accountStep pf)
      (SignedUpWith pf new.id new.userName text moment) (Deleted new.id) w cs := fun text moment =>
    unset _ _ (fun _ _ signed => (signup_sets signed).2) fun _ => rfl
  have unasked : ∀ text moment, ¬ Since (accountStep pf)
      (RequestedWith new.id new.userName text moment) (Voided pf new.id new.userName) w cs :=
    fun text moment => unset _ _ (fun _ _ asked => request_sets asked) fun _ => Or.inl rfl
  refine ⟨by simp [code, status],by simp [code, exp],by simp [uncoded, never],?_,?_⟩
  · intro text moment
    rw [since_snoc,code,exp]
    simp only [status, unsigned, true_and, false_and, or_false]
    constructor
    · intro same
      simp only [Option.some.injEq] at same
      exact ⟨salt,draw,name,password,call,named,ok,same.1.symm,same.2.symm⟩
    · intro signed
      obtain ⟨salt',draw',name',password',call',-,-,text',moment'⟩ := signed
      rw [call] at call'
      cases call'
      simp [text', moment']
  · intro text moment
    rw [since_snoc,uncoded]
    simp only [unasked, false_and, or_false]
    constructor
    · intro same
      cases same.1
    · intro asked
      obtain ⟨drawn,call',-⟩ := asked
      rw [call] at call'
      cases call'

theorem code_states (start : w.db.users.rows = []) (cs : List AccountCall) :
    ∀ user ∈ (run (accountStep pf) w cs).db.users, CodeState pf w cs user := by
  induction cs using List.reverseRecOn with
  | nil =>
    intro user stored
    rw [Table.mem_def] at stored
    have none : user ∈ w.db.users.rows := stored
    rw [start] at none
    cases none
  | append_singleton cs c ih =>
    intro new stored
    rw [run_append] at stored
    rcases row_back stored with ⟨user,member,kept,follows⟩ |
      ⟨absent,salt,draw,name,password,call,named,ok,status,code,exp,uncoded,never⟩
    · exact code_state_kept (ih user member) member kept follows
    · exact code_state_signed_up absent call named ok status code exp uncoded never

end

/-! What a code is worth. -/

theorem generate_code_ascii (draw : Fin 1000000) : ∀ c ∈ generateCode draw, c.val < 128 := by
  intro c member
  unfold generateCode at member
  rcases List.mem_append.mp member with padding | digit
  · rw [List.eq_of_mem_replicate padding]
    decide
  · have numeral : c.isDigit = true := Nat.isDigit_of_mem_toDigits (by decide) (by decide) digit
    simp only [Char.isDigit, Bool.and_eq_true, decide_eq_true_eq] at numeral
    have high : c.val.toNat ≤ 57 := numeral.2
    have goal : c.val.toNat < 128 := by omega
    exact goal

theorem passes_iff {stored : Option Text} {exp : Option Time} {now : Time} {code : Text}
    (generated : ∀ text, stored = some text → exp ≠ none → ∃ draw, text = generateCode draw) :
    Passes stored exp now code ↔
      ∃ until', (stored = some code ∧ exp = some until') ∧ now ≤ until' := by
  constructor
  · intro passes
    obtain ⟨text,until',held,limit,valid,same⟩ := passes
    rw [compare_digest_true same] at held
    exact ⟨until',⟨held,limit⟩,valid⟩
  · intro worth
    obtain ⟨until',⟨held,limit⟩,valid⟩ := worth
    obtain ⟨draw,eq⟩ := generated code held (by simp [limit])
    refine ⟨code,until',held,limit,valid,(compare_digest_iff ?_).mpr rfl⟩
    rw [eq]
    exact generate_code_ascii draw

section
variable {pf : Platform} {w : World} {cs : List AccountCall} {user : User}

theorem confirm_code_worth (state : CodeState pf w cs user) {now : Time} {code : Text} :
    Passes user.confirmCode user.confirmCodeExp now code ↔
      user.status = .unconfirmed ∧ ∃ exp, Since (accountStep pf)
        (SignedUpWith pf user.id user.userName code exp) (Deleted user.id) w cs ∧ now ≤ exp := by
  rw [passes_iff]
  · constructor
    · intro worth
      obtain ⟨exp,held,valid⟩ := worth
      obtain ⟨status,since⟩ := (state.confirm code exp).mp held
      exact ⟨status,exp,since,valid⟩
    · intro worth
      obtain ⟨status,exp,since,valid⟩ := worth
      exact ⟨exp,(state.confirm code exp).mpr ⟨status,since⟩,valid⟩
  · intro text held limited
    obtain ⟨exp,limit⟩ := Option.ne_none_iff_exists'.mp limited
    obtain ⟨-,pre,call,post,-,⟨salt,draw,name,password,-,-,-,eq,-⟩,-⟩ :=
      (state.confirm text exp).mp ⟨held,limit⟩
    exact ⟨draw,eq⟩

theorem reset_code_worth (state : CodeState pf w cs user) {now : Time} {code : Text} :
    Passes user.resetCode user.resetCodeExp now code ↔
      ∃ exp, Since (accountStep pf) (RequestedWith user.id user.userName code exp)
        (Voided pf user.id user.userName) w cs ∧ now ≤ exp := by
  rw [passes_iff]
  · constructor
    · intro worth
      obtain ⟨exp,held,valid⟩ := worth
      exact ⟨exp,(state.reset code exp).mp held,valid⟩
    · intro worth
      obtain ⟨exp,since,valid⟩ := worth
      exact ⟨exp,(state.reset code exp).mpr since,valid⟩
  · intro text held limited
    obtain ⟨exp,limit⟩ := Option.ne_none_iff_exists'.mp limited
    obtain ⟨pre,call,post,-,⟨draw,-,-,eq,-⟩,-⟩ := (state.reset text exp).mp ⟨held,limit⟩
    exact ⟨draw,eq⟩

end

/-- A login that is admitted reads its own refresh token back and can store
    its row: the token id and the row key are fresh. -/
def Mintable (pf : Platform) (v : World) : AccountCall → Prop
  | .loginPassword draw userName password =>
    Sessions.FreshDraw v (.loginPassword draw userName password) ∧
      ∀ user, admitted pf v.db userName password = .ok user →
        decodeToken pf v.now (pf.jwtEncode (Sessions.refreshClaims pf v.now draw.refreshJti user))
          .refresh = .ok (Sessions.refreshClaims pf v.now draw.refreshJti user)
  | _ => True

theorem failed_call_keeps_users {pf : Platform} {v : World} {c : AccountCall} {e : Exc}
    (mintable : Mintable pf v c) (failed : (serveAccount pf v.db v.now c).2 = .error e) :
    (accountStep pf v c).db.users = v.db.users := by
  unfold accountStep
  dsimp only
  cases c with
  | signup id salt draw userName password =>
    simp only [serveAccount, Accounts.discard] at failed ⊢
    rcases signup_cases pf v.db v.now id salt (generateCode draw) userName password with
      ⟨t,-,-,-,eq⟩ | ⟨f,eq⟩
    · rw [eq] at failed
      cases failed
    · rw [eq]
      rfl
  | confirmSignup userName code =>
    simp only [serveAccount, Accounts.discard] at failed ⊢
    rcases confirm_signup_cases v.db v.now userName code with ⟨user,-,-,eq⟩ | ⟨⟨f,eq⟩,-⟩
    · rw [eq] at failed
      cases failed
    · rw [eq]
      rfl
  | loginPassword draw userName password =>
    simp only [serveAccount, Accounts.discard] at failed ⊢
    cases checked : admitted pf v.db userName password with
    | error f =>
      rw [login_password_eq,checked]
      rfl
    | ok user =>
      obtain ⟨t,-,eq⟩ := Sessions.login_succeeds checked (mintable.2 user checked) mintable.1
      rw [eq] at failed
      cases failed
  | changePassword userId salt current new =>
    simp only [serveAccount] at failed ⊢
    cases found : userById v.db userId with
    | none => rfl
    | some user =>
      rw [found] at failed
      dsimp only at failed ⊢
      rcases change_password_cases pf v.db salt user current new with ⟨f,eq⟩ | eq
      · rw [eq]
        rfl
      · rw [eq] at failed
        cases failed
  | confirmPasswordReset salt userName code password =>
    simp only [serveAccount] at failed ⊢
    rcases confirm_password_reset_cases pf v.db v.now salt userName code password with
      ⟨user,-,-,-,eq⟩ | ⟨⟨f,eq⟩,-⟩
    · rw [eq] at failed
      cases failed
    · rw [eq]
      rfl
  | requestPasswordReset draw userName =>
    simp only [serveAccount, Accounts.discard] at failed ⊢
    rcases request_password_reset_cases v.db v.now (generateCode draw) userName with
      ⟨user,-,eq⟩ | ⟨-,kept⟩
    · rw [eq] at failed
      cases failed
    · rw [kept]
  | putCustomData userId payload =>
    simp only [serveAccount] at failed ⊢
    cases found : userById v.db userId with
    | none => rfl
    | some user =>
      rw [found] at failed
      dsimp only at failed ⊢
      rcases put_custom_data_cases v.db user payload with kept | eq
      · rw [kept]
      · rw [eq] at failed
        cases failed
  | loginRefresh accessJti idJti token => rfl
  | tick elapsed => rfl
  | logout userId => cases failed
  | deleteCurrentUser userId => cases failed

/-- The name has an account, the code is the one of the newest reset request for
    it that no reset has consumed, and it has not expired. -/
def ResetWorth (pf : Platform) (now : Time) (cs : List AccountCall) (userName code : Text) : Prop :=
  ∃ user ∈ (run (accountStep pf) ⟨Db.empty,now⟩ cs).db.users, user.userName = userName ∧
    ∃ exp, Since (accountStep pf) (RequestedWith user.id userName code exp)
      (Voided pf user.id userName) ⟨Db.empty,now⟩ cs ∧
      (run (accountStep pf) ⟨Db.empty,now⟩ cs).now ≤ exp

theorem reset_succeeds_iff (pf : Platform) (now : Time) (cs : List AccountCall)
    (salt userName code password : Text) :
    (confirmPasswordReset pf (run (accountStep pf) ⟨Db.empty,now⟩ cs).db
        (run (accountStep pf) ⟨Db.empty,now⟩ cs).now salt userName code password).2 = .ok () ↔
      ResetWorth pf now cs userName code ∧ hashable password = true := by
  have states := @code_states pf ⟨Db.empty,now⟩ rfl cs
  unfold ResetWorth
  generalize run (accountStep pf) ⟨Db.empty,now⟩ cs = v at states ⊢
  rcases confirm_password_reset_cases pf v.db v.now salt userName code password with
    ⟨user,found,passes,hashed,eq⟩ | ⟨⟨e,eq⟩,refused⟩
  · obtain ⟨stored,named⟩ := user_by_name found
    have worth := (reset_code_worth (states user stored)).mp passes
    rw [named] at worth
    exact iff_of_true (by rw [eq]; rfl) ⟨⟨user,stored,named,worth⟩,hashed⟩
  · refine iff_of_false ?_ ?_
    · intro ok
      rw [eq] at ok
      cases ok
    · rintro ⟨⟨user,stored,named,worth⟩,hashed⟩
      subst named
      exact refused user (user_by_name_of_mem stored)
        ⟨(reset_code_worth (states user stored)).mpr worth,hashed⟩

/-- The codes of an account over every run: what each is worth, that a failed
    call changes no account, and which codes an account has. Whether a reset
    succeeds is decided by the code alone unless the new password cannot be hashed. -/
theorem one_time_codes (pf : Platform) (now : Time) (cs : List AccountCall) :
    (∀ userName code, (∃ id, (confirmSignup (run (accountStep pf) ⟨Db.empty,now⟩ cs).db
        (run (accountStep pf) ⟨Db.empty,now⟩ cs).now userName code).2 = .ok id) ↔
      ∃ user ∈ (run (accountStep pf) ⟨Db.empty,now⟩ cs).db.users, user.userName = userName ∧
        user.status = .unconfirmed ∧ ∃ exp, Since (accountStep pf)
          (SignedUpWith pf user.id userName code exp) (Deleted user.id) ⟨Db.empty,now⟩ cs ∧
          (run (accountStep pf) ⟨Db.empty,now⟩ cs).now ≤ exp) ∧
    (∀ salt userName code password,
      ((confirmPasswordReset pf (run (accountStep pf) ⟨Db.empty,now⟩ cs).db
          (run (accountStep pf) ⟨Db.empty,now⟩ cs).now salt userName code password).2 = .ok () ↔
        ResetWorth pf now cs userName code) ↔
      (ResetWorth pf now cs userName code → hashable password = true)) ∧
    (∀ c e, Mintable pf (run (accountStep pf) ⟨Db.empty,now⟩ cs) c →
      (serveAccount pf (run (accountStep pf) ⟨Db.empty,now⟩ cs).db
        (run (accountStep pf) ⟨Db.empty,now⟩ cs).now c).2 = .error e →
      (accountStep pf (run (accountStep pf) ⟨Db.empty,now⟩ cs) c).db.users =
        (run (accountStep pf) ⟨Db.empty,now⟩ cs).db.users) ∧
    ∀ user ∈ (run (accountStep pf) ⟨Db.empty,now⟩ cs).db.users,
      (user.confirmCode ≠ none ↔ user.status = .unconfirmed) ∧
      (user.confirmCodeExp ≠ none ↔ user.confirmCode ≠ none) ∧
      (user.resetCodeExp ≠ none ↔ user.resetCode ≠ none) := by
  have states := @code_states pf ⟨Db.empty,now⟩ rfl cs
  have resets := reset_succeeds_iff pf now cs
  generalize run (accountStep pf) ⟨Db.empty,now⟩ cs = v at states resets ⊢
  refine ⟨?_,?_,fun c e => failed_call_keeps_users,?_⟩
  · intro userName code
    rcases confirm_signup_cases v.db v.now userName code with
      ⟨user,found,passes,eq⟩ | ⟨⟨e,eq⟩,refused⟩
    · obtain ⟨stored,named⟩ := user_by_name found
      have worth := (confirm_code_worth (states user stored)).mp passes
      rw [named] at worth
      exact iff_of_true ⟨user.id,by rw [eq]; rfl⟩ ⟨user,stored,named,worth⟩
    · refine iff_of_false ?_ ?_
      · intro succeeded
        obtain ⟨id,ok⟩ := succeeded
        rw [eq] at ok
        cases ok
      · intro worth
        obtain ⟨user,stored,named,worth⟩ := worth
        subst named
        exact refused user (user_by_name_of_mem stored)
          ((confirm_code_worth (states user stored)).mpr worth)
  · intro salt userName code password
    rw [resets]
    exact ⟨fun same worth => (same.mpr worth).2,
      fun fine => ⟨fun both => both.1,fun worth => ⟨worth,fine worth⟩⟩⟩
  · intro user stored
    have state := states user stored
    exact ⟨state.unconfirmed,state.confirmExp,state.resetExp⟩

def forgotten : List AccountCall :=
  Sessions.session.take 2 ++ [.requestPasswordReset (Fin.last 999999) Sessions.ana]

/-- The right code in time is worth nothing with a NUL in the new password: the
    reset ends in a `ValueError` where any other password passes. -/
theorem null_password_raises :
    ResetWorth Sessions.platform 1700000000000000 forgotten Sessions.ana "999999" ∧
    (confirmPasswordReset Sessions.platform
      (run (accountStep Sessions.platform) ⟨Db.empty,1700000000000000⟩ forgotten).db
      (run (accountStep Sessions.platform) ⟨Db.empty,1700000000000000⟩ forgotten).now Sessions.salt
      Sessions.ana "999999" "new\x00password").2 = .error .valueError ∧
    (confirmPasswordReset Sessions.platform
      (run (accountStep Sessions.platform) ⟨Db.empty,1700000000000000⟩ forgotten).db
      (run (accountStep Sessions.platform) ⟨Db.empty,1700000000000000⟩ forgotten).now Sessions.salt
      Sessions.ana "999999" "new password").2 = .ok () ∧
    ¬ ((confirmPasswordReset Sessions.platform
      (run (accountStep Sessions.platform) ⟨Db.empty,1700000000000000⟩ forgotten).db
      (run (accountStep Sessions.platform) ⟨Db.empty,1700000000000000⟩ forgotten).now Sessions.salt
      Sessions.ana "999999" "new\x00password").2 = .ok () ↔
        ResetWorth Sessions.platform 1700000000000000 forgotten Sessions.ana "999999") := by
  have passed : (confirmPasswordReset Sessions.platform
      (run (accountStep Sessions.platform) ⟨Db.empty,1700000000000000⟩ forgotten).db
      (run (accountStep Sessions.platform) ⟨Db.empty,1700000000000000⟩ forgotten).now Sessions.salt
      Sessions.ana "999999" "new password").2 = .ok () := by decide +kernel
  have worth : ResetWorth Sessions.platform 1700000000000000 forgotten Sessions.ana "999999" :=
    ((reset_succeeds_iff _ _ _ _ _ _ _).mp passed).1
  have raised : (confirmPasswordReset Sessions.platform
      (run (accountStep Sessions.platform) ⟨Db.empty,1700000000000000⟩ forgotten).db
      (run (accountStep Sessions.platform) ⟨Db.empty,1700000000000000⟩ forgotten).now Sessions.salt
      Sessions.ana "999999" "new\x00password").2 = .error .valueError := by decide +kernel
  refine ⟨worth,raised,passed,?_⟩
  intro same
  have ok := same.mpr worth
  rw [raised] at ok
  cases ok
theorem session_codes :
    (∃ id, (confirmSignup (run (accountStep Sessions.platform) Sessions.opening
        (Sessions.session.take 1)).db 1700000000000000 Sessions.ana "271828").2 = .ok id) ∧
    (accountStep Sessions.platform (run (accountStep Sessions.platform) Sessions.opening
        (Sessions.session.take 2))
        (.loginPassword Sessions.drawn Sessions.ana Sessions.salt)).db.users =
      (run (accountStep Sessions.platform) Sessions.opening (Sessions.session.take 2)).db.users := by
  constructor
  · apply ((one_time_codes Sessions.platform 1700000000000000 (Sessions.session.take 1)).1
      Sessions.ana "271828").mpr
    obtain ⟨user,found,eq⟩ := Option.map_eq_some_iff.mp (show (userByName
      (run (accountStep Sessions.platform) Sessions.opening (Sessions.session.take 1)).db
      Sessions.ana).map (fun u => (u.id,u.status)) = some (Sessions.anaId,.unconfirmed) by
        decide +kernel)
    simp only [Prod.mk.injEq] at eq
    obtain ⟨stored,named⟩ := user_by_name found
    refine ⟨user,stored,named,eq.2,1700086400000000,?_,by decide +kernel⟩
    rw [eq.1]
    refine ⟨[],_,[],rfl,⟨_,_,_,_,rfl,by decide +kernel,by decide +kernel,by decide +kernel,
      by decide +kernel⟩,?_⟩
    simp [Occurred]
  · have refused : (serveAccount Sessions.platform (run (accountStep Sessions.platform)
        Sessions.opening (Sessions.session.take 2)).db 1700000000000000
        (.loginPassword Sessions.drawn Sessions.ana Sessions.salt)).2 =
        .error (unauthorized "Invalid credentials") := by decide +kernel
    have rejected : (admitted Sessions.platform (run (accountStep Sessions.platform)
        Sessions.opening (Sessions.session.take 2)).db Sessions.ana Sessions.salt).toOption.isSome =
        false := by decide +kernel
    have mintable : Mintable Sessions.platform (run (accountStep Sessions.platform)
        Sessions.opening (Sessions.session.take 2))
        (.loginPassword Sessions.drawn Sessions.ana Sessions.salt) := by
      refine ⟨Sessions.session_draws.2.2.1,?_⟩
      intro user ok
      rw [ok] at rejected
      cases rejected
    exact (one_time_codes Sessions.platform 1700000000000000
      (Sessions.session.take 2)).2.2.1 _ _ mintable refused

end RainmakerServer.AccountCodes
