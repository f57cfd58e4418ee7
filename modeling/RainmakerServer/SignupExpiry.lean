import RainmakerServer.AccountCodes

/-!
What the holder of a mailbox can do about an account that was signed up under
its name and not confirmed: the requests that need no token, with the codes
that reached it. A mail is sent after the commit and its failure is logged, so
whether it arrives is part of the call. While the code of the signup is valid
and in the mailbox it confirms the account. Otherwise no requests, in any order
and number, touch the row's status again.
-/
namespace RainmakerServer.SignupExpiry
open Tables Runs Accounts AccountCodes

structure Posting where
  world : World
  inbox : List Text

/-- A call, and whether the mail it sends arrives. -/
structure Posted where
  call : AccountCall
  delivered : Bool

section
variable (pf : Platform) (userName : Text)

/-- The codes a call mails to the name: the one of its signup, and the one of a
    reset that finds an account. -/
def mailedBy (v : World) : AccountCall → List Text
  | .signup id salt draw name password =>
    if name = userName ∧ (serveAccount pf v.db v.now (.signup id salt draw name password)).2 = .ok ()
    then [generateCode draw] else []
  | .requestPasswordReset draw name =>
    if name = userName ∧ (userByName v.db name).isSome then [generateCode draw] else []
  | _ => []

def mailStep (s : Posting) (c : Posted) : Posting where
  world := accountStep pf s.world c.call
  inbox := if c.delivered then s.inbox ++ mailedBy pf userName s.world c.call else s.inbox

/-- The states the calls lead to, from an empty database and mailbox. -/
def reached (now : Time) (cs : List Posted) : Posting :=
  run (mailStep pf userName) ⟨⟨Db.empty,now⟩,[]⟩ cs

/-- `POST` and `PUT /user2`, `PUT /forgotpassword2` and `POST /login2`, with
    codes from the mailbox where they take one; time may pass in between. A
    reset does not draw the account's own confirmation code by chance. -/
def Available (s : Posting) : AccountCall → Prop
  | .confirmSignup _ code => code ∈ s.inbox
  | .confirmPasswordReset _ _ code _ => code ∈ s.inbox
  | .requestPasswordReset draw _ => ∀ user ∈ s.world.db.users, user.userName = userName →
      user.confirmCode ≠ some (generateCode draw)
  | .signup .. | .loginPassword .. | .tick _ => True
  | .loginRefresh .. | .logout _ | .changePassword .. | .putCustomData .. | .deleteCurrentUser _ =>
    False

/-- Such calls after which an account of that name is confirmed. -/
def Recoverable (s : Posting) : Prop :=
  ∃ ds, Along (mailStep pf userName) (fun s c => Available userName s c.call) s ds ∧
    ∃ user ∈ (run (mailStep pf userName) s ds).world.db.users,
      user.userName = userName ∧ user.status = .confirmed

end

/-- The account of a name is unconfirmed, and its code has expired or is not in
    the mailbox. -/
def Stuck (userName : Text) (s : Posting) : Prop :=
  ∃ user ∈ s.world.db.users, user.userName = userName ∧ user.status = .unconfirmed ∧
    ∃ code exp, user.confirmCode = some code ∧ user.confirmCodeExp = some exp ∧
      (exp < s.world.now ∨ code ∉ s.inbox)

section
variable {pf : Platform} {v : World} {s : Posting} {c : AccountCall} {userName : Text}

theorem step_now_le (v : World) (c : AccountCall) : v.now ≤ (accountStep pf v c).now := by
  cases c with
  | tick elapsed => exact Int.le_add_of_nonneg_right (Int.natCast_nonneg elapsed)
  | _ => exact Int.le_refl v.now

theorem run_world (s : Posting) (cs : List Posted) :
    (run (mailStep pf userName) s cs).world =
      run (accountStep pf) s.world (cs.map Posted.call) := by
  induction cs generalizing s with
  | nil => rfl
  | cons c cs ih => exact ih (mailStep pf userName s c)

theorem mailed_cases {user : User} (stored : user ∈ v.db.users) (named : user.userName = userName)
    {code : Text} (mailed : code ∈ mailedBy pf userName v c) :
    ∃ draw, c = .requestPasswordReset draw userName ∧ code = generateCode draw := by
  cases c with
  | signup id salt draw name password =>
    simp only [mailedBy] at mailed
    split at mailed
    · rename_i sent
      obtain ⟨same,ok⟩ := sent
      have taken : userByName v.db name = some user := by
        rw [same,← named]
        exact user_by_name_of_mem stored
      simp only [serveAccount, Accounts.discard] at ok
      rcases signup_cases pf v.db v.now id salt (generateCode draw) name password with
        ⟨t,absent,-⟩ | ⟨e,eq⟩
      · rw [taken] at absent
        cases absent
      · rw [eq] at ok
        cases ok
    · cases mailed
  | requestPasswordReset draw name =>
    simp only [mailedBy] at mailed
    split at mailed
    · rename_i sent
      refine ⟨draw,by rw [sent.1],?_⟩
      simpa using mailed
    · cases mailed
  | _ => cases mailed

theorem stuck_confirmation {user : User} {code : Text} {exp : Time}
    (stored : user ∈ s.world.db.users) (held : user.confirmCode = some code)
    (limit : user.confirmCodeExp = some exp) (late : exp < s.world.now ∨ code ∉ s.inbox)
    (available : Available userName s c) :
    confirmAfter s.world user c = (user.status,user.confirmCode,user.confirmCodeExp) := by
  cases c with
  | confirmSignup name presented =>
    have refused : ¬ (name = user.userName ∧
        (confirmSignup s.world.db s.world.now name presented).2 = .ok user.id) := by
      intro confirmed
      obtain ⟨same,ok⟩ := confirmed
      rcases confirm_signup_cases s.world.db s.world.now name presented with
        ⟨target,found,passes,-⟩ | ⟨⟨e,eq⟩,-⟩
      · rw [same,user_by_name_of_mem stored] at found
        cases found
        obtain ⟨text,until',held',limit',valid,matching⟩ := passes
        rw [held] at held'
        rw [limit] at limit'
        cases held'
        cases limit'
        rcases late with past | missing
        · exact absurd past (Int.not_lt.mpr valid)
        · rw [compare_digest_true matching] at missing
          exact missing available
      · rw [eq] at ok
        cases ok
    exact if_neg refused
  | _ => rfl

theorem stuck_step (delivered : Bool) (stuck : Stuck userName s)
    (available : Available userName s c) :
    Stuck userName (mailStep pf userName s ⟨c,delivered⟩) := by
  obtain ⟨user,stored,named,unconfirmed,code,exp,held,limit,late⟩ := stuck
  have kept : c ≠ .deleteCurrentUser user.id := by
    intro deleted
    rw [deleted] at available
    exact available
  obtain ⟨new,there,follows⟩ := @row_step pf s.world c user stored kept
  have confirm := follows.confirm
  rw [stuck_confirmation stored held limit late available] at confirm
  simp only [Prod.mk.injEq] at confirm
  obtain ⟨status,held',limit'⟩ := confirm
  refine ⟨new,there,follows.named.trans named,status.trans unconfirmed,code,exp,held'.trans held,
    limit'.trans limit,?_⟩
  rcases late with past | missing
  · exact Or.inl (Int.lt_of_lt_of_le past (step_now_le s.world c))
  · right
    cases delivered with
    | false => exact missing
    | true =>
      intro received
      rcases List.mem_append.mp received with before | mailed
      · exact missing before
      · obtain ⟨draw,rfl,drawn⟩ := mailed_cases stored named mailed
        exact available user stored named (by rw [held,drawn])

theorem stuck_not_recoverable (stuck : Stuck userName s) : ¬ Recoverable pf userName s := by
  intro recoverable
  obtain ⟨ds,available,user,stored,named,confirmed⟩ := recoverable
  have still : Stuck userName (run (mailStep pf userName) s ds) :=
    run_invariant (mailStep pf userName) (fun s c stuck allowed =>
      stuck_step c.delivered stuck allowed) stuck available
  obtain ⟨other,there,same,unconfirmed,-⟩ := still
  have single := Table.eq_of_conflict stored there (by simp [Schema.conflict, named, same])
  rw [single,unconfirmed] at confirmed
  cases confirmed

theorem valid_code_confirms {user : User} {code : Text} (stored : user ∈ v.db.users)
    (passes : Passes user.confirmCode user.confirmCodeExp v.now code) :
    ∃ new ∈ (accountStep pf v (.confirmSignup user.userName code)).db.users,
      new.userName = user.userName ∧ new.status = .confirmed := by
  rcases confirm_signup_cases v.db v.now user.userName code with ⟨target,found,-,eq⟩ | ⟨-,refused⟩
  · rw [user_by_name_of_mem stored] at found
    cases found
    have after : (accountStep pf v (.confirmSignup user.userName code)).db =
        setUser v.db user.id confirmedUser (fun _ _ => rfl) fun _ held => held := by
      simp only [accountStep, serveAccount, Accounts.discard, eq]
      rfl
    rw [after]
    exact ⟨confirmedUser user,mem_set_user.mpr ⟨user,stored,by simp⟩,rfl,rfl⟩
  · exact absurd passes (refused user (user_by_name_of_mem stored))

end

/-- The account of a reachable state can be confirmed exactly while its code
    has not expired, and if that code ever reached the mailbox. -/
theorem recoverable_iff (pf : Platform) (userName : Text) (now : Time) (cs : List Posted)
    (user : User) (stored : user ∈ (reached pf userName now cs).world.db.users)
    (named : user.userName = userName) (unconfirmed : user.status = .unconfirmed) :
    Recoverable pf userName (reached pf userName now cs) ↔
      ∃ code exp, user.confirmCode = some code ∧ user.confirmCodeExp = some exp ∧
        (reached pf userName now cs).world.now ≤ exp ∧ code ∈ (reached pf userName now cs).inbox := by
  have state : CodeState pf ⟨Db.empty,now⟩ (cs.map Posted.call) user := by
    apply code_states rfl
    rw [← @run_world pf userName ⟨⟨Db.empty,now⟩,[]⟩ cs]
    exact stored
  obtain ⟨code,held⟩ := Option.ne_none_iff_exists'.mp (state.unconfirmed.mpr unconfirmed)
  obtain ⟨exp,limit⟩ := Option.ne_none_iff_exists'.mp (state.confirmExp.mpr (by simp [held]))
  constructor
  · intro recoverable
    refine ⟨code,exp,held,limit,?_⟩
    by_contra lost
    rw [not_and_or,Int.not_le] at lost
    exact stuck_not_recoverable ⟨user,stored,named,unconfirmed,code,exp,held,limit,lost⟩ recoverable
  · rintro ⟨code',exp',held',limit',valid,received⟩
    rw [held] at held'
    rw [limit] at limit'
    cases held'
    cases limit'
    have since := ((state.confirm code exp).mp ⟨held,limit⟩).2
    have passes := (confirm_code_worth state).mpr ⟨unconfirmed,exp,since,valid⟩
    obtain ⟨new,there,same,confirmed⟩ := @valid_code_confirms pf _ user code stored passes
    exact ⟨[⟨.confirmSignup user.userName code,false⟩],⟨received,trivial⟩,new,there,
      same.trans named,confirmed⟩

def inTime : List Posted := (Sessions.session.take 1).map fun c => ⟨c,true⟩

theorem fresh_signup_recoverable :
    Recoverable Sessions.platform Sessions.ana
      (reached Sessions.platform Sessions.ana 1700000000000000 inTime) := by
  obtain ⟨user,found,eq⟩ := Option.map_eq_some_iff.mp (show (userByName
    (reached Sessions.platform Sessions.ana 1700000000000000 inTime).world.db
    Sessions.ana).map (fun u => (u.status,u.confirmCode,u.confirmCodeExp)) =
      some (UserStatus.unconfirmed,some ("271828" : Text),some 1700086400000000) by decide +kernel)
  simp only [Prod.mk.injEq] at eq
  obtain ⟨stored,named⟩ := user_by_name found
  refine (recoverable_iff Sessions.platform Sessions.ana 1700000000000000 inTime user stored named
    eq.1).mpr ?_
  exact ⟨"271828",1700086400000000,eq.2.1,eq.2.2,by decide +kernel,by decide +kernel⟩

def lateConfirmation : List Posted :=
  (Sessions.session.take 1 ++ [AccountCall.tick 86400000001]).map fun c => ⟨c,true⟩

/-- A moment after that day there is an unconfirmed account, and nothing its
    mailbox can do will confirm one. -/
theorem late_confirmation_stuck :
    (∃ user ∈ (reached Sessions.platform Sessions.ana 1700000000000000
        lateConfirmation).world.db.users,
      user.userName = Sessions.ana ∧ user.status = .unconfirmed) ∧
    ¬ Recoverable Sessions.platform Sessions.ana
      (reached Sessions.platform Sessions.ana 1700000000000000 lateConfirmation) := by
  obtain ⟨user,found,eq⟩ := Option.map_eq_some_iff.mp (show (userByName
    (reached Sessions.platform Sessions.ana 1700000000000000 lateConfirmation).world.db
    Sessions.ana).map (fun u => (u.status,u.confirmCode,u.confirmCodeExp)) =
      some (UserStatus.unconfirmed,some ("271828" : Text),some 1700086400000000) by decide +kernel)
  simp only [Prod.mk.injEq] at eq
  obtain ⟨stored,named⟩ := user_by_name found
  refine ⟨⟨user,stored,named,eq.1⟩,stuck_not_recoverable ?_⟩
  exact ⟨user,stored,named,eq.1,_,_,eq.2.1,eq.2.2,Or.inl (by decide +kernel)⟩

end RainmakerServer.SignupExpiry
