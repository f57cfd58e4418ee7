import RainmakerServer.AccountCodes
import RainmakerServer.Ownership

/-!
What the codes are worth against a stranger. A wrong code changes nothing, not
even a counter, and there are a million of them: whoever tries them all while a
reset is open has set the password of the account. That no code is brought by a
stranger, as `Ownership` assumes, is left to the codes being hard to try.
-/
namespace RainmakerServer.Guessing
open Tables Runs Accounts Http HttpCalls

/-- The password reset of `userName` is asked for with the code and the password. -/
structure Tries (userName code password : Text) (r : Incoming) (payload : JsonObject) : Prop where
  routed : resolve r.method r.path = some (.anyone .forgotPassword,[])
  body : r.body = some (.obj payload)
  read : forgotPasswordRequest payload = some ⟨userName,some code,some password⟩
  coded : code ≠ []
  filled : password ≠ []

/-- A request with some code, or anything that leaves the row of the account. -/
inductive Attempt (pf : Platform) (user : User) (password : Text) (w : World) : Event → Prop where
  | guess {d : Draws} {r : Incoming} {payload : JsonObject} {code : Text}
      (tries : Tries user.userName code password r payload) :
      Attempt pf user password w (.request d r)
  | aside {e : Event} (kept : ∀ r ∈ w.db.users, r.id = user.id → r ∈ (step pf w e).db.users) :
      Attempt pf user password w e

def TakenOver (pf : Platform) (user : User) (password : Text) (db : Db) : Prop :=
  ∃ salt, resetUser (pf.hashPassword salt password) user ∈ db.users

section
variable {pf : Platform} {user : User} {password : Text} {w : World}

theorem given_filled {s : Text} (filled : s ≠ []) : Tsdata.given (some s) = some s := by
  cases s with
  | nil => exact absurd rfl filled
  | cons c s => rfl

theorem tries_step {d : Draws} {r : Incoming} {payload : JsonObject} {userName code : Text}
    (tries : Tries userName code password r payload) : step pf w (.request d r) =
      {w with db := (confirmPasswordReset pf w.db w.now d.salt userName code password).1} := by
  have code_given := given_filled tries.coded
  have password_given := given_filled tries.filled
  simp only [step, serve, tries.routed, handleOpen, tries.body, tries.read, answer, forgotPassword,
    code_given, password_given, returning]

theorem guess_cases {d : Draws} {r : Incoming} {payload : JsonObject} {code : Text}
    (tries : Tries user.userName code password r payload) {row : User} (stored : row ∈ w.db.users)
    (named : row.userName = user.userName) :
    Passes row.resetCode row.resetCodeExp w.now code ∧
        resetUser (pf.hashPassword d.salt password) row ∈
          (step pf w (.request d r)).db.users ∨
      ¬ (Passes row.resetCode row.resetCodeExp w.now code ∧ hashable password = true) ∧
        (step pf w (.request d r)).db = w.db := by
  have found : userByName w.db user.userName = some row := by
    rw [← named]
    exact user_by_name_of_mem stored
  rw [tries_step tries]
  rcases confirm_password_reset_cases pf w.db w.now d.salt user.userName code password with
    ⟨other,known,passes,-,eq⟩ | ⟨⟨e,failed⟩,refused⟩
  · cases known.symm.trans found
    left
    refine ⟨passes,?_⟩
    rw [eq]
    exact mem_set_user.mpr ⟨row,stored,by simp⟩
  · right
    refine ⟨refused row found,?_⟩
    rw [failed]
    rfl

theorem attempt_keeps {e : Event} (attempt : Attempt pf user password w e)
    (stored : user ∈ w.db.users) :
    user ∈ (step pf w e).db.users ∨ TakenOver pf user password (step pf w e).db := by
  cases attempt with
  | @guess d r payload code tries =>
    rcases @guess_cases pf user password w d r payload code tries user stored rfl with
      ⟨-,set⟩ | ⟨-,same⟩
    · exact Or.inr ⟨d.salt,set⟩
    · rw [same]
      exact Or.inl stored
  | aside kept => exact Or.inl (kept user stored rfl)

theorem taken_stays {e : Event} (attempt : Attempt pf user password w e)
    (taken : TakenOver pf user password w.db) : TakenOver pf user password (step pf w e).db := by
  obtain ⟨salt,stored⟩ := taken
  cases attempt with
  | @guess d r payload code tries =>
    rcases @guess_cases pf user password w d r payload code tries _ stored rfl with
      ⟨passes,-⟩ | ⟨-,same⟩
    · exact absurd passes passes_none
    · rw [same]
      exact ⟨salt,stored⟩
  | aside kept => exact ⟨salt,kept _ stored rfl⟩

theorem step_clock (w : World) (e : Event) : w.now ≤ (step pf w e).now := by
  cases e with
  | request d r => exact Int.le_refl _
  | internal c =>
    cases c with
    | tick elapsed => exact Int.le_add_of_nonneg_right (Int.natCast_nonneg elapsed)
    | _ => exact Int.le_refl _

theorem run_clock (w : World) (es : List Event) : w.now ≤ (run (step pf) w es).now :=
  run_preserves (step pf) (I := fun v => w.now ≤ v.now)
    (fun v e earlier => Int.le_trans earlier (step_clock v e)) es (Int.le_refl _)

theorem verified_hashable {hash : Text} (verified : verifyPassword pf password hash = .ok true) :
    hashable password = true := by
  unfold verifyPassword at verified
  split at verified
  · assumption
  · cases verified

theorem taken_admits {db : Db} (taken : TakenOver pf user password db)
    (confirmed : user.status = .confirmed)
    (verifies : ∀ salt, verifyPassword pf password (pf.hashPassword salt password) = .ok true) :
    ∃ new, admitted pf db user.userName password = .ok new ∧ new.id = user.id := by
  obtain ⟨salt,stored⟩ := taken
  refine ⟨resetUser (pf.hashPassword salt password) user,?_,rfl⟩
  have found : userByName db user.userName =
      some (resetUser (pf.hashPassword salt password) user) := user_by_name_of_mem stored
  have clean : bindable user.userName = true := user_by_name_bindable found
  simp only [admitted, clean, if_true, found]
  simp only [resetUser, verifies salt, confirmed, ne_eq, not_true_eq_false, if_false]

/-- Whoever tries every code before the reset expires can log in as the user:
    neither the number of the requests nor that of the failures stops them. -/
theorem every_code_takes_over {es : List Event} {draw : Fin 1000000} {expiry : Time}
    (stored : user ∈ w.db.users) (coded : user.resetCode = some (generateCode draw))
    (limit : user.resetCodeExp = some expiry) (confirmed : user.status = .confirmed)
    (verifies : ∀ salt, verifyPassword pf password (pf.hashPassword salt password) = .ok true)
    (attempts : Along (step pf) (Attempt pf user password) w es)
    (every : ∀ guess, ∃ d r payload, .request d r ∈ es ∧
      Tries user.userName (generateCode guess) password r payload)
    (timely : (run (step pf) w es).now ≤ expiry) :
    ∃ new, admitted pf (run (step pf) w es).db user.userName password = .ok new ∧
      new.id = user.id := by
  obtain ⟨d,r,payload,listed,tries⟩ := every draw
  obtain ⟨pre,post,split⟩ := List.append_of_mem listed
  subst split
  obtain ⟨first,here,last⟩ := (along_append _).mp attempts
  rw [run_append] at timely ⊢
  have before := run_invariant (step pf)
    (I := fun v => user ∈ v.db.users ∨ TakenOver pf user password v.db)
    (fun v e held attempt => held.elim (attempt_keeps attempt) fun taken =>
      Or.inr (taken_stays attempt taken)) (Or.inl stored) first
  have in_time := Int.le_trans (run_clock (run (step pf) w pre) (.request d r :: post)) timely
  generalize run (step pf) w pre = mid at here last before in_time
  have taken : TakenOver pf user password (step pf mid (.request d r)).db := by
    rcases before with waiting | taken
    · rcases @guess_cases pf user password mid d r payload _ tries user waiting rfl with
        ⟨-,set⟩ | ⟨fails,-⟩
      · exact ⟨d.salt,set⟩
      · have passes : Passes user.resetCode user.resetCodeExp mid.now (generateCode draw) :=
          ⟨_,expiry,coded,limit,in_time,
            (compare_digest_iff (AccountCodes.generate_code_ascii draw)).mpr rfl⟩
        exact absurd ⟨passes,verified_hashable (verifies [])⟩ fails
    · exact taken_stays here taken
  have final := run_invariant (step pf) (I := fun v => TakenOver pf user password v.db)
    (fun v e taken attempt => taken_stays attempt taken) taken last
  exact taken_admits final confirmed verifies

end

/-! A million requests for the account of Ana. -/

def platform : Platform := {Deployment.platform with
  verifyPassword := fun password hash => password.isSuffixOf hash}

def sent : Fin 1000000 := ⟨271828,by decide⟩

def ana : User := {Deployment.account 1 "ana@example.com" with
  resetCode := some (generateCode sent), resetCodeExp := some (hours 1)}

def waiting : World where
  db := {users := .one ana}
  now := 0

def guessBody (draw : Fin 1000000) : JsonObject :=
  [("user_name",.str "ana@example.com"),("verification_code",.str (generateCode draw)),
    ("password",.str "12345678")]

def guess (draw : Fin 1000000) : Event :=
  .request ⟨1,fun _ => 1,[],[],[],sent,"salt",⟨1,[],[],[]⟩,0⟩
    {method := .put, path := "/v1/forgotpassword2", body := some (.obj (guessBody draw))}

def guesses (draws : List (Fin 1000000)) : List Event := draws.map guess

theorem generate_code_filled (draw : Fin 1000000) : generateCode draw ≠ [] := by
  intro none
  have length := congrArg List.length none
  simp only [generateCode, List.length_append, List.length_replicate, List.length_nil] at length
  omega

theorem guess_tries (draw : Fin 1000000) : Tries ana.userName (generateCode draw) "12345678"
    {method := .put, path := "/v1/forgotpassword2", body := some (.obj (guessBody draw))}
    (guessBody draw) where
  routed := rfl
  body := rfl
  read := rfl
  coded := generate_code_filled draw
  filled := nofun

theorem guesses_attempt {draws : List (Fin 1000000)} {w : World} :
    Along (step platform) (Attempt platform ana "12345678") w (guesses draws) ∧
      (run (step platform) w (guesses draws)).now = w.now := by
  induction draws generalizing w with
  | nil => exact ⟨trivial,rfl⟩
  | cons draw draws ih =>
    obtain ⟨along,same⟩ := @ih (step platform w (guess draw))
    exact ⟨⟨.guess (guess_tries draw),along⟩,same⟩

theorem ana_is_taken_over : ∃ new,
    admitted platform (run (step platform) waiting (guesses (List.finRange 1000000))).db
      "ana@example.com" "12345678" = .ok new ∧ new.id = 1 := by
  generalize drawn : List.finRange 1000000 = draws
  have all : ∀ draw, draw ∈ draws := by
    intro draw
    rw [← drawn]
    exact List.mem_finRange draw
  have verifies : ∀ salt : Text, verifyPassword platform "12345678"
      (platform.hashPassword salt "12345678") = .ok true := by
    intro salt
    have suffix : platform.verifyPassword "12345678" (platform.hashPassword salt "12345678") = true :=
      List.isSuffixOf_iff_suffix.mpr (List.suffix_append _ _)
    have hashes : hashable "12345678" = true := by decide
    rw [verifyPassword,if_pos hashes,suffix]
  have timely : (run (step platform) waiting (guesses draws)).now ≤ hours 1 := by
    rw [(@guesses_attempt draws waiting).2]
    decide
  exact @every_code_takes_over platform ana "12345678" waiting (guesses draws) sent (hours 1)
    (List.mem_singleton.mpr rfl) rfl rfl rfl verifies (@guesses_attempt draws waiting).1
    (fun draw => ⟨_,_,_,List.mem_map.mpr ⟨draw,all draw,rfl⟩,guess_tries draw⟩) timely

end RainmakerServer.Guessing
