import RainmakerServer.AccountCalls
import RainmakerServer.Deployment

/-!
How the three calls that compare a secret fail. Before the comparison stand
guards that raise client errors; the comparison itself is defined for ASCII
only and raises a `TypeError` elsewhere. Two more refusals come from outside:
the database takes no parameter with a NUL, and neither does the password hash.
-/
namespace RainmakerServer.SecretChecks
open Tables Accounts

def ClientError (e : Exc) : Prop :=
  ∃ status code description, e = .rainmakerError status code description ∧
    400 ≤ status ∧ status < 500

/-- The call returns, or it raises a client error and leaves accounts,
    challenges and mappings as they were. -/
structure RefusedCleanly {α : Type} (db : Db) (reply : Reply α) : Prop where
  client : ∀ e, reply.2 = .error e → ClientError e
  users : ∀ e, reply.2 = .error e → reply.1.users = db.users
  challenges : ∀ e, reply.2 = .error e → reply.1.mappingChallenges = db.mappingChallenges
  mappings : ∀ e, reply.2 = .error e → reply.1.userNodeMappings = db.userNodeMappings

section
variable {α : Type} {db db' : Db} {e : Exc}

theorem clean_raise_iff : RefusedCleanly db (raise db e : Reply α) ↔ ClientError e := by
  constructor
  · intro clean
    exact clean.client e rfl
  · intro client
    refine ⟨?_,fun _ _ => rfl,fun _ _ => rfl,fun _ _ => rfl⟩
    intro raised same
    cases same
    exact client

theorem clean_done (a : α) : RefusedCleanly db (done db' a) := by
  constructor <;> (intro e failed; cases failed)

theorem client_error {status code : Nat} {description : Text} (low : 400 ≤ status)
    (high : status < 500) : ClientError (.rainmakerError status code description) :=
  ⟨status,code,description,rfl,low,high⟩

theorem database_not_client {fault : Fault} : ¬ ClientError (.database fault) := by
  intro client
  obtain ⟨_,_,_,same,-⟩ := client
  cases same

theorem type_not_client : ¬ ClientError .typeError := by
  intro client
  obtain ⟨_,_,_,same,-⟩ := client
  cases same

theorem value_not_client : ¬ ClientError .valueError := by
  intro client
  obtain ⟨_,_,_,same,-⟩ := client
  cases same

theorem binding_clean_iff {s : Text} {handler : Reply α} :
    RefusedCleanly db (binding db s handler) ↔
      bindable s = true ∧ RefusedCleanly db handler := by
  unfold binding
  split
  · rename_i bindable
    simp [bindable]
  · rename_i unbindable
    rw [clean_raise_iff]
    exact iff_of_false database_not_client fun both => unbindable both.1

theorem rehashed_clean_iff {pf : Platform} {salt password : Text} {user : User} :
    RefusedCleanly db (rehashed pf db salt password user) ↔ hashable password = true := by
  rcases @rehashed_cases pf db salt password user with ⟨hashed,eq⟩ | ⟨unhashable,eq⟩
  · rw [eq]
    exact iff_of_true (clean_done _) hashed
  · rw [eq,clean_raise_iff,unhashable]
    exact iff_of_false value_not_client (by simp)

end

/-! The comparison. -/

def Ascii (s : Text) : Prop := ∀ c ∈ s, c.val < 128

/-- Whenever the stored secret is there and in time, both texts are ASCII. -/
def Comparable (stored : Option Text) (expiry : Option Time) (now : Time) (given : Text) : Prop :=
  ∀ secret exp, stored = some secret → expiry = some exp → now ≤ exp →
    Ascii secret ∧ Ascii given

section
variable {α : Type} {db : Db} {now : Time}

theorem ascii_iff {s : Text} : s.all (fun c => decide (c.val < 128)) = true ↔ Ascii s := by
  simp only [List.all_eq_true, decide_eq_true_eq, Ascii]

theorem compare_digest_cases (a b : Text) :
    (Ascii a ∧ Ascii b) ∧ compareDigest a b = .ok (a == b) ∨
      ¬ (Ascii a ∧ Ascii b) ∧ compareDigest a b = .error .typeError := by
  have ascii : ((a ++ b).all fun c => decide (c.val < 128)) = true ↔ Ascii a ∧ Ascii b := by
    rw [List.all_append,Bool.and_eq_true,ascii_iff,ascii_iff]
  unfold compareDigest
  split
  · rename_i all
    exact Or.inl ⟨ascii.mp all,rfl⟩
  · rename_i some
    exact Or.inr ⟨fun both => some (ascii.mpr both),rfl⟩

theorem comparable_some {secret given : Text} {exp : Time} :
    Comparable (some secret) (some exp) now given ↔
      (now ≤ exp → Ascii secret ∧ Ascii given) := by
  simp [Comparable]

theorem guarded_clean_iff {stored : Option Text} {expiry : Option Time} {given : Text}
    {missing late wrong : Exc} {pass : Reply α} (absent : ClientError missing)
    (expired : ClientError late) (different : ClientError wrong) :
    RefusedCleanly db (guarded db stored expiry now given missing late wrong pass) ↔
      Comparable stored expiry now given ∧
        (Passes stored expiry now given → RefusedCleanly db pass) := by
  cases stored with
  | none =>
    refine iff_of_true (clean_raise_iff.mpr absent) ⟨?_,fun passes => absurd passes passes_none⟩
    intro secret exp held
    cases held
  | some secret =>
    cases expiry with
    | none =>
      refine iff_of_true (clean_raise_iff.mpr absent)
        ⟨?_,fun passes => absurd passes passes_unlimited⟩
      intro other exp _ limit
      cases limit
    | some exp =>
      rw [comparable_some,passes_some]
      simp only [guarded]
      split
      · rename_i past
        refine iff_of_true (clean_raise_iff.mpr expired) ⟨?_,?_⟩
        · intro valid
          exact absurd past (Int.not_lt.mpr valid)
        · rintro ⟨valid,-⟩
          exact absurd past valid
      · rename_i valid
        have valid' : now ≤ exp := Int.not_lt.mp valid
        rcases compare_digest_cases secret given with ⟨ascii,compared⟩ | ⟨foreign,raised⟩
        · rw [compared]
          cases secret == given with
          | false =>
            refine iff_of_true (clean_raise_iff.mpr different) ⟨fun _ => ascii,?_⟩
            rintro ⟨-,passed⟩
            cases passed
          | true =>
            dsimp only
            exact ⟨fun clean => ⟨fun _ => ascii,fun _ => clean⟩,fun both => both.2 ⟨valid,rfl⟩⟩
        · rw [raised]
          dsimp only
          rw [clean_raise_iff]
          exact iff_of_false type_not_client fun both => foreign (both.1 valid')

end

/-! The three calls. -/

/-- What the database and the caller see to: the caller has an account, the node
    of a challenge is there, and the key drawn for a mapping is new. -/
structure Supported (db : Db) (mappingId userId : Uuid) (requestId : Text) : Prop where
  caller : db.hasUser userId = true
  node : ∀ row ∈ db.mappingChallenges, row.requestId = requestId → row.userId = userId →
    ∃ n, row.nodeId = some n ∧ db.hasNode n = true
  fresh : ∀ m ∈ db.userNodeMappings, m.id ≠ mappingId

section
variable {pf : Platform} {db : Db} {now : Time}

theorem confirm_signup_clean_iff {userName code : Text} :
    RefusedCleanly db (confirmSignup db now userName code) ↔
      bindable userName = true ∧ ∀ user, userByName db userName = some user →
        Comparable user.confirmCode user.confirmCodeExp now code := by
  cases found : userByName db userName with
  | none =>
    unfold confirmSignup
    rw [binding_clean_iff]
    apply and_congr Iff.rfl
    simp only [found]
    refine iff_of_true (clean_raise_iff.mpr (client_error (by decide) (by decide))) ?_
    intro user some
    cases some
  | some user =>
    have refused : ∀ description, ClientError
        (.rainmakerError 400 ErrorCode.invalidRequest description) :=
      fun _ => client_error (by decide) (by decide)
    rw [confirm_signup_guarded found,guarded_clean_iff (refused _) (refused _) (refused _)]
    simp [user_by_name_bindable found, clean_done]

theorem confirm_password_reset_clean_iff {salt userName code password : Text} :
    RefusedCleanly db (confirmPasswordReset pf db now salt userName code password) ↔
      bindable userName = true ∧ ∀ user, userByName db userName = some user →
        Comparable user.resetCode user.resetCodeExp now code ∧
          (Passes user.resetCode user.resetCodeExp now code → hashable password = true) := by
  have refused : ClientError
      (.rainmakerError 400 ErrorCode.invalidRequest "Invalid or expired code") :=
    client_error (by decide) (by decide)
  cases found : userByName db userName with
  | none =>
    unfold confirmPasswordReset
    rw [binding_clean_iff]
    apply and_congr Iff.rfl
    simp only [found]
    refine iff_of_true (clean_raise_iff.mpr refused) ?_
    intro user some
    cases some
  | some user =>
    rw [confirm_password_reset_guarded found,guarded_clean_iff refused refused refused,
      rehashed_clean_iff]
    simp [user_by_name_bindable found]

theorem verify_challenge_clean_iff {mappingId userId : Uuid} {requestId response : Text}
    (supported : Supported db mappingId userId requestId) :
    RefusedCleanly db (Access.verifyChallenge db now mappingId userId requestId response) ↔
      bindable requestId = true ∧ ∀ row ∈ db.mappingChallenges,
        row.requestId = requestId → row.userId = userId → row.status = .pending →
          Comparable row.challenge (some row.expiresAt) now response := by
  unfold Access.verifyChallenge Access.verifyChallengeCheck
  cases known : bindable requestId with
  | false =>
    simp only [if_true]
    rw [clean_raise_iff]
    exact iff_of_false database_not_client (by simp)
  | true =>
    rw [if_neg (by simp),and_iff_right rfl]
    have refused : ∀ description, ClientError (invalidRequest description) :=
      fun _ => client_error (by decide) (by decide)
    have looked := @scalar_by_key _ _ db.mappingChallenges
      (fun r => r.requestId == requestId && r.userId == userId && r.status == .pending) (by
        intro a b ha hb
        simp only [Bool.and_eq_true, beq_iff_eq] at ha hb
        simp [Schema.conflict, ha.1.1, hb.1.1])
    rcases looked with ⟨row,stored,hit,found⟩ | ⟨none,found⟩
    · simp only [Bool.and_eq_true, beq_iff_eq] at hit
      obtain ⟨⟨requested,caller⟩,pending⟩ := hit
      have only : (∀ other ∈ db.mappingChallenges, other.requestId = requestId →
          other.userId = userId → other.status = .pending →
            Comparable other.challenge (some other.expiresAt) now response) ↔
          Comparable row.challenge (some row.expiresAt) now response := by
        constructor
        · intro all
          exact all row stored requested caller pending
        · intro own other there named _ _
          have clash : Schema.conflict other row = true := by
            simp [Schema.conflict, named, requested]
          rw [Table.eq_of_conflict there stored clash]
          exact own
      rw [only,found]
      dsimp only
      by_cases late : row.expiresAt < now
      · rw [if_pos late]
        refine iff_of_true (clean_raise_iff.mpr (refused _)) ?_
        intro secret exp _ limit valid
        cases limit
        exact absurd late (Int.not_lt.mpr valid)
      · rw [if_neg late]
        cases moded : row.challenge with
        | none =>
          refine iff_of_true (clean_raise_iff.mpr (refused _)) ?_
          intro secret exp held
          cases held
        | some challenge =>
          rw [comparable_some]
          dsimp only
          rcases compare_digest_cases challenge response with ⟨ascii,compared⟩ | ⟨foreign,raised⟩
          · rw [compared]
            refine iff_of_true ?_ fun _ => ascii
            cases challenge == response with
            | false => exact clean_raise_iff.mpr (refused _)
            | true =>
              obtain ⟨n,named,node⟩ := supported.node row stored requested caller
              have user : db.hasUser row.userId = true := by
                rw [caller]
                exact supported.caller
              obtain ⟨after,finalised,-⟩ := @Access.finalise_mapping_succeeds db now mappingId row n
                named user node supported.fresh
              dsimp only
              rw [finalised]
              exact clean_done _
          · rw [raised]
            dsimp only
            rw [clean_raise_iff]
            exact iff_of_false type_not_client fun ascii => foreign (ascii (Int.not_lt.mp late))
    · rw [found]
      refine iff_of_true (clean_raise_iff.mpr (refused _)) ?_
      intro row stored requested caller pending
      have miss := none row stored
      simp [requested, caller, pending] at miss

end

/-- A secret is refused cleanly by each of the three calls exactly when the name
    or request can be looked up and no comparison meets a text that is not
    ASCII; for a reset the new password must also be one that can be hashed. -/
theorem secrets_refused_cleanly_iff (pf : Platform) (db : Db) (now : Time) :
    (∀ userName code, RefusedCleanly db (confirmSignup db now userName code) ↔
      bindable userName = true ∧ ∀ user, userByName db userName = some user →
        Comparable user.confirmCode user.confirmCodeExp now code) ∧
    (∀ salt userName code password,
      RefusedCleanly db (confirmPasswordReset pf db now salt userName code password) ↔
        bindable userName = true ∧ ∀ user, userByName db userName = some user →
          Comparable user.resetCode user.resetCodeExp now code ∧
            (Passes user.resetCode user.resetCodeExp now code → hashable password = true)) ∧
    ∀ mappingId userId requestId response, Supported db mappingId userId requestId →
      (RefusedCleanly db (Access.verifyChallenge db now mappingId userId requestId response) ↔
        bindable requestId = true ∧ ∀ row ∈ db.mappingChallenges,
          row.requestId = requestId → row.userId = userId → row.status = .pending →
            Comparable row.challenge (some row.expiresAt) now response) :=
  ⟨fun _ _ => confirm_signup_clean_iff,fun _ _ _ _ => confirm_password_reset_clean_iff,
    fun _ _ _ _ => verify_challenge_clean_iff⟩

/-! An account with both codes pending, and a challenge for its node. -/

def pendingUser : User := {Deployment.account 1 "ana@example.com" with
  status := .unconfirmed
  confirmCode := some "271828"
  confirmCodeExp := some (hours 24)
  resetCode := some "314159"
  resetCodeExp := some (hours 1)}

def pendingChallenge : MappingChallenge where
  id := 5
  requestId := Deployment.token16
  userId := 1
  nodeId := some "lamp"
  challenge := some Deployment.token32
  operation := "add"
  expiresAt := minutes 10

def pending : Db where
  users := .one pendingUser
  nodes := .one {nodeId := "lamp"}
  mappingChallenges := .one pendingChallenge

theorem pending_supported : Supported pending 9 1 Deployment.token16 where
  caller := by decide +kernel
  node := by
    intro row stored _ _
    rw [List.mem_singleton.mp stored]
    exact ⟨"lamp",rfl,by decide +kernel⟩
  fresh := by
    intro m stored
    cases stored

theorem wrong_secrets_refused :
    RefusedCleanly pending (confirmSignup pending 0 "ana@example.com" "000000") ∧
    RefusedCleanly pending (confirmPasswordReset Deployment.platform pending 0 "salt"
      "ana@example.com" "000000" "new password") ∧
    RefusedCleanly pending (Access.verifyChallenge pending 0 9 1 Deployment.token16 "000000") := by
  obtain ⟨signup,reset,challenge⟩ := secrets_refused_cleanly_iff Deployment.platform pending 0
  have known : userByName pending "ana@example.com" = some pendingUser := by rfl
  have ascii : ∀ (secret : Text) (exp : Time), secret.all (fun c => decide (c.val < 128)) = true →
      Comparable (some secret) (some exp) 0 "000000" :=
    fun _ _ all => comparable_some.mpr fun _ => ⟨ascii_iff.mp all,ascii_iff.mp (by decide +kernel)⟩
  refine ⟨(signup _ _).mpr ⟨by decide +kernel,?_⟩,(reset _ _ _ _).mpr ⟨by decide +kernel,?_⟩,
    (challenge _ _ _ _ pending_supported).mpr ⟨by decide +kernel,?_⟩⟩
  · intro user found
    rw [known] at found
    cases found
    exact ascii "271828" (hours 24) (by decide +kernel)
  · intro user found
    rw [known] at found
    cases found
    exact ⟨ascii "314159" (hours 1) (by decide +kernel),fun _ => by decide +kernel⟩
  · intro row stored _ _ _
    rw [List.mem_singleton.mp stored]
    exact ascii Deployment.token32 (minutes 10) (by decide +kernel)

/-- A wrong secret with one letter outside ASCII is not. -/
theorem foreign_secrets_crash :
    (confirmSignup pending 0 "ana@example.com" "27182é").2 = .error .typeError ∧
    (confirmPasswordReset Deployment.platform pending 0 "salt" "ana@example.com" "31415é"
      "new password").2 = .error .typeError ∧
    (Access.verifyChallenge pending 0 9 1 Deployment.token16 "é").2 = .error .typeError ∧
    Supported pending 9 1 Deployment.token16 ∧
    ¬ RefusedCleanly pending (confirmSignup pending 0 "ana@example.com" "27182é") ∧
    ¬ RefusedCleanly pending (confirmPasswordReset Deployment.platform pending 0 "salt"
      "ana@example.com" "31415é" "new password") ∧
    ¬ RefusedCleanly pending (Access.verifyChallenge pending 0 9 1 Deployment.token16 "é") := by
  have signup : (confirmSignup pending 0 "ana@example.com" "27182é").2 = .error .typeError := by
    decide +kernel
  have reset : (confirmPasswordReset Deployment.platform pending 0 "salt" "ana@example.com"
      "31415é" "new password").2 = .error .typeError := by decide +kernel
  have challenge : (Access.verifyChallenge pending 0 9 1 Deployment.token16 "é").2 =
      .error .typeError := by decide +kernel
  exact ⟨signup,reset,challenge,pending_supported,
    fun clean => type_not_client (clean.client _ signup),
    fun clean => type_not_client (clean.client _ reset),
    fun clean => type_not_client (clean.client _ challenge)⟩

end RainmakerServer.SecretChecks
