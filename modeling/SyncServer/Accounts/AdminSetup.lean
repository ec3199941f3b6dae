import SyncServer.Accounts.Shadows
import SyncServer.Transaction.Autocommit

/-! # The setup of the first administrator

`setup_admin` counts the administrators, looks at the token, hashes the password, inserts the
account and takes the token away. Other requests come in between, so the token that one of them
is about to use up still lets others pass.
-/

namespace SyncServer.Accounts
open Transaction Autocommit

/-! ## The handler in its parts -/

def adminCount (d : Db) : Nat := d.users.rows.countP (fun r => r.role = "admin")

def SetupAdminCall.newAdmin (env : AccountEnv) (call : SetupAdminCall) (passwordHash : String) :
    NewUser where
  id := call.newId
  username := trim call.username
  email := call.storedEmail env
  passwordHash := passwordHash
  role := "admin"
  deviceAuthPubkey := none
  isApproved := true

def alreadyConfigured : AppError := .conflict "Admin account is already configured"

def clearAndAnswer (answer : Except AppError User) : Handler User := do
  clearSetupToken
  Tx.done answer

/-- `setup_admin` once the password is hashed. -/
def createAdmin (new : NewUser) : Handler User := do
  let user ← onDb (createUser new none)
  clearAndAnswer (.ok user)

/-- The token is the one that the server expects. -/
def SetupAdminCall.Admits (call : SetupAdminCall) (expected : Option String) : Prop :=
  trim (call.setupToken.getD "") ≠ "" ∧ expected = some (trim (call.setupToken.getD ""))

instance (call : SetupAdminCall) (expected : Option String) : Decidable (call.Admits expected) :=
  inferInstanceAs (Decidable (_ ∧ _))

def SetupAdminCall.admitted (env : AccountEnv) (call : SetupAdminCall) (expected : Option String) :
    Except AppError NewUser :=
  if call.Admits expected then
    ((env.hashPassword call.salt call.password).mapError .internal).map (call.newAdmin env)
  else .error .forbidden

/-- `setup_admin` once no administrator was found. -/
def checkToken (env : AccountEnv) (call : SetupAdminCall) : Handler User := do
  let expected ← Tx.query Server.setupToken
  let new ← Tx.done (call.admitted env expected)
  createAdmin new

/-- `setup_admin` after the checks of the fields. -/
def countAdmins (env : AccountEnv) (call : SetupAdminCall) : Handler User := do
  let count ← onDb (Tx.query adminCount)
  if 0 < count then clearAndAnswer (.error alreadyConfigured) else checkToken env call

theorem done_admitted (env : AccountEnv) (call : SetupAdminCall) (expected : Option String)
    (f : NewUser → Handler User) :
    (Tx.done (call.admitted env expected) >>= f) =
      if trim (call.setupToken.getD "") = "" ∨ expected ≠ some (trim (call.setupToken.getD "")) then
        throw .forbidden
      else Tx.done ((env.hashPassword call.salt call.password).mapError .internal) >>=
        fun passwordHash => f (call.newAdmin env passwordHash) := by
  by_cases h : call.Admits expected
  · rw [SetupAdminCall.admitted, if_pos h, if_neg (not_or.mpr ⟨h.1, not_not.mpr h.2⟩)]
    cases env.hashPassword call.salt call.password <;> rfl
  · rw [SetupAdminCall.admitted, if_neg h, if_pos (by
      rw [SetupAdminCall.Admits, not_and_or, not_not] at h
      exact h)]
    rfl

theorem setupAdmin_eq (env : AccountEnv) (call : SetupAdminCall) :
    setupAdmin env call = Tx.done (checkSetup env call) >>= fun _ => countAdmins env call := by
  unfold setupAdmin countAdmins checkToken
  simp only [done_admitted]
  rfl

/-! ## The handler by its phases -/

/-- What a request has to do next. -/
inductive SetupPhase where
  | counting (call : SetupAdminCall)
  | checking (call : SetupAdminCall)
  | inserting (new : NewUser)
  | clearing (answer : Except AppError User)
  | answered (answer : Except AppError User)

/-- What `create_user` makes of an error of the database. -/
def insertError : DbError → AppError
  | .uniqueViolation => .conflict "Email or username already taken"
  | e => .database e

theorem step_createUser {β : Type} (new : NewUser) (k : User → Handler β) (s : Server) :
    (onDb (createUser new none) >>= k).step s =
      match addUser new.row s.db with
      | .ok (user, d) => some (k user, s.setDb d)
      | .error e => some (.done (.error (insertError e)), s) := by
  rcases h : addUser new.row s.db with e | ⟨user, d⟩
  all_goals
    change some (Tx.bind (Tx.onPart _ _ (Tx.bind (Tx.attempt (Tx.done (Tx.outcome _ s.db))) _)) k,
      s.setDb (Tx.effect _ s.db)) = _
    simp only [Tx.outcome, Tx.effect, h]
  · cases e <;> rfl
  · rfl

namespace SetupPhase

def program (env : AccountEnv) : SetupPhase → Handler User
  | counting call => countAdmins env call
  | checking call => checkToken env call
  | inserting new => createAdmin new
  | clearing answer => clearAndAnswer answer
  | answered answer => Tx.done answer

def next (env : AccountEnv) : SetupPhase → Server → Option (SetupPhase × Server)
  | counting call, s =>
    some (if 0 < adminCount s.db then clearing (.error alreadyConfigured) else checking call, s)
  | checking call, s =>
    match call.admitted env s.setupToken with
    | .ok new => some (inserting new, s)
    | .error e => some (answered (.error e), s)
  | inserting new, s =>
    match addUser new.row s.db with
    | .ok (user, d) => some (clearing (.ok user), s.setDb d)
    | .error e => some (answered (.error (insertError e)), s)
  | clearing answer, s => some (answered answer, { s with setupToken := none })
  | answered _, _ => none

theorem step_program (env : AccountEnv) (f : SetupPhase) (s : Server) :
    (f.program env).step s = (f.next env s).map (Prod.map (SetupPhase.program env) id) := by
  cases f with
  | counting call =>
    change some (_, s) = some (_, s)
    rw [Option.some.injEq, Prod.mk.injEq]
    refine ⟨?_, rfl⟩
    change (if 0 < adminCount s.db then _ else _) = _
    split <;> rfl
  | checking call =>
    rw [program, checkToken, next]
    generalize call.admitted env = admitted
    change some (Tx.done (admitted s.setupToken) >>= createAdmin, s) = _
    cases admitted s.setupToken <;> rfl
  | inserting new =>
    rw [program, createAdmin, step_createUser, next]
    rcases addUser new.row s.db with e | ⟨user, d⟩ <;> rfl
  | clearing answer => rfl
  | answered answer => rfl

/-- The first phase of a request. -/
def start (env : AccountEnv) (call : SetupAdminCall) : SetupPhase :=
  match checkSetup env call with
  | .ok () => counting call
  | .error e => answered (.error e)

theorem program_start (env : AccountEnv) (call : SetupAdminCall) :
    (start env call).program env = setupAdmin env call := by
  rw [setupAdmin_eq, start]
  cases checkSetup env call <;> rfl

def phases (env : AccountEnv) : Phases SetupPhase Server RowLock AppError User :=
  ⟨program env, next env, step_program env⟩

def inserts : SetupPhase → Bool
  | inserting _ => true
  | _ => false

def checks : SetupPhase → Option SetupAdminCall
  | checking call => some call
  | _ => none

end SetupPhase

/-! ## Interleaved requests -/

section
variable {ι : Type} [DecidableEq ι]

/-- The requests, before the first statement. -/
def setups (env : AccountEnv) (server : Server) (calls : ι → SetupAdminCall) :
    Sys ι Server SetupPhase :=
  ⟨server, fun i => .start env (calls i)⟩

theorem run_setups (env : AccountEnv) (server : Server) (calls : ι → SetupAdminCall) (is : List ι) :
    run Tx.step ⟨server, fun i => setupAdmin env (calls i)⟩ is =
      (run (SetupPhase.next env) (setups env server calls) is).map
        (programs (SetupPhase.phases env)) := by
  have hprograms : programs (SetupPhase.phases env) (setups env server calls) =
      ⟨server, fun i => setupAdmin env (calls i)⟩ := by
    simp only [programs, setups, SetupPhase.phases, SetupPhase.program_start]
  rw [← hprograms]
  exact run_programs (SetupPhase.phases env) (setups env server calls) is

/-- A request that passes the look at the token finds no administrator, and no other request that
is going to insert one. -/
def Unrivalled (env : AccountEnv) (s : Sys ι Server SetupPhase) (i : ι) : Prop :=
  ∀ call ∈ (s.rest i).checks, (call.admitted env s.db.setupToken).isOk →
    adminCount s.db.db = 0 ∧ ∀ j, (s.rest j).inserts = false

instance [Fintype ι] (env : AccountEnv) (s : Sys ι Server SetupPhase) (i : ι) :
    Decidable (Unrivalled env s i) :=
  inferInstanceAs (Decidable (∀ call ∈ (s.rest i).checks,
    (call.admitted env s.db.setupToken).isOk → adminCount s.db.db = 0 ∧
      ∀ j, (s.rest j).inserts = false))

/-- A statement inserts an account, or leaves the administrators as they are; it goes on to an
insertion only from the look at the token. -/
theorem SetupPhase.next_cases {env : AccountEnv} {f f' : SetupPhase} {s s' : Server}
    (h : f.next env s = some (f', s')) :
    (f'.inserts = false ∧ adminCount s'.db = adminCount s.db) ∨
      (f'.inserts = false ∧ f.inserts = true ∧ adminCount s.db ≤ adminCount s'.db ∧
        adminCount s'.db ≤ adminCount s.db + 1) ∨
      (s' = s ∧ ∃ call, f = .checking call ∧ (call.admitted env s.setupToken).isOk) := by
  cases f with
  | counting call =>
    cases h
    left
    split <;> exact ⟨rfl, rfl⟩
  | checking call =>
    rw [next] at h
    rcases hnew : call.admitted env s.setupToken with e | new
    · rw [hnew] at h
      cases h
      exact .inl ⟨rfl, rfl⟩
    · rw [hnew] at h
      cases h
      exact .inr (.inr ⟨rfl, call, rfl, by rw [hnew]; rfl⟩)
  | inserting new =>
    rw [next] at h
    rcases hadd : addUser new.row s.db with e | ⟨user, d⟩
    · rw [hadd] at h
      cases h
      exact .inl ⟨rfl, rfl⟩
    · rw [hadd] at h
      cases h
      obtain ⟨-, t, hinsert, rfl⟩ := addUser_ok hadd
      refine .inr (.inl ⟨rfl, rfl, ?_⟩)
      simp only [adminCount, Server.setDb, Table.rows_of_insert hinsert, List.countP_append,
        List.countP_singleton]
      split <;> omega
  | clearing answer =>
    cases h
    exact .inl ⟨rfl, rfl⟩
  | answered answer => cases h

structure SetupInv (base : Nat) (s : Sys ι Server SetupPhase) : Prop where
  bound : adminCount s.db.db ≤ base + 1
  alone : ∀ i, (s.rest i).inserts = true →
    adminCount s.db.db = 0 ∧ ∀ j, (s.rest j).inserts = true → j = i

theorem SetupInv.step {env : AccountEnv} {base : Nat} {s s' : Sys ι Server SetupPhase} {i : ι}
    (hc : Unrivalled env s i) (h : SetupInv base s)
    (hstep : step (SetupPhase.next env) s i = some s') : SetupInv base s' := by
  obtain ⟨f, d, hnext, rfl⟩ := step_eq_some.mp hstep
  have hothers : ∀ j, j ≠ i → (Function.update s.rest i f j).inserts = true →
      (s.rest j).inserts = true := by
    intro j hj hins
    rwa [Function.update_of_ne hj] at hins
  have hself : (Function.update s.rest i f i).inserts = f.inserts := by
    rw [Function.update_self]
  rcases SetupPhase.next_cases hnext with ⟨hnot, hsame⟩ | ⟨hnot, hins, -, hle⟩ | ⟨rfl, call, hcall, hok⟩
  · have hne : ∀ j, (Function.update s.rest i f j).inserts = true → j ≠ i := by
      rintro j hj rfl
      rw [hself, hnot] at hj
      cases hj
    refine ⟨hsame.trans_le h.bound, fun j hj => ?_⟩
    obtain ⟨hzero, hunique⟩ := h.alone j (hothers j (hne j hj) hj)
    exact ⟨hsame.trans hzero, fun k hk => hunique k (hothers k (hne k hk) hk)⟩
  · obtain ⟨hzero, hunique⟩ := h.alone i hins
    refine ⟨by dsimp only; omega, fun j hj => ?_⟩
    have hne : j ≠ i := by
      rintro rfl
      rw [hself, hnot] at hj
      cases hj
    exact absurd (hunique j (hothers j hne hj)) hne
  · obtain ⟨hzero, hnone⟩ := hc call (by rw [hcall]; rfl) hok
    have honly : ∀ j, (Function.update s.rest i f j).inserts = true → j = i := by
      intro j hj
      by_contra hne
      exact Bool.false_ne_true ((hnone j).symm.trans (hothers j hne hj))
    exact ⟨h.bound, fun j hj => ⟨hzero, fun k hk => (honly k hk).trans (honly j hj).symm⟩⟩

/-- The answer to a request that finds an administrator. -/
def SetupAdminCall.refusal (env : AccountEnv) (call : SetupAdminCall) : Except AppError User := do
  checkSetup env call
  .error alreadyConfigured

/-- There is an administrator, and the request is going to be refused. -/
structure Refused (env : AccountEnv) (call : SetupAdminCall) (j : ι) (s : Sys ι Server SetupPhase) :
    Prop where
  configured : 0 < adminCount s.db.db
  phase : checkSetup env call = .ok () ∧
      (s.rest j = .counting call ∨ s.rest j = .clearing (.error alreadyConfigured)) ∨
    s.rest j = .answered (call.refusal env)

omit [DecidableEq ι] in
theorem Refused.of_start {env : AccountEnv} {call : SetupAdminCall} {j : ι}
    {s : Sys ι Server SetupPhase} (hadmin : 0 < adminCount s.db.db)
    (h : s.rest j = .start env call) : Refused env call j s := by
  refine ⟨hadmin, ?_⟩
  rw [SetupPhase.start] at h
  rcases hcheck : checkSetup env call with e | ⟨⟩
  · rw [hcheck] at h
    right
    rw [h, SetupAdminCall.refusal, hcheck]
    rfl
  · rw [hcheck] at h
    exact .inl ⟨rfl, .inl h⟩

theorem Refused.step {env : AccountEnv} {call : SetupAdminCall} {j : ι}
    {s s' : Sys ι Server SetupPhase} {i : ι} (h : Refused env call j s)
    (hstep : step (SetupPhase.next env) s i = some s') : Refused env call j s' := by
  obtain ⟨f, d, hnext, rfl⟩ := step_eq_some.mp hstep
  have hadmin : 0 < adminCount d.db := by
    have := h.configured
    rcases SetupPhase.next_cases hnext with ⟨-, hsame⟩ | ⟨-, -, hle, -⟩ | ⟨rfl, -⟩ <;> omega
  refine ⟨hadmin, ?_⟩
  by_cases hji : j = i
  · subst hji
    dsimp only
    rw [Function.update_self]
    rcases h.phase with ⟨hcheck, hcounting | hclearing⟩ | hover
    · rw [hcounting, SetupPhase.next, if_pos h.configured] at hnext
      cases hnext
      exact .inl ⟨hcheck, .inr rfl⟩
    · rw [hclearing] at hnext
      cases hnext
      right
      rw [SetupAdminCall.refusal, hcheck]
      rfl
    · rw [hover] at hnext
      cases hnext
  · dsimp only
    rw [Function.update_of_ne hji]
    exact h.phase

/-- If no request passes the look at the token beside another one, at most one administrator is
created, however the statements of the requests are interleaved; and a request that arrives
when there is an administrator is refused. -/
theorem setup_single_use (env : AccountEnv) (server : Server) (calls : ι → SetupAdminCall)
    (is : List ι) (s : Sys ι Server SetupPhase)
    (hrun : run (SetupPhase.next env) (setups env server calls) is = some s)
    (hc : Autocommit.Along (SetupPhase.next env) (Unrivalled env) (setups env server calls) is) :
    adminCount s.db.db ≤ adminCount server.db + 1 ∧
      ∀ before after s₁, is = before ++ after →
        run (SetupPhase.next env) (setups env server calls) before = some s₁ →
        0 < adminCount s₁.db.db → ∀ j ∉ before, ∀ answer, s.rest j = .answered answer →
          answer = (calls j).refusal env := by
  constructor
  · have h0 : SetupInv (adminCount server.db) (setups env server calls) := by
      refine ⟨Nat.le_succ _, fun i hi => ?_⟩
      simp only [setups, SetupPhase.start] at hi
      split at hi <;> cases hi
    exact (run_invariant (fun _ _ _ hc h hs => SetupInv.step hc h hs) h0 hc hrun).bound
  · intro before after s₁ his hbefore hadmin j hj answer hanswer
    subst his
    obtain ⟨t, ht, hafter⟩ := run_append.mp hrun
    rw [hbefore] at ht
    cases ht
    have hfirst : s₁.rest j = (setups env server calls).rest j := rest_of_not_mem hbefore hj
    rw [setups] at hfirst
    have hstart : Refused env (calls j) j s₁ := Refused.of_start hadmin hfirst
    have hrefused := run_invariant (C := fun _ _ => True)
      (fun _ _ _ _ h hs => Refused.step h hs) hstart (along_of_forall (fun _ _ => trivial) _ _) hafter
    have hcall : ∀ call, SetupPhase.answered answer ≠ .counting call := by
      intro call h
      cases h
    rcases hrefused.phase with ⟨-, h | h⟩ | h <;> rw [hanswer] at h
    · cases h
    · cases h
    · cases h
      rfl

end

/-! ## Samples -/

/-- The link for the setup was given out. -/
def awaitingAdmin : Server := { newServer with setupToken := some "K7QM-2XRA" }

/-- Two requests with the token of the link. -/
def twoSetups : Bool → SetupAdminCall
  | false => ⟨"root", "root@example.org", "correct horse", some "K7QM-2XRA", 1,
      "abcdefghijklmnopqrstuu"⟩
  | true => ⟨"admin", "admin@example.org", "correct horse", some "K7QM-2XRA", 2,
      "abcdefghijklmnopqrstuu"⟩

/-- The second request arrives after the first one is answered. -/
theorem setup_single_use_in_turn :
    ∃ s, run (SetupPhase.next sampleAccountEnv) (setups sampleAccountEnv awaitingAdmin twoSetups)
        ([false, false, false, false] ++ [true, true]) = some s ∧
      adminCount s.db.db ≤ adminCount awaitingAdmin.db + 1 ∧
      ∀ answer, s.rest true = .answered answer → answer = (twoSetups true).refusal sampleAccountEnv := by
  have hsome : (run (SetupPhase.next sampleAccountEnv)
      (setups sampleAccountEnv awaitingAdmin twoSetups)
        ([false, false, false, false] ++ [true, true])).isSome := by decide +kernel
  have hfirst : (run (SetupPhase.next sampleAccountEnv)
      (setups sampleAccountEnv awaitingAdmin twoSetups) [false, false, false, false]).any
        (fun t => decide (0 < adminCount t.db.db)) = true := by decide +kernel
  obtain ⟨t, ht, hadmin⟩ := (Option.any_eq_true _ _).mp hfirst
  obtain ⟨hcount, hlater⟩ := setup_single_use sampleAccountEnv awaitingAdmin twoSetups _ _
    (Option.some_get hsome).symm (by decide +kernel)
  exact ⟨_, (Option.some_get hsome).symm, hcount,
    hlater _ _ t rfl ht (of_decide_eq_true hadmin) true (by decide)⟩

/-- Both requests look at the token before one of them takes it away. -/
theorem two_admins_set_up :
    (run (SetupPhase.next sampleAccountEnv) (setups sampleAccountEnv awaitingAdmin twoSetups)
      [false, false, true, true, false, true, false, true]).map
        (fun s => (adminCount awaitingAdmin.db, adminCount s.db.db)) = some (0, 2) := by
  decide +kernel

end SyncServer.Accounts
