import SyncServer.Accounts.AdminSetup
import SyncServer.Accounts.RegistrationLimit

/-! # When an account is created

A handler creates an account or leaves the accounts as they are. Which of the two it is can be
said in terms of the request and of the server before it.
-/

namespace SyncServer.Accounts
open Transaction

/-! ## New rows -/

/-- There is room for the new account, and nobody has what must be unique. -/
structure Creatable (new : NewUser) (maxUsers : Option Nat) (d : Db) : Prop where
  room : ∀ cap, maxUsers = some cap → d.users.rows.length < cap
  role : new.role ∈ ["admin", "user", "moderator"]
  unclaimed : ∀ r ∈ d.users.rows, clash new.row r = false
  free : d.users.get new.id = none

theorem addUser_ok_iff {row : User} {d : Db} :
    (∃ p, addUser row d = .ok p) ↔ row.role ∈ ["admin", "user", "moderator"] ∧
      (∀ r ∈ d.users.rows, clash row r = false) ∧ d.users.get row.id = none := by
  have hclash : (d.users.rows.any (clash row)) = true ↔ ¬ ∀ r ∈ d.users.rows, clash row r = false := by
    simp
  unfold addUser
  by_cases hrole : row.role ∈ ["admin", "user", "moderator"]
  swap
  · rw [if_pos hrole]
    simp [hrole]
  rw [if_neg (not_not.mpr hrole)]
  by_cases hany : (d.users.rows.any (clash row)) = true
  · rw [if_pos hany]
    simp only [reduceCtorEq, exists_false, false_iff]
    exact fun h => hclash.mp hany h.2.1
  · rw [if_neg hany]
    have hnone : ∀ r ∈ d.users.rows, clash row r = false := not_not.mp (mt hclash.mpr hany)
    have hfree : d.users.insert row = none ↔ (d.users.get row.id).isSome := Table.insert_eq_none
    rcases hinsert : d.users.insert row with _ | t
    · have := hfree.mp hinsert
      simp only [reduceCtorEq, exists_false, false_iff]
      intro h
      simp [h.2.2] at this
    · simpa [hrole] using ⟨hnone, Table.get_eq_none_of_insert hinsert⟩

theorem succeeds_checkUserCap {maxUsers : Option Nat} {d : Db} :
    (checkUserCap maxUsers).run d = (.ok (), d) ↔
      ∀ cap, maxUsers = some cap → d.users.rows.length < cap := by
  cases maxUsers with
  | none => simp [checkUserCap]
  | some cap =>
    rw [checkUserCap, Tx.run_bind_ok (Tx.run_query _ _)]
    by_cases hcap : cap ≤ d.users.rows.length
    · rw [if_pos hcap]
      simp [hcap]
    · rw [if_neg hcap]
      simpa using Nat.lt_of_not_le hcap

/-- `create_user` inserts the row or refuses the account, as the conditions say. -/
theorem run_createUser_iff (new : NewUser) (maxUsers : Option Nat) (d : Db) :
    (Creatable new maxUsers d ∧ ∃ t, d.users.insert new.row = some t ∧
        (createUser new maxUsers).run d = (.ok new.row, { d with users := t })) ∨
      (¬ Creatable new maxUsers d ∧ ∃ e, (createUser new maxUsers).run d = (.error e, d)) := by
  have hcap := (keeps_checkUserCap maxUsers).run d
  rcases hcheck : (checkUserCap maxUsers).run d with ⟨e | ⟨⟩, d'⟩
  · rw [hcheck] at hcap
    obtain rfl : d' = d := hcap
    refine .inr ⟨fun h => ?_, e, Tx.run_bind_error hcheck _⟩
    rw [succeeds_checkUserCap.mpr h.room] at hcheck
    cases hcheck
  rw [hcheck] at hcap
  obtain rfl : d' = d := hcap
  have hroom := succeeds_checkUserCap.mp hcheck
  rw [createUser, Tx.run_bind_ok hcheck, Tx.run_bind_ok (Tx.run_attempt _ _), insertUser]
  rcases Query.run_exec_cases (fun _ => []) (addUser new.row) d' with ⟨e, he⟩ | ⟨row, d'', hadd, hok⟩
  · right
    refine ⟨fun h => ?_, ?_⟩
    · obtain ⟨⟨row, d''⟩, hadd⟩ := addUser_ok_iff.mpr ⟨h.role, h.unclaimed, h.free⟩
      rw [Query.run_exec_ok.mpr hadd] at he
      cases he
    · rw [he]
      dsimp only
      split <;> exact ⟨_, rfl⟩
  · left
    obtain ⟨hrole, hunclaimed, hfree⟩ := addUser_ok_iff.mp ⟨_, hadd⟩
    obtain ⟨rfl, t, hinsert, rfl⟩ := addUser_ok hadd
    refine ⟨⟨hroom, hrole, hunclaimed, hfree⟩, t, hinsert, ?_⟩
    rw [hok]
    rfl

/-! ## Registration -/

def approvalRequired (d : Db) : Bool :=
  (d.adminSettings.get "registration_requires_approval").any (fun r => r.value = "true")

def maxUsersIn (env : AccountEnv) (d : Db) : Option Nat :=
  ((d.adminSettings.get "max_users").bind (fun r => parseU32 r.value)).or env.maxUsers

def RegisterCall.newUser (env : AccountEnv) (call : RegisterCall) (passwordHash : String)
    (approval : Bool) : NewUser where
  id := call.newId
  username := call.username
  email := env.names.unicode.toLowercase call.email
  passwordHash := passwordHash
  role := "user"
  deviceAuthPubkey := none
  isApproved := !approval

structure Admissible (env : AccountEnv) (call : RegisterCall) (s : Server) (hash : String) :
    Prop where
  hashed : env.hashPassword call.salt call.password = .ok hash
  creatable : Creatable (call.newUser env hash (approvalRequired s.db)) (maxUsersIn env s.db) s.db

/-- The rest of a registration creates the account, or fails and does nothing. -/
theorem run_registerFinish_cases (env : AccountEnv) (call : RegisterCall) (s : Server) :
    (∃ hash t s', Admissible env call s hash ∧
      s.db.users.insert (call.newUser env hash (approvalRequired s.db)).row = some t ∧
      (registerFinish env call).run s =
        (.ok ((call.newUser env hash (approvalRequired s.db)).row, approvalRequired s.db), s') ∧
      s'.db = { s.db with users := t }) ∨
    ((∀ hash, ¬ Admissible env call s hash) ∧
      ∃ e, (registerFinish env call).run s = (.error e, s)) := by
  rw [registerFinish]
  rcases hhash : env.hashPassword call.salt call.password with e | hash
  · refine .inr ⟨fun hash h => ?_, .internal e, rfl⟩
    cases hhash.symm.trans h.hashed
  have happroval : (onDb isApprovalRequired).run s = (.ok (approvalRequired s.db), s) :=
    run_onDb_read (Tx.run_query _ _)
  have hmax : (onDb (effectiveMaxUsers env.maxUsers)).run s = (.ok (maxUsersIn env s.db), s) :=
    run_onDb_read (Tx.run_query _ _)
  rw [Except.mapError, Tx.run_bind_ok (Tx.run_done _ _), Tx.run_bind_ok happroval,
    Tx.run_bind_ok hmax]
  rcases run_createUser_iff (call.newUser env hash (approvalRequired s.db)) (maxUsersIn env s.db)
    s.db with ⟨hcreatable, t, hinsert, hrun⟩ | ⟨hnot, e, hrun⟩
  · refine .inl ⟨hash, t, { s.setDb { s.db with users := t } with
        registrations := s.registrations ++ [(call.clientIp, call.recordedAt)] },
      ⟨hhash, hcreatable⟩, hinsert, ?_, rfl⟩
    rw [RegisterCall.newUser] at hrun
    rw [Tx.run_bind_ok (run_onDb_eq hrun), Tx.run_bind_ok
      (run_onDb_read (run_recordTermsAcceptance (Table.get_insert_self hinsert) _))]
    rfl
  · refine .inr ⟨fun hash' h => ?_, e, Tx.run_bind_error (run_onDb_eq hrun) _⟩
    obtain rfl : hash = hash' := Except.ok.inj (hhash.symm.trans h.hashed)
    exact hnot h.creatable

/-- The registration is let through, and the account may be created. -/
structure Registrable (env : AccountEnv) (call : RegisterCall) (s : Server) (hash : String) : Prop
    extends Admissible env call s hash where
  unlimited :
    countAfter (call.now - 3600) (timesOf call.clientIp s.registrations) < registrationMaxPerHour
  checked : checkRegistration env call = .ok ()

theorem run_register_cases (env : AccountEnv) (call : RegisterCall) (s : Server) :
    (∃ hash t s', Registrable env call s hash ∧
      s.db.users.insert (call.newUser env hash (approvalRequired s.db)).row = some t ∧
      (register env call).run s =
        (.ok ((call.newUser env hash (approvalRequired s.db)).row, approvalRequired s.db), s') ∧
      s'.db = { s.db with users := t }) ∨
    ((∀ hash, ¬ Registrable env call s hash) ∧
      ∃ e s', (register env call).run s = (.error e, s') ∧ s'.db = s.db) := by
  obtain ⟨r, hlimit, hunlimited⟩ := run_refuseIfLimited call.clientIp call.now s
  rw [register_eq, registerStart, Tx.bind_assoc]
  rcases r with e | ⟨⟩
  · refine .inr ⟨fun hash h => ?_, e, _, Tx.run_bind_error hlimit _, rfl⟩
    cases hunlimited.mpr h.unlimited
  rw [Tx.run_bind_ok hlimit]
  rcases hcheck : checkRegistration env call with e | ⟨⟩
  · refine .inr ⟨fun hash h => ?_, e, _, rfl, rfl⟩
    cases hcheck.symm.trans h.checked
  rw [Tx.run_bind_ok (Tx.run_done _ _)]
  rcases run_registerFinish_cases env call { s with
    registrations := keptRegistrations call.clientIp call.now s.registrations } with
    ⟨hash, t, s', hadmissible, hinsert, hrun, hs'⟩ | ⟨hnot, e, hrun⟩
  · refine .inl ⟨hash, t, s', ⟨⟨hadmissible.hashed, hadmissible.creatable⟩, hunlimited.mp rfl, hcheck⟩,
      hinsert, hrun, hs'⟩
  · refine .inr ⟨fun hash h => hnot hash ⟨h.hashed, h.creatable⟩, e, _, hrun, rfl⟩

/-! ## Setup -/

/-- The setup is let through, and the account may be created. -/
structure Installable (env : AccountEnv) (call : SetupAdminCall) (s : Server) (new : NewUser) :
    Prop where
  checked : checkSetup env call = .ok ()
  unconfigured : adminCount s.db = 0
  admitted : call.admitted env s.setupToken = .ok new
  creatable : Creatable new none s.db

/-- A setup creates the account, or it is refused and nothing happens to the database. -/
theorem run_setupAdmin_cases (env : AccountEnv) (call : SetupAdminCall) (s : Server) :
    (∃ new t s', Installable env call s new ∧ s.db.users.insert new.row = some t ∧
      (setupAdmin env call).run s = (.ok new.row, s') ∧ s'.db = { s.db with users := t }) ∨
    ((∀ new, ¬ Installable env call s new) ∧
      ∃ e s', (setupAdmin env call).run s = (.error e, s') ∧ s'.db = s.db) := by
  rw [setupAdmin_eq]
  rcases hcheck : checkSetup env call with e | ⟨⟩
  · refine .inr ⟨fun new h => ?_, e, s, rfl, rfl⟩
    cases hcheck.symm.trans h.checked
  have hcount : (onDb (Tx.query adminCount)).run s = (.ok (adminCount s.db), s) :=
    run_onDb_read (Tx.run_query _ _)
  rw [Tx.run_bind_ok (Tx.run_done _ _), countAdmins, Tx.run_bind_ok hcount]
  by_cases hadmin : 0 < adminCount s.db
  · rw [if_pos hadmin]
    refine .inr ⟨fun new h => ?_, alreadyConfigured, { s with setupToken := none }, rfl, rfl⟩
    have := h.unconfigured
    omega
  rw [if_neg hadmin, checkToken, Tx.run_bind_ok (Tx.run_query _ _)]
  rcases hadmitted : call.admitted env s.setupToken with e | new
  · refine .inr ⟨fun new h => ?_, e, s, rfl, rfl⟩
    cases hadmitted.symm.trans h.admitted
  rw [Tx.run_bind_ok (Tx.run_done _ _), createAdmin]
  rcases run_createUser_iff new none s.db with ⟨hcreatable, t, hinsert, hrun⟩ | ⟨hnot, e, hrun⟩
  · refine .inl ⟨new, t, { s.setDb { s.db with users := t } with setupToken := none },
      ⟨hcheck, Nat.eq_zero_of_not_pos hadmin, hadmitted, hcreatable⟩, hinsert, ?_, rfl⟩
    rw [Tx.run_bind_ok (run_onDb_eq hrun)]
    rfl
  · refine .inr ⟨fun new' h => ?_, e, s, Tx.run_bind_error (run_onDb_eq hrun) _, rfl⟩
    obtain rfl : new = new' := Except.ok.inj (hadmitted.symm.trans h.admitted)
    exact hnot h.creatable

end SyncServer.Accounts
