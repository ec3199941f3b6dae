import SyncServer.Accounts.Shadows
import SyncServer.Base.Counting

/-! # The limit of registrations

A handler that creates accounts is suspended while a password is hashed, and other requests
are served meanwhile. The limiter is asked before the suspension and told after it, so it
does not see the accounts that are about to be created.
-/

namespace SyncServer.Accounts
open Transaction Auth

/-! ## The parts of the handlers -/

/-- `register` until the password is hashed. -/
def registerStart (env : AccountEnv) (call : RegisterCall) : Handler Unit := do
  refuseIfLimited call.clientIp call.now
  Tx.done (checkRegistration env call)

/-- The rest of `register`. -/
def registerFinish (env : AccountEnv) (call : RegisterCall) : Handler (User × Bool) := do
  let passwordHash ← Tx.done ((env.hashPassword call.salt call.password).mapError .internal)
  let approvalRequired ← onDb isApprovalRequired
  let maxUsers ← onDb (effectiveMaxUsers env.maxUsers)
  let user ← onDb (createUser {
    id := call.newId
    username := call.username
    email := env.names.unicode.toLowercase call.email
    passwordHash := passwordHash
    role := "user"
    deviceAuthPubkey := none
    isApproved := !approvalRequired } maxUsers)
  onDb (recordTermsAcceptance user.id call.acceptedTermsVersion)
  recordRegistration call.clientIp call.recordedAt
  pure (user, approvalRequired)

theorem register_eq (env : AccountEnv) (call : RegisterCall) :
    register env call = registerStart env call >>= fun _ => registerFinish env call := by
  rw [registerStart, Tx.bind_assoc]
  rfl

/-- The end of `device_login`: tokens for the account, if it need not be approved first. -/
def finishDeviceLogin (env : AccountEnv) (call : DeviceLoginCall) :
    Option User → Handler (Option TokenResponse)
  | none => pure none
  | some user => do
    onDb (recordTermsAcceptance user.id call.acceptedTermsVersion)
    let tokens ← onDb (mintTokens env.tokens user.id user.role call.family call.minting)
    pure (some tokens)

/-- `device_login` until a password is hashed; a known device gets its answer at once. -/
def deviceLoginStart (env : AccountEnv) (call : DeviceLoginCall) :
    Handler (Option (Option TokenResponse)) := do
  Tx.done (checkDevice env call)
  let found ← onDb (findByDeviceAuthPubkey (trim call.deviceAuthPubkey))
  match found with
  | some existing => do
    let user ← Tx.done (admitted existing)
    let answer ← finishDeviceLogin env call (some user)
    pure (some answer)
  | none => do
    refuseIfLimited call.clientIp call.now
    pure none

def createDevice (env : AccountEnv) (call : DeviceLoginCall) : Handler (Option User) := do
  let passwordHash ←
    Tx.done ((env.hashPassword call.salt (uuidString call.password)).mapError .internal)
  let approvalRequired ← onDb isApprovalRequired
  let maxUsers ← onDb (effectiveMaxUsers env.maxUsers)
  let created ← Tx.attempt
    (onDb (createUser (newDeviceUser env call passwordHash approvalRequired) maxUsers))
  match created with
  | .ok created => do
    recordRegistration call.clientIp call.recordedAt
    pure (if approvalRequired then none else some created)
  | .error (.conflict _) => do
    let found ← onDb (findByDeviceAuthPubkey (trim call.deviceAuthPubkey))
    let existing ← Tx.okOr .unauthorized found
    let user ← Tx.done (admitted existing)
    pure (some user)
  | .error other => throw other

/-- The rest of `device_login`. -/
def deviceLoginFinish (env : AccountEnv) (call : DeviceLoginCall) :
    Handler (Option TokenResponse) := do
  let user ← createDevice env call
  finishDeviceLogin env call user

theorem deviceLogin_tail (env : AccountEnv) (call : DeviceLoginCall) :
    deviceLogin env call = Tx.done (checkDevice env call) >>= fun _ =>
      onDb (findByDeviceAuthPubkey (trim call.deviceAuthPubkey)) >>= fun found =>
        deviceUser env call found >>= finishDeviceLogin env call := by
  rw [deviceLogin]
  rfl

theorem deviceLogin_eq (env : AccountEnv) (call : DeviceLoginCall) :
    deviceLogin env call = deviceLoginStart env call >>= fun answer =>
      match answer with
      | some answer => pure answer
      | none => deviceLoginFinish env call := by
  rw [deviceLogin_tail, deviceLoginStart, Tx.bind_assoc]
  congr 1
  funext _
  rw [Tx.bind_assoc]
  congr 1
  funext found
  cases found with
  | none =>
    change registerDevice env call >>= finishDeviceLogin env call =
      (refuseIfLimited call.clientIp call.now >>= fun _ => pure none) >>= _
    conv_rhs => rw [Tx.bind_assoc]
    rw [registerDevice, Tx.bind_assoc]
    rfl
  | some existing =>
    change (Tx.done (admitted existing) >>= fun user => pure (some user)) >>=
      finishDeviceLogin env call = (Tx.done (admitted existing) >>= fun user =>
        finishDeviceLogin env call (some user) >>= fun answer => pure (some answer)) >>= _
    rw [Tx.bind_assoc, Tx.bind_assoc]
    congr 1
    funext user
    rw [Tx.bind_assoc]
    exact (Tx.bind_pure _).symm

inductive Applicant where
  | register (call : RegisterCall)
  | deviceLogin (call : DeviceLoginCall)
deriving DecidableEq, Repr

namespace Applicant

def clientIp : Applicant → String
  | .register call => call.clientIp
  | .deviceLogin call => call.clientIp

/-- What the clock shows when the limiter is asked. -/
def asksAt (now : Int) : Applicant → Applicant
  | .register call => .register { call with now := now }
  | .deviceLogin call => .deviceLogin { call with now := now }

/-- What the clock shows when the limiter is told. -/
def tellsAt (now : Int) : Applicant → Applicant
  | .register call => .register { call with recordedAt := now }
  | .deviceLogin call => .deviceLogin { call with recordedAt := now }

@[simp] theorem clientIp_asksAt (a : Applicant) (now : Int) :
    (a.asksAt now).clientIp = a.clientIp := by
  cases a <;> rfl

@[simp] theorem clientIp_tellsAt (a : Applicant) (now : Int) :
    (a.tellsAt now).clientIp = a.clientIp := by
  cases a <;> rfl

/-- The handler. -/
def serve (env : AccountEnv) : Applicant → Handler Unit
  | .register call => Accounts.register env call >>= fun _ => pure ()
  | .deviceLogin call => Accounts.deviceLogin env call >>= fun _ => pure ()

/-- The handler until the password is hashed; the answer is whether it is. -/
def start (env : AccountEnv) : Applicant → Handler Bool
  | .register call => registerStart env call >>= fun _ => pure true
  | .deviceLogin call => deviceLoginStart env call >>= fun answer => pure answer.isNone

def finish (env : AccountEnv) : Applicant → Handler Unit
  | .register call => registerFinish env call >>= fun _ => pure ()
  | .deviceLogin call => deviceLoginFinish env call >>= fun _ => pure ()

theorem serve_eq (env : AccountEnv) (a : Applicant) :
    a.serve env = a.start env >>= fun goesOn => if goesOn then a.finish env else pure () := by
  cases a with
  | register call =>
    change Accounts.register env call >>= _ = (registerStart env call >>= _) >>= _
    rw [register_eq, Tx.bind_assoc, Tx.bind_assoc]
    rfl
  | deviceLogin call =>
    change Accounts.deviceLogin env call >>= _ = (deviceLoginStart env call >>= _) >>= _
    rw [deviceLogin_eq, Tx.bind_assoc, Tx.bind_assoc]
    congr 1
    funext answer
    cases answer <;> rfl

def Eligible (env : AccountEnv) (s : Server) : Applicant → Prop
  | .register call => checkRegistration env call = .ok ()
  | .deviceLogin call => checkDevice env call = .ok () ∧
      s.db.users.rows.find? (fun r => r.deviceAuthPubkey = some (trim call.deviceAuthPubkey)) = none

end Applicant

/-! ## The limiter -/

def timesOf (ip : String) (l : List (String × Int)) : List Int :=
  (l.filter (fun e => e.1 = ip)).map Prod.snd

/-- What the limiter keeps when it is asked about `ip`. -/
def keptRegistrations (ip : String) (now : Int) (l : List (String × Int)) : List (String × Int) :=
  l.filter (fun e => e.1 ≠ ip || now - e.2 < 3600)

theorem timesOf_append (ip : String) (l l' : List (String × Int)) :
    timesOf ip (l ++ l') = timesOf ip l ++ timesOf ip l' := by
  simp [timesOf]

theorem timesOf_singleton (ip : String) (e : String × Int) :
    timesOf ip [e] = if e.1 = ip then [e.2] else [] := by
  by_cases h : e.1 = ip <;> simp [timesOf, h]

theorem countAfter_keptRegistrations {x now : Int} (h : now - 3600 ≤ x) (ip ip' : String)
    (l : List (String × Int)) :
    countAfter x (timesOf ip (keptRegistrations ip' now l)) = countAfter x (timesOf ip l) := by
  rw [countAfter, countAfter, timesOf, timesOf, keptRegistrations, List.filter_filter,
    List.countP_map, List.countP_map, List.countP_filter, List.countP_filter]
  apply List.countP_congr
  intro e _
  simp only [Function.comp_apply, Bool.and_eq_true, decide_eq_true_eq, Bool.or_eq_true]
  constructor
  · exact fun he => ⟨he.1, he.2.1⟩
  · exact fun he => ⟨he.1, he.2, .inr (by omega)⟩

theorem countP_keptRegistrations (ip : String) (now : Int) (l : List (String × Int)) :
    (keptRegistrations ip now l).countP (fun e => e.1 = ip) =
      countAfter (now - 3600) (timesOf ip l) := by
  rw [keptRegistrations, List.countP_filter, countAfter, timesOf, List.countP_map,
    List.countP_filter]
  apply List.countP_congr
  intro e _
  simp only [Function.comp_apply, Bool.and_eq_true, decide_eq_true_eq, Bool.or_eq_true]
  constructor
  · rintro ⟨he, hne | ht⟩
    · exact absurd he hne
    · exact ⟨by omega, he⟩
  · exact fun he => ⟨he.2, .inr (by omega)⟩

theorem run_refuseIfLimited (ip : String) (now : Int) (s : Server) :
    ∃ r, (refuseIfLimited ip now).run s =
        (r, { s with registrations := keptRegistrations ip now s.registrations }) ∧
      (r = .ok () ↔
        countAfter (now - 3600) (timesOf ip s.registrations) < registrationMaxPerHour) := by
  have hask : (isRegistrationRateLimited ip now).run s =
      (.ok (decide (registrationMaxPerHour ≤
          (keptRegistrations ip now s.registrations).countP (fun e => e.1 = ip))),
        { s with registrations := keptRegistrations ip now s.registrations }) := rfl
  rw [countP_keptRegistrations] at hask
  rw [refuseIfLimited, Tx.run_bind_ok hask]
  by_cases h : registrationMaxPerHour ≤ countAfter (now - 3600) (timesOf ip s.registrations)
  · refine ⟨.error (.tooManyRequests "Too many accounts created from this IP. Try again later."),
      ?_, ?_⟩
    · simp [h]
    · simp [h]
  · exact ⟨.ok (), by simp [h], by simpa using Nat.lt_of_not_le h⟩

/-- The accounts are the same, and so is what the limiter counts from `now` on. -/
structure SameCounts (now : Int) (s s' : Server) : Prop where
  users : s'.db.users = s.db.users
  counts : ∀ ip x, now - 3600 ≤ x →
    countAfter x (timesOf ip s'.registrations) = countAfter x (timesOf ip s.registrations)

theorem SameCounts.refl (now : Int) (s : Server) : SameCounts now s s := ⟨rfl, fun _ _ _ => rfl⟩

theorem SameCounts.trans {now : Int} {s s' s'' : Server} (h : SameCounts now s s')
    (h' : SameCounts now s' s'') : SameCounts now s s'' :=
  ⟨h'.users.trans h.users, fun ip x hx => (h'.counts ip x hx).trans (h.counts ip x hx)⟩

theorem writes_onDb_sameCounts {α : Type} {q : Query α} (h : q.Keeps Db.users) (now : Int) :
    (onDb q).Writes (fun w => ∀ s, SameCounts now s (w s)) :=
  Tx.writes_onPart (fun _ hw (s : Server) => ⟨hw s.db, fun _ _ _ => rfl⟩) h

theorem sameCounts_refuseIfLimited (ip : String) (now : Int) :
    (refuseIfLimited ip now).Writes (fun w => ∀ s, SameCounts now s (w s)) := by
  apply Tx.writes_bind
  · exact Tx.writes_exec (fun s => ⟨rfl, fun ip' x hx =>
      countAfter_keptRegistrations hx ip' ip s.registrations⟩) _
  · intro limited
    split <;> trivial

theorem keeps_users_finishDeviceLogin (env : AccountEnv) (call : DeviceLoginCall) (now : Int)
    (user : Option User) :
    (finishDeviceLogin env call user).Writes (fun w => ∀ s, SameCounts now s (w s)) := by
  cases user with
  | none => trivial
  | some user =>
    apply Tx.writes_bind (writes_onDb_sameCounts (keeps_recordTermsAcceptance _ _) now)
    intro _
    apply Tx.writes_bind
      (writes_onDb_sameCounts (keeps_mintTokens (fun _ _ => rfl) _ _ _ _ _) now)
    exact fun _ => trivial

namespace Applicant

def askedAt : Applicant → Int
  | .register call => call.now
  | .deviceLogin call => call.now

def toldAt : Applicant → Int
  | .register call => call.recordedAt
  | .deviceLogin call => call.recordedAt

@[simp] theorem askedAt_asksAt (a : Applicant) (now : Int) : (a.asksAt now).askedAt = now := by
  cases a <;> rfl

@[simp] theorem toldAt_tellsAt (a : Applicant) (now : Int) : (a.tellsAt now).toldAt = now := by
  cases a <;> rfl

section
-- what a request writes is read off its statements, without running it
attribute [local irreducible] Tx.Writes

theorem sameCounts_start (env : AccountEnv) (a : Applicant) (s : Server) :
    SameCounts a.askedAt s ((a.start env).run s).2 := by
  refine Tx.Writes.rel (SameCounts.refl _) SameCounts.trans ?_ s
  cases a with
  | register call =>
    refine Tx.writes_bind ?_ (fun _ => Tx.writes_done _ _)
    exact Tx.writes_bind (sameCounts_refuseIfLimited _ _) (fun _ => Tx.writes_done _ _)
  | deviceLogin call =>
    refine Tx.writes_bind ?_ (fun _ => Tx.writes_done _ _)
    refine Tx.writes_bind (Tx.writes_done _ _) (fun _ => ?_)
    refine Tx.writes_bind (writes_onDb_sameCounts (Tx.keeps_query _ _) _) (fun found => ?_)
    cases found with
    | none =>
      exact Tx.writes_bind (sameCounts_refuseIfLimited _ _) (fun _ => Tx.writes_done _ _)
    | some existing =>
      refine Tx.writes_bind (Tx.writes_done _ _) (fun user => ?_)
      exact Tx.writes_bind (keeps_users_finishDeviceLogin env call _ _)
        (fun _ => Tx.writes_done _ _)

end

theorem run_refuseIfLimited_ok {ip : String} {now : Int} {s s' : Server}
    (h : (refuseIfLimited ip now).run s = (.ok (), s')) :
    countAfter (now - 3600) (timesOf ip s.registrations) < registrationMaxPerHour := by
  obtain ⟨r, hrun, hr⟩ := run_refuseIfLimited ip now s
  rw [hrun] at h
  cases h
  exact hr.mp rfl

/-- A password is hashed only if nothing turns the request away. -/
theorem run_start_ok {env : AccountEnv} {a : Applicant} {s s' : Server}
    (h : (a.start env).run s = (.ok true, s')) :
    a.Eligible env s ∧
      countAfter (a.askedAt - 3600) (timesOf a.clientIp s.registrations) <
        registrationMaxPerHour := by
  cases a with
  | register call =>
    obtain ⟨⟨⟩, s₁, hstart, -⟩ := Tx.run_bind_eq_ok h
    obtain ⟨⟨⟩, s₂, hlimit, hcheck⟩ := Tx.run_bind_eq_ok hstart
    rw [Tx.run_done, Prod.mk.injEq] at hcheck
    exact ⟨hcheck.1, run_refuseIfLimited_ok hlimit⟩
  | deviceLogin call =>
    obtain ⟨answer, s₁, hstart, hanswer⟩ := Tx.run_bind_eq_ok h
    obtain ⟨⟨⟩, s₂, hcheck, hrest⟩ := Tx.run_bind_eq_ok hstart
    rw [Tx.run_done, Prod.mk.injEq] at hcheck
    obtain ⟨hcheck, rfl⟩ := hcheck
    have hfind : (onDb (findByDeviceAuthPubkey (trim call.deviceAuthPubkey))).run s =
      (.ok (s.db.users.rows.find?
        (fun r => r.deviceAuthPubkey = some (trim call.deviceAuthPubkey))), s) := run_onDb_read rfl
    rw [Tx.run_bind_ok hfind] at hrest
    rcases hfound : s.db.users.rows.find?
        (fun r => r.deviceAuthPubkey = some (trim call.deviceAuthPubkey)) with _ | existing
    · rw [hfound] at hrest
      obtain ⟨⟨⟩, s₃, hlimit, -⟩ := Tx.run_bind_eq_ok hrest
      exact ⟨⟨hcheck, hfound⟩, run_refuseIfLimited_ok hlimit⟩
    · rw [hfound] at hrest
      obtain ⟨user, s₃, -, hrest⟩ := Tx.run_bind_eq_ok hrest
      obtain ⟨tokens, s₄, -, hpure⟩ := Tx.run_bind_eq_ok hrest
      cases hpure
      cases hanswer

def Settles (a : Applicant) (s s' : Server) : Prop :=
  s'.db.users = s.db.users ∧ s'.registrations = s.registrations ∨
    ∃ row, s.db.users.insert row = some s'.db.users ∧
      s'.registrations = s.registrations ++ [(a.clientIp, a.toldAt)]

end Applicant

theorem run_recordTermsAcceptance {user : User} {s : Db} (h : s.users.get user.id = some user)
    (accepted : Option Int) : (recordTermsAcceptance user.id accepted).run s = (.ok (), s) := by
  rw [recordTermsAcceptance]
  split
  · have hfind : (findById user.id).run s = (.ok (some user), s) := by
      rw [findById, Tx.run_query, h]
    rw [Tx.run_bind_ok hfind]
    rfl
  · rfl

theorem settles_registerFinish (env : AccountEnv) (call : RegisterCall) (s : Server) :
    (Applicant.register call).Settles s ((registerFinish env call).run s).2 := by
  rw [registerFinish]
  rcases (env.hashPassword call.salt call.password).mapError AppError.internal with e | hash
  · exact .inl ⟨rfl, rfl⟩
  rw [Tx.run_bind_ok (Tx.run_done (.ok hash) s), isApprovalRequired,
    Tx.run_bind_ok (run_onDb_read (Tx.run_query _ _)), effectiveMaxUsers,
    Tx.run_bind_ok (run_onDb_read (Tx.run_query _ _))]
  rcases run_createUser_cases _ _ s.db with ⟨e, he⟩ | ⟨t, hinsert, hok⟩
  · rw [Tx.run_bind_error (run_onDb_read he)]
    exact .inl ⟨rfl, rfl⟩
  · rw [Tx.run_bind_ok (run_onDb_eq hok)]
    rw [Tx.run_bind_ok
      (run_onDb_read (run_recordTermsAcceptance (Table.get_insert_self hinsert) _))]
    exact .inr ⟨_, hinsert, rfl⟩

def accountsAndLimiter (s : Server) : Table Uuid User User.id × List (String × Int) :=
  (s.db.users, s.registrations)

theorem keeps_onDb_accountsAndLimiter {α : Type} {q : Query α} (h : q.Keeps Db.users) :
    (onDb q).Keeps accountsAndLimiter :=
  Tx.writes_onPart (fun _ hw (s : Server) => congrArg (·, s.registrations) (hw s.db)) h

theorem Applicant.Settles.of_eq {a : Applicant} {s s' s'' : Server} (h : a.Settles s s')
    (heq : accountsAndLimiter s'' = accountsAndLimiter s') : a.Settles s s'' := by
  obtain ⟨husers, hreg⟩ := Prod.mk.inj heq
  unfold Applicant.Settles
  rw [husers, hreg]
  exact h

theorem settles_createDevice (env : AccountEnv) (call : DeviceLoginCall) (s : Server) :
    (Applicant.deviceLogin call).Settles s ((createDevice env call).run s).2 := by
  rw [createDevice]
  rcases (env.hashPassword call.salt (uuidString call.password)).mapError AppError.internal
    with e | hash
  · exact .inl ⟨rfl, rfl⟩
  rw [Tx.run_bind_ok (Tx.run_done (.ok hash) s), isApprovalRequired,
    Tx.run_bind_ok (run_onDb_read (Tx.run_query _ _)), effectiveMaxUsers,
    Tx.run_bind_ok (run_onDb_read (Tx.run_query _ _)), Tx.run_bind_ok (Tx.run_attempt _ _)]
  rcases run_createUser_cases _ _ s.db with ⟨e, he⟩ | ⟨t, hinsert, hok⟩
  · rw [run_onDb_read he]
    have hsame : (Applicant.deviceLogin call).Settles s s := .inl ⟨rfl, rfl⟩
    dsimp only
    split
    · contradiction
    · refine hsame.of_eq (Tx.Keeps.run ?_ s)
      apply Tx.keeps_bind (keeps_onDb_accountsAndLimiter (Tx.keeps_query _ _))
      intro found
      apply Tx.keeps_bind (Tx.keeps_okOr _ _ found)
      intro existing
      exact Tx.keeps_bind (Tx.keeps_done _ _) (fun _ => Tx.keeps_pure _ _)
    · exact hsame
  · rw [run_onDb_eq hok]
    exact .inr ⟨_, hinsert, rfl⟩

theorem Applicant.settles_finish (env : AccountEnv) (a : Applicant) (s : Server) :
    a.Settles s ((a.finish env).run s).2 := by
  cases a with
  | register call =>
    refine (settles_registerFinish env call s).of_eq (Tx.run_bind_keeps _ ?_ s)
    exact fun _ => Tx.keeps_pure _ _
  | deviceLogin call =>
    refine (settles_createDevice env call s).of_eq
      ((Tx.run_bind_keeps _ (fun _ => Tx.keeps_pure _ _) s).trans (Tx.run_bind_keeps _ ?_ s))
    intro user
    cases user with
    | none => trivial
    | some user =>
      apply Tx.keeps_bind (keeps_onDb_accountsAndLimiter (keeps_recordTermsAcceptance _ _))
      intro _
      apply Tx.keeps_bind
        (keeps_onDb_accountsAndLimiter (keeps_mintTokens (fun _ _ => rfl) _ _ _ _ _))
      exact fun _ => Tx.keeps_pure _ _

/-! ## Interleaved requests -/

/-- A server whose clock shows `now`, the requests that wait for a hash, and when accounts were
created from which address. -/
structure Registering where
  server : Server
  now : Int
  hashing : List Applicant
  created : List (String × Int)

/-- The clock goes on, a request arrives, or one of those that wait is finished, which takes
some seconds. -/
inductive Move where
  | tick (seconds : Nat)
  | arrive (a : Applicant)
  | resume (i seconds : Nat)

namespace Registering

def accounts (s : Registering) : Nat := s.server.db.users.rows.length

def arrive (env : AccountEnv) (s : Registering) (a : Applicant) : Registering :=
  match ((a.asksAt s.now).start env).run s.server with
  | (.ok true, server) => { s with server := server, hashing := s.hashing ++ [a.asksAt s.now] }
  | (_, server) => { s with server := server }

/-- Every new account is noted, with the time before it was created. -/
def resume (env : AccountEnv) (s : Registering) (i seconds : Nat) : Registering :=
  match s.hashing[i]? with
  | none => s
  | some a =>
    let server := (((a.tellsAt (s.now + seconds)).finish env).run s.server).2
    { server := server
      now := s.now + seconds
      hashing := s.hashing.eraseIdx i
      created := s.created ++
        List.replicate (server.db.users.rows.length - s.accounts) (a.clientIp, s.now) }

def step (env : AccountEnv) (s : Registering) : Move → Registering
  | .tick seconds => { s with now := s.now + seconds }
  | .arrive a => s.arrive env a
  | .resume i seconds => s.resume env i seconds

/-- No request waits yet. -/
def fresh (server : Server) (now : Int) : Registering := ⟨server, now, [], []⟩

/-- The requests from `ip` that wait for a hash. -/
def waiting (ip : String) (s : Registering) : Nat :=
  s.hashing.countP (fun a => a.clientIp = ip)

/-- What the limiter knows of the last hour. -/
def recorded (ip : String) (s : Registering) : Nat :=
  countAfter (s.now - 3600) (timesOf ip s.server.registrations)

/-- In no window of an hour are there more new accounts from `ip` than the limit. -/
def WithinLimit (ip : String) (s : Registering) : Prop :=
  ∀ t, countWithin t 3600 (timesOf ip s.created) ≤ registrationMaxPerHour

/-- A request that the limiter lets through is within the limit even if all requests that wait
create accounts. -/
def NotOutrun (env : AccountEnv) (ip : String) (s : Registering) : Move → Prop
  | .arrive a => a.clientIp = ip → a.Eligible env s.server →
      s.recorded ip < registrationMaxPerHour → s.recorded ip + s.waiting ip < registrationMaxPerHour
  | _ => True

/-- The limiter knows of all accounts of the last hour, and with those that wait they are
within the limit. -/
structure Limited (ip : String) (s : Registering) : Prop where
  known : ∀ x, s.now - 3600 ≤ x →
    countAfter x (timesOf ip s.created) ≤ countAfter x (timesOf ip s.server.registrations)
  pending : countAfter (s.now - 3600) (timesOf ip s.created) + s.waiting ip ≤
    registrationMaxPerHour
  within : s.WithinLimit ip

theorem limited_fresh (ip : String) (server : Server) (now : Int) :
    Limited ip (fresh server now) where
  known _ _ := Nat.zero_le _
  pending := Nat.zero_le _
  within _ := Nat.zero_le _

theorem Limited.tick {ip : String} {s : Registering} (h : Limited ip s) (seconds : Nat) :
    Limited ip { s with now := s.now + seconds } where
  known x hx := h.known x (by dsimp only at hx; omega)
  pending := by
    have hle := countAfter_anti (x := s.now - 3600) (y := s.now + seconds - 3600) (by omega)
      (timesOf ip s.created)
    have hp := h.pending
    unfold waiting at hp ⊢
    dsimp only
    omega
  within := h.within

theorem Limited.of_sameCounts {ip : String} {s s' : Registering} (h : Limited ip s)
    (hserver : SameCounts s.now s.server s'.server) (hnow : s'.now = s.now)
    (hcreated : s'.created = s.created)
    (hwaiting : countAfter (s.now - 3600) (timesOf ip s.created) + s'.waiting ip ≤
      registrationMaxPerHour) : Limited ip s' where
  known x hx := by
    rw [hnow] at hx
    rw [hcreated, hserver.counts ip x hx]
    exact h.known x hx
  pending := by
    rw [hnow, hcreated]
    exact hwaiting
  within := by
    unfold WithinLimit
    rw [hcreated]
    exact h.within

theorem eligible_asksAt {env : AccountEnv} {a : Applicant} {server : Server} {now : Int} :
    (a.asksAt now).Eligible env server ↔ a.Eligible env server := by
  cases a <;> rfl

theorem Limited.arrive {env : AccountEnv} {ip : String} {s : Registering} {a : Applicant}
    (h : Limited ip s) (hc : NotOutrun env ip s (.arrive a)) : Limited ip (s.arrive env a) := by
  have hsame := (a.asksAt s.now).sameCounts_start env s.server
  rw [Applicant.askedAt_asksAt] at hsame
  unfold Registering.arrive
  split
  · rename_i server hrun
    obtain ⟨heligible, hlet⟩ := Applicant.run_start_ok hrun
    rw [Applicant.askedAt_asksAt, Applicant.clientIp_asksAt] at hlet
    rw [hrun] at hsame
    refine h.of_sameCounts hsame rfl rfl ?_
    by_cases hip : a.clientIp = ip
    · subst hip
      have hroom := hc rfl (eligible_asksAt.mp heligible) hlet
      have hknown := h.known (s.now - 3600) le_rfl
      unfold recorded at hroom
      simp only [waiting, List.countP_append, List.countP_singleton, Applicant.clientIp_asksAt,
        decide_true, if_true] at hroom ⊢
      omega
    · have hp := h.pending
      simpa [waiting, List.countP_append, hip] using hp
  · rename_i hrun
    rw [hrun] at hsame
    exact h.of_sameCounts hsame rfl rfl h.pending

/-- A request that waited creates an account, and then the limiter is told. -/
theorem Limited.create {ip : String} {s s' : Registering} {c : String} {seconds : Nat}
    (h : Limited ip s) (hnow : s'.now = s.now + seconds)
    (hregistrations : s'.server.registrations =
      s.server.registrations ++ [(c, s.now + seconds)])
    (hcreated : s'.created = s.created ++ [(c, s.now)])
    (hwaiting : s'.waiting ip + (if c = ip then 1 else 0) = s.waiting ip) : Limited ip s' := by
  have hle := countAfter_anti (x := s.now - 3600) (y := s.now + seconds - 3600) (by omega)
    (timesOf ip s.created)
  have hp := h.pending
  by_cases hc : c = ip
  · subst hc
    rw [if_pos rfl] at hwaiting
    have htimes : timesOf c s'.created = timesOf c s.created ++ [s.now] := by
      rw [hcreated, timesOf_append, timesOf_singleton, if_pos rfl]
    have htold : timesOf c s'.server.registrations =
        timesOf c s.server.registrations ++ [s.now + seconds] := by
      rw [hregistrations, timesOf_append, timesOf_singleton, if_pos rfl]
    refine ⟨fun x hx => ?_, ?_, ?_⟩
    · rw [hnow] at hx
      have hknown := h.known x (by omega)
      rw [htimes, htold, countAfter_snoc, countAfter_snoc]
      split <;> split <;> omega
    · rw [htimes, hnow, countAfter_snoc]
      split <;> omega
    · unfold WithinLimit
      rw [htimes]
      apply countWithin_snoc h.within
      rw [countAfter_snoc, if_pos (by omega)]
      omega
  · rw [if_neg hc] at hwaiting
    have htimes : timesOf ip s'.created = timesOf ip s.created := by
      rw [hcreated, timesOf_append, timesOf_singleton, if_neg hc, List.append_nil]
    have htold : timesOf ip s'.server.registrations = timesOf ip s.server.registrations := by
      rw [hregistrations, timesOf_append, timesOf_singleton, if_neg hc, List.append_nil]
    refine ⟨fun x hx => ?_, ?_, ?_⟩
    · rw [htimes, htold]
      exact h.known x (by omega)
    · rw [htimes, hnow]
      omega
    · unfold WithinLimit
      rw [htimes]
      exact h.within

theorem Limited.resume {ip : String} {s : Registering} (h : Limited ip s) (env : AccountEnv)
    (i seconds : Nat) : Limited ip (s.resume env i seconds) := by
  unfold Registering.resume
  split
  · exact h
  · rename_i a ha
    have hwaiting := countP_eraseIdx ha (fun a => a.clientIp = ip)
    simp only [decide_eq_true_eq] at hwaiting
    have hsettles := (a.tellsAt (s.now + seconds)).settles_finish env s.server
    generalize (((a.tellsAt (s.now + seconds)).finish env).run s.server).2 = server at hsettles
    rcases hsettles with ⟨husers, hreg⟩ | ⟨row, hinsert, hreg⟩
    · refine (h.tick seconds).of_sameCounts ⟨husers, fun _ _ _ => by rw [hreg]⟩ rfl ?_ ?_
      · simp [accounts, husers]
      · have hp := (h.tick seconds).pending
        dsimp only [waiting] at hp ⊢
        omega
    · have hrows : server.db.users.rows.length - s.accounts = 1 := by
        simp [accounts, Table.rows_of_insert hinsert]
      rw [Applicant.clientIp_tellsAt, Applicant.toldAt_tellsAt] at hreg
      refine h.create rfl hreg ?_ hwaiting
      dsimp only
      rw [hrows]
      rfl

/-- If the limiter is never outrun, no window of an hour has more new accounts from an address
than the limit, however the requests are interleaved. -/
theorem withinLimit_of_notOutrun (env : AccountEnv) (server : Server) (now : Int) (ip : String)
    (moves : List Move) (h : Along (step env) (NotOutrun env ip) (fresh server now) moves) :
    (moves.foldl (step env) (fresh server now)).WithinLimit ip := by
  refine (h.foldl (P := Limited ip) (limited_fresh ip server now) (fun s m hs hc => ?_)).within
  cases m with
  | tick seconds => exact hs.tick seconds
  | arrive a => exact hs.arrive hc
  | resume i seconds => exact hs.resume env i seconds

end Registering

/-! ## Samples -/

/-- A person at one address registers the `n`-th account. -/
def sampleApplicant (n : Nat) : Applicant :=
  .register ⟨"user" ++ toString n, "user" ++ toString n ++ "@example.org", "correct horse", none,
    none, "192.0.2.1", 0, 0, n, "abcdefghijklmnopqrstuu"⟩

/-- One account is finished before the next is asked for. -/
theorem withinLimit_of_notOutrun_two :
    ([.arrive (sampleApplicant 1), .resume 0 2, .tick 60, .arrive (sampleApplicant 2),
      .resume 0 1].foldl (Registering.step sampleAccountEnv)
        (.fresh newServer 1000)).WithinLimit "192.0.2.1" :=
  Registering.withinLimit_of_notOutrun sampleAccountEnv newServer 1000 "192.0.2.1"
    [.arrive (sampleApplicant 1), .resume 0 2, .tick 60, .arrive (sampleApplicant 2), .resume 0 1]
    ⟨fun _ _ _ => by decide, trivial, trivial, fun _ _ _ => by decide +kernel, trivial, trivial⟩

/-- Six requests pass the limiter before any of them has created its account. -/
theorem six_accounts_registered_at_once :
    ¬ (([1, 2, 3, 4, 5, 6].map (fun n => Move.arrive (sampleApplicant n)) ++
      List.replicate 6 (Move.resume 0 1)).foldl (Registering.step sampleAccountEnv)
        (.fresh newServer 1000)).WithinLimit "192.0.2.1" := by
  intro h
  exact absurd (h 1000) (by decide +kernel)

end SyncServer.Accounts
