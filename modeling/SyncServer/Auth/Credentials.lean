import SyncServer.Accounts.Creation
import SyncServer.Auth.PasswordReset
import SyncServer.Auth.Suspension

/-! # Email addresses and passwords

Registration stores the address in lower case and the password as it is, and the login looks for
them in the same form. A link is looked for by the address without white space at its ends, and
the white space around a new password is dropped, which the login does with neither.
-/

namespace SyncServer.Auth
open Transaction Accounts

/-- A password is verified exactly if it is the one that was hashed. -/
def ExactPasswords (env : AuthEnv) : Prop :=
  ∀ salt password hash, env.hashPassword salt password = .ok hash →
    ∀ given, env.verifyPassword given hash = .ok (decide (given = password))

/-- The address is that of an active and approved account. -/
structure Reachable (users : Table Uuid User User.id) (email : String) (user : User) : Prop where
  found : users.rows.find? (fun r => r.email = email && r.isActive) = some user
  get : users.get user.id = some user
  approved : user.isApproved = true

def LoginCall.withCredentials (call : LoginCall) (email password : String) : LoginCall :=
  { call with email := email, password := password }

def ForgotCall.withEmail (call : ForgotCall) (email : String) : ForgotCall :=
  { call with email := email }

/-- Nothing but the password is in the way of a login. -/
structure Issuable (env : AuthEnv) (call : LoginCall) (user : User) (d : Db) : Prop where
  altcha : checkAltcha env.toAccountEnv call.altchaPayload = .ok ()
  access : ∃ token, accessTokenFor env.tokens user.id user.role call.minting = .ok token
  freshId : d.refreshTokens.get call.minting.newId = none
  freshHash : tokenByHash (env.tokens.hashToken call.minting.newRefreshToken) d = none

section
variable {env : AuthEnv} {call : LoginCall} {user : User} {d : Db}

theorem Issuable.withCredentials (h : Issuable env call user d) (email password : String) :
    Issuable env (call.withCredentials email password) user d :=
  ⟨h.altcha, h.access, h.freshId, h.freshHash⟩

theorem Issuable.withHash (h : Issuable env call user d) (hash : String) {d' : Db}
    (hd' : d'.refreshTokens = d.refreshTokens) : Issuable env call (withHash hash user) d' := by
  refine ⟨h.altcha, h.access, ?_, ?_⟩
  · rw [hd']
    exact h.freshId
  · rw [tokenByHash, hd']
    exact h.freshHash

theorem succeeds_mintTokens (h : Issuable env call user d) (huser : d.userExists user.id) :
    (mintTokens env.tokens user.id user.role call.family call.minting).Succeeds d := by
  obtain ⟨token, htoken⟩ := h.access
  obtain ⟨t, hinsert⟩ : ∃ t, d.refreshTokens.insert
      (mintedToken env.tokens user.id call.family call.minting) = some t := by
    rw [← Option.isSome_iff_exists, Option.isSome_iff_ne_none, ne_eq, Table.insert_eq_none]
    have : d.refreshTokens.get (mintedToken env.tokens user.id call.family call.minting).id = none :=
      h.freshId
    simp [this]
  have hadd : addToken (mintedToken env.tokens user.id call.family call.minting) d =
      .ok ((), { d with refreshTokens := t }) := by
    rw [addToken, hinsert]
    dsimp only
    rw [if_neg (by simp [mintedToken, h.freshHash]), if_pos]
    exact huser
  rw [mintTokens, htoken, Tx.succeeds_done_bind]
  refine ⟨token, rfl, Tx.succeeds_bind.mpr ⟨(), { d with refreshTokens := t }, ?_, ?_⟩⟩
  · exact Query.run_exec_ok.mpr hadd
  · exact Tx.succeeds_pure _ _

theorem succeeds_login (h : Reachable d.users (env.names.unicode.toLowercase call.email) user)
    (hissue : Issuable env call user d) : (login env call).Succeeds d ↔
      env.verifyPassword call.password user.passwordHash = .ok true := by
  have huser : d.userExists user.id := by
    rw [Db.userExists, h.get]
    rfl
  have hrest : ((recordTermsAcceptance user.id call.acceptedTermsVersion >>= fun _ =>
      mintTokens env.tokens user.id user.role call.family call.minting) : Query _).Succeeds d := by
    rw [Tx.succeeds_bind]
    exact ⟨(), d, run_recordTermsAcceptance h.get _, succeeds_mintTokens hissue huser⟩
  have hcheck : checkPassword env call user = .ok () ↔
      env.verifyPassword call.password user.passwordHash = .ok true := by
    rw [checkPassword, hissue.altcha, h.approved]
    rcases env.verifyPassword call.password user.passwordHash with e | ⟨_ | _⟩ <;> simp
  rw [login, findByEmail, Tx.succeeds_query_bind, h.found, Tx.succeeds_okOr_bind]
  constructor
  · rintro ⟨found, hfound, hlogin⟩
    cases hfound
    obtain ⟨⟨⟩, hok, -⟩ := Tx.succeeds_done_bind.mp hlogin
    exact hcheck.mp hok
  · intro hok
    exact ⟨user, rfl, Tx.succeeds_done_bind.mpr ⟨(), hcheck.mpr hok, hrest⟩⟩

theorem succeeds_login_as {email password : String}
    (h : Reachable d.users (env.names.unicode.toLowercase email) user)
    (hissue : Issuable env call user d) :
    (login env (call.withCredentials email password)).Succeeds d ↔
      env.verifyPassword password user.passwordHash = .ok true :=
  succeeds_login h (hissue.withCredentials email password)

end

/-- An account that was registered and is approved can be reached by its address. -/
theorem reachable_of_register {env : AuthEnv} {call : RegisterCall} {s s' : Server} {user : User}
    (h : (register env.toAccountEnv call).run s = (.ok (user, false), s')) :
    Reachable s'.db.users (env.names.unicode.toLowercase call.email) user ∧
      env.hashPassword call.salt call.password = .ok user.passwordHash := by
  rcases run_register_cases env.toAccountEnv call s with
    ⟨hash, t, s₁, hreg, hins, hrun, hs₁⟩ | ⟨-, e, s₁, hrun, -⟩
  swap
  · rw [hrun] at h
    cases h
  rw [hrun] at h
  have happroval : approvalRequired s.db = false := (Prod.mk.inj (Except.ok.inj (Prod.mk.inj h).1)).2
  rw [happroval] at h hins
  cases h
  have hnone : s.db.users.rows.find? (fun r =>
      r.email = env.names.unicode.toLowercase call.email && r.isActive) = none := by
    rw [List.find?_eq_none]
    intro r hr hfound
    have hclash := hreg.creatable.unclaimed r hr
    simp only [clash, NewUser.row, RegisterCall.newUser, Bool.or_eq_false_iff] at hclash
    rw [Bool.and_eq_true, decide_eq_true_eq] at hfound
    exact of_decide_eq_false hclash.1.2 hfound.1.symm
  refine ⟨⟨?_, ?_, rfl⟩, hreg.hashed⟩
  · rw [hs₁]
    dsimp only
    rw [Table.rows_of_insert hins, List.find?_append, hnone]
    simp [NewUser.row, RegisterCall.newUser]
  · rw [hs₁]
    exact Table.get_insert_self hins

theorem Reachable.found_iff {d : Db} {email : String} {user : User}
    (h : Reachable d.users email user) {given : String} :
    accountByEmail given d = some user ↔ given = email := by
  constructor
  · intro hgiven
    have h₁ : user.email = given ∧ user.isActive = true := by
      simpa using List.find?_some hgiven
    have h₂ : user.email = email ∧ user.isActive = true := by
      simpa using List.find?_some h.found
    exact h₁.1.symm.trans h₂.1
  · rintro rfl
    exact h.found

theorem Reachable.withHash {users : Table Uuid User User.id} {email : String} {user : User}
    (h : Reachable users email user) (hash : String) :
    Reachable (users.update user.id (withHash hash) (withHash_id hash)) email
      (withHash hash user) := by
  refine ⟨?_, ?_, h.approved⟩
  · change ((users.rows.map _).find? _) = _
    rw [List.find?_map]
    have hsame : ((fun r : User => decide (r.email = email) && r.isActive) ∘
        fun r => if r.id = user.id then Auth.withHash hash r else r) =
          fun r => decide (r.email = email) && r.isActive := by
      funext r
      simp only [Function.comp_apply]
      split <;> rfl
    rw [hsame, h.found, Option.map_some, if_pos rfl]
  · change (users.update user.id _ _).get user.id = _
    rw [Table.get_update_self, h.get]
    rfl

/-- What is expected of the credentials of an account: it can log in, a link for a new password
is for it, and it can log in with the new password that was accepted. -/
structure Consistent (env : ResetEnv) (user : User) (email password : String) (attempt : LoginCall)
    (forgot : ForgotCall) (reset : ResetCall) (s : ResetServer) : Prop where
  enters : (login env.toAuthEnv (attempt.withCredentials email password)).Succeeds s.db
  found : ((forgotPassword env (forgot.withEmail email)).run s).1 = .ok (some user)
  reenters : ∀ s', (resetPassword env reset).run s = (.ok user.id, s') →
    (login env.toAuthEnv (attempt.withCredentials email reset.newPassword)).Succeeds s'.db

/-- The credentials of an account that was registered and is approved are consistent if and only
if white space at the ends of the address does not matter, and a new password that is accepted
has none. -/
theorem credentials_consistent_iff (env : ResetEnv) (hexact : ExactPasswords env.toAuthEnv)
    (call : RegisterCall) (s₀ s₁ : Server) (user : User)
    (hreg : (register env.toAccountEnv call).run s₀ = (.ok (user, false), s₁))
    (s : ResetServer) (hs : s.db.users = s₁.db.users) (attempt : LoginCall)
    (hissue : Issuable env.toAuthEnv attempt user s.db) (forgot : ForgotCall)
    (hforgot : forgot.Works) (reset : ResetCall) :
    Consistent env user call.email call.password attempt forgot reset s ↔
      env.names.unicode.toLowercase (trim call.email) = env.names.unicode.toLowercase call.email ∧
        ((∃ hash, reset.Accepts env s user.id hash) →
          trim reset.newPassword = reset.newPassword) := by
  obtain ⟨hreach, hhash⟩ := reachable_of_register hreg
  rw [← hs] at hreach
  have henters : (login env.toAuthEnv
      (attempt.withCredentials call.email call.password)).Succeeds s.db := by
    rw [succeeds_login_as hreach hissue, hexact _ _ _ hhash, decide_eq_true rfl]
  have hfound : ((forgotPassword env (forgot.withEmail call.email)).run s).1 = .ok (some user) ↔
      env.names.unicode.toLowercase (trim call.email) =
        env.names.unicode.toLowercase call.email := by
    have hworks : (forgot.withEmail call.email).Works :=
      ⟨hforgot.token, hforgot.connected, hforgot.saved, hforgot.mailed⟩
    rw [run_forgotPassword hworks, Except.ok.injEq]
    exact hreach.found_iff
  have hreenters : (∀ s', (resetPassword env reset).run s = (.ok user.id, s') →
      (login env.toAuthEnv
        (attempt.withCredentials call.email reset.newPassword)).Succeeds s'.db) ↔
      ((∃ hash, reset.Accepts env s user.id hash) →
        trim reset.newPassword = reset.newPassword) := by
    have hlogin : ∀ hash, reset.Accepts env s user.id hash →
        ((login env.toAuthEnv (attempt.withCredentials call.email reset.newPassword)).Succeeds
          (reset.afterwards s user.id hash).db ↔ trim reset.newPassword = reset.newPassword) := by
      intro hash haccepts
      have hafter : Reachable (reset.afterwards s user.id hash).db.users
          (env.names.unicode.toLowercase call.email) (withHash hash user) := hreach.withHash hash
      have hverify : env.verifyPassword reset.newPassword (withHash hash user).passwordHash =
          .ok (decide (reset.newPassword = trim reset.newPassword)) := hexact _ _ _ haccepts.hashed _
      rw [succeeds_login_as hafter (hissue.withHash hash rfl), hverify, Except.ok.injEq,
        decide_eq_true_eq]
      exact eq_comm
    constructor
    · rintro h ⟨hash, haccepts⟩
      exact (hlogin hash haccepts).mp (h _ (run_resetPassword_ok.mpr ⟨hash, haccepts, rfl⟩))
    · intro h s' hrun
      obtain ⟨hash, haccepts, rfl⟩ := run_resetPassword_ok.mp hrun
      exact (hlogin hash haccepts).mpr (h ⟨hash, haccepts⟩)
  constructor
  · exact fun h => ⟨hfound.mp h.found, hreenters.mp h.reenters⟩
  · exact fun h => ⟨henters, hfound.mpr h.1, hreenters.mpr h.2⟩

/-! ## Alice's credentials -/

def sampleHashPassword (_ password : String) : String :=
  if password = "correct horse" then
    "$2b$12$abcdefghijklmnopqrstuuFDJRuYeKkCzo3Wy7h8SxhBSHBAHiPK2"
  else if password = "battery staple" then
    "$2b$12$vutsrqponmlkjihgfedcbO9HiXich8Xm0BeX4lo8Hwunng4vjTwAK"
  else "?" ++ password

def sampleResetEnv : ResetEnv where
  toAuthEnv := { sampleAuthEnv with
    hashPassword := fun salt password => .ok (sampleHashPassword salt password)
    verifyPassword := fun given hash => .ok (decide (sampleHashPassword "" given = hash)) }
  enforceHttps := true
  instanceDomain := "sync.example.org"
  resendConfigured := true

theorem sampleHashPassword_inj {salt salt' p q : String}
    (h : sampleHashPassword salt p = sampleHashPassword salt' q) : p = q := by
  have hmark : ∀ p, "?" ++ p ≠ "$2b$12$abcdefghijklmnopqrstuuFDJRuYeKkCzo3Wy7h8SxhBSHBAHiPK2" ∧
      "?" ++ p ≠ "$2b$12$vutsrqponmlkjihgfedcbO9HiXich8Xm0BeX4lo8Hwunng4vjTwAK" := by
    intro p
    constructor <;> intro he <;> simpa using congrArg (fun s => s.toList.head?) he
  unfold sampleHashPassword at h
  split_ifs at h with hp hq hq' hp' hq hq' hq hq'
  · exact hp.trans hq.symm
  · exact absurd h (by decide)
  · exact absurd h.symm (hmark q).1
  · exact absurd h (by decide)
  · exact hp'.trans hq'.symm
  · exact absurd h.symm (hmark q).2
  · exact absurd h (hmark p).1
  · exact absurd h (hmark p).2
  · simpa using h

theorem exactPasswords_sample : ExactPasswords sampleResetEnv.toAuthEnv := by
  intro salt password hash h given
  cases h
  change Except.ok _ = Except.ok _
  congr 2
  exact propext ⟨sampleHashPassword_inj, fun h => by rw [h]; rfl⟩

/-- Alice registers under an address. -/
def aliceRegisters (email : String) : RegisterCall :=
  ⟨"alice", email, "correct horse", none, none, "192.0.2.1", 100, 100, 1, "abcdefghijklmnopqrstuu"⟩

/-- The server after the registration, with a token for a new password in Redis. -/
def resetServer (email : String) : ResetServer where
  db := ((register sampleResetEnv.toAccountEnv (aliceRegisters email)).run newServer).2.db
  redis key := if key = "reset:5e1f" then some (uuidString 1) else none
  mails := []

def aliceWith (email : String) : User :=
  ((aliceRegisters email).newUser sampleResetEnv.toAccountEnv
    "$2b$12$abcdefghijklmnopqrstuuFDJRuYeKkCzo3Wy7h8SxhBSHBAHiPK2" false).row

def aliceLogin : LoginCall := ⟨"", "", none, none, 5, ⟨2000000, 6, "a"⟩⟩

def aliceForgets : ForgotCall := ⟨"", .ok "77aa", .ok (), ⟨false, .answered⟩, .ok ()⟩

def aliceResets (newPassword : String) : ResetCall :=
  ⟨"5e1f", newPassword, .ok (), ⟨false, .answered⟩, "vutsrqponmlkjihgfedcbO", ⟨false, .answered⟩⟩

theorem register_alice (email : String)
    (h : ((register sampleResetEnv.toAccountEnv (aliceRegisters email)).run newServer).1 =
      .ok (aliceWith email, false)) :
    (register sampleResetEnv.toAccountEnv (aliceRegisters email)).run newServer =
      (.ok (aliceWith email, false),
        ((register sampleResetEnv.toAccountEnv (aliceRegisters email)).run newServer).2) := by
  rw [← h]

theorem credentials_consistent_alice :
    Consistent sampleResetEnv (aliceWith "alice@example.org") "alice@example.org" "correct horse"
      aliceLogin aliceForgets (aliceResets "battery staple") (resetServer "alice@example.org") :=
  (credentials_consistent_iff sampleResetEnv exactPasswords_sample
    (aliceRegisters "alice@example.org") newServer _ (aliceWith "alice@example.org")
    (register_alice _ (by decide)) (resetServer "alice@example.org") rfl aliceLogin
    ⟨by decide, ⟨sampleAccessToken, rfl⟩, by decide, by decide⟩ aliceForgets
    ⟨⟨"77aa", rfl⟩, rfl, rfl, rfl⟩ (aliceResets "battery staple")).mpr
      ⟨by decide, fun _ => by decide⟩

/-- A space before the address, and a space before the new password. -/
theorem credentials_inconsistent :
    (((register sampleResetEnv.toAccountEnv (aliceRegisters " alice@example.org")).run newServer).1 =
        .ok (aliceWith " alice@example.org", false) ∧
      ¬ Consistent sampleResetEnv (aliceWith " alice@example.org") " alice@example.org"
        "correct horse" aliceLogin aliceForgets (aliceResets "battery staple")
        (resetServer " alice@example.org")) ∧
    ((register sampleResetEnv.toAccountEnv (aliceRegisters "alice@example.org")).run newServer).1 =
        .ok (aliceWith "alice@example.org", false) ∧
      ¬ Consistent sampleResetEnv (aliceWith "alice@example.org") "alice@example.org"
        "correct horse" aliceLogin aliceForgets (aliceResets " battery staple")
        (resetServer "alice@example.org") := by
  refine ⟨⟨by decide, fun h => ?_⟩, by decide, fun h => ?_⟩
  · have := h.found
    revert this
    decide
  · have hrefused : ((login sampleResetEnv.toAuthEnv
        (aliceLogin.withCredentials "alice@example.org" " battery staple")).run
          ((resetPassword sampleResetEnv (aliceResets " battery staple")).run
            (resetServer "alice@example.org")).2.db).1 = .error .unauthorized := by decide
    obtain ⟨tokens, d, hrun⟩ := h.reenters _ (Prod.ext (by decide) (Eq.refl _))
    cases hrefused.symm.trans (congrArg Prod.fst hrun)

end SyncServer.Auth
