import SyncServer.Accounts.Creation

/-! # The rules for usernames

A username of a local account is trimmed, has 2 to 32 characters and no control characters, and
is not objectionable. The update of a profile checks all of this. Registration checks the trimmed
username and stores the other one, and neither it nor the setup asks whether it is objectionable.
-/

namespace SyncServer.Accounts
open Transaction Auth Moderation

/-- The rules for the username of a local account. -/
structure UsernameRules (unicode : Unicode) (username : String) : Prop where
  trimmed : trim username = username
  length : 2 ≤ username.toList.length ∧ username.toList.length ≤ 32
  printable : ∀ c ∈ username.toList, isControl c = false
  allowed : detectBlockedTerm unicode username = none

theorem isValidUsername_iff {username : String} : Profile.isValidUsername username = true ↔
    (2 ≤ username.toList.length ∧ username.toList.length ≤ 32) ∧
      ∀ c ∈ username.toList, isControl c = false := by
  simp [Profile.isValidUsername]

theorem usernameRules_iff {unicode : Unicode} {username : String}
    (h : isValidUsername username = true) : UsernameRules unicode username ↔
      trim username = username ∧ detectBlockedTerm unicode username = none := by
  constructor
  · exact fun hr => ⟨hr.trimmed, hr.allowed⟩
  · rintro ⟨htrim, hallowed⟩
    rw [isValidUsername, htrim] at h
    obtain ⟨hlength, hprintable⟩ := isValidUsername_iff.mp h
    exact ⟨htrim, hlength, hprintable, hallowed⟩

theorem detectBlockedTerm_trim (unicode : Unicode) (value : String) :
    detectBlockedTerm unicode (trim value) = detectBlockedTerm unicode value := by
  rw [detectBlockedTerm, detectBlockedTerm, trim_trim]

/-! ## The username of a device -/

theorem tokens_word {s : String} (h : ∀ c ∈ s.toList, c.isAlphanum = true) (hs : s ≠ "") :
    tokens s = [s] := by
  have hsplit : s.toList.splitOnP (fun c => !c.isAlphanum) = [s.toList] :=
    List.splitOnP_eq_singleton (fun c hc => by rw [h c hc]; rfl)
  have hne : s.toList ≠ [] := fun he => hs (String.toList_eq_nil_iff.mp he)
  rw [tokens, hsplit]
  simp [hne]

/-- No blocked term is a word of more than eight letters. -/
theorem detectBlockedTerm_word (unicode : Unicode) {s : String}
    (hchars : ∀ c ∈ s.toList, c ∈ "u0123456789abcdef".toList) (hlength : 8 < s.toList.length) :
    detectBlockedTerm unicode s = none := by
  have hall : ∀ c ∈ "u0123456789abcdef".toList, isWhitespace c = false ∧ c.toNat < 128 ∧
      c.toLower = c ∧ c.isAlphanum = true ∧ c ≠ ' ' := by decide
  have hchar := fun c hc => hall c (hchars c hc)
  have htrim : trim s = s := trim_eq_self (fun c hc => (hchar c (List.mem_of_mem_head? hc)).1)
    (fun c hc => (hchar c (List.mem_of_mem_getLast? hc)).1)
  have hlower : unicode.toLowercase s = s := by
    rw [unicode.toLowercase_ascii s (fun c hc => (hchar c hc).2.1),
      List.map_congr_left (fun c hc => (hchar c hc).2.2.1)]
    simp
  have hne : s ≠ "" := by
    rintro rfl
    simp at hlength
  rw [detectBlockedTerm, htrim, hlower, if_neg hne, List.find?_eq_none]
  intro term hterm
  have hshort : ' ' ∈ term.toList ∨ term.toList.length ≤ 8 := by
    revert term
    decide
  split
  · rename_i hspace
    -- a phrase has a space in it
    intro hcontains
    have : term.toList <:+: s.toList := by simpa [containsText] using hcontains
    exact (hchar ' ' (this.subset hspace)).2.2.2.2 rfl
  · rename_i hspace
    rw [tokens_word (fun c hc => (hchar c hc).2.2.2.1) hne, decide_eq_true_eq, List.mem_singleton]
    rintro rfl
    have := hshort.resolve_left hspace
    omega

theorem usernameRules_device (env : AccountEnv) (call : DeviceLoginCall) (hash : String)
    (approval : Bool) :
    UsernameRules env.names.unicode (newDeviceUser env call hash approval).username := by
  have hlist : (newDeviceUser env call hash approval).username.toList =
      'u' :: (env.names.sha256.hex (trim call.deviceAuthPubkey)).toList.take 15 := by
    simp [newDeviceUser, Sha256.short]
  generalize (newDeviceUser env call hash approval).username = username at hlist
  have hlength : username.toList.length = 16 := by
    simp [hlist, env.names.sha256.length_hex]
  have hchars : ∀ c ∈ username.toList, c ∈ "u0123456789abcdef".toList := by
    rw [hlist]
    intro c hc
    rcases List.mem_cons.mp hc with rfl | hc
    · decide
    · exact List.mem_cons_of_mem _ (env.names.sha256.digits_hex _ c (List.mem_of_mem_take hc))
  have hall : ∀ c ∈ "u0123456789abcdef".toList, isWhitespace c = false ∧ isControl c = false := by
    decide
  refine ⟨?_, by omega, fun c hc => (hall c (hchars c hc)).2,
    detectBlockedTerm_word _ hchars (by omega)⟩
  exact trim_eq_self (fun c hc => (hall c (hchars c (List.mem_of_mem_head? hc))).1)
    (fun c hc => (hall c (hchars c (List.mem_of_mem_getLast? hc))).1)

/-! ## The accounts -/

/-- The usernames of all accounts that are not in `shadows` follow the rules. -/
structure Named (env : AccountEnv) (shadows : List Uuid) (users : Table Uuid User User.id) :
    Prop where
  listed : ∀ id ∈ shadows, (users.get id).isSome
  rules : ∀ r ∈ users.rows, r.id ∉ shadows → UsernameRules env.names.unicode r.username

section
variable {env : AccountEnv} {shadows : List Uuid} {users t : Table Uuid User User.id}

theorem Named.fresh (h : Named env shadows users) {id : Uuid} (hid : users.get id = none) :
    id ∉ shadows := by
  intro hmem
  have := h.listed id hmem
  simp [hid] at this

theorem Named.insert (h : Named env shadows users) {row : User}
    (hrow : UsernameRules env.names.unicode row.username) (hins : users.insert row = some t) :
    Named env shadows t := by
  refine ⟨fun id hid => ?_, fun r hr hns => ?_⟩
  · rw [Table.get_of_insert hins]
    split
    · rfl
    · exact h.listed id hid
  · rw [Table.rows_of_insert hins, List.mem_append, List.mem_singleton] at hr
    rcases hr with hr | rfl
    · exact h.rules r hr hns
    · exact hrow

/-- A new account is not in `shadows`, so its username is one of those that have to follow the
rules. -/
theorem Named.rules_of_insert (h : Named env shadows users) {row : User}
    (hins : users.insert row = some t)
    (hrules : ∀ r ∈ t.rows, r.id ∉ shadows → UsernameRules env.names.unicode r.username) :
    UsernameRules env.names.unicode row.username :=
  hrules row (by simp [Table.rows_of_insert hins]) (h.fresh (Table.get_eq_none_of_insert hins))

theorem Named.update (h : Named env shadows users) {id : Uuid} {f : User → User}
    (hf : ∀ r, (f r).id = r.id) (hname : ∀ r, users.get id = some r → id ∉ shadows →
      UsernameRules env.names.unicode (f r).username) : Named env shadows (users.update id f hf) := by
  refine ⟨fun k hk => ?_, fun r hr hns => ?_⟩
  · by_cases hki : k = id
    · subst hki
      simpa using h.listed k hk
    · rw [Table.get_update_of_ne _ f hf hki]
      exact h.listed k hk
  · simp only [Table.update, Table.map, List.mem_map] at hr
    obtain ⟨r₀, hr₀, rfl⟩ := hr
    by_cases hid : r₀.id = id
    · rw [if_pos hid, hf] at hns
      rw [if_pos hid]
      exact hname r₀ (Table.get_eq_some.mpr ⟨hr₀, hid⟩) (hid ▸ hns)
    · rw [if_neg hid] at hns ⊢
      exact h.rules r₀ hr₀ hns

theorem Named.insertShadow (h : Named env shadows users) {row : User}
    (hins : users.insert row = some t) :
    Named env (shadows ++ [row.id]) (t.update row.id deactivated deactivated_id) := by
  have hnamed : Named env (shadows ++ [row.id]) t := by
    refine ⟨fun id hid => ?_, fun r hr hns => ?_⟩
    · rw [Table.get_of_insert hins]
      split
      · rfl
      · rename_i hne
        exact h.listed id (by simpa [Ne.symm hne] using hid)
    · rw [List.mem_append, List.mem_singleton, not_or] at hns
      rw [Table.rows_of_insert hins, List.mem_append, List.mem_singleton] at hr
      exact h.rules r (hr.resolve_right (fun he => hns.2 (he ▸ rfl))) hns.1
  exact hnamed.update _ (fun r _ hns => absurd (by simp) hns)

end

/-! ## Calls -/

def Call.WellNamed (env : AccountEnv) (s : Instance) : Call → Prop
  | register call => ∀ hash, Registrable env call s.server hash →
      trim call.username = call.username ∧ detectBlockedTerm env.names.unicode call.username = none
  | setupAdmin call => ∀ new, Installable env call s.server new →
      detectBlockedTerm env.names.unicode call.username = none
  | _ => True

/-- All calls of a run are well named. -/
def WellNamedRun (env : AccountEnv) (s : Instance) : List Call → Prop
  | [] => True
  | call :: calls => call.WellNamed env s ∧ WellNamedRun env (call.apply env s) calls

/-- The usernames of the local accounts follow the rules. -/
def Instance.RulesHold (env : AccountEnv) (s : Instance) : Prop :=
  ∀ u ∈ s.users.rows, u.id ∉ s.shadows → UsernameRules env.names.unicode u.username

theorem validUsername_of_checkFields {trimmed email username password : String}
    (h : checkFields trimmed email username password = .ok ()) :
    isValidUsername username = true :=
  require_eq_ok.mp (require_bind_eq_ok.mp h).2

theorem username_of_admitted {env : AccountEnv} {call : SetupAdminCall} {expected : Option String}
    {new : NewUser} (h : call.admitted env expected = .ok new) : new.username = trim call.username := by
  unfold SetupAdminCall.admitted at h
  split at h
  · rcases hhash : env.hashPassword call.salt call.password with e | hash
    · rw [hhash] at h
      cases h
    · rw [hhash] at h
      cases h
      rfl
  · cases h

section
variable {env : AccountEnv} {s : Instance}

theorem users_register (env : AccountEnv) (s : Instance) (call : RegisterCall) {s' : Instance}
    (hs' : s' = (Call.register call).apply env s) :
    s'.shadows = s.shadows ∧
      ((∃ hash t, Registrable env call s.server hash ∧
          s.users.insert (call.newUser env hash (approvalRequired s.server.db)).row = some t ∧
          s'.users = t) ∨
        ((∀ hash, ¬ Registrable env call s.server hash) ∧ s'.users = s.users)) := by
  subst hs'
  refine ⟨List.append_nil _, ?_⟩
  simp only [Call.apply, Call.serve, Instance.users]
  rcases run_register_cases env call s.server with
    ⟨hash, t, s', hreg, hins, hrun, hs'⟩ | ⟨hnot, e, s', hrun, hs'⟩
  · exact .inl ⟨hash, t, hreg, hins, by rw [hrun, hs']⟩
  · exact .inr ⟨hnot, by rw [hrun, hs']⟩

theorem users_setupAdmin (env : AccountEnv) (s : Instance) (call : SetupAdminCall) {s' : Instance}
    (hs' : s' = (Call.setupAdmin call).apply env s) :
    s'.shadows = s.shadows ∧
      ((∃ new t, Installable env call s.server new ∧ s.users.insert new.row = some t ∧
          s'.users = t) ∨
        ((∀ new, ¬ Installable env call s.server new) ∧ s'.users = s.users)) := by
  subst hs'
  refine ⟨List.append_nil _, ?_⟩
  simp only [Call.apply, Call.serve, Instance.users]
  rcases run_setupAdmin_cases env call s.server with
    ⟨new, t, s', hinst, hins, hrun, hs'⟩ | ⟨hnot, e, s', hrun, hs'⟩
  · exact .inl ⟨new, t, hinst, hins, by rw [hrun, hs']⟩
  · exact .inr ⟨hnot, by rw [hrun, hs']⟩

theorem rules_of_checkProfile {body changes : ProfileChanges} {username : String}
    (h : checkProfile env body = .ok changes) (hname : changes.username = some username) :
    UsernameRules env.names.unicode username := by
  have hnext := (checkProfile_ok h).1
  rw [hname] at hnext
  unfold checkUsername at hnext
  split at hnext
  · cases hnext
  rename_i trimmed htrimmed
  obtain ⟨hvalid, hnext⟩ := require_bind_eq_ok.mp hnext
  obtain ⟨hallowed, hnext⟩ := unit_bind_eq_ok.mp hnext
  cases hnext
  obtain ⟨raw, -, rfl⟩ : ∃ raw, body.username = some raw ∧ trim raw = username := by
    have := (Option.filter_eq_some_iff.mp htrimmed).1
    simpa using this
  obtain ⟨hlength, hprintable⟩ := isValidUsername_iff.mp hvalid
  refine ⟨trim_trim raw, hlength, hprintable, ?_⟩
  unfold ensureTextIsAllowed at hallowed
  split at hallowed
  · cases hallowed
  · assumption

theorem Named.updateMe (h : Named env s.shadows s.users) (userId : Uuid) (body : ProfileChanges) :
    Named env s.shadows ((Call.updateMe userId body).apply env s).users := by
  simp only [Call.apply, Call.serve, Instance.users]
  rcases run_updateMe_users env userId body s.server with
    hsame | ⟨changes, user, hcheck, hget, hrun⟩
  · rw [hsame]
    exact h
  rw [hrun]
  refine Named.update h _ (fun r hr hns => ?_)
  obtain rfl : user = r := Option.some.inj (hget.symm.trans hr)
  rcases hname : changes.username with _ | username
  · have hkept : (changes.over user user).username = user.username := by
      simp [ProfileChanges.over, hname]
    obtain ⟨hmem, hid⟩ := Table.get_eq_some.mp hget
    rw [hkept]
    exact h.rules user hmem (hid ▸ hns)
  · have hnew : (changes.over user user).username = username := by
      simp [ProfileChanges.over, hname]
    rw [hnew]
    exact rules_of_checkProfile hcheck hname

theorem Named.ensureShadow (h : Named env s.shadows s.users) (remoteUserId remoteServerUrl : String)
    (newId : Uuid) {s' : Instance}
    (hs' : s' = (Call.ensureShadow remoteUserId remoteServerUrl newId).apply env s) :
    Named env s'.shadows s'.users := by
  subst hs'
  have hsame : ∀ call, Call.inserted s.server (s.server.setDb s.server.db) call = [] :=
    inserted_of_users rfl
  simp only [Call.apply, Call.serve, run_onDb, Instance.users]
  rcases run_ensureFederatedShadowUser env.names remoteUserId remoteServerUrl newId s.server.db with
    ⟨e, hrun⟩ | ⟨username, u, -, -, hrun⟩ | ⟨username, t, hins, hrun⟩ <;>
    rw [hrun] <;> dsimp only
  · rw [hsame, List.append_nil]
    exact h
  · rw [hsame, List.append_nil]
    exact h
  · rw [inserted_ensureShadow remoteUserId remoteServerUrl hins]
    exact Named.insertShadow h hins

section
-- what a device writes is read off the statements, without running them
attribute [local irreducible] Tx.Writes

theorem writes_deviceLogin_named (env : AccountEnv) (shadows : List Uuid)
    (call : DeviceLoginCall) : (Accounts.deviceLogin env call).Writes (fun w =>
      ∀ server, Named env shadows server.db.users → Named env shadows (w server).db.users) := by
  refine writes_deviceLogin (fun w hw server hserver => ?_) (fun hash approval maxUsers => ?_)
  · rwa [show (w server).db.users = server.db.users from congrArg Prod.fst (hw server)]
  · refine Tx.writes_onPart (fun w hw server hserver => ?_) (writes_createUser _ maxUsers)
    change Named env shadows (w server.db).users
    rcases hw server.db with hsame | hins
    · rwa [hsame]
    · exact hserver.insert (usernameRules_device env call hash approval) hins

theorem Named.deviceLogin (h : Named env s.shadows s.users) (call : DeviceLoginCall) :
    Named env s.shadows ((Call.deviceLogin call).apply env s).users := by
  simp only [Call.apply, Call.serve, Instance.users]
  exact Tx.Writes.run (I := fun server : Server => Named env s.shadows server.db.users)
    (writes_deviceLogin_named env s.shadows call) h

end

/-- A well named call keeps the rules. -/
theorem Named.call (h : Named env s.shadows s.users) {call : Call} (hc : call.WellNamed env s) :
    Named env (call.apply env s).shadows (call.apply env s).users := by
  cases call with
  | register call =>
    obtain ⟨hshadows, ⟨hash, t, hreg, hins, husers⟩ | ⟨-, husers⟩⟩ := users_register env s call rfl
    · rw [hshadows, husers]
      have hvalid := validUsername_of_checkFields (unit_bind_eq_ok.mp hreg.checked).1
      exact h.insert ((usernameRules_iff hvalid).mpr (hc hash hreg)) hins
    · rwa [hshadows, husers]
  | setupAdmin call =>
    obtain ⟨hshadows, ⟨new, t, hinst, hins, husers⟩ | ⟨-, husers⟩⟩ := users_setupAdmin env s call rfl
    · rw [hshadows, husers]
      have hname : new.row.username = trim call.username := username_of_admitted hinst.admitted
      refine h.insert ?_ hins
      rw [hname, usernameRules_iff (validUsername_of_checkFields hinst.checked),
        detectBlockedTerm_trim]
      exact ⟨trim_trim _, hc new hinst⟩
    · rwa [hshadows, husers]
  | deviceLogin call =>
    rw [show ((Call.deviceLogin call).apply env s).shadows = s.shadows from List.append_nil _]
    exact h.deviceLogin call
  | updateMe userId body =>
    rw [show ((Call.updateMe userId body).apply env s).shadows = s.shadows from List.append_nil _]
    exact h.updateMe userId body
  | ensureShadow remoteUserId remoteServerUrl newId =>
    exact h.ensureShadow remoteUserId remoteServerUrl newId rfl

theorem Named.wellNamed (h : Named env s.shadows s.users) {call : Call}
    (hrules : (call.apply env s).RulesHold env) : call.WellNamed env s := by
  cases call with
  | register call =>
    intro hash hreg
    obtain ⟨hshadows, ⟨hash', t, -, hins, husers⟩ | ⟨hnot, -⟩⟩ := users_register env s call rfl
    · rw [Instance.RulesHold, hshadows, husers] at hrules
      have hvalid := validUsername_of_checkFields (unit_bind_eq_ok.mp hreg.checked).1
      exact (usernameRules_iff hvalid).mp (h.rules_of_insert hins hrules)
    · exact absurd hreg (hnot hash)
  | setupAdmin call =>
    intro new hinst
    obtain ⟨hshadows, ⟨new', t, hinst', hins, husers⟩ | ⟨hnot, -⟩⟩ := users_setupAdmin env s call rfl
    · rw [Instance.RulesHold, hshadows, husers] at hrules
      have hname : new'.row.username = trim call.username := username_of_admitted hinst'.admitted
      have hallowed := (h.rules_of_insert hins hrules).allowed
      rwa [hname, detectBlockedTerm_trim] at hallowed
    · exact absurd hinst (hnot new)
  | _ => trivial

end

/-! ## Runs -/

/-- The usernames of the local accounts follow the rules in every state of a run if and only if
all its calls are well named. -/
theorem username_rules_iff (env : AccountEnv) (s : Instance) (h : Named env s.shadows s.users)
    (calls : List Call) : (∀ before, before <+: calls → (runCalls env s before).RulesHold env) ↔
      WellNamedRun env s calls := by
  induction calls generalizing s with
  | nil =>
    refine ⟨fun _ => trivial, fun _ before hbefore => ?_⟩
    rw [List.prefix_nil.mp hbefore]
    exact h.rules
  | cons call calls ih =>
    constructor
    · intro hall
      have hc : call.WellNamed env s := h.wellNamed (hall [call] (by simp))
      refine ⟨hc, (ih _ (h.call hc)).mp (fun before hbefore => ?_)⟩
      exact hall (call :: before) (List.cons_prefix_cons.mpr ⟨rfl, hbefore⟩)
    · rintro ⟨hc, hcalls⟩ before hbefore
      cases before with
      | nil => exact h.rules
      | cons first before =>
        obtain ⟨rfl, hrest⟩ := List.cons_prefix_cons.mp hbefore
        exact (ih _ (h.call hc)).mpr hcalls before hrest

/-- The server after a registration from an empty table. -/
def registered (username : String) : Instance :=
  runCalls sampleAccountEnv (.fresh newServer) [registration username "alice@example.org"]

theorem named_fresh (env : AccountEnv) : Named env (Instance.fresh newServer).shadows
    (Instance.fresh newServer).users :=
  ⟨fun _ hid => absurd hid List.not_mem_nil, fun _ hr => absurd hr List.not_mem_nil⟩

/-- Alice registers. -/
theorem username_rules_alice : (registered "alice").RulesHold sampleAccountEnv :=
  (username_rules_iff sampleAccountEnv (.fresh newServer) (named_fresh _)
    [registration "alice" "alice@example.org"]).mpr
      ⟨fun _ _ => by decide, trivial⟩ _ (List.prefix_refl _)

/-- A username is stored with spaces around it, and so is an objectionable one. -/
theorem username_rules_broken : ¬ (registered " alice ").RulesHold sampleAccountEnv ∧
    ¬ (registered "cp").RulesHold sampleAccountEnv := by
  constructor
  · intro h
    have := (h _ List.mem_cons_self List.not_mem_nil).trimmed
    revert this
    decide
  · intro h
    have := (h _ List.mem_cons_self List.not_mem_nil).allowed
    revert this
    decide

end SyncServer.Accounts
