import SyncServer.Accounts.Users

/-! # The account of a remote person

What `ensure_federated_shadow_user` does once the names are valid: it finds the account with
the shadow username, or it inserts one, or its id or its email address is taken.
-/

namespace SyncServer.Accounts
open Transaction

def shadowAccount (env : NameEnv) (username : String) (newId : Uuid) (d : Db) :
    Except AppError (User × Db) :=
  match userByUsername username d with
  | some u => .ok (u, d)
  | none =>
    match addUser (newShadow env username newId).row d with
    | .ok (u, d') =>
      .ok (deactivated u, { d' with users := d'.users.update newId deactivated deactivated_id })
    | .error .uniqueViolation => .error .notFound
    | .error e => .error (.database e)

theorem run_ensureShadow {env : NameEnv} {remoteUserId remoteServerUrl id host : String}
    (hid : normalizeRemoteUserId env remoteUserId = .ok id)
    (hhost : normalizeRemoteHost env remoteServerUrl = .ok host) (newId : Uuid) (d : Db) :
    (ensureFederatedShadowUser env remoteUserId remoteServerUrl newId).run d =
      match shadowAccount env (federatedShadowUsername id host) newId d with
      | .ok (u, d') => (.ok u, d')
      | .error e => (.error e, d) := by
  unfold ensureFederatedShadowUser shadowAccount
  simp only [hid, hhost, Tx.run_bind_ok (Tx.run_done _ _), findByUsername,
    Tx.run_bind_ok (Tx.run_query _ _)]
  generalize federatedShadowUsername id host = username
  rcases hfind : userByUsername username d with _ | existing
  · dsimp only
    rw [Tx.run_bind_ok (Tx.run_attempt _ _), insertUser]
    rcases hadd : addUser (newShadow env username newId).row d with e | ⟨u, d'⟩
    · have hrun : (Query.exec (fun _ => []) (addUser (newShadow env username newId).row)).run d =
          (.error (.database e), d) := by
        rw [Query.exec, Tx.run_exec_error, hadd]
        exact ⟨rfl, rfl⟩
      rw [hrun]
      cases e
      case uniqueViolation =>
        dsimp only
        rw [Tx.run_bind_ok (Tx.run_query _ _), hfind]
        rfl
      all_goals rfl
    · obtain ⟨rfl, t, hins, rfl⟩ := addUser_ok hadd
      rw [Query.run_exec_ok.mpr hadd]
      have hget : t.get (newShadow env username newId).row.id =
          some (newShadow env username newId).row := by
        rw [Table.get_of_insert hins, if_pos rfl]
      refine Query.run_exec_ok.mpr ?_
      simp only [hget]
      rfl
  · rfl

def Available (env : NameEnv) (username : String) (newId : Uuid)
    (users : Table Uuid User User.id) : Prop :=
  (∃ u ∈ users.rows, u.username = username) ∨
    (users.get newId = none ∧ ∀ u ∈ users.rows, u.email ≠ federatedShadowEmail env username)

/-- What is known of the accounts when that of a remote person is at hand. -/
structure HasShadow (username : String) (account : User) (users users' : Table Uuid User User.id) :
    Prop where
  get : users'.get account.id = some account
  name : account.username = username
  old : ∀ id u, users.get id = some u → users'.get id = some u
  unique : (users.rows.map User.username).Nodup → (users'.rows.map User.username).Nodup

theorem HasShadow.eq_of_username {username : String} {account u : User}
    {users users' : Table Uuid User User.id} (h : HasShadow username account users users')
    (hu : users.get u.id = some u) (hname : u.username = username)
    (hunique : (users.rows.map User.username).Nodup) : account = u := by
  have hold := Table.get_eq_some.mp (h.old u.id u hu)
  have hget := Table.get_eq_some.mp h.get
  exact List.inj_on_of_nodup_map (h.unique hunique) hget.1 hold.1 (h.name.trans hname.symm)

theorem userByUsername_eq_none {username : String} {d : Db} :
    userByUsername username d = none ↔ ∀ u ∈ d.users.rows, u.username ≠ username := by
  simp [userByUsername]

theorem clash_newShadow (env : NameEnv) (username : String) (newId : Uuid) (r : User) :
    clash (newShadow env username newId).row r = true ↔
      username = r.username ∨ federatedShadowEmail env username = r.email := by
  change (decide (username = r.username) || decide (federatedShadowEmail env username = r.email) ||
    false) = true ↔ _
  simp

theorem addUser_newShadow (env : NameEnv) {username : String} (newId : Uuid) {d : Db}
    (hname : ∀ u ∈ d.users.rows, u.username ≠ username) :
    (Available env username newId d.users ∧
      ∃ t, d.users.insert (newShadow env username newId).row = some t ∧
        addUser (newShadow env username newId).row d =
          .ok ((newShadow env username newId).row, { d with users := t })) ∨
      (¬ Available env username newId d.users ∧
        ∃ e, addUser (newShadow env username newId).row d = .error e) := by
  have hrole : (newShadow env username newId).row.role ∈ ["admin", "user", "moderator"] := by
    simp [newShadow, NewUser.row]
  have hclash : d.users.rows.any (clash (newShadow env username newId).row) = true ↔
      ∃ u ∈ d.users.rows, u.email = federatedShadowEmail env username := by
    simp only [List.any_eq_true, clash_newShadow]
    constructor
    · rintro ⟨u, hu, h | h⟩
      · exact absurd h.symm (hname u hu)
      · exact ⟨u, hu, h.symm⟩
    · rintro ⟨u, hu, h⟩
      exact ⟨u, hu, .inr h.symm⟩
  rw [addUser, if_neg (not_not.mpr hrole)]
  by_cases hc : d.users.rows.any (clash (newShadow env username newId).row)
  · rw [if_pos hc]
    refine .inr ⟨?_, _, rfl⟩
    obtain ⟨u, hu, he⟩ := hclash.mp hc
    rintro (⟨w, hw, hwn⟩ | ⟨-, hemail⟩)
    · exact hname w hw hwn
    · exact hemail u hu he
  rw [if_neg hc]
  have hemail : ∀ u ∈ d.users.rows, u.email ≠ federatedShadowEmail env username := by
    intro u hu he
    exact hc (hclash.mpr ⟨u, hu, he⟩)
  rcases hins : d.users.insert (newShadow env username newId).row with _ | t
  · refine .inr ⟨?_, _, rfl⟩
    rintro (⟨w, hw, hwn⟩ | ⟨hid, -⟩)
    · exact hname w hw hwn
    · have hsome : (d.users.get newId).isSome := Table.insert_eq_none.mp hins
      rw [hid] at hsome
      cases hsome
  · exact .inl ⟨.inr ⟨Table.get_eq_none_of_insert hins, hemail⟩, t, rfl, rfl⟩

theorem usernames_update (t : Table Uuid User User.id) (id : Uuid) :
    (t.update id deactivated deactivated_id).rows.map User.username =
      t.rows.map User.username := by
  simp only [Table.update, Table.map, List.map_map]
  apply List.map_congr_left
  intro r _
  simp only [Function.comp_apply]
  split <;> rfl

theorem shadowAccount_ok {env : NameEnv} {username : String} {newId : Uuid} {d : Db}
    (h : Available env username newId d.users) :
    ∃ u t, shadowAccount env username newId d = .ok (u, { d with users := t }) ∧
      HasShadow username u d.users t := by
  unfold shadowAccount
  rcases hfind : userByUsername username d with _ | u
  · have hname := userByUsername_eq_none.mp hfind
    obtain ⟨-, t, hins, hadd⟩ | ⟨hn, -⟩ := addUser_newShadow env newId hname
    · rw [hadd]
      refine ⟨_, _, rfl, ?_⟩
      have hget : t.get newId = some (newShadow env username newId).row := by
        rw [Table.get_of_insert hins, if_pos]
        rfl
      constructor
      · change (t.update newId deactivated deactivated_id).get newId = _
        rw [Table.get_update_self, hget]
        rfl
      · rfl
      · intro id w hw
        have hnew : d.users.get newId = none := Table.get_eq_none_of_insert hins
        have hne : newId ≠ id := by
          rintro rfl
          rw [hnew] at hw
          cases hw
        rw [Table.get_update_of_ne _ _ _ hne.symm, Table.get_of_insert hins, if_neg, hw]
        exact hne
      · intro hnodup
        rw [usernames_update, Table.rows_of_insert hins, List.map_append]
        refine List.Nodup.append hnodup (List.nodup_singleton _) ?_
        intro x hx hx'
        obtain ⟨w, hw, rfl⟩ := List.mem_map.mp hx
        exact hname w hw (by simpa [newShadow, NewUser.row] using hx')
    · exact absurd h hn
  · have hmem : u ∈ d.users.rows := List.mem_of_find?_eq_some hfind
    refine ⟨u, d.users, rfl, Table.get_eq_some.mpr ⟨hmem, rfl⟩, ?_, fun _ _ h => h, fun h => h⟩
    simpa using List.find?_some hfind

theorem shadowAccount_error {env : NameEnv} {username : String} {newId : Uuid} {d : Db}
    (h : ¬ Available env username newId d.users) :
    ∃ e, shadowAccount env username newId d = .error e := by
  unfold shadowAccount
  rcases hfind : userByUsername username d with _ | u
  · obtain ⟨ha, -⟩ | ⟨-, e, hadd⟩ :=
      addUser_newShadow env newId (userByUsername_eq_none.mp hfind)
    · exact absurd ha h
    · rw [hadd]
      cases e <;> exact ⟨_, rfl⟩
  · exact absurd (.inl ⟨u, List.mem_of_find?_eq_some hfind, by simpa using List.find?_some hfind⟩) h

/-- A remote person has an account after the call if and only if the names are valid and the
account is available. -/
theorem succeeds_ensureFederatedShadowUser {env : NameEnv} {remoteUserId remoteServerUrl : String}
    {newId : Uuid} {d : Db} :
    (ensureFederatedShadowUser env remoteUserId remoteServerUrl newId).Succeeds d ↔
      ∃ id host, normalizeRemoteUserId env remoteUserId = .ok id ∧
        normalizeRemoteHost env remoteServerUrl = .ok host ∧
        Available env (federatedShadowUsername id host) newId d.users := by
  rcases hid : normalizeRemoteUserId env remoteUserId with e | id
  · rw [ensureFederatedShadowUser, Tx.succeeds_done_bind]
    simp [hid]
  rcases hhost : normalizeRemoteHost env remoteServerUrl with e | host
  · simp [ensureFederatedShadowUser, Tx.succeeds_done_bind, hhost]
  unfold Tx.Succeeds
  rw [run_ensureShadow hid hhost]
  simp only [Except.ok.injEq, exists_and_left, exists_eq_left']
  by_cases h : Available env (federatedShadowUsername id host) newId d.users
  · obtain ⟨u, t, hok, -⟩ := shadowAccount_ok h
    rw [hok]
    exact iff_of_true ⟨u, _, rfl⟩ h
  · obtain ⟨e, he⟩ := shadowAccount_error h
    rw [he]
    exact iff_of_false (by rintro ⟨u, d', h⟩; cases h) h

/-! ## The statements -/

theorem writes_ensureFederatedShadowUser {W : (Db → Db) → Prop} (hid : W id)
    (hinsert : ∀ new, (insertUser new).Writes W) (hdeactivate : ∀ id, (deactivate id).Writes W)
    (env : NameEnv) (remoteUserId remoteServerUrl : String) (newId : Uuid) :
    (ensureFederatedShadowUser env remoteUserId remoteServerUrl newId).Writes W := by
  refine Tx.writes_bind trivial (fun id => Tx.writes_bind trivial (fun host => ?_))
  refine Tx.writes_bind (Tx.writes_query hid _) (fun found => ?_)
  split
  · trivial
  refine Tx.writes_bind (Tx.writes_attempt (hinsert _)) (fun inserted => ?_)
  split
  · exact hdeactivate _
  · exact Tx.writes_bind (Tx.writes_query hid _) (fun found => Tx.writes_okOr _ _ found)
  · trivial

theorem keeps_ensureFederatedShadowUser {τ : Type} {π : Db → τ}
    (hπ : ∀ s t, π { s with users := t } = π s) (env : NameEnv)
    (remoteUserId remoteServerUrl : String) (newId : Uuid) :
    (ensureFederatedShadowUser env remoteUserId remoteServerUrl newId).Keeps π := by
  apply writes_ensureFederatedShadowUser (fun _ => rfl)
  · intro new
    refine Query.keeps_exec (fun s u s' h => ?_)
    obtain ⟨-, t, -, rfl⟩ := addUser_ok h
    exact hπ s t
  · intro id
    refine Query.keeps_exec (fun s u s' h => ?_)
    split at h <;> cases h
    exact hπ s _

end SyncServer.Accounts
