import SyncServer.Accounts.Handlers

/-! # The update of a profile

What the statement that writes a profile, the service and the handler do when they succeed, and
that they change nothing when they do not.
-/

namespace SyncServer.Accounts
open Transaction

section
variable {changes : ProfileChanges} {existing u : User} {d d' : Db}

theorem setProfile_ok (h : setProfile changes existing d = .ok (u, d')) :
    ∃ r, d.users.get existing.id = some r ∧ u = changes.over existing r ∧
      (∀ v ∈ d.users.rows, v.id ≠ r.id → v.username ≠ u.username) ∧
      d' = { d with
        users := d.users.update existing.id (changes.over existing) (changes.over_id existing) } := by
  unfold setProfile at h
  split at h
  · cases h
  split at h
  · cases h
  rename_i r hget
  dsimp only at h
  split at h
  · cases h
  split at h
  · cases h
  rename_i hfree
  split at h
  · cases h
  cases h
  refine ⟨r, hget, rfl, ?_, rfl⟩
  simpa using hfree

theorem setProfile_fst (hget : d.users.get existing.id = some existing)
    (h : setProfile changes existing d = .ok (u, d')) : u = changes.over existing existing := by
  obtain ⟨r, hr, rfl, -, -⟩ := setProfile_ok h
  rw [Option.some.inj (hget.symm.trans hr)]

theorem run_updateProfile_ok_iff (hget : d.users.get existing.id = some existing) :
    (updateProfile existing.id changes).run d = (.ok u, d') ↔
      setProfile changes existing d = .ok (u, d') := by
  rw [updateProfile, findById, Tx.run_bind_ok (Tx.run_query _ _), hget,
    Tx.run_bind_ok (Tx.run_okOr_ok.mpr ⟨rfl, rfl⟩), Tx.run_bind_ok (Tx.run_attempt _ _)]
  rcases Query.run_exec_cases (fun _ => []) (setProfile changes existing) d with
    ⟨e, he⟩ | ⟨v, d₁, hset, hrun⟩
  · rw [he]
    refine iff_of_false ?_ (fun hset => ?_)
    · dsimp only
      split <;> rintro ⟨⟩
    · rw [Query.run_exec_ok.mpr hset] at he
      cases he
  · rw [hrun, hset]
    simp [Tx.run_done]

variable {userId : Uuid}

theorem run_updateProfile_found (h : (updateProfile userId changes).run d = (.ok u, d')) :
    ∃ user, d.users.get userId = some user := by
  unfold updateProfile findById at h
  rw [Tx.run_bind_ok (Tx.run_query _ _)] at h
  obtain ⟨user, d₁, hfound, -⟩ := Tx.run_bind_eq_ok h
  exact ⟨user, (Tx.run_okOr_ok.mp hfound).1⟩

theorem run_updateProfile_error {e : AppError}
    (h : (updateProfile userId changes).run d = (.error e, d')) : d' = d := by
  unfold updateProfile findById at h
  rw [Tx.run_bind_ok (Tx.run_query _ _)] at h
  rcases hget : d.users.get userId with _ | user
  · rw [hget] at h
    cases h
    rfl
  rw [hget, Tx.run_bind_ok (Tx.run_okOr_ok.mpr ⟨rfl, rfl⟩), Tx.run_bind_ok (Tx.run_attempt _ _)] at h
  rcases Query.run_exec_cases (fun _ => []) (setProfile changes user) d with
    ⟨e, he⟩ | ⟨v, d₁, hset, hrun⟩
  · rw [he] at h
    dsimp only at h
    split at h <;> cases h <;> rfl
  · rw [hrun] at h
    cases h

end

/-! ## The handler -/

section
variable {env : AccountEnv} {userId : Uuid} {body changes : ProfileChanges} {s s' : Server}

theorem checkProfile_ok (h : checkProfile env body = .ok changes) :
    checkUsername env body.username = .ok changes.username ∧
      changes.avatarBase64 = body.avatarBase64 ∧
      checkDescription env body.description = .ok changes.description ∧
      changes.messagePublicKey = body.messagePublicKey := by
  obtain ⟨username, avatar, description, key⟩ := body
  obtain ⟨nextUsername, husername, h⟩ := bind_eq_ok.mp h
  obtain ⟨nextDescription, hdescription, h⟩ := bind_eq_ok.mp h
  dsimp only at h
  rcases avatar with _ | _ | avatar
  case' some.some => obtain ⟨-, h⟩ := unit_bind_eq_ok.mp h
  all_goals
    rcases key with _ | _ | key
    case' some.some => obtain ⟨-, h⟩ := unit_bind_eq_ok.mp h
    all_goals
      cases h
      exact ⟨husername, rfl, hdescription, rfl⟩

/-- The texts of a request. -/
def ProfileChanges.texts (body : ProfileChanges) : List String :=
  body.username.toList ++ body.avatarBase64.join.toList ++ body.description.join.toList ++
    body.messagePublicKey.join.toList

theorem profileTexts_over {user : User} (huser : (profileTexts user).all isText = true)
    (changes : ProfileChanges) :
    (profileTexts (changes.over user user)).all isText = changes.texts.all isText := by
  obtain ⟨username, avatar, description, key⟩ := changes
  simp only [profileTexts, List.all_cons, List.all_append, Bool.and_eq_true] at huser
  obtain ⟨hname, ⟨havatar, hdescription⟩, hkey⟩ := huser
  cases username <;> rcases avatar with _ | _ | avatar <;> rcases description with _ | _ | description <;>
    rcases key with _ | _ | key <;>
    simp [profileTexts, ProfileChanges.texts, ProfileChanges.over, *]

theorem isText_checkUsername {raw name : Option String} (h : checkUsername env raw = .ok name) :
    name.toList.all isText = raw.toList.all isText := by
  unfold checkUsername at h
  cases raw with
  | none =>
    cases h
    rfl
  | some raw =>
    have htext := isText_trim raw
    by_cases hblank : trim raw = ""
    · rw [hblank] at htext
      have hnone : ((some raw).map trim).filter (· ≠ "") = none := by simp [hblank]
      rw [hnone] at h
      cases h
      simp [← htext]
    · have hsome : ((some raw).map trim).filter (· ≠ "") = some (trim raw) := by simp [hblank]
      rw [hsome] at h
      obtain ⟨-, h⟩ := require_bind_eq_ok.mp h
      obtain ⟨-, h⟩ := unit_bind_eq_ok.mp h
      cases h
      simp [htext]

theorem isText_checkDescription {raw text : Option (Option String)}
    (h : checkDescription env raw = .ok text) :
    text.join.toList.all isText = raw.join.toList.all isText := by
  rcases raw with _ | _ | raw
  · cases h
    rfl
  · cases h
    rfl
  · have htext := isText_trim raw
    unfold checkDescription at h
    dsimp only at h
    split at h
    · rename_i hblank
      rw [hblank] at htext
      cases h
      simp [← htext]
    · obtain ⟨-, h⟩ := require_bind_eq_ok.mp h
      obtain ⟨-, h⟩ := unit_bind_eq_ok.mp h
      cases h
      simp [htext]

theorem texts_checkProfile (h : checkProfile env body = .ok changes) :
    changes.texts.all isText = body.texts.all isText := by
  obtain ⟨husername, havatar, hdescription, hkey⟩ := checkProfile_ok h
  simp only [ProfileChanges.texts, List.all_append, isText_checkUsername husername, havatar,
    isText_checkDescription hdescription, hkey]

theorem run_updateMe_ok {u : User} (h : (updateMe env userId body).run s = (.ok u, s')) :
    ∃ changes user, checkProfile env body = .ok changes ∧ s.db.users.get userId = some user ∧
      u = changes.over user user ∧
      s'.db.users = s.db.users.update userId (changes.over user) (changes.over_id user) := by
  obtain ⟨changes, hcheck, hrun⟩ := Tx.run_done_bind_eq_ok.mp h
  obtain ⟨d, hupdate, rfl⟩ := run_onDb_eq_iff.mp hrun
  obtain ⟨user, hget⟩ := run_updateProfile_found hupdate
  obtain rfl := Table.key_of_get hget
  have hset := (run_updateProfile_ok_iff hget).mp hupdate
  obtain rfl := setProfile_fst hget hset
  obtain ⟨r, -, -, -, rfl⟩ := setProfile_ok hset
  exact ⟨changes, user, hcheck, hget, rfl, rfl⟩

theorem run_updateMe_error {e : AppError} (h : (updateMe env userId body).run s = (.error e, s')) :
    s' = s := by
  unfold updateMe at h
  rcases hcheck : checkProfile env body with e' | changes
  · rw [hcheck] at h
    cases h
    rfl
  · rw [hcheck, Tx.run_bind_ok (Tx.run_done _ _), run_onDb] at h
    obtain ⟨herror, rfl⟩ := Prod.mk.inj h
    exact (congrArg s.setDb (run_updateProfile_error (Prod.ext herror rfl))).trans rfl

theorem run_updateMe_users (env : AccountEnv) (userId : Uuid) (body : ProfileChanges) (s : Server) :
    ((updateMe env userId body).run s).2.db.users = s.db.users ∨
      ∃ changes user, checkProfile env body = .ok changes ∧ s.db.users.get userId = some user ∧
        ((updateMe env userId body).run s).2.db.users =
          s.db.users.update userId (changes.over user) (changes.over_id user) := by
  rcases hrun : (updateMe env userId body).run s with ⟨e | u, s'⟩
  · left
    rw [run_updateMe_error hrun]
  · right
    obtain ⟨changes, user, hcheck, hget, -, husers⟩ := run_updateMe_ok hrun
    exact ⟨changes, user, hcheck, hget, husers⟩

end

end SyncServer.Accounts
