import SyncServer.Federation.Actors

/-! # Renamed accounts

The federation refers to accounts by their usernames, and its tables do not follow when a username
changes. A user can be renamed as long as the federation has never had to do with the old name.
-/

namespace SyncServer.Federation
open Transaction Accounts

/-- A text that the column for avatars takes. -/
def avatarFits (avatar : Option String) : Bool := !avatar.any (fun a => 400000 < a.toList.length)

/-- The profile is written if its columns take it, its name is free, and no row refers to a name that
is given up. -/
theorem setProfile_ok_iff {user : User} {d : Db} (changes : ProfileChanges)
    (hget : d.users.get user.id = some user)
    (hfree : ∀ u ∈ d.users.rows, u.id ≠ user.id → u.username ≠ (changes.over user user).username) :
    (∃ d', setProfile changes user d = .ok (changes.over user user, d') ∧
        d'.users.get user.id = some (changes.over user user)) ↔
      (profileTexts (changes.over user user)).all isText = true ∧
        avatarFits (changes.over user user).avatarBase64 = true ∧
          ((changes.over user user).username = user.username ∨
            refersTo d user.username = false) := by
  have hnotTaken : d.users.rows.any (fun u =>
      u.id ≠ user.id && u.username = (changes.over user user).username) = false := by
    simpa [List.any_eq_false] using hfree
  rcases htexts : (profileTexts (changes.over user user)).all isText with _ | _
  · simp [setProfile, htexts]
  simp only [setProfile, htexts, not_true_eq_false, hget, hnotTaken, Bool.false_eq_true, if_false,
    true_and]
  rcases havatar : (changes.over user user).avatarBase64.any (fun a => 400000 < a.toList.length) with
    _ | _
  · simp only [avatarFits, havatar, Bool.false_eq_true, if_false, Bool.not_false, true_and]
    by_cases hrefused : (changes.over user user).username ≠ user.username ∧
        refersTo d user.username = true
    · rw [if_pos hrefused]
      refine iff_of_false (by simp) ?_
      simpa [hrefused.2] using hrefused.1
    · rw [if_neg hrefused]
      refine iff_of_true ⟨_, rfl, by simp [hget]⟩ ?_
      rw [not_and_or, not_not, Bool.not_eq_true] at hrefused
      exact hrefused
  · simp [avatarFits, havatar]

/-- Whatever the database is, a user gets a name that passes the checks and is free exactly if the
name is the old one or the federation does not refer to the old one, and the columns take the avatar
and the texts that are sent along; a request that is refused changes nothing. -/
theorem rename_succeeds_iff (env : AccountEnv) (server : Server) (user : User)
    (hget : server.db.users.get user.id = some user)
    (hfits : avatarFits user.avatarBase64 = true)
    (htexts : (profileTexts user).all isText = true) (body changes : ProfileChanges)
    (hvalid : checkProfile env body = .ok changes) (name : String)
    (hname : changes.username = some name)
    (hfree : ∀ u ∈ server.db.users.rows, u.id ≠ user.id → u.username ≠ name) :
    ((∃ u server', (updateMe env user.id body).run server = (.ok u, server') ∧
        u.username = name ∧ server'.db.users.get user.id = some u) ↔
      (name = user.username ∨ refersTo server.db user.username = false) ∧
        (∀ avatar, body.avatarBase64 = some avatar → avatarFits avatar = true) ∧
          ∀ text ∈ body.texts, isText text = true) ∧
    ∀ (request : ProfileChanges) (e : AppError) (server' : Server),
      (updateMe env user.id request).run server = (.error e, server') → server' = server := by
  refine ⟨?_, fun request e server' h => run_updateMe_error h⟩
  have hnew : (changes.over user user).username = name := by
    simp [ProfileChanges.over, hname]
  have havatar : avatarFits (changes.over user user).avatarBase64 = true ↔
      ∀ avatar, body.avatarBase64 = some avatar → avatarFits avatar = true := by
    rw [← (checkProfile_ok hvalid).2.1]
    rcases h : changes.avatarBase64 with _ | avatar
    · simp [ProfileChanges.over, h, hfits]
    · simp [ProfileChanges.over, h]
  have hsent : (profileTexts (changes.over user user)).all isText = true ↔
      ∀ text ∈ body.texts, isText text = true := by
    rw [profileTexts_over htexts, texts_checkProfile hvalid, List.all_eq_true]
  have hset := setProfile_ok_iff changes hget (by rwa [hnew])
  rw [hnew, havatar, hsent] at hset
  rw [and_comm, and_assoc, and_left_comm, ← hset]
  unfold updateMe
  rw [hvalid, Tx.run_bind_ok (Tx.run_done _ _), run_onDb]
  constructor
  · rintro ⟨u, server', hrun, -, hafter⟩
    obtain ⟨hok, rfl⟩ := Prod.mk.inj hrun
    have hupdate := (run_updateProfile_ok_iff hget).mp (Prod.ext hok rfl)
    obtain rfl := setProfile_fst hget hupdate
    exact ⟨_, hupdate, hafter⟩
  · rintro ⟨d', hok, hafter⟩
    have hrun := (run_updateProfile_ok_iff hget).mpr hok
    rw [hrun]
    exact ⟨_, _, rfl, hnew, hafter⟩

/-! ## Alice takes another name -/

def toAlicia : ProfileChanges := ⟨some "alicia", none, none, none⟩

/-- The account of Alice. -/
def aliceUser : User :=
  (NewUser.row ⟨1, "alice", "alice@example.org",
    "$2b$12$abcdefghijklmnopqrstuuFDJRuYeKkCzo3Wy7h8SxhBSHBAHiPK2", "user", none, true⟩)

/-- Alice has registered, and somebody has fetched her actor document. -/
def fetchedAlice : Server :=
  runActors sampleActors newServer
    [.account (registration "alice" ("alice" ++ "@example.org")), .keyMaterial "alice" aliceKey]

theorem checkProfile_toAlicia : checkProfile sampleAccountEnv toAlicia = .ok toAlicia := by
  decide +kernel

theorem rename_succeeds_iff_alice :
    ((∃ u server', (updateMe sampleAccountEnv aliceUser.id toAlicia).run (registered "alice") =
        (.ok u, server') ∧ u.username = "alicia" ∧ server'.db.users.get aliceUser.id = some u) ↔
      ("alicia" = aliceUser.username ∨
          refersTo (registered "alice").db aliceUser.username = false) ∧
        (∀ avatar, toAlicia.avatarBase64 = some avatar → avatarFits avatar = true) ∧
          ∀ text ∈ toAlicia.texts, isText text = true) ∧
    ∀ (request : ProfileChanges) (e : AppError) (server' : Server),
      (updateMe sampleAccountEnv aliceUser.id request).run (registered "alice") =
        (.error e, server') → server' = registered "alice" :=
  rename_succeeds_iff sampleAccountEnv (registered "alice") aliceUser rfl rfl (by decide) toAlicia
    toAlicia checkProfile_toAlicia "alicia" rfl (by decide)

/-- Once her actor document was fetched she can no longer be renamed, although the new name passes
the checks and nobody has it. -/
theorem fetched_actor_not_renamed :
    checkProfile sampleAccountEnv toAlicia = .ok toAlicia ∧
      fetchedAlice.db.users.get aliceUser.id = some aliceUser ∧
      fetchedAlice.db.users.rows.all (fun u => u.username ≠ "alicia") = true ∧
      ((updateMe sampleAccountEnv aliceUser.id toAlicia).run fetchedAlice).1 =
        .error (.database .foreignKeyViolation) :=
  ⟨checkProfile_toAlicia, rfl, by decide +kernel, by decide +kernel⟩

end SyncServer.Federation
