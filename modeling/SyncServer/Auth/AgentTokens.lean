import SyncServer.Accounts.Deletion
import SyncServer.Auth.Suspension
import SyncServer.Base.Clock

/-! # Agent tokens

Tokens for programs that act for an administrator. The server keeps the hash of a token and
gives the token out once. What a token is good for is said by a register of the tokens that
were given out: a token lets a request in as long as it is neither revoked nor expired, and
its creator is an active administrator.
-/

namespace SyncServer.Auth
open Transaction Accounts

/-! ## The service -/

def maxNameChars : Nat := 120

/-- `normalize_name`. -/
def normalizeName (name : String) : Except AppError String := do
  let trimmed := trim name
  require (trimmed ≠ "") "name cannot be empty"
  require (trimmed.toList.length ≤ maxNameChars) "name must be <= 120 characters"
  pure trimmed

/-- `compute_expires_at`. -/
def computeExpiresAt (now : Int) : Option Int → Except AppError (Option Int)
  | none => .ok none
  | some days => do
    require (0 < days) "expires_in_days must be a positive number of days"
    match timeAdd now (Duration.days days) with
    | some t => pure (some t)
    | none => .error .panicked

/-- `issue_raw_token`: the token with its mark, and the hash of it. -/
def issueRawToken (env : TokenEnv) (rawSuffix : String) : String × String :=
  ("agt_" ++ rawSuffix, env.hashToken ("agt_" ++ rawSuffix))

def agentTokenByHash (hash : String) (s : Db) : Option AgentToken :=
  s.agentTokens.rows.find? (fun r => r.tokenHash = hash)

def addAgentToken (row : AgentToken) (s : Db) : Except DbError (Unit × Db) :=
  match s.agentTokens.insert row with
  | none => .error .uniqueViolation
  | some t =>
    if (agentTokenByHash row.tokenHash s).isSome then .error .uniqueViolation
    else if s.userExists row.createdBy then .ok ((), { s with agentTokens := t })
    else .error .foreignKeyViolation

/-- A request for a token, and what is drawn for it. -/
structure CreateTokenCall where
  createdBy : Uuid
  name : String
  expiresInDays : Option Int
  newId : Uuid
  rawSuffix : String
deriving DecidableEq, Repr

/-- `agent_token_service::create`; the columns for the name and the visible part of the token
are not modelled. -/
def createAgentToken (env : TokenEnv) (call : CreateTokenCall) (now : Int) :
    Query (AgentToken × String) := do
  let _ ← Tx.done (normalizeName call.name)
  let expiresAt ← Tx.done (computeExpiresAt now call.expiresInDays)
  let (rawToken, hash) := issueRawToken env call.rawSuffix
  Query.exec (fun _ => []) (addAgentToken ⟨call.newId, hash, call.createdBy, expiresAt, none⟩)
  let found ← Tx.query (fun s => s.agentTokens.get call.newId)
  let row ← Tx.okOr (.database .notFound) found
  pure (row, rawToken)

def revokedAgent (now : Int) (r : AgentToken) : AgentToken :=
  { r with revokedAt := r.revokedAt.or (some now) }

/-- `agent_token_service::revoke`. -/
def revokeAgentToken (id : Uuid) (now : Int) : Query Unit :=
  Query.exec (fun _ => []) (fun s => .ok ((), { s with
    agentTokens := s.agentTokens.update id (revokedAgent now) (fun _ => rfl) }))

/-! ## The register -/

/-- A token that was given out. -/
structure IssuedToken where
  id : Uuid
  raw : String
  createdBy : Uuid
  expiresAt : Option Int
  revoked : Bool
deriving DecidableEq, Repr

/-- A token that was given out and is worth something at a time. -/
structure IssuedToken.Valid (t : IssuedToken) (s : Db) (now : Int) : Prop where
  unrevoked : t.revoked = false
  unexpired : ∀ e, t.expiresAt = some e → now < e
  creator : ∃ u, s.users.get t.createdBy = some u ∧ u.isActive = true ∧ u.role = "admin"

/-- The database, the clock, and the tokens that were given out. -/
structure AgentWorld where
  db : Db
  now : Int
  issued : List IssuedToken

inductive AgentStep where
  | create (call : CreateTokenCall)
  | revoke (id : Uuid)
  | advance (microseconds : Nat)
  | updateUser (id : Uuid) (change : User → User) (keeps : ∀ r, (change r).id = r.id)
  | deleteUser (id : Uuid)

/-- What a token that was created is registered as. -/
def registered (created : AgentToken × String) : IssuedToken :=
  ⟨created.1.id, created.2, created.1.createdBy, created.1.expiresAt, false⟩

def revokedIssue (id : Uuid) (t : IssuedToken) : IssuedToken :=
  if t.id = id then { t with revoked := true } else t

def AgentStep.apply (env : TokenEnv) (w : AgentWorld) : AgentStep → AgentWorld
  | .create call =>
    match (createAgentToken env call w.now).run w.db with
    | (.ok created, d) => { w with db := d, issued := w.issued ++ [registered created] }
    | (.error _, d) => { w with db := d }
  | .revoke id =>
    { w with
      db := ((revokeAgentToken id w.now).run w.db).2
      issued := w.issued.map (revokedIssue id) }
  | .advance microseconds => { w with now := w.now + microseconds }
  | .updateUser id change keeps =>
    { w with db := { w.db with users := w.db.users.update id change keeps } }
  | .deleteUser id => { w with db := ((Accounts.deleteUser id).run w.db).2 }

def agentRun (env : TokenEnv) (w : AgentWorld) (steps : List AgentStep) : AgentWorld :=
  steps.foldl (AgentStep.apply env) w

/-- The random part of a token that is drawn in a step. -/
def AgentStep.drawn : AgentStep → Option String
  | .create call => some call.rawSuffix
  | _ => none

/-- A request of an administrator with the token is let in. -/
def Accepts (env : AuthEnv) (s : Db) (raw : String) (times : AdminTimes) : Prop :=
  ∃ claims, ((adminUser env (some ("Bearer " ++ raw)) times).run s).1 = .ok claims

/-! ## The extractors -/

theorem bearerToken_bearer (raw : String) : bearerToken (some ("Bearer " ++ raw)) = .ok raw := by
  simp [bearerToken, stripStart_append]

/-- The row that lets a request in. -/
structure Admits (env : AuthEnv) (s : Db) (raw : String) (now : Int) (row : AgentToken) : Prop where
  found : agentTokenByHash (env.tokens.hashToken raw) s = some row
  unrevoked : row.revokedAt = none
  unexpired : ∀ e, row.expiresAt = some e → now < e
  creator : ∃ u, s.users.get row.createdBy = some u ∧ u.isActive = true ∧ u.role = "admin"

def claimsFor (row : AgentToken) (creator : User) (times : AdminTimes) : Claims :=
  Claims.new row.createdBy creator.role (times.claimedAt / 1000000)
    (times.claimedAt / 1000000 + 300)

theorem run_agentClaims (env : AuthEnv) (token : String) (times : AdminTimes) (s : Db) :
    (agentClaims env token times).run s =
      (match (agentTokenByHash (env.tokens.hashToken token) s).filter (fun row =>
          row.revokedAt.isNone && !row.expiresAt.any (fun t => decide (t ≤ times.lookedUpAt))) with
        | none => .error .unauthorized
        | some row => (activeAdmin (s.users.get row.createdBy)).map
            (fun creator => .agentToken (claimsFor row creator times)), s) := by
  rw [agentClaims, verifyAgentToken, Tx.bind_assoc, Tx.run_bind_ok (Tx.run_query _ _),
    Tx.run_bind_ok (Tx.run_pure _ _), agentTokenByHash]
  rcases Option.filter _ _ with _ | row
  · rfl
  · rw [Tx.run_bind_ok (Tx.run_okOr_ok.mpr ⟨rfl, rfl⟩), findById, Tx.run_bind_ok (Tx.run_query _ _)]
    rcases hadmin : activeAdmin (s.users.get row.createdBy) with e | creator
    · simp only [hadmin]
      rfl
    · simp only [hadmin]
      rfl

/-- A request with an agent token is let in by a row for it. -/
theorem accepts_iff {env : AuthEnv} {s : Db} {raw : String} {times : AdminTimes}
    (hagent : startsWith raw "agt_") (hjwt : env.verifyAccessToken raw times.verifiedAt = none) :
    Accepts env s raw times ↔ ∃ row, Admits env s raw times.lookedUpAt row := by
  have hextract : extractAdminAuth env (some ("Bearer " ++ raw)) times =
      agentClaims env raw times := by
    have hdone : ∀ f : String → Query AdminAuth, (Tx.done (.ok raw) >>= f) = f raw := fun _ => rfl
    rw [extractAdminAuth, bearerToken_bearer, hdone]
    simp only [hjwt]
    exact if_pos hagent
  rw [Accepts, adminUser, hextract, Tx.run_bind, run_agentClaims]
  constructor
  · rintro ⟨claims, h⟩
    split at h
    · rename_i auth s' hrun
      obtain ⟨hresult, -⟩ := Prod.mk.inj hrun
      split at hresult
      · cases hresult
      rename_i row hrow
      rcases hadmin : activeAdmin (s.users.get row.createdBy) with e | creator
      · rw [hadmin] at hresult
        cases hresult
      obtain ⟨hfound, hvalid⟩ := Option.filter_eq_some_iff.mp hrow
      simp only [Bool.and_eq_true, Option.isNone_iff_eq_none, Bool.not_eq_true',
        Option.any_eq_false, decide_eq_false_iff_not, not_le] at hvalid
      exact ⟨row, hfound, hvalid.1, hvalid.2, creator, activeAdmin_ok_iff.mp hadmin⟩
    · cases h
  · rintro ⟨row, h⟩
    obtain ⟨creator, hcreator⟩ := h.creator
    have hrow : (agentTokenByHash (env.tokens.hashToken raw) s).filter (fun row =>
        row.revokedAt.isNone && !row.expiresAt.any (fun t => decide (t ≤ times.lookedUpAt))) =
        some row := by
      rw [Option.filter_eq_some_iff]
      simp only [Bool.and_eq_true, Option.isNone_iff_eq_none, Bool.not_eq_true',
        Option.any_eq_false, decide_eq_false_iff_not, not_le]
      exact ⟨h.found, h.unrevoked, h.unexpired⟩
    refine ⟨claimsFor row creator times, ?_⟩
    simp only [hrow, activeAdmin_ok_iff.mpr hcreator]
    rfl

theorem authUser_agent {env : AuthEnv} {raw : String} {now : Int}
    (hjwt : env.verifyAccessToken raw now = none) (s : Db) :
    (authUser env (some ("Bearer " ++ raw)) now).run s = (.error .unauthorized, s) := by
  have hclaims : extractClaims env (some ("Bearer " ++ raw)) now = .error .unauthorized := by
    rw [extractClaims, bearerToken_bearer]
    change verified env raw now = _
    rw [verified, hjwt]
  rw [authUser, hclaims]
  rfl

/-! ## The rows and the register -/

/-- The row of a token in the register. -/
structure RowOf (env : TokenEnv) (t : IssuedToken) (row : AgentToken) : Prop where
  id : row.id = t.id
  hash : row.tokenHash = env.hashToken t.raw
  createdBy : row.createdBy = t.createdBy
  expiresAt : row.expiresAt = t.expiresAt
  revoked : row.revokedAt.isSome = t.revoked

/-- Every row is registered, and a token has its row for as long as its creator exists. -/
structure Registered (env : TokenEnv) (w : AgentWorld) : Prop where
  rows : ∀ row ∈ w.db.agentTokens.rows, ∃ t ∈ w.issued, RowOf env t row
  kept : ∀ t ∈ w.issued, w.db.userExists t.createdBy →
    ∃ row ∈ w.db.agentTokens.rows, RowOf env t row
  hashes : (w.db.agentTokens.rows.map AgentToken.tokenHash).Nodup

variable {env : TokenEnv} {w : AgentWorld}

/-- A token is created with its row, or nothing happens. -/
theorem run_createAgentToken_cases (env : TokenEnv) (call : CreateTokenCall) (now : Int) (s : Db) :
    (∃ e, (createAgentToken env call now).run s = (.error e, s)) ∨
      ∃ expiresAt t, (createAgentToken env call now).run s =
          (.ok (⟨call.newId, env.hashToken ("agt_" ++ call.rawSuffix), call.createdBy, expiresAt,
            none⟩, "agt_" ++ call.rawSuffix), { s with agentTokens := t }) ∧
        s.agentTokens.insert ⟨call.newId, env.hashToken ("agt_" ++ call.rawSuffix), call.createdBy,
          expiresAt, none⟩ = some t ∧
        agentTokenByHash (env.hashToken ("agt_" ++ call.rawSuffix)) s = none := by
  rw [createAgentToken]
  rcases normalizeName call.name with e | name
  · exact .inl ⟨e, rfl⟩
  rw [Tx.run_bind_ok (Tx.run_done _ _)]
  rcases computeExpiresAt now call.expiresInDays with e | expiresAt
  · exact .inl ⟨e, rfl⟩
  rw [Tx.run_bind_ok (Tx.run_done _ _)]
  simp only [issueRawToken]
  generalize hrow : (⟨call.newId, env.hashToken ("agt_" ++ call.rawSuffix), call.createdBy,
    expiresAt, none⟩ : AgentToken) = row
  rcases hadd : addAgentToken row s with e | ⟨⟨⟩, s'⟩
  · exact .inl ⟨.database e, by rw [Tx.run_bind_error (Query.run_exec_error hadd)]⟩
  rw [Tx.run_bind_ok (Query.run_exec_ok.mpr hadd), Tx.run_bind_ok (Tx.run_query _ _)]
  unfold addAgentToken at hadd
  split at hadd
  · cases hadd
  rename_i t hinsert
  split at hadd
  · cases hadd
  rename_i hfresh
  split at hadd
  swap
  · cases hadd
  cases hadd
  refine .inr ⟨expiresAt, t, ?_, hrow ▸ hinsert, ?_⟩
  · have hid : row.id = call.newId := by rw [← hrow]
    have hget : t.get call.newId = some row := by rw [Table.get_of_insert hinsert, if_pos hid]
    rw [Tx.run_bind_ok (Tx.run_okOr_ok.mpr ⟨hget, rfl⟩), hrow]
    rfl
  · rw [← hrow] at hfresh
    simpa using hfresh

theorem Registered.create (h : Registered env w) (call : CreateTokenCall) :
    Registered env ((AgentStep.create call).apply env w) := by
  rw [AgentStep.apply]
  rcases run_createAgentToken_cases env call w.now w.db with
    ⟨e, hrun⟩ | ⟨expiresAt, t, hrun, hinsert, hfresh⟩
  · rw [hrun]
    exact h
  rw [hrun]
  have hrows := Table.rows_of_insert hinsert
  refine ⟨fun row hrow => ?_, fun t' ht' huser => ?_, ?_⟩
  · change row ∈ t.rows at hrow
    rw [hrows, List.mem_append, List.mem_singleton] at hrow
    rcases hrow with hrow | rfl
    · obtain ⟨t', ht', hof⟩ := h.rows row hrow
      exact ⟨t', List.mem_append_left _ ht', hof⟩
    · exact ⟨_, List.mem_append_right _ (List.mem_singleton_self _), rfl, rfl, rfl, rfl, rfl⟩
  · change ∃ row ∈ t.rows, _
    rw [hrows]
    rcases List.mem_append.mp ht' with ht' | ht'
    · obtain ⟨row, hrow, hof⟩ := h.kept t' ht' huser
      exact ⟨row, List.mem_append_left _ hrow, hof⟩
    · rw [List.mem_singleton.mp ht']
      exact ⟨_, List.mem_append_right _ (List.mem_singleton_self _), rfl, rfl, rfl, rfl, rfl⟩
  · change (t.rows.map AgentToken.tokenHash).Nodup
    rw [hrows, List.map_append]
    refine List.nodup_append.mpr ⟨h.hashes, List.nodup_singleton _, ?_⟩
    rintro hash hmem other hother rfl
    obtain ⟨row, hrow, rfl⟩ := List.mem_map.mp hmem
    have hne := List.find?_eq_none.mp hfresh row hrow
    exact hne (by simpa using hother)

theorem RowOf.revoke {t : IssuedToken} {row : AgentToken} (h : RowOf env t row) (id : Uuid)
    (now : Int) : RowOf env (revokedIssue id t)
      (if row.id = id then revokedAgent now row else row) := by
  by_cases hid : t.id = id
  · rw [if_pos (h.id.trans hid), revokedIssue, if_pos hid]
    refine ⟨h.id, h.hash, h.createdBy, h.expiresAt, ?_⟩
    cases hr : row.revokedAt <;> simp [revokedAgent, hr]
  · rw [if_neg (fun he => hid (h.id.symm.trans he)), revokedIssue, if_neg hid]
    exact h

theorem Registered.revoke (h : Registered env w) (id : Uuid) :
    Registered env ((AgentStep.revoke id).apply env w) := by
  have hcreator : ∀ t : IssuedToken, (revokedIssue id t).createdBy = t.createdBy := by
    intro t
    unfold revokedIssue
    split <;> rfl
  refine ⟨fun row hrow => ?_, fun t ht huser => ?_, ?_⟩
  · obtain ⟨row₀, hrow₀, rfl⟩ := List.mem_map.mp hrow
    obtain ⟨t, ht, hof⟩ := h.rows row₀ hrow₀
    exact ⟨_, List.mem_map_of_mem ht, hof.revoke id w.now⟩
  · obtain ⟨t₀, ht₀, rfl⟩ := List.mem_map.mp ht
    rw [hcreator] at huser
    obtain ⟨row, hrow, hof⟩ := h.kept t₀ ht₀ huser
    exact ⟨_, List.mem_map_of_mem hrow, hof.revoke id w.now⟩
  · have hsame : ∀ row : AgentToken,
        (if row.id = id then revokedAgent w.now row else row).tokenHash = row.tokenHash := by
      intro row
      split <;> rfl
    change ((w.db.agentTokens.rows.map _).map AgentToken.tokenHash).Nodup
    rw [List.map_map, show AgentToken.tokenHash ∘ _ = AgentToken.tokenHash from funext hsame]
    exact h.hashes

theorem Registered.deleteUser (h : Registered env w) (id : Uuid) :
    Registered env ((AgentStep.deleteUser id).apply env w) := by
  rw [AgentStep.apply, run_deleteUser]
  split
  swap
  · exact h
  refine ⟨fun row hrow => h.rows row (List.mem_filter.mp hrow).1, fun t ht huser => ?_,
    h.hashes.sublist (List.filter_sublist.map _)⟩
  obtain ⟨hne, hexists⟩ : t.createdBy ≠ id ∧ w.db.userExists t.createdBy := by
    simp only [Db.userExists, withoutUser] at huser ⊢
    rw [Table.get_filter_key _ (fun k => decide (k ≠ id))] at huser
    split at huser
    · rename_i hne
      exact ⟨of_decide_eq_true hne, huser⟩
    · cases huser
  obtain ⟨row, hrow, hof⟩ := h.kept t ht hexists
  refine ⟨row, List.mem_filter.mpr ⟨hrow, ?_⟩, hof⟩
  rw [hof.createdBy]
  exact decide_eq_true hne

theorem Registered.step (h : Registered env w) (step : AgentStep) :
    Registered env (step.apply env w) := by
  cases step with
  | create call => exact h.create call
  | revoke id => exact h.revoke id
  | advance microseconds => exact ⟨h.rows, h.kept, h.hashes⟩
  | updateUser id change keeps =>
    refine ⟨h.rows, fun t ht huser => h.kept t ht ?_, h.hashes⟩
    rwa [Db.userExists, AgentStep.apply, Table.isSome_get_update] at huser
  | deleteUser id => exact h.deleteUser id

theorem Registered.run (h : Registered env w) (steps : List AgentStep) :
    Registered env (agentRun env w steps) := by
  induction steps generalizing w with
  | nil => exact h
  | cons step steps ih => exact ih (h.step step)

/-- A token lets a request in if the register says so. -/
theorem Registered.accepts_iff {env : AuthEnv} (h : Registered env.tokens w)
    (hinj : Function.Injective env.tokens.hashToken) {raw : String} {times : AdminTimes}
    (hagent : startsWith raw "agt_") (hjwt : env.verifyAccessToken raw times.verifiedAt = none)
    (hnow : times.lookedUpAt = w.now) :
    Accepts env w.db raw times ↔ ∃ t ∈ w.issued, t.raw = raw ∧ t.Valid w.db w.now := by
  rw [Auth.accepts_iff hagent hjwt, hnow]
  constructor
  · rintro ⟨row, hrow⟩
    obtain ⟨t, ht, hof⟩ := h.rows row (List.mem_of_find?_eq_some hrow.found)
    have hhash : row.tokenHash = env.tokens.hashToken raw := by
      simpa using List.find?_some hrow.found
    refine ⟨t, ht, hinj (hof.hash.symm.trans hhash), ?_, ?_, ?_⟩
    · rw [← hof.revoked, hrow.unrevoked]
      rfl
    · rw [← hof.expiresAt]
      exact hrow.unexpired
    · rw [← hof.createdBy]
      exact hrow.creator
  · rintro ⟨t, ht, rfl, hvalid⟩
    obtain ⟨u, hu, -⟩ := hvalid.creator
    have huser : w.db.userExists t.createdBy := Option.isSome_of_eq_some hu
    obtain ⟨row, hrow, hof⟩ := h.kept t ht huser
    refine ⟨row, ?_, ?_, ?_, ?_⟩
    · obtain ⟨row', hrow'⟩ :
          ∃ row', agentTokenByHash (env.tokens.hashToken t.raw) w.db = some row' := by
        rw [← Option.isSome_iff_exists, agentTokenByHash, List.find?_isSome]
        exact ⟨row, hrow, by simpa using hof.hash⟩
      have hhash : row'.tokenHash = env.tokens.hashToken t.raw := by
        simpa using List.find?_some hrow'
      rw [hrow', List.inj_on_of_nodup_map h.hashes (List.mem_of_find?_eq_some hrow') hrow
        (hhash.trans hof.hash.symm)]
    · rw [← Option.not_isSome_iff_eq_none, hof.revoked, hvalid.unrevoked]
      simp
    · rw [hof.expiresAt]
      exact hvalid.unexpired
    · rw [hof.createdBy]
      exact hvalid.creator

/-! ## Dead tokens -/

def IssuedToken.Dead (t : IssuedToken) (now : Int) : Prop :=
  t.revoked = true ∨ ∃ e, t.expiresAt = some e ∧ e ≤ now

theorem IssuedToken.Dead.not_valid {t : IssuedToken} {s : Db} {now : Int} (h : t.Dead now) :
    ¬ t.Valid s now := by
  intro hvalid
  rcases h with hrevoked | ⟨e, he, hle⟩
  · simp [hvalid.unrevoked] at hrevoked
  · have := hvalid.unexpired e he
    omega

def drawnTokens (steps : List AgentStep) : List String :=
  (steps.filterMap AgentStep.drawn).map ("agt_" ++ ·)

theorem drawnTokens_append (steps steps' : List AgentStep) :
    drawnTokens (steps ++ steps') = drawnTokens steps ++ drawnTokens steps' := by
  simp [drawnTokens]

theorem revokedIssue_raw (id : Uuid) (t : IssuedToken) : (revokedIssue id t).raw = t.raw := by
  unfold revokedIssue
  split <;> rfl

theorem issued_step (env : TokenEnv) (w : AgentWorld) (step : AgentStep) :
    ((step.apply env w).issued.map IssuedToken.raw).Sublist
      (w.issued.map IssuedToken.raw ++ drawnTokens [step]) := by
  cases step with
  | create call =>
    rw [AgentStep.apply]
    rcases run_createAgentToken_cases env call w.now w.db with ⟨e, hrun⟩ | ⟨expiresAt, t, hrun, -⟩
    · rw [hrun]
      exact List.sublist_append_left _ _
    · rw [hrun]
      simp [registered, drawnTokens, AgentStep.drawn]
  | revoke id =>
    simp [AgentStep.apply, drawnTokens, AgentStep.drawn, Function.comp_def, revokedIssue_raw]
  | advance microseconds => exact List.sublist_append_left _ _
  | updateUser id change keeps => exact List.sublist_append_left _ _
  | deleteUser id => exact List.sublist_append_left _ _

theorem issued_run (env : TokenEnv) (w : AgentWorld) (steps : List AgentStep) :
    ((agentRun env w steps).issued.map IssuedToken.raw).Sublist
      (w.issued.map IssuedToken.raw ++ drawnTokens steps) := by
  induction steps generalizing w with
  | nil => simp [agentRun, drawnTokens]
  | cons step steps ih =>
    rw [← List.singleton_append, drawnTokens_append, ← List.append_assoc]
    exact (ih _).trans ((issued_step env w step).append_right _)

/-- A dead token stays dead, unless it is drawn again. -/
theorem dead_step {raw : String} (h : ∀ t ∈ w.issued, t.raw = raw → t.Dead w.now)
    (step : AgentStep) (hnew : raw ∉ drawnTokens [step]) :
    ∀ t ∈ (step.apply env w).issued, t.raw = raw → t.Dead (step.apply env w).now := by
  cases step with
  | create call =>
    rw [AgentStep.apply]
    rcases run_createAgentToken_cases env call w.now w.db with ⟨e, hrun⟩ | ⟨expiresAt, t, hrun, -⟩
    · rw [hrun]
      exact h
    · rw [hrun]
      intro t' ht' hraw
      rcases List.mem_append.mp ht' with ht' | ht'
      · exact h t' ht' hraw
      · rw [List.mem_singleton.mp ht'] at hraw
        exact absurd (by simp [drawnTokens, AgentStep.drawn, ← hraw, registered]) hnew
  | revoke id =>
    intro t ht hraw
    obtain ⟨t₀, ht₀, rfl⟩ := List.mem_map.mp ht
    rw [revokedIssue_raw] at hraw
    have hdead := h t₀ ht₀ hraw
    unfold revokedIssue
    split
    · exact .inl rfl
    · exact hdead
  | advance microseconds =>
    intro t ht hraw
    rcases h t ht hraw with hrevoked | ⟨e, he, hle⟩
    · exact .inl hrevoked
    · refine .inr ⟨e, he, ?_⟩
      change e ≤ w.now + microseconds
      omega
  | updateUser id change keeps => exact h
  | deleteUser id => exact h

theorem dead_run (env : TokenEnv) {raw : String} (h : ∀ t ∈ w.issued, t.raw = raw → t.Dead w.now)
    (steps : List AgentStep) (hnew : raw ∉ drawnTokens steps) :
    ∀ t ∈ (agentRun env w steps).issued, t.raw = raw → t.Dead (agentRun env w steps).now := by
  induction steps generalizing w with
  | nil => exact h
  | cons step steps ih =>
    rw [← List.singleton_append, drawnTokens_append, List.mem_append, not_or] at hnew
    exact ih (dead_step h step hnew.1) hnew.2

/-! ## Runs -/

/-- What agent tokens are good for after some steps. -/
structure AgentTokensSound (env : AuthEnv) (w : AgentWorld) (steps : List AgentStep) : Prop where
  /-- A token lets an administrator's request in if it was given out and is valid, and no other
  text with its mark does. -/
  accepted_iff : ∀ raw times, startsWith raw "agt_" →
    times.lookedUpAt = (agentRun env.tokens w steps).now →
    (Accepts env (agentRun env.tokens w steps).db raw times ↔
      ∃ t ∈ (agentRun env.tokens w steps).issued, t.raw = raw ∧
        t.Valid (agentRun env.tokens w steps).db (agentRun env.tokens w steps).now)
  /-- A token that was revoked or has expired never lets a request in again. -/
  dead : ∀ before after, steps = before ++ after → ∀ t ∈ (agentRun env.tokens w before).issued,
    t.Dead (agentRun env.tokens w before).now → ∀ times : AdminTimes,
      times.lookedUpAt = (agentRun env.tokens w steps).now →
      ¬ Accepts env (agentRun env.tokens w steps).db t.raw times
  /-- No request of a user is let in with a token. -/
  user : ∀ raw now, startsWith raw "agt_" →
    ((authUser env (some ("Bearer " ++ raw)) now).run (agentRun env.tokens w steps).db).1 =
      .error .unauthorized

/-- Over every run, agent tokens let the requests of administrators in exactly while the register
says so, if no two tokens have one hash, no token is drawn twice and none is a JSON Web Token. -/
theorem agent_tokens_sound (env : AuthEnv) (hinj : Function.Injective env.tokens.hashToken)
    (hjwt : ∀ raw now, startsWith raw "agt_" → env.verifyAccessToken raw now = none)
    (db : Db) (now : Int) (hempty : db.agentTokens.rows = []) (steps : List AgentStep)
    (hfresh : (steps.filterMap AgentStep.drawn).Nodup) :
    AgentTokensSound env ⟨db, now, []⟩ steps := by
  have hinit : Registered env.tokens ⟨db, now, []⟩ :=
    ⟨by simp [hempty], by simp, by simp [hempty]⟩
  have hkept := hinit.run steps
  refine ⟨fun raw times hagent hnow => hkept.accepts_iff hinj hagent (hjwt _ _ hagent) hnow, ?_,
    fun raw now hagent => by rw [authUser_agent (hjwt _ _ hagent)]⟩
  rintro before after rfl t ht hdead times hnow haccepts
  have hdrawn : (drawnTokens (before ++ after)).Nodup := by
    apply hfresh.map
    intro x y hxy
    simpa using hxy
  rw [drawnTokens_append] at hdrawn
  have hsub : ((agentRun env.tokens ⟨db, now, []⟩ before).issued.map IssuedToken.raw).Sublist
      (drawnTokens before) := by
    simpa using issued_run env.tokens ⟨db, now, []⟩ before
  have hmem : t.raw ∈ drawnTokens before := hsub.subset (List.mem_map_of_mem ht)
  have hagent : startsWith t.raw "agt_" := by
    obtain ⟨suffix, -, hraw⟩ := List.mem_map.mp hmem
    simp [← hraw, startsWith]
  have honly : ∀ t' ∈ (agentRun env.tokens ⟨db, now, []⟩ before).issued, t'.raw = t.raw →
      t'.Dead (agentRun env.tokens ⟨db, now, []⟩ before).now := by
    intro t' ht' hraw
    rw [List.inj_on_of_nodup_map (hsub.nodup (List.nodup_append.mp hdrawn).1) ht' ht hraw]
    exact hdead
  have hlater := dead_run env.tokens honly after
    (fun hafter => (List.nodup_append.mp hdrawn).2.2 _ hmem _ hafter rfl)
  obtain ⟨t', ht', hraw, hvalid⟩ :=
    (hkept.accepts_iff hinj hagent (hjwt _ _ hagent) hnow).mp haccepts
  have hrun : agentRun env.tokens ⟨db, now, []⟩ (before ++ after) =
      agentRun env.tokens (agentRun env.tokens ⟨db, now, []⟩ before) after :=
    List.foldl_append ..
  rw [hrun] at ht' hvalid
  exact (hlater t' ht' hraw).not_valid hvalid

/-! ## A token that is revoked -/

/-- An administrator without agent tokens. -/
def withAdmin : Db :=
  { Db.empty with users := signedIn.users.map (fun u => { u with role := "admin" }) (fun _ => rfl) }

def sampleSuffix : String := "0123456789abcdef0123456789abcdef0123456789abcdef0123456789abcdef"

def sampleAgentHash : String := "5923de9ff18a505098d6743834ce98ac3d85c6082594e9394f7e3e5855337913"

def agentEnv : AuthEnv :=
  { sampleAuthEnv with
    tokens := { sampleEnv with
      hashToken := fun raw => if raw = "agt_" ++ sampleSuffix then sampleAgentHash else "#" ++ raw } }

theorem hashToken_agentEnv_injective : Function.Injective agentEnv.tokens.hashToken := by
  have hne : ∀ raw : String, "#" ++ raw ≠ sampleAgentHash := by
    intro raw h
    have := congrArg (fun s => s.toList.head?) h
    simp [sampleAgentHash] at this
  intro raw raw' h
  simp only [agentEnv] at h
  split at h <;> split at h
  · simp_all
  · exact absurd h.symm (hne raw')
  · exact absurd h (hne raw)
  · simpa using h

theorem verifyAccessToken_agentEnv (raw : String) (now : Int) (h : startsWith raw "agt_") :
    agentEnv.verifyAccessToken raw now = none := by
  have hbegin : startsWith sampleAccessToken "agt_" = false := by decide +kernel
  have hne : raw ≠ sampleAccessToken := by
    intro heq
    rw [heq, hbegin] at h
    cases h
  simp only [agentEnv, sampleAuthEnv, hne, false_and, if_false]

def agentCreation : AgentStep := .create ⟨1, "ops agent", some 30, 9, sampleSuffix⟩

/-- The token lets a request in, but not once it is revoked, and not after thirty days. -/
theorem agent_tokens_sound_revoked :
    Accepts agentEnv (agentRun agentEnv.tokens ⟨withAdmin, 0, []⟩ [agentCreation]).db
      ("agt_" ++ sampleSuffix) ⟨0, 0, 0⟩ ∧
    ¬ Accepts agentEnv (agentRun agentEnv.tokens ⟨withAdmin, 0, []⟩ [agentCreation, .revoke 9]).db
      ("agt_" ++ sampleSuffix) ⟨0, 0, 0⟩ ∧
    ¬ Accepts agentEnv (agentRun agentEnv.tokens ⟨withAdmin, 0, []⟩
        [agentCreation, .advance 2592000000000]).db
      ("agt_" ++ sampleSuffix) ⟨2592000000000, 2592000000000, 2592000000000⟩ := by
  have hsound := agent_tokens_sound agentEnv hashToken_agentEnv_injective verifyAccessToken_agentEnv
    withAdmin 0 rfl
  refine ⟨((hsound [agentCreation] (by decide)).accepted_iff _ _ (by decide) rfl).mpr
    ⟨⟨9, "agt_" ++ sampleSuffix, 1, some 2592000000000, false⟩, by decide, rfl, ?_⟩,
    (hsound [agentCreation, .revoke 9] (by decide)).dead [agentCreation, .revoke 9] [] rfl
      ⟨9, "agt_" ++ sampleSuffix, 1, some 2592000000000, true⟩ (by decide) (.inl rfl) _ rfl,
    (hsound [agentCreation, .advance 2592000000000] (by decide)).dead
      [agentCreation, .advance 2592000000000] [] rfl
      ⟨9, "agt_" ++ sampleSuffix, 1, some 2592000000000, false⟩ (by decide)
      (.inr ⟨2592000000000, rfl, by decide⟩) _ rfl⟩
  refine ⟨rfl, ?_, _, rfl, rfl, rfl⟩
  rintro e ⟨⟩
  decide

end SyncServer.Auth
