import SyncServer.Auth.Suspension

/-! # Families of refresh tokens

Requests that are served one after another. A login opens a family with a single token, a
refresh replaces the token of its family, a logout and a replay close the family. So a
family has one live token at most, and none any more once it is closed.
-/

namespace SyncServer.Auth
open Transaction Accounts

/-- A request that issues, exchanges or revokes tokens. -/
inductive SessionRequest where
  | login (call : LoginCall)
  | deviceLogin (call : DeviceLoginCall)
  | approveQrLogin (call : ApproveQrCall)
  | refresh (call : RefreshCall)
  | logout (refreshToken : String)

/-- The server after a request. -/
def SessionRequest.apply (env : AuthEnv) (s : Server) : SessionRequest → Server
  | .login call => ((onDb (Auth.login env call)).run s).2
  | .deviceLogin call => ((Accounts.deviceLogin env.toAccountEnv call).run s).2
  | .approveQrLogin call => ((onDb (Auth.approveQrLogin env call)).run s).2
  | .refresh call => ((onDb (Auth.refresh env.tokens call)).run s).2
  | .logout refreshToken => ((onDb (Auth.logout env.tokens refreshToken)).run s).2

/-- The server after some requests. -/
def serve (env : AuthEnv) (s : Server) (requests : List SessionRequest) : Server :=
  requests.foldl (SessionRequest.apply env) s

/-- The family that is drawn for a login (`Uuid::new_v4`). -/
def SessionRequest.drawn : SessionRequest → Option Uuid
  | .login call => some call.family
  | .deviceLogin call => some call.family
  | .approveQrLogin call => some call.family
  | .refresh _ => none
  | .logout _ => none

/-- The family that a request is about: a new one, or that of the token it presents. -/
def SessionRequest.family (env : AuthEnv) (s : Db) : SessionRequest → Option Uuid
  | .refresh call =>
    (tokenByHash (env.tokens.hashToken call.refreshToken) s).map RefreshToken.family
  | .logout refreshToken =>
    (tokenByHash (env.tokens.hashToken refreshToken) s).map RefreshToken.family
  | r => r.drawn

def SessionRequest.Closes (env : AuthEnv) (s : Db) (family : Uuid) : SessionRequest → Prop
  | .refresh call => ∃ r, tokenByHash (env.tokens.hashToken call.refreshToken) s = some r ∧
      r.family = family ∧ r.revoked = true
  | .logout refreshToken => ∃ r, tokenByHash (env.tokens.hashToken refreshToken) s = some r ∧
      r.family = family
  | _ => False

def tokensOf (family : Uuid) (s : Db) : List RefreshToken :=
  s.refreshTokens.rows.filter (fun r => r.family = family)

def LiveOnce (s : Db) : Prop :=
  ∀ r ∈ s.refreshTokens.rows, ∀ r' ∈ s.refreshTokens.rows, r.revoked = false →
    r'.revoked = false → r.family = r'.family → r = r'

/-! ## What a request does to the tokens -/

def AddsTo (family : Uuid) (s s' : Db) : Prop :=
  s'.refreshTokens = s.refreshTokens ∨
    ∃ row, row.family = family ∧ s'.refreshTokens.rows = s.refreshTokens.rows ++ [row]

variable {s s' : Db} {f g : Uuid}

theorem AddsTo.congr {s₁ : Db} (hs : s₁.refreshTokens = s.refreshTokens) (h : AddsTo f s₁ s') :
    AddsTo f s s' := by
  unfold AddsTo at h ⊢
  rwa [hs] at h

theorem addsTo_mintTokens (tokens : TokenEnv) (userId : Uuid) (role : String) (family : Uuid)
    (mint : Minting) (s : Db) :
    AddsTo family s ((mintTokens tokens userId role family mint).run s).2 := by
  rw [mintTokens]
  rcases htoken : accessTokenFor tokens userId role mint with e | accessToken
  · exact .inl rfl
  rw [Tx.run_bind_ok (Tx.run_done _ _)]
  rcases hadd : addToken (mintedToken tokens userId family mint) s with e | ⟨⟨⟩, s₁⟩
  · rw [insertToken, Tx.run_bind_error (Query.run_exec_error hadd)]
    exact .inl rfl
  · rw [insertToken, Tx.run_bind_ok (Query.run_exec_ok.mpr hadd)]
    exact .inr ⟨_, rfl, (addToken_ok hadd).2⟩

theorem addsTo_bind {σ α β : Type} {π : σ → Db} {t : Tx σ RowLock AppError α}
    {k : α → Tx σ RowLock AppError β} {d : σ} (ht : t.Keeps (fun d => (π d).refreshTokens))
    (hk : ∀ a d', t.run d = (.ok a, d') → AddsTo f (π d') (π ((k a).run d').2)) :
    AddsTo f (π d) (π ((t >>= k).run d).2) := by
  rw [Tx.run_bind]
  rcases hrun : t.run d with ⟨e | a, d'⟩
  · exact .inl (ht.of_run hrun)
  · exact (hk a d' hrun).congr (ht.of_run hrun)

theorem addsTo_login (env : AuthEnv) (call : LoginCall) (s : Db) :
    AddsTo call.family s ((login env call).run s).2 := by
  apply addsTo_bind (π := id) (Tx.keeps_query _ _)
  intro found s₁ _
  apply addsTo_bind (π := id) (Tx.keeps_okOr _ _ found)
  intro user s₂ _
  apply addsTo_bind (π := id) (Tx.keeps_done _ _)
  intro _ s₃ _
  apply addsTo_bind (π := id) (keeps_recordTermsAcceptance _ _)
  intro _ s₄ _
  exact addsTo_mintTokens _ _ _ _ _ s₄

theorem addsTo_deviceLogin (env : AccountEnv) (call : DeviceLoginCall) (s : Server) :
    AddsTo call.family s.db ((deviceLogin env call).run s).2.db := by
  apply addsTo_bind (π := Server.db) (Tx.keeps_done _ _)
  intro _ s₁ _
  apply addsTo_bind (π := Server.db) (keeps_onDb (Tx.keeps_query _ _))
  intro found s₂ _
  apply addsTo_bind (π := Server.db) (keeps_deviceUser (fun _ _ => rfl) env call found)
  intro user s₃ _
  cases user with
  | none => exact .inl rfl
  | some user =>
    apply addsTo_bind (π := Server.db) (keeps_onDb (keeps_recordTermsAcceptance _ _))
    intro _ s₄ _
    rw [Tx.run_bind_keeps (π := Server.db) _ (fun _ => Tx.keeps_pure _ _), run_onDb]
    exact addsTo_mintTokens _ _ _ _ _ s₄.db

theorem addsTo_approveQrLogin (env : AuthEnv) (call : ApproveQrCall) (s : Db) :
    AddsTo call.family s ((approveQrLogin env call).run s).2 := by
  apply addsTo_bind (π := id) (keeps_authUser _ _ _)
  intro claims s₁ _
  apply addsTo_bind (π := id) (Tx.keeps_done _ _)
  intro record s₂ _
  split
  · exact .inl rfl
  apply addsTo_bind (π := id) (Tx.keeps_done _ _)
  intro userId s₃ _
  rw [Tx.run_bind_keeps (π := id)]
  · exact addsTo_mintTokens _ _ _ _ _ s₃
  · exact fun tokens => Tx.keeps_bind (Tx.keeps_done _ _) (fun _ => Tx.keeps_pure _ _)

/-- What `refresh` does, by the token it finds. -/
inductive RefreshOutcome (call : RefreshCall) (s : Db) :
    Option RefreshToken → Except AppError TokenResponse × Db → Prop
  | unknown : RefreshOutcome call s none (.error .unauthorized, s)
  | replayed {stored : RefreshToken} (revoked : stored.revoked = true) :
      RefreshOutcome call s (some stored)
        (.error .unauthorized, revokeWhere (fun r => r.family = stored.family) s)
  | expired {stored : RefreshToken} (live : stored.revoked = false)
      (late : stored.expiresAt < call.now) :
      RefreshOutcome call s (some stored) (.error .unauthorized, s)
  | rotated {stored : RefreshToken} {result : Except AppError TokenResponse × Db}
      (live : stored.revoked = false) (early : call.now ≤ stored.expiresAt)
      (adds : AddsTo stored.family (revokeWhere (fun r => r.id = stored.id) s) result.2) :
      RefreshOutcome call s (some stored) result

theorem refresh_outcome (tokens : TokenEnv) (call : RefreshCall) (s : Db) :
    RefreshOutcome call s (tokenByHash (tokens.hashToken call.refreshToken) s)
      ((refresh tokens call).run s) := by
  rw [refresh, Tx.run_bind_ok (Tx.run_query _ _)]
  rcases tokenByHash (tokens.hashToken call.refreshToken) s with _ | stored
  · exact .unknown
  change RefreshOutcome call s (some stored)
    ((if stored.revoked = true then _ else _ : Query TokenResponse).run s)
  by_cases hrevoked : stored.revoked = true
  · rw [if_pos hrevoked]
    exact .replayed hrevoked
  rw [if_neg hrevoked]
  have hlive : stored.revoked = false := by simpa using hrevoked
  by_cases hexpired : stored.expiresAt < call.now
  · rw [if_pos hexpired]
    exact .expired hlive hexpired
  have hrevoke :
      (revokeToken stored.id).run s = (.ok (), revokeWhere (fun r => r.id = stored.id) s) :=
    Query.run_exec_ok.mpr rfl
  rw [if_neg hexpired, Tx.run_bind_ok hrevoke]
  refine .rotated hlive (not_lt.mp hexpired) ?_
  apply addsTo_bind (π := id) (Tx.keeps_query _ _)
  intro found s₁ _
  apply addsTo_bind (π := id) (Tx.keeps_okOr _ _ found)
  intro user s₂ _
  exact addsTo_mintTokens _ _ _ _ _ s₂

theorem run_refresh_replayed {tokens : TokenEnv} {call : RefreshCall} {stored : RefreshToken}
    (hfound : tokenByHash (tokens.hashToken call.refreshToken) s = some stored)
    (hrevoked : stored.revoked = true) :
    (refresh tokens call).run s =
      (.error .unauthorized, revokeWhere (fun r => r.family = stored.family) s) := by
  have houtcome := refresh_outcome tokens call s
  rw [hfound] at houtcome
  generalize (refresh tokens call).run s = result at houtcome ⊢
  cases houtcome with
  | replayed => rfl
  | expired hlive => simp [hrevoked] at hlive
  | rotated hlive => simp [hrevoked] at hlive

/-- What a request does to the tokens, by the family that it draws and the family it is
about. -/
inductive TokenChange (s s' : Db) : Option Uuid → Option Uuid → Prop
  | same {drawn family : Option Uuid} (h : s'.refreshTokens = s.refreshTokens) :
      TokenChange s s' drawn family
  | opens {f : Uuid} (adds : AddsTo f s s') : TokenChange s s' (some f) (some f)
  | closes {f : Uuid}
      (h : s'.refreshTokens = (revokeWhere (fun r => r.family = f) s).refreshTokens) :
      TokenChange s s' none (some f)
  | rotates {stored : RefreshToken} (found : stored ∈ s.refreshTokens.rows)
      (live : stored.revoked = false)
      (adds : AddsTo stored.family (revokeWhere (fun r => r.id = stored.id) s) s') :
      TokenChange s s' none (some stored.family)

theorem mem_of_tokenByHash {hash : String} {r : RefreshToken} (h : tokenByHash hash s = some r) :
    r ∈ s.refreshTokens.rows := List.mem_of_find?_eq_some h

theorem run_logout (tokens : TokenEnv) (refreshToken : String) (s : Db) :
    (logout tokens refreshToken).run s =
      match tokenByHash (tokens.hashToken refreshToken) s with
      | some stored => (.ok (), revokeWhere (fun r => r.family = stored.family) s)
      | none => (.ok (), s) := by
  rw [logout, Tx.run_bind_ok (Tx.run_query _ _)]
  cases tokenByHash (tokens.hashToken refreshToken) s <;> rfl

theorem SessionRequest.tokenChange (env : AuthEnv) (s : Server) (q : SessionRequest) :
    TokenChange s.db (q.apply env s).db q.drawn (q.family env s.db) := by
  cases q with
  | login call =>
    rw [apply, run_onDb]
    exact .opens (addsTo_login env call s.db)
  | deviceLogin call =>
    rw [apply]
    exact .opens (addsTo_deviceLogin env.toAccountEnv call s)
  | approveQrLogin call =>
    rw [apply, run_onDb]
    exact .opens (addsTo_approveQrLogin env call s.db)
  | refresh call =>
    rw [apply, run_onDb, family]
    have houtcome := refresh_outcome env.tokens call s.db
    change TokenChange s.db ((Auth.refresh env.tokens call).run s.db).2 none _
    rcases hfound : tokenByHash (env.tokens.hashToken call.refreshToken) s.db with _ | stored
    all_goals
      rw [hfound] at houtcome
      generalize (Auth.refresh env.tokens call).run s.db = result at houtcome
      cases houtcome
    · exact .same rfl
    · exact .closes rfl
    · exact .same rfl
    · rename_i hlive hearly hadds
      exact .rotates (mem_of_tokenByHash hfound) hlive hadds
  | logout refreshToken =>
    rw [apply, run_onDb, family, run_logout]
    rcases tokenByHash (env.tokens.hashToken refreshToken) s.db with _ | stored
    · exact .same rfl
    · exact .closes rfl

/-! ## Families keep to themselves -/

theorem tokensOf_congr (h : s'.refreshTokens = s.refreshTokens) (f : Uuid) :
    tokensOf f s' = tokensOf f s := by
  rw [tokensOf, h, tokensOf]

theorem AddsTo.isolated (h : AddsTo f s s') (hg : g ≠ f) : tokensOf g s' = tokensOf g s := by
  obtain h | ⟨row, hfamily, hrows⟩ := h
  · exact tokensOf_congr h g
  · simp [tokensOf, hrows, hfamily, hg.symm]

theorem tokensOf_revokeWhere (p : RefreshToken → Prop) [DecidablePred p]
    (hp : ∀ r ∈ s.refreshTokens.rows, r.family = g → ¬ p r) :
    tokensOf g (revokeWhere p s) = tokensOf g s := by
  have hself : ∀ r ∈ tokensOf g s, revokeIf p r = r := by
    intro r hr
    obtain ⟨hmem, hfamily⟩ := List.mem_filter.mp hr
    exact if_neg (hp r hmem (by simpa using hfamily))
  have hmap : tokensOf g (revokeWhere p s) = (tokensOf g s).map (revokeIf p) := by
    simp [tokensOf, revokeWhere, Table.map, List.filter_map, Function.comp_def, revokeIf_family]
  rw [hmap, List.map_congr_left hself, List.map_id']

theorem TokenChange.isolated {drawn family : Option Uuid} (h : TokenChange s s' drawn family)
    (hg : family ≠ some g) : tokensOf g s' = tokensOf g s := by
  cases h with
  | same h => exact tokensOf_congr h g
  | opens adds => exact adds.isolated (fun h => hg (h ▸ rfl))
  | closes h =>
    rw [tokensOf_congr h]
    exact tokensOf_revokeWhere _ (fun r _ hr hf => hg (hf ▸ hr ▸ rfl))
  | rotates found live adds =>
    rename_i stored
    rw [adds.isolated (fun h => hg (h ▸ rfl))]
    apply tokensOf_revokeWhere
    intro r hr hfamily hid
    have hsame : r = stored := List.inj_on_of_nodup_map s.refreshTokens.keys_nodup hr found hid
    exact hg (hfamily ▸ hsame ▸ rfl)

/-! ## One live token -/

theorem LiveOnce.revokes (h : LiveOnce s) (p : RefreshToken → Prop) [DecidablePred p] :
    LiveOnce (revokeWhere p s) := by
  have hlive : ∀ r ∈ (revokeWhere p s).refreshTokens.rows, r.revoked = false →
      r ∈ s.refreshTokens.rows := by
    intro r hr hrevoked
    obtain ⟨r₀, hr₀, rfl⟩ := List.mem_map.mp hr
    have hp : ¬ p r₀ := fun hp => by simp [(revokeIf_revoked p r₀).mpr (.inl hp)] at hrevoked
    rwa [revokeIf, if_neg hp]
  exact fun r hr r' hr' hrev hrev' => h r (hlive r hr hrev) r' (hlive r' hr' hrev') hrev hrev'

theorem LiveOnce.congr (h : LiveOnce s) (hs : s'.refreshTokens = s.refreshTokens) :
    LiveOnce s' := by
  rw [LiveOnce, hs]
  exact h

theorem LiveOnce.adds (h : LiveOnce s) (hf : FamilyRevoked s f) (hadds : AddsTo f s s') :
    LiveOnce s' := by
  obtain hs | ⟨row, rfl, hrows⟩ := hadds
  · exact h.congr hs
  intro r hr r' hr' hrev hrev' hfamily
  rw [hrows, List.mem_append, List.mem_singleton] at hr hr'
  rcases hr with hr | rfl <;> rcases hr' with hr' | rfl
  · exact h r hr r' hr' hrev hrev' hfamily
  · simp [hf r hr hfamily] at hrev
  · simp [hf r' hr' hfamily.symm] at hrev'
  · rfl

theorem LiveOnce.familyRevoked (h : LiveOnce s) {stored : RefreshToken}
    (hstored : stored ∈ s.refreshTokens.rows) (hlive : stored.revoked = false) :
    FamilyRevoked (revokeWhere (fun r => r.id = stored.id) s) stored.family := by
  intro r hr hfamily
  obtain ⟨r₀, hr₀, rfl⟩ := List.mem_map.mp hr
  rw [revokeIf_family] at hfamily
  rw [revokeIf_revoked]
  by_cases hrev : r₀.revoked = true
  · exact .inr hrev
  · rw [h r₀ hr₀ stored hstored (by simpa using hrev) hlive hfamily]
    exact .inl rfl

theorem TokenChange.liveOnce {drawn family : Option Uuid} (h : TokenChange s s' drawn family)
    (hs : LiveOnce s) (hdrawn : ∀ f, drawn = some f → tokensOf f s = []) : LiveOnce s' := by
  cases h with
  | same h => exact hs.congr h
  | opens adds =>
    refine hs.adds (fun r hr hfamily => ?_) adds
    have hmem : r ∈ tokensOf _ s := List.mem_filter.mpr ⟨hr, by simpa using hfamily⟩
    rw [hdrawn _ rfl] at hmem
    cases hmem
  | closes h => exact (hs.revokes _).congr h
  | rotates found live adds => exact (hs.revokes _).adds (hs.familyRevoked found live) adds

/-! ## Closed families -/

theorem familyRevoked_iff : FamilyRevoked s f ↔ ∀ r ∈ tokensOf f s, r.revoked = true := by
  simp [FamilyRevoked, tokensOf]

theorem TokenChange.familyRevoked {drawn family : Option Uuid}
    (h : TokenChange s s' drawn family) (hf : FamilyRevoked s f) (hdrawn : drawn ≠ some f) :
    FamilyRevoked s' f := by
  have hsame : tokensOf f s' = tokensOf f s → FamilyRevoked s' f := by
    intro heq
    rw [familyRevoked_iff, heq]
    exact familyRevoked_iff.mp hf
  cases h with
  | same h => exact hsame (tokensOf_congr h f)
  | opens adds => exact hsame (adds.isolated (fun h => hdrawn (h ▸ rfl)))
  | closes h =>
    rw [FamilyRevoked, h]
    exact familyRevoked_revokeWhere _ (.inl hf)
  | rotates found live adds =>
    rename_i stored
    have hne : f ≠ stored.family := by
      rintro rfl
      simp [hf stored found rfl] at live
    apply hsame
    exact (TokenChange.rotates found live adds).isolated (fun h => hne (Option.some.inj h).symm)

theorem SessionRequest.familyRevoked_of_closes {env : AuthEnv} {s : Server} {q : SessionRequest}
    (h : q.Closes env s.db f) : FamilyRevoked (q.apply env s).db f := by
  cases q with
  | login call => exact h.elim
  | deviceLogin call => exact h.elim
  | approveQrLogin call => exact h.elim
  | refresh call =>
    obtain ⟨stored, hfound, rfl, hrevoked⟩ := h
    rw [apply, run_onDb, run_refresh_replayed hfound hrevoked]
    exact familyRevoked_revokeWhere _ (.inr (fun _ h => h))
  | logout refreshToken =>
    obtain ⟨stored, hfound, rfl⟩ := h
    rw [apply, run_onDb, run_logout, hfound]
    exact familyRevoked_revokeWhere _ (.inr (fun _ h => h))

theorem refresh_ok {tokens : TokenEnv} {call : RefreshCall} {response : TokenResponse}
    (h : ((refresh tokens call).run s).1 = .ok response) :
    ∃ stored, tokenByHash (tokens.hashToken call.refreshToken) s = some stored ∧
      stored.revoked = false ∧ call.now ≤ stored.expiresAt := by
  have houtcome := refresh_outcome tokens call s
  generalize (refresh tokens call).run s = result at houtcome h
  rcases hfound : tokenByHash (tokens.hashToken call.refreshToken) s with _ | stored
  all_goals
    rw [hfound] at houtcome
    cases houtcome
  · cases h
  · cases h
  · cases h
  · rename_i hlive hearly _
    exact ⟨stored, rfl, hlive, hearly⟩

theorem SessionRequest.Closes.mem {env : AuthEnv} {q : SessionRequest} (h : q.Closes env s f) :
    ∃ r ∈ s.refreshTokens.rows, r.family = f := by
  cases q with
  | login call => exact h.elim
  | deviceLogin call => exact h.elim
  | approveQrLogin call => exact h.elim
  | refresh call =>
    obtain ⟨r, hr, hf, -⟩ := h
    exact ⟨r, mem_of_tokenByHash hr, hf⟩
  | logout refreshToken =>
    obtain ⟨r, hr, hf⟩ := h
    exact ⟨r, mem_of_tokenByHash hr, hf⟩

/-! ## Runs -/

structure FamiliesKept (s : Db) (drawn : List Uuid) : Prop where
  liveOnce : LiveOnce s
  known : ∀ r ∈ s.refreshTokens.rows, r.family ∈ drawn

theorem SessionRequest.family_cases {env : AuthEnv} {q : SessionRequest}
    (h : q.family env s = some f) :
    q.drawn = some f ∨ ∃ r ∈ s.refreshTokens.rows, r.family = f := by
  cases q with
  | login call => exact .inl h
  | deviceLogin call => exact .inl h
  | approveQrLogin call => exact .inl h
  | refresh call =>
    obtain ⟨r, hr, hf⟩ := Option.map_eq_some_iff.mp h
    exact .inr ⟨r, mem_of_tokenByHash hr, hf⟩
  | logout refreshToken =>
    obtain ⟨r, hr, hf⟩ := Option.map_eq_some_iff.mp h
    exact .inr ⟨r, mem_of_tokenByHash hr, hf⟩

theorem FamiliesKept.step {env : AuthEnv} {s : Server} {drawn : List Uuid}
    (h : FamiliesKept s.db drawn) (q : SessionRequest) (hnew : ∀ f, q.drawn = some f → f ∉ drawn) :
    FamiliesKept (q.apply env s).db (drawn ++ q.drawn.toList) := by
  have hchange := q.tokenChange env s
  constructor
  · apply hchange.liveOnce h.liveOnce
    intro f hf
    apply List.filter_eq_nil_iff.mpr
    intro r hr hfamily
    exact hnew f hf (of_decide_eq_true hfamily ▸ h.known r hr)
  · intro r hr
    rw [List.mem_append, Option.mem_toList]
    by_cases hfamily : q.family env s.db = some r.family
    · rcases q.family_cases hfamily with hdrawn | ⟨r₀, hr₀, hr⟩
      · exact .inr hdrawn
      · exact .inl (hr ▸ h.known r₀ hr₀)
    · have hmem : r ∈ tokensOf r.family (q.apply env s).db := List.mem_filter.mpr ⟨hr, by simp⟩
      rw [hchange.isolated hfamily] at hmem
      exact .inl (h.known r (List.mem_filter.mp hmem).1)

theorem FamiliesKept.serve {s : Server} {drawn : List Uuid} (h : FamiliesKept s.db drawn)
    (env : AuthEnv) (requests : List SessionRequest)
    (hnew : (drawn ++ requests.filterMap SessionRequest.drawn).Nodup) :
    FamiliesKept (serve env s requests).db
      (drawn ++ requests.filterMap SessionRequest.drawn) := by
  induction requests generalizing s drawn with
  | nil => simpa [Auth.serve] using h
  | cons q requests ih =>
    have hlist : drawn ++ (q :: requests).filterMap SessionRequest.drawn =
        (drawn ++ q.drawn.toList) ++ requests.filterMap SessionRequest.drawn := by
      rcases hq : q.drawn <;> simp [hq]
    rw [hlist] at hnew ⊢
    refine ih (h.step q (fun f hf hmem => ?_)) hnew
    rw [hf] at hnew
    exact (List.nodup_append.mp (List.nodup_append.mp hnew).1).2.2 f hmem f (by simp) rfl

theorem familyRevoked_serve {s : Server} (env : AuthEnv) {requests : List SessionRequest}
    (h : FamilyRevoked s.db f) (hnew : f ∉ requests.filterMap SessionRequest.drawn) :
    FamilyRevoked (serve env s requests).db f := by
  induction requests generalizing s with
  | nil => exact h
  | cons q requests ih =>
    have hq : q.drawn ≠ some f := fun hq => hnew (by simp [hq])
    have hrest : f ∉ requests.filterMap SessionRequest.drawn :=
      fun hmem => hnew (((List.sublist_cons_self q requests).filterMap _).subset hmem)
    exact ih ((q.tokenChange env s).familyRevoked h hq) hrest

/-- What holds of the families after some requests. -/
structure FamiliesSound (env : AuthEnv) (s : Server) (requests : List SessionRequest) : Prop where
  /-- A family has one unrevoked token at most. -/
  liveOnce : LiveOnce (serve env s requests).db
  /-- A refresh succeeds with this token only, and not after its expiry. -/
  exchanged : ∀ call response,
    ((refresh env.tokens call).run (serve env s requests).db).1 = .ok response →
      ∃ stored, tokenByHash (env.tokens.hashToken call.refreshToken) (serve env s requests).db =
        some stored ∧ stored.revoked = false ∧ call.now ≤ stored.expiresAt
  /-- After a replay or a logout in the family no refresh in it succeeds. -/
  closed : ∀ before q after f, requests = before ++ q :: after →
    q.Closes env (serve env s before).db f → ∀ call stored,
      tokenByHash (env.tokens.hashToken call.refreshToken) (serve env s requests).db =
        some stored → stored.family = f →
      ((refresh env.tokens call).run (serve env s requests).db).1 = .error .unauthorized
  /-- A request is about one family, and the tokens of the others stay as they are. -/
  isolated : ∀ (q : SessionRequest) g, q.family env (serve env s requests).db ≠ some g →
    tokensOf g (q.apply env (serve env s requests)).db = tokensOf g (serve env s requests).db

/-- Requests that are served one after another, if no family is drawn twice, keep one live
token in a family at most, exchange no other token, and never reopen a closed family. -/
theorem families_sound (env : AuthEnv) (s : Server) (hempty : s.db.refreshTokens.rows = [])
    (requests : List SessionRequest)
    (hnew : (requests.filterMap SessionRequest.drawn).Nodup) : FamiliesSound env s requests := by
  have hinit : FamiliesKept s.db [] := by
    constructor
    · intro r hr
      simp [hempty] at hr
    · intro r hr
      simp [hempty] at hr
  have hkept := hinit.serve env requests (by simpa using hnew)
  refine ⟨hkept.liveOnce, fun call response h => refresh_ok h, ?_,
    fun q g hg => (q.tokenChange env _).isolated hg⟩
  rintro before q after f rfl hcloses call stored hfound rfl
  have hserve : serve env s (before ++ q :: after) =
      serve env (q.apply env (serve env s before)) after := by
    simp [serve]
  rw [hserve] at hfound ⊢
  rw [List.filterMap_append] at hnew
  have hbefore := hinit.serve env before
    (by simpa using (List.nodup_append.mp hnew).1)
  have hlater : stored.family ∉ after.filterMap SessionRequest.drawn := by
    intro hmem
    obtain ⟨r, hr, hf⟩ := hcloses.mem
    have hearlier := hbefore.known r hr
    rw [List.nil_append, hf] at hearlier
    exact (List.nodup_append.mp hnew).2.2 _ hearlier _
      (((List.sublist_cons_self q after).filterMap _).subset hmem) rfl
  have hrevoked := familyRevoked_serve env
    (SessionRequest.familyRevoked_of_closes hcloses) hlater
  rw [run_refresh_replayed hfound (hrevoked stored (mem_of_tokenByHash hfound) rfl)]

/-! ## A token that is replayed -/

/-- Alice has a device and no tokens yet. -/
def withDevice : Server :=
  ⟨{ signedIn with
    users := signedIn.users.map (fun u => { u with deviceAuthPubkey := some "key" }) (fun _ => rfl)
    refreshTokens := Table.empty }, none, [], [], []⟩

def deviceLoginCall : DeviceLoginCall where
  deviceAuthPubkey := "key"
  altchaPayload := none
  acceptedTermsVersion := none
  clientIp := "192.0.2.1"
  now := 0
  recordedAt := 0
  newId := 9
  password := 10
  salt := "abcdefghijklmnopqrstuu"
  family := 7
  minting := ⟨0, 5, "a"⟩

/-- She exchanges her first token, and somebody presents it again. -/
def replayedRequests : List SessionRequest :=
  [.deviceLogin deviceLoginCall, .refresh ⟨⟨1000000, 6, "b"⟩, "a", 1000000⟩,
    .refresh ⟨⟨2000000, 8, "c"⟩, "a", 2000000⟩]

example : (serve sampleAuthEnv withDevice (replayedRequests.take 2)).db.refreshTokens.rows.map
    (fun r => (r.id, r.family, r.revoked)) = [(5, 7, true), (6, 7, false)] := by decide

theorem families_sound_replayed :
    ((refresh sampleEnv ⟨⟨3000000, 8, "c"⟩, "b", 3000000⟩).run
      (serve sampleAuthEnv withDevice replayedRequests).db).1 = .error .unauthorized :=
  (families_sound sampleAuthEnv withDevice rfl replayedRequests (by decide)).closed
    (replayedRequests.take 2) (.refresh ⟨⟨2000000, 8, "c"⟩, "a", 2000000⟩) [] 7 rfl
    ⟨⟨5, 1, sampleHash "a", 7, true, 604800000000⟩, by decide, by decide, by decide⟩
    ⟨⟨3000000, 8, "c"⟩, "b", 3000000⟩ ⟨6, 1, sampleHash "b", 7, true, 604801000000⟩
    (by decide) (by decide)

end SyncServer.Auth
