import Mathlib.Data.Fintype.Basic
import SyncServer.Auth.RefreshTokens

/-! # Refresh rotation under concurrency

Any number of refresh and logout requests, interleaved statement by statement. If tokens
are consumed only while they are unrevoked, and families are revoked only while no refresh
of the family is under way, then a token is exchanged at most once and a family that was
revoked stays revoked.
-/

namespace SyncServer.Auth
open Transaction Autocommit

inductive TokenEvent where
  | exchanged (stored : RefreshToken)
  | closed (family : Uuid)
deriving DecidableEq, Repr

/-- The event of a handler's next statement: the successor of a token is stored, or a logout
or a replay detection completes. -/
def Phase.observe (env : TokenEnv) : Phase → Db → Option TokenEvent
  | mint call stored user _, s =>
    if (addToken (mintedToken env user.id stored.family call.toMinting) s).isOk then some (.exchanged stored)
    else none
  | revokeReplayed stored, _ => some (.closed stored.family)
  | revokeLoggedOut stored, _ => some (.closed stored.family)
  | _, _ => none

def Phase.holds : Phase → Option RefreshToken
  | findUser _ stored => some stored
  | mint _ stored _ _ => some stored
  | _ => none

section
variable {ι : Type} [DecidableEq ι]

/-- The requests before their first statement. -/
def requested (db : Db) (requests : ι → Request) : Sys ι Db Phase :=
  ⟨db, fun i => .lookup (requests i)⟩

/-- The events of a run. -/
def events (env : TokenEnv) (s : Sys ι Db Phase) (is : List ι) : List TokenEvent :=
  trace (Phase.next env) (Phase.observe env) s is

def Unheld (s : Sys ι Db Phase) (family : Uuid) : Prop :=
  ∀ j, ∀ t ∈ (s.rest j).holds, t.family ≠ family

def Phase.orderly (s : Sys ι Db Phase) : Phase → Prop
  | consume _ stored => ∃ r ∈ s.db.refreshTokens.get stored.id, r.revoked = false
  | revokeReplayed stored => Unheld s stored.family
  | revokeLoggedOut stored => Unheld s stored.family
  | _ => True

def Orderly (s : Sys ι Db Phase) (i : ι) : Prop := (s.rest i).orderly s

instance [Fintype ι] (s : Sys ι Db Phase) (family : Uuid) : Decidable (Unheld s family) :=
  inferInstanceAs (Decidable (∀ j, ∀ t ∈ (s.rest j).holds, t.family ≠ family))

instance [Fintype ι] (s : Sys ι Db Phase) : ∀ f : Phase, Decidable (f.orderly s)
  | .consume _ stored => inferInstanceAs
      (Decidable (∃ r ∈ s.db.refreshTokens.get stored.id, r.revoked = false))
  | .revokeReplayed stored => inferInstanceAs (Decidable (Unheld s stored.family))
  | .revokeLoggedOut stored => inferInstanceAs (Decidable (Unheld s stored.family))
  | .lookup _ => isTrue trivial
  | .findUser _ _ => isTrue trivial
  | .mint _ _ _ _ => isTrue trivial
  | .done _ => isTrue trivial

instance [Fintype ι] (s : Sys ι Db Phase) (i : ι) : Decidable (Orderly s i) :=
  inferInstanceAs (Decidable ((s.rest i).orderly s))

/-! ## The table of tokens -/

def TokensGrow (s s' : Db) : Prop :=
  ∀ id r, s.refreshTokens.get id = some r → ∃ r', s'.refreshTokens.get id = some r' ∧
    r'.family = r.family ∧ (r.revoked = true → r'.revoked = true)

theorem TokensGrow.refl (s : Db) : TokensGrow s s := fun _ r h => ⟨r, h, rfl, id⟩

variable (p : RefreshToken → Prop) [DecidablePred p]

theorem revokeIf_family (r : RefreshToken) : (revokeIf p r).family = r.family := by
  unfold revokeIf
  split <;> rfl

theorem revokeIf_revoked (r : RefreshToken) :
    (revokeIf p r).revoked = true ↔ p r ∨ r.revoked = true := by
  unfold revokeIf
  split <;> simp_all [revoked]

theorem get_revokeWhere (s : Db) (id : Uuid) :
    (revokeWhere p s).refreshTokens.get id = (s.refreshTokens.get id).map (revokeIf p) :=
  Table.get_map _ _ (revokeIf_id p) id

theorem tokensGrow_revokeWhere (s : Db) : TokensGrow s (revokeWhere p s) := by
  intro id r hr
  refine ⟨revokeIf p r, ?_, revokeIf_family p r, fun h => (revokeIf_revoked p r).mpr (.inr h)⟩
  rw [get_revokeWhere, hr]
  rfl

theorem addToken_ok {row : RefreshToken} {s s' : Db} {x : Unit}
    (h : addToken row s = .ok (x, s')) :
    TokensGrow s s' ∧ s'.refreshTokens.rows = s.refreshTokens.rows ++ [row] := by
  unfold addToken at h
  split at h
  · cases h
  rename_i t ht
  split at h
  · cases h
  split at h
  swap
  · cases h
  cases h
  refine ⟨fun id r hr => ⟨r, ?_, rfl, fun h => h⟩, Table.rows_of_insert ht⟩
  have hnone := Table.get_eq_none_of_insert ht
  rw [Table.get_of_insert ht, if_neg]
  · exact hr
  · rintro rfl
    rw [hnone] at hr
    cases hr

/-! ## The invariant -/

def Stored (s : Db) (stored : RefreshToken) : Prop :=
  ∃ r, s.refreshTokens.get stored.id = some r ∧ r.family = stored.family

def Spent (s : Db) (stored : RefreshToken) : Prop :=
  ∃ r, s.refreshTokens.get stored.id = some r ∧ r.family = stored.family ∧ r.revoked = true

theorem TokensGrow.stored {s s' : Db} (h : TokensGrow s s') {stored : RefreshToken}
    (hs : Stored s stored) : Stored s' stored := by
  obtain ⟨r, hr, hf⟩ := hs
  obtain ⟨r', hr', hf', -⟩ := h _ r hr
  exact ⟨r', hr', hf'.trans hf⟩

theorem TokensGrow.spent {s s' : Db} (h : TokensGrow s s') {stored : RefreshToken}
    (hs : Spent s stored) : Spent s' stored := by
  obtain ⟨r, hr, hf, hrev⟩ := hs
  obtain ⟨r', hr', hf', hrev'⟩ := h _ r hr
  exact ⟨r', hr', hf'.trans hf, hrev' hrev⟩

/-- No token of the family is unrevoked. -/
def FamilyRevoked (s : Db) (family : Uuid) : Prop :=
  ∀ r ∈ s.refreshTokens.rows, r.family = family → r.revoked = true

theorem familyRevoked_revokeWhere (p : RefreshToken → Prop) [DecidablePred p] {s : Db} {f : Uuid}
    (h : FamilyRevoked s f ∨ ∀ r : RefreshToken, r.family = f → p r) :
    FamilyRevoked (revokeWhere p s) f := by
  intro r hr hf
  obtain ⟨r₀, hr₀, rfl⟩ := List.mem_map.mp hr
  rw [revokeIf_family] at hf
  rw [revokeIf_revoked]
  rcases h with h | h
  · exact .inr (h r₀ hr₀ hf)
  · exact .inl (h r₀ hf)

def Compatible : TokenEvent → TokenEvent → Prop
  | .exchanged t, .exchanged t' => t'.id ≠ t.id
  | .closed f, .exchanged t => t.family ≠ f
  | _, _ => True

def Phase.toConsume : Phase → Option RefreshToken
  | consume _ stored => some stored
  | _ => none

structure RotationInv (s : Sys ι Db Phase) (l : List TokenEvent) : Prop where
  stored : ∀ i t, (s.rest i).toConsume = some t → Stored s.db t
  held : ∀ i t, (s.rest i).holds = some t → Spent s.db t ∧
    (∀ t', .exchanged t' ∈ l → t'.id ≠ t.id) ∧ .closed t.family ∉ l
  distinct : ∀ i j t t', i ≠ j → (s.rest i).holds = some t → (s.rest j).holds = some t' →
    t.id ≠ t'.id
  exchanged : ∀ t, .exchanged t ∈ l → Spent s.db t
  closed : ∀ f, .closed f ∈ l → FamilyRevoked s.db f
  order : l.Pairwise Compatible

variable {s : Sys ι Db Phase} {l : List TokenEvent} {i : ι} {c : Phase} {d : Db}

/-- A statement that consumes nothing keeps the invariant, if the new state of the table
does. -/
theorem RotationInv.move (h : RotationInv s l) (hgrow : TokensGrow s.db d)
    (hstored : ∀ t, c.toConsume = some t → Stored d t)
    (hholds : ∀ t, c.holds = some t → (s.rest i).holds = some t)
    (hclosed : ∀ f, .closed f ∈ l → FamilyRevoked d f) :
    RotationInv ⟨d, Function.update s.rest i c⟩ l := by
  have hold : ∀ j t, (Function.update s.rest i c j).holds = some t →
      (s.rest j).holds = some t := by
    intro j t hj
    by_cases hij : j = i
    · subst hij
      rw [Function.update_self] at hj
      exact hholds t hj
    · rwa [Function.update_of_ne hij] at hj
  constructor
  · intro j t hj
    by_cases hij : j = i
    · subst hij
      simp only [Function.update_self] at hj
      exact hstored t hj
    · simp only [Function.update_of_ne hij] at hj
      exact hgrow.stored (h.stored j t hj)
  · intro j t hj
    obtain ⟨hspent, hrest⟩ := h.held j t (hold j t hj)
    exact ⟨hgrow.spent hspent, hrest⟩
  · exact fun j k t t' hjk hj hk => h.distinct j k t t' hjk (hold j t hj) (hold k t' hk)
  · exact fun t ht => hgrow.spent (h.exchanged t ht)
  · exact hclosed
  · exact h.order

/-- A token that is consumed while it is unrevoked becomes held. -/
theorem RotationInv.consume (h : RotationInv s l) {call : RefreshCall} {t : RefreshToken}
    (hi : s.rest i = .consume call t)
    (hlive : ∃ r ∈ s.db.refreshTokens.get t.id, r.revoked = false) :
    RotationInv ⟨revokeWhere (fun r => r.id = t.id) s.db,
      Function.update s.rest i (.findUser call t)⟩ l := by
  obtain ⟨r, hr, hlive⟩ := hlive
  have hgrow := tokensGrow_revokeWhere (fun r : RefreshToken => r.id = t.id) s.db
  obtain ⟨r', hr', hfam⟩ := h.stored i t (by rw [hi]; rfl)
  cases hr.symm.trans hr'
  have hspent : ∀ t', Spent s.db t' → t'.id ≠ t.id := by
    rintro t' ⟨r', hr', -, hrev⟩ hid
    rw [hid, hr] at hr'
    cases hr'
    simp [hlive] at hrev
  have hopen : ∀ f, .closed f ∈ l → t.family ≠ f := by
    rintro f hf rfl
    have := h.closed _ hf r (Table.get_eq_some.mp hr).1 hfam
    simp [hlive] at this
  have hnow : Spent (revokeWhere (fun r => r.id = t.id) s.db) t := by
    refine ⟨revokeIf (fun r => r.id = t.id) r, ?_, ?_, ?_⟩
    · rw [get_revokeWhere, hr]
      rfl
    · rw [revokeIf_family]
      exact hfam
    · exact (revokeIf_revoked _ _).mpr (.inl (Table.key_of_get hr))
  constructor
  · intro j t' hj
    by_cases hij : j = i
    · subst hij
      simp [Phase.toConsume] at hj
    · simp only [Function.update_of_ne hij] at hj
      exact hgrow.stored (h.stored j t' hj)
  · intro j t' hj
    by_cases hij : j = i
    · subst hij
      simp only [Function.update_self, Phase.holds, Option.some.injEq] at hj
      subst hj
      exact ⟨hnow, fun t' ht' => hspent t' (h.exchanged t' ht'), fun hf => hopen _ hf rfl⟩
    · simp only [Function.update_of_ne hij] at hj
      obtain ⟨hsp, hrest⟩ := h.held j t' hj
      exact ⟨hgrow.spent hsp, hrest⟩
  · intro j k t₁ t₂ hjk hj hk
    by_cases hji : j = i
    · subst hji
      simp only [Function.update_self, Function.update_of_ne hjk.symm, Phase.holds,
        Option.some.injEq] at hj hk
      subst hj
      exact (hspent t₂ (h.held k t₂ hk).1).symm
    · by_cases hki : k = i
      · subst hki
        simp only [Function.update_self, Function.update_of_ne hji, Phase.holds,
          Option.some.injEq] at hj hk
        subst hk
        exact hspent t₁ (h.held j t₁ hj).1
      · simp only [Function.update_of_ne hji, Function.update_of_ne hki] at hj hk
        exact h.distinct j k t₁ t₂ hjk hj hk
  · exact fun t' ht' => hgrow.spent (h.exchanged t' ht')
  · exact fun f hf => familyRevoked_revokeWhere _ (.inl (h.closed f hf))
  · exact h.order

theorem pairwise_snoc {α : Type} {R : α → α → Prop} {l : List α} {a : α} :
    (l ++ [a]).Pairwise R ↔ l.Pairwise R ∧ ∀ b ∈ l, R b a := by
  simp [List.pairwise_append]

/-- A family that is revoked while nobody holds one of its tokens is closed. -/
theorem RotationInv.close (h : RotationInv s l) {f : Uuid} {r : Except AppError (Option TokenResponse)}
    (hfree : Unheld s f) :
    RotationInv ⟨revokeWhere (fun r => r.family = f) s.db, Function.update s.rest i (.done r)⟩
      (l ++ [.closed f]) := by
  have hmove : RotationInv ⟨revokeWhere (fun r => r.family = f) s.db,
      Function.update s.rest i (.done r)⟩ l :=
    h.move (tokensGrow_revokeWhere _ _) (fun t ht => by cases ht) (fun t ht => by cases ht)
      (fun f' hf' => familyRevoked_revokeWhere _ (.inl (h.closed f' hf')))
  have hfree' : ∀ j t, (Function.update s.rest i (Phase.done r) j).holds = some t →
      t.family ≠ f := by
    intro j t hj
    by_cases hij : j = i
    · subst hij
      rw [Function.update_self] at hj
      cases hj
    · rw [Function.update_of_ne hij] at hj
      exact hfree j t hj
  constructor
  · exact hmove.stored
  · intro j t hj
    obtain ⟨hsp, hex, hcl⟩ := hmove.held j t hj
    refine ⟨hsp, fun t' ht' => hex t' (by simpa using ht'), ?_⟩
    rw [List.mem_append, List.mem_singleton]
    rintro (hmem | heq)
    · exact hcl hmem
    · cases heq
      exact hfree' j t hj rfl
  · exact hmove.distinct
  · exact fun t ht => hmove.exchanged t (by simpa using ht)
  · intro f' hf'
    rw [List.mem_append, List.mem_singleton] at hf'
    rcases hf' with hf' | hf'
    · exact hmove.closed f' hf'
    · cases hf'
      exact familyRevoked_revokeWhere _ (.inr (fun _ h => h))
  · refine pairwise_snoc.mpr ⟨h.order, fun e _ => ?_⟩
    cases e <;> trivial

/-- A held token is exchanged for the first time, in a family that is not closed. -/
theorem RotationInv.exchange (h : RotationInv s l) {t : RefreshToken}
    (hi : (s.rest i).holds = some t) {row : RefreshToken} (hfam : row.family = t.family) {x : Unit}
    (hadd : addToken row s.db = .ok (x, d)) {r : Except AppError (Option TokenResponse)} :
    RotationInv ⟨d, Function.update s.rest i (.done r)⟩ (l ++ [.exchanged t]) := by
  obtain ⟨hgrow, hrows⟩ := addToken_ok hadd
  obtain ⟨hspent, hnew, hopen⟩ := h.held i t hi
  have hmove : RotationInv ⟨d, Function.update s.rest i (.done r)⟩ l := by
    refine h.move hgrow (fun t ht => by cases ht) (fun t ht => by cases ht) (fun f hf r hr hrf => ?_)
    rw [hrows, List.mem_append, List.mem_singleton] at hr
    rcases hr with hr | rfl
    · exact h.closed f hf r hr hrf
    · rw [hfam] at hrf
      exact absurd (hrf ▸ hf) hopen
  constructor
  · exact hmove.stored
  · intro j t' hj
    obtain ⟨hsp, hex, hcl⟩ := hmove.held j t' hj
    refine ⟨hsp, fun t₀ ht₀ => ?_, by simpa using hcl⟩
    rw [List.mem_append, List.mem_singleton] at ht₀
    rcases ht₀ with ht₀ | ht₀
    · exact hex t₀ ht₀
    · cases ht₀
      by_cases hij : j = i
      · subst hij
        simp [Phase.holds] at hj
      · simp only [Function.update_of_ne hij] at hj
        exact h.distinct i j t t' (Ne.symm hij) hi hj
  · exact hmove.distinct
  · intro t' ht'
    rw [List.mem_append, List.mem_singleton] at ht'
    rcases ht' with ht' | ht'
    · exact hmove.exchanged t' ht'
    · cases ht'
      exact hgrow.spent hspent
  · exact fun f hf => hmove.closed f (by simpa using hf)
  · refine pairwise_snoc.mpr ⟨h.order, fun e he => ?_⟩
    cases e with
    | exchanged t' => exact (hnew t' he).symm
    | closed f =>
      rintro rfl
      exact hopen he

theorem found_holds (request : Request) (o : Option RefreshToken) :
    (request.found o).holds = none ∧
      ∀ t, (request.found o).toConsume = some t → o = some t := by
  cases request with
  | refresh call =>
    cases o with
    | none => exact ⟨rfl, fun t ht => by cases ht⟩
    | some stored =>
      unfold Request.found
      dsimp only
      split
      · exact ⟨rfl, fun t ht => by cases ht⟩
      split
      · exact ⟨rfl, fun t ht => by cases ht⟩
      · exact ⟨rfl, fun t ht => ht⟩
  | logout refreshToken => cases o <;> exact ⟨rfl, fun t ht => by cases ht⟩

theorem foundUser_holds (env : TokenEnv) (call : RefreshCall) (stored : RefreshToken)
    (o : Option User) : (foundUser env call stored o).toConsume = none ∧
      ∀ t, (foundUser env call stored o).holds = some t → t = stored := by
  cases o with
  | none => exact ⟨rfl, fun t ht => by cases ht⟩
  | some user =>
    unfold foundUser
    dsimp only
    split
    · exact ⟨rfl, fun t ht => by cases ht⟩
    · refine ⟨rfl, fun t ht => ?_⟩
      cases ht
      rfl

theorem stored_of_tokenByHash {hash : String} {s : Db} {t : RefreshToken}
    (h : tokenByHash hash s = some t) : Stored s t :=
  ⟨t, Table.get_eq_some.mpr ⟨List.mem_of_find?_eq_some h, rfl⟩, rfl⟩

/-- Every orderly statement keeps the invariant. -/
theorem RotationInv.step {env : TokenEnv} {s' : Sys ι Db Phase} (h : RotationInv s l)
    (ho : Orderly s i) (hs : Autocommit.step (Phase.next env) s i = some s') :
    RotationInv s' (l ++ ((s.rest i).observe env s.db).toList) := by
  obtain ⟨c, d, hnext, rfl⟩ := step_eq_some.mp hs
  unfold Orderly at ho
  rcases hi : s.rest i with request | stored | ⟨call, stored⟩ | ⟨call, stored⟩ |
    ⟨call, stored, user, accessToken⟩ | stored | result <;> rw [hi] at hnext ho
  · cases hnext
    obtain ⟨hnone, hfound⟩ := found_holds request (tokenByHash (request.hash env) s.db)
    rw [show l ++ (Phase.observe env (.lookup request) s.db).toList = l by simp [Phase.observe]]
    exact h.move (.refl _) (fun t ht => stored_of_tokenByHash (hfound t ht))
      (fun t ht => by rw [hnone] at ht; cases ht) h.closed
  · cases hnext
    exact h.close ho
  · cases hnext
    rw [show l ++ (Phase.observe env (.consume call stored) s.db).toList = l by
      simp [Phase.observe]]
    exact h.consume hi ho
  · cases hnext
    obtain ⟨hnone, hholds⟩ := foundUser_holds env call stored (s.db.users.get stored.userId)
    rw [show l ++ (Phase.observe env (.findUser call stored) s.db).toList = l by
      simp [Phase.observe]]
    refine h.move (.refl _) (fun t ht => by rw [hnone] at ht; cases ht) (fun t ht => ?_) h.closed
    rw [hholds t ht, hi]
    rfl
  · simp only [Phase.next, Phase.observe] at hnext ⊢
    rcases hadd : addToken (mintedToken env user.id stored.family call.toMinting) s.db with e | ⟨x, s₁⟩ <;>
      rw [hadd] at hnext <;> cases hnext
    · simp only [Except.isOk, Except.toBool, Bool.false_eq_true, if_false, Option.toList_none,
        List.append_nil]
      exact h.move (.refl _) (fun t ht => by cases ht) (fun t ht => by cases ht) h.closed
    · have hfam : (mintedToken env user.id stored.family call.toMinting).family = stored.family := rfl
      exact h.exchange (by rw [hi]; rfl) hfam hadd
  · cases hnext
    exact h.close ho
  · cases hnext

theorem run_requests (env : TokenEnv) (db : Db) (requests : ι → Request) (is : List ι) :
    run Tx.step ⟨db, fun i => (requests i).program env⟩ is =
      (run (Phase.next env) (requested db requests) is).map (programs (phases env)) :=
  run_programs (phases env) (requested db requests) is

theorem RotationInv.run {env : TokenEnv} {db : Db} {requests : ι → Request} {is : List ι}
    {s : Sys ι Db Phase} (hrun : Autocommit.run (Phase.next env) (requested db requests) is = some s)
    (horder : Autocommit.Along (Phase.next env) Orderly (requested db requests) is) :
    RotationInv s (events env (requested db requests) is) := by
  have h0 : RotationInv (requested db requests) [] := by
    constructor <;> simp [requested, Phase.toConsume, Phase.holds]
  have hstep : ∀ (s : Sys ι Db Phase) i s' (l : List TokenEvent), Orderly s i → RotationInv s l →
      Autocommit.step (Phase.next env) s i = some s' →
      RotationInv s' (l ++ (Phase.observe env (s.rest i) s.db).toList) :=
    fun s i s' l ho h hs => h.step ho hs
  simpa [events] using run_induction hstep h0 horder hrun

end

/-- The ids of the tokens that were exchanged. -/
def exchangedIds (l : List TokenEvent) : List Uuid :=
  l.filterMap (fun e => match e with
    | .exchanged t => some t.id
    | .closed _ => none)

theorem exchangedIds_nodup {l : List TokenEvent} (h : l.Pairwise Compatible) :
    (exchangedIds l).Nodup := by
  unfold exchangedIds List.Nodup
  rw [List.pairwise_filterMap]
  refine h.imp (fun {e e'} hc b hb b' hb' => ?_)
  cases e with
  | closed f => cases hb
  | exchanged t =>
    cases e' with
    | closed f => cases hb'
    | exchanged t' =>
      cases hb
      cases hb'
      exact Ne.symm hc

/-- In every orderly run of requests a token is exchanged at most once, and after a logout or
a replay detection no token of the family is exchanged or left unrevoked. -/
theorem refresh_rotation {ι : Type} [DecidableEq ι] (env : TokenEnv) (db : Db)
    (requests : ι → Request) (is : List ι) (s : Sys ι Db Phase)
    (hrun : run (Phase.next env) (requested db requests) is = some s)
    (horder : Autocommit.Along (Phase.next env) Orderly (requested db requests) is) :
    (exchangedIds (events env (requested db requests) is)).Nodup ∧
      (∀ l₁ f l₂, events env (requested db requests) is = l₁ ++ .closed f :: l₂ →
        ∀ t, .exchanged t ∈ l₂ → t.family ≠ f) ∧
      ∀ f, .closed f ∈ events env (requested db requests) is → FamilyRevoked s.db f := by
  have h := RotationInv.run hrun horder
  refine ⟨exchangedIds_nodup h.order, fun l₁ f l₂ hl t ht => ?_, h.closed⟩
  have hpair := h.order
  rw [hl, List.pairwise_append, List.pairwise_cons] at hpair
  exact hpair.2.1.1 _ ht

/-! ## Two races -/

def sampleHash (raw : String) : String :=
  if raw = "a" then "ca978112ca1bbdcafac231b39a23dc4da786eff8147c4e72b9807785afee48bb"
  else if raw = "b" then "3e23e8160039594a33894f6564e1b1348bbd7a0088d42c4acb73eeaed59c009d"
  else "2e7d2c03a9507ae265ecf5b5356885a53393a2029d241394997265a1a25aefc6"

/-- The access token of user 1, issued at second 1 under the secret `secret`. -/
def sampleAccessToken : String :=
  "eyJ0eXAiOiJKV1QiLCJhbGciOiJIUzI1NiJ9.eyJzdWIiOiIwMDAwMDAwMC0" ++
    "wMDAwLTAwMDAtMDAwMC0wMDAwMDAwMDAwMDEiLCJyb2xlIjoidXNlciIsIml" ++
    "hdCI6MSwiZXhwIjo5MDF9.CCsQqX7ahmkxSoOQeSoACXdhNiw_d2R9nOUzJm" ++
    "PGaEQ"

def sampleEnv : TokenEnv := ⟨sampleHash, fun _ _ _ _ => .ok sampleAccessToken, 900, 604800⟩

/-- A user with one token. -/
def signedIn : Db :=
  { Db.empty with
    users := ⟨[{
      id := 1
      username := "alice"
      email := "alice@example.org"
      passwordHash := ""
      avatarBase64 := none
      description := none
      messagePublicKey := none
      role := "user"
      isActive := true
      deviceAuthPubkey := none
      isApproved := true
      dmRestrictedUntil := none
      safetyWarningCount := 0
      yellowCardExpiresAt := none }], by decide⟩
    refreshTokens := ⟨[⟨5, 1, sampleHash "a", 7, false, 604800000000⟩], by decide⟩ }

def refreshCall (newId : Uuid) (newRefreshToken : String) : Request :=
  .refresh ⟨⟨1000000, newId, newRefreshToken⟩, "a", 1000000⟩

/-- The token is refreshed, and then the user logs out with its successor. -/
def refreshThenLogout (i : Bool) : Request := if i then refreshCall 6 "b" else .logout "b"

theorem refresh_rotation_logout :
    FamilyRevoked ((run (Phase.next sampleEnv) (requested signedIn refreshThenLogout)
      [true, true, true, true, false, false]).get (by decide)).db 7 :=
  (refresh_rotation sampleEnv signedIn refreshThenLogout [true, true, true, true, false, false] _
    (Option.some_get _).symm (by decide)).2.2 7 (by decide)

def twoRefreshes (i : Bool) : Request := if i then refreshCall 6 "b" else refreshCall 8 "c"

def refreshAndLogout (i : Bool) : Request := if i then refreshCall 6 "b" else .logout "a"

/-- Overlapping refreshes exchange one token twice, and a refresh that has consumed its token
before a logout leaves the family with a live token after it. -/
theorem rotation_races :
    ∃ (env : TokenEnv) (db : Db) (requests requests' : Bool → Request) (is is' : List Bool)
      (s s' : Sys Bool Db Phase) (t : RefreshToken),
      run (Phase.next env) (requested db requests) is = some s ∧
      exchangedIds (events env (requested db requests) is) = [t.id, t.id] ∧
      run (Phase.next env) (requested db requests') is' = some s' ∧
      events env (requested db requests') is' = [.closed t.family, .exchanged t] ∧
      ¬ FamilyRevoked s'.db t.family := by
  have hlive : ∃ r ∈ ((run (Phase.next sampleEnv) (requested signedIn refreshAndLogout)
      [true, true, true, false, false, true]).get (by decide)).db.refreshTokens.rows,
      r.family = 7 ∧ r.revoked = false := by decide
  refine ⟨sampleEnv, signedIn, twoRefreshes, refreshAndLogout,
    [true, false, true, false, true, false, true, false], [true, true, true, false, false, true],
    (run (Phase.next sampleEnv) (requested signedIn twoRefreshes)
      [true, false, true, false, true, false, true, false]).get (by decide),
    (run (Phase.next sampleEnv) (requested signedIn refreshAndLogout)
      [true, true, true, false, false, true]).get (by decide),
    ⟨5, 1, sampleHash "a", 7, false, 604800000000⟩, (Option.some_get _).symm, by decide,
    (Option.some_get _).symm, by decide, fun h => ?_⟩
  obtain ⟨r, hr, hf, hrev⟩ := hlive
  simp [h r hr hf] at hrev

end SyncServer.Auth
