import SyncServer.Guild.Gate
import SyncServer.Guild.Milestones

/-! # The derived columns

The level and the rank of a user are stored beside the active days and the score that they
are computed from. Every operation that loads the policy leaves the two in agreement under that
policy, and shows in its answer what it has stored.
-/

namespace SyncServer.Guild
open Transaction

/-- What a successful operation tells about the progress of its user. -/
inductive Answer where
  | nothing
  | snapshot (guild : GuildSnapshot)
  | outcome (event : ContributionEventOutcome)

def Answer.Shows (level : Nat) (rank : String) : Answer → Prop
  | nothing => True
  | snapshot S => S.level = level ∧ S.rank = rank
  | outcome o => o.derivedRank = rank

def SendMessageWithTrustResult.answer : SendMessageWithTrustResult → Answer
  | sent _ => .nothing
  | limited guild _ => .snapshot guild

def AttachmentActionWithTrustResult.answer {T : Type} :
    AttachmentActionWithTrustResult T → Answer
  | completed _ => .nothing
  | limited guild _ => .snapshot guild
  | unsupportedMime guild => .snapshot guild

def ResolveContactWithTrustResult.answer : ResolveContactWithTrustResult → Answer
  | allowed => .nothing
  | limited guild _ => .snapshot guild

/-- The transaction of a human operation with its answer. -/
def HumanOp.answering (env : Env) : HumanOp → Query Answer
  | recordHumanActivity u t now audit => do
    Guild.recordHumanActivity env u (dateNaive t) now audit
    pure .nothing
  | sendMessageWithGuild m now audit => do
    let result ← Guild.sendMessageWithGuild env m now audit
    pure result.answer
  | runAttachmentActionWithGuild u mimeType operation now audit => do
    let result ← Guild.runAttachmentActionWithGuild env u mimeType operation.program now audit
    pure result.answer
  | resolveContactWithGuild u now audit => do
    let result ← Guild.resolveContactWithGuild env u now audit
    pure result.answer

/-- The answer of an operation that loads the policy, if it succeeds. -/
def GuildOp.answer (env : Env) : GuildOp → Db → Option Answer
  | human op, s => ((op.answering env).atomically s).1.toOption
  | getGuildSnapshot u t, s => (snapshotOf env u t s).map .snapshot
  | recordContributionEvent q now startedAt id, s =>
    ((Guild.recordContributionEvent env q now startedAt id).atomically s).1.toOption.map .outcome
  | _, _ => none

/-- The user whose progress an operation is about. -/
def GuildOp.user : GuildOp → Option Uuid
  | human op => some op.user
  | getGuildSnapshot u _ => some u
  | recordContributionEvent q _ _ _ => some q.userId
  | freezeGuildProgression _ target _ _ => some target
  | unfreezeGuildProgression _ target _ _ => some target
  | _ => none

variable {env : Env} {p : Policy} {u : Uuid} {s s' : Db} {r : UserGuildStats}

/-! ## What the answers show -/

theorem buildSnapshot_shows (unicode : Unicode) (h : InSync p r) (m a f : Int) (level : Nat)
    (rank : String) :
    (Answer.snapshot (buildSnapshot unicode p r m a f level rank)).Shows
      (p.levelPolicyForActiveDays r.activeDays).level r.derivedRank :=
  ⟨clientLevel_eq h, rfl⟩

theorem sendMessageChecked_shows (h : InSync p r) {m : NewMessage} {now : Int}
    {result : SendMessageWithTrustResult}
    (hrun : (sendMessageChecked env p r m now).run s = (.ok result, s')) :
    result.answer.Shows (p.levelPolicyForActiveDays r.activeDays).level r.derivedRank := by
  rcases run_sendMessageChecked_ok hrun with ⟨rfl, -⟩ | ⟨-, saved, s₁, rfl, -⟩
  · exact buildSnapshot_shows _ h _ _ _ _ _
  · trivial

theorem attachmentActionChecked_shows {T : Type} (h : InSync p r) {mimeType : String}
    {operation : Query T} {now : Int} {result : AttachmentActionWithTrustResult T}
    (hrun : (attachmentActionChecked env p r u mimeType operation now).run s =
      (.ok result, s')) :
    result.answer.Shows (p.levelPolicyForActiveDays r.activeDays).level r.derivedRank := by
  rcases run_attachmentActionChecked_ok hrun with ⟨-, rfl | rfl⟩ | ⟨-, value, s₁, rfl, -⟩
  · exact buildSnapshot_shows _ h _ _ _ _ _
  · exact buildSnapshot_shows _ h _ _ _ _ _
  · trivial

theorem resolveContactChecked_shows (h : InSync p r) {now : Int}
    {result : ResolveContactWithTrustResult}
    (hrun : (resolveContactChecked env p r u now).run s = (.ok result, s')) :
    result.answer.Shows (p.levelPolicyForActiveDays r.activeDays).level r.derivedRank := by
  rcases run_resolveContactChecked_ok hrun with ⟨rfl, -⟩ | ⟨-, -, rfl, -⟩
  · exact buildSnapshot_shows _ h _ _ _ _ _
  · trivial

/-! ## Coherence -/

/-- The row of `u` is in agreement under `p`, and the answer shows its level and rank. -/
def Coherent (p : Policy) (u : Uuid) (a : Answer) (s : Db) : Prop :=
  ∃ r, statsOf s u = some r ∧
    r.derivedLevel = (p.levelPolicyForActiveDays r.activeDays).level ∧
    r.derivedRank = (p.rankPolicyForScore r.contributionScore).rank ∧
    a.Shows (p.levelPolicyForActiveDays r.activeDays).level
      (p.rankPolicyForScore r.contributionScore).rank

theorem Coherent.of_inSync {a : Answer} (hrow : statsOf s u = some r) (h : InSync p r)
    (hshow : a.Shows (p.levelPolicyForActiveDays r.activeDays).level r.derivedRank) :
    Coherent p u a s := by
  have hlevel : r.derivedLevel = (p.levelPolicyForActiveDays r.activeDays).level :=
    (congrArg UserGuildStats.derivedLevel h).symm
  have hrank : r.derivedRank = (p.rankPolicyForScore r.contributionScore).rank :=
    (congrArg UserGuildStats.derivedRank h).symm
  exact ⟨r, hrow, hlevel, hrank, hrank ▸ hshow⟩

/-- The row that a committed human operation leaves. -/
def HumanOp.row (env : Env) (op : HumanOp) (s : Db) : UserGuildStats :=
  activity (policyOf env s) (currentStats (policyOf env s) op.user (statsOf s op.user)) op.today
    op.now

theorem HumanOp.row_inSync (env : Env) (op : HumanOp) (s : Db) :
    InSync (policyOf env s) (op.row env s) := activity_inSync (synced_inSync _) _ _

theorem HumanOp.coherent_of_shows {op : HumanOp} {a : Answer} (hc : op.Commits env s)
    (hshow : a.Shows ((policyOf env s).levelPolicyForActiveDays (op.row env s).activeDays).level
      (op.row env s).derivedRank) :
    Coherent (policyOf env s) op.user a ((GuildOp.human op).apply env s) := by
  rcases op.apply_cases env s with ⟨hno, -⟩ | ⟨-, -, hrow⟩
  · exact absurd hc hno
  · exact Coherent.of_inSync hrow.self (op.row_inSync env s) hshow

theorem isOk_bind_pure {α β : Type} {t : Query α} {x : α} (hrun : t.run s = (.ok x, s'))
    (f : α → β) : ((t >>= fun x => pure (f x) : Query β).run s).1.isOk = true := by
  rw [Tx.run_bind_ok hrun]
  rfl

theorem HumanOp.coherent {op : HumanOp} {a : Answer}
    (h : (op.answering env).run s = (.ok a, s')) :
    Coherent (policyOf env s) op.user a ((GuildOp.human op).apply env s) := by
  have hsync := op.row_inSync env s
  cases op with
  | recordHumanActivity u t now audit =>
    obtain ⟨x, s₁, hrun, hend⟩ := Tx.run_bind_eq_ok h
    cases hend
    exact coherent_of_shows (isOk_bind_pure hrun _) trivial
  | sendMessageWithGuild m now audit =>
    obtain ⟨x, s₁, hrun, hend⟩ := Tx.run_bind_eq_ok h
    cases hend
    obtain ⟨-, s₂, -, -, hrest⟩ := run_humanOperation_parts hrun
    exact coherent_of_shows (isOk_bind_pure hrun _) (sendMessageChecked_shows hsync hrest)
  | runAttachmentActionWithGuild u mimeType operation now audit =>
    obtain ⟨x, s₁, hrun, hend⟩ := Tx.run_bind_eq_ok h
    cases hend
    obtain ⟨-, s₂, -, -, hrest⟩ := run_humanOperation_parts hrun
    exact coherent_of_shows (isOk_bind_pure hrun _) (attachmentActionChecked_shows hsync hrest)
  | resolveContactWithGuild u now audit =>
    obtain ⟨x, s₁, hrun, hend⟩ := Tx.run_bind_eq_ok h
    cases hend
    obtain ⟨-, s₂, -, -, hrest⟩ := run_humanOperation_parts hrun
    exact coherent_of_shows (isOk_bind_pure hrun _) (resolveContactChecked_shows hsync hrest)

theorem coherent_getGuildSnapshot {t : Int} {S : GuildSnapshot}
    (h : snapshotOf env u t s = some S) :
    Coherent (policyOf env s) u (.snapshot S) ((GuildOp.getGuildSnapshot u t).apply env s) := by
  rw [snapshotOf] at h
  rw [GuildOp.apply]
  rcases run_getGuildSnapshot_cases env u (dateNaive t) s with
    ⟨e, s', hrun, -⟩ | ⟨s', c₁, c₂, c₃, hrun, hget, -⟩
  · rw [hrun] at h
    cases h
  · rw [hrun] at h ⊢
    cases h
    exact Coherent.of_inSync hget (synced_inSync _) (buildSnapshot_shows _ (synced_inSync _) _ _ _ _ _)

theorem ContributionEffect.coherent {q : ContributionRequest} {o : ContributionEventOutcome}
    (h : ContributionEffect env q s s' o) :
    Coherent (policyOf env s) q.userId (.outcome o) s' := by
  obtain ⟨r, hr, -, hrank⟩ := h.shown
  have hsync : InSync (policyOf env s) r := by
    rcases h.effect with ⟨-, -, -, hrow, -⟩ | ⟨-, -, -, hrow, -⟩
    · rw [hrow] at hr
      cases hr
      exact synced_inSync _
    · rw [hrow] at hr
      cases hr
      exact synced_eq_self rfl rfl
  exact Coherent.of_inSync hr hsync hrank

/-- After any run, every successful operation that loads the policy leaves the row of its user in
agreement under that policy, and shows the level and the rank of that row. -/
theorem derived_fields_coherent (env : Env) (s₀ : Db) (ops : List GuildOp) (op : GuildOp)
    (u : Uuid) (hu : op.user = some u) (a : Answer)
    (h : op.answer env (runOps env ops s₀) = some a) :
    Coherent (policyOf env (runOps env ops s₀)) u a (op.apply env (runOps env ops s₀)) := by
  generalize runOps env ops s₀ = s at *
  cases op with
  | human op =>
    cases hu
    rcases hrun : (op.answering env).atomically s with ⟨e | a', s'⟩
    · simp [GuildOp.answer, hrun, Except.toOption] at h
    · simp only [GuildOp.answer, hrun, Except.toOption, Option.some.injEq] at h
      rw [← h]
      exact op.coherent (Tx.atomically_eq_ok.mp hrun)
  | getGuildSnapshot v t =>
    cases hu
    obtain ⟨S, hS, rfl⟩ := Option.map_eq_some_iff.mp h
    exact coherent_getGuildSnapshot hS
  | recordContributionEvent q now startedAt id =>
    cases hu
    obtain ⟨o, ho, rfl⟩ := Option.map_eq_some_iff.mp h
    rw [GuildOp.apply]
    rcases hrun : (recordContributionEvent env q now startedAt id).atomically s with ⟨e | o', s'⟩
    · simp [hrun, Except.toOption] at ho
    · simp only [hrun, Except.toOption, Option.some.injEq] at ho
      rw [← ho]
      exact (run_recordContributionEvent_ok (Tx.atomically_eq_ok.mp hrun)).coherent
  | _ => cases h

/-- A snapshot under a policy that came into force after the award. -/
theorem derived_fields_coherent_new_policy :
    Coherent (policyOf asciiEnv (runOps asciiEnv
        [awardAlice 9 "a" 1, .saveGuildPolicy defaultGuildPolicyConfig] oneAccount)) 1
      ((GuildOp.getGuildSnapshot 1 0).answer asciiEnv (runOps asciiEnv
        [awardAlice 9 "a" 1, .saveGuildPolicy defaultGuildPolicyConfig] oneAccount) |>.get
        (by decide))
      ((GuildOp.getGuildSnapshot 1 0).apply asciiEnv (runOps asciiEnv
        [awardAlice 9 "a" 1, .saveGuildPolicy defaultGuildPolicyConfig] oneAccount)) :=
  derived_fields_coherent asciiEnv oneAccount
    [awardAlice 9 "a" 1, .saveGuildPolicy defaultGuildPolicyConfig] (.getGuildSnapshot 1 0) 1 rfl _
    (Option.some_get _).symm

end SyncServer.Guild
