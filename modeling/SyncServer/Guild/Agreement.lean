import SyncServer.Guild.Admission
import SyncServer.Guild.Milestones
import SyncServer.Guild.QuotaArithmetic
import SyncServer.Guild.SnapshotView

/-! # The gates and the snapshot

A gate computes its limit again instead of looking at the snapshot that a client would be shown.
The two agree.
-/

namespace SyncServer.Guild
open Transaction

/-! ## The state that the gate and the snapshot look at -/

/-- The activity update of the user led from `s₀` to `s`, and to the row `r`. -/
structure Active (env : Env) (u : Uuid) (now : Int) (audit : Uuid) (s₀ s : Db)
    (r : UserGuildStats) : Prop where
  row : statsOf s u = some r
  sync : InSync (policyOf env s) r
  goes_on : ∀ {α : Type} (rest : Policy → UserGuildStats → Query α),
    (humanOperation env u (dateNaive now) now audit rest).run s₀ =
      (rest (policyOf env s) r).run s

section
variable {env : Env} {u : Uuid} {now : Int} {audit : Uuid} {s₀ s s' : Db} {r : UserGuildStats}

theorem active_of_recordHumanActivity
    (h : (recordHumanActivity env u (dateNaive now) now audit).run s₀ = (.ok (), s)) :
    ∃ r, Active env u now audit s₀ s r := by
  unfold recordHumanActivity humanOperation at h
  obtain ⟨⟨p, r₁⟩, s₁, hload, h⟩ := Tx.run_bind_eq_ok h
  obtain ⟨r₂, s₂, hact, h⟩ := Tx.run_bind_eq_ok h
  cases h
  rcases run_loadStats_cases env u s₀ with ⟨e, s', he, -⟩ | ⟨s', hrun, hget, hframe⟩
  · rw [he] at hload
    cases hload
  rw [hrun] at hload
  cases hload
  obtain ⟨hr, -, hget₂, hframe₂⟩ := run_recordActivity_ok hget hact
  have hpolicy : policyOf env s = policyOf env s₀ := (hframe.trans hframe₂).policyOf env
  refine ⟨r₂, hget₂, ?_, fun rest => ?_⟩
  · rw [hr, hpolicy]
    exact activity_inSync (synced_inSync _) _ _
  · rw [humanOperation, Tx.run_bind_ok hrun, hpolicy]
    dsimp only
    rw [Tx.run_bind_ok hact]

theorem run_getGuildSnapshot_inSync (hrow : statsOf s u = some r)
    (hsync : InSync (policyOf env s) r) (today : Int) :
    (getGuildSnapshot env u today).run s = (.ok (shownBy env (policyOf env s) r u today s), s) := by
  have hinsert : (insertStats (freshStats (policyOf env s) u)).run s = (.ok (), s) := by
    refine Query.run_exec_ok.mpr ?_
    rw [Table.insert_eq_none.mpr (show (s.userGuildStats.get u).isSome by
      rw [show s.userGuildStats.get u = some r from hrow]
      rfl)]
  have hensure : (ensureUserGuildStats (policyOf env s) u).run s = (.ok r, s) := by
    unfold ensureUserGuildStats
    rw [Tx.run_bind_ok hinsert, Tx.run_bind_ok (Tx.run_query _ _),
      show s.userGuildStats.get u = some r from hrow]
    rfl
  have hderived : (syncDerivedState (policyOf env s) r).run s = (.ok r, s) := by
    unfold syncDerivedState
    rw [if_pos ⟨(congrArg UserGuildStats.derivedLevel hsync).symm,
      (congrArg UserGuildStats.derivedRank hsync).symm⟩]
    rfl
  unfold getGuildSnapshot loadGuildPolicyConn
  rw [Tx.run_bind_ok (Tx.run_query _ _), Tx.run_bind_ok hensure]
  dsimp only
  rw [Tx.run_bind_ok hderived]
  rfl

theorem snapshotOf_inSync (hrow : statsOf s u = some r) (hsync : InSync (policyOf env s) r)
    (t : Int) : snapshotOf env u t s = some (shownBy env (policyOf env s) r u (dateNaive t) s) := by
  rw [snapshotOf, run_getGuildSnapshot_inSync hrow hsync]
  rfl

end

/-! ## Limits and what remains of them -/

section
variable {p : Policy} {r : UserGuildStats}

theorem effectiveDailyLimit_isCount {limit percent : Option Int} (overrides : Bool)
    (hlimit : ∀ l ∈ limit, IsCount l) (hpercent : ∀ q ∈ percent, 0 ≤ q)
    (hfit : ∀ l ∈ limit, ∀ q ∈ percent, l * q ≤ i32Max) :
    ∀ l ∈ effectiveDailyLimit limit percent overrides, IsCount l := by
  rcases limit with _ | l
  · rintro _ ⟨⟩
  have hl := hlimit l rfl
  rcases percent with _ | q
  · cases overrides
    · rintro _ ⟨⟩
      exact hl
    · rintro _ ⟨⟩
  · have hprod : 0 ≤ l * q := Int.mul_nonneg hl.1 (hpercent q rfl)
    have hfits := hfit l rfl q rfl
    have hvalue : effectiveDailyLimit (some l) (some q) overrides = some (l * q / 100) := by
      rw [← (i32_tdiv_hundred_eq_iff hprod).mpr hfits]
      cases overrides <;> rfl
    rw [hvalue]
    rintro _ ⟨⟩
    exact ⟨by omega, by omega⟩

theorem Policy.ProductsFit.limit (h : p.ProductsFit r) (key : ActionKey) :
    ∀ l ∈ levelLimit (p.levelPolicyForActiveDays r.activeDays) key,
      ∀ q ∈ rankPercent (p.rankPolicyForLimits r.contributionScore) key, l * q ≤ i32Max := by
  cases key with
  | outboundMessage => exact h.messages
  | attachmentSend => exact h.attachments
  | friendAdd => exact h.friendAdds

theorem dailyLimit_isCount (hp : p.LevelsI32) (hfit : p.ProductsFit r) (key : ActionKey) :
    ∀ l ∈ dailyLimit p r key, IsCount l := by
  rw [dailyLimit_eq]
  refine effectiveDailyLimit_isCount _ ?_ ?_ (hfit.limit key)
  · refine Policy.level_limit_isCount hp (p.levelPolicyForActiveDays_mem r.activeDays) ?_
    cases key <;> simp [levelLimit, levelRules]
  · refine Policy.percent_nonneg (p := p) r.contributionScore ?_
    cases key <;> simp [rankPercent, rankRules]

theorem remaining_eq {limit : Option Int} {count : Int} (hlimit : ∀ l ∈ limit, IsCount l)
    (hcount : IsCount count) :
    limit.map (fun l => max (i32 (l - count)) 0) = limit.map (fun l => max (l - count) 0) := by
  refine Option.map_congr (fun l hl => ?_)
  obtain ⟨hl₀, hl₁⟩ := hlimit l hl
  obtain ⟨hc₀, hc₁⟩ := hcount
  rw [i32_of_range] <;> unfold i32Min i32Max at * <;> omega

theorem limitReached_iff {enforced : Bool} {limit : Option Int} {count : Int}
    (hlimit : ∀ l ∈ limit, IsCount l) (hcount : IsCount count) :
    limitReached enforced limit count = true ↔
      enforced = true ∧ limit.map (fun l => max (i32 (l - count)) 0) = some 0 := by
  rw [remaining_eq hlimit hcount, limitReached, Bool.and_eq_true]
  refine and_congr_right (fun _ => ?_)
  rcases limit with _ | l
  · simp
  · simp only [Option.any_some, decide_eq_true_eq, Option.map_some, Option.some.injEq]
    omega

end

/-! ## Agreement -/

/-- The snapshot shows a limit that is enforced and of which nothing remains. -/
def UsedUp (S : GuildSnapshot) (key : ActionKey) : Prop :=
  S.enforced key = true ∧ S.remaining key = some 0

instance (S : GuildSnapshot) (key : ActionKey) : Decidable (UsedUp S key) :=
  inferInstanceAs (Decidable (_ ∧ _))

/-- From one snapshot to the next an action was counted, and nothing else has changed. -/
structure OneMore (key : ActionKey) (S S' : GuildSnapshot) : Prop where
  sent : S'.sent key = S.sent key + 1
  enforced : S'.enforced key = S.enforced key
  limit : S'.limit key = S.limit key
  remaining : S'.remaining key = (S'.limit key).map (fun l => max (l - S'.sent key) 0)
  others : ∀ other, other ≠ key → S'.sent other = S.sent other ∧
    S'.enforced other = S.enforced other ∧ S'.limit other = S.limit other ∧
    S'.remaining other = S.remaining other

/-- The answer to a gated action in the state `s` and the snapshot `S` of that state agree. -/
structure GateAgrees {α : Type} (env : Env) (u : Uuid) (key : ActionKey) (now : Int)
    (limited : GuildSnapshot → Int → α) (action : Query α) (s : Db) (S : GuildSnapshot)
    (answer : Except AppError α × Db) : Prop where
  limited_iff : (∃ guild retryAfter, answer.1 = .ok (limited guild retryAfter)) ↔ UsedUp S key
  shown : ∀ guild retryAfter, answer.1 = .ok (limited guild retryAfter) → guild = S
  through : ¬ UsedUp S key → answer = (thenCounted u key (dateNaive now) action).run s
  passes_iff : ¬ UsedUp S key → ∀ a s₁, action.run s = (.ok a, s₁) → s₁.userExists u →
    ((∃ s', answer = (.ok a, s')) ↔ S.sent key < i32Max)
  next : ¬ UsedUp S key → ∀ a s', answer = (.ok a, s') → ∀ t, dateNaive t = dateNaive now →
    ∃ S', snapshotOf env u t s' = some S' ∧ OneMore key S S'

section
variable {env : Env} {p : Policy} {u : Uuid} {key : ActionKey} {now : Int} {s s' : Db}
  {r : UserGuildStats} {α : Type} {limited : GuildSnapshot → Int → α} {action : Query α}

theorem shownBy_showsAction (env : Env) (p : Policy) (r : UserGuildStats) (u : Uuid) (today : Int)
    (s : Db) (key : ActionKey) :
    ShowsAction p r (bucket s u key today) key (shownBy env p r u today s) :=
  buildSnapshot_showsAction env.unicode p r (fun k => bucket s u k today) (clientLevel r)
    r.derivedRank key

variable (env key) in
theorem usedUp_iff (hlevels : p.LevelsI32) (hfit : p.ProductsFit r) {today : Int}
    (hcount : IsCount (bucket s u key today)) :
    limitReached (limitEnforced p key) (dailyLimit p r key) (bucket s u key today) = true ↔
      UsedUp (shownBy env p r u today s) key := by
  have hshown := shownBy_showsAction env p r u today s key
  rw [UsedUp, hshown.enforced, hshown.remaining]
  exact limitReached_iff (dailyLimit_isCount hlevels hfit key) hcount

variable (env) in
theorem run_thenCounted_ok {today : Int} {a : α} (hguild : action.Keeps guildRows)
    (hcounters : action.Keeps Db.dailyActionCounters)
    (h : (thenCounted u key today action).run s = (.ok a, s')) :
    (∃ s₁, action.run s = (.ok a, s₁)) ∧ bucket s u key today < i32Max ∧
      statsOf s' u = statsOf s u ∧ policyOf env s' = policyOf env s ∧
      ∀ key', bucket s' u key' today = bucket s u key' today + if key = key' then 1 else 0 := by
  obtain ⟨a', s₁, haction, h⟩ := Tx.run_bind_eq_ok h
  obtain ⟨⟨⟩, s₂, hincrement, h⟩ := Tx.run_bind_eq_ok h
  cases h
  have hkeep₁ := hguild.of_run haction
  have hkeep₂ := (keeps_incrementDailyCounter (π := guildRows) (fun _ _ => rfl) _ _ _).of_run
    hincrement
  have hrows := hkeep₂.trans hkeep₁
  simp only [guildRows, Prod.mk.injEq] at hrows
  have hbuckets : ∀ key', bucket s₁ u key' today = bucket s u key' today :=
    fun key' => bucket_of_counters (hcounters.of_run haction) u key' today
  refine ⟨⟨s₁, haction⟩, ?_, ?_, ?_, fun key' => ?_⟩
  · rw [← hbuckets]
    exact bucket_lt_of_increment hincrement
  · rw [statsOf, hrows.1, statsOf]
  · rw [policyOf, hrows.2, policyOf]
  · rw [bucket_of_increment hincrement, hbuckets]
    simp only [Option.some.injEq]

theorem oneMore_shownBy (hlevels : p.LevelsI32) (hfit : p.ProductsFit r) {today : Int}
    (hcount : IsCount (bucket s u key today)) (hlt : bucket s u key today < i32Max)
    (hbuckets : ∀ key', bucket s' u key' today =
      bucket s u key' today + if key = key' then 1 else 0) :
    OneMore key (shownBy env p r u today s) (shownBy env p r u today s') := by
  have hshown := shownBy_showsAction env p r u today s
  have hshown' := shownBy_showsAction env p r u today s'
  have hself : bucket s' u key today = bucket s u key today + 1 := by
    rw [hbuckets, if_pos rfl]
  refine ⟨?_, ?_, ?_, ?_, fun other hother => ?_⟩
  · rw [(hshown' key).sent, (hshown key).sent, hself]
  · rw [(hshown' key).enforced, (hshown key).enforced]
  · rw [(hshown' key).limit, (hshown key).limit]
  · have hnext : IsCount (bucket s' u key today) := by
      rw [hself]
      exact ⟨by have := hcount.1; omega, by omega⟩
    rw [(hshown' key).remaining, (hshown' key).limit, (hshown' key).sent]
    exact remaining_eq (dailyLimit_isCount hlevels hfit key) hnext
  · have hsame : bucket s' u other today = bucket s u other today := by
      rw [hbuckets, if_neg (Ne.symm hother), Int.add_zero]
    rw [(hshown' other).sent, (hshown other).sent, (hshown' other).enforced,
      (hshown other).enforced, (hshown' other).limit, (hshown other).limit,
      (hshown' other).remaining, (hshown other).remaining, hsame]
    exact ⟨rfl, rfl, rfl, rfl⟩

/-- Whatever the action is, its gate agrees with the snapshot, if the action leaves the guild
alone and never answers that the limit is used up. -/
theorem gate_agrees (hrow : statsOf s u = some r) (hsync : InSync (policyOf env s) r)
    (hlevels : (policyOf env s).LevelsI32) (hfit : (policyOf env s).ProductsFit r)
    (hcount : IsCount (bucket s u key (dateNaive now))) (hguild : action.Keeps guildRows)
    (hcounters : action.Keeps Db.dailyActionCounters)
    (hlimited : ∀ guild w guild' w', limited guild w = limited guild' w' → guild = guild')
    (haction : ∀ d a d', action.run d = (.ok a, d') → ∀ guild w, a ≠ limited guild w) :
    GateAgrees env u key now limited action s (shownBy env (policyOf env s) r u (dateNaive now) s)
      (gate env (policyOf env s) r u key now limited action s) := by
  have hused := usedUp_iff env key hlevels hfit hcount
  have hpass : ¬ UsedUp (shownBy env (policyOf env s) r u (dateNaive now) s) key →
      gate env (policyOf env s) r u key now limited action s =
        (thenCounted u key (dateNaive now) action).run s :=
    fun h => if_neg (fun hreached => h (hused.mp hreached))
  have hrefuse : UsedUp (shownBy env (policyOf env s) r u (dateNaive now) s) key →
      gate env (policyOf env s) r u key now limited action s =
        (.ok (limited (shownBy env (policyOf env s) r u (dateNaive now) s)
          (secondsUntilNextUtcDay now)), s) :=
    fun h => if_pos (hused.mpr h)
  have hlet : ∀ guild w, (gate env (policyOf env s) r u key now limited action s).1 =
      .ok (limited guild w) →
      UsedUp (shownBy env (policyOf env s) r u (dateNaive now) s) key := by
    intro guild w hanswer
    by_contra h
    rw [hpass h] at hanswer
    obtain ⟨⟨s₁, hrun⟩, -⟩ := run_thenCounted_ok env hguild hcounters (Prod.ext hanswer rfl)
    exact haction _ _ _ hrun guild w rfl
  refine ⟨⟨fun ⟨guild, w, hanswer⟩ => hlet guild w hanswer, fun h => ?_⟩, ?_, hpass, ?_, ?_⟩
  · exact ⟨_, _, congrArg Prod.fst (hrefuse h)⟩
  · intro guild w hanswer
    have hsame := (congrArg Prod.fst (hrefuse (hlet guild w hanswer))).symm.trans hanswer
    exact (hlimited _ _ _ _ (Except.ok.inj hsame)).symm
  · intro h a s₁ hrun hu
    rw [hpass h, (shownBy_showsAction env (policyOf env s) r u (dateNaive now) s key).sent]
    constructor
    · rintro ⟨s', hanswer⟩
      exact (run_thenCounted_ok env hguild hcounters hanswer).2.1
    · intro hlt
      rw [← bucket_of_counters (hcounters.of_run hrun)] at hlt
      obtain ⟨t, hincrement⟩ := run_incrementDailyCounter hu hlt
      refine ⟨{ s₁ with dailyActionCounters := t }, ?_⟩
      rw [thenCounted, Tx.run_bind_ok hrun, Tx.run_bind_ok hincrement]
      rfl
  · intro h a s' hanswer t ht
    rw [hpass h] at hanswer
    obtain ⟨-, hlt, hstats, hpolicy, hbuckets⟩ := run_thenCounted_ok env hguild hcounters hanswer
    have hrow' := hstats.trans hrow
    have hsync' : InSync (policyOf env s') r := by rwa [hpolicy]
    refine ⟨_, snapshotOf_inSync hrow' hsync' t, ?_⟩
    rw [hpolicy, ht]
    exact oneMore_shownBy hlevels hfit hcount hlt hbuckets

end

/-! ## The three gates -/

/-- In the state that the activity update of a message, an attachment of an allowed type or a
contact without a yellow card leaves behind, the action is refused exactly if the snapshot of that
state shows that nothing remains of an enforced limit, and it is refused with this snapshot.
Otherwise the action is made and counted, unless its count is the largest number already, and the
next snapshot of the day shows one action more. -/
theorem gates_agree_with_snapshot (env : Env) (u : Uuid) (now : Int) (audit : Uuid) (s₀ s : Db)
    (h : (recordHumanActivity env u (dateNaive now) now audit).run s₀ = (.ok (), s))
    (hlevels : (policyOf env s).LevelsI32)
    (hfit : ∀ r ∈ statsOf s u, (policyOf env s).ProductsFit r)
    (hcounts : ∀ key, IsCount (bucket s u key (dateNaive now))) :
    ∃ S, snapshotOf env u now s = some S ∧
      (∀ m : NewMessage, m.senderId = u →
        GateAgrees env u .outboundMessage now SendMessageWithTrustResult.limited
          (do
            let saved ← insertMessageConn m
            pure (.sent saved)) s S ((sendMessageWithGuild env m now audit).run s₀)) ∧
      (∀ (mimeType : String) (operation : AttachmentOperation),
        (policyOf env s).attachmentTypeAllowed (env.unicode.toLowercase (trim mimeType)) = true →
        GateAgrees env u .attachmentSend now AttachmentActionWithTrustResult.limited
          (do
            let value ← operation.program
            pure (.completed value)) s S
          ((runAttachmentActionWithGuild env u mimeType operation.program now audit).run s₀)) ∧
      ((∃ account, s.users.get u = some account ∧
          account.yellowCardExpiresAt.any (fun t => decide (now < t)) = false) →
        GateAgrees env u .friendAdd now ResolveContactWithTrustResult.limited (pure .allowed) s S
          ((resolveContactWithGuild env u now audit).run s₀)) := by
  obtain ⟨r, hactive⟩ := active_of_recordHumanActivity h
  have hfitRow := hfit r hactive.row
  refine ⟨_, snapshotOf_inSync hactive.row hactive.sync now, ?_, ?_, ?_⟩
  · rintro m rfl
    rw [sendMessageWithGuild, hactive.goes_on, run_sendMessageChecked]
    refine gate_agrees hactive.row hactive.sync hlevels hfitRow (hcounts _) ?_ ?_ ?_ ?_
    · exact Tx.keeps_bind (keeps_insertMessageConn (fun _ _ => rfl) m) (fun _ => Tx.keeps_pure _ _)
    · exact Tx.keeps_bind (keeps_insertMessageConn (fun _ _ => rfl) m) (fun _ => Tx.keeps_pure _ _)
    · rintro guild w guild' w' ⟨⟩
      rfl
    · rintro d a d' hrun guild w rfl
      obtain ⟨saved, d₁, -, hrun⟩ := Tx.run_bind_eq_ok hrun
      cases hrun
  · intro mimeType operation hmime
    rw [runAttachmentActionWithGuild, hactive.goes_on, run_attachmentActionChecked, hmime,
      if_neg (by simp)]
    refine gate_agrees hactive.row hactive.sync hlevels hfitRow (hcounts _) ?_ ?_ ?_ ?_
    · exact Tx.keeps_bind operation.keeps (fun _ => Tx.keeps_pure _ _)
    · exact Tx.keeps_bind operation.keepsCounters (fun _ => Tx.keeps_pure _ _)
    · rintro guild w guild' w' ⟨⟩
      rfl
    · rintro d a d' hrun guild w rfl
      obtain ⟨value, d₁, -, hrun⟩ := Tx.run_bind_eq_ok hrun
      cases hrun
  · rintro ⟨account, haccount, hcard⟩
    rw [resolveContactWithGuild, hactive.goes_on, run_resolveContactChecked haccount hcard]
    refine gate_agrees hactive.row hactive.sync hlevels hfitRow (hcounts _) ?_ ?_ ?_ ?_
    · exact Tx.keeps_pure _ _
    · exact Tx.keeps_pure _ _
    · rintro guild w guild' w' ⟨⟩
      rfl
    · rintro d a d' hrun guild w rfl
      cases hrun

/-! ## Samples -/

/-- The account after the activity update of an operation. -/
def afterActivity (s₀ : Db) : Db := ((recordHumanActivity asciiEnv 1 0 9 21).run s₀).2

theorem gates_agree_with_snapshot_contact :
    ∃ S S', snapshotOf asciiEnv 1 9 (afterActivity oneAccount) = some S ∧
      snapshotOf asciiEnv 1 9 ((resolveContactWithGuild asciiEnv 1 9 21).run oneAccount).2 =
        some S' ∧ OneMore .friendAdd S S' := by
  obtain ⟨S, hS, -, -, hcontact⟩ := gates_agree_with_snapshot asciiEnv 1 9 21 oneAccount
    (afterActivity oneAccount) (Prod.ext (by decide) rfl) (by decide)
    (fun r hr => ⟨by revert r; decide, by revert r; decide, by revert r; decide,
      by revert r; decide⟩)
    (fun key => by cases key <;> decide)
  have hopen : ¬ UsedUp S .friendAdd := by
    obtain rfl := (Option.some_get (show (snapshotOf asciiEnv 1 9 (afterActivity
      oneAccount)).isSome by decide)).trans hS |> Option.some.inj
    decide
  obtain ⟨S', hS', hmore⟩ := (hcontact ⟨accountOf 1 "alice" "alice@example.org", rfl, rfl⟩).next
    hopen .allowed _ (Prod.ext (by decide) rfl) 9 rfl
  exact ⟨S, S', hS, hS', hmore⟩

def counterFull : Db :=
  { accountAndAdmin with
    userGuildStats := ⟨[{ activeFor 90 with derivedLevel := 6 }], by decide⟩
    dailyActionCounters := ⟨[⟨1, .outboundMessage, 0, 2147483647⟩], by decide⟩ }

/-- The next message is not refused, and not sent either. -/
theorem full_counter_stops_message :
    ∃ (env : Env) (m : NewMessage) (now : Int) (audit : Uuid) (s₀ s : Db) (S : GuildSnapshot),
      (recordHumanActivity env m.senderId (dateNaive now) now audit).run s₀ = (.ok (), s) ∧
      (policyOf env s).LevelsI32 ∧
      (∀ r ∈ statsOf s m.senderId, (policyOf env s).ProductsFit r) ∧
      (∀ key, IsCount (bucket s m.senderId key (dateNaive now))) ∧
      snapshotOf env m.senderId now s = some S ∧ ¬ UsedUp S .outboundMessage ∧
      (∃ saved s₁, (insertMessageConn m).run s = (.ok saved, s₁)) ∧
      ¬ ∃ answer s', (sendMessageWithGuild env m now audit).run s₀ = (.ok answer, s') := by
  refine ⟨asciiEnv, ⟨11, 1, 2, "hello", 9⟩, 9, 21, counterFull, afterActivity counterFull,
    (snapshotOf asciiEnv 1 9 (afterActivity counterFull)).get (by decide),
    Prod.ext (by decide) rfl, by decide,
    fun r hr => ⟨by revert r; decide, by revert r; decide, by revert r; decide,
      by revert r; decide⟩,
    fun key => by cases key <;> decide, (Option.some_get _).symm, by decide,
    ⟨_, _, rfl⟩, ?_⟩
  rintro ⟨answer, s', hanswer⟩
  have herror : ((sendMessageWithGuild asciiEnv ⟨11, 1, 2, "hello", 9⟩ 9 21).run
    counterFull).1.isOk = false := by decide
  rw [hanswer] at herror
  cases herror

end SyncServer.Guild
