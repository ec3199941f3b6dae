import SyncServer.Guild.DayPart

/-! # Gates

Messages, attachments and contacts are gated by three copies of the same code: the counts of the
day are read and the limit is computed; the action is refused with a snapshot if the limit is
reached, and made and counted if it is not.
-/

namespace SyncServer.Guild
open Transaction

/-- The switch that enforces the limit of an action. -/
def limitEnforced (p : Policy) : ActionKey → Bool
  | .outboundMessage => p.outboundMessageLimitEnforced
  | .attachmentSend => p.attachmentSendLimitEnforced
  | .friendAdd => p.friendAddLimitEnforced

/-- The daily limit of an action for a user with the given row. -/
def dailyLimit (p : Policy) (r : UserGuildStats) : ActionKey → Option Int
  | .outboundMessage => effectiveDailyOutboundMessagesLimit
      (p.levelPolicyForActiveDays r.activeDays) (p.rankPolicyForLimits r.contributionScore)
  | .attachmentSend => effectiveDailyAttachmentSendLimit
      (p.levelPolicyForActiveDays r.activeDays) (p.rankPolicyForLimits r.contributionScore)
  | .friendAdd => effectiveDailyFriendAddLimit
      (p.levelPolicyForActiveDays r.activeDays) (p.rankPolicyForLimits r.contributionScore)

def shownBy (env : Env) (p : Policy) (r : UserGuildStats) (u : Uuid) (today : Int) (s : Db) :
    GuildSnapshot :=
  buildSnapshot env.unicode p r (bucket s u .outboundMessage today)
    (bucket s u .attachmentSend today) (bucket s u .friendAdd today) (clientLevel r) r.derivedRank

def thenCounted {α : Type} (u : Uuid) (key : ActionKey) (today : Int) (action : Query α) :
    Query α := do
  let a ← action
  incrementDailyCounter u key today
  pure a

def gate {α : Type} (env : Env) (p : Policy) (r : UserGuildStats) (u : Uuid) (key : ActionKey)
    (now : Int) (limited : GuildSnapshot → Int → α) (action : Query α) (s : Db) :
    Except AppError α × Db :=
  if limitReached (limitEnforced p key) (dailyLimit p r key) (bucket s u key (dateNaive now)) then
    (.ok (limited (shownBy env p r u (dateNaive now) s) (secondsUntilNextUtcDay now)), s)
  else (thenCounted u key (dateNaive now) action).run s

section
variable {env : Env} {p : Policy} {r : UserGuildStats} {u : Uuid} {now : Int} {s s' : Db}

theorem gate_eq_ok {α : Type} {key : ActionKey} {limited : GuildSnapshot → Int → α}
    {action : Query α} {a : α} (h : gate env p r u key now limited action s = (.ok a, s')) :
    (limitReached (limitEnforced p key) (dailyLimit p r key) (bucket s u key (dateNaive now)) =
        true ∧
      a = limited (shownBy env p r u (dateNaive now) s) (secondsUntilNextUtcDay now) ∧ s' = s) ∨
    (limitReached (limitEnforced p key) (dailyLimit p r key) (bucket s u key (dateNaive now)) =
        false ∧
      ∃ s₁, action.run s = (.ok a, s₁) ∧
        (incrementDailyCounter u key (dateNaive now)).run s₁ = (.ok (), s')) := by
  unfold gate at h
  split at h
  · rename_i hreached
    cases h
    exact .inl ⟨hreached, rfl, rfl⟩
  · rename_i hbelow
    obtain ⟨a', s₁, haction, h⟩ := Tx.run_bind_eq_ok h
    obtain ⟨⟨⟩, s₂, hincrement, h⟩ := Tx.run_bind_eq_ok h
    cases h
    exact .inr ⟨Bool.eq_false_of_not_eq_true hbelow, s₁, haction, hincrement⟩

theorem run_ite {α : Type} (c : Prop) [Decidable c] (t t' : Query α) (s : Db) :
    (if c then t else t').run s = if c then t.run s else t'.run s := by
  split <;> rfl

/-! ## The three gates -/

theorem run_sendMessageChecked (m : NewMessage) :
    (sendMessageChecked env p r m now).run s =
      gate env p r m.senderId .outboundMessage now .limited
        (do
          let saved ← insertMessageConn m
          pure (.sent saved)) s := by
  unfold sendMessageChecked gate thenCounted
  simp only [dailyActionCount, Tx.run_bind_ok (Tx.run_query _ _), run_ite, Tx.bind_assoc]
  rfl

theorem run_sendMessageChecked_ok {m : NewMessage} {res : SendMessageWithTrustResult}
    (h : (sendMessageChecked env p r m now).run s = (.ok res, s')) :
    (res = .limited (shownBy env p r m.senderId (dateNaive now) s) (secondsUntilNextUtcDay now) ∧
      s' = s) ∨
    (limitReached (limitEnforced p .outboundMessage) (dailyLimit p r .outboundMessage)
        (bucket s m.senderId .outboundMessage (dateNaive now)) = false ∧
      ∃ saved s₁, res = .sent saved ∧ (insertMessageConn m).run s = (.ok saved, s₁) ∧
        (incrementDailyCounter m.senderId .outboundMessage (dateNaive now)).run s₁ =
          (.ok (), s')) := by
  rw [run_sendMessageChecked] at h
  rcases gate_eq_ok h with ⟨-, hres, hs⟩ | ⟨hbelow, s₁, haction, hincrement⟩
  · exact .inl ⟨hres, hs⟩
  · obtain ⟨saved, s₂, hinsert, haction⟩ := Tx.run_bind_eq_ok haction
    cases haction
    exact .inr ⟨hbelow, saved, s₁, rfl, hinsert, hincrement⟩

section
variable {T : Type} {mimeType : String} {operation : Query T}

theorem run_attachmentActionChecked :
    (attachmentActionChecked env p r u mimeType operation now).run s =
      if p.attachmentSendLimitEnforced &&
          !p.attachmentTypeAllowed (env.unicode.toLowercase (trim mimeType)) then
        (.ok (.unsupportedMime (shownBy env p r u (dateNaive now) s)), s)
      else
        gate env p r u .attachmentSend now .limited
          (do
            let value ← operation
            pure (.completed value)) s := by
  unfold attachmentActionChecked gate thenCounted
  simp only [dailyActionCount, Tx.run_bind_ok (Tx.run_query _ _), run_ite, Tx.bind_assoc]
  rfl

theorem run_attachmentActionChecked_ok {res : AttachmentActionWithTrustResult T}
    (h : (attachmentActionChecked env p r u mimeType operation now).run s = (.ok res, s')) :
    (s' = s ∧ (res = .unsupportedMime (shownBy env p r u (dateNaive now) s) ∨
      res = .limited (shownBy env p r u (dateNaive now) s) (secondsUntilNextUtcDay now))) ∨
    (limitReached (limitEnforced p .attachmentSend) (dailyLimit p r .attachmentSend)
        (bucket s u .attachmentSend (dateNaive now)) = false ∧
      ∃ value s₁, res = .completed value ∧ operation.run s = (.ok value, s₁) ∧
        (incrementDailyCounter u .attachmentSend (dateNaive now)).run s₁ = (.ok (), s')) := by
  rw [run_attachmentActionChecked] at h
  split at h
  · cases h
    exact .inl ⟨rfl, .inl rfl⟩
  rcases gate_eq_ok h with ⟨-, hres, hs⟩ | ⟨hbelow, s₁, haction, hincrement⟩
  · exact .inl ⟨hs, .inr hres⟩
  · obtain ⟨value, s₂, hvalue, haction⟩ := Tx.run_bind_eq_ok haction
    cases haction
    exact .inr ⟨hbelow, value, s₁, rfl, hvalue, hincrement⟩

end

theorem run_resolveContactChecked {account : User} (haccount : s.users.get u = some account)
    (hcard : account.yellowCardExpiresAt.any (fun t => decide (now < t)) = false) :
    (resolveContactChecked env p r u now).run s =
      gate env p r u .friendAdd now .limited (pure .allowed) s := by
  unfold resolveContactChecked gate thenCounted
  rw [Tx.run_bind_ok (Tx.run_query _ _), haccount, Tx.run_bind_ok (Tx.run_okOr _ _ _)]
  dsimp only
  rw [hcard]
  simp only [dailyActionCount, Tx.run_bind_ok (Tx.run_query _ _), run_ite]
  rfl

/-- A contact of an account without a yellow card is refused for the day, or it is counted. -/
theorem run_resolveContactChecked_ok {res : ResolveContactWithTrustResult}
    (h : (resolveContactChecked env p r u now).run s = (.ok res, s')) :
    (res = .limited (shownBy env p r u (dateNaive now) s) (secondsUntilNextUtcDay now) ∧ s' = s) ∨
    ((∃ account, s.users.get u = some account ∧
        account.yellowCardExpiresAt.any (fun t => decide (now < t)) = false) ∧
      limitReached (limitEnforced p .friendAdd) (dailyLimit p r .friendAdd)
        (bucket s u .friendAdd (dateNaive now)) = false ∧
      res = .allowed ∧
      (incrementDailyCounter u .friendAdd (dateNaive now)).run s = (.ok (), s')) := by
  rcases haccount : s.users.get u with _ | account
  · unfold resolveContactChecked at h
    rw [Tx.run_bind_ok (Tx.run_query _ _), haccount] at h
    cases h
  rcases hcard : account.yellowCardExpiresAt.any (fun t => decide (now < t)) with _ | _
  swap
  · unfold resolveContactChecked at h
    rw [Tx.run_bind_ok (Tx.run_query _ _), haccount, Tx.run_bind_ok (Tx.run_okOr _ _ _)] at h
    dsimp only at h
    rw [hcard] at h
    cases h
  rw [run_resolveContactChecked haccount hcard] at h
  rcases gate_eq_ok h with ⟨-, hres, hs⟩ | ⟨hbelow, s₁, haction, hincrement⟩
  · exact .inl ⟨hres, hs⟩
  · cases haction
    exact .inr ⟨⟨account, rfl, hcard⟩, hbelow, rfl, hincrement⟩

end

end SyncServer.Guild
