import SyncServer.Admin.ReviewMetrics
import SyncServer.Auth.Extractors
import SyncServer.Base.Ranking
import SyncServer.Messaging.FailedSends
import SyncServer.Stickers.Upload

/-! # The actions that were blocked

Administrators see which limits were hit most often. The counts come from the audit log, and are
kept in a hash map, which is iterated in an order of its own.
-/

namespace SyncServer.Admin
open Transaction Messaging

/-- The `LIKE` of SQL, for patterns without an escape. -/
def like : List Char → List Char → Bool
  | [], s => s.isEmpty
  | c :: pattern, s =>
    if c = '%' then s.tails.any (like pattern)
    else match s with
      | [] => false
      | d :: rest => (c = '_' || c = d) && like pattern rest

/-- The action and the number of its entries. -/
abbrev AdminBlockedActionCount := Ranking.Counted String

def isBlockedAction (action : String) : Bool :=
  like "guild.blocked_action.%".toList action.toList

def normalized (action : String) : String :=
  (Auth.stripStart "guild.blocked_action." action).getD action

/-- The names of the entries that are counted. -/
def blockedActions (d : Db) : List String :=
  ((d.adminAuditLogs.rows.map AdminAuditLog.action).filter isBlockedAction).map normalized

/-- `String::cmp`. -/
def textBefore (a b : String) : Bool := decide (a < b)

def safeLimit (limit : Int) : Nat := (max 1 (min limit 50)).toNat

/-- `list_guild_blocked_action_counts`; the hash map is iterated by `iterate`. -/
def listGuildBlockedActionCounts
    (iterate : List AdminBlockedActionCount → List AdminBlockedActionCount) (limit : Int) :
    Query (List AdminBlockedActionCount) :=
  Tx.query (fun d => Ranking.topRanked textBefore (safeLimit limit)
    (iterate (Ranking.countAll (blockedActions d))))

theorem strictTotal_textBefore : Ranking.StrictTotal textBefore where
  irrefl a := by simp [textBefore]
  trans a b c hab hbc := by
    simp only [textBefore, decide_eq_true_eq] at hab hbc ⊢
    exact String.lt_trans hab hbc
  total a b := by
    simp only [textBefore, decide_eq_true_eq]
    exact Std.lt_trichotomy a b

/-- The list is the top of the blocked actions, in whichever order the map is iterated: it is in
order, its counts are right, no action that is left out comes before one of it, and no other list is
such a top. -/
theorem blocked_actions_exact
    (iterate : List AdminBlockedActionCount → List AdminBlockedActionCount)
    (hiterate : ∀ counts, (iterate counts).Perm counts) (limit : Int) (d : Db) :
    ∃ top, (listGuildBlockedActionCounts iterate limit).run d = (.ok top, d) ∧
      Ranking.IsTop textBefore (blockedActions d) (safeLimit limit) top ∧
      ∀ top', Ranking.IsTop textBefore (blockedActions d) (safeLimit limit) top' → top' = top := by
  have htop : Ranking.IsTop textBefore (blockedActions d) (safeLimit limit) _ :=
    Ranking.isTop_topRanked strictTotal_textBefore (hiterate _)
  exact ⟨_, Tx.run_query _ _, htop, fun top' h => h.unique strictTotal_textBefore htop⟩

/-- The log of two uploads that were refused, and of one that was stored. -/
def twoRefused : Db := { Db.empty with
  adminAuditLogs := ⟨[
    ⟨61, none, "guild.blocked_action.attachment_daily_limit", none, .null⟩,
    ⟨62, none, "sticker.upload", none, .null⟩,
    ⟨63, none, "guild.blocked_action.attachment_type_not_allowed", none, .null⟩], by decide⟩ }

theorem blocked_actions_two :
    ∃ top, (listGuildBlockedActionCounts List.reverse 1).run twoRefused = (.ok top, twoRefused) ∧
      Ranking.IsTop textBefore (blockedActions twoRefused) (safeLimit 1) top ∧
      ∀ top', Ranking.IsTop textBefore (blockedActions twoRefused) (safeLimit 1) top' →
        top' = top :=
  blocked_actions_exact List.reverse List.reverse_perm 1 twoRefused

/-! ## The requests that are blocked -/

/-- A request that may be blocked. -/
inductive BlockableRequest where
  | sendMessage (call : SendMessageCall)
  | uploadSticker (call : Stickers.UploadCall)
deriving DecidableEq, Repr

structure BlockableEnv where
  message : MessageEnv
  decode : String → Option (List UInt8)

def messageLimit : Except AppError SendMessageAnswer → List String
  | .ok (.limited _ _) => ["outbound_message_limit"]
  | _ => []

def uploadLimit : Except AppError Stickers.UploadAnswer → List String
  | .ok (.limited _ _ _) => ["attachment_daily_limit"]
  | .ok (.unsupported _ _) => ["attachment_type_not_allowed"]
  | _ => []

namespace BlockableRequest

/-- The server after the request. -/
def apply (env : BlockableEnv) : BlockableRequest → Server → Server
  | sendMessage call, s => ((Messaging.sendMessage env.message call).run s).2
  | uploadSticker call, s => ((onDb (Stickers.upload env.message.guild env.decode call)).run s).2

/-- The limit that the answer to the request names. -/
def limit (env : BlockableEnv) : BlockableRequest → Server → List String
  | sendMessage call, s => messageLimit ((Messaging.sendMessage env.message call).run s).1
  | uploadSticker call, s =>
    uploadLimit ((onDb (Stickers.upload env.message.guild env.decode call)).run s).1

end BlockableRequest

/-- The server after requests one after another. -/
def afterRequests (env : BlockableEnv) (requests : List BlockableRequest) (s : Server) : Server :=
  requests.foldl (fun s request => request.apply env s) s

/-- The limits that the answers to the requests name. -/
def limits (env : BlockableEnv) : List BlockableRequest → Server → List String
  | [], _ => []
  | request :: requests, s => request.limit env s ++ limits env requests (request.apply env s)

/-! ## What a request adds -/

/-- From `d` to `d'` the blocked actions have become more by `names`. -/
def Blocked (names : List String) (d d' : Db) : Prop :=
  blockedActions d' = blockedActions d ++ names

theorem Blocked.of_logs {d d' : Db} (h : d'.adminAuditLogs = d.adminAuditLogs) :
    Blocked [] d d' := by
  simp [Blocked, blockedActions, h]

theorem Blocked.trans {names names' : List String} {d d' d'' : Db} (h : Blocked names d d')
    (h' : Blocked names' d' d'') : Blocked (names ++ names') d d'' := by
  unfold Blocked at *
  rw [h', h, List.append_assoc]

def namesOf (action : String) : List String := ([action].filter isBlockedAction).map normalized

theorem namesOf_messageLimit :
    namesOf "guild.blocked_action.outbound_message_limit" = ["outbound_message_limit"] := by
  decide +kernel

theorem namesOf_dailyLimit :
    namesOf "guild.blocked_action.attachment_daily_limit" = ["attachment_daily_limit"] := by
  decide +kernel

theorem namesOf_type :
    namesOf "guild.blocked_action.attachment_type_not_allowed" =
      ["attachment_type_not_allowed"] := by
  decide +kernel

theorem namesOf_upload : namesOf "sticker.upload" = [] := by decide +kernel

theorem namesOf_review : namesOf "guild.review_state.changed" = [] := by decide +kernel

section
variable {d d' : Db} {row : AdminAuditLog}

theorem blocked_of_rows {l : List AdminAuditLog}
    (h : d'.adminAuditLogs.rows = d.adminAuditLogs.rows ++ l) :
    Blocked (l.flatMap (fun row => namesOf row.action)) d d' := by
  have hnames : ∀ l : List AdminAuditLog, l.flatMap (fun row => namesOf row.action) =
      ((l.map AdminAuditLog.action).filter isBlockedAction).map normalized := by
    intro l
    induction l with
    | nil => rfl
    | cons row l ih =>
      rw [List.flatMap_cons, ih, List.map_cons, ← List.singleton_append (l := l.map _),
        List.filter_append, List.map_append]
      rfl
  rw [hnames]
  simp [Blocked, blockedActions, h]

theorem blocked_insertAuditLog {x : Unit} (h : (Guild.insertAuditLog row).run d = (.ok x, d')) :
    Blocked (namesOf row.action) d d' := by
  simpa using blocked_of_rows (rows_insertAuditLog h).1

theorem flatMap_logged {before after : ReviewState} {l : List AdminAuditLog}
    (h : Logged before after l) : l.flatMap (fun row => namesOf row.action) = [] := by
  cases h with
  | same => rfl
  | changed row hne action previous new =>
    have haction : row.action = "guild.review_state.changed" := by
      simpa [isReviewEntry] using action
    rw [List.flatMap_cons, haction, namesOf_review]
    rfl

theorem blocked_humanOperation {α : Type} {env : Guild.Env} {u : Uuid} {today now : Int}
    {audit : Uuid} {rest : Guild.Policy → UserGuildStats → Query α}
    (hrest : ∀ p r, (rest p r).Keeps Guild.guildRows)
    (hquiet : ∀ p r, (rest p r).Keeps Db.adminAuditLogs) {a : α}
    (h : (Guild.humanOperation env u today now audit rest).run d = (.ok a, d')) :
    Blocked [] d d' := by
  obtain ⟨l, hrows, hlogged⟩ := logged_humanOperation hrest hquiet h
  rw [← flatMap_logged hlogged]
  exact blocked_of_rows hrows

theorem blocked_answerWith {answer : Stickers.UploadAnswer} {limit : List String}
    (hlimit : uploadLimit (.ok answer) = limit) (hnames : namesOf row.action = limit) :
    Blocked (uploadLimit ((Stickers.answerWith row answer).run d).1) d
      ((Stickers.answerWith row answer).run d).2 := by
  rcases Guild.run_insertAuditLog_cases row d with ⟨e, hrun⟩ | ⟨t, hrun⟩
  · rw [Stickers.answerWith, Tx.run_bind_error hrun]
    exact .of_logs rfl
  · rw [Stickers.answerWith, Tx.run_bind_ok hrun, Tx.run_pure, hlimit, ← hnames]
    exact blocked_insertAuditLog hrun

/-- An upload that is refused is counted under what it is refused for. -/
theorem blocked_upload (env : Guild.Env) (decode : String → Option (List UInt8))
    (call : Stickers.UploadCall) (d : Db) :
    Blocked (uploadLimit ((Stickers.upload env decode call).run d).1) d
      ((Stickers.upload env decode call).run d).2 := by
  have hkeeps : ∀ {τ : Type} {π : Db → τ}, (∀ s t, π { s with stickers := t } = π s) →
      (Stickers.uploadStickerConn decode call.requesterId call.role call.input
        call.sticker).Keeps π := fun hπ => Stickers.keeps_uploadStickerConn hπ _ _ _ _ _
  unfold Stickers.upload
  dsimp only
  by_cases hadmin : call.role = "admin"
  · rw [if_pos hadmin]
    have hlogs := (hkeeps (π := Db.adminAuditLogs) (fun _ _ => rfl)).run d
    rcases hrun : (Stickers.uploadStickerConn decode call.requesterId call.role call.input
      call.sticker).run d with ⟨e | created, d₁⟩
    · rw [hrun] at hlogs
      rw [Tx.run_bind_error hrun]
      exact .of_logs hlogs
    · rw [hrun] at hlogs
      rw [Tx.run_bind_ok hrun]
      exact Blocked.trans (.of_logs hlogs) (blocked_answerWith rfl namesOf_upload)
  rw [if_neg hadmin]
  rcases hrun : (Guild.runAttachmentActionWithGuild env call.requesterId call.input.mimeType
    (Stickers.uploadStickerConn decode call.requesterId call.role call.input call.sticker)
    call.now call.activityAudit).run d with ⟨e | result, d₁⟩
  · rw [Tx.run_bind_error ((Tx.run_asStatement _ _).trans (Tx.atomically_of_error hrun))]
    exact .of_logs rfl
  rw [Tx.run_bind_ok ((Tx.run_asStatement _ _).trans (Tx.atomically_ok hrun))]
  have hactivity : Blocked [] d d₁ := blocked_humanOperation
    (fun p r => Guild.keeps_attachmentActionChecked (fun _ _ => rfl) (hkeeps (fun _ _ => rfl))
      env p r _ _ _)
    (fun p r => Guild.keeps_attachmentActionChecked (fun _ _ => rfl) (hkeeps (fun _ _ => rfl))
      env p r _ _ _) hrun
  cases result with
  | completed value => exact hactivity.trans (blocked_answerWith rfl namesOf_upload)
  | limited guild retryAfterSeconds =>
    exact hactivity.trans (blocked_answerWith rfl namesOf_dailyLimit)
  | unsupportedMime guild => exact hactivity.trans (blocked_answerWith rfl namesOf_type)

/-- A message that is refused for the limit is counted. -/
theorem blocked_sendTo (env : MessageEnv) (call : SendMessageCall) (recipient : User)
    (s : Server) :
    Blocked (messageLimit ((sendTo env call recipient).run s).1) s.db
      ((sendTo env call recipient).run s).2.db := by
  rcases hrun : (Guild.sendMessageWithGuild env.guild (messageTo call recipient.id) call.new.now
    call.new.audit).run s.db with ⟨e | result, d⟩
  · rw [sendTo, Tx.run_bind_error
      (run_onDb_eq ((Tx.run_asStatement _ _).trans (Tx.atomically_of_error hrun)))]
    exact .of_logs rfl
  rw [sendTo, Tx.run_bind_ok
    (run_onDb_eq ((Tx.run_asStatement _ _).trans (Tx.atomically_ok hrun)))]
  have hactivity : Blocked [] s.db d := blocked_humanOperation
    (fun p r => Guild.keeps_sendMessageChecked (fun _ _ => rfl) (fun _ _ => rfl) env.guild p r _ _)
    (fun p r => Guild.keeps_sendMessageChecked (fun _ _ => rfl) (fun _ _ => rfl) env.guild p r _ _)
    hrun
  cases result with
  | limited guild retryAfterSeconds =>
    dsimp only
    rcases Guild.run_insertAuditLog_cases (limitLog call recipient.id guild retryAfterSeconds) d
      with ⟨e, hlog⟩ | ⟨t, hlog⟩
    · rw [Tx.run_bind_error (run_onDb_eq (s := s.setDb d) hlog)]
      exact hactivity
    · rw [Tx.run_bind_ok (run_onDb_eq (s := s.setDb d) hlog)]
      have hlogged : Blocked ["outbound_message_limit"] d { d with adminAuditLogs := t } := by
        rw [← namesOf_messageLimit]
        exact blocked_insertAuditLog hlog
      exact hactivity.trans hlogged
  | sent message =>
    dsimp only
    have hpublished := run_publishNewMessageEvent call recipient.id message (s.setDb d)
    rw [Tx.run_bind_ok hpublished]
    have hlogs := (keeps_deliverMessage_db (π := Db.adminAuditLogs) (fun _ _ => rfl)
      (fun _ _ => rfl) env call recipient message).run
      (publishedTo call recipient.id message (s.setDb d))
    rcases hdeliver : (deliverMessage env call recipient message).run
      (publishedTo call recipient.id message (s.setDb d)) with ⟨e | ⟨⟩, s'⟩
    · rw [hdeliver] at hlogs
      rw [Tx.run_bind_error hdeliver]
      exact hactivity.trans (.of_logs hlogs)
    · rw [hdeliver] at hlogs
      rw [Tx.run_bind_ok hdeliver]
      exact hactivity.trans (.of_logs hlogs)

theorem blocked_sendMessage (env : MessageEnv) (call : SendMessageCall) (s : Server) :
    Blocked (messageLimit ((sendMessage env call).run s).1) s.db
      ((sendMessage env call).run s).2.db := by
  have hresolve := (keeps_resolveRecipient (π := Db.adminAuditLogs) (fun _ _ => rfl) env call).run
    s.db
  rcases hrun : (resolveRecipient env call).run s.db with ⟨e | recipient, d⟩
  · rw [hrun] at hresolve
    rw [sendMessage, Tx.run_bind_error (run_onDb_eq hrun)]
    exact .of_logs hresolve
  rw [hrun] at hresolve
  rw [sendMessage, Tx.run_bind_ok (run_onDb_eq hrun)]
  have hfound : Blocked [] s.db d := .of_logs hresolve
  refine hfound.trans ?_
  have hreads := (Moderation.keeps_ensureDirectMessageAllowed (π := fun d => d) call.senderId
    recipient.id call.new.now).run d
  rcases hchecks : (Moderation.ensureDirectMessageAllowed call.senderId recipient.id
    call.new.now).run d with ⟨e | ⟨⟩, d₁⟩
  · rw [hchecks] at hreads
    obtain rfl : d₁ = d := hreads
    rw [Tx.run_bind_error (run_onDb_read (s := s.setDb d₁) hchecks)]
    exact .of_logs rfl
  · rw [hchecks] at hreads
    obtain rfl : d₁ = d := hreads
    rw [Tx.run_bind_ok (run_onDb_read (s := s.setDb d₁) hchecks)]
    exact blocked_sendTo env call recipient (s.setDb d₁)

end

theorem blocked_request (env : BlockableEnv) (request : BlockableRequest) (s : Server) :
    Blocked (request.limit env s) s.db (request.apply env s).db := by
  cases request with
  | sendMessage call => exact blocked_sendMessage env.message call s
  | uploadSticker call =>
    simp only [BlockableRequest.limit, BlockableRequest.apply, run_onDb]
    exact blocked_upload env.message.guild env.decode call s.db

theorem blocked_afterRequests (env : BlockableEnv) (requests : List BlockableRequest)
    (s : Server) : Blocked (limits env requests s) s.db (afterRequests env requests s).db := by
  induction requests generalizing s with
  | nil => exact .of_logs rfl
  | cons request requests ih => exact (blocked_request env request s).trans (ih _)

/-- After any requests, the list is the top of what was blocked before and the limits that the
answers named, each as often as it was named. -/
theorem blocked_requests_listed
    (iterate : List AdminBlockedActionCount → List AdminBlockedActionCount)
    (hiterate : ∀ counts, (iterate counts).Perm counts) (limit : Int) (env : BlockableEnv)
    (requests : List BlockableRequest) (s : Server) :
    ∃ top, (listGuildBlockedActionCounts iterate limit).run (afterRequests env requests s).db =
        (.ok top, (afterRequests env requests s).db) ∧
      Ranking.IsTop textBefore (blockedActions s.db ++ limits env requests s) (safeLimit limit)
        top := by
  have hcounts : blockedActions (afterRequests env requests s).db = _ :=
    blocked_afterRequests env requests s
  rw [← hcounts]
  exact ⟨_, Tx.run_query _ _, Ranking.isTop_topRanked strictTotal_textBefore (hiterate _)⟩

/-- Alice uploads a sticker of a type that is not allowed, and writes to Bob. -/
def refusedUpload : List BlockableRequest := [
  .uploadSticker ⟨1, "user", ⟨"Cats", "Tom", "image/tiff", "AA==", none⟩, 100, 61, 62, 63⟩,
  .sendMessage (writeToBob 202)]

def blockableEnv : BlockableEnv := ⟨contactEnv, fun _ => some [0]⟩

theorem limits_refusedUpload :
    limits blockableEnv refusedUpload contactServer = ["attachment_type_not_allowed"] := by
  decide +kernel

theorem blocked_requests_listed_upload :
    ∃ top, (listGuildBlockedActionCounts List.reverse 10).run
          (afterRequests blockableEnv refusedUpload contactServer).db =
        (.ok top, (afterRequests blockableEnv refusedUpload contactServer).db) ∧
      Ranking.IsTop textBefore
        (blockedActions contactServer.db ++ ["attachment_type_not_allowed"]) (safeLimit 10) top := by
  rw [← limits_refusedUpload]
  exact blocked_requests_listed List.reverse List.reverse_perm 10 blockableEnv refusedUpload
    contactServer

end SyncServer.Admin
