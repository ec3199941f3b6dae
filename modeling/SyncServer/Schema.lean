import SyncServer.Base.Errors
import SyncServer.Base.Json
import SyncServer.Base.Table
import SyncServer.Transaction.Frame

/-! # The database schema

The tables of the server with their keys and constraints. Columns that no
operation of this development reads or writes are left out, among them
`updated_at`, which the triggers set.

Texts are taken to hold no U+0000, which PostgreSQL refuses in a `TEXT`. The
exceptions are profiles and settings, whose statements fail for such a text
(`isText`).
-/

namespace SyncServer

abbrev Uuid := Nat

/-- The `n` last hexadecimal digits of `x`. -/
def hexDigits : Nat → Nat → List Char
  | 0, _ => []
  | n + 1, x => hexDigits n (x / 16) ++ [Nat.digitChar (x % 16)]

def uuidString (id : Uuid) : String :=
  let d := hexDigits 32 id
  String.ofList (d.take 8 ++ '-' :: (d.drop 8).take 4 ++ '-' :: (d.drop 12).take 4 ++
    '-' :: (d.drop 16).take 4 ++ '-' :: d.drop 20)

/-- A row of `users`. -/
structure User where
  id : Uuid
  username : String
  email : String
  passwordHash : String
  avatarBase64 : Option String
  description : Option String
  messagePublicKey : Option String
  role : String
  isActive : Bool
  deviceAuthPubkey : Option String
  isApproved : Bool
  dmRestrictedUntil : Option Int
  safetyWarningCount : Int
  yellowCardExpiresAt : Option Int
deriving DecidableEq, Repr

/-- The states that the `CHECK` on `automation_review_state` admits. -/
inductive ReviewState where
  | clear
  | challenged
  | frozen
deriving DecidableEq, Repr

def ReviewState.text : ReviewState → String
  | .clear => "clear"
  | .challenged => "challenged"
  | .frozen => "frozen"

/-- A row of `user_guild_stats`. -/
structure UserGuildStats where
  userId : Uuid
  activeDays : Int
  contributionScore : Int
  derivedLevel : Int
  derivedRank : String
  lastActiveDay : Option Int
  lastHumanActivityAt : Option Int
  suspiciousActivityStreak : Int
  automationReviewState : ReviewState
deriving DecidableEq, Repr

/-- The `CHECK` constraints of `user_guild_stats`. -/
def UserGuildStats.Valid (r : UserGuildStats) : Prop :=
  0 ≤ r.activeDays ∧ 0 ≤ r.contributionScore ∧ 1 ≤ r.derivedLevel ∧ r.derivedLevel ≤ 10 ∧
    r.derivedRank ∈ ["F", "E", "D", "C", "B", "A", "S"] ∧ 0 ≤ r.suspiciousActivityStreak

instance : DecidablePred UserGuildStats.Valid := fun r => by
  unfold UserGuildStats.Valid
  infer_instance

/-- The action keys of `daily_action_counters`. -/
inductive ActionKey where
  | outboundMessage
  | attachmentSend
  | friendAdd
deriving DecidableEq, Repr

/-- A row of `daily_action_counters`. -/
structure DailyActionCounter where
  userId : Uuid
  actionKey : ActionKey
  dayBucket : Int
  count : Int
deriving DecidableEq, Repr

def DailyActionCounter.key (r : DailyActionCounter) : Uuid × ActionKey × Int :=
  (r.userId, r.actionKey, r.dayBucket)

/-- A row of `guild_score_events`. -/
structure GuildScoreEvent where
  id : Uuid
  userId : Uuid
  granterUserId : Option Uuid
  eventType : String
  delta : Int
  referenceId : Option String
  metadata : Json
  createdAt : Int

/-- A row of `admin_settings`. -/
structure AdminSetting where
  key : String
  value : String
deriving DecidableEq, Repr

/-- A row of `admin_audit_logs`. -/
structure AdminAuditLog where
  id : Uuid
  actorUserId : Option Uuid
  action : String
  target : Option String
  details : Json

/-- A row of `messages`. -/
structure Message where
  id : Uuid
  senderId : Uuid
  recipientId : Uuid
  content : String
  deletedAt : Option Int
  createdAt : Int
deriving DecidableEq, Repr

/-- A message to be stored, with the id and the time that it gets. -/
structure NewMessage where
  id : Uuid
  senderId : Uuid
  recipientId : Uuid
  content : String
  createdAt : Int
deriving DecidableEq, Repr

def NewMessage.row (new : NewMessage) : Message :=
  ⟨new.id, new.senderId, new.recipientId, new.content, none, new.createdAt⟩

/-- A row of `stickers`. -/
structure Sticker where
  id : Uuid
  uploaderId : Uuid
  groupName : String
  name : String
  mimeType : String
  contentBase64 : String
  sizeBytes : Int
  status : String
  groupAuthor : Option String
deriving DecidableEq, Repr

/-- A row of `refresh_tokens`. -/
structure RefreshToken where
  id : Uuid
  userId : Uuid
  tokenHash : String
  family : Uuid
  revoked : Bool
  expiresAt : Int
deriving DecidableEq, Repr

/-- A row of `user_blocks`. -/
structure UserBlock where
  blockerUserId : Uuid
  blockedUserId : Uuid
deriving DecidableEq, Repr

def UserBlock.key (r : UserBlock) : Uuid × Uuid := (r.blockerUserId, r.blockedUserId)

/-- A row of `moderation_reports`. -/
structure ModerationReport where
  id : Uuid
  reporterUserId : Uuid
  reportedUserId : Uuid
  source : String
  contentKind : String
  contentId : Option String
  reasonCode : String
  reporterNote : Option String
  contentExcerpt : Option String
  status : String
  resolutionAction : Option String
  resolutionNotes : Option String
  reviewDueAt : Int
  reviewedByUserId : Option Uuid
  reviewedAt : Option Int
  createdAt : Int
deriving DecidableEq, Repr

/-- A row of `rooms`. -/
structure Room where
  id : Uuid
  name : String
  createdBy : Uuid
deriving DecidableEq, Repr

/-- A row of `room_members`. -/
structure RoomMember where
  roomId : Uuid
  userId : Uuid
  role : String
  lastReadAt : Option Int
deriving DecidableEq, Repr

def RoomMember.key (r : RoomMember) : Uuid × Uuid := (r.roomId, r.userId)

/-- A row of `room_messages`. -/
structure RoomMessage where
  id : Uuid
  roomId : Uuid
  senderId : Uuid
  content : String
  deletedAt : Option Int
  createdAt : Int
deriving DecidableEq, Repr

/-- A row of `call_records`. -/
structure CallRecord where
  id : Uuid
  callerId : Uuid
  calleeId : Uuid
  callType : String
  status : String
  answeredAt : Option Int
  endedAt : Option Int
deriving DecidableEq, Repr

/-- A row of `federation_inbox_activities`. -/
structure FederationInboxActivity where
  id : Uuid
  activityId : String
  actor : String
  recipientUsername : String
  activityType : String
  payload : Json

/-- A row of `federation_remote_messages`. -/
structure FederationRemoteMessage where
  id : Uuid
  activityId : String
  objectId : Option String
  actor : String
  recipientUsername : String
  content : String
deriving DecidableEq, Repr

/-- A row of `federation_actor_keys`. -/
structure FederationActorKey where
  id : Uuid
  actorUsername : String
  keyId : String
  publicKeyPem : String
  privateKeyPkcs8 : String
deriving DecidableEq, Repr

/-- A row of `federation_deliveries`. -/
structure FederationDelivery where
  id : Uuid
  activityId : String
  senderUsername : String
  destination : String
  status : String
  attempts : Int
  lastError : Option String
  nextAttemptAt : Option Int
  deliveredAt : Option Int
deriving DecidableEq, Repr

/-- A row of `agent_tokens`. -/
structure AgentToken where
  id : Uuid
  tokenHash : String
  createdBy : Uuid
  expiresAt : Option Int
  revokedAt : Option Int
deriving DecidableEq, Repr

structure Db where
  users : Table Uuid User User.id
  userGuildStats : Table Uuid UserGuildStats UserGuildStats.userId
  dailyActionCounters : Table (Uuid × ActionKey × Int) DailyActionCounter DailyActionCounter.key
  guildScoreEvents : Table Uuid GuildScoreEvent GuildScoreEvent.id
  adminSettings : Table String AdminSetting AdminSetting.key
  adminAuditLogs : Table Uuid AdminAuditLog AdminAuditLog.id
  messages : Table Uuid Message Message.id
  stickers : Table Uuid Sticker Sticker.id
  refreshTokens : Table Uuid RefreshToken RefreshToken.id
  userBlocks : Table (Uuid × Uuid) UserBlock UserBlock.key
  moderationReports : Table Uuid ModerationReport ModerationReport.id
  rooms : Table Uuid Room Room.id
  roomMembers : Table (Uuid × Uuid) RoomMember RoomMember.key
  roomMessages : Table Uuid RoomMessage RoomMessage.id
  callRecords : Table Uuid CallRecord CallRecord.id
  federationInboxActivities : Table Uuid FederationInboxActivity FederationInboxActivity.id
  federationRemoteMessages : Table Uuid FederationRemoteMessage FederationRemoteMessage.id
  federationActorKeys : Table Uuid FederationActorKey FederationActorKey.id
  federationDeliveries : Table Uuid FederationDelivery FederationDelivery.id
  agentTokens : Table Uuid AgentToken AgentToken.id

def Db.empty : Db where
  users := .empty
  userGuildStats := .empty
  dailyActionCounters := .empty
  guildScoreEvents := .empty
  adminSettings := .empty
  adminAuditLogs := .empty
  messages := .empty
  stickers := .empty
  refreshTokens := .empty
  userBlocks := .empty
  moderationReports := .empty
  rooms := .empty
  roomMembers := .empty
  roomMessages := .empty
  callRecords := .empty
  federationInboxActivities := .empty
  federationRemoteMessages := .empty
  federationActorKeys := .empty
  federationDeliveries := .empty
  agentTokens := .empty

/-- The rows that a statement locks until the end of its transaction. -/
inductive RowLock where
  | userGuildStats (user : Uuid)
  | dailyActionCounter (key : Uuid × ActionKey × Int)
  | guildScoreEvent (id : Uuid)
  | user (id : Uuid)
  | message (id : Uuid)
  | roomMessage (id : Uuid)
  | moderationReport (id : Uuid)
deriving DecidableEq, Repr

/-- A program over the database. -/
abbrev Query (α : Type) := Transaction.Tx Db RowLock AppError α

namespace Query
open Transaction

/-- A statement that may be refused by the database. -/
def exec {α : Type} (locks : Db → List RowLock) (f : Db → Except DbError (α × Db)) : Query α :=
  Tx.exec locks (fun s => (f s).mapError .database)

variable {α τ : Type} {locks : Db → List RowLock} {f : Db → Except DbError (α × Db)} {s s' : Db}

theorem run_exec_ok {a : α} : (exec locks f).run s = (.ok a, s') ↔ f s = .ok (a, s') := by
  rw [exec, Tx.run_exec_ok]
  cases f s <;> simp [Except.mapError]

theorem run_exec_error {e : DbError} (h : f s = .error e) :
    (exec locks f).run s = (.error (.database e), s) := by
  rw [exec, Tx.run_exec_error, h]
  exact ⟨rfl, rfl⟩

theorem run_exec_cases (locks : Db → List RowLock) (f : Db → Except DbError (α × Db)) (s : Db) :
    (∃ e, (exec locks f).run s = (.error e, s)) ∨
      ∃ a s', f s = .ok (a, s') ∧ (exec locks f).run s = (.ok a, s') := by
  rcases h : f s with e | ⟨a, s'⟩
  · refine .inl ⟨.database e, ?_⟩
    rw [exec, Tx.run_exec_error, h]
    exact ⟨rfl, rfl⟩
  · exact .inr ⟨a, s', rfl, run_exec_ok.mpr h⟩

theorem run_require_bind_eq_ok {α : Type} {c : Bool} {m : String} {q : Unit → Query α} {a : α} :
    (Tx.done (require c m) >>= q : Query α).run s = (.ok a, s') ↔
      c = true ∧ (q ()).run s = (.ok a, s') := by
  rw [Tx.run_done_bind_eq_ok]
  constructor
  · rintro ⟨⟨⟩, hc, hq⟩
    exact ⟨require_eq_ok.mp hc, hq⟩
  · rintro ⟨hc, hq⟩
    exact ⟨(), require_eq_ok.mpr hc, hq⟩

theorem succeeds_require_bind {α : Type} {c : Bool} {m : String} {q : Unit → Query α} {s : Db} :
    (Tx.done (require c m) >>= q : Query α).Succeeds s ↔ c = true ∧ (q ()).Succeeds s := by
  unfold Tx.Succeeds
  simp only [run_require_bind_eq_ok, exists_and_left]

theorem writes_exec {R : Db → Db → Prop} (hrefl : ∀ d, R d d)
    (h : ∀ d a d', f d = .ok (a, d') → R d d') :
    (exec locks f).Writes (fun w => ∀ d, R d (w d)) := by
  refine Tx.writes_exec (fun d => ?_) locks
  rcases hf : f d with e | ⟨a, d'⟩
  · simpa [Tx.effect, hf, Except.mapError] using hrefl d
  · simpa [Tx.effect, hf, Except.mapError] using h d a d' hf

/-- A statement whose success keeps `π` keeps it. -/
theorem keeps_exec {π : Db → τ} (h : ∀ d a d', f d = .ok (a, d') → π d' = π d) :
    (exec locks f).Keeps π :=
  writes_exec (R := fun d d' => π d' = π d) (fun _ => rfl) h

/-- A statement works on the part `π` if its answer and the part it leaves depend on it. -/
theorem local_exec {π : Db → τ} (h : ∀ d d', π d = π d' →
    (f d).map (Prod.map id π) = (f d').map (Prod.map id π)) : (exec locks f).Local π := by
  refine Tx.local_exec (fun d d' hd => ?_) (fun d d' hd => ?_) locks
  all_goals
    have hf := h d d' hd
    rcases h₁ : f d with e | ⟨a, x⟩ <;> rcases h₂ : f d' with e' | ⟨a', x'⟩ <;>
      simp_all [Except.map, Except.mapError, Tx.outcome, Tx.effect]

end Query

/-- The foreign key to `users` is met. -/
def Db.userExists (s : Db) (id : Uuid) : Prop := (s.users.get id).isSome

instance (s : Db) (id : Uuid) : Decidable (s.userExists id) :=
  inferInstanceAs (Decidable (_ = true))

/-! ## Texts of identifiers -/

theorem digitChar_inj {a b : Nat} (ha : a < 16) (hb : b < 16)
    (h : Nat.digitChar a = Nat.digitChar b) : a = b := by
  have hall : ∀ a b : Fin 16, Nat.digitChar a = Nat.digitChar b → a = b := by decide
  exact congrArg Fin.val (hall ⟨a, ha⟩ ⟨b, hb⟩ h)

theorem hexDigits_inj {n a b : Nat} (ha : a < 16 ^ n) (hb : b < 16 ^ n)
    (h : hexDigits n a = hexDigits n b) : a = b := by
  induction n generalizing a b with
  | zero => omega
  | succ n ih =>
    rw [hexDigits, hexDigits] at h
    obtain ⟨hinit, hlast⟩ := List.append_inj' h rfl
    have hdigit := digitChar_inj (Nat.mod_lt _ (by decide)) (Nat.mod_lt _ (by decide))
      (List.cons.inj hlast).1
    have hrest := ih (by omega) (by omega) hinit
    omega

theorem hexDigits_ne_hyphen (n id : Nat) : ∀ c ∈ hexDigits n id, c ≠ '-' := by
  have hall : ∀ a : Fin 16, Nat.digitChar a ≠ '-' := by decide
  induction n generalizing id with
  | zero => simp [hexDigits]
  | succ n ih =>
    intro c hc
    rcases List.mem_append.mp hc with hc | hc
    · exact ih _ c hc
    · rw [List.mem_singleton.mp hc]
      exact hall ⟨id % 16, Nat.mod_lt _ (by decide)⟩

theorem filter_uuidString (id : Uuid) :
    (uuidString id).toList.filter (· ≠ '-') = hexDigits 32 id := by
  have hplain : ∀ l : List Char, l <:+: hexDigits 32 id → l.filter (· ≠ '-') = l := by
    intro l hl
    rw [List.filter_eq_self]
    intro c hc
    simpa using hexDigits_ne_hyphen 32 id c (hl.subset hc)
  have hpart : ∀ m n, (((hexDigits 32 id).drop m).take n).filter (· ≠ '-') =
      ((hexDigits 32 id).drop m).take n :=
    fun m n => hplain _ ((List.take_prefix n _).isInfix.trans (List.drop_suffix m _).isInfix)
  have hfirst : ((hexDigits 32 id).take 8).filter (· ≠ '-') = (hexDigits 32 id).take 8 :=
    hplain _ (List.take_prefix 8 _).isInfix
  have hlast : ((hexDigits 32 id).drop 20).filter (· ≠ '-') = (hexDigits 32 id).drop 20 :=
    hplain _ (List.drop_suffix 20 _).isInfix
  have hjoin : ∀ m n, ((hexDigits 32 id).drop m).take n ++ (hexDigits 32 id).drop (m + n) =
      (hexDigits 32 id).drop m := by
    intro m n
    rw [← List.drop_drop, List.take_append_drop]
  unfold uuidString
  dsimp only
  rw [String.toList_ofList]
  simp only [List.filter_append, List.filter_cons, hfirst, hpart, hlast, List.append_assoc,
    ne_eq, not_true_eq_false, decide_false, Bool.false_eq_true, if_false]
  rw [hjoin 16 4, hjoin 12 4, hjoin 8 4, List.take_append_drop]

theorem uuidString_inj {a b : Uuid} (ha : a < 2 ^ 128) (hb : b < 2 ^ 128)
    (h : uuidString a = uuidString b) : a = b := by
  have hdigits : hexDigits 32 a = hexDigits 32 b := by
    rw [← filter_uuidString, ← filter_uuidString, h]
  exact hexDigits_inj (by omega) (by omega) hdigits

end SyncServer
