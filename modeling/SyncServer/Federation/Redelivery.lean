import Mathlib.Data.List.Induction
import SyncServer.Federation.Binding
import SyncServer.Federation.Inbox

/-! # Repeated deliveries

A sender repeats a delivery that was answered with an error. The inbox records an activity
before it knows that the message can be stored, and it records it under its id alone.
-/

namespace SyncServer.Federation
open Transaction Accounts

/-- The server after some requests. -/
def deliveries (env : FederationEnv) (s : Server) (calls : List InboxCall) : Server :=
  calls.foldl (fun s call => ((inbox env call).run s).2) s

theorem deliveries_one (env : FederationEnv) (s : Server) (call : InboxCall) :
    deliveries env s [call] = ((inbox env call).run s).2 := rfl

theorem deliveries_snoc (env : FederationEnv) (s : Server) (calls : List InboxCall)
    (call : InboxCall) : deliveries env s (calls ++ [call]) =
      ((inbox env call).run (deliveries env s calls)).2 := by
  rw [deliveries, List.foldl_append]
  rfl

/-! ## Failures -/

/-- A request that fails leaves nothing in the way of a later one. -/
def Retryable (env : FederationEnv) (call : InboxCall) (s : Server) : Prop :=
  ∀ e s', (inbox env call).run s = (.error e, s') →
    s'.db.federationInboxActivities = s.db.federationInboxActivities ∧
      s'.db.federationRemoteMessages = s.db.federationRemoteMessages

/-- If the request brings a new note then the note is deliverable. -/
def Unobstructed (env : FederationEnv) (call : InboxCall) (s : Server) : Prop :=
  ∀ activity, Carries env call s activity → activity.activityType = "Create" →
    (noteOf activity.payload).isSome → ¬ Recorded activity.id s.db → ¬ Mapped activity.id s.db →
    s.db.federationInboxActivities.get call.new.activityRow = none →
    Deliverable env.names activity.actor call.new s.db

theorem retryable_of_unobstructed {env : FederationEnv} {call : InboxCall} {s : Server}
    (h : Unobstructed env call s) : Retryable env call s := by
  intro e s' hrun
  obtain ⟨-, e', s₂, hrun', hstore⟩ | ⟨activity, s₁, hc, hstore, hr⟩ := inbox_cases env call s
  · rw [hrun] at hrun'
    cases hrun'
    have hdb : s'.db = s.db := congrArg Prod.fst hstore
    rw [hdb]
    exact ⟨rfl, rfl⟩
  have hdb : s₁.db = s.db := congrArg Prod.fst hstore
  rw [hrun] at hr
  cases hr with
  | refused => rw [hdb]; exact ⟨rfl, rfl⟩
  | stuck _ t note users remote fresh inserted create isNote unmapped undeliverable =>
    rw [hdb] at fresh unmapped undeliverable inserted
    refine absurd (h activity hc create (by simp [isNote]) fresh unmapped ?_) undeliverable
    exact Table.get_eq_none_of_insert inserted

theorem unobstructed_of_retryable {env : FederationEnv} {call : InboxCall} {s : Server}
    (h : Retryable env call s) : Unobstructed env call s := by
  intro activity hc hcreate hnote hfresh hunmapped hrow
  obtain ⟨hno, -⟩ | ⟨activity', s₁, hc', hstore, hr⟩ := inbox_cases env call s
  · exact absurd ⟨activity, hc⟩ hno
  obtain rfl := hc.unique hc'
  have hdb : s₁.db = s.db := congrArg Prod.fst hstore
  generalize hrun : (inbox env call).run s = out at hr
  cases hr with
  | duplicate recorded => exact absurd (hdb ▸ recorded) hfresh
  | refused _ _ taken =>
    rw [hdb, hrow] at taken
    cases taken
  | noted t _ _ silent =>
    rw [hdb] at silent
    rcases silent with hs | hs | hs
    · exact absurd hcreate hs
    · simp [hs] at hnote
    · exact absurd hs hunmapped
  | delivered t note user account username users remote messages message fresh inserted create
      isNote unmapped deliverable =>
    exact hdb ▸ deliverable
  | stuck error t note users remote fresh inserted =>
    -- the record stays although the request fails
    have hsame := (h _ _ hrun).1
    refine absurd ?_ fresh
    rw [hdb]
    obtain ⟨r, hr, hid⟩ := recorded_of_insert inserted
    have hrows : t = s.db.federationInboxActivities := hsame
    exact ⟨r, hrows ▸ hr, hid⟩

/-! ## Deliveries of one activity -/

/-- Whenever the request is authenticated, it brings this activity to this recipient. -/
structure Brings (env : FederationEnv) (activity : Activity) (recipient : String)
    (call : InboxCall) : Prop where
  activity_eq : ∀ s activity', Carries env call s activity' → activity' = activity
  recipient_eq : call.recipient env = recipient

/-- Every request of a run meets a condition on the server that it finds. -/
def Throughout (env : FederationEnv) (P : InboxCall → Server → Prop) (s : Server)
    (calls : List InboxCall) : Prop :=
  ∀ before call after, calls = before ++ call :: after → P call (deliveries env s before)

theorem Throughout.of_snoc {env : FederationEnv} {P : InboxCall → Server → Prop} {s : Server}
    {calls : List InboxCall} {call : InboxCall} (h : Throughout env P s (calls ++ [call])) :
    Throughout env P s calls ∧ P call (deliveries env s calls) := by
  refine ⟨fun before c after hc => h before c (after ++ [call]) ?_, h calls call [] rfl⟩
  rw [hc, List.append_assoc, List.cons_append]

/-- The note has become a message. -/
structure Stored (s₀ : Server) (activity : Activity) (user : User) (note : Note) (s : Server) :
    Prop where
  recorded : Recorded activity.id s.db
  message : ∃ m, s.db.messages.rows = s₀.db.messages.rows ++ [m] ∧ m.recipientId = user.id ∧
    m.content = note.content

section
variable {env : FederationEnv} {activity : Activity} {recipient : String} {note : Note} {user : User}
variable {s₀ s : Server} {call : InboxCall}

/-- A delivery of a note that has not been delivered yet stores it, or changes nothing. -/
theorem step_fresh (hb : Brings env activity recipient call) (hcreate : activity.activityType = "Create")
    (hnote : noteOf activity.payload = some note)
    (hu : userByUsername recipient s₀.db = some user) (hfresh : ¬ Recorded activity.id s₀.db)
    (hmapped : ¬ Mapped activity.id s₀.db) (hs : s.db = s₀.db)
    (h : Unobstructed env call s) :
    ((∃ e, ((inbox env call).run s).1 = .error e) ∧ ((inbox env call).run s).2.db = s₀.db) ∨
      Stored s₀ activity user note ((inbox env call).run s).2 := by
  obtain ⟨-, e, s', hrun, hstore⟩ | ⟨activity', s₁, hc, hstore, hr⟩ := inbox_cases env call s
  · rw [hrun]
    exact .inl ⟨⟨e, rfl⟩, (congrArg Prod.fst hstore).trans hs⟩
  obtain rfl := hb.activity_eq s activity' hc
  have hdb : s₁.db = s₀.db := (congrArg Prod.fst hstore).trans hs
  rw [hb.recipient_eq] at hr
  generalize (inbox env call).run s = out at hr
  cases hr with
  | duplicate recorded => exact absurd (hdb ▸ recorded) hfresh
  | refused error => exact .inl ⟨⟨error, rfl⟩, hdb⟩
  | noted t _ _ silent =>
    rw [hdb] at silent
    rcases silent with hno | hno | hno
    · exact absurd hcreate hno
    · simp [hno] at hnote
    · exact absurd hno hmapped
  | delivered t n user' account username users remote messages message fresh inserted create isNote
      unmapped deliverable found name shadow mapped isMessage stored =>
    rw [hdb, hu] at found
    cases found
    rw [hnote] at isNote
    cases isNote
    refine .inr ⟨recorded_of_insert inserted, message, ?_, ?_, ?_⟩
    · rw [hdb] at stored
      exact Table.rows_of_insert stored
    · rw [isMessage]
    · rw [isMessage]
  | stuck error t n users remote fresh inserted create isNote unmapped undeliverable =>
    rw [hdb, ← hs] at fresh unmapped undeliverable inserted
    refine absurd (h activity' hc create (by simp [isNote]) fresh unmapped ?_) undeliverable
    exact Table.get_eq_none_of_insert inserted

theorem step_stored (hb : Brings env activity recipient call) (h : Stored s₀ activity user note s) :
    Stored s₀ activity user note ((inbox env call).run s).2 := by
  obtain ⟨-, e, s', hrun, hstore⟩ | ⟨activity', s₁, hc, hstore, hr⟩ := inbox_cases env call s
  · have hdb : s'.db = s.db := congrArg Prod.fst hstore
    rw [hrun]
    exact ⟨hdb ▸ h.recorded, hdb ▸ h.message⟩
  obtain rfl := hb.activity_eq s activity' hc
  have hdb : s₁.db = s.db := congrArg Prod.fst hstore
  have hrec : Recorded activity'.id s₁.db := hdb ▸ h.recorded
  generalize (inbox env call).run s = out at hr
  cases hr with
  | duplicate => exact ⟨hrec, hdb ▸ h.message⟩
  | refused _ fresh => exact absurd hrec fresh
  | noted _ fresh => exact absurd hrec fresh
  | delivered _ _ _ _ _ _ _ _ _ fresh => exact absurd hrec fresh
  | stuck _ _ _ _ _ fresh => exact absurd hrec fresh

theorem run_deliveries (hcreate : activity.activityType = "Create")
    (hnote : noteOf activity.payload = some note) (hu : userByUsername recipient s₀.db = some user)
    (hfresh : ¬ Recorded activity.id s₀.db) (hmapped : ¬ Mapped activity.id s₀.db)
    {calls : List InboxCall} (hb : ∀ call ∈ calls, Brings env activity recipient call)
    (h : Throughout env (Unobstructed env) s₀ calls) :
    (deliveries env s₀ calls).db = s₀.db ∨
      Stored s₀ activity user note (deliveries env s₀ calls) := by
  induction calls using List.reverseRecOn with
  | nil => exact .inl rfl
  | append_singleton calls call ih =>
    obtain ⟨hbefore, hcall⟩ := h.of_snoc
    have hbrings := hb call (by simp)
    rw [deliveries_snoc]
    rcases ih (fun c hc => hb c (by simp [hc])) hbefore with hs | hs
    · exact (step_fresh hbrings hcreate hnote hu hfresh hmapped hs hcall).imp And.right id
    · exact .inr (step_stored hbrings hs)

end

/-- A failed request can be repeated if and only if the note is deliverable; and if all requests
that deliver an activity meet this condition, and the last one is answered with 202, then the
note is stored exactly once. -/
theorem inbound_delivery_exactly_once (env : FederationEnv) :
    (∀ call s, Retryable env call s ↔ Unobstructed env call s) ∧
      ∀ (activity : Activity) (recipient : String) (note : Note) (user : User) (s : Server)
        (calls : List InboxCall) (last : InboxCall) (answer : InboxAnswer),
        activity.activityType = "Create" → noteOf activity.payload = some note →
        userByUsername recipient s.db = some user →
        ¬ Recorded activity.id s.db → ¬ Mapped activity.id s.db →
        (∀ call ∈ calls ++ [last], Brings env activity recipient call) →
        Throughout env (Unobstructed env) s (calls ++ [last]) →
        ((inbox env last).run (deliveries env s calls)).1 = .ok answer →
        ∃ m, (deliveries env s (calls ++ [last])).db.messages.rows = s.db.messages.rows ++ [m] ∧
          m.recipientId = user.id ∧ m.content = note.content := by
  refine ⟨fun call s => ⟨unobstructed_of_retryable, retryable_of_unobstructed⟩, ?_⟩
  intro activity recipient note user s calls last answer hcreate hnote hu hfresh hmapped hb h hlast
  obtain ⟨hbefore, hcall⟩ := h.of_snoc
  have hbrings := hb last (by simp)
  rw [deliveries_snoc]
  rcases run_deliveries hcreate hnote hu hfresh hmapped (fun c hc => hb c (by simp [hc])) hbefore with
    hs | hs
  · rcases step_fresh hbrings hcreate hnote hu hfresh hmapped hs hcall with ⟨⟨e, he⟩, -⟩ | hstored
    · rw [he] at hlast
      cases hlast
    · exact hstored.message
  · exact (step_stored hbrings hs).message

/-! ## Duplicates -/

/-- No two requests use one activity id for different actors or recipients. -/
def OneUse (env : FederationEnv) (s : Server) (calls : List InboxCall) : Prop :=
  ∀ before call between call' after activity activity',
    calls = before ++ call :: between ++ call' :: after →
    Carries env call (deliveries env s before) activity →
    Carries env call' (deliveries env s (before ++ call :: between)) activity' →
    activity.id = activity'.id →
    activity.actor = activity'.actor ∧ call.recipient env = call'.recipient env

/-- One of the requests was accepted, with this id, actor and recipient. -/
def AcceptedBefore (env : FederationEnv) (s : Server) (calls : List InboxCall)
    (id actor recipient : String) : Prop :=
  ∃ before call after activity, calls = before ++ call :: after ∧
    Carries env call (deliveries env s before) activity ∧
    ((inbox env call).run (deliveries env s before)).1 = .ok (.accepted activity.id) ∧
    activity.id = id ∧ activity.actor = actor ∧ call.recipient env = recipient

section
variable {env : FederationEnv} {s : Server} {calls : List InboxCall} {call : InboxCall}
  {id actor recipient : String}

theorem AcceptedBefore.snoc (h : AcceptedBefore env s calls id actor recipient) :
    AcceptedBefore env s (calls ++ [call]) id actor recipient := by
  obtain ⟨before, c, after, activity, rfl, h⟩ := h
  exact ⟨before, c, after ++ [call], activity, by simp, h⟩

theorem acceptedBefore_last {activity : Activity}
    (hc : Carries env call (deliveries env s calls) activity)
    (h : ((inbox env call).run (deliveries env s calls)).1 = .ok (.accepted activity.id)) :
    AcceptedBefore env s (calls ++ [call]) activity.id activity.actor (call.recipient env) :=
  ⟨calls, call, [], activity, rfl, hc, h, rfl, rfl, rfl⟩

/-- Every record is that of an accepted request. -/
theorem accepted_of_recorded (hs : s.db.federationInboxActivities.rows = [])
    (h : Throughout env (Unobstructed env) s calls) :
    ∀ r ∈ (deliveries env s calls).db.federationInboxActivities.rows,
      AcceptedBefore env s calls r.activityId r.actor r.recipientUsername := by
  induction calls using List.reverseRecOn with
  | nil =>
    intro r hr
    rw [deliveries, List.foldl_nil, hs] at hr
    cases hr
  | append_singleton calls call ih =>
    obtain ⟨hbefore, hobs⟩ := h.of_snoc
    have ih := ih hbefore
    rw [deliveries_snoc]
    intro r hr
    obtain ⟨-, e, s', hrun, hstore⟩ | ⟨activity, s₁, hc, hstore, hreceipt⟩ :=
      inbox_cases env call (deliveries env s calls)
    · have hdb : s'.db = (deliveries env s calls).db := congrArg Prod.fst hstore
      rw [hrun, hdb] at hr
      exact (ih r hr).snoc
    have hdb : s₁.db = (deliveries env s calls).db := congrArg Prod.fst hstore
    have hlast := acceptedBefore_last hc
    generalize (inbox env call).run (deliveries env s calls) = out at hreceipt hr hlast
    cases hreceipt with
    | duplicate | refused =>
      rw [hdb] at hr
      exact (ih r hr).snoc
    | noted t fresh inserted | delivered t _ _ _ _ _ _ _ _ fresh inserted =>
      have hrows : r ∈ t.rows := hr
      rw [Table.rows_of_insert inserted, List.mem_append, List.mem_singleton] at hrows
      rcases hrows with hold | rfl
      · rw [hdb] at hold
        exact (ih r hold).snoc
      · exact hlast rfl
    | stuck error t note users remote fresh inserted create isNote unmapped undeliverable =>
      rw [hdb] at fresh unmapped undeliverable inserted
      refine absurd (hobs activity hc create (by simp [isNote]) fresh unmapped ?_) undeliverable
      exact Table.get_eq_none_of_insert inserted

end

/-- In a run whose notes are deliverable and whose activity ids have one use, a duplicate is
one. -/
theorem duplicate_was_accepted (env : FederationEnv) (s : Server)
    (hs : s.db.federationInboxActivities.rows = []) (calls : List InboxCall) (last : InboxCall)
    (hobs : Throughout env (Unobstructed env) s (calls ++ [last]))
    (huse : OneUse env s (calls ++ [last])) (activity : Activity)
    (hc : Carries env last (deliveries env s calls) activity)
    (hdup : ((inbox env last).run (deliveries env s calls)).1 = .ok (.duplicate activity.id)) :
    AcceptedBefore env s calls activity.id activity.actor (last.recipient env) := by
  obtain ⟨-, e, s', hrun, -⟩ | ⟨activity', s₁, hc', hstore, hreceipt⟩ :=
    inbox_cases env last (deliveries env s calls)
  · rw [hrun] at hdup
    cases hdup
  obtain rfl := hc.unique hc'
  have hdb : s₁.db = (deliveries env s calls).db := congrArg Prod.fst hstore
  generalize (inbox env last).run (deliveries env s calls) = out at hdup hreceipt
  cases hreceipt with
  | duplicate recorded =>
    obtain ⟨r, hr, hid⟩ := recorded
    rw [hdb] at hr
    obtain ⟨before, call, after, a, hcalls, hca, hok, ha, hactor, hrecipient⟩ :=
      accepted_of_recorded hs hobs.of_snoc.1 r hr
    have hsame := huse before call after last [] a activity (by rw [hcalls]) hca (hcalls ▸ hc)
      (ha.trans hid)
    exact ⟨before, call, after, a, hcalls, hca, hok, ha.trans hid, hsame⟩
  | refused | noted | delivered | stuck => cases hdup

/-! ## Samples -/

/-- The body `{"actor":"https://remote.example/users/carol","id":"https://remote.example/a1",`
`"object":{"content":"hi","type":"Note"},"type":"Create"}`. -/
def noteBody : List UInt8 :=
  [123, 34, 97, 99, 116, 111, 114, 34, 58, 34, 104, 116, 116, 112, 115, 58, 47, 47, 114, 101,
    109, 111, 116, 101, 46, 101, 120, 97, 109, 112, 108, 101, 47, 117, 115, 101, 114, 115, 47, 99,
    97, 114, 111, 108, 34, 44, 34, 105, 100, 34, 58, 34, 104, 116, 116, 112, 115, 58, 47, 47, 114,
    101, 109, 111, 116, 101, 46, 101, 120, 97, 109, 112, 108, 101, 47, 97, 49, 34, 44, 34, 111,
    98, 106, 101, 99, 116, 34, 58, 123, 34, 99, 111, 110, 116, 101, 110, 116, 34, 58, 34, 104,
    105, 34, 44, 34, 116, 121, 112, 101, 34, 58, 34, 78, 111, 116, 101, 34, 125, 44, 34, 116, 121,
    112, 101, 34, 58, 34, 67, 114, 101, 97, 116, 101, 34, 125]

/-- The same with the actor `https://remote.example/users/carol+1` and an id that ends with
`a2`. -/
def plusBody : List UInt8 :=
  [123, 34, 97, 99, 116, 111, 114, 34, 58, 34, 104, 116, 116, 112, 115, 58, 47, 47, 114, 101,
    109, 111, 116, 101, 46, 101, 120, 97, 109, 112, 108, 101, 47, 117, 115, 101, 114, 115, 47, 99,
    97, 114, 111, 108, 43, 49, 34, 44, 34, 105, 100, 34, 58, 34, 104, 116, 116, 112, 115, 58, 47,
    47, 114, 101, 109, 111, 116, 101, 46, 101, 120, 97, 109, 112, 108, 101, 47, 97, 50, 34, 44,
    34, 111, 98, 106, 101, 99, 116, 34, 58, 123, 34, 99, 111, 110, 116, 101, 110, 116, 34, 58, 34,
    104, 105, 34, 44, 34, 116, 121, 112, 101, 34, 58, 34, 78, 111, 116, 101, 34, 125, 44, 34, 116,
    121, 112, 101, 34, 58, 34, 67, 114, 101, 97, 116, 101, 34, 125]

/-- The same with the actor `https://remote.example/people/carol` and an id that ends with
`a3`. -/
def peopleBody : List UInt8 :=
  [123, 34, 97, 99, 116, 111, 114, 34, 58, 34, 104, 116, 116, 112, 115, 58, 47, 47, 114, 101,
    109, 111, 116, 101, 46, 101, 120, 97, 109, 112, 108, 101, 47, 112, 101, 111, 112, 108,
    101, 47, 99, 97, 114, 111, 108, 34, 44, 34, 105, 100, 34, 58, 34, 104, 116, 116, 112, 115,
    58, 47, 47, 114, 101, 109, 111, 116, 101, 46, 101, 120, 97, 109, 112, 108, 101, 47, 97,
    51, 34, 44, 34, 111, 98, 106, 101, 99, 116, 34, 58, 123, 34, 99, 111, 110, 116, 101, 110,
    116, 34, 58, 34, 104, 105, 34, 44, 34, 116, 121, 112, 101, 34, 58, 34, 78, 111, 116, 101,
    34, 125, 44, 34, 116, 121, 112, 101, 34, 58, 34, 67, 114, 101, 97, 116, 101, 34, 125]

def samplePayload (actor id : String) : Json :=
  .object [("actor", .string actor), ("id", .string id),
    ("object", .object [("content", .string "hi"), ("type", .string "Note")]),
    ("type", .string "Create")]

def noteDigest : String := "SHA-256=q6Idsfp+bMyagezfuurUtand19Ect9CrkdnjPyLHVJY="

def plusDigest : String := "SHA-256=kXAIo/hcLUyNJDcRVpH6cjh3CpDwRyo+46vuclkCK9Y="

def peopleDigest : String := "SHA-256=WmnNNofntqQRkq0oG2Yi50A3AIqdJNPda2bRtLYjkeM="

def postCanonical (user digest : String) : String :=
  joinLines ["(request-target): post /users/" ++ user ++ "/inbox", "host: local.example",
    "date: " ++ sampleDate, "digest: " ++ digest]

def noteToAliceSignature : List UInt8 :=
  [19, 38, 225, 31, 180, 253, 252, 25, 249, 77, 107, 205, 125, 149, 57, 5, 228, 220, 226, 201,
    233, 78, 97, 81, 215, 247, 218, 180, 24, 181, 161, 134, 108, 96, 190, 59, 255, 158, 104, 162,
    140, 252, 70, 43, 226, 194, 175, 247, 200, 191, 166, 118, 195, 93, 164, 87, 80, 5, 9, 150,
    157, 63, 254, 15]

def noteToBobSignature : List UInt8 :=
  [216, 75, 73, 116, 121, 152, 203, 207, 100, 9, 129, 119, 72, 10, 228, 164, 81, 31, 142, 126,
    223, 117, 32, 130, 15, 67, 1, 204, 42, 57, 254, 5, 10, 243, 181, 243, 32, 50, 177, 70, 206,
    67, 24, 56, 133, 169, 99, 79, 181, 115, 225, 242, 9, 207, 31, 239, 122, 242, 100, 243, 64, 37,
    21, 8]

def plusToAliceSignature : List UInt8 :=
  [144, 215, 58, 42, 193, 106, 121, 255, 147, 38, 7, 148, 169, 250, 33, 202, 6, 122, 32, 112,
    175, 41, 158, 212, 25, 155, 30, 238, 200, 128, 19, 22, 173, 114, 225, 163, 122, 13, 181, 216,
    240, 185, 231, 33, 113, 55, 105, 191, 202, 147, 209, 151, 183, 2, 198, 216, 46, 32, 31, 177,
    152, 28, 55, 14]

def peopleToAliceSignature : List UInt8 :=
  [39, 228, 230, 234, 224, 119, 209, 233, 156, 50, 1, 180, 68, 153, 43, 74, 6, 22, 193, 168,
    13, 251, 92, 181, 237, 145, 250, 60, 143, 21, 33, 2, 48, 210, 232, 250, 93, 106, 52, 211,
    99, 86, 69, 207, 194, 250, 253, 193, 79, 77, 198, 111, 239, 26, 147, 155, 246, 242, 133,
    202, 63, 113, 36, 1]

def peerSignatures : List (String × String × List UInt8) :=
  [("EybhH7T9/Bn5TWvNfZU5BeTc4snpTmFR1/fatBi1oYZsYL47/55oooz8Riviwq/3yL+mdsNdpFdQBQmWnT/+Dw==",
      postCanonical "alice" noteDigest, noteToAliceSignature),
    ("2EtJdHmYy89kCYF3SArkpFEfjn7fdSCCD0MBzCo5/gUK87XzIDKxRs5DGDiFqWNPtXPh8gnPH+968mTzQCUVCA==",
      postCanonical "bob" noteDigest, noteToBobSignature),
    ("kNc6KsFqef+TJgeUqfohygZ6IHCvKZ7UGZse7siAExatcuGjeg212PC55yFxN2m/ypPRl7cCxtguIB+xmBw3Dg==",
      postCanonical "alice" plusDigest, plusToAliceSignature),
    ("J+Tm6uB30emcMgG0RJkrSgYWwagN+1y17ZH6PI8VIQIw0uj6XWo002NWRc/C+v3BT03Gb+8ak5v28oXKP3EkAQ==",
      postCanonical "alice" peopleDigest, peopleToAliceSignature)]

def peerSha256 : Sha256 where
  hex s := if s = "carol@remote.example" then
      "df41cc9a6ea22e5a51e29517ad250c11e4a0fe20d55e1aa4353406601d5f38f3"
    else sampleSha256.hex s
  length_hex s := by
    split
    · decide
    · exact sampleSha256.length_hex s
  digits_hex s := by
    split
    · decide
    · exact sampleSha256.digits_hex s

def peerUrl (s : String) : Except String Url :=
  if s = "https://remote.example/users/carol" then
    .ok ⟨"https", some "remote.example", none, some ["users", "carol"]⟩
  else if s = "https://remote.example/users/carol+1" then
    .ok ⟨"https", some "remote.example", none, some ["users", "carol+1"]⟩
  else if s = "https://remote.example/people/carol" then
    .ok ⟨"https", some "remote.example", none, some ["people", "carol"]⟩
  else if s = "https://remote.example" then .ok ⟨"https", some "remote.example", none, some [""]⟩
  else .error "relative URL without a base"

def peerFederation : FederationEnv where
  names := ⟨.ascii, peerUrl, peerSha256⟩
  decodeBase64 s :=
    if s = "kG0HnE+KGb2alaQdRiFRHfIMctJRGE5QPJi/dYZO1CE=" then .ok sampleKey
    else ((peerSignatures.find? (fun e => e.1 = s)).map (fun e => Except.ok e.2.2)).getD
      (.error "Invalid padding")
  digestSha256Base64 body :=
    if body = noteBody then "q6Idsfp+bMyagezfuurUtand19Ect9CrkdnjPyLHVJY="
    else if body = plusBody then "kXAIo/hcLUyNJDcRVpH6cjh3CpDwRyo+46vuclkCK9Y="
    else if body = peopleBody then "WmnNNofntqQRkq0oG2Yi50A3AIqdJNPda2bRtLYjkeM="
    else sampleDigest body
  ed25519Verify key message signature :=
    key = sampleKey ∧ (message, signature) ∈ peerSignatures.map Prod.snd
  parseRfc2822 s := if s = sampleDate then .ok 1000000000 else .error "invalid format"
  parseJson body :=
    if body = noteBody then
      .ok (samplePayload "https://remote.example/users/carol" "https://remote.example/a1")
    else if body = plusBody then
      .ok (samplePayload "https://remote.example/users/carol+1" "https://remote.example/a2")
    else if body = peopleBody then
      .ok (samplePayload "https://remote.example/people/carol" "https://remote.example/a3")
    else .error "expected value"
  signatureWindowSecs := 300
  keyCacheTtlSecs := 3600
  denylist := []

def noteToAlice : SignedPost where
  user := "alice"
  target := "/users/alice/inbox"
  host := "local.example"
  date := sampleDate
  digest := noteDigest
  body := noteBody
  keyId := "https://remote.example/users/carol#main-key"
  headers := "(request-target) host date digest"
  signature :=
    "EybhH7T9/Bn5TWvNfZU5BeTc4snpTmFR1/fatBi1oYZsYL47/55oooz8Riviwq/3yL+mdsNdpFdQBQmWnT/+Dw=="
  target_visible := dateToAlice.target_visible
  host_printable := dateToAlice.host_printable
  date_printable := dateToAlice.date_printable
  digest_printable := by decide
  keyId_printable := dateToAlice.keyId_printable
  headers_printable := wholeToAlice.headers_printable
  signature_printable := by decide +kernel

/-- The same activity for another user. -/
def noteToBob : SignedPost :=
  { noteToAlice with
    user := "bob"
    target := "/users/bob/inbox"
    signature :=
      "2EtJdHmYy89kCYF3SArkpFEfjn7fdSCCD0MBzCo5/gUK87XzIDKxRs5DGDiFqWNPtXPh8gnPH+968mTzQCUVCA=="
    target_visible := dateToBob.target_visible
    signature_printable := by decide +kernel }

/-- An activity of an actor whose name is not valid for an account. -/
def plusToAlice : SignedPost :=
  { noteToAlice with
    digest := plusDigest
    body := plusBody
    keyId := "https://remote.example/users/carol+1#main-key"
    signature :=
      "kNc6KsFqef+TJgeUqfohygZ6IHCvKZ7UGZse7siAExatcuGjeg212PC55yFxN2m/ypPRl7cCxtguIB+xmBw3Dg=="
    digest_printable := by decide
    keyId_printable := by decide
    signature_printable := by decide +kernel }

/-- An activity of an actor with another URL and the same name. -/
def peopleToAlice : SignedPost :=
  { noteToAlice with
    digest := peopleDigest
    body := peopleBody
    keyId := "https://remote.example/people/carol#main-key"
    signature :=
      "J+Tm6uB30emcMgG0RJkrSgYWwagN+1y17ZH6PI8VIQIw0uj6XWo002NWRc/C+v3BT03Gb+8ak5v28oXKP3EkAQ=="
    digest_printable := by decide
    keyId_printable := by decide
    signature_printable := by decide +kernel }

/-- A request that arrives, with the ids that its rows get. -/
def SignedPost.call (p : SignedPost) (n : Nat) : InboxCall :=
  ⟨p.arriving 1000000000 sampleFetch, ⟨n, n, n, n, 1000000000⟩⟩

theorem peer_signs {e : String × String × List UInt8} (he : e ∈ peerSignatures) :
    Quotable e.1 ∧ verifySignature peerFederation samplePem e.2.1 e.1 = .ok () := by
  have hpem : parseRawPemBytes peerFederation samplePem = .ok sampleKey := by decide +kernel
  have hdecode : ∀ e ∈ peerSignatures, peerFederation.decodeBase64 e.1 = .ok e.2.2 := by
    decide +kernel
  have hquotable : ∀ e ∈ peerSignatures,
      ',' ∉ e.1.toList ∧ '"' ∉ e.1.toList.head? ∧ '"' ∉ e.1.toList.getLast? := by
    decide +kernel
  obtain ⟨hcomma, hhead, hlast⟩ := hquotable e he
  refine ⟨⟨hcomma, hhead, hlast⟩, ?_⟩
  have hverify : peerFederation.ed25519Verify sampleKey e.2.1 e.2.2 = true := by
    simp only [peerFederation, decide_eq_true_eq]
    exact ⟨trivial, List.mem_map_of_mem he⟩
  simp only [verifySignature, hpem, ok_bind, hdecode e he, hverify, if_true]

theorem canonical_of_post {p : SignedPost} {user : String}
    (htarget : p.target = "/users/" ++ user ++ "/inbox") (hhost : p.host = "local.example")
    (hdate : p.date = sampleDate) :
    canonicalizeSignedString .ascii p.request ["(request-target)", "host", "date", "digest"] =
      .ok (postCanonical user p.digest) := by
  have hpost : Unicode.ascii.toLowercase "POST" = "post" := by decide
  have hline : targetLine .ascii p.request = "(request-target): post /users/" ++ user ++ "/inbox" := by
    change headerLine requestTarget (Unicode.ascii.toLowercase "POST" ++ " " ++ p.target) = _
    rw [hpost, htarget]
    apply String.toList_inj.mp
    simp [headerLine, requestTarget]
  rw [SignedPost.canonicalize_eq, hline, hhost, hdate]
  rfl

/-- A request of Carol's server is authenticated. -/
theorem post_accepted {p : SignedPost} {actor user : String} {raw : List UInt8} {s s' : Server}
    (hsize : p.body.length ≤ maxPayloadBytes)
    (hdigest : p.digest = digestValue peerFederation p.body)
    (htarget : p.target = "/users/" ++ user ++ "/inbox") (hhost : p.host = "local.example")
    (hdate : p.date = sampleDate) (hheaders : p.headers = "(request-target) host date digest")
    (hk : Quotable p.keyId) (hkey : parseKeyIdActorUrl p.keyId = .ok actor)
    (hallowed : ensureRemoteDomainAllowed peerFederation actor = .ok ())
    (hsigned : (p.signature, postCanonical user p.digest, raw) ∈ peerSignatures)
    (huser : s.db.users.rows.any (fun u => u.username = Unicode.ascii.toLowercase p.user))
    (hpem : (fetchActorPublicKey peerFederation actor sampleFetch false).run s =
      (.ok samplePem, s')) :
    ∃ fields, (authenticate peerFederation (p.arriving 1000000000 sampleFetch)).run s =
      (.ok ⟨actor, samplePem, postCanonical user p.digest, fields⟩, s') := by
  have hts : peerFederation.parseRfc2822 p.date = .ok 1000000000 := by
    rw [hdate]
    rfl
  have hnames : p.signedNames .ascii = ["(request-target)", "host", "date", "digest"] := by
    rw [SignedPost.signedNames, hheaders]
    decide
  have hq : Quotable p.headers := by
    rw [hheaders]
    exact ⟨by decide, by decide, by decide⟩
  have hin : "date" ∈ p.signedNames .ascii := by
    rw [hnames]
    decide
  obtain ⟨hs, hverify⟩ := peer_signs hsigned
  exact ⟨_, SignedPost.accepted 1000000000 1000000000 hsize hdigest hts (by decide) hk hq hs hin
    hkey hallowed (hnames ▸ canonical_of_post htarget hhost hdate) hverify huser hpem⟩

theorem noteToAlice_accepted {s s' : Server}
    (huser : s.db.users.rows.any (fun u => u.username = "alice"))
    (hpem : (fetchActorPublicKey peerFederation sampleActor sampleFetch false).run s =
      (.ok samplePem, s')) :
    ∃ fields, (authenticate peerFederation (noteToAlice.arriving 1000000000 sampleFetch)).run s =
      (.ok ⟨sampleActor, samplePem, postCanonical "alice" noteDigest, fields⟩, s') :=
  post_accepted (by decide +kernel) (by decide +kernel) (by decide) rfl rfl rfl sampleKeyId_quotable
    (by decide) (by decide) (.head _) huser hpem

theorem noteToBob_accepted {s s' : Server}
    (huser : s.db.users.rows.any (fun u => u.username = "bob"))
    (hpem : (fetchActorPublicKey peerFederation sampleActor sampleFetch false).run s =
      (.ok samplePem, s')) :
    ∃ fields, (authenticate peerFederation (noteToBob.arriving 1000000000 sampleFetch)).run s =
      (.ok ⟨sampleActor, samplePem, postCanonical "bob" noteDigest, fields⟩, s') :=
  post_accepted (by decide +kernel) (by decide +kernel) (by decide) rfl rfl rfl sampleKeyId_quotable
    (by decide) (by decide) (.tail _ (.head _)) huser hpem

def plusActor : String := "https://remote.example/users/carol+1"

theorem plusToAlice_accepted {s s' : Server}
    (huser : s.db.users.rows.any (fun u => u.username = "alice"))
    (hpem : (fetchActorPublicKey peerFederation plusActor sampleFetch false).run s =
      (.ok samplePem, s')) :
    ∃ fields, (authenticate peerFederation (plusToAlice.arriving 1000000000 sampleFetch)).run s =
      (.ok ⟨plusActor, samplePem, postCanonical "alice" plusDigest, fields⟩, s') := by
  have hk : Quotable plusToAlice.keyId := ⟨by decide, by decide, by decide⟩
  exact post_accepted (by decide +kernel) (by decide +kernel) (by decide) rfl rfl rfl hk (by decide)
    (by decide) (.tail _ (.tail _ (.head _))) huser hpem

def noteActivity : Activity :=
  ⟨"https://remote.example/a1", "Create", sampleActor,
    samplePayload "https://remote.example/users/carol" "https://remote.example/a1"⟩

def plusActivity : Activity :=
  ⟨"https://remote.example/a2", "Create", plusActor,
    samplePayload "https://remote.example/users/carol+1" "https://remote.example/a2"⟩

theorem check_note : checkActivity peerFederation noteBody sampleActor = .ok noteActivity := by
  rfl

theorem check_plus : checkActivity peerFederation plusBody plusActor = .ok plusActivity := by
  rfl

def keyedServer (actor : String) : Server := rememberKey actor ⟨samplePem, 1000000000⟩ sampleServer

def noteDelivered : Server :=
  ((receive peerFederation "alice" noteActivity (noteToAlice.call 11).new).run
    (keyedServer sampleActor)).2

def plusRefused : Server :=
  ((receive peerFederation "alice" plusActivity (plusToAlice.call 11).new).run
    (keyedServer plusActor)).2

theorem note_delivered : (inbox peerFederation (noteToAlice.call 11)).run sampleServer =
    (.ok (.accepted "https://remote.example/a1"), noteDelivered) := by
  obtain ⟨fields, hauth⟩ := noteToAlice_accepted (s := sampleServer) (by decide)
    (run_fetch_new rfl rfl)
  rw [run_inbox (noteToAlice.call 11) hauth check_note]
  exact Prod.ext (by decide) (Eq.refl _)

theorem note_refused_for_bob :
    Carries peerFederation (noteToBob.call 12) noteDelivered noteActivity ∧
      (inbox peerFederation (noteToBob.call 12)).run noteDelivered =
        (.ok (.duplicate "https://remote.example/a1"), noteDelivered) := by
  obtain ⟨fields, hauth⟩ := noteToBob_accepted (s := noteDelivered) (by decide)
    (run_fetch_cached rfl)
  refine ⟨⟨_, _, hauth, check_note⟩, ?_⟩
  rw [run_inbox (noteToBob.call 12) hauth check_note]
  exact Prod.ext (by decide) (Eq.refl _)

theorem note_repeated :
    Carries peerFederation (noteToAlice.call 13) noteDelivered noteActivity ∧
      ((inbox peerFederation (noteToAlice.call 13)).run noteDelivered).1 =
        .ok (.duplicate "https://remote.example/a1") := by
  obtain ⟨fields, hauth⟩ := noteToAlice_accepted (s := noteDelivered) (by decide)
    (run_fetch_cached rfl)
  refine ⟨⟨_, _, hauth, check_note⟩, ?_⟩
  rw [run_inbox (noteToAlice.call 13) hauth check_note]
  decide

theorem note_carried (n : Nat) :
    Carries peerFederation (noteToAlice.call n) sampleServer noteActivity := by
  obtain ⟨fields, hauth⟩ := noteToAlice_accepted (s := sampleServer) (by decide)
    (run_fetch_new rfl rfl)
  exact ⟨_, _, hauth, check_note⟩

theorem note_unobstructed :
    Unobstructed peerFederation (noteToAlice.call 11) sampleServer := by
  intro activity hc _ _ _ _ _
  obtain rfl := (note_carried 11).unique hc
  refine ⟨⟨"carol@remote.example", by decide, .inr ?_⟩, rfl, rfl⟩
  decide

theorem deliveries_note :
    deliveries peerFederation sampleServer [noteToAlice.call 11] = noteDelivered := by
  rw [deliveries_one, note_delivered]

/-- A note for two users is a duplicate for the second one, who does not get it. -/
theorem second_recipient_swallowed :
    ((inbox peerFederation (noteToAlice.call 11)).run sampleServer).1 =
        .ok (.accepted noteActivity.id) ∧
      Carries peerFederation (noteToBob.call 12)
        (deliveries peerFederation sampleServer [noteToAlice.call 11]) noteActivity ∧
      ((inbox peerFederation (noteToBob.call 12)).run
        (deliveries peerFederation sampleServer [noteToAlice.call 11])).1 =
          .ok (.duplicate noteActivity.id) ∧
      ¬ AcceptedBefore peerFederation sampleServer [noteToAlice.call 11] noteActivity.id
        noteActivity.actor ((noteToBob.call 12).recipient peerFederation) ∧
      ∀ m ∈ (deliveries peerFederation sampleServer
        [noteToAlice.call 11, noteToBob.call 12]).db.messages.rows, m.recipientId ≠ 2 := by
  have hboth : deliveries peerFederation sampleServer [noteToAlice.call 11, noteToBob.call 12] =
      noteDelivered := by
    rw [← List.singleton_append, deliveries_snoc, deliveries_note, note_refused_for_bob.2]
  rw [hboth, deliveries_note, note_delivered, note_refused_for_bob.2]
  refine ⟨rfl, note_refused_for_bob.1, rfl, ?_, by decide⟩
  rintro ⟨before, call, after, activity, hcalls, -, -, -, -, hrecipient⟩
  rcases before with _ | ⟨c, before⟩
  · cases hcalls
    revert hrecipient
    decide
  · simp at hcalls

/-- The note for Alice is delivered again. -/
theorem duplicate_was_accepted_alice :
    AcceptedBefore peerFederation sampleServer [noteToAlice.call 11] noteActivity.id
      noteActivity.actor "alice" := by
  have hlists : ∀ before call after, [noteToAlice.call 11, noteToAlice.call 13] =
      before ++ call :: after → (before = [] ∧ call = noteToAlice.call 11) ∨
        (before = [noteToAlice.call 11] ∧ call = noteToAlice.call 13) := by
    intro before call after h
    rcases before with _ | ⟨c, _ | ⟨c', before⟩⟩
    · cases h
      exact .inl ⟨rfl, rfl⟩
    · cases h
      exact .inr ⟨rfl, rfl⟩
    · simp at h
  refine duplicate_was_accepted peerFederation sampleServer rfl [noteToAlice.call 11]
    (noteToAlice.call 13) ?_ ?_ noteActivity (by rw [deliveries_note]; exact note_repeated.1)
    (by rw [deliveries_note]; exact note_repeated.2)
  · intro before call after h
    rcases hlists before call after h with ⟨rfl, rfl⟩ | ⟨rfl, rfl⟩
    · exact note_unobstructed
    · rw [deliveries_note]
      intro activity hc _ _ hfresh
      obtain rfl := note_repeated.1.unique hc
      exact absurd ⟨_, List.mem_cons_self, rfl⟩ hfresh
  · intro before call between call' after activity activity' h hc hc' _
    rcases hlists before call (between ++ call' :: after) (by simpa using h) with
      ⟨rfl, rfl⟩ | ⟨rfl, rfl⟩
    · obtain rfl := (note_carried 11).unique hc
      rcases hlists (noteToAlice.call 11 :: between) call' after (by simpa using h) with
        ⟨hno, -⟩ | ⟨hb, rfl⟩
      · cases hno
      · obtain rfl : between = [] := by simpa using hb
        rw [List.nil_append, deliveries_note] at hc'
        obtain rfl := note_repeated.1.unique hc'
        exact ⟨rfl, rfl⟩
    · simp at h

/-- A note whose actor has a wrong name is recorded and refused, and then a duplicate. -/
theorem failed_delivery_recorded :
    (∃ message, ((inbox peerFederation (plusToAlice.call 11)).run sampleServer).1 =
        .error (.badRequest message)) ∧
      ¬ Retryable peerFederation (plusToAlice.call 11) sampleServer ∧
      ((inbox peerFederation (plusToAlice.call 12)).run
        (deliveries peerFederation sampleServer [plusToAlice.call 11])).1 =
          .ok (.duplicate plusActivity.id) ∧
      (deliveries peerFederation sampleServer
        [plusToAlice.call 11, plusToAlice.call 12]).db.messages.rows = [] := by
  have hrun : (inbox peerFederation (plusToAlice.call 11)).run sampleServer =
      (.error (.badRequest "recipient_id contains unsupported characters"), plusRefused) := by
    obtain ⟨fields, hauth⟩ := plusToAlice_accepted (s := sampleServer) (by decide)
      (run_fetch_new rfl rfl)
    rw [run_inbox (plusToAlice.call 11) hauth check_plus]
    exact Prod.ext (by decide) (Eq.refl _)
  have hagain : (inbox peerFederation (plusToAlice.call 12)).run plusRefused =
      (.ok (.duplicate plusActivity.id), plusRefused) := by
    obtain ⟨fields, hauth⟩ := plusToAlice_accepted (s := plusRefused) (by decide)
      (run_fetch_cached rfl)
    rw [run_inbox (plusToAlice.call 12) hauth check_plus]
    exact Prod.ext (by decide) (Eq.refl _)
  have hone : deliveries peerFederation sampleServer [plusToAlice.call 11] = plusRefused := by
    rw [deliveries_one, hrun]
  have hboth : deliveries peerFederation sampleServer [plusToAlice.call 11, plusToAlice.call 12] =
      plusRefused := by
    rw [← List.singleton_append, deliveries_snoc, hone, hagain]
  rw [hboth, hone, hagain, hrun]
  refine ⟨⟨_, rfl⟩, fun h => ?_, rfl, by decide⟩
  have hrows := congrArg Table.rows (h _ _ hrun).1
  have hlen := congrArg List.length hrows
  revert hlen
  decide

/-- One delivery of a note is one message. -/
theorem inbound_delivery_exactly_once_alice :
    ∃ m, (deliveries peerFederation sampleServer [noteToAlice.call 11]).db.messages.rows = [m] ∧
      m.recipientId = 1 ∧ m.content = "hi" := by
  have hone : ∀ before call after, [noteToAlice.call 11] = before ++ call :: after →
      before = [] ∧ call = noteToAlice.call 11 := by
    intro before call after h
    rcases before with _ | ⟨c, before⟩
    · cases h
      exact ⟨rfl, rfl⟩
    · simp at h
  have hbrings : ∀ call ∈ [noteToAlice.call 11], Brings peerFederation noteActivity "alice" call := by
    intro call hcall
    obtain rfl := List.mem_singleton.mp hcall
    refine ⟨?_, by decide⟩
    rintro s activity ⟨v, s₁, -, hcheck⟩
    exact checkActivity_unique hcheck check_note
  have hclear : Throughout peerFederation (Unobstructed peerFederation) sampleServer
      [noteToAlice.call 11] := by
    intro before call after h
    obtain ⟨rfl, rfl⟩ := hone before call after h
    exact note_unobstructed
  have hfresh : ¬ Recorded noteActivity.id sampleServer.db := by
    rintro ⟨r, hr, -⟩
    cases hr
  have hmapped : ¬ Mapped noteActivity.id sampleServer.db := by
    rintro ⟨r, hr, -⟩
    cases hr
  have hanswer : ((inbox peerFederation (noteToAlice.call 11)).run
      (deliveries peerFederation sampleServer [])).1 = .ok (.accepted noteActivity.id) := by
    rw [deliveries, List.foldl_nil, note_delivered]
    rfl
  have hnote : noteOf noteActivity.payload = some ⟨"hi", none⟩ := by
    rfl
  have huser : userByUsername "alice" sampleServer.db = some (sampleAccount 1 "alice") := by
    rfl
  have hstored := (inbound_delivery_exactly_once peerFederation).2 noteActivity "alice"
    ⟨"hi", none⟩ (sampleAccount 1 "alice") sampleServer [] (noteToAlice.call 11)
    (.accepted noteActivity.id) rfl hnote huser hfresh hmapped
    (by rw [List.nil_append]; exact hbrings) (by rw [List.nil_append]; exact hclear) hanswer
  have hempty : sampleServer.db.messages.rows = [] := rfl
  simp only [List.nil_append, hempty] at hstored
  exact hstored

end SyncServer.Federation
