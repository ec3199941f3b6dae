import SyncServer.Federation.DeliveryReport

/-! # Direct messages that reach another server

A direct message is delivered if its sender has a key or can get one, the server of the recipient
has an inbox, the delivery has a row whose attempts can be counted, and the answer is a success.
-/

namespace SyncServer.Federation
open Transaction Accounts

section
variable {env : OutboxEnv} {username activityId destination : String} {generated : GeneratedKey}
  {id : Uuid} {d : Db}

def HasKey (env : OutboxEnv) (username : String) (generated : GeneratedKey) (d : Db) : Prop :=
  (actorKeyOf username d).isSome ∨
    (∀ k ∈ d.federationActorKeys.rows, k.keyId ≠ keyId env.instanceDomain username) ∧
      d.federationActorKeys.get generated.id = none

theorem addActorKey_requires {row : FederationActorKey} {d' : Db}
    (h : addActorKey row d = .ok ((), d')) :
    (∀ k ∈ d.federationActorKeys.rows, k.keyId ≠ row.keyId) ∧
      d.federationActorKeys.get row.id = none := by
  unfold addActorKey at h
  split at h
  · cases h
  rename_i hclash
  rcases ht : d.federationActorKeys.insert row with _ | t
  · simp only [ht] at h
    cases h
  · refine ⟨fun k hk hname => hclash ?_, Table.get_eq_none_of_insert ht⟩
    rw [List.any_eq_true]
    exact ⟨k, hk, by simp [hname]⟩

theorem succeeds_ensureActorKeyMaterial
    (hu : d.users.rows.any (fun u => u.username = username) = true) :
    (ensureActorKeyMaterial env username generated).Succeeds d ↔
      HasKey env username generated d := by
  rcases hfind : actorKeyOf username d with _ | key
  · unfold HasKey
    rw [hfind]
    simp only [Option.isSome_none, Bool.false_eq_true, false_or]
    constructor
    · intro h
      unfold ensureActorKeyMaterial getActorKey at h
      rw [Tx.succeeds_query_bind, hfind] at h
      unfold ensureActorKey getActorKey at h
      rw [GeneratedKey.row, Tx.succeeds_query_bind, hfind] at h
      obtain ⟨⟨⟩, d', hadd, -⟩ := Tx.succeeds_bind.mp h
      exact addActorKey_requires (Query.run_exec_ok.mp hadd)
    · rintro ⟨hnames, hfree⟩
      obtain ⟨key, t, hrun⟩ := run_ensureActorKeyMaterial generated (.inr hnames) hfree hu
      exact ⟨key, _, hrun⟩
  · exact iff_of_true ⟨key, d, run_ensureActorKeyMaterial_found hfind generated⟩
      (.inl (by rw [hfind]; rfl))

theorem succeeds_upsertDeliveryPending {senderUsername : String}
    (hu : d.users.rows.any (fun u => u.username = senderUsername) = true) :
    (upsertDeliveryPending id activityId senderUsername destination).Succeeds d ↔
      (deliveryOf activityId destination d).isSome ∨ d.federationDeliveries.get id = none := by
  constructor
  · intro h
    obtain ⟨⟨⟩, d', hadd, -⟩ := Tx.succeeds_bind.mp h
    have hadd := Query.run_exec_ok.mp hadd
    unfold addDelivery at hadd
    rcases hold : deliveryOf activityId destination d with _ | r
    · simp only [hold] at hadd
      split at hadd
      · cases hadd
      rename_i t ht
      exact .inr (Table.get_eq_none_of_insert ht)
    · exact .inl rfl
  · intro h
    obtain ⟨delivery, t, hrun⟩ := run_upsertDeliveryPending activityId destination h hu
    exact ⟨delivery, _, hrun⟩

theorem succeeds_markDeliverySuccess {now : Int} :
    (markDeliverySuccess id now).Succeeds d ↔
      (d.federationDeliveries.get id).all (fun r => decide (r.attempts < i32Max)) = true := by
  constructor
  · rintro ⟨⟨⟩, d', h⟩
    have h := Query.run_exec_ok.mp h
    split at h
    · assumption
    · cases h
  · intro h
    exact ⟨(), _, Query.run_exec_ok.mpr (if_pos h)⟩

end

/-! ## Deliveries -/

def activityIdOf (env : OutboxEnv) (username : String) (activity : Uuid) : String :=
  actorUrl env.instanceDomain username ++ "/activities/" ++ uuidString activity

/-- There is a row for the delivery to a destination, or one can be inserted, and its attempts can
be counted. -/
structure Pending (activityId destination : String) (id : Uuid) (d : Db) : Prop where
  row : (deliveryOf activityId destination d).isSome ∨ d.federationDeliveries.get id = none
  countable : attemptsOf activityId destination d < i32Max

theorem Pending.congr {activityId destination : String} {id : Uuid} {d d' : Db}
    (h : d'.federationDeliveries = d.federationDeliveries)
    (hpending : Pending activityId destination id d) : Pending activityId destination id d' := by
  have hof : deliveryOf activityId destination d' = deliveryOf activityId destination d := by
    rw [deliveryOf, h]
    rfl
  obtain ⟨hrow, hcount⟩ := hpending
  rw [← hof, ← h] at hrow
  rw [attemptsOf, ← hof] at hcount
  exact ⟨hrow, hcount⟩

/-- A message of a user to a person on another server is delivered. -/
structure DeliveryPasses (env : OutboxEnv) (sender : User) (recipientId serverUrl : String)
    (new : MintedActivity) (attempt : Attempt) (d : Db) : Prop where
  key : HasKey env sender.username new.key d
  inbox : ∃ destination, buildRemoteInboxUrl env serverUrl recipientId = .ok destination ∧
    Pending (activityIdOf env sender.username new.activity) destination attempt.id d
  answer : ∃ status, attempt.outcome = .answered status ∧ isSuccess status = true

theorem DeliveryPasses.congr {env : OutboxEnv} {sender : User} {recipientId serverUrl : String}
    {new : MintedActivity} {attempt : Attempt} {d d' : Db}
    (hkeys : d'.federationActorKeys = d.federationActorKeys)
    (hdeliveries : d'.federationDeliveries = d.federationDeliveries)
    (h : DeliveryPasses env sender recipientId serverUrl new attempt d) :
    DeliveryPasses env sender recipientId serverUrl new attempt d' := by
  obtain ⟨hkey, ⟨destination, hinbox, hpending⟩, hanswer⟩ := h
  refine ⟨?_, ⟨destination, hinbox, hpending.congr hdeliveries⟩, hanswer⟩
  rw [HasKey, actorKeyOf, ← hkeys] at hkey
  exact hkey

section
variable {env : OutboxEnv} {key : FederationActorKey} {activityId senderUsername : String}
  {payload : Json} {destination : String} {attempt : Attempt} {s : Server} {status : Nat}

theorem recordOutcome_answered (env : OutboxEnv) (id : Uuid) (ho : attempt.outcome = .answered status)
    (hsuccess : isSuccess status = true) :
    recordOutcome env id attempt = markDeliverySuccess id attempt.now := by
  unfold recordOutcome
  simp only [ho, hsuccess, if_true]

theorem succeeds_record_of_pending {id : Uuid} {delivery : FederationDelivery} {d d₁ : Db}
    (h : (upsertDeliveryPending id activityId senderUsername destination).run d =
      (.ok delivery, d₁)) (now : Int) :
    (markDeliverySuccess delivery.id now).Succeeds d₁ ↔
      attemptsOf activityId destination d < i32Max := by
  obtain ⟨hfound, hattempts, -⟩ := upsertDeliveryPending_ok h
  have hget : d₁.federationDeliveries.get delivery.id = some delivery :=
    Table.get_eq_some.mpr ⟨(deliveryOf_keys hfound).1, rfl⟩
  rw [succeeds_markDeliverySuccess, hget, Option.all_some, decide_eq_true_eq, hattempts]

/-- A delivery that is answered with success ends without an error if and only if it can be
recorded. -/
theorem succeeds_deliver (hu : s.db.users.rows.any (fun u => u.username = senderUsername) = true)
    (ho : attempt.outcome = .answered status) (hsuccess : isSuccess status = true) :
    (deliver env key activityId senderUsername payload destination attempt).Succeeds s ↔
      Pending activityId destination attempt.id s.db := by
  have hpost : ∀ s' : Server, (postActivitySigned destination key.keyId payload
      attempt.outcome).run s' = (.ok attempt.outcome, { s' with
        sent := s'.sent ++ [.activity destination key.keyId payload] }) := by
    intro s'
    rw [ho]
    rfl
  rw [deliver, Tx.succeeds_bind]
  constructor
  · rintro ⟨delivery, s₁, hupsert, h⟩
    obtain ⟨d₁, hpending, rfl⟩ := run_onDb_eq_iff.mp hupsert
    obtain ⟨outcome, s₂, hrun, h⟩ := Tx.succeeds_bind.mp h
    cases (hpost _).symm.trans hrun
    obtain ⟨⟨⟩, s₃, hmark, -⟩ := Tx.succeeds_bind.mp h
    obtain ⟨d₃, hrecord, -⟩ := run_onDb_eq_iff.mp hmark
    rw [recordOutcome_answered env delivery.id ho hsuccess] at hrecord
    exact ⟨(succeeds_upsertDeliveryPending hu).mp ⟨delivery, d₁, hpending⟩,
      (succeeds_record_of_pending hpending attempt.now).mp ⟨(), d₃, hrecord⟩⟩
  · rintro ⟨hrow, hcount⟩
    obtain ⟨delivery, d₁, hpending⟩ := (succeeds_upsertDeliveryPending hu).mpr hrow
    obtain ⟨⟨⟩, d₃, hrecord⟩ := (succeeds_record_of_pending hpending attempt.now).mpr hcount
    rw [← recordOutcome_answered env delivery.id ho hsuccess] at hrecord
    refine ⟨delivery, s.setDb d₁, run_onDb_eq hpending, ?_⟩
    refine Tx.succeeds_bind.mpr ⟨_, _, hpost _, ?_⟩
    exact Tx.succeeds_bind.mpr ⟨(), _, run_onDb_eq hrecord, Tx.succeeds_pure _ _⟩

end

/-- A message for a person on another server ends without an error if and only if it can be
delivered. -/
theorem succeeds_deliverDirectMessageToRemote {env : OutboxEnv} {sender : User}
    {recipientId serverUrl content : String} {new : MintedActivity} {attempt : Attempt} {s : Server}
    (hu : s.db.users.get sender.id = some sender) :
    (deliverDirectMessageToRemote env sender.id recipientId serverUrl content new
        attempt).Succeeds s ↔
      DeliveryPasses env sender recipientId serverUrl new attempt s.db := by
  have hname : s.db.users.rows.any (fun u => u.username = sender.username) = true := by
    rw [List.any_eq_true]
    exact ⟨sender, (Table.get_eq_some.mp hu).1, by simp⟩
  have husers : ∀ {key d}, (ensureActorKeyMaterial env sender.username new.key).run s.db =
      (.ok key, d) → d.users = s.db.users := fun h =>
    (keeps_ensureActorKeyMaterial (fun _ _ => rfl) env sender.username new.key).of_run h
  have hdeliveries : ∀ {key d}, (ensureActorKeyMaterial env sender.username new.key).run s.db =
      (.ok key, d) → d.federationDeliveries = s.db.federationDeliveries := fun h =>
    (keeps_ensureActorKeyMaterial (fun _ _ => rfl) env sender.username new.key).of_run h
  unfold Tx.Succeeds deliverDirectMessageToRemote
  rw [Tx.run_bind_ok (run_onDb_read (run_usernameById hu))]
  change Tx.Succeeds _ s ↔ _
  rw [Tx.succeeds_bind]
  constructor
  · rintro ⟨key, s₁, hensure, h⟩
    obtain ⟨d₁, hkey, rfl⟩ := run_onDb_eq_iff.mp hensure
    obtain ⟨destination, hinbox, hrest⟩ := Tx.succeeds_done_bind.mp h
    obtain ⟨delivery, s₂, hdeliver, hanswer⟩ := Tx.succeeds_bind.mp hrest
    obtain ⟨status, ho, hsuccess⟩ : ∃ status, attempt.outcome = .answered status ∧
        isSuccess status = true := by
      obtain ⟨⟨⟩, s₃, hanswer⟩ := hanswer
      split at hanswer
      · rename_i status ho
        split at hanswer
        · exact ⟨status, ho, by assumption⟩
        · cases hanswer
      · cases hanswer
      · cases hanswer
    have hname₁ : (s.setDb d₁).db.users.rows.any (fun u => u.username = sender.username) = true := by
      rw [← hname, ← husers hkey]
      rfl
    have hpending := (succeeds_deliver hname₁ ho hsuccess).mp ⟨delivery, s₂, hdeliver⟩
    exact ⟨(succeeds_ensureActorKeyMaterial hname).mp ⟨key, d₁, hkey⟩,
      ⟨destination, hinbox, hpending.congr (hdeliveries hkey).symm⟩, ⟨status, ho, hsuccess⟩⟩
  · rintro ⟨hkeys, ⟨destination, hinbox, hpending⟩, ⟨status, ho, hsuccess⟩⟩
    obtain ⟨key, d₁, hkey⟩ := (succeeds_ensureActorKeyMaterial hname).mpr hkeys
    have hname₁ : (s.setDb d₁).db.users.rows.any (fun u => u.username = sender.username) = true := by
      rw [← hname, ← husers hkey]
      rfl
    obtain ⟨delivery, s₂, hdeliver⟩ : (deliver env key
        (activityIdOf env sender.username new.activity) sender.username
        (createActivity env sender.username new.activity new.object content [destination]).2
        destination attempt).Succeeds (s.setDb d₁) :=
      (succeeds_deliver hname₁ ho hsuccess).mpr (hpending.congr (hdeliveries hkey))
    refine ⟨key, s.setDb d₁, run_onDb_eq hkey, Tx.succeeds_done_bind.mpr ⟨destination, hinbox, ?_⟩⟩
    refine Tx.succeeds_bind.mpr ⟨delivery, s₂, hdeliver, ?_⟩
    rw [ho]
    simp only [hsuccess, if_true]
    exact Tx.succeeds_pure _ _

end SyncServer.Federation
