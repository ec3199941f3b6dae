import SyncServer.Accounts.Shadows
import SyncServer.Auth.Rotation
import SyncServer.Base.Counting
import SyncServer.Federation.Deliveries

/-! # What becomes of a delivery

The requests of `Federation.Deliveries` change the table of the deliveries in four ways. From
them: what every run keeps of a delivery, and of the attempts that were made for it.
-/

namespace SyncServer.Federation
open Transaction Autocommit

/-! ## The states of a delivery -/

/-- Nothing more is to be done for a delivery. -/
def IsTerminal (r : FederationDelivery) : Prop := r.status = "delivered" ∨ r.status = "dead_letter"

instance (r : FederationDelivery) : Decidable (IsTerminal r) :=
  inferInstanceAs (Decidable (_ ∨ _))

/-- The columns of a delivery agree with its status. -/
structure RowSound (r : FederationDelivery) : Prop where
  next_attempt_at : r.nextAttemptAt.isSome ↔ r.status = "failed"
  delivered_at : r.deliveredAt.isSome ↔ r.status = "delivered"
  attempts_nonneg : 0 ≤ r.attempts
  attempts_lt : ¬ IsTerminal r → r.attempts < i32Max

theorem rowSound_new (job : SendJob) (destination : String) (attempt : Attempt) :
    RowSound (job.row destination attempt) := by
  constructor <;> simp [SendJob.row, i32Max]

theorem rowSound_pendingAgain {r : FederationDelivery} (h : RowSound r) (hopen : ¬ IsTerminal r) :
    RowSound (pendingAgain r) where
  next_attempt_at := by simp [pendingAgain]
  delivered_at := by
    have hnot : r.status ≠ "delivered" := fun hs => hopen (.inl hs)
    simpa [pendingAgain, hnot] using h.delivered_at
  attempts_nonneg := h.attempts_nonneg
  attempts_lt _ := h.attempts_lt hopen

theorem rowSound_delivered {r : FederationDelivery} (h : RowSound r) (now : Int) :
    RowSound (delivered now r) where
  next_attempt_at := by simp [delivered]
  delivered_at := by simp [delivered]
  attempts_nonneg := by
    have := h.attempts_nonneg
    dsimp only [delivered]
    omega
  attempts_lt hnot := absurd (.inl rfl) hnot

theorem i32_attempts {r : FederationDelivery} (h : RowSound r) (hopen : ¬ IsTerminal r) :
    i32 (r.attempts + 1) = r.attempts + 1 := by
  have := h.attempts_nonneg
  have := h.attempts_lt hopen
  exact i32_of_range (by unfold i32Min; omega) (by omega)

theorem attempts_withFailure {r delivery : FederationDelivery} (h : RowSound r)
    (hopen : ¬ IsTerminal r) (hread : r.attempts = delivery.attempts) (message : String)
    (maxAttempts now : Int) :
    (withFailure delivery message maxAttempts now r).attempts = r.attempts + 1 := by
  rw [withFailure, ← hread]
  exact i32_attempts h hopen

theorem rowSound_withFailure {r delivery : FederationDelivery} (h : RowSound r)
    (hopen : ¬ IsTerminal r) (hread : r.attempts = delivery.attempts) (message : String)
    {maxAttempts : Int} (hmax : maxAttempts ≤ i32Max) (now : Int) :
    RowSound (withFailure delivery message maxAttempts now r) := by
  have hnot : r.deliveredAt.isSome = false := by
    rw [Bool.eq_false_iff, Ne, h.delivered_at]
    exact fun hs => hopen (.inl hs)
  have hattempts := attempts_withFailure h hopen hread message maxAttempts now
  have hstatus : (withFailure delivery message maxAttempts now r).status =
      if maxAttempts ≤ r.attempts + 1 then "dead_letter" else "failed" := by
    rw [← hattempts]
    rfl
  have hnext : (withFailure delivery message maxAttempts now r).nextAttemptAt.isSome ↔
      (withFailure delivery message maxAttempts now r).status ≠ "dead_letter" := by
    simp [withFailure]
  constructor
  · rw [hnext, hstatus]
    split <;> simp
  · change r.deliveredAt.isSome ↔ _
    rw [hnot, hstatus]
    split <;> simp
  · have := h.attempts_nonneg
    omega
  · intro hfailed
    by_cases hdead : maxAttempts ≤ r.attempts + 1
    · rw [if_pos hdead] at hstatus
      exact absurd (.inr hstatus) hfailed
    · omega

/-! ## The changes of the table -/

abbrev Deliveries := Table Uuid FederationDelivery FederationDelivery.id

/-- The ways in which a statement may change the deliveries, with the delivery whose attempt it
records. -/
inductive Change (t : Deliveries) : Option Uuid → Deliveries → Prop where
  | same : Change t none t
  | added {t' : Deliveries} (job : SendJob) (destination : String) (attempt : Attempt)
      (h : t.insert (job.row destination attempt) = some t') : Change t none t'
  | reopened {r : FederationDelivery} (h : t.get r.id = some r) (hopen : ¬ IsTerminal r) :
      Change t none (t.update r.id pendingAgain pendingAgain_id)
  | recorded {r : FederationDelivery} {f : FederationDelivery → FederationDelivery}
      (hf : ∀ r, (f r).id = r.id) (h : t.get r.id = some r) (hopen : ¬ IsTerminal r)
      (hsound : RowSound (f r)) (hattempts : (f r).attempts = r.attempts + 1) :
      Change t (some r.id) (t.update r.id f hf)

namespace Change
variable {t t' : Deliveries} {recorded : Option Uuid}

/-- The rows after a change. -/
theorem get_cases (h : Change t recorded t') (hsound : ∀ id r, t.get id = some r → RowSound r)
    {id : Uuid} {r' : FederationDelivery} (hr' : t'.get id = some r') :
    RowSound r' ∧
      (t.get id = none ∧ recorded = none ∧ r'.attempts = 0 ∨
        ∃ r, t.get id = some r ∧ r'.attempts = r.attempts + recorded.toList.count id) := by
  cases h with
  | same => exact ⟨hsound id r' hr', .inr ⟨r', hr', by simp⟩⟩
  | added job destination attempt h =>
    rw [Table.get_of_insert h] at hr'
    split at hr'
    · rename_i hid
      cases hr'
      exact ⟨rowSound_new job destination attempt,
        .inl ⟨hid ▸ Table.get_eq_none_of_insert h, rfl, rfl⟩⟩
    · exact ⟨hsound id r' hr', .inr ⟨r', hr', by simp⟩⟩
  | @reopened r hr hopen =>
    by_cases hid : id = r.id
    · rw [hid, Table.get_update_self, hr] at hr'
      cases hr'
      exact ⟨rowSound_pendingAgain (hsound _ _ hr) hopen,
        .inr ⟨r, hid ▸ hr, by simp [pendingAgain]⟩⟩
    · rw [Table.get_update_of_ne _ _ _ hid] at hr'
      exact ⟨hsound id r' hr', .inr ⟨r', hr', by simp⟩⟩
  | @recorded r f hf hr hopen hrow hattempts =>
    by_cases hid : id = r.id
    · rw [hid, Table.get_update_self, hr] at hr'
      cases hr'
      exact ⟨hrow, .inr ⟨r, hid ▸ hr, by simp [hid, hattempts]⟩⟩
    · rw [Table.get_update_of_ne _ _ _ hid] at hr'
      exact ⟨hsound id r' hr', .inr ⟨r', hr', by simp [Ne.symm hid]⟩⟩

theorem isSome_get (h : Change t recorded t') {id : Uuid} (hid : (t.get id).isSome) :
    (t'.get id).isSome := by
  cases h with
  | same => exact hid
  | added job destination attempt h =>
    rw [Table.get_of_insert h]
    split
    · rfl
    · exact hid
  | reopened hr hopen => rwa [Table.isSome_get_update]
  | recorded hf hr hopen hrow hattempts => rwa [Table.isSome_get_update]

theorem terminal (h : Change t recorded t') {id : Uuid} {r : FederationDelivery}
    (hr : t.get id = some r) (hterminal : IsTerminal r) : t'.get id = some r := by
  have hne : ∀ {r₀ : FederationDelivery}, t.get r₀.id = some r₀ → ¬ IsTerminal r₀ → id ≠ r₀.id := by
    intro r₀ hr₀ hopen hid
    rw [hid, hr₀] at hr
    exact hopen (Option.some.inj hr ▸ hterminal)
  cases h with
  | same => exact hr
  | added job destination attempt h =>
    rw [Table.get_of_insert h, if_neg, hr]
    intro hid
    have hfree := Table.get_eq_none_of_insert h
    rw [hid, hr] at hfree
    cases hfree
  | reopened hr₀ hopen => rw [Table.get_update_of_ne _ _ _ (hne hr₀ hopen), hr]
  | recorded hf hr₀ hopen hrow hattempts =>
    rw [Table.get_update_of_ne _ _ _ (hne hr₀ hopen), hr]

end Change

/-! ## What a statement does -/

def Todo.ids : Todo → List Uuid
  | send _ _ => []
  | retry _ rest => rest.map FederationDelivery.id

namespace DeliveryPhase

/-- The deliveries that a handler has found. -/
def ids : DeliveryPhase → List Uuid
  | post _ _ _ deliveryId _ => [deliveryId]
  | succeed deliveryId _ todo | readFailed deliveryId _ _ _ todo => deliveryId :: todo.ids
  | fail delivery _ _ _ todo => delivery.id :: todo.ids
  | lookupKey _ d rest => d.id :: rest.map FederationDelivery.id
  | _ => []

def unrecorded : DeliveryPhase → Option Uuid
  | succeed deliveryId _ _ | readFailed deliveryId _ _ _ _ => some deliveryId
  | fail delivery _ _ _ _ => some delivery.id
  | _ => none

/-- The delivery for which a statement makes an attempt: a request is sent, or cannot be sent, or
the delivery is taken up by a retry. -/
def attempted : DeliveryPhase → Server → Option Uuid
  | post _ _ _ deliveryId _, _ => some deliveryId
  | readBack job destination attempt _, s =>
    match attempt.outcome with
    | .unsent _ _ => (deliveryOf job.activityId destination s.db).map FederationDelivery.id
    | _ => none
  | lookupKey _ d _, _ => some d.id
  | _, _ => none

/-- A statement that changes a delivery finds it open, and the failure of an attempt is recorded
with the attempts that the delivery has. -/
def Undisturbed (s : Server) : DeliveryPhase → Prop
  | upsert job destination _ _ => ∀ r ∈ deliveryOf job.activityId destination s.db, ¬ IsTerminal r
  | succeed deliveryId _ _ => ∀ r ∈ s.db.federationDeliveries.get deliveryId, ¬ IsTerminal r
  | fail delivery _ _ _ _ => ∀ r ∈ s.db.federationDeliveries.get delivery.id,
      ¬ IsTerminal r ∧ r.attempts = delivery.attempts
  | _ => True

instance (s : Server) (f : DeliveryPhase) : Decidable (f.Undisturbed s) := by
  unfold Undisturbed
  split <;> infer_instance

end DeliveryPhase

@[simp] theorem Todo.ids_phase (todo : Todo) : todo.phase.ids = todo.ids := by
  rcases todo with ⟨job, _ | ⟨first, rest⟩⟩ | ⟨call, _ | ⟨d, rest⟩⟩ <;> rfl

@[simp] theorem Todo.unrecorded_phase (todo : Todo) : todo.phase.unrecorded = none := by
  rcases todo with ⟨job, _ | ⟨first, rest⟩⟩ | ⟨call, _ | ⟨d, rest⟩⟩ <;> rfl

section
variable (env : OutboxEnv) (call : SendCall) (q : Query (String × FederationActorKey))
  (h : q.Keeps Db.federationDeliveries)

@[simp] theorem ids_prepared : (prepared env call q h).ids = [] := by
  rcases q with (e | x) | ⟨locks, write, answer, next⟩
  · rfl
  · exact Todo.ids_phase _
  · rfl

@[simp] theorem unrecorded_prepared : (prepared env call q h).unrecorded = none := by
  rcases q with (e | x) | ⟨locks, write, answer, next⟩
  · rfl
  · exact Todo.unrecorded_phase _
  · rfl

end

section
variable (deliveryId : Uuid) (attempt : Attempt) (todo : Todo)

@[simp] theorem ids_recording : (recording deliveryId attempt todo).ids = deliveryId :: todo.ids := by
  unfold recording
  cases attempt.outcome with
  | answered status =>
    dsimp only
    split <;> rfl
  | failed error text => rfl
  | unsent error text => rfl

@[simp] theorem unrecorded_recording :
    (recording deliveryId attempt todo).unrecorded = some deliveryId := by
  unfold recording
  cases attempt.outcome with
  | answered status =>
    dsimp only
    split <;> rfl
  | failed error text => rfl
  | unsent error text => rfl

end

theorem unrecorded_mem_ids {f : DeliveryPhase} {id : Uuid} (h : f.unrecorded = some id) :
    id ∈ f.ids := by
  cases f with
  | succeed deliveryId now todo =>
    cases h
    exact List.mem_cons_self
  | readFailed deliveryId message permanent now todo =>
    cases h
    exact List.mem_cons_self
  | fail delivery message permanent now todo =>
    cases h
    exact List.mem_cons_self
  | _ => cases h

theorem attempted_known {f : DeliveryPhase} {s : Server} {id : Uuid}
    (hknown : ∀ id ∈ f.ids, (s.db.federationDeliveries.get id).isSome)
    (h : id ∈ (f.attempted s).toList) : (s.db.federationDeliveries.get id).isSome := by
  cases f with
  | post job destination attempt deliveryId rest =>
    cases List.mem_singleton.mp h
    exact hknown id List.mem_cons_self
  | lookupKey call d rest =>
    cases List.mem_singleton.mp h
    exact hknown d.id List.mem_cons_self
  | readBack job destination attempt rest =>
    rw [DeliveryPhase.attempted] at h
    split at h
    · rw [Option.mem_toList, Option.map_eq_some_iff] at h
      obtain ⟨r, hr, rfl⟩ := h
      exact Table.isSome_get.mpr (List.mem_map_of_mem (List.mem_of_find?_eq_some hr))
    · cases h
  | _ => cases h

/-- A statement changes the deliveries in one of the four ways, and the attempts that it makes or
records are accounted for. -/
theorem next_change {env : OutboxEnv} {f f' : DeliveryPhase} {s s' : Server}
    (hmax : env.maxDeliveryAttempts ≤ i32Max)
    (hsound : ∀ id r, s.db.federationDeliveries.get id = some r → RowSound r)
    (hknown : ∀ id ∈ f.ids, (s.db.federationDeliveries.get id).isSome) (hf : f.Undisturbed s)
    (h : f.next env s = some (f', s')) :
    ∃ recorded, Change s.db.federationDeliveries recorded s'.db.federationDeliveries ∧
      f.unrecorded.toList ++ (f.attempted s).toList = recorded.toList ++ f'.unrecorded.toList ∧
      ∀ id ∈ f'.ids, id ∈ f.ids ∨ (s.db.federationDeliveries.get id).isSome := by
  cases f with
  | prepare call locks write answer next keeps =>
    cases h
    have hkeeps : (write s.db).federationDeliveries = s.db.federationDeliveries := keeps.1 s.db
    refine ⟨none, ?_, by rw [unrecorded_prepared]; rfl, by simp⟩
    rw [show (s.setDb (write s.db)).db = write s.db from rfl, hkeeps]
    exact .same
  | upsert job destination attempt rest =>
    rw [DeliveryPhase.next] at h
    rcases hadd : addDelivery (job.row destination attempt) s.db with e | ⟨⟨⟩, d⟩
    · rw [hadd] at h
      cases h
      exact ⟨none, .same, rfl, by simp [DeliveryPhase.ids]⟩
    · rw [hadd] at h
      cases h
      refine ⟨none, ?_, rfl, by simp [DeliveryPhase.ids]⟩
      unfold addDelivery at hadd
      split at hadd
      · rename_i r hr
        cases hadd
        exact .reopened (Table.get_eq_some.mpr ⟨List.mem_of_find?_eq_some hr, rfl⟩) (hf r hr)
      split at hadd
      · cases hadd
      rename_i t hinsert
      split at hadd <;> cases hadd
      exact .added job destination attempt hinsert
  | readBack job destination attempt rest =>
    rw [DeliveryPhase.next] at h
    rcases hfound : deliveryOf job.activityId destination s.db with _ | delivery
    · rw [hfound] at h
      cases h
      refine ⟨none, .same, ?_, by simp [DeliveryPhase.ids]⟩
      rw [DeliveryPhase.attempted, hfound]
      cases attempt.outcome <;> rfl
    · rw [hfound] at h
      cases h
      refine ⟨none, .same, ?_, fun id hid => .inr ?_⟩
      · rw [DeliveryPhase.attempted, hfound, posting]
        cases attempt.outcome with
        | unsent error text => rw [unrecorded_recording]; rfl
        | _ => rfl
      · have hdelivery : s.db.federationDeliveries.get delivery.id = some delivery :=
          Table.get_eq_some.mpr ⟨List.mem_of_find?_eq_some hfound, rfl⟩
        have hids : (posting job destination attempt delivery.id rest).ids = [delivery.id] := by
          unfold posting
          cases attempt.outcome with
          | unsent error text => exact ids_recording _ _ _
          | _ => rfl
        rw [hids, List.mem_singleton] at hid
        rw [hid, hdelivery]
        rfl
  | post job destination attempt deliveryId rest =>
    cases h
    refine ⟨none, .same, by rw [unrecorded_recording]; rfl, fun id hid => .inl ?_⟩
    rw [ids_recording] at hid
    exact hid
  | succeed deliveryId now todo =>
    obtain ⟨r, hr⟩ := Option.isSome_iff_exists.mp (hknown deliveryId List.mem_cons_self)
    have hid : r.id = deliveryId := Table.key_of_get hr
    subst hid
    have hopen : ¬ IsTerminal r := hf r hr
    have hroom := (hsound _ _ hr).attempts_lt hopen
    rw [DeliveryPhase.next, hr, if_pos (by simpa using hroom)] at h
    cases h
    refine ⟨some r.id, .recorded (delivered_id now) hr hopen (rowSound_delivered (hsound _ _ hr) now)
      rfl, by rw [Todo.unrecorded_phase]; rfl, fun id hid => .inl ?_⟩
    rw [Todo.ids_phase] at hid
    exact List.mem_cons_of_mem _ hid
  | readFailed deliveryId message permanent now todo =>
    obtain ⟨r, hr⟩ := Option.isSome_iff_exists.mp (hknown deliveryId List.mem_cons_self)
    have hid : r.id = deliveryId := Table.key_of_get hr
    subst hid
    rw [DeliveryPhase.next, hr] at h
    cases h
    exact ⟨none, .same, rfl, fun id hid => .inl hid⟩
  | fail delivery message permanent now todo =>
    obtain ⟨r, hr⟩ := Option.isSome_iff_exists.mp (hknown delivery.id List.mem_cons_self)
    have hid : r.id = delivery.id := Table.key_of_get hr
    obtain ⟨hopen, hread⟩ := hf r hr
    cases h
    have hlimit : limitOf env permanent ≤ i32Max := by
      unfold limitOf
      split
      · decide
      · exact hmax
    have hchange := Change.recorded
      (withFailure_id delivery message (limitOf env permanent) now) (hid ▸ hr) hopen
      (rowSound_withFailure (hsound _ _ hr) hopen hread message hlimit now)
      (attempts_withFailure (hsound _ _ hr) hopen hread message _ now)
    rw [hid] at hchange
    refine ⟨some delivery.id, hchange, by rw [Todo.unrecorded_phase]; rfl, fun id hid => .inl ?_⟩
    rw [Todo.ids_phase] at hid
    exact List.mem_cons_of_mem _ hid
  | loadDue call =>
    cases h
    refine ⟨none, .same, by rw [Todo.unrecorded_phase]; rfl, fun id hid => .inr ?_⟩
    rw [Todo.ids_phase, Todo.ids, List.mem_map] at hid
    obtain ⟨r, hr, rfl⟩ := hid
    exact Table.isSome_get.mpr (List.mem_map_of_mem (List.mem_of_mem_filter hr))
  | lookupKey call d rest =>
    cases h
    exact ⟨none, .same, rfl, fun id hid => .inl hid⟩
  | done result => cases h

/-! ## Runs -/

section
variable {ι : Type}

/-- Requests to a server, before their first statements. -/
def requested (env : OutboxEnv) (server : Server) (requests : ι → DeliveryRequest) :
    Sys ι Server DeliveryPhase :=
  ⟨server, fun i => (requests i).phase env⟩

def unrecordedBy (s : Sys ι Server DeliveryPhase) (id : Uuid) : Set ι :=
  {i | (s.rest i).unrecorded = some id}

/-- The deliveries in a state, after the attempts `made`. -/
structure DeliveriesSound (s : Sys ι Server DeliveryPhase) (made : List Uuid) : Prop where
  next_attempt_at : ∀ r ∈ s.db.db.federationDeliveries.rows,
    r.nextAttemptAt.isSome ↔ r.status = "failed"
  delivered_at : ∀ r ∈ s.db.db.federationDeliveries.rows,
    r.deliveredAt.isSome ↔ r.status = "delivered"
  attempts : ∀ r ∈ s.db.db.federationDeliveries.rows,
    r.attempts + (unrecordedBy s r.id).ncard = made.count r.id

/-- What every statement keeps. -/
structure Tracked (s : Sys ι Server DeliveryPhase) (made : List Uuid) : Prop where
  sound : ∀ id r, s.db.db.federationDeliveries.get id = some r → RowSound r
  known : ∀ i, ∀ id ∈ (s.rest i).ids, (s.db.db.federationDeliveries.get id).isSome
  made_known : ∀ id ∈ made, (s.db.db.federationDeliveries.get id).isSome
  finite : ∀ id, (unrecordedBy s id).Finite
  counted : ∀ id r, s.db.db.federationDeliveries.get id = some r →
    r.attempts + (unrecordedBy s id).ncard = made.count id

theorem Tracked.deliveriesSound {s : Sys ι Server DeliveryPhase} {made : List Uuid}
    (h : Tracked s made) : DeliveriesSound s made := by
  have hget : ∀ r ∈ s.db.db.federationDeliveries.rows,
      s.db.db.federationDeliveries.get r.id = some r := fun r hr => Table.get_eq_some.mpr ⟨hr, rfl⟩
  exact ⟨fun r hr => (h.sound r.id r (hget r hr)).next_attempt_at,
    fun r hr => (h.sound r.id r (hget r hr)).delivered_at, fun r hr => h.counted r.id r (hget r hr)⟩

theorem DeliveryRequest.ids_phase (env : OutboxEnv) (request : DeliveryRequest) :
    (request.phase env).ids = [] ∧ (request.phase env).unrecorded = none := by
  cases request with
  | retryDue call => exact ⟨rfl, rfl⟩
  | send call =>
    rw [phase]
    split
    · exact ⟨rfl, rfl⟩
    · exact ⟨ids_prepared _ _ _ _, unrecorded_prepared _ _ _ _⟩

theorem tracked_requested (env : OutboxEnv) {server : Server}
    (hstart : server.db.federationDeliveries.rows = []) (requests : ι → DeliveryRequest) :
    Tracked (requested env server requests) [] := by
  have hnone : ∀ id, server.db.federationDeliveries.get id = none := by
    intro id
    rw [Table.get_eq_none, hstart]
    exact List.not_mem_nil
  have hempty : ∀ id, unrecordedBy (requested env server requests) id = ∅ := by
    intro id
    ext i
    simp [unrecordedBy, requested, (DeliveryRequest.ids_phase env (requests i)).2]
  constructor
  · intro id r hr
    rw [requested, hnone] at hr
    cases hr
  · intro i id hid
    rw [requested, (DeliveryRequest.ids_phase env (requests i)).1] at hid
    cases hid
  · intro id hid
    cases hid
  · intro id
    rw [hempty]
    exact Set.finite_empty
  · intro id r hr
    rw [requested, hnone] at hr
    cases hr

variable {env : OutboxEnv} {s s' : Sys ι Server DeliveryPhase} {i : ι} {made : List Uuid}

theorem Tracked.not_made (h : Tracked s made) {id : Uuid}
    (hid : s.db.db.federationDeliveries.get id = none) :
    made.count id = 0 ∧ (unrecordedBy s id).ncard = 0 ∧
      ((s.rest i).attempted s.db).toList.count id = 0 ∧
        (s.rest i).unrecorded.toList.count id = 0 := by
  have habsent : (s.db.db.federationDeliveries.get id).isSome → False := by simp [hid]
  refine ⟨List.count_eq_zero.mpr fun hmade => habsent (h.made_known id hmade), ?_,
    List.count_eq_zero.mpr fun hatt => habsent (attempted_known (h.known i) hatt),
    List.count_eq_zero.mpr fun hunrecorded => habsent (h.known i id (unrecorded_mem_ids ?_))⟩
  · have hempty : unrecordedBy s id = ∅ := by
      ext j
      exact iff_of_false (fun hj => habsent (h.known j id (unrecorded_mem_ids hj))) (by simp)
    rw [hempty, Set.ncard_empty]
  · exact Option.mem_toList.mp hunrecorded

/-- A statement that is undisturbed keeps the invariant and the deliveries that are terminal. -/
theorem Tracked.step [DecidableEq ι] (hmax : env.maxDeliveryAttempts ≤ i32Max) (h : Tracked s made)
    (hi : (s.rest i).Undisturbed s.db)
    (hstep : Autocommit.step (DeliveryPhase.next env) s i = some s') :
    Tracked s' (made ++ ((s.rest i).attempted s.db).toList) ∧
      ∀ id r, s.db.db.federationDeliveries.get id = some r → IsTerminal r →
        s'.db.db.federationDeliveries.get id = some r := by
  obtain ⟨f', d, hnext, rfl⟩ := step_eq_some.mp hstep
  obtain ⟨recorded, hchange, hlist, hids⟩ := next_change hmax h.sound (h.known i) hi hnext
  have hupdate := fun id => ncard_update DeliveryPhase.unrecorded s.rest i f' id (h.finite id)
  refine ⟨⟨?_, ?_, ?_, fun id => (hupdate id).1, ?_⟩, fun id r hr => hchange.terminal hr⟩
  · intro id r' hr'
    exact (hchange.get_cases h.sound hr').1
  · intro j id hid
    apply hchange.isSome_get
    change id ∈ (Function.update s.rest i f' j).ids at hid
    by_cases hj : j = i
    · subst hj
      rw [Function.update_self] at hid
      exact (hids id hid).elim (h.known j id) (fun hfound => hfound)
    · rw [Function.update_of_ne hj] at hid
      exact h.known j id hid
  · intro id hid
    rw [List.mem_append] at hid
    exact hchange.isSome_get (hid.elim (h.made_known id) (attempted_known (h.known i)))
  · intro id r' hr'
    have hcard := (hupdate id).2
    have hcount : (s.rest i).unrecorded.toList.count id +
        ((s.rest i).attempted s.db).toList.count id =
          recorded.toList.count id + f'.unrecorded.toList.count id := by
      rw [← List.count_append, hlist, List.count_append]
    rw [List.count_append]
    obtain ⟨-, ⟨hnew, rfl, hzero⟩ | ⟨r, hr, hattempts⟩⟩ := hchange.get_cases h.sound hr'
    · obtain ⟨hmade, hnone, hattempted, hunrecorded⟩ := h.not_made (i := i) hnew
      simp only [unrecordedBy, Option.toList_none, List.count_nil] at *
      omega
    · have := h.counted id r hr
      simp only [unrecordedBy] at *
      omega

theorem Tracked.run [DecidableEq ι] (hmax : env.maxDeliveryAttempts ≤ i32Max) (h : Tracked s made)
    {is : List ι} (hc : Autocommit.Along (DeliveryPhase.next env)
      (fun (s : Sys ι Server DeliveryPhase) i => (s.rest i).Undisturbed s.db) s is)
    (hrun : Autocommit.run (DeliveryPhase.next env) s is = some s') :
    Tracked s' (made ++ trace (DeliveryPhase.next env) DeliveryPhase.attempted s is) ∧
      ∀ id r, s.db.db.federationDeliveries.get id = some r → IsTerminal r →
        s'.db.db.federationDeliveries.get id = some r := by
  let P (t : Sys ι Server DeliveryPhase) (l : List Uuid) : Prop :=
    Tracked t l ∧ ∀ id r, s.db.db.federationDeliveries.get id = some r → IsTerminal r →
      t.db.db.federationDeliveries.get id = some r
  have hstep : ∀ (t : Sys ι Server DeliveryPhase) i t' l, (t.rest i).Undisturbed t.db → P t l →
      Autocommit.step (DeliveryPhase.next env) t i = some t' →
      P t' (l ++ ((t.rest i).attempted t.db).toList) := by
    intro t i t' l hi ht hstep
    obtain ⟨hnext, hsame⟩ := ht.1.step hmax hi hstep
    exact ⟨hnext, fun id r hr hterminal => hsame id r (ht.2 id r hr hterminal) hterminal⟩
  exact run_induction hstep ⟨h, fun id r hr _ => hr⟩ hc hrun

/-- In every run whose statements are undisturbed the deliveries are sound, and what is delivered
or given up stays as it is. -/
theorem deliveries_sound [DecidableEq ι] (env : OutboxEnv)
    (hmax : env.maxDeliveryAttempts ≤ i32Max) (server : Server)
    (hstart : server.db.federationDeliveries.rows = []) (requests : ι → DeliveryRequest)
    (is js : List ι) (s s' : Sys ι Server DeliveryPhase)
    (hs : run (DeliveryPhase.next env) (requested env server requests) is = some s)
    (hs' : run (DeliveryPhase.next env) s js = some s')
    (hc : Autocommit.Along (DeliveryPhase.next env)
      (fun (s : Sys ι Server DeliveryPhase) i => (s.rest i).Undisturbed s.db)
      (requested env server requests) (is ++ js)) :
    DeliveriesSound s (trace (DeliveryPhase.next env) DeliveryPhase.attempted
      (requested env server requests) is) ∧
      ∀ r ∈ s.db.db.federationDeliveries.rows, IsTerminal r →
        r ∈ s'.db.db.federationDeliveries.rows := by
  obtain ⟨his, hjs⟩ := hc.of_append hs
  have hs := ((tracked_requested env hstart requests).run hmax his hs).1
  refine ⟨hs.deliveriesSound, fun r hr hterminal => ?_⟩
  have hr' := (hs.run hmax hjs hs').2 r.id r (Table.get_eq_some.mpr ⟨hr, rfl⟩) hterminal
  exact (Table.get_eq_some.mp hr').1

end

/-! ## Samples -/

def sampleOutbox : OutboxEnv where
  names := Accounts.sampleNames
  instanceDomain := "local.example"
  urlPath _ := .ok "/"
  withPath _ path := "https://remote.example" ++ path
  maxDeliveryAttempts := 8

def aliceKey : GeneratedKey := ⟨20, "public", "private"⟩

/-- Alice sends a text to two inboxes; the first takes it, the second fails. -/
def twoInboxes : SendCall where
  senderId := 1
  toInboxes := [("https://a.example/inbox", ⟨30, .answered 200, 0⟩),
    ("https://b.example/inbox", ⟨31, .answered 500, 0⟩)]
  content := "hello"
  new := ⟨aliceKey, 21, 22⟩

/-- Alice sends a text to one inbox twice, which takes it once and then fails. -/
def oneInboxTwice : SendCall where
  senderId := 1
  toInboxes := [("https://a.example/inbox", ⟨30, .answered 200, 0⟩),
    ("https://a.example/inbox", ⟨31, .answered 500, 0⟩)]
  content := "hello"
  new := ⟨aliceKey, 21, 22⟩

def aliceServer : Server := ⟨Auth.signedIn, none, [], [], []⟩

/-- The text is sent, and what has failed is retried a minute later. -/
def sendThenRetry (i : Bool) : DeliveryRequest :=
  if i then .send twoInboxes else .retryDue ⟨60000000, fun _ => 60000000⟩

/-- What was delivered stays so when the other delivery is retried. -/
theorem deliveries_sound_retried :
    trace (DeliveryPhase.next sampleOutbox) DeliveryPhase.attempted
        (requested sampleOutbox aliceServer sendThenRetry)
        (List.replicate 14 true ++ [false, false, false, false]) = [30, 31, 31] ∧
      DeliveriesSound ((run (DeliveryPhase.next sampleOutbox)
        (requested sampleOutbox aliceServer sendThenRetry)
        (List.replicate 14 true ++ [false, false, false, false])).get (by decide +kernel))
        (trace (DeliveryPhase.next sampleOutbox) DeliveryPhase.attempted
          (requested sampleOutbox aliceServer sendThenRetry)
          (List.replicate 14 true ++ [false, false, false, false])) :=
  ⟨by decide +kernel, (deliveries_sound sampleOutbox (by decide) aliceServer rfl sendThenRetry
    (List.replicate 14 true ++ [false, false, false, false]) [] _ _ (Option.some_get _).symm rfl
    (by decide +kernel)).1⟩

/-- The second request to an inbox makes its delivery fail that the first has delivered. -/
theorem delivered_delivery_fails :
    ∃ (s s' : Sys Unit Server DeliveryPhase) (r r' : FederationDelivery),
      run (DeliveryPhase.next sampleOutbox)
        (requested sampleOutbox aliceServer (fun _ => .send oneInboxTwice))
        (List.replicate 9 ()) = some s ∧
      run (DeliveryPhase.next sampleOutbox) s (List.replicate 5 ()) = some s' ∧
      s.db.db.federationDeliveries.get 30 = some r ∧ IsTerminal r ∧
      s'.db.db.federationDeliveries.get 30 = some r' ∧ ¬ IsTerminal r' ∧
      r'.status = "failed" ∧ r'.deliveredAt.isSome := by
  refine ⟨(run (DeliveryPhase.next sampleOutbox)
      (requested sampleOutbox aliceServer (fun _ => .send oneInboxTwice))
      (List.replicate 9 ())).get (by decide +kernel),
    ((run (DeliveryPhase.next sampleOutbox)
      (requested sampleOutbox aliceServer (fun _ => .send oneInboxTwice))
      (List.replicate 9 ())).bind (fun s => run (DeliveryPhase.next sampleOutbox) s
        (List.replicate 5 ()))).get (by decide +kernel), _, _, (Option.some_get _).symm, ?_,
    (Option.some_get (by decide +kernel)).symm, by decide +kernel,
    (Option.some_get (by decide +kernel)).symm, by decide +kernel, by decide +kernel,
    by decide +kernel⟩
  simp

end SyncServer.Federation
