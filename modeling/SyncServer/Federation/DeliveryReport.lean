import SyncServer.Federation.DeliveryStates

/-! # The report of deliveries

`send_to_remote` reports a status and a number of attempts for every inbox, and so does the table.
They are the same unless the failure that is reported was the last one allowed.
-/

namespace SyncServer.Federation
open Transaction

/-! ## The delivery of an activity to a destination -/

/-- The attempts that the table has for an activity and a destination. -/
def attemptsOf (activityId destination : String) (s : Db) : Int :=
  ((deliveryOf activityId destination s).map FederationDelivery.attempts).getD 0

section
variable {activityId destination other : String} {d d' : Db} {r : FederationDelivery}

theorem deliveryOf_keys (h : deliveryOf activityId destination d = some r) :
    r ∈ d.federationDeliveries.rows ∧ r.activityId = activityId ∧ r.destination = destination := by
  refine ⟨List.mem_of_find?_eq_some h, ?_⟩
  simpa using List.find?_some h

theorem deliveryOf_update (id : Uuid) {f : FederationDelivery → FederationDelivery}
    (hf : ∀ r, (f r).id = r.id) (hactivity : ∀ r, (f r).activityId = r.activityId)
    (hdestination : ∀ r, (f r).destination = r.destination) :
    deliveryOf activityId destination
        { d with federationDeliveries := d.federationDeliveries.update id f hf } =
      (deliveryOf activityId destination d).map (fun r => if r.id = id then f r else r) := by
  unfold deliveryOf
  change (d.federationDeliveries.rows.map _).find? _ = _
  rw [List.find?_map]
  congr 2
  funext r
  simp only [Function.comp_apply]
  split
  · rw [hactivity, hdestination]
  · rfl

theorem deliveryOf_update_of_ne (h : deliveryOf activityId destination d = some r)
    (hne : other ≠ destination) {f : FederationDelivery → FederationDelivery}
    (hf : ∀ r, (f r).id = r.id) (hactivity : ∀ r, (f r).activityId = r.activityId)
    (hdestination : ∀ r, (f r).destination = r.destination) :
    deliveryOf activityId other
        { d with federationDeliveries := d.federationDeliveries.update r.id f hf } =
      deliveryOf activityId other d := by
  rw [deliveryOf_update _ hf hactivity hdestination]
  rcases hother : deliveryOf activityId other d with _ | r'
  · rfl
  obtain ⟨hr, -, hto⟩ := deliveryOf_keys h
  obtain ⟨hr', -, hto'⟩ := deliveryOf_keys hother
  have hid : r'.id ≠ r.id := by
    intro hid
    have hget := Table.get_eq_some.mpr ⟨hr', hid⟩
    rw [Table.get_eq_some.mpr ⟨hr, rfl⟩] at hget
    cases hget
    exact hne (hto'.symm.trans hto)
  simp [hid]

theorem deliveryOf_insert {t : Table Uuid FederationDelivery FederationDelivery.id}
    (h : d.federationDeliveries.insert r = some t) :
    deliveryOf activityId destination { d with federationDeliveries := t } =
      (deliveryOf activityId destination d).or
        (if r.activityId = activityId ∧ r.destination = destination then some r else none) := by
  unfold deliveryOf
  change t.rows.find? _ = _
  rw [Table.rows_of_insert h, List.find?_append]
  congr 1
  by_cases hr : r.activityId = activityId ∧ r.destination = destination
  · rw [if_pos hr, List.find?_cons_of_pos (by simpa using hr)]
  · rw [if_neg hr, List.find?_cons_of_neg (by simpa using hr)]
    rfl

/-- A delivery that is made pending has the attempts that the table had for it. -/
theorem upsertDeliveryPending_ok {id : Uuid} {senderUsername : String}
    {delivery : FederationDelivery}
    (h : (upsertDeliveryPending id activityId senderUsername destination).run d =
      (.ok delivery, d')) :
    deliveryOf activityId destination d' = some delivery ∧
      delivery.attempts = attemptsOf activityId destination d ∧
      ∀ other ≠ destination, deliveryOf activityId other d' = deliveryOf activityId other d := by
  obtain ⟨⟨⟩, d₁, hadd, h⟩ := Tx.run_bind_eq_ok h
  obtain ⟨found, d₂, hfound, h⟩ := Tx.run_bind_eq_ok h
  cases hfound
  obtain ⟨hfound, rfl⟩ := Tx.run_okOr_ok.mp h
  refine ⟨hfound, ?_⟩
  have hadd := Query.run_exec_ok.mp hadd
  unfold addDelivery at hadd
  unfold attemptsOf
  rcases hold : deliveryOf activityId destination d with _ | r
  · simp only [hold] at hadd
    split at hadd
    · cases hadd
    rename_i t ht
    split at hadd <;> cases hadd
    rw [deliveryOf_insert ht, hold] at hfound
    constructor
    · simp only [and_self, if_true, Option.none_or, Option.some.injEq] at hfound
      rw [← hfound]
      rfl
    · intro other hne
      rw [deliveryOf_insert ht, if_neg (fun h => hne h.2.symm), Option.or_none]
  · simp only [hold] at hadd
    cases hadd
    rw [deliveryOf_update _ pendingAgain_id (fun _ => rfl) (fun _ => rfl), hold] at hfound
    constructor
    · simp only [Option.map_some, if_true, Option.some.injEq] at hfound
      rw [← hfound]
      rfl
    · intro other hne
      exact deliveryOf_update_of_ne hold hne pendingAgain_id (fun _ => rfl) (fun _ => rfl)

end

/-! ## The outcome of a request in the table -/

def recordedStatus (env : OutboxEnv) (attempts : Int) : PostOutcome → String
  | .answered status =>
    if isSuccess status then "delivered"
    else if attemptLimit env status ≤ i32 (attempts + 1) then "dead_letter" else "failed"
  | .failed _ _ | .unsent _ _ =>
    if env.maxDeliveryAttempts ≤ i32 (attempts + 1) then "dead_letter" else "failed"

structure RecordedAs (env : OutboxEnv) (attempts : Int) (outcome : PostOutcome)
    (row : FederationDelivery) : Prop where
  status : row.status = recordedStatus env attempts outcome
  attempts : row.attempts = i32 (attempts + 1)

section
variable {env : OutboxEnv} {activityId destination : String} {d d' : Db} {r : FederationDelivery}

theorem markDeliveryFailure_ok {errorMessage : String} {maxAttempts now : Int}
    (hr : d.federationDeliveries.get r.id = some r)
    (h : (markDeliveryFailure r.id errorMessage maxAttempts now).run d = (.ok (), d')) :
    d' = { d with
      federationDeliveries := d.federationDeliveries.update r.id
        (withFailure r errorMessage maxAttempts now)
        (withFailure_id r errorMessage maxAttempts now) } := by
  rw [markDeliveryFailure, Tx.run_bind_ok (Tx.run_query _ _), hr] at h
  cases Query.run_exec_ok.mp h
  rfl

theorem recordOutcome_ok {attempt : Attempt} (hr : deliveryOf activityId destination d = some r)
    (hi32 : IsI32 r.attempts) (h : (recordOutcome env r.id attempt).run d = (.ok (), d')) :
    (∃ row, deliveryOf activityId destination d' = some row ∧
      RecordedAs env r.attempts attempt.outcome row) ∧
      ∀ other ≠ destination, deliveryOf activityId other d' = deliveryOf activityId other d := by
  have hget : d.federationDeliveries.get r.id = some r :=
    Table.get_eq_some.mpr ⟨(deliveryOf_keys hr).1, rfl⟩
  -- every outcome is recorded by an update of the one row
  have hupdate : ∀ {f : FederationDelivery → FederationDelivery} {hf : ∀ r, (f r).id = r.id},
      d' = { d with federationDeliveries := d.federationDeliveries.update r.id f hf } →
      (∀ r, (f r).activityId = r.activityId) → (∀ r, (f r).destination = r.destination) →
      RecordedAs env r.attempts attempt.outcome (f r) →
      (∃ row, deliveryOf activityId destination d' = some row ∧
        RecordedAs env r.attempts attempt.outcome row) ∧
        ∀ other ≠ destination, deliveryOf activityId other d' = deliveryOf activityId other d := by
    intro f hf hd hactivity hdestination hrow
    subst hd
    constructor
    · refine ⟨f r, ?_, hrow⟩
      rw [deliveryOf_update _ hf hactivity hdestination, hr]
      simp
    · exact fun other hne => deliveryOf_update_of_ne hr hne hf hactivity hdestination
  unfold recordOutcome at h
  rcases ho : attempt.outcome with status | ⟨error, text⟩ | ⟨error, text⟩
  · simp only [ho] at h hupdate
    by_cases hsuccess : isSuccess status
    · rw [if_pos hsuccess] at h
      have h := Query.run_exec_ok.mp h
      split at h
      · rename_i hlt
        rw [hget, Option.all_some, decide_eq_true_eq] at hlt
        cases h
        refine hupdate rfl (fun _ => rfl) (fun _ => rfl) ⟨?_, ?_⟩
        · simp [delivered, recordedStatus, hsuccess]
        · have hnext : i32 (r.attempts + 1) = r.attempts + 1 := by
            have := hi32.1
            exact i32_of_range (by omega) (by omega)
          rw [hnext]
          rfl
      · cases h
    · rw [if_neg hsuccess] at h
      refine hupdate (markDeliveryFailure_ok hget h) (fun _ => rfl) (fun _ => rfl) ⟨?_, rfl⟩
      simp [withFailure, recordedStatus, hsuccess]
  · simp only [ho] at h hupdate
    exact hupdate (markDeliveryFailure_ok hget h) (fun _ => rfl) (fun _ => rfl) ⟨rfl, rfl⟩
  · simp only [ho] at h hupdate
    exact hupdate (markDeliveryFailure_ok hget h) (fun _ => rfl) (fun _ => rfl) ⟨rfl, rfl⟩

end

section
variable {env : OutboxEnv} {key : FederationActorKey} {activityId senderUsername : String}
  {payload : Json} {s s' : Server}

theorem deliver_ok {destination : String} {attempt : Attempt} {delivery : FederationDelivery}
    (hi32 : IsI32 (attemptsOf activityId destination s.db))
    (h : (deliver env key activityId senderUsername payload destination attempt).run s =
      (.ok delivery, s')) :
    delivery.attempts = attemptsOf activityId destination s.db ∧
      (∃ row, deliveryOf activityId destination s'.db = some row ∧
        RecordedAs env delivery.attempts attempt.outcome row) ∧
      ∀ other ≠ destination,
        deliveryOf activityId other s'.db = deliveryOf activityId other s.db := by
  obtain ⟨delivery, s₁, hupsert, h⟩ := Tx.run_bind_eq_ok h
  obtain ⟨outcome, s₂, hpost, h⟩ := Tx.run_bind_eq_ok h
  obtain ⟨⟨⟩, s₃, hmark, h⟩ := Tx.run_bind_eq_ok h
  cases h
  obtain ⟨d₁, hpending, rfl⟩ := run_onDb_eq_iff.mp hupsert
  obtain ⟨d₃, hrecord, rfl⟩ := run_onDb_eq_iff.mp hmark
  obtain ⟨hfound, hattempts, hpendingOther⟩ := upsertDeliveryPending_ok hpending
  -- the request itself does not touch the table
  obtain ⟨rfl, rfl⟩ : outcome = attempt.outcome ∧ s₂.db = d₁ := by
    unfold postActivitySigned at hpost
    split at hpost
    · rename_i ho
      cases hpost
      exact ⟨ho.symm, rfl⟩
    · obtain ⟨⟨⟩, s₃, hsend, hpost⟩ := Tx.run_bind_eq_ok hpost
      cases hsend
      cases hpost
      exact ⟨rfl, rfl⟩
  obtain ⟨hrow, hrecordOther⟩ := recordOutcome_ok hfound (hattempts ▸ hi32) hrecord
  exact ⟨hattempts, hrow, fun other hne => (hrecordOther other hne).trans (hpendingOther other hne)⟩

/-- What a list of inboxes has in the table is what an `i32` holds. -/
def AttemptsI32 (activityId : String) (inboxes : List (String × Attempt)) (d : Db) : Prop :=
  ∀ inbox ∈ inboxes, IsI32 (attemptsOf activityId inbox.1 d)

theorem attemptsI32_congr {inboxes : List (String × Attempt)} {d d' : Db}
    (h : ∀ inbox ∈ inboxes, deliveryOf activityId inbox.1 d' = deliveryOf activityId inbox.1 d)
    (hd : AttemptsI32 activityId inboxes d) : AttemptsI32 activityId inboxes d' := by
  intro inbox hinbox
  rw [attemptsOf, h inbox hinbox]
  exact hd inbox hinbox

theorem deliverAll_cons {destination : String} {attempt : Attempt}
    {rest : List (String × Attempt)} {results : List DeliveryResult}
    (h : (deliverAll env key activityId senderUsername payload ((destination, attempt) :: rest)).run
      s = (.ok results, s')) :
    ∃ delivery s₁ results', (deliver env key activityId senderUsername payload destination
        attempt).run s = (.ok delivery, s₁) ∧
      (deliverAll env key activityId senderUsername payload rest).run s₁ = (.ok results', s') ∧
      results = deliveryResult destination delivery attempt.outcome :: results' := by
  obtain ⟨delivery, s₁, hdeliver, h⟩ := Tx.run_bind_eq_ok h
  obtain ⟨results', s₂, hrest, h⟩ := Tx.run_bind_eq_ok h
  cases h
  exact ⟨delivery, s₁, results', hdeliver, hrest, rfl⟩

theorem deliver_rest {destination : String} {attempt : Attempt} {rest : List (String × Attempt)}
    (hnodup : (((destination, attempt) :: rest).map Prod.fst).Nodup)
    {d d' : Db} (h : ∀ other ≠ destination,
      deliveryOf activityId other d' = deliveryOf activityId other d) :
    ∀ inbox ∈ rest, deliveryOf activityId inbox.1 d' = deliveryOf activityId inbox.1 d := by
  intro inbox hinbox
  apply h
  rintro rfl
  exact (List.nodup_cons.mp hnodup).1 (List.mem_map.mpr ⟨inbox, hinbox, rfl⟩)

theorem deliverAll_other {inboxes : List (String × Attempt)} {results : List DeliveryResult}
    {other : String} (hother : other ∉ inboxes.map Prod.fst)
    (hi32 : AttemptsI32 activityId inboxes s.db) (hnodup : (inboxes.map Prod.fst).Nodup)
    (h : (deliverAll env key activityId senderUsername payload inboxes).run s =
      (.ok results, s')) :
    deliveryOf activityId other s'.db = deliveryOf activityId other s.db := by
  induction inboxes generalizing s results with
  | nil =>
    cases h
    rfl
  | cons inbox rest ih =>
    obtain ⟨destination, attempt⟩ := inbox
    obtain ⟨delivery, s₁, results', hdeliver, hrest, -⟩ := deliverAll_cons h
    obtain ⟨-, -, hothers⟩ := deliver_ok (hi32 _ List.mem_cons_self) hdeliver
    obtain ⟨hne, hother⟩ := not_or.mp (fun hmem => hother (List.mem_cons.mpr hmem))
    have hrestI32 := attemptsI32_congr (deliver_rest hnodup hothers)
      (fun inbox hinbox => hi32 inbox (List.mem_cons_of_mem _ hinbox))
    rw [ih hother hrestI32 (List.nodup_cons.mp hnodup).2 hrest, hothers other hne]

end

/-! ## The report and the table -/

/-- A report that says what the table says. -/
def Truthful (activityId : String) (d : Db) (result : DeliveryResult) : Prop :=
  ∃ row, deliveryOf activityId result.destination d = some row ∧
    row.status = result.status ∧ row.attempts = result.attempts

def PostOutcome.Transient : PostOutcome → Prop
  | answered status => isSuccess status = false ∧ permanentFailureReason status = none
  | failed _ _ | unsent _ _ => True

def PostOutcome.Permanent : PostOutcome → Prop
  | answered status => (permanentFailureReason status).isSome
  | failed _ _ | unsent _ _ => False

instance (outcome : PostOutcome) : Decidable outcome.Transient :=
  match outcome with
  | .answered status => inferInstanceAs (Decidable (isSuccess status = false ∧
      permanentFailureReason status = none))
  | .failed _ _ | .unsent _ _ => .isTrue trivial

instance (outcome : PostOutcome) : Decidable outcome.Permanent :=
  match outcome with
  | .answered status => inferInstanceAs (Decidable ((permanentFailureReason status).isSome = true))
  | .failed _ _ | .unsent _ _ => .isFalse id

/-- The attempts that a delivery has had leave a further one if the outcome may be tried again. -/
structure AttemptsLeft (env : OutboxEnv) (attempts : Int) (outcome : PostOutcome) : Prop where
  transient : outcome.Transient → i32 (attempts + 1) < env.maxDeliveryAttempts
  permanent : outcome.Permanent → 1 ≤ i32 (attempts + 1)

instance (env : OutboxEnv) (attempts : Int) (outcome : PostOutcome) :
    Decidable (AttemptsLeft env attempts outcome) :=
  decidable_of_iff ((outcome.Transient → i32 (attempts + 1) < env.maxDeliveryAttempts) ∧
      (outcome.Permanent → 1 ≤ i32 (attempts + 1)))
    ⟨fun h => ⟨h.1, h.2⟩, fun h => ⟨h.transient, h.permanent⟩⟩

theorem not_success_of_permanent {status : Nat} (h : (permanentFailureReason status).isSome) :
    isSuccess status = false := by
  unfold permanentFailureReason at h
  split at h
  · rename_i hrange
    simp only [isSuccess, Bool.and_eq_false_iff, decide_eq_false_iff_not]
    omega
  · cases h

def reportedStatus : PostOutcome → String
  | .answered status =>
    if isSuccess status then "delivered"
    else if (permanentFailureReason status).isSome then "dead_letter" else "failed"
  | .failed _ _ | .unsent _ _ => "failed"

theorem deliveryResult_eq (destination : String) (delivery : FederationDelivery)
    (outcome : PostOutcome) : ∃ detail, deliveryResult destination delivery outcome =
      ⟨destination, reportedStatus outcome, i32 (delivery.attempts + 1), detail⟩ := by
  rcases outcome with status | ⟨error, text⟩ | ⟨error, text⟩
  · by_cases hsuccess : isSuccess status <;> simp [deliveryResult, reportedStatus, hsuccess]
  · exact ⟨_, rfl⟩
  · exact ⟨_, rfl⟩

theorem last_eq_failed_iff {maxAttempts attempts : Int} :
    (if maxAttempts ≤ attempts then "dead_letter" else "failed") = "failed" ↔
      attempts < maxAttempts := by
  split <;> simp_all

theorem last_eq_dead_letter_iff {maxAttempts attempts : Int} :
    (if maxAttempts ≤ attempts then "dead_letter" else "failed") = "dead_letter" ↔
      maxAttempts ≤ attempts := by
  split <;> simp_all

theorem recordedStatus_eq_iff {env : OutboxEnv} {attempts : Int} {outcome : PostOutcome} :
    recordedStatus env attempts outcome = reportedStatus outcome ↔
      AttemptsLeft env attempts outcome := by
  have htransport : (if env.maxDeliveryAttempts ≤ i32 (attempts + 1) then "dead_letter"
      else "failed") = "failed" ↔ i32 (attempts + 1) < env.maxDeliveryAttempts :=
    last_eq_failed_iff
  rcases outcome with status | ⟨error, text⟩ | ⟨error, text⟩
  · by_cases hpermanent : (permanentFailureReason status).isSome
    · have hsuccess := not_success_of_permanent hpermanent
      have hnot : permanentFailureReason status ≠ none := Option.isSome_iff_ne_none.mp hpermanent
      simp only [recordedStatus, reportedStatus, hsuccess, Bool.false_eq_true, if_false, attemptLimit,
        hpermanent, if_true, last_eq_dead_letter_iff]
      exact ⟨fun h => ⟨fun ht => absurd ht.2 hnot, fun _ => h⟩, fun h => h.permanent hpermanent⟩
    · have hnone : permanentFailureReason status = none := Option.not_isSome_iff_eq_none.mp hpermanent
      by_cases hsuccess : isSuccess status
      · simp only [recordedStatus, reportedStatus, hsuccess, if_true, true_iff]
        exact ⟨fun ht => absurd ht.1 (by simp [hsuccess]), fun hp => absurd hp hpermanent⟩
      · have hfailure : isSuccess status = false := Bool.eq_false_iff.mpr hsuccess
        simp only [recordedStatus, reportedStatus, hfailure, Bool.false_eq_true, if_false, attemptLimit,
          hpermanent, last_eq_failed_iff]
        exact ⟨fun h => ⟨fun _ => h, fun hp => absurd hp hpermanent⟩,
          fun h => h.transient ⟨hfailure, hnone⟩⟩
  · exact htransport.trans ⟨fun h => ⟨fun _ => h, False.elim⟩, fun h => h.transient trivial⟩
  · exact htransport.trans ⟨fun h => ⟨fun _ => h, False.elim⟩, fun h => h.transient trivial⟩

theorem truthful_deliveryResult_iff {env : OutboxEnv} {activityId destination : String} {d : Db}
    {delivery row : FederationDelivery} {outcome : PostOutcome}
    (hrow : deliveryOf activityId destination d = some row)
    (hrecorded : RecordedAs env delivery.attempts outcome row) :
    Truthful activityId d (deliveryResult destination delivery outcome) ↔
      AttemptsLeft env delivery.attempts outcome := by
  obtain ⟨detail, hresult⟩ := deliveryResult_eq destination delivery outcome
  rw [hresult, Truthful, ← recordedStatus_eq_iff, ← hrecorded.status]
  simp [hrow, hrecorded.attempts]

section
variable {env : OutboxEnv} {s s' : Server}

theorem truthful_deliverAll_iff {key : FederationActorKey} {activityId senderUsername : String}
    {payload : Json} {inboxes : List (String × Attempt)} {results : List DeliveryResult}
    (hi32 : AttemptsI32 activityId inboxes s.db) (hnodup : (inboxes.map Prod.fst).Nodup)
    (h : (deliverAll env key activityId senderUsername payload inboxes).run s =
      (.ok results, s')) :
    (∀ result ∈ results, Truthful activityId s'.db result) ↔
      ∀ inbox ∈ inboxes, AttemptsLeft env (attemptsOf activityId inbox.1 s.db) inbox.2.outcome := by
  induction inboxes generalizing s results with
  | nil =>
    cases h
    simp
  | cons inbox rest ih =>
    obtain ⟨destination, attempt⟩ := inbox
    obtain ⟨delivery, s₁, results', hdeliver, hrest, rfl⟩ := deliverAll_cons h
    obtain ⟨hattempts, ⟨row, hrow, hrecorded⟩, hothers⟩ :=
      deliver_ok (hi32 _ List.mem_cons_self) hdeliver
    have hsame := deliver_rest hnodup hothers
    have hrestI32 := attemptsI32_congr hsame
      (fun inbox hinbox => hi32 inbox (List.mem_cons_of_mem _ hinbox))
    obtain ⟨hnot, hnodup⟩ := List.nodup_cons.mp hnodup
    -- the rest of the loop leaves the row of this inbox as it is
    rw [← deliverAll_other hnot hrestI32 hnodup hrest] at hrow
    have hfirst := truthful_deliveryResult_iff hrow hrecorded
    rw [hattempts] at hfirst
    rw [List.forall_mem_cons, List.forall_mem_cons, hfirst, ih hrestI32 hnodup hrest]
    refine and_congr_right (fun _ => forall₂_congr (fun inbox hinbox => ?_))
    rw [attemptsOf, attemptsOf, hsame inbox hinbox]

theorem attemptsI32_of_rows {d : Db} (h : ∀ r ∈ d.federationDeliveries.rows, IsI32 r.attempts)
    (activityId : String) (inboxes : List (String × Attempt)) :
    AttemptsI32 activityId inboxes d := by
  intro inbox _
  unfold attemptsOf
  rcases hfound : deliveryOf activityId inbox.1 d with _ | r
  · exact ⟨by decide, by decide⟩
  · exact h r (deliveryOf_keys hfound).1

/-- The report of a request says what the table says if and only if every failure leaves attempts
or is permanent. -/
theorem sendToRemote_report_iff {call : SendCall} {activityId : String}
    {results : List DeliveryResult} (hnodup : (call.toInboxes.map Prod.fst).Nodup)
    (hi32 : ∀ r ∈ s.db.federationDeliveries.rows, IsI32 r.attempts)
    (h : (sendToRemote env call).run s = (.ok (activityId, results), s')) :
    (∀ result ∈ results, Truthful activityId s'.db result) ↔
      ∀ inbox ∈ call.toInboxes,
        AttemptsLeft env (attemptsOf activityId inbox.1 s.db) inbox.2.outcome := by
  obtain ⟨⟨⟩, s₁, hinboxes, h⟩ := Tx.run_bind_eq_ok h
  obtain ⟨-, rfl⟩ := Prod.mk.inj hinboxes
  obtain ⟨⟨⟩, s₁, hcontent, h⟩ := Tx.run_bind_eq_ok h
  obtain ⟨-, rfl⟩ := Prod.mk.inj hcontent
  obtain ⟨senderUsername, s₁, hname, h⟩ := Tx.run_bind_eq_ok h
  obtain ⟨key, s₂, hkey, h⟩ := Tx.run_bind_eq_ok h
  obtain ⟨results, s₃, hresults, h⟩ := Tx.run_bind_eq_ok h
  cases h
  -- the table is read and written by the loop only
  have hsame : s₂.db.federationDeliveries = s.db.federationDeliveries :=
    ((keeps_onDb (keeps_ensureActorKeyMaterial (fun _ _ => rfl) _ _ _)).of_run hkey).trans
      ((keeps_onDb (keeps_usernameById _)).of_run hname)
  rw [← hsame] at hi32
  rw [truthful_deliverAll_iff (attemptsI32_of_rows hi32 _ _) hnodup hresults]
  unfold attemptsOf deliveryOf
  rw [hsame]

end

/-! ## Samples -/

/-- A server that tries every delivery once. -/
def oneAttempt : OutboxEnv := { sampleOutbox with maxDeliveryAttempts := 1 }

/-- The id of the activity that Alice sends. -/
def aliceActivity : String :=
  "https://local.example/users/alice/activities/" ++ uuidString 21

/-- The failure of a delivery that will be tried again is reported as the table has it. -/
theorem report_twoInboxes :
    Truthful aliceActivity ((sendToRemote sampleOutbox twoInboxes).run aliceServer).2.db
        ⟨"https://a.example/inbox", "delivered", 1, none⟩ ∧
      Truthful aliceActivity ((sendToRemote sampleOutbox twoInboxes).run aliceServer).2.db
        ⟨"https://b.example/inbox", "failed", 1, some "remote status 500"⟩ := by
  have hrun : ((sendToRemote sampleOutbox twoInboxes).run aliceServer).1 = .ok (aliceActivity,
      [⟨"https://a.example/inbox", "delivered", 1, none⟩,
        ⟨"https://b.example/inbox", "failed", 1, some "remote status 500"⟩]) := by
    decide +kernel
  have hnodup : (twoInboxes.toInboxes.map Prod.fst).Nodup := by decide
  have hreport := (sendToRemote_report_iff hnodup (by decide) (Prod.ext hrun rfl)).mpr
    (by decide +kernel)
  exact ⟨hreport _ (by simp), hreport _ (by simp)⟩

/-- The failure of a delivery that was tried for the last time is reported as another one. -/
theorem report_dead_letter : ∃ row,
    ((sendToRemote oneAttempt twoInboxes).run aliceServer).1 =
        .ok (aliceActivity, [⟨"https://a.example/inbox", "delivered", 1, none⟩,
          ⟨"https://b.example/inbox", "failed", 1, some "remote status 500"⟩]) ∧
      deliveryOf aliceActivity "https://b.example/inbox"
        ((sendToRemote oneAttempt twoInboxes).run aliceServer).2.db = some row ∧
      row.status = "dead_letter" ∧ row.attempts = 1 :=
  ⟨_, by decide +kernel, (Option.some_get (by decide +kernel)).symm, by decide +kernel,
    by decide +kernel⟩

end SyncServer.Federation
