import SyncServer.Notifications.Kinds

/-! # Every device once

The loop over the tokens keeps the rejections, and is left at the first request that fails. All
that the caller learns is whether there was an error, and with one the hybrid mode gives the whole
list to the relay.
-/

namespace SyncServer.Notifications
open Transaction

namespace ApnsReply

/-- The push service takes the notification. -/
def accepted : ApnsReply → Bool
  | .answered status _ => isSuccess status
  | .failed _ _ => false

def lost : ApnsReply → Bool
  | .answered _ _ => false
  | .failed _ _ => true

theorem not_lost_of_accepted {reply : ApnsReply} (h : reply.accepted = true) :
    reply.lost = false := by
  rcases reply with _ | _
  · rfl
  · cases h

end ApnsReply

def Network.byToken (outcome : String → ApnsReply)
    (relay : List WebhookPost → WebhookPost → ApnsReply) : Network :=
  ⟨fun _ push => outcome push.token, relay⟩

/-- Every token for a phone is handed to the push service or to the relay, and none again that the
push service took. The relay is asked last. -/
structure NotifiedOnce (outcome : String → ApnsReply) (tokens : List DevicePushToken)
    (pushes : List ApnsPush) (posts : List WebhookPost) : Prop where
  reached : ∀ r ∈ tokens, r.platform = "ios" ∨ r.platform = "android" →
    (∃ p ∈ pushes, p.token = r.token) ∨
      ∃ post ∈ posts, ∃ t ∈ post.payload.targets, t.token = r.token
  once : pushes.Pairwise fun p p' => (outcome p.token).accepted = true → p'.token ≠ p.token
  final : ∀ p ∈ pushes, (outcome p.token).accepted = true →
    ∀ post ∈ posts, ∀ t ∈ post.payload.targets, t.token ≠ p.token

/-- What the mode asks of the answers to the iOS tokens, in the order of the list. -/
def ServedOnce (outcome : String → ApnsReply) (mode : PushDeliveryMode) (usable : Bool)
    (tokens : List String) : Prop :=
  match mode with
  | .relay => True
  | .direct => (usable = true ∨ tokens = []) ∧ ∀ t ∈ tokens.dropLast, (outcome t).lost = false
  | .hybrid => usable = true → (∀ t ∈ tokens, (outcome t).accepted = true) ∨
      ∀ front t rest, tokens = front ++ t :: rest → (outcome t).accepted = true →
        ∃ x ∈ front, (outcome x).lost = true

/-- The tokens for Apple's service among the rows. -/
def iosTokens (tokens : List DevicePushToken) : List String :=
  (tokens.filter (fun r => isIos r.platform)).map DevicePushToken.token

/-! ## The loop -/

/-- The tokens that the loop reaches. -/
def attempted (outcome : String → ApnsReply) : List String → List String
  | [] => []
  | t :: tokens => if (outcome t).lost then [t] else t :: attempted outcome tokens

section
variable (outcome : String → ApnsReply)

theorem attempted_sublist (tokens : List String) : (attempted outcome tokens).Sublist tokens := by
  induction tokens with
  | nil => simp [attempted]
  | cons t tokens ih => by_cases h : (outcome t).lost <;> simp [attempted, h, ih]

variable {outcome}

theorem mem_attempted {tokens : List String} {t : String} :
    t ∈ attempted outcome tokens ↔ ∃ front rest, tokens = front ++ t :: rest ∧
      ∀ x ∈ front, (outcome x).lost = false := by
  induction tokens with
  | nil => simp [attempted]
  | cons u tokens ih =>
    constructor
    · intro ht
      by_cases hlost : (outcome u).lost = true
      · obtain rfl : t = u := by simpa [attempted, hlost] using ht
        exact ⟨[], tokens, rfl, by simp⟩
      · simp only [attempted, hlost, Bool.false_eq_true, if_false, List.mem_cons] at ht
        rcases ht with rfl | ht
        · exact ⟨[], tokens, rfl, by simp⟩
        · obtain ⟨front, rest, rfl, hfront⟩ := ih.mp ht
          exact ⟨u :: front, rest, rfl, by simpa [hlost] using hfront⟩
    · rintro ⟨front, rest, heq, hfront⟩
      rcases front with _ | ⟨x, front⟩
      · obtain ⟨rfl, -⟩ := List.cons.inj heq
        by_cases hlost : (outcome u).lost = true <;> simp [attempted, hlost]
      · obtain ⟨rfl, rfl⟩ := List.cons.inj heq
        have hlost : (outcome u).lost = false := hfront u List.mem_cons_self
        simp only [attempted, hlost, Bool.false_eq_true, if_false]
        exact List.mem_cons_of_mem _
          (ih.mpr ⟨front, rest, rfl, fun x hx => hfront x (List.mem_cons_of_mem _ hx)⟩)

theorem forall_mem_attempted {tokens : List String} (h : tokens.Nodup) :
    (∀ t ∈ tokens, t ∈ attempted outcome tokens) ↔
      ∀ t ∈ tokens.dropLast, (outcome t).lost = false := by
  induction tokens with
  | nil => simp
  | cons t tokens ih =>
    obtain ⟨hfresh, h⟩ := List.nodup_cons.mp h
    rcases tokens with _ | ⟨u, tokens⟩
    · by_cases hlost : (outcome t).lost = true <;> simp [attempted, hlost]
    rw [List.dropLast_cons_cons, List.forall_mem_cons]
    by_cases hlost : (outcome t).lost = true
    · have hne : u ≠ t := fun heq => hfresh (heq ▸ List.mem_cons_self)
      simp [attempted, hlost, hne]
    · have hother : ∀ x ∈ u :: tokens, x ∈ t :: attempted outcome (u :: tokens) ↔
          x ∈ attempted outcome (u :: tokens) := by
        intro x hx
        have hne : x ≠ t := fun heq => hfresh (heq ▸ hx)
        simp [hne]
      rw [attempted, if_neg hlost, List.forall_mem_cons (l := (u :: tokens).dropLast), ← ih h]
      simp only [List.mem_cons_self, true_and, eq_false_of_ne_true hlost]
      exact forall₂_congr hother

theorem mem_attempted_of_accepted {tokens : List String}
    (h : ∀ t ∈ tokens, (outcome t).accepted = true) :
    ∀ t ∈ tokens, t ∈ attempted outcome tokens := by
  intro t ht
  obtain ⟨front, rest, rfl⟩ := List.append_of_mem ht
  exact mem_attempted.mpr ⟨front, rest, rfl, fun x hx =>
    ApnsReply.not_lost_of_accepted (h x (List.mem_append_left _ hx))⟩

theorem attempted_not_accepted {tokens : List String} :
    (∀ t ∈ attempted outcome tokens, ¬ (outcome t).accepted = true) ↔
      ∀ front t rest, tokens = front ++ t :: rest → (outcome t).accepted = true →
        ∃ x ∈ front, (outcome x).lost = true := by
  constructor
  · intro h front t rest heq hacc
    by_contra hnone
    refine h t (mem_attempted.mpr ⟨front, rest, heq, fun x hx => ?_⟩) hacc
    exact eq_false_of_ne_true (fun hlost => hnone ⟨x, hx, hlost⟩)
  · intro h t ht hacc
    obtain ⟨front, rest, heq, hfront⟩ := mem_attempted.mp ht
    obtain ⟨x, hx, hlost⟩ := h front t rest heq hacc
    rw [hfront x hx] at hlost
    cases hlost

end

section
variable (env : PushEnv) (outcome : String → ApnsReply)
  (relay : List WebhookPost → WebhookPost → ApnsReply)

theorem run_sendEach_byToken (texts : SendTexts) {push : String → ApnsPush}
    (hpush : ∀ t, (push t).token = t) (tokens failures : List String) (s : PushServer) :
    ∃ r, (sendEach env (.byToken outcome relay) texts push tokens failures).run s =
        (r, s.after ((attempted outcome tokens).map push) []) ∧
      (r = .ok [] ↔ failures = [] ∧ ∀ t ∈ tokens, (outcome t).accepted = true) := by
  induction tokens generalizing failures s with
  | nil => exact ⟨.ok failures, by simp [sendEach, attempted], by simp⟩
  | cons t tokens ih =>
    have hreply : (Network.byToken outcome relay).apns s.pushes (push t) = outcome t := by
      simp [Network.byToken, hpush]
    rw [sendEach, Tx.run_bind_ok (run_sendPush _ _ _), hreply]
    rcases hout : outcome t with ⟨status, body⟩ | ⟨error, debug⟩
    · obtain ⟨r, hrun, hr⟩ := ih (if isSuccess status then failures else failures ++
        ["token=" ++ t ++ " status=" ++ env.statusText status ++ " body=" ++ body])
        (s.after [push t] [])
      refine ⟨r, by rw [hrun]; simp [attempted, hout, ApnsReply.lost], ?_⟩
      rw [hr, List.forall_mem_cons, hout]
      by_cases hok : isSuccess status <;> simp [hok, ApnsReply.accepted]
    · refine ⟨_, by simp [attempted, hout, ApnsReply.lost]; rfl, ?_⟩
      simp [hout, ApnsReply.accepted]

/-- A function that sends pushes makes a request for every token that the loop reaches, if it can
make any. -/
theorem run_sendToTokens_byToken (texts : SendTexts) (cfg : ApnsConfig)
    (push : String → String → ApnsPush) (hpush : ∀ a t, (push a t).token = t) (tokens : List String)
    (s : PushServer) :
    ∃ r l, (sendToTokens env (.byToken outcome relay) texts cfg push tokens).run s =
        (r, s.after l []) ∧
      l.map ApnsPush.token =
        (if (makeApnsJwt env cfg).isOk then attempted outcome tokens else []) ∧
      (r = .ok () ↔ tokens = [] ∨
        (makeApnsJwt env cfg).isOk = true ∧ ∀ t ∈ tokens, (outcome t).accepted = true) := by
  unfold sendToTokens
  by_cases hnone : tokens = []
  · exact ⟨.ok (), [], by simp [hnone], by simp [hnone, attempted], by simp [hnone]⟩
  rw [if_neg hnone]
  rcases hjwt : makeApnsJwt env cfg with e | authToken
  · refine ⟨.error e, [], by rw [Tx.run_bind_error (Tx.run_done _ _)]; simp, ?_, ?_⟩ <;>
      simp [Except.isOk, Except.toBool, hnone]
  obtain ⟨r, hrun, hr⟩ := run_sendEach_byToken env outcome relay texts (hpush authToken) tokens [] s
  have htokens : ((attempted outcome tokens).map (push authToken)).map ApnsPush.token =
      attempted outcome tokens := by
    simp [Function.comp_def, hpush]
  rw [Tx.run_bind_ok (Tx.run_done _ _)]
  rcases r with e | failures
  · refine ⟨.error e, _, Tx.run_bind_error hrun _, htokens, ?_⟩
    simpa [Except.isOk, Except.toBool, hnone] using hr
  · rw [Tx.run_bind_ok hrun]
    by_cases hfail : failures = []
    · refine ⟨.ok (), _, by rw [if_pos hfail]; rfl, htokens, ?_⟩
      simpa [Except.isOk, Except.toBool, hnone, hfail] using hr
    · refine ⟨_, _, by rw [if_neg hfail]; rfl, htokens, ?_⟩
      simpa [Except.isOk, Except.toBool, hnone, hfail] using hr

theorem run_attemptSend_byToken (apns : ApnsConfig) (message : MessagePush)
    (targets : List PushTarget) (s : PushServer) :
    ∃ failure l, (attemptSend targets (message.alert env (.byToken outcome relay) apns)).run s =
        (.ok failure, s.after l []) ∧
      l.map ApnsPush.token = (if (makeApnsJwt env apns).isOk
        then attempted outcome (targets.map PushTarget.token) else []) ∧
      (failure.isSome = false ↔ targets.map PushTarget.token = [] ∨
        (makeApnsJwt env apns).isOk = true ∧
          ∀ t ∈ targets.map PushTarget.token, (outcome t).accepted = true) := by
  unfold attemptSend
  by_cases hnone : targets = []
  · exact ⟨none, [], by simp [hnone], by simp [hnone, attempted], by simp [hnone]⟩
  obtain ⟨r, l, hrun, hl, hr⟩ := run_sendToTokens_byToken env outcome relay _ apns
    (fun authToken token => ⟨apns.baseUrl, token, "bearer " ++ authToken, apns.bundleId,
      .alert, .message (message.preview env) message.messageId message.senderId
        message.recipientId⟩) (fun _ _ => rfl) (targets.map PushTarget.token) s
  rw [if_neg hnone, Tx.run_bind_ok (Tx.run_attempt _ _)]
  unfold MessagePush.alert sendAlertToTokens
  rw [hrun]
  rcases r with e | ⟨⟩
  · exact ⟨some e, l, rfl, hl, by simpa using hr⟩
  · exact ⟨none, l, rfl, hl, by simpa using hr⟩

end

/-! ## The modes -/

section
variable {outcome : String → ApnsReply}

theorem servedOnce_direct {tokens : List String} (h : tokens.Nodup) (usable : Bool) :
    (∀ t ∈ tokens, t ∈ if usable then attempted outcome tokens else []) ↔
      ServedOnce outcome .direct usable tokens := by
  cases usable with
  | true => simp [ServedOnce, forall_mem_attempted h]
  | false =>
    simp only [ServedOnce, Bool.false_eq_true, if_false, false_or]
    constructor
    · intro hnone
      have hnil : tokens = [] := List.eq_nil_iff_forall_not_mem.mpr
        (fun t ht => List.not_mem_nil (hnone t ht))
      simp [hnil]
    · rintro ⟨rfl, -⟩
      simp

/-- The hybrid mode serves all of them, and those that the loop reached twice, unless all was
well. -/
theorem servedOnce_hybrid (tokens : List String) (usable handed : Bool)
    (hhanded : handed = false ↔ tokens = [] ∨
      usable = true ∧ ∀ t ∈ tokens, (outcome t).accepted = true) :
    (if handed then ∀ t ∈ (if usable then attempted outcome tokens else []),
        ¬ (outcome t).accepted = true
      else ∀ t ∈ tokens, t ∈ if usable then attempted outcome tokens else []) ↔
      ServedOnce outcome .hybrid usable tokens := by
  cases usable with
  | false =>
    cases handed with
    | true => simp [ServedOnce]
    | false =>
      obtain rfl : tokens = [] := by simpa using hhanded
      simp [ServedOnce]
  | true =>
    simp only [ServedOnce, if_true, forall_const]
    cases handed with
    | true =>
      have hnot : ¬ ∀ t ∈ tokens, (outcome t).accepted = true :=
        fun h => absurd (hhanded.mpr (.inr ⟨rfl, h⟩)) (by decide)
      simp only [if_true, hnot, false_or]
      exact attempted_not_accepted
    | false =>
      have hall : ∀ t ∈ tokens, (outcome t).accepted = true := by
        rcases hhanded.mp rfl with rfl | ⟨-, hall⟩
        · simp
        · exact hall
      simp only [Bool.false_eq_true, if_false]
      exact ⟨fun _ => .inl hall, fun _ => mem_attempted_of_accepted hall⟩

end

section
variable (env : PushEnv) (outcome : String → ApnsReply)
  (relay : List WebhookPost → WebhookPost → ApnsReply) (message : MessagePush)

/-- What the route of a message hands to the push service, and whether it leaves the iOS tokens to
the relay. -/
theorem run_routeMessage_byToken {cfg : PushConfig} {iosTargets : List PushTarget}
    (hcfg : (parseApnsConfig env cfg).isSome = true)
    (hnodup : (iosTargets.map PushTarget.token).Nodup) (webhookTargets : List PushTarget)
    (s : PushServer) :
    ∃ pending l handed, (routeMessage env (.byToken outcome relay) cfg message iosTargets
        webhookTargets).run s = (.ok pending, s.after l []) ∧
      pending.webhookTargets = webhookTargets ++ (if handed = true then iosTargets else []) ∧
      (l.map ApnsPush.token).Sublist (iosTargets.map PushTarget.token) ∧
      ((if handed = true then ∀ t ∈ l.map ApnsPush.token, ¬ (outcome t).accepted = true
          else ∀ t ∈ iosTargets.map PushTarget.token, t ∈ l.map ApnsPush.token) ↔
        ServedOnce outcome cfg.pushDeliveryMode (cfg.usable env)
          (iosTargets.map PushTarget.token)) := by
  obtain ⟨apns, hcfg⟩ := Option.isSome_iff_exists.mp hcfg
  obtain ⟨failure, l, hrun, hl, hfailure⟩ := run_attemptSend_byToken env outcome relay apns message
    iosTargets s
  have hsub : (l.map ApnsPush.token).Sublist (iosTargets.map PushTarget.token) := by
    rw [hl]
    by_cases hok : (makeApnsJwt env apns).isOk = true
    · simpa [hok] using attempted_sublist outcome _
    · simp [hok]
  rw [usable_of_config hcfg]
  unfold routeMessage
  rcases hmode : cfg.pushDeliveryMode with _ | _ | _
  · exact ⟨_, [], true, by rw [PushServer.after_nil]; rfl, by simp, by simp, by simp [ServedOnce]⟩
  · simp only [hcfg]
    rw [Tx.run_bind_ok hrun]
    refine ⟨_, l, false, rfl, by simp, hsub, ?_⟩
    rw [← servedOnce_direct hnodup, hl]
    simp
  · simp only [hcfg]
    rw [Tx.run_bind_ok hrun]
    refine ⟨_, l, failure.isSome, rfl, ?_, hsub, ?_⟩
    · by_cases h : failure.isSome = true <;> simp [h]
    · rw [hl]
      exact servedOnce_hybrid _ _ _ hfailure

end

/-! ## The rows -/

/-- The tokens that `splitTargets` takes for Apple's service. -/
theorem token_splitTargets (unicode : Unicode) (tokens : List DevicePushToken) :
    (splitTargets unicode tokens).1.map PushTarget.token = iosTokens tokens := by
  simp [splitTargets, iosTokens, List.partition_eq_filter_filter, List.filter_map,
    Function.comp_def, PushTarget.ofToken]

theorem mem_splitTargets_relay {unicode : Unicode} {tokens : List DevicePushToken}
    {t : PushTarget} :
    t ∈ (splitTargets unicode tokens).2 ↔ ∃ r ∈ tokens, isIos r.platform = false ∧
      isRelayDeliverablePlatform unicode r.platform = true ∧ t = .ofToken r := by
  simp only [splitTargets, List.partition_eq_filter_filter, List.mem_filter, List.mem_map,
    Function.comp_apply, Bool.not_eq_true']
  constructor
  · rintro ⟨⟨⟨r, hr, rfl⟩, hother⟩, hrelay⟩
    exact ⟨r, hr, hother, hrelay, rfl⟩
  · rintro ⟨r, hr, hother, hrelay, rfl⟩
    exact ⟨⟨⟨r, hr, rfl⟩, hother⟩, hrelay⟩

theorem isIos_iff {platform : String} (h : platform ∈ platforms) :
    isIos platform = true ↔ platform = "ios" := by
  have hall : ∀ p ∈ platforms, isIos p = true ↔ p = "ios" := by decide +kernel
  exact hall platform h

theorem isRelayDeliverablePlatform_android (unicode : Unicode) :
    isRelayDeliverablePlatform unicode "android" = true := by
  have htrim : trim "android" = "android" := by decide +kernel
  have hlower : unicode.toLowercase "android" = "android" := by
    rw [unicode.toLowercase_ascii "android" (by decide)]
    decide +kernel
  simp [isRelayDeliverablePlatform, htrim, hlower]

section
variable {s : PushServer} {user : Uuid} {r : DevicePushToken}

theorem isIos_iff_of_mem (h : r ∈ s.tokens.listTokensForUser user) :
    isIos r.platform = true ↔ r.platform = "ios" :=
  isIos_iff (s.tokens.valid r (TokenStore.mem_listTokensForUser.mp h).1).platform_known

theorem mem_iosTokens_of_row {token : String} :
    token ∈ iosTokens (s.tokens.listTokensForUser user) ↔
      ∃ r ∈ s.tokens.listTokensForUser user, r.platform = "ios" ∧ r.token = token := by
  simp only [iosTokens, List.mem_map, List.mem_filter]
  constructor
  · rintro ⟨r, ⟨hr, hios⟩, rfl⟩
    exact ⟨r, hr, (isIos_iff_of_mem hr).mp hios, rfl⟩
  · rintro ⟨r, hr, hios, rfl⟩
    exact ⟨r, ⟨hr, (isIos_iff_of_mem hr).mpr hios⟩, rfl⟩

variable (s user)

theorem nodup_iosTokens : (iosTokens (s.tokens.listTokensForUser user)).Nodup :=
  ((List.filter_sublist.trans List.filter_sublist).map _).nodup s.tokens.unique

theorem token_not_mem_iosTokens {unicode : Unicode} {t : PushTarget}
    (h : t ∈ (splitTargets unicode (s.tokens.listTokensForUser user)).2) :
    t.token ∉ iosTokens (s.tokens.listTokensForUser user) := by
  obtain ⟨r, hr, hother, -, rfl⟩ := mem_splitTargets_relay.mp h
  intro hmem
  obtain ⟨r', hr', hios, htoken⟩ := mem_iosTokens_of_row.mp hmem
  obtain rfl : r' = r := eq_of_token hr' hr htoken
  rw [(isIos_iff_of_mem hr).mpr hios] at hother
  cases hother

end

/-! ## The dispatch -/

section
variable (s : PushServer) (user : Uuid) (unicode : Unicode) (outcome : String → ApnsReply)
  {l : List ApnsPush} {posts : List WebhookPost} {handed : Bool}

/-- What the relay gets decides which tokens the loop has to reach, or not to. -/
theorem notifiedOnce_iff_of_targets
    (hl : (l.map ApnsPush.token).Sublist (iosTokens (s.tokens.listTokensForUser user)))
    (hposts : ∀ t, (∃ post ∈ posts, t ∈ post.payload.targets) ↔
      t ∈ (splitTargets unicode (s.tokens.listTokensForUser user)).2 ++
        if handed = true then (splitTargets unicode (s.tokens.listTokensForUser user)).1 else []) :
    NotifiedOnce outcome (s.tokens.listTokensForUser user) l posts ↔
      if handed = true then ∀ t ∈ l.map ApnsPush.token, ¬ (outcome t).accepted = true
      else ∀ t ∈ iosTokens (s.tokens.listTokensForUser user), t ∈ l.map ApnsPush.token := by
  have hmem : ∀ p ∈ l, p.token ∈ iosTokens (s.tokens.listTokensForUser user) :=
    fun p hp => hl.subset (List.mem_map_of_mem hp)
  have hnodup : l.Pairwise fun p p' => p'.token ≠ p.token :=
    (List.pairwise_map.mp (hl.nodup (nodup_iosTokens s user))).imp Ne.symm
  have htargets : ∀ token, (∃ post ∈ posts, ∃ t ∈ post.payload.targets, t.token = token) ↔
      (∃ t ∈ (splitTargets unicode (s.tokens.listTokensForUser user)).2, t.token = token) ∨
        handed = true ∧ token ∈ iosTokens (s.tokens.listTokensForUser user) := by
    intro token
    have hsome : (∃ post ∈ posts, ∃ t ∈ post.payload.targets, t.token = token) ↔
        ∃ t, (∃ post ∈ posts, t ∈ post.payload.targets) ∧ t.token = token := by
      simp only [← exists_and_right, and_assoc]
      exact ⟨fun ⟨post, hpost, t, ht, h⟩ => ⟨t, post, hpost, ht, h⟩,
        fun ⟨t, post, hpost, ht, h⟩ => ⟨post, hpost, t, ht, h⟩⟩
    rw [hsome, ← token_splitTargets unicode, List.mem_map]
    cases handed <;> simp [hposts, or_and_right, exists_or]
  constructor
  · intro h
    cases handed with
    | true =>
      intro token htoken hacc
      obtain ⟨p, hp, rfl⟩ := List.mem_map.mp htoken
      obtain ⟨post, hpost, t, ht, heq⟩ := (htargets p.token).mpr (.inr ⟨rfl, hmem p hp⟩)
      exact h.final p hp hacc post hpost t ht heq
    | false =>
      intro token htoken
      obtain ⟨r, hr, hios, rfl⟩ := mem_iosTokens_of_row.mp htoken
      rcases h.reached r hr (.inl hios) with ⟨p, hp, heq⟩ | hpost
      · exact List.mem_map.mpr ⟨p, hp, heq⟩
      · rcases (htargets r.token).mp hpost with ⟨t, ht, heq⟩ | ⟨hhanded, -⟩
        · exact absurd (heq ▸ htoken) (token_not_mem_iosTokens s user ht)
        · cases hhanded
  · intro h
    refine ⟨?_, ?_, ?_⟩
    · rintro r hr (hios | handroid)
      · have htoken := mem_iosTokens_of_row.mpr ⟨r, hr, hios, rfl⟩
        cases handed with
        | true => exact .inr ((htargets r.token).mpr (.inr ⟨rfl, htoken⟩))
        | false => exact .inl (List.mem_map.mp (h r.token htoken))
      · have hother : isIos r.platform = false := by
          rw [handroid]
          decide +kernel
        refine .inr ((htargets r.token).mpr (.inl ⟨.ofToken r, ?_, rfl⟩))
        refine mem_splitTargets_relay.mpr ⟨r, hr, hother, ?_, rfl⟩
        rw [handroid]
        exact isRelayDeliverablePlatform_android unicode
    · refine hnodup.imp ?_
      intro p p' hne _
      exact hne
    · intro p hp hacc post hpost t ht heq
      rcases (htargets p.token).mp ⟨post, hpost, t, ht, heq⟩ with ⟨t', ht', heq'⟩ | ⟨rfl, -⟩
      · exact token_not_mem_iosTokens s user ht' (heq' ▸ hmem p hp)
      · exact h p.token (List.mem_map_of_mem hp) hacc

end

def dispatched (env : PushEnv) (net : Network) (cfg : PushConfig) (message : MessagePush)
    (s : PushServer) : PushServer :=
  ((dispatchNewMessage env net cfg message).run s.fresh).2

/-- A dispatch of a message notifies every device of the recipient once. -/
def DispatchedOnce (env : PushEnv) (outcome : String → ApnsReply)
    (relay : List WebhookPost → WebhookPost → ApnsReply) (cfg : PushConfig) (message : MessagePush)
    (s : PushServer) : Prop :=
  NotifiedOnce outcome (s.tokens.listTokensForUser message.recipientId)
    (dispatched env (.byToken outcome relay) cfg message s).pushes
    (dispatched env (.byToken outcome relay) cfg message s).posts

/-- With a configuration for Apple's service, every device is notified once exactly if in the direct
mode no request but the last is lost, and in the hybrid mode all are accepted or none is accepted
that is made. -/
theorem notifiedOnce_iff (env : PushEnv) (outcome : String → ApnsReply)
    (relay : List WebhookPost → WebhookPost → ApnsReply) {cfg : PushConfig}
    (hcfg : (parseApnsConfig env cfg).isSome = true) (message : MessagePush) (s : PushServer) :
    DispatchedOnce env outcome relay cfg message s ↔
      ServedOnce outcome cfg.pushDeliveryMode (cfg.usable env)
        (iosTokens (s.tokens.listTokensForUser message.recipientId)) := by
  have hnodup := nodup_iosTokens s message.recipientId
  rw [← token_splitTargets env.unicode] at hnodup
  obtain ⟨pending, l, handed, hroute, hpending, hl, hserved⟩ := run_routeMessage_byToken env outcome
    relay message hcfg hnodup
    (splitTargets env.unicode (s.tokens.listTokensForUser message.recipientId)).2 s.fresh
  rw [token_splitTargets] at hl hserved
  rw [← hserved, DispatchedOnce]
  by_cases hne : s.tokens.listTokensForUser message.recipientId = []
  · have hnothing : dispatched env (.byToken outcome relay) cfg message s = s.fresh := by
      unfold dispatched dispatchNewMessage
      rw [run_dispatch_nil (s := s.fresh) hne]
    rw [hne] at hl ⊢
    have hnil : l.map ApnsPush.token = [] := List.sublist_nil.mp hl
    rw [hnothing]
    constructor
    · intro _
      split <;> simp [hnil, iosTokens]
    · intro _
      exact ⟨by simp, List.Pairwise.nil, by simp [PushServer.fresh]⟩
  obtain ⟨r, hrun⟩ := run_dispatch_route (s := s.fresh) (.byToken outcome relay) cfg hne hroute
    (message.payload env) "Push webhook" "Webhook dispatch failed: "
  unfold dispatched dispatchNewMessage
  rw [hrun]
  refine notifiedOnce_iff_of_targets s message.recipientId env.unicode outcome hl ?_
  intro t
  rw [← hpending]
  by_cases hnone : pending.webhookTargets = [] <;>
    simp [hnone, PushServer.fresh, PushServer.after, MessagePush.payload]

/-! ## Two phones -/

instance (outcome : String → ApnsReply) (tokens : List DevicePushToken) (pushes : List ApnsPush)
    (posts : List WebhookPost) : Decidable (NotifiedOnce outcome tokens pushes posts) :=
  decidable_of_iff (_ ∧ _ ∧ _)
    ⟨fun ⟨h, h', h''⟩ => ⟨h, h', h''⟩, fun h => ⟨h.reached, h.once, h.final⟩⟩

def twoPhones : TokenStore where
  table := ⟨[⟨11, 1, "ios", "first-token-of-1", "default"⟩,
    ⟨12, 1, "ios", "other-token-of-1", "default"⟩], by decide⟩
  unique := by decide
  valid := by
    intro r hr
    simp only [List.mem_cons, List.not_mem_nil, or_false] at hr
    rcases hr with rfl | rfl
    · exact ⟨by decide, by decide, by decide, by decide⟩
    · exact ⟨by decide, by decide, by decide, by decide⟩

def twoPhonesServer : PushServer := ⟨Db.empty, twoPhones, [], []⟩

def hybridConfig : PushConfig := { directConfig with pushDeliveryMode := .hybrid }

/-- The first phone is answered so, the other one is answered otherwise. -/
def answers (first other : ApnsReply) (token : String) : ApnsReply :=
  if token = "first-token-of-1" then first else other

def relayTakes : List WebhookPost → WebhookPost → ApnsReply := fun _ _ => .answered 204 ""

/-- A dispatch when the configuration has been read. -/
theorem dispatchNewMessage_of_config {env : PushEnv} {cfg : PushConfig} {apns : ApnsConfig}
    (h : parseApnsConfig env cfg = some apns) (net : Network) (message : MessagePush) :
    dispatchNewMessage env net cfg message = dispatch env net cfg message.recipientId
      (fun iosTargets webhookTargets =>
        match cfg.pushDeliveryMode with
        | .relay => pure ⟨webhookTargets ++ iosTargets, []⟩
        | .direct => do
          let failure ← attemptSend iosTargets (message.alert env net apns)
          pure ⟨webhookTargets,
            failure.toList.map (fun e => "APNs dispatch failed: " ++ env.debug e)⟩
        | .hybrid => do
          let failure ← attemptSend iosTargets (message.alert env net apns)
          pure ⟨if failure.isSome then webhookTargets ++ iosTargets else webhookTargets, []⟩)
      (message.payload env) "Push webhook" "Webhook dispatch failed: " := by
  unfold dispatchNewMessage routeMessage
  cases cfg.pushDeliveryMode <;> simp only [h]

/-- What is read of the configuration does not depend on the mode. -/
theorem parseApnsConfig_mode (env : PushEnv) (cfg : PushConfig) (mode : PushDeliveryMode) :
    parseApnsConfig env { cfg with pushDeliveryMode := mode } = parseApnsConfig env cfg := rfl

theorem parseApnsConfig_hybrid : parseApnsConfig samplePushEnv hybridConfig =
    some ⟨"TEAM", "KEY", "net.example.sync", sampleApnsKey, false⟩ :=
  (parseApnsConfig_mode samplePushEnv directConfig .hybrid).trans parseApnsConfig_direct

theorem usable_direct : directConfig.usable samplePushEnv = true := by
  rw [PushConfig.usable, parseApnsConfig_direct]
  rfl

/-- A failure for the last token is harmless in the direct mode. -/
theorem notifiedOnce_lost_last :
    DispatchedOnce samplePushEnv (answers (.answered 200 "") (.failed "timeout" "")) relayTakes
      directConfig ⟨1, 2, 3, "hello"⟩ twoPhonesServer :=
  (notifiedOnce_iff samplePushEnv _ relayTakes (Option.isSome_of_eq_some parseApnsConfig_direct)
    ⟨1, 2, 3, "hello"⟩ twoPhonesServer).mpr ⟨.inl usable_direct, by decide +kernel⟩

/-- In the direct mode the second phone is left out if the request for the first does not get
through; in the hybrid mode the first phone is notified again if the second is rejected. -/
theorem phone_left_out_or_again :
    ¬ DispatchedOnce samplePushEnv (answers (.failed "timeout" "") (.answered 200 "")) relayTakes
        directConfig ⟨1, 2, 3, "hello"⟩ twoPhonesServer ∧
      ¬ DispatchedOnce samplePushEnv (answers (.answered 200 "") (.answered 410 "")) relayTakes
        hybridConfig ⟨1, 2, 3, "hello"⟩ twoPhonesServer := by
  rw [DispatchedOnce, DispatchedOnce, dispatched, dispatched,
    dispatchNewMessage_of_config parseApnsConfig_direct,
    dispatchNewMessage_of_config parseApnsConfig_hybrid]
  decide +kernel

end SyncServer.Notifications
