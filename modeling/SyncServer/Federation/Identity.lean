import SyncServer.Federation.Redelivery
import SyncServer.Guild.Rows

/-! # The identity of a remote person

The account of a remote person stands for an id on a host. The scheme and the port of the
actor URL, the rest of its path and the case of its letters do not belong to the identity.
-/

namespace SyncServer.Federation
open Transaction Accounts

/-! ## Identities and usernames -/

/-- The identity that the inbox takes from an actor URL. -/
def remoteIdentity (env : NameEnv) (actorUrl : String) : Except AppError FederatedIdentity := do
  let (remoteUserId, remoteServerUrl) ← parseRemoteActorIdentity env actorUrl
  let id ← normalizeRemoteUserId env remoteUserId
  let host ← normalizeRemoteHost env remoteServerUrl
  pure ⟨id, host⟩

theorem remoteIdentity_of_shadowName {env : NameEnv} {actorUrl username : String}
    (h : shadowName env actorUrl = .ok username) :
    ∃ i, remoteIdentity env actorUrl = .ok i ∧ '@' ∉ i.remoteUserId.toList ∧
      username = federatedShadowUsername i.remoteUserId i.remoteHost := by
  obtain ⟨remoteUserId, remoteServerUrl, id, host, hparse, hid, hhost, rfl⟩ := shadowName_ok h
  refine ⟨⟨id, host⟩, ?_, ?_, rfl⟩
  · simp only [remoteIdentity, hparse, ok_bind, hid, hhost]
    rfl
  · unfold normalizeRemoteUserId at hid
    obtain ⟨-, hid⟩ := require_bind_eq_ok.mp hid
    obtain ⟨hchars, hid⟩ := require_bind_eq_ok.mp hid
    cases hid
    intro hat
    have hall := hchars
    rw [List.all_eq_true] at hall
    have hchar := hall _ hat
    revert hchar
    decide

theorem federatedShadowUsername_inj {i i' : FederatedIdentity} (h : '@' ∉ i.remoteUserId.toList)
    (h' : '@' ∉ i'.remoteUserId.toList) :
    federatedShadowUsername i.remoteUserId i.remoteHost =
      federatedShadowUsername i'.remoteUserId i'.remoteHost ↔ i = i' := by
  constructor
  · intro heq
    have hsplit := congrArg (splitOnce '@') heq
    have hsingle : "@" = String.singleton '@' := rfl
    rw [federatedShadowUsername, federatedShadowUsername, hsingle, splitOnce_append h,
      splitOnce_append h', Option.some.injEq, Prod.mk.injEq] at hsplit
    cases i
    cases i'
    simp_all
  · rintro rfl
    rfl

theorem shadowName_eq_iff {env : NameEnv} {a b username username' : String}
    (ha : shadowName env a = .ok username) (hb : shadowName env b = .ok username') :
    username = username' ↔ remoteIdentity env a = remoteIdentity env b := by
  obtain ⟨i, hi, hat, rfl⟩ := remoteIdentity_of_shadowName ha
  obtain ⟨j, hj, hat', rfl⟩ := remoteIdentity_of_shadowName hb
  rw [federatedShadowUsername_inj hat hat', hi, hj, Except.ok.injEq]

/-! ## What happens to the accounts -/

structure NamesKept (d d' : Db) : Prop where
  old : ∀ id u, d.users.get id = some u → ∃ u', d'.users.get id = some u' ∧ u'.username = u.username
  unique : (d.users.rows.map User.username).Nodup → (d'.users.rows.map User.username).Nodup

theorem NamesKept.of_users {d d' : Db} (h : d'.users = d.users) : NamesKept d d' := by
  constructor
  · intro id u hu
    exact ⟨u, by rw [h]; exact hu, rfl⟩
  · intro hnodup
    rwa [h]

theorem NamesKept.refl (d : Db) : NamesKept d d := .of_users rfl

theorem NamesKept.trans {d d' d'' : Db} (h : NamesKept d d') (h' : NamesKept d' d'') :
    NamesKept d d'' := by
  constructor
  · intro id u hu
    obtain ⟨u', hu', hname⟩ := h.old id u hu
    obtain ⟨u'', hu'', hname'⟩ := h'.old id u' hu'
    exact ⟨u'', hu'', hname'.trans hname⟩
  · intro hnodup
    exact h'.unique (h.unique hnodup)

def KeepsNames {α : Type} (q : Query α) : Prop := q.Writes (fun w => ∀ d, NamesKept d (w d))

theorem keepsNames_of_users {α : Type} {q : Query α} (h : q.Keeps Db.users) : KeepsNames q :=
  Tx.writes_mono (fun _ hw d => .of_users (hw d)) h

theorem keepsNames_insertUser (new : NewUser) : KeepsNames (insertUser new) := by
  refine Query.writes_exec NamesKept.refl (fun d u d' h => ?_)
  have hclash : ∀ r ∈ d.users.rows, r.username ≠ new.row.username := by
    intro r hr hname
    have hany : d.users.rows.any (clash new.row) := by
      rw [List.any_eq_true]
      exact ⟨r, hr, by simp [clash, hname]⟩
    unfold addUser at h
    rw [if_pos hany] at h
    split at h <;> cases h
  obtain ⟨-, t, ht, rfl⟩ := addUser_ok h
  constructor
  · intro id r hr
    have hne : new.row.id ≠ id := by
      rintro rfl
      rw [Table.get_eq_none_of_insert ht] at hr
      cases hr
    refine ⟨r, ?_, rfl⟩
    change t.get id = some r
    rw [Table.get_of_insert ht, if_neg hne, hr]
  · intro hnodup
    change (t.rows.map User.username).Nodup
    rw [Table.rows_of_insert ht, List.map_append]
    apply List.Nodup.append hnodup (List.nodup_singleton _)
    intro name hname hnew
    obtain ⟨r, hr, rfl⟩ := List.mem_map.mp hname
    exact hclash r hr (by simpa using hnew)

theorem keepsNames_deactivate (id : Uuid) : KeepsNames (deactivate id) := by
  refine Query.writes_exec NamesKept.refl (fun d u d' h => ?_)
  split at h
  · cases h
  cases h
  constructor
  · intro id' r hr
    by_cases hid : id' = id
    · subst hid
      refine ⟨deactivated r, ?_, rfl⟩
      change (d.users.update _ deactivated deactivated_id).get _ = _
      rw [Table.get_update_self, hr]
      rfl
    · refine ⟨r, ?_, rfl⟩
      change (d.users.update _ deactivated deactivated_id).get _ = _
      rw [Table.get_update_of_ne _ _ _ hid, hr]
  · intro hnodup
    rwa [usernames_update]

theorem keepsNames_ensureFederatedShadowUser (env : NameEnv) (remoteUserId remoteServerUrl : String)
    (newId : Uuid) : KeepsNames (ensureFederatedShadowUser env remoteUserId remoteServerUrl newId) :=
  writes_ensureFederatedShadowUser NamesKept.refl keepsNames_insertUser keepsNames_deactivate _ _ _ _

theorem keeps_recordInboxActivity (row : FederationInboxActivity) :
    (recordInboxActivity row).Keeps Db.users := by
  refine Query.keeps_exec (fun d a d' h => ?_)
  unfold addInboxActivity at h
  split at h
  · cases h
    rfl
  split at h
  · cases h
  split at h
  · cases h
    rfl
  · cases h

theorem keeps_addRemoteMessage (row : FederationRemoteMessage) :
    (Query.exec (fun _ => []) (addRemoteMessage row)).Keeps Db.users := by
  refine Query.keeps_exec (fun d a d' h => ?_)
  unfold addRemoteMessage at h
  split at h
  · cases h
    rfl
  split at h
  · cases h
  split at h
  · cases h
    rfl
  · cases h

theorem keepsNames_mapCreateNote (env : NameEnv) (activityId actor recipient : String)
    (payload : Json) (new : Minted) :
    KeepsNames (mapCreateNoteToLocalMessage env activityId actor recipient payload new) := by
  unfold mapCreateNoteToLocalMessage
  split
  · trivial
  refine Tx.writes_bind (keepsNames_of_users (keeps_addRemoteMessage _)) (fun inserted => ?_)
  split
  · trivial
  refine Tx.writes_bind (Tx.writes_query NamesKept.refl _) (fun found => ?_)
  refine Tx.writes_bind (Tx.writes_okOr _ _ found) (fun recipient => Tx.writes_bind ?_ ?_)
  · refine Tx.writes_bind trivial (fun identity => ?_)
    refine Tx.writes_bind (keepsNames_ensureFederatedShadowUser _ _ _ _) (fun shadow => ?_)
    exact keepsNames_of_users (Guild.keeps_insertMessageConn (fun _ _ => rfl) _)
  · exact fun _ => trivial

def HandlerKeepsNames {α : Type} (t : Handler α) : Prop :=
  t.Writes (fun w => ∀ s : Server, NamesKept s.db (w s).db)

theorem keepsNames_onDb {α : Type} {q : Query α} (h : KeepsNames q) : HandlerKeepsNames (onDb q) :=
  Tx.writes_onPart (fun _ hw (s : Server) => hw s.db) h

theorem keepsNames_send (o : Outgoing) : HandlerKeepsNames (send o) :=
  Tx.writes_exec (fun s : Server => NamesKept.refl s.db) _

theorem keepsNames_inbox (env : FederationEnv) (call : InboxCall) :
    HandlerKeepsNames (inbox env call) := by
  apply Tx.writes_bind
  · exact Tx.writes_mono (fun w hw s => .of_users (congrArg (fun p => p.1.users) (hw s)))
      (keeps_authenticate env call.toInboxRequest)
  intro verified
  refine Tx.writes_bind trivial (fun activity => ?_)
  refine Tx.writes_bind (keepsNames_onDb (keepsNames_of_users (keeps_recordInboxActivity _)))
    (fun inserted => ?_)
  split
  · trivial
  split
  · refine Tx.writes_bind (keepsNames_onDb (keepsNames_mapCreateNote _ _ _ _ _ _)) (fun message => ?_)
    refine Tx.writes_bind ?_ (fun _ => trivial)
    cases message with
    | none => trivial
    | some message => exact Tx.writes_bind (keepsNames_send _) (fun _ => keepsNames_send _)
  · trivial

theorem run_keepsNames (env : FederationEnv) (s : Server) (call : InboxCall) :
    NamesKept s.db ((inbox env call).run s).2.db :=
  Tx.Writes.rel (R := fun s s' : Server => NamesKept s.db s'.db) (fun s => NamesKept.refl s.db)
    (fun h h' => NamesKept.trans h h') (keepsNames_inbox env call) s

theorem deliveries_keepsNames (env : FederationEnv) (s : Server) (calls : List InboxCall) :
    NamesKept s.db (deliveries env s calls).db := by
  induction calls using List.reverseRecOn with
  | nil => exact NamesKept.refl s.db
  | append_singleton calls call ih =>
    rw [deliveries_snoc]
    exact ih.trans (run_keepsNames env _ call)

/-! ## Senders -/

/-- The request brings an activity of this actor and stores the message. -/
def Stores (env : FederationEnv) (call : InboxCall) (s : Server) (actor : String) (m : Message) :
    Prop :=
  ∃ activity, Carries env call s activity ∧ activity.actor = actor ∧
    ((inbox env call).run s).2.db.messages.rows = s.db.messages.rows ++ [m]

/-- The sender of a stored message is the account with the shadow username of the actor. -/
theorem Stores.sender {env : FederationEnv} {call : InboxCall} {s : Server} {actor : String}
    {m : Message} (h : Stores env call s actor m) :
    ∃ username account, shadowName env.names actor = .ok username ∧
      ((inbox env call).run s).2.db.users.get m.senderId = some account ∧
      account.username = username := by
  obtain ⟨activity, hc, rfl, hrows⟩ := h
  have hnone : s.db.messages.rows ≠ s.db.messages.rows ++ [m] := by simp
  obtain ⟨hno, -⟩ | ⟨activity', s₁, hc', hstore, hr⟩ := inbox_cases env call s
  · exact absurd ⟨activity, hc⟩ hno
  obtain rfl := hc.unique hc'
  have hdb : s₁.db = s.db := congrArg Prod.fst hstore
  rw [← hdb] at hrows hnone
  generalize (inbox env call).run s = out at hr hrows
  cases hr with
  | duplicate => exact absurd hrows hnone
  | refused => exact absurd hrows hnone
  | noted => exact absurd hrows hnone
  | stuck => exact absurd hrows hnone
  | delivered t note user account username users remote messages message fresh inserted create
      isNote unmapped deliverable found name shadow mapped isMessage stored =>
    have hlast : [message] = [m] := List.append_cancel_left ((Table.rows_of_insert stored).symm.trans hrows)
    cases hlast
    refine ⟨username, account, name, ?_, shadow.name⟩
    rw [isMessage]
    exact shadow.get

/-- The actor URLs are mapped to one username if and only if they have one identity; and in any
run of the inbox, two messages have one sender if and only if their actors have one identity. -/
theorem remote_actors_distinct (env : FederationEnv) :
    (∀ a b username username', shadowName env.names a = .ok username →
      shadowName env.names b = .ok username' →
      (username = username' ↔ remoteIdentity env.names a = remoteIdentity env.names b)) ∧
    ∀ (s : Server) (before between : List InboxCall) (call call' : InboxCall) (a b : String)
      (m m' : Message), (s.db.users.rows.map User.username).Nodup →
      Stores env call (deliveries env s before) a m →
      Stores env call' (deliveries env s (before ++ call :: between)) b m' →
      (m.senderId = m'.senderId ↔ remoteIdentity env.names a = remoteIdentity env.names b) := by
  refine ⟨fun a b username username' ha hb => shadowName_eq_iff ha hb, ?_⟩
  intro s before between call call' a b m m' hunique hm hm'
  obtain ⟨username, account, hname, hget, hacc⟩ := hm.sender
  obtain ⟨username', account', hname', hget', hacc'⟩ := hm'.sender
  rw [← shadowName_eq_iff hname hname']
  have hrun : ∀ s₁, NamesKept ((inbox env call).run s₁).2.db
      ((inbox env call').run (deliveries env s₁ (call :: between))).2.db := by
    intro s₁
    exact (deliveries_keepsNames env _ between).trans (run_keepsNames env _ call')
  have hsplit : deliveries env s (before ++ call :: between) =
      deliveries env (deliveries env s before) (call :: between) := by
    simp [deliveries]
  rw [hsplit] at hget'
  have hunique' := (hrun (deliveries env s before)).unique
    ((run_keepsNames env _ call).unique ((deliveries_keepsNames env s before).unique hunique))
  obtain ⟨kept, hkept, hsame⟩ := (hrun (deliveries env s before)).old _ _ hget
  rw [← hacc, ← hacc', ← hsame]
  constructor
  · intro hid
    rw [hid, hget'] at hkept
    cases hkept
    rfl
  · intro heq
    obtain ⟨hmem, hid⟩ := Table.get_eq_some.mp hkept
    obtain ⟨hmem', hid'⟩ := Table.get_eq_some.mp hget'
    obtain rfl := List.inj_on_of_nodup_map hunique' hmem hmem' heq
    exact hid.symm.trans hid'

/-! ## Samples -/

def peopleActor : String := "https://remote.example/people/carol"

def peopleActivity : Activity :=
  ⟨"https://remote.example/a3", "Create", peopleActor,
    samplePayload "https://remote.example/people/carol" "https://remote.example/a3"⟩

theorem check_people :
    checkActivity peerFederation peopleBody peopleActor = .ok peopleActivity := by
  rfl

theorem peopleToAlice_accepted {s s' : Server}
    (huser : s.db.users.rows.any (fun u => u.username = "alice"))
    (hpem : (fetchActorPublicKey peerFederation peopleActor sampleFetch false).run s =
      (.ok samplePem, s')) :
    ∃ fields, (authenticate peerFederation (peopleToAlice.arriving 1000000000 sampleFetch)).run s =
      (.ok ⟨peopleActor, samplePem, postCanonical "alice" peopleDigest, fields⟩, s') := by
  have hk : Quotable peopleToAlice.keyId := ⟨by decide, by decide, by decide⟩
  exact post_accepted (by decide +kernel) (by decide +kernel) (by decide) rfl rfl rfl hk (by decide)
    (by decide) (.tail _ (.tail _ (.tail _ (.head _)))) huser hpem

def peopleDelivered : Server :=
  ((receive peerFederation "alice" peopleActivity (peopleToAlice.call 14).new).run
    (rememberKey peopleActor ⟨samplePem, 1000000000⟩ noteDelivered)).2

theorem people_delivered :
    Carries peerFederation (peopleToAlice.call 14) noteDelivered peopleActivity ∧
      (inbox peerFederation (peopleToAlice.call 14)).run noteDelivered =
        (.ok (.accepted "https://remote.example/a3"), peopleDelivered) := by
  obtain ⟨fields, hauth⟩ := peopleToAlice_accepted (s := noteDelivered) (by decide)
    (run_fetch_new rfl rfl)
  refine ⟨⟨_, _, hauth, check_people⟩, ?_⟩
  rw [run_inbox (peopleToAlice.call 14) hauth check_people]
  exact Prod.ext (by decide) (Eq.refl _)

/-- A message from the shadow account that the first note has created. -/
def fromCarol (id : Uuid) : Message := ⟨id, 11, 1, "hi", none, 1000000000⟩

theorem note_stored :
    Stores peerFederation (noteToAlice.call 11) sampleServer sampleActor (fromCarol 11) := by
  refine ⟨noteActivity, note_carried 11, rfl, ?_⟩
  rw [note_delivered]
  decide

theorem people_stored : Stores peerFederation (peopleToAlice.call 14)
    (deliveries peerFederation sampleServer [noteToAlice.call 11]) peopleActor (fromCarol 14) := by
  rw [deliveries_note]
  refine ⟨peopleActivity, people_delivered.1, rfl, ?_⟩
  rw [people_delivered.2]
  decide

/-- Two actors of one host have one account, because the last parts of their URLs are equal. -/
theorem two_actors_one_account :
    sampleActor ≠ peopleActor ∧
      shadowName peerFederation.names sampleActor = .ok "carol@remote.example" ∧
      shadowName peerFederation.names peopleActor = .ok "carol@remote.example" ∧
      ∃ m m', Stores peerFederation (noteToAlice.call 11) sampleServer sampleActor m ∧
        Stores peerFederation (peopleToAlice.call 14)
          (deliveries peerFederation sampleServer [noteToAlice.call 11]) peopleActor m' ∧
        m.senderId = m'.senderId :=
  ⟨by decide, by decide, by decide, _, _, note_stored, people_stored, rfl⟩

/-- The messages of the two actors have one sender, and the actors one identity. -/
theorem remote_actors_distinct_carol :
    (fromCarol 11).senderId = (fromCarol 14).senderId ↔
      remoteIdentity peerFederation.names sampleActor =
        remoteIdentity peerFederation.names peopleActor :=
  (remote_actors_distinct peerFederation).2 sampleServer [] [] (noteToAlice.call 11)
    (peopleToAlice.call 14) sampleActor peopleActor (fromCarol 11) (fromCarol 14) (by decide)
    note_stored people_stored

end SyncServer.Federation
