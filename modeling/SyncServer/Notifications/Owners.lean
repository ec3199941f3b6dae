import SyncServer.Accounts.Deletion
import SyncServer.Base.LastWord
import SyncServer.Notifications.Kinds

/-! # Whose devices are notified

A token belongs to the account that registered it last, until that account takes it back or is
deleted. A notification goes to the tokens of the account it is for, and to no others.
-/

namespace SyncServer.Notifications
open Transaction

/-! ## Requests about tokens -/

def TokenStore.empty : TokenStore where
  table := Table.empty
  unique := List.nodup_nil
  valid _ hr := absurd hr List.not_mem_nil

def TokenStore.withoutUser (store : TokenStore) (user : Uuid) : TokenStore where
  table := store.table.filter (fun r => decide (r.userId ≠ user))
  unique := (List.filter_sublist.map _).nodup store.unique
  valid r hr := store.valid r (List.mem_filter.mp hr).1

/-- A request about tokens, a notification, or whatever else happens to the database. -/
inductive PushRequest where
  | register (user newId : Uuid) (token : String) (platform tokenKind : Option String)
  | unregister (user : Uuid) (token : String)
  | deleteAccount (user : Uuid)
  | newMessage (net : Network) (cfg : PushConfig) (message : MessagePush)
  | incomingCall (net : Network) (cfg : PushConfig) (call : CallPush)
  | elsewhere (db : Db)

namespace PushRequest

/-- The server after the request. -/
def apply (env : PushEnv) : PushRequest → PushServer → PushServer
  | register user newId token platform tokenKind, s =>
    match Notifications.register env.unicode s.db user newId token platform tokenKind s.tokens with
    | .ok tokens => { s with tokens := tokens }
    | .error _ => s
  | unregister user token, s =>
    match Notifications.unregister user token s.tokens with
    | .ok tokens => { s with tokens := tokens }
    | .error _ => s
  | deleteAccount user, s =>
    if s.db.userExists user then
      { s with db := Accounts.withoutUser user s.db, tokens := s.tokens.withoutUser user }
    else s
  | newMessage net cfg message, s => ((dispatchNewMessage env net cfg message).run s).2
  | incomingCall net cfg call, s => ((dispatchIncomingCall env net cfg call).run s).2
  | elsewhere db, s => { s with db := db }

/-- Whom the request notifies. -/
def recipient : PushRequest → Option Uuid
  | newMessage _ _ message => some message.recipientId
  | incomingCall _ _ call => some call.calleeId
  | _ => none

end PushRequest

def afterPushRequests (env : PushEnv) (requests : List PushRequest) (s : PushServer) : PushServer :=
  requests.foldl (fun s request => request.apply env s) s

/-! ## Who holds a token -/

/-- What an account registered a token for. -/
structure Registration where
  userId : Uuid
  platform : String
  tokenKind : String
deriving DecidableEq, Repr

inductive TokenEvent where
  | registered (token : String) (registration : Registration)
  | unregistered (token : String) (user : Uuid)
  | deleted (user : Uuid)
deriving DecidableEq, Repr

/-- A registration takes the token from whoever had it; the other events end what the account
has. -/
def tokenRules : LastWord.Rules TokenEvent String Registration where
  gives e token registration := e = .registered token registration
  ends e token registration :=
    match e with
    | .registered token' _ => token' = token
    | .unregistered token' user => token' = token ∧ user = registration.userId
    | .deleted user => user = registration.userId

/-- What a request says about tokens, if it is accepted. -/
def PushRequest.events (env : PushEnv) : PushRequest → PushServer → List TokenEvent
  | register user newId token platform tokenKind, s =>
    match Notifications.register env.unicode s.db user newId token platform tokenKind s.tokens with
    | .ok _ => [.registered (trim token) ⟨user,
        env.unicode.toLowercase (trim (platform.getD "unknown")),
        env.unicode.toLowercase (trim (tokenKind.getD "default"))⟩]
    | .error _ => []
  | unregister user token, s =>
    match Notifications.unregister user token s.tokens with
    | .ok _ => [.unregistered (trim token) user]
    | .error _ => []
  | deleteAccount user, s => if s.db.userExists user then [.deleted user] else []
  | _, _ => []

def tokenEvents (env : PushEnv) : List PushRequest → PushServer → List TokenEvent
  | [], _ => []
  | request :: requests, s =>
    request.events env s ++ tokenEvents env requests (request.apply env s)

/-! ## The table holds the last word -/

def DevicePushToken.registration (r : DevicePushToken) : Registration :=
  ⟨r.userId, r.platform, r.tokenKind⟩

def TokenStore.Has (store : TokenStore) (token : String) (registration : Registration) : Prop :=
  ∃ r ∈ store.table.rows, r.token = token ∧ r.registration = registration

section
variable {store store' : TokenStore} {new : DevicePushToken} {token : String}
  {registration : Registration}

theorem has_upsertToken {d : Db} {hnew : ValidToken new.platform new.token new.tokenKind}
    (h : store.upsertToken d new hnew = .ok store') :
    store'.Has token registration ↔
      token = new.token ∧ registration = new.registration ∨
        token ≠ new.token ∧ store.Has token registration := by
  unfold TokenStore.upsertToken at h
  split at h
  · cases h
  split at h
  · rename_i r hfind
    cases h
    have hr : r ∈ store.table.rows := List.mem_of_find?_eq_some hfind
    have htoken : r.token = new.token := by simpa using List.find?_some hfind
    -- the row of the token is the only one that is changed
    have hid : ∀ r' ∈ store.table.rows, r'.id = r.id ↔ r'.token = new.token := by
      intro r' hr'
      constructor
      · intro hid
        rw [List.inj_on_of_nodup_map store.table.keys_nodup hr' hr hid, htoken]
      · intro htoken'
        rw [TokenStore.row_eq hr' hr (htoken'.trans htoken.symm)]
    constructor
    · rintro ⟨r', hr', rfl, rfl⟩
      obtain ⟨r₀, hr₀, rfl⟩ := List.mem_map.mp hr'
      by_cases hsame : r₀.id = r.id
      · rw [if_pos hsame]
        exact .inl ⟨(hid r₀ hr₀).mp hsame, rfl⟩
      · rw [if_neg hsame]
        exact .inr ⟨fun htoken' => hsame ((hid r₀ hr₀).mpr htoken'), r₀, hr₀, rfl, rfl⟩
    · rintro (⟨rfl, rfl⟩ | ⟨hne, r', hr', rfl, rfl⟩)
      · exact ⟨new.takenOver r, List.mem_map.mpr ⟨r, hr, if_pos rfl⟩, htoken, rfl⟩
      · refine ⟨r', List.mem_map.mpr ⟨r', hr', if_neg ?_⟩, rfl, rfl⟩
        exact fun hsame => hne ((hid r' hr').mp hsame)
  · rename_i hfind
    split at h
    · cases h
    rename_i t hins
    cases h
    have hfresh : ∀ r ∈ store.table.rows, r.token ≠ new.token := by
      intro r hr
      simpa using List.find?_eq_none.mp hfind r hr
    simp only [TokenStore.Has, Table.rows_of_insert hins, List.mem_append, List.mem_singleton]
    constructor
    · rintro ⟨r, hr | rfl, rfl, rfl⟩
      · exact .inr ⟨hfresh r hr, r, hr, rfl, rfl⟩
      · exact .inl ⟨rfl, rfl⟩
    · rintro (⟨rfl, rfl⟩ | ⟨-, r, hr, rfl, rfl⟩)
      · exact ⟨new, .inr rfl, rfl, rfl⟩
      · exact ⟨r, .inl hr, rfl, rfl⟩

theorem has_unregisterToken {user : Uuid} {token' : String} :
    (store.unregisterToken user token').Has token registration ↔
      store.Has token registration ∧ ¬ (token' = token ∧ user = registration.userId) := by
  simp only [TokenStore.Has, TokenStore.unregisterToken, Table.filter, List.mem_filter]
  constructor
  · rintro ⟨r, ⟨hr, hother⟩, rfl, rfl⟩
    refine ⟨⟨r, hr, rfl, rfl⟩, ?_⟩
    rintro ⟨rfl, rfl⟩
    simp [DevicePushToken.registration] at hother
  · rintro ⟨⟨r, hr, rfl, rfl⟩, hother⟩
    refine ⟨r, ⟨hr, ?_⟩, rfl, rfl⟩
    by_contra hsame
    simp only [Bool.not_eq_true, Bool.not_eq_false', Bool.and_eq_true, decide_eq_true_eq] at hsame
    exact hother ⟨hsame.2.symm, hsame.1.symm⟩

theorem has_withoutUser {user : Uuid} :
    (store.withoutUser user).Has token registration ↔
      store.Has token registration ∧ user ≠ registration.userId := by
  simp only [TokenStore.Has, TokenStore.withoutUser, Table.filter, List.mem_filter,
    decide_eq_true_eq]
  constructor
  · rintro ⟨r, ⟨hr, hother⟩, rfl, rfl⟩
    exact ⟨⟨r, hr, rfl, rfl⟩, Ne.symm hother⟩
  · rintro ⟨⟨r, hr, rfl, rfl⟩, hother⟩
    exact ⟨r, ⟨hr, Ne.symm hother⟩, rfl, rfl⟩

end

def Represents (store : TokenStore) (events : List TokenEvent) : Prop :=
  ∀ token registration, store.Has token registration ↔ tokenRules.Holds events token registration

theorem represents_empty : Represents .empty [] := by
  intro token registration
  constructor
  · rintro ⟨r, hr, -⟩
    exact absurd hr List.not_mem_nil
  · intro h
    exact absurd h LastWord.Rules.not_holds_nil

theorem validateToken_ok {token token' : String} (h : validateToken token = .ok token') :
    token' = trim token := by
  unfold validateToken at h
  dsimp only at h
  split at h <;> cases h
  rfl

theorem normalizePlatform_ok {unicode : Unicode} {platform : Option String} {platform' : String}
    (h : normalizePlatform unicode platform = .ok platform') :
    platform' = unicode.toLowercase (trim (platform.getD "unknown")) := by
  unfold normalizePlatform at h
  dsimp only at h
  split at h <;> cases h
  rfl

theorem normalizeTokenKind_ok {unicode : Unicode} {tokenKind : Option String} {kind : String}
    (h : normalizeTokenKind unicode tokenKind = .ok kind) :
    kind = unicode.toLowercase (trim (tokenKind.getD "default")) := by
  unfold normalizeTokenKind at h
  dsimp only at h
  split at h <;> cases h
  rfl

theorem register_ok {unicode : Unicode} {d : Db} {user newId : Uuid} {token : String}
    {platform tokenKind : Option String} {store store' : TokenStore}
    (h : register unicode d user newId token platform tokenKind store = .ok store') :
    ∃ hvalid, store.upsertToken d ⟨newId, user, unicode.toLowercase (trim (platform.getD "unknown")),
      trim token, unicode.toLowercase (trim (tokenKind.getD "default"))⟩ hvalid = .ok store' := by
  unfold register at h
  split at h
  · cases h
  rename_i token' htoken
  split at h
  · cases h
  rename_i platform' hplatform
  split at h
  · cases h
  rename_i kind hkind
  obtain rfl := validateToken_ok htoken
  obtain rfl := normalizePlatform_ok hplatform
  obtain rfl := normalizeTokenKind_ok hkind
  exact ⟨_, h⟩

theorem unregister_ok {user : Uuid} {token : String} {store store' : TokenStore}
    (h : unregister user token store = .ok store') :
    store' = store.unregisterToken user (trim token) := by
  rw [unregister] at h
  rcases htoken : validateToken token with e | token'
  · rw [htoken] at h
    cases h
  · rw [htoken] at h
    cases h
    rw [validateToken_ok htoken]

/-! ## What a dispatch sends -/

/-- What is sent is for tokens of the user in the table. -/
structure ForTokensOf (user : Uuid) (store : TokenStore) (pushes : List ApnsPush)
    (posts : List WebhookPost) : Prop where
  pushes : ∀ p ∈ pushes, ∃ platform tokenKind, store.Has p.token ⟨user, platform, tokenKind⟩
  posts : ∀ post ∈ posts, ∀ t ∈ post.payload.targets,
    store.Has t.token ⟨user, t.platform, t.tokenKind⟩

section
variable {env : PushEnv} {s : PushServer} {user : Uuid}

theorem has_of_mem_tokens {r : DevicePushToken} (h : r ∈ s.tokens.listTokensForUser user) :
    s.tokens.Has r.token ⟨user, r.platform, r.tokenKind⟩ := by
  obtain ⟨hr, rfl⟩ := TokenStore.mem_listTokensForUser.mp h
  exact ⟨r, hr, rfl, rfl⟩

theorem has_of_mem_ios {t : PushTarget}
    (h : t ∈ (splitTargets env.unicode (s.tokens.listTokensForUser user)).1) :
    s.tokens.Has t.token ⟨user, t.platform, t.tokenKind⟩ := by
  obtain ⟨r, hr, -, rfl⟩ := mem_splitTargets.mp h
  exact has_of_mem_tokens hr

theorem has_of_mem_others {t : PushTarget}
    (h : t ∈ (splitTargets env.unicode (s.tokens.listTokensForUser user)).2) :
    s.tokens.Has t.token ⟨user, t.platform, t.tokenKind⟩ := by
  simp only [splitTargets, List.partition_eq_filter_filter, List.mem_filter, List.mem_map] at h
  obtain ⟨⟨⟨r, hr, rfl⟩, -⟩, -⟩ := h
  exact has_of_mem_tokens hr

/-- A dispatch whose route keeps to its targets sends to tokens of the user. -/
theorem forTokensOf_dispatch (net : Network) (cfg : PushConfig)
    {route : List PushTarget → List PushTarget → PushHandler Pending}
    {payload : List PushTarget → RelayPayload}
    (hroute : ∀ iosTargets webhookTargets, ∃ pending l,
      (route iosTargets webhookTargets).run s = (.ok pending, s.after l []) ∧
        (∀ p ∈ l, ∃ t ∈ iosTargets, t.token = p.token) ∧
        ∀ t ∈ pending.webhookTargets, t ∈ webhookTargets ∨ t ∈ iosTargets)
    (hpayload : ∀ targets, (payload targets).targets = targets) (what label : String) :
    ∃ pushes posts, ((dispatch env net cfg user route payload what label).run s).2 =
      s.after pushes posts ∧ ForTokensOf user s.tokens pushes posts := by
  by_cases hnone : s.tokens.listTokensForUser user = []
  · refine ⟨[], [], ?_, by simp, by simp⟩
    rw [run_dispatch_nil hnone, PushServer.after_nil]
  obtain ⟨pending, l, hrun, hl, htargets⟩ := hroute
    (splitTargets env.unicode (s.tokens.listTokensForUser user)).1
    (splitTargets env.unicode (s.tokens.listTokensForUser user)).2
  obtain ⟨r, hdispatch⟩ := run_dispatch_route net cfg hnone hrun payload what label
  rw [hdispatch]
  refine ⟨_, _, rfl, fun p hp => ?_, fun post hpost t ht => ?_⟩
  · obtain ⟨t, ht, htoken⟩ := hl p hp
    rw [← htoken]
    exact ⟨_, _, has_of_mem_ios ht⟩
  · split at hpost
    · cases hpost
    obtain rfl := List.mem_singleton.mp hpost
    change t ∈ (payload pending.webhookTargets).targets at ht
    rw [hpayload] at ht
    rcases htargets t ht with ht | ht
    · exact has_of_mem_others ht
    · exact has_of_mem_ios ht

theorem forTokensOf_newMessage (env : PushEnv) (net : Network) (cfg : PushConfig)
    (message : MessagePush) (s : PushServer) : ∃ pushes posts,
    ((dispatchNewMessage env net cfg message).run s).2 = s.after pushes posts ∧
      ForTokensOf message.recipientId s.tokens pushes posts := by
  refine forTokensOf_dispatch net cfg (fun iosTargets webhookTargets => ?_) (fun _ => rfl) _ _
  obtain ⟨pending, l, hrun, hl, htargets⟩ :=
    run_routeMessage env net cfg message iosTargets webhookTargets s
  exact ⟨pending, l, hrun, fun p hp => (hl p hp).2.2.2,
    fun t ht => (htargets t ht).imp_right And.right⟩

theorem forTokensOf_incomingCall (env : PushEnv) (net : Network) (cfg : PushConfig)
    (call : CallPush) (s : PushServer) : ∃ pushes posts,
    ((dispatchIncomingCall env net cfg call).run s).2 = s.after pushes posts ∧
      ForTokensOf call.calleeId s.tokens pushes posts := by
  refine forTokensOf_dispatch net cfg (fun iosTargets webhookTargets => ?_) (fun _ => rfl) _ _
  obtain ⟨pending, l, hrun, hl, htargets⟩ := run_routeCall env net cfg call
    (splitKinds iosTargets).1 (splitKinds iosTargets).2 webhookTargets s
  have hvoip : ∀ t ∈ (splitKinds iosTargets).1, t ∈ iosTargets :=
    fun t ht => (mem_splitKinds_voip.mp ht).1
  have hdefault : ∀ t ∈ (splitKinds iosTargets).2, t ∈ iosTargets :=
    fun t ht => (mem_splitKinds_default.mp ht).1.1
  refine ⟨pending, l, hrun, fun p hp => ?_, fun t ht => ?_⟩
  · obtain ⟨-, -, ⟨-, t, ht, htoken⟩ | ⟨-, t, ht, htoken⟩⟩ := hl p hp
    · exact ⟨t, hvoip t ht, htoken⟩
    · exact ⟨t, hdefault t ht, htoken⟩
  · rcases htargets t ht with ht | ⟨-, ht | ht⟩
    · exact .inl ht
    · exact .inr (hvoip t ht)
    · exact .inr (hdefault t ht)

end

/-! ## Runs -/

section
variable {env : PushEnv} {s : PushServer} {events : List TokenEvent}

/-- A request makes the table follow what it says. -/
theorem Represents.apply (h : Represents s.tokens events) (request : PushRequest) :
    Represents (request.apply env s).tokens (events ++ request.events env s) := by
  intro token registration
  have hold := h token registration
  cases request with
  | register user newId token' platform tokenKind =>
    simp only [PushRequest.apply, PushRequest.events]
    rcases hrun : register env.unicode s.db user newId token' platform tokenKind s.tokens
      with e | tokens
    · simp only [List.append_nil]
      exact hold
    obtain ⟨hvalid, hupsert⟩ := register_ok hrun
    dsimp only
    rw [LastWord.Rules.holds_concat, has_upsertToken hupsert, hold]
    simp only [tokenRules, DevicePushToken.registration, TokenEvent.registered.injEq]
    constructor
    · rintro (⟨rfl, rfl⟩ | ⟨hne, hheld⟩)
      · exact .inl ⟨rfl, rfl⟩
      · exact .inr ⟨hheld, Ne.symm hne⟩
    · rintro (⟨rfl, rfl⟩ | ⟨hheld, hne⟩)
      · exact .inl ⟨rfl, rfl⟩
      · exact .inr ⟨Ne.symm hne, hheld⟩
  | unregister user token' =>
    simp only [PushRequest.apply, PushRequest.events]
    rcases hrun : unregister user token' s.tokens with e | tokens
    · simp only [List.append_nil]
      exact hold
    dsimp only
    rw [LastWord.Rules.holds_concat, unregister_ok hrun, has_unregisterToken, hold]
    simp [tokenRules]
  | deleteAccount user =>
    simp only [PushRequest.apply, PushRequest.events]
    by_cases hexists : s.db.userExists user
    · rw [if_pos hexists, if_pos hexists, LastWord.Rules.holds_concat, has_withoutUser, hold]
      simp [tokenRules]
    · rw [if_neg hexists, if_neg hexists, List.append_nil]
      exact hold
  | newMessage net cfg message =>
    obtain ⟨pushes, posts, hrun, -⟩ := forTokensOf_newMessage env net cfg message s
    simp only [PushRequest.apply, PushRequest.events]
    rw [hrun, List.append_nil]
    exact hold
  | incomingCall net cfg call =>
    obtain ⟨pushes, posts, hrun, -⟩ := forTokensOf_incomingCall env net cfg call s
    simp only [PushRequest.apply, PushRequest.events]
    rw [hrun, List.append_nil]
    exact hold
  | elsewhere db =>
    simp only [PushRequest.apply, PushRequest.events]
    rw [List.append_nil]
    exact hold

theorem Represents.run (h : Represents s.tokens events) (requests : List PushRequest) :
    Represents (afterPushRequests env requests s).tokens
      (events ++ tokenEvents env requests s) := by
  induction requests generalizing s events with
  | nil =>
    rw [tokenEvents, List.append_nil]
    exact h
  | cons request requests ih =>
    rw [tokenEvents, ← List.append_assoc]
    exact ih (h.apply request)

end

/-- What is sent goes to tokens that the recipient was the last to register. -/
structure ReachesOwner (events : List TokenEvent) (recipient : Option Uuid)
    (pushes : List ApnsPush) (posts : List WebhookPost) : Prop where
  pushes : ∀ p ∈ pushes, ∃ user platform tokenKind, recipient = some user ∧
    tokenRules.Holds events p.token ⟨user, platform, tokenKind⟩
  posts : ∀ post ∈ posts, ∀ t ∈ post.payload.targets, ∃ user, recipient = some user ∧
    tokenRules.Holds events t.token ⟨user, t.platform, t.tokenKind⟩

theorem ForTokensOf.reachesOwner {user : Uuid} {store : TokenStore} {events : List TokenEvent}
    {pushes : List ApnsPush} {posts : List WebhookPost}
    (h : ForTokensOf user store pushes posts) (hstore : Represents store events) :
    ReachesOwner events (some user) pushes posts where
  pushes p hp := by
    obtain ⟨platform, tokenKind, hhas⟩ := h.pushes p hp
    exact ⟨user, platform, tokenKind, rfl, (hstore _ _).mp hhas⟩
  posts post hpost t ht := ⟨user, rfl, (hstore _ _).mp (h.posts post hpost t ht)⟩

/-- What a request sends reaches the owners. -/
theorem Represents.reachesOwner {env : PushEnv} {s : PushServer} {events : List TokenEvent}
    (h : Represents s.tokens events) (request : PushRequest) :
    ∃ pushes posts, (request.apply env s).pushes = s.pushes ++ pushes ∧
      (request.apply env s).posts = s.posts ++ posts ∧
      ReachesOwner events request.recipient pushes posts := by
  have hsilent : ∀ {s' : PushServer}, s'.pushes = s.pushes → s'.posts = s.posts →
      ∃ pushes posts, s'.pushes = s.pushes ++ pushes ∧ s'.posts = s.posts ++ posts ∧
        ReachesOwner events request.recipient pushes posts := by
    intro s' hpushes hposts
    exact ⟨[], [], by simp [hpushes], by simp [hposts], by simp, by simp⟩
  cases request with
  | register user newId token platform tokenKind =>
    simp only [PushRequest.apply]
    split <;> exact hsilent rfl rfl
  | unregister user token =>
    simp only [PushRequest.apply]
    split <;> exact hsilent rfl rfl
  | deleteAccount user =>
    simp only [PushRequest.apply]
    split <;> exact hsilent rfl rfl
  | newMessage net cfg message =>
    obtain ⟨pushes, posts, hrun, hfor⟩ := forTokensOf_newMessage env net cfg message s
    exact ⟨pushes, posts, congrArg PushServer.pushes hrun, congrArg PushServer.posts hrun,
      hfor.reachesOwner h⟩
  | incomingCall net cfg call =>
    obtain ⟨pushes, posts, hrun, hfor⟩ := forTokensOf_incomingCall env net cfg call s
    exact ⟨pushes, posts, congrArg PushServer.pushes hrun, congrArg PushServer.posts hrun,
      hfor.reachesOwner h⟩
  | elsewhere db => exact hsilent rfl rfl

/-- The tokens are registered for whoever was the last to register them and has not taken them back
nor been deleted since. No token has two owners, and what is sent goes to the recipient's. -/
theorem notifications_reach_owner (env : PushEnv) (db : Db) (requests : List PushRequest)
    (request : PushRequest) :
    let start : PushServer := ⟨db, .empty, [], []⟩
    let s := afterPushRequests env requests start
    let events := tokenEvents env requests start
    (∀ token registration,
        s.tokens.Has token registration ↔ tokenRules.Holds events token registration) ∧
      (∀ token registration registration', tokenRules.Holds events token registration →
        tokenRules.Holds events token registration' → registration = registration') ∧
      ∃ pushes posts, (request.apply env s).pushes = s.pushes ++ pushes ∧
        (request.apply env s).posts = s.posts ++ posts ∧
        ReachesOwner events request.recipient pushes posts := by
  intro start s events
  have hrun : Represents s.tokens events := represents_empty.run (s := start) requests
  refine ⟨hrun, fun token registration registration' h h' => ?_, hrun.reachesOwner request⟩
  refine h.unique (fun e k v v' hv hv' => ?_) (fun e k v v' hv hne => ?_) h'
  · have hsame := hv.symm.trans hv'
    injection hsame
  · obtain rfl : e = _ := hv
    rfl

end SyncServer.Notifications
