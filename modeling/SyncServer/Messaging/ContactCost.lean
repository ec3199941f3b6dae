import SyncServer.Guild.Admission
import SyncServer.Messaging.Contacts

/-! # What a failed contact lookup costs

`resolve_contact` counts the contact in a transaction of its own, before it reads the request. So
a lookup that fails after that has cost the user one of the contacts of the day.
-/

namespace SyncServer.Messaging
open Transaction Accounts Moderation Federation

/-! ## The requests that can be resolved -/

/-- The id of the recipient, as the handler reads it. -/
def ResolveContactCall.recipient (env : MessageEnv) (call : ResolveContactCall) : String :=
  env.outbox.names.unicode.toLowercase (trim call.recipientId)

def LocalContact (env : MessageEnv) (call : ResolveContactCall) (d : Db) : Prop :=
  ∃ id account, env.parseUuid (trim (call.recipient env)) = some id ∧
    d.users.get call.userId = some account ∧ (¬ Refused d account id call.now) ∧ d.userExists id

def RemoteContact (env : MessageEnv) (call : ResolveContactCall) (url : Url) (d : Db) : Prop :=
  ∃ id host, normalizeRemoteUserId env.outbox.names (call.recipient env) = .ok id ∧
    normalizeRemoteHost env.outbox.names (canonicalServerUrl url) = .ok host ∧
    Available env.outbox.names (federatedShadowUsername id host) call.shadow d.users

/-- The request names a recipient and a server, and the recipient is found there. -/
def Resolvable (env : MessageEnv) (call : ResolveContactCall) (d : Db) : Prop :=
  call.recipient env ≠ "" ∧
    ∃ url, normalizeServerUrl env.outbox.names call.recipientServerUrl = .ok url ∧
      if env.outbox.names.unicode.toLowercase (url.host.getD "") =
          instanceHost env.outbox.names env.outbox.instanceDomain then
        LocalContact env call d
      else RemoteContact env call url d

section
variable {env : MessageEnv} {call : ResolveContactCall} {d d' : Db}

theorem succeeds_resolveLocal {canonical : String} :
    (resolveLocal env call (call.recipient env) canonical).Succeeds d ↔
      LocalContact env call d := by
  rw [resolveLocal, Tx.succeeds_done_bind]
  unfold LocalContact parseLocalUuid
  rcases env.parseUuid (trim (call.recipient env)) with _ | id
  · simp
  simp only [Except.ok.injEq, exists_eq_left', Option.some.injEq, exists_and_left]
  rw [Tx.succeeds_bind]
  constructor
  · rintro ⟨⟨⟩, d₁, hchecks, hrest⟩
    obtain rfl := (keeps_ensureDirectMessageAllowed (π := fun d => d) _ _ _).of_run hchecks
    obtain ⟨account, haccount, hno⟩ :=
      succeeds_ensureDirectMessageAllowed.mp ⟨_, _, hchecks⟩
    obtain ⟨user, huser, -⟩ := Tx.succeeds_okOr_bind.mp (Tx.succeeds_query_bind.mp hrest)
    exact ⟨account, haccount, hno, Option.isSome_iff_exists.mpr ⟨user, huser⟩⟩
  · rintro ⟨account, haccount, hno, hexists⟩
    obtain ⟨⟨⟩, d₁, hchecks⟩ := succeeds_ensureDirectMessageAllowed.mpr ⟨account, haccount, hno⟩
    obtain rfl := (keeps_ensureDirectMessageAllowed (π := fun d => d) _ _ _).of_run hchecks
    obtain ⟨user, huser⟩ := Option.isSome_iff_exists.mp hexists
    exact ⟨(), _, hchecks, Tx.succeeds_query_bind.mpr
      (Tx.succeeds_okOr_bind.mpr ⟨user, huser, Tx.succeeds_pure _ _⟩)⟩

theorem succeeds_resolveRemote {url : Url} {targetHost : String} :
    (resolveRemote env call (call.recipient env) (canonicalServerUrl url) targetHost).Succeeds d ↔
      RemoteContact env call url d := by
  rw [resolveRemote, Tx.succeeds_bind_pure, succeeds_ensureFederatedShadowUser]
  rfl

theorem succeeds_resolveAllowed :
    (resolveAllowed env call).Succeeds d ↔ Resolvable env call d := by
  rw [resolveAllowed, Query.succeeds_require_bind, decide_eq_true_eq]
  refine and_congr_right fun _ => ?_
  rw [Tx.succeeds_done_bind]
  refine exists_congr fun url => and_congr_right fun _ => ?_
  by_cases hlocal : env.outbox.names.unicode.toLowercase (url.host.getD "") =
      instanceHost env.outbox.names env.outbox.instanceDomain
  · rw [if_pos hlocal, if_pos hlocal]
    exact succeeds_resolveLocal
  · rw [if_neg hlocal, if_neg hlocal]
    exact succeeds_resolveRemote

theorem keeps_resolveAllowed {τ : Type} {π : Db → τ} (hπ : ∀ s t, π { s with users := t } = π s)
    (env : MessageEnv) (call : ResolveContactCall) : (resolveAllowed env call).Keeps π := by
  refine Tx.keeps_bind (Tx.keeps_done _ _) (fun _ => ?_)
  refine Tx.keeps_bind (Tx.keeps_done _ _) (fun url => ?_)
  dsimp only
  split
  · refine Tx.keeps_bind (Tx.keeps_done _ _) (fun id => ?_)
    refine Tx.keeps_bind (keeps_ensureDirectMessageAllowed _ _ _) (fun _ => ?_)
    refine Tx.keeps_bind (Tx.keeps_query _ _) (fun found => ?_)
    exact Tx.keeps_bind (Tx.keeps_okOr _ _ _) (fun user => Tx.keeps_pure _ _)
  · exact Tx.keeps_bind (keeps_ensureFederatedShadowUser hπ _ _ _ _) (fun _ => Tx.keeps_pure _ _)

end

/-! ## The counter -/

/-- A request that is not answered with the contact leaves the counter of the user as it is. -/
def CostsNothing (env : MessageEnv) (call : ResolveContactCall) (s : Server) : Prop :=
  ∀ answer s', (resolveContact env call).run s = (answer, s') →
    (∀ response, answer ≠ .ok (.resolved response)) →
      ∀ day, Guild.bucket s'.db call.userId .friendAdd day =
        Guild.bucket s.db call.userId .friendAdd day

section
variable {env : MessageEnv} {call : ResolveContactCall} {s s' : Server} {d : Db}

theorem resolveContactWithGuild_limited {guild : Guild.GuildSnapshot} {retryAfterSeconds : Int}
    (h : (Guild.resolveContactWithGuild env.guild call.userId call.now call.audit).run s.db =
      (.ok (.limited guild retryAfterSeconds), d)) (key : ActionKey) (day : Int) :
    Guild.bucket d call.userId key day = Guild.bucket s.db call.userId key day := by
  obtain ⟨-, d₁, -, hframe, h⟩ := Guild.run_humanOperation_parts h
  rcases Guild.run_resolveContactChecked_ok h with ⟨-, rfl⟩ | ⟨-, -, hres, -⟩
  · exact hframe.bucket _ _ _
  · cases hres

theorem bucket_of_not_counted
    (hno : ¬ Guild.FriendAddPasses env.guild call.userId call.now call.audit s.db)
    {answer : Except AppError ResolveContactAnswer}
    (hrun : (resolveContact env call).run s = (answer, s')) (day : Int) :
    Guild.bucket s'.db call.userId .friendAdd day =
      Guild.bucket s.db call.userId .friendAdd day := by
  rcases hquota : (Guild.resolveContactWithGuild env.guild call.userId call.now call.audit).run s.db
    with ⟨e | result, d⟩
  · have hfail : (Guild.resolveContactWithGuild env.guild call.userId call.now
        call.audit).asStatement.run s.db = (.error e, s.db) :=
      (Tx.run_asStatement _ _).trans (Tx.atomically_of_error hquota)
    rw [resolveContact, Tx.run_bind_error (run_onDb_eq hfail), Prod.mk.injEq] at hrun
    rw [← hrun.2]
    rfl
  have hdb := run_onDb_eq (s := s) ((Tx.run_asStatement _ _).trans (Tx.atomically_ok hquota))
  rw [resolveContact, Tx.run_bind_ok hdb] at hrun
  cases result with
  | limited guild retryAfterSeconds =>
    cases hrun
    exact resolveContactWithGuild_limited hquota _ _
  | allowed => exact absurd (Guild.friendAddPasses_of_allowed hquota) hno

theorem resolvable_of_frame {u : Uuid} {d₁ : Db} (hframe : Guild.StatsFrame u d d₁)
    (t : Table (Uuid × ActionKey × Int) DailyActionCounter DailyActionCounter.key) :
    Resolvable env call { d₁ with dailyActionCounters := t } ↔ Resolvable env call d := by
  obtain ⟨stats, logs, rfl, -⟩ := hframe
  have hrefused : ∀ account id, Refused { d with
      userGuildStats := stats, adminAuditLogs := logs, dailyActionCounters := t } account id
        call.now ↔ Refused d account id call.now :=
    fun _ _ => ⟨Refused.congr rfl rfl rfl, Refused.congr rfl rfl rfl⟩
  unfold Resolvable LocalContact
  simp only [hrefused]
  exact Iff.rfl

theorem contact_costs_one (hvalid : ∀ r ∈ Guild.statsOf s.db call.userId, r.Valid)
    (hpasses : Guild.FriendAddPasses env.guild call.userId call.now call.audit s.db)
    (hnot : ¬ Resolvable env call s.db) :
    ∃ e s', (resolveContact env call).run s = (.error e, s') ∧
      Guild.bucket s'.db call.userId .friendAdd (dateNaive call.now) =
        Guild.bucket s.db call.userId .friendAdd (dateNaive call.now) + 1 := by
  obtain ⟨d₁, t, hquota, hframe, hcount⟩ :=
    Guild.run_resolveContactWithGuild_passes hvalid hpasses
  have hdb := run_onDb_eq (s := s) ((Tx.run_asStatement _ _).trans (Tx.atomically_ok hquota))
  have hlookup : ¬ (resolveAllowed env call).Succeeds { d₁ with dailyActionCounters := t } := by
    rwa [succeeds_resolveAllowed, resolvable_of_frame hframe]
  obtain ⟨e, d₂, hfail⟩ := Tx.not_succeeds.mp hlookup
  have hkeeps : d₂.dailyActionCounters = t :=
    (keeps_resolveAllowed (π := Db.dailyActionCounters) (fun _ _ => rfl) env call).of_run hfail
  have hanswer := run_onDb_eq (s := s.setDb { d₁ with dailyActionCounters := t }) hfail
  refine ⟨e, s.setDb d₂, ?_, ?_⟩
  · rw [resolveContact, Tx.run_bind_ok hdb]
    exact Tx.run_bind_error hanswer _
  · change Guild.bucket d₂ call.userId .friendAdd (dateNaive call.now) = _
    have hsame : d₂.dailyActionCounters =
        { d₁ with dailyActionCounters := t : Db }.dailyActionCounters := hkeeps
    rw [Guild.bucket_of_counters hsame, Guild.bucket_of_increment hcount, hframe.bucket]
    rfl

theorem contact_resolved (hvalid : ∀ r ∈ Guild.statsOf s.db call.userId, r.Valid)
    (hpasses : Guild.FriendAddPasses env.guild call.userId call.now call.audit s.db)
    (hresolvable : Resolvable env call s.db) :
    ∃ response s', (resolveContact env call).run s = (.ok (.resolved response), s') := by
  obtain ⟨d₁, t, hquota, hframe, -⟩ := Guild.run_resolveContactWithGuild_passes hvalid hpasses
  have hdb := run_onDb_eq (s := s) ((Tx.run_asStatement _ _).trans (Tx.atomically_ok hquota))
  obtain ⟨response, d₂, hlookup⟩ := succeeds_resolveAllowed.mpr
    ((resolvable_of_frame hframe t).mpr hresolvable)
  have hanswer := run_onDb_eq (s := s.setDb { d₁ with dailyActionCounters := t }) hlookup
  refine ⟨response, s.setDb d₂, ?_⟩
  rw [resolveContact, Tx.run_bind_ok hdb]
  exact Tx.run_bind_ok hanswer _

end

/-- A failed lookup costs nothing if and only if a request that is counted can be resolved. -/
theorem contact_costs_nothing_iff (env : MessageEnv) (call : ResolveContactCall) (s : Server)
    (hvalid : ∀ r ∈ Guild.statsOf s.db call.userId, r.Valid) :
    CostsNothing env call s ↔
      (Guild.FriendAddPasses env.guild call.userId call.now call.audit s.db →
        Resolvable env call s.db) := by
  constructor
  · intro h hpasses
    by_contra hnot
    obtain ⟨e, s', hrun, hcost⟩ := contact_costs_one hvalid hpasses hnot
    have hsame := h _ s' hrun (fun response => by simp) (dateNaive call.now)
    omega
  · intro h answer s' hrun hfailed day
    by_cases hpasses : Guild.FriendAddPasses env.guild call.userId call.now call.audit s.db
    · obtain ⟨response, s₁, hok⟩ := contact_resolved hvalid hpasses (h hpasses)
      rw [hok, Prod.mk.injEq] at hrun
      exact absurd hrun.1.symm (hfailed response)
    · exact bucket_of_not_counted hpasses hrun day

/-! ## Samples -/

/-- Bob is found, so that to add him costs nothing or is a success. -/
theorem contact_costs_nothing_bob :
    CostsNothing contactEnv (addBob "https://remote.example") contactServer :=
  (contact_costs_nothing_iff contactEnv (addBob "https://remote.example") contactServer
    (by decide)).mpr fun _ => ⟨by decide, ⟨"https", some "remote.example", none, some [""]⟩,
      by decide, by
        rw [if_neg (by decide)]
        exact ⟨"bob", "remote.example", by decide, by decide, .inr ⟨by decide, by decide⟩⟩⟩

/-- Alice leaves the recipient empty. -/
def addNobody : ResolveContactCall := ⟨1, " ", "https://remote.example", 1000000, 50, 51⟩

/-- A request without a recipient is an error, and costs Alice a contact. -/
theorem contact_nobody_costs_one :
    ((resolveContact contactEnv addNobody).run contactServer).1 =
        .error (.badRequest "recipient_id cannot be empty") ∧
      Guild.bucket contactServer.db 1 .friendAdd 0 = 0 ∧
      Guild.bucket ((resolveContact contactEnv addNobody).run contactServer).2.db 1 .friendAdd 0 =
        1 ∧
      ¬ CostsNothing contactEnv addNobody contactServer := by
  have herror : ((resolveContact contactEnv addNobody).run contactServer).1 =
      .error (.badRequest "recipient_id cannot be empty") := by decide +kernel
  have hcost : Guild.bucket ((resolveContact contactEnv addNobody).run contactServer).2.db 1
      .friendAdd 0 = 1 := by decide +kernel
  refine ⟨herror, by decide, hcost, fun h => ?_⟩
  have hsame : Guild.bucket ((resolveContact contactEnv addNobody).run contactServer).2.db 1
      .friendAdd 0 = Guild.bucket contactServer.db 1 .friendAdd 0 :=
    h _ _ (Prod.ext herror rfl) (fun response => by simp) 0
  rw [hcost] at hsame
  revert hsame
  decide

end SyncServer.Messaging
