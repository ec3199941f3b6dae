import SyncServer.Guild.Operations

/-! # What is stored of a policy

A policy is normalized before it is stored, and again each time it is loaded; a stored value
that does not pass is replaced by the built-in policy without a word. The second
normalization changes nothing, so an accepted policy is read back as it was stored.
-/

namespace SyncServer.Guild
open Transaction

/-- `read_guild_policy`. -/
def readGuildPolicy (env : Env) : Query GuildPolicyConfig := do
  let policy ← loadGuildPolicyConn env
  pure policy.toGuildPolicyConfig

/-! ## Normalizing twice -/

theorem twice_lowercase {unicode : Unicode} (laws : unicode.LowercaseLaws) (s : String) :
    unicode.toLowercase (trim (unicode.toLowercase (trim s))) = unicode.toLowercase (trim s) := by
  rw [laws.ends _ (trim_trim s), laws.idem]

theorem arranged_arranged {unicode : Unicode} (laws : unicode.LowercaseLaws)
    (p : GuildPolicyConfig) : (p.arranged unicode).arranged unicode = p.arranged unicode := by
  have hsafe : ∀ v ∈ (p.arranged unicode).safeAttachmentTypes,
      unicode.toLowercase (trim v) = v ∧ v ≠ "" := by
    intro v hv
    obtain ⟨hv, hne⟩ := List.mem_filter.mp (mem_sortedSet.mp hv)
    obtain ⟨w, -, rfl⟩ := List.mem_map.mp hv
    exact ⟨twice_lowercase laws w, by simpa using hne⟩
  have hmap : (p.arranged unicode).safeAttachmentTypes.map
      (fun v => unicode.toLowercase (trim v)) = (p.arranged unicode).safeAttachmentTypes :=
    (List.map_congr_left (fun v hv => (hsafe v hv).1)).trans (List.map_id' _)
  have hfilter : (p.arranged unicode).safeAttachmentTypes.filter (· ≠ "") =
      (p.arranged unicode).safeAttachmentTypes :=
    List.filter_eq_self.mpr (fun v hv => by simpa using (hsafe v hv).2)
  have hset : sortedSet (p.arranged unicode).safeAttachmentTypes =
      (p.arranged unicode).safeAttachmentTypes := sortedSet_eq_self (pairwise_sortedSet _)
  have hlevels := (List.pairwise_insertionSort
    (fun a b : LevelPolicy => a.minActiveDays ≤ b.minActiveDays) p.levelPolicies).insertionSort_eq
  have hranks := (List.pairwise_insertionSort
    (fun a b : RankPolicy => a.minScore ≤ b.minScore) p.rankPolicies).insertionSort_eq
  rw [GuildPolicyConfig.arranged, hmap, hfilter, hset]
  simp only [GuildPolicyConfig.arranged, hlevels, hranks]

theorem normalizeGuildPolicy_idem {unicode : Unicode} (laws : unicode.LowercaseLaws)
    {policy n : GuildPolicyConfig} (h : normalizeGuildPolicy unicode policy = .ok n) :
    normalizeGuildPolicy unicode n = .ok n := by
  obtain ⟨hn, hpass⟩ := normalizeGuildPolicy_eq_ok.mp h
  have harranged : n.arranged unicode = n := by
    rw [hn]
    exact arranged_arranged laws policy
  rw [normalizeGuildPolicy_eq_ok, harranged, hn]
  exact ⟨rfl, hpass⟩

/-! ## Loading what was saved -/

theorem policyOfSetting_normalized {unicode : Unicode} {codec : PolicyCodec} {raw : String}
    {n : GuildPolicyConfig} (hraw : codec.decode raw = some n)
    (hn : normalizeGuildPolicy unicode n = .ok n) :
    (policyOfSetting unicode codec (some raw)).toGuildPolicyConfig = n := by
  unfold policyOfSetting
  simp only [hraw]
  split
  · rename_i p hp
    exact Except.ok.inj (hp.symm.trans hn)
  · rename_i e he
    cases he.symm.trans hn

theorem run_setSetting (key : String) {value : String} (htext : isText value = true) (s : Db) :
    ∃ t, (setSetting key value).run s = (.ok (), { s with adminSettings := t }) ∧
      ∀ k, (t.get k).map AdminSetting.value =
        if k = key then some value else (s.adminSettings.get k).map AdminSetting.value := by
  rcases hins : s.adminSettings.insert ⟨key, value⟩ with _ | t
  · refine ⟨_, Query.run_exec_ok.mpr (by simp only [htext, hins]; rfl), fun k => ?_⟩
    by_cases hk : k = key
    · obtain ⟨r, hr⟩ := Option.isSome_iff_exists.mp (Table.insert_eq_none.mp hins)
      rw [hk, if_pos rfl, Table.get_update_self, hr]
      rfl
    · rw [if_neg hk, Table.get_update_of_ne _ _ _ hk]
  · refine ⟨t, Query.run_exec_ok.mpr (by simp only [htext, hins]; rfl), fun k => ?_⟩
    rw [Table.get_of_insert hins]
    by_cases hk : k = key
    · simp [hk]
    · simp [hk, Ne.symm hk]

/-- A policy that is accepted is normalized once and for all, and what is loaded after it was
saved is the normalized policy, whatever the settings were before. -/
theorem policy_round_trip (env : Env) (laws : env.unicode.LowercaseLaws)
    {policy n : GuildPolicyConfig} (h : normalizeGuildPolicy env.unicode policy = .ok n)
    (hcodec : env.codec.decode (env.codec.encode n) = some n) :
    normalizeGuildPolicy env.unicode n = .ok n ∧
      ∀ s, ((saveGuildPolicy env policy).run s).1 = .ok n ∧
        ((readGuildPolicy env).run ((saveGuildPolicy env policy).run s).2).1 = .ok n := by
  have hn := normalizeGuildPolicy_idem laws h
  refine ⟨hn, fun s => ?_⟩
  obtain ⟨t, hset, hvalue⟩ := run_setSetting guildPolicyKey (env.codec.encode_isText n) s
  have hsave : (saveGuildPolicy env policy).run s = (.ok n, { s with adminSettings := t }) := by
    simp only [saveGuildPolicy, h]
    rw [Tx.run_bind_ok hset]
    rfl
  have hread : (policyOf env { s with adminSettings := t }).toGuildPolicyConfig = n := by
    rw [policyOf, hvalue, if_pos rfl]
    exact policyOfSetting_normalized hcodec hn
  rw [hsave]
  exact ⟨rfl, congrArg Except.ok hread⟩

/-! ## A policy that is stored in another order -/

/-- One level for everybody, and ranks and attachment types out of order. -/
def unsortedPolicy : GuildPolicyConfig where
  enforcement := ⟨true, true, true, true, true⟩
  dailyCounterRetentionDays := 45
  scoreEventRetentionDays := 180
  levelPolicies := [⟨1, 0, none, some 50, none, none⟩]
  rankPolicies :=
    [⟨"E", 100, none, none, none, none, true⟩, ⟨"F", 0, some 99, none, none, none, false⟩]
  communityUpvoteDailyCap := 100
  safeAttachmentTypes := ["text/plain", " Image/PNG", "image/png"]

/-- What is stored of it. -/
def sortedPolicy : GuildPolicyConfig :=
  { unsortedPolicy with
    rankPolicies :=
      [⟨"F", 0, some 99, none, none, none, false⟩, ⟨"E", 100, none, none, none, none, true⟩]
    safeAttachmentTypes := ["image/png", "text/plain"] }

def sortedPolicyText : String :=
  String.join [
    "\x7b\"enforcement\":\x7b\"enabled\":true,\"outbound_messages_enabled\":true,",
    "\"friend_adds_enabled\":true,\"attachment_sends_enabled\":true,",
    "\"rank_engine_enabled\":true\x7d,\"daily_counter_retention_days\":45,",
    "\"score_event_retention_days\":180,\"level_policies\":[\x7b\"level\":1,",
    "\"min_active_days\":0,\"max_active_days\":null,\"daily_outbound_messages_limit\":50,",
    "\"daily_friend_add_limit\":null,\"daily_attachment_send_limit\":null\x7d],",
    "\"rank_policies\":[\x7b\"rank\":\"F\",\"min_score\":0,\"max_score\":99,",
    "\"daily_outbound_messages_limit_multiplier_percent\":null,",
    "\"daily_friend_add_limit_multiplier_percent\":null,",
    "\"daily_attachment_send_limit_multiplier_percent\":null,",
    "\"overrides_level_limits\":false\x7d,\x7b\"rank\":\"E\",\"min_score\":100,",
    "\"max_score\":null,\"daily_outbound_messages_limit_multiplier_percent\":null,",
    "\"daily_friend_add_limit_multiplier_percent\":null,",
    "\"daily_attachment_send_limit_multiplier_percent\":null,",
    "\"overrides_level_limits\":true\x7d],\"community_upvote_daily_cap\":100,",
    "\"safe_attachment_types\":[\"image/png\",\"text/plain\"]\x7d"]

/-- A literal is made of its characters. -/
theorem isText_ofList {l : List Char} (h : l.all (fun c => c.toNat ≠ 0) = true) :
    isText (String.ofList l) = true := by
  rw [isText, String.toList_ofList]
  exact h

theorem isText_join {parts : List String} (h : ∀ part ∈ parts, isText part = true) :
    isText (String.join parts) = true := by
  rw [isText, String.toList_join, List.all_flatMap]
  exact List.all_eq_true.mpr h

def policyStoreText (config : GuildPolicyConfig) : String :=
  if config = sortedPolicy then sortedPolicyText else ""

theorem sortedPolicyText_isText : isText sortedPolicyText = true := by
  apply isText_join
  repeat refine List.forall_mem_cons.mpr ⟨isText_ofList (by decide), ?_⟩
  exact List.forall_mem_nil _

theorem policyStoreText_isText (config : GuildPolicyConfig) :
    isText (policyStoreText config) = true := by
  rw [policyStoreText, apply_ite isText, sortedPolicyText_isText, isText_empty, ite_self]

def policyStoreEnv : Env where
  unicode := .ascii
  codec := {
    encode := policyStoreText
    decode := fun raw => if raw = sortedPolicyText then some sortedPolicy else none
    encode_isText := policyStoreText_isText }

theorem policy_round_trip_unsorted :
    normalizeGuildPolicy .ascii sortedPolicy = .ok sortedPolicy ∧
      ∀ s, ((saveGuildPolicy policyStoreEnv unsortedPolicy).run s).1 = .ok sortedPolicy ∧
        ((readGuildPolicy policyStoreEnv).run
          ((saveGuildPolicy policyStoreEnv unsortedPolicy).run s).2).1 = .ok sortedPolicy :=
  policy_round_trip policyStoreEnv Unicode.lowercaseLaws_ascii
    (normalizeGuildPolicy_eq_ok.mpr ⟨by decide, by decide, rfl, by decide, rfl, by decide,
      by decide, by decide⟩) (by simp [policyStoreEnv, policyStoreText])

end SyncServer.Guild
