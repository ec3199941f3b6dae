import SyncServer.Guild.Operations
import SyncServer.Stickers.Service

/-! # The part of the database that a day works on

Human operations read no score events and no counters of earlier days. Every
statement of theirs works on the rest of the database, statement by statement.
-/

namespace SyncServer.Guild
open Transaction

/-! ## The protected part -/

/-- All that the operations of a day work on: everything but the score events and the
counters of earlier days. -/
def quotaPart (day : Int) (s : Db) :
    Db × Table (Uuid × ActionKey × Int) DailyActionCounter DailyActionCounter.key :=
  (outsideGuild s, s.dailyActionCounters.filter (fun r => decide (day ≤ r.dayBucket)))

theorem eq_of_outsideGuild {d d' : Db} (h : outsideGuild d = outsideGuild d') :
    ∃ c e, d' = { d with dailyActionCounters := c, guildScoreEvents := e } := by
  have := congrArg (fun s : Db => { s with
    dailyActionCounters := d'.dailyActionCounters
    guildScoreEvents := d'.guildScoreEvents }) h
  exact ⟨d'.dailyActionCounters, d'.guildScoreEvents, this.symm⟩

theorem blind_query {α : Type} {q : Db → α}
    (h : ∀ d c e, q { d with dailyActionCounters := c, guildScoreEvents := e } = q d) :
    (Tx.query q : Query α).Local outsideGuild := by
  refine Tx.local_query (fun d d' hd => ?_)
  obtain ⟨c, e, rfl⟩ := eq_of_outsideGuild hd
  exact (h d c e).symm

theorem blind_exec {α : Type} {locks : Db → List RowLock} {f : Db → Except DbError (α × Db)}
    (h : ∀ d c e, (f { d with dailyActionCounters := c, guildScoreEvents := e }).map
      (Prod.map id outsideGuild) = (f d).map (Prod.map id outsideGuild)) :
    (Query.exec locks f).Local outsideGuild := by
  refine Query.local_exec (fun d d' hd => ?_)
  obtain ⟨c, e, rfl⟩ := eq_of_outsideGuild hd
  exact (h d c e).symm

theorem blind_updateStats (u : Uuid) (f : UserGuildStats → UserGuildStats)
    (hf : ∀ r, (f r).userId = r.userId) : (updateStats u f hf).Local outsideGuild := by
  refine blind_exec (fun d c e => ?_)
  dsimp only
  split
  · rfl
  · split <;> rfl

theorem blind_insertAuditLog (row : AdminAuditLog) : (insertAuditLog row).Local outsideGuild := by
  refine blind_exec (fun d c e => ?_)
  dsimp only
  split
  · rfl
  · simp only [apply_ite (Except.map (Prod.map id outsideGuild))]
    exact if_congr Iff.rfl rfl rfl

theorem blind_insertMessageConn (m : NewMessage) : (insertMessageConn m).Local outsideGuild := by
  refine blind_exec (fun d c e => ?_)
  dsimp only
  split
  · rfl
  · simp only [apply_ite (Except.map (Prod.map id outsideGuild))]
    exact if_congr Iff.rfl rfl rfl

theorem blind_insertStats (row : UserGuildStats) : (insertStats row).Local outsideGuild := by
  refine blind_exec (fun d c e => ?_)
  dsimp only
  split
  · rfl
  · split
    · rfl
    · simp only [apply_ite (Except.map (Prod.map id outsideGuild))]
      exact if_congr Iff.rfl rfl rfl

theorem blind_insertSticker (row : Sticker) : (Stickers.insertSticker row).Local outsideGuild := by
  refine blind_exec (fun d c e => ?_)
  dsimp only
  split
  · rfl
  split
  · rfl
  split
  · rfl
  · simp only [apply_ite (Except.map (Prod.map id outsideGuild))]
    exact if_congr Iff.rfl rfl rfl

theorem blind_uploadStickerConn (decode : String → Option (List UInt8)) (uploader : Uuid)
    (role : String) (input : Stickers.UploadStickerInput) (id : Uuid) :
    (Stickers.uploadStickerConn decode uploader role input id).Local outsideGuild := by
  refine Tx.local_bind trivial (fun size => ?_)
  refine Tx.local_bind (blind_query (fun _ _ _ => rfl)) (fun existing => ?_)
  split
  · trivial
  refine Tx.local_bind (blind_query (fun _ _ _ => rfl)) (fun used => ?_)
  split
  · trivial
  refine Tx.local_bind (blind_insertSticker _) (fun _ => ?_)
  exact Tx.local_bind (blind_query (fun _ _ _ => rfl)) (fun saved => Tx.local_okOr _ _ saved)

section
-- an upload is taken as it is stated, without running it
attribute [local irreducible] Tx.Writes Tx.Local

def stickerUpload (decode : String → Option (List UInt8)) (uploader : Uuid) (role : String)
    (input : Stickers.UploadStickerInput) (id : Uuid) : AttachmentOperation where
  Value := Sticker
  program := Stickers.uploadStickerConn decode uploader role input id
  keeps := Stickers.keeps_uploadStickerConn (fun _ _ => rfl) _ _ _ _ _
  keepsCounters := Stickers.keeps_uploadStickerConn (fun _ _ => rfl) _ _ _ _ _
  keepsEvents := Stickers.keeps_uploadStickerConn (fun _ _ => rfl) _ _ _ _ _
  blind := blind_uploadStickerConn _ _ _ _ _

end

theorem local_of_blind {α : Type} {t : Query α} (hblind : t.Local outsideGuild)
    (hkeeps : t.Keeps Db.dailyActionCounters) (day : Int) : t.Local (quotaPart day) :=
  Tx.local_beside hblind hkeeps (fun c => c.filter (fun r => decide (day ≤ r.dayBucket)))

/-! ## Counting -/

/-- The count of an action of a user on a day. -/
def bucket (s : Db) (u : Uuid) (key : ActionKey) (day : Int) : Int :=
  ((s.dailyActionCounters.get (u, key, day)).map DailyActionCounter.count).getD 0

theorem get_counter_filter (s : Db) (u : Uuid) (key : ActionKey) (day : Int) :
    (s.dailyActionCounters.filter (fun r => decide (day ≤ r.dayBucket))).get (u, key, day) =
      s.dailyActionCounters.get (u, key, day) := by
  refine Table.get_filter_of_key _ (fun r hr => ?_)
  have hday : r.dayBucket = day := congrArg (fun k => k.2.2) hr
  simp [hday]

theorem counter_congr {d d' : Db} {day : Int} (h : quotaPart day d = quotaPart day d') (u : Uuid)
    (key : ActionKey) :
    d.dailyActionCounters.get (u, key, day) = d'.dailyActionCounters.get (u, key, day) := by
  rw [← get_counter_filter d, ← get_counter_filter d']
  exact congrArg (fun x => x.2.get (u, key, day)) h

theorem bucket_congr {d d' : Db} {day : Int} (h : quotaPart day d = quotaPart day d') (u : Uuid)
    (key : ActionKey) : bucket d u key day = bucket d' u key day := by
  rw [bucket, bucket, counter_congr h]

theorem local_dailyActionCount (u : Uuid) (key : ActionKey) (day : Int) :
    (dailyActionCount u key day).Local (quotaPart day) :=
  Tx.local_query (fun _ _ h => bucket_congr h u key)

theorem local_incrementDailyCounter (u : Uuid) (key : ActionKey) (day : Int) :
    (incrementDailyCounter u key day).Local (quotaPart day) := by
  refine Query.local_exec (fun d d' h => ?_)
  have hget := counter_congr h u key
  have hfilter : d.dailyActionCounters.filter (fun r => decide (day ≤ r.dayBucket)) =
      d'.dailyActionCounters.filter (fun r => decide (day ≤ r.dayBucket)) := congrArg Prod.snd h
  obtain ⟨c, e, rfl⟩ := eq_of_outsideGuild (congrArg Prod.fst h)
  dsimp only at hget hfilter
  rcases ht : d.dailyActionCounters.insert ⟨u, key, day, 1⟩ with _ | t
  · have ht' : c.insert ⟨u, key, day, 1⟩ = none := by
      rw [Table.insert_eq_none] at ht ⊢
      exact hget ▸ ht
    have hupdate : (d.dailyActionCounters.update (u, key, day) incremented incremented_key).filter
        (fun r => decide (day ≤ r.dayBucket)) =
        (c.update (u, key, day) incremented incremented_key).filter
          (fun r => decide (day ≤ r.dayBucket)) := by
      rw [Table.filter_update, hfilter, Table.filter_update] <;>
      · intro r
        rfl
    simp only [ht', apply_ite (Except.map (Prod.map id (quotaPart day))), Table.get_update_self, hget]
    refine if_congr Iff.rfl ?_ rfl
    simp only [Except.map, Prod.map, id_eq, quotaPart, outsideGuild, hupdate]
  · rcases ht' : c.insert ⟨u, key, day, 1⟩ with _ | t'
    · have hnone : d.dailyActionCounters.insert ⟨u, key, day, 1⟩ = none := by
        rw [Table.insert_eq_none] at ht' ⊢
        exact hget ▸ ht'
      simp [hnone] at ht
    have hrows : t.filter (fun r => decide (day ≤ r.dayBucket)) =
        t'.filter (fun r => decide (day ≤ r.dayBucket)) := by
      apply Table.ext
      rw [Table.filter_insert ht (by simp), Table.filter_insert ht' (by simp), hfilter]
    simp only [apply_ite (Except.map (Prod.map id (quotaPart day)))]
    refine if_congr Iff.rfl ?_ rfl
    simp only [Except.map, Prod.map, id_eq, quotaPart, outsideGuild, hrows]

theorem bucket_of_counters {d d' : Db} (h : d'.dailyActionCounters = d.dailyActionCounters) (u : Uuid)
    (key : ActionKey) (day : Int) : bucket d' u key day = bucket d u key day := by
  rw [bucket, bucket, h]

/-- An increment adds one to its own counter. -/
theorem bucket_of_increment {u : Uuid} {key : ActionKey} {day : Int} {d d' : Db}
    (h : (incrementDailyCounter u key day).run d = (.ok (), d')) (key' : ActionKey) :
    bucket d' u key' day = bucket d u key' day + if some key = some key' then 1 else 0 := by
  have hf := Query.run_exec_ok.mp h
  rcases ht : d.dailyActionCounters.insert ⟨u, key, day, 1⟩ with _ | t
  · rw [ht] at hf
    dsimp only at hf
    split at hf <;> cases hf
    have hsome := Table.insert_eq_none.mp ht
    by_cases hk : key = key'
    · subst hk
      obtain ⟨r, hr⟩ := Option.isSome_iff_exists.mp hsome
      change d.dailyActionCounters.get (u, key, day) = some r at hr
      simp [bucket, hr, incremented]
    · have hne : (u, key', day) ≠ (u, key, day) := by
        intro he
        exact hk (Prod.mk.inj (Prod.mk.inj he).2).1.symm
      simp only [bucket, Table.get_update_of_ne _ _ _ hne, Option.some.injEq, hk, if_false,
        Int.add_zero]
  · rw [ht] at hf
    dsimp only at hf
    split at hf <;> cases hf
    have hnone : d.dailyActionCounters.get (u, key, day) = none := Table.get_eq_none_of_insert ht
    simp only [bucket, Table.get_of_insert ht]
    by_cases hk : key = key'
    · subst hk
      simp [DailyActionCounter.key, hnone]
    · simp [DailyActionCounter.key, hk]

end SyncServer.Guild
