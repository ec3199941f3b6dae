import SyncServer.Rooms.Effects

/-! # Access control of rooms

Who may do what in a room, who becomes a member and who stops being one, and that an operation on
one room leaves all others alone.
-/

namespace SyncServer.Rooms
open Transaction Moderation Messaging

def RoomOp.Allowed (s : Db) : RoomOp → Prop
  | createRoom .. => True
  | renameRoom roomId ownerId _ => IsMember s roomId ownerId ∧ IsCreator s roomId ownerId
  | addRoomMembers roomId ownerId _ _ => IsMember s roomId ownerId ∧ IsCreator s roomId ownerId
  | removeRoomMember roomId ownerId _ => IsMember s roomId ownerId ∧ IsCreator s roomId ownerId
  | deleteRoom roomId userId => IsCreator s roomId userId
  | op => IsMember s op.roomId op.actor

/-- The steps through which `u` may become a member of room `r`. -/
inductive Admits (s : Db) (r u : Uuid) : RoomStep → Prop where
  | created (creatorId : Uuid) (name : String) (memberIds : List Uuid) (now : Int)
      (hu : u = creatorId ∨ u ∈ memberIds) :
      Admits s r u (.room (.createRoom creatorId name memberIds r now))
  | added (ownerId : Uuid) (memberIds : List Uuid) (now : Int) (hc : IsCreator s r ownerId)
      (hu : u ∈ memberIds) : Admits s r u (.room (.addRoomMembers r ownerId memberIds now))

/-- The steps through which `u` may stop being a member of room `r`. -/
inductive Dismisses (s : Db) (r u : Uuid) : RoomStep → Prop where
  | removed (ownerId : Uuid) (hc : IsCreator s r ownerId) (hne : u ≠ ownerId) :
      Dismisses s r u (.room (.removeRoomMember r ownerId u))
  | left : Dismisses s r u (.room (.leaveRoom r u))
  | deleted (ownerId : Uuid) (hc : IsCreator s r ownerId) :
      Dismisses s r u (.room (.deleteRoom r ownerId))
  | deletedUser : Dismisses s r u (.deleteUser u)
  | deletedCreator (creatorId : Uuid) (hc : IsCreator s r creatorId) :
      Dismisses s r u (.deleteUser creatorId)

/-- Two databases have the same room `r`, with its members and messages. -/
structure SameRoom (s s' : Db) (r : Uuid) : Prop where
  room : s'.rooms.get r = s.rooms.get r
  members : membershipsIn s' r = membershipsIn s r
  messages : s'.roomMessages.filter (fun m => decide (m.roomId = r)) =
    s.roomMessages.filter (fun m => decide (m.roomId = r))

/-- What access control promises of a step. -/
structure Controlled (unicode : Unicode) (s : Db) (step : RoomStep) : Prop where
  allowed : ∀ op, step = .room op → op.Succeeds unicode s → op.Allowed s
  admits : ∀ r u, ¬ IsMember s r u → IsMember (step.apply unicode s) r u → Admits s r u step
  dismisses : ∀ r u, IsMember s r u → ¬ IsMember (step.apply unicode s) r u → Dismisses s r u step
  creatorStays : ∀ r ownerId creatorId, IsCreator s r creatorId →
    ¬ (RoomOp.removeRoomMember r ownerId creatorId).Succeeds unicode s
  frame : ∀ op, step = .room op → ∀ r, r ≠ op.roomId → SameRoom s (step.apply unicode s) r

/-! ## Members after a change -/

section
variable {s : Db} {r u : Uuid}

theorem IsCreator.unique {v : Uuid} (hu : IsCreator s r u) (hv : IsCreator s r v) : u = v := by
  obtain ⟨room, hroom, rfl⟩ := hu
  obtain ⟨room', hroom', rfl⟩ := hv
  rw [hroom, Option.some.injEq] at hroom'
  rw [hroom']

theorem createdRoom_iff : Accounts.createdRoom s u r = true ↔ IsCreator s r u := by
  simp [Accounts.createdRoom, IsCreator, Option.any_eq_true]

theorem isMember_append {t : Table (Uuid × Uuid) RoomMember RoomMember.key} {l : List RoomMember}
    (h : t.rows = s.roomMembers.rows ++ l) (rooms : Table Uuid Room Room.id) :
    IsMember { s with rooms := rooms, roomMembers := t } r u ↔
      IsMember s r u ∨ ∃ m ∈ l, m.key = (r, u) := by
  rw [IsMember, Table.get_append h, Option.isSome_or, Bool.or_eq_true, List.find?_isSome]
  simp [IsMember]

@[simp] theorem isMember_withReader (roomId userId : Uuid) (now : Int) :
    IsMember (withReader roomId userId now s) r u ↔ IsMember s r u := by
  rw [IsMember, withReader, Table.isSome_get_update, IsMember]

@[simp] theorem isMember_withRoomMessage (new : NewRoomMessage)
    (t : Table Uuid RoomMessage RoomMessage.id) :
    IsMember (withRoomMessage new t s) r u ↔ IsMember s r u := by
  rw [IsMember, withRoomMessage, Table.isSome_get_update, IsMember]

theorem isMember_withoutMember (roomId userId : Uuid) :
    IsMember (withoutMember roomId userId s) r u ↔
      IsMember s r u ∧ (r, u) ≠ (roomId, userId) := by
  have hget : (withoutMember roomId userId s).roomMembers.get (r, u) = _ :=
    s.roomMembers.get_filter_key (fun k => decide (k ≠ (roomId, userId))) (r, u)
  rw [IsMember, hget, IsMember]
  by_cases h : (r, u) = (roomId, userId) <;> simp [h]

theorem isMember_withoutRoom (roomId : Uuid) :
    IsMember (withoutRoom roomId s) r u ↔ IsMember s r u ∧ r ≠ roomId := by
  have hget : (withoutRoom roomId s).roomMembers.get (r, u) = _ :=
    s.roomMembers.get_filter_key (fun k => decide (k.1 ≠ roomId)) (r, u)
  rw [IsMember, hget, IsMember]
  by_cases h : r = roomId <;> simp [h]

theorem isMember_withoutUser (userId : Uuid) :
    IsMember (Accounts.withoutUser userId s) r u ↔
      IsMember s r u ∧ u ≠ userId ∧ ¬ IsCreator s r userId := by
  have hget : (Accounts.withoutUser userId s).roomMembers.get (r, u) = _ :=
    s.roomMembers.get_filter_key
      (fun k => decide (k.2 ≠ userId) && !Accounts.createdRoom s userId k.1) (r, u)
  rw [IsMember, hget, IsMember, ← createdRoom_iff]
  by_cases h : u = userId <;> by_cases hc : Accounts.createdRoom s userId r <;> simp [h, hc]

theorem mem_firstMembers {m : RoomMember} {roomId creatorId : Uuid} {memberIds : List Uuid}
    {now : Int} : m ∈ firstMembers roomId creatorId memberIds now ↔
      ∃ id ∈ memberIds, m = ⟨roomId, id, if id = creatorId then "owner" else "member", some now⟩ := by
  simp [firstMembers, eq_comm]

theorem mem_addedMembers {m : RoomMember} {roomId : Uuid} {memberIds : List Uuid} {now : Int} :
    m ∈ addedMembers roomId memberIds now ↔ ∃ id ∈ memberIds, m = ⟨roomId, id, "member", some now⟩ := by
  simp [addedMembers, eq_comm]

theorem mem_btreeSet {ids : List Uuid} : u ∈ btreeSet ids ↔ u ∈ ids := by
  rw [btreeSet, List.mem_insertionSort, List.mem_dedup]

theorem mem_normalizeMemberIds {creatorId : Uuid} {memberIds : List Uuid} :
    u ∈ normalizeMemberIds creatorId memberIds ↔ u = creatorId ∨ u ∈ memberIds := by
  rw [normalizeMemberIds, mem_btreeSet, List.mem_cons]

/-! ## One step -/

variable {unicode : Unicode} {s' : Db} {op : RoomOp}

theorem RoomEffect.allowed (h : RoomEffect s op s') : op.Allowed s := by
  cases h with
  | created => trivial
  | shown _ _ h | listed _ _ _ _ h | sent _ _ h | marked _ _ _ h | named _ _ h => exact h
  | kept _ _ _ h hc | renamed _ _ _ _ h hc | added _ _ _ _ _ _ h hc | removed _ _ _ h hc =>
    exact ⟨h, hc⟩
  | left _ _ h | emptied _ _ h => exact h
  | deleted _ _ hc => exact hc

theorem RoomEffect.admits (h : RoomEffect s op s') (hout : ¬ IsMember s r u)
    (hin : IsMember s' r u) : Admits s r u (.room op) := by
  cases h with
  | created creatorId name memberIds roomId now roomName t t' hroom hmembers =>
    obtain ⟨m, hm, hkey⟩ := ((isMember_append hmembers t).mp hin).resolve_left hout
    obtain ⟨id, hid, rfl⟩ := mem_firstMembers.mp hm
    obtain ⟨rfl, rfl⟩ := Prod.mk.inj hkey
    exact .created creatorId name memberIds now (mem_normalizeMemberIds.mp hid)
  | added roomId ownerId memberIds now new t h hc hnew hmembers =>
    obtain ⟨m, hm, hkey⟩ := ((isMember_append hmembers s.rooms).mp hin).resolve_left hout
    obtain ⟨id, hid, rfl⟩ := mem_addedMembers.mp hm
    obtain ⟨rfl, rfl⟩ := Prod.mk.inj hkey
    exact .added ownerId memberIds now hc (hnew id hid)
  | shown | kept | renamed | listed | named => exact absurd hin hout
  | sent => exact absurd ((isMember_withRoomMessage _ _).mp hin) hout
  | marked => exact absurd ((isMember_withReader _ _ _).mp hin) hout
  | removed | left => exact absurd ((isMember_withoutMember _ _).mp hin).1 hout
  | emptied | deleted => exact absurd ((isMember_withoutRoom _).mp hin).1 hout

theorem membershipsIn_eq_nil : membershipsIn s r = [] ↔ ∀ u, ¬ IsMember s r u := by
  constructor
  · intro h u hu
    obtain ⟨m, hm⟩ := Option.isSome_iff_exists.mp hu
    obtain ⟨hrow, hkey⟩ := Table.get_eq_some.mp hm
    have hmem : m ∈ membershipsIn s r :=
      List.mem_filter.mpr ⟨hrow, decide_eq_true (Prod.mk.inj hkey).1⟩
    simp [h] at hmem
  · intro h
    refine List.filter_eq_nil_iff.mpr (fun m hm hroom => h m.userId ?_)
    have hkey : m.key = (r, m.userId) := congrArg (·, m.userId) (of_decide_eq_true hroom)
    exact Option.isSome_iff_exists.mpr ⟨m, Table.get_eq_some.mpr ⟨hm, hkey⟩⟩

theorem eq_of_membershipsIn_eq_nil {roomId userId : Uuid}
    (h : membershipsIn (withoutMember roomId userId s) roomId = []) (hu : IsMember s roomId u) :
    u = userId := by
  by_contra hne
  exact membershipsIn_eq_nil.mp h u ((isMember_withoutMember _ _).mpr ⟨hu, by simp [hne]⟩)

theorem RoomEffect.dismisses (h : RoomEffect s op s') (hin : IsMember s r u)
    (hout : ¬ IsMember s' r u) : Dismisses s r u (.room op) := by
  cases h with
  | created creatorId name memberIds roomId now roomName t t' hroom hmembers =>
    exact absurd ((isMember_append hmembers t).mpr (.inl hin)) hout
  | added roomId ownerId memberIds now new t h hc hnew hmembers =>
    exact absurd ((isMember_append hmembers s.rooms).mpr (.inl hin)) hout
  | shown | kept | renamed | listed | named => exact absurd hin hout
  | sent => exact absurd ((isMember_withRoomMessage _ _).mpr hin) hout
  | marked => exact absurd ((isMember_withReader _ _ _).mpr hin) hout
  | removed roomId ownerId memberId h hc hne =>
    simp only [isMember_withoutMember, hin, true_and, not_not] at hout
    obtain ⟨rfl, rfl⟩ := Prod.mk.inj hout
    exact .removed ownerId hc hne
  | left roomId userId =>
    simp only [isMember_withoutMember, hin, true_and, not_not] at hout
    obtain ⟨rfl, rfl⟩ := Prod.mk.inj hout
    exact .left
  | emptied roomId userId h hrest =>
    simp only [isMember_withoutRoom, hin, true_and, not_not] at hout
    subst hout
    exact eq_of_membershipsIn_eq_nil hrest hin ▸ .left
  | deleted roomId userId hc =>
    simp only [isMember_withoutRoom, hin, true_and, not_not] at hout
    subst hout
    exact .deleted userId hc

/-! ## Other rooms -/

theorem SameRoom.refl (s : Db) (r : Uuid) : SameRoom s s r := ⟨rfl, rfl, rfl⟩

theorem membershipsIn_withReader {roomId : Uuid} (userId : Uuid) (now : Int) (h : r ≠ roomId) :
    membershipsIn (withReader roomId userId now s) r = membershipsIn s r := by
  refine congrArg Table.rows (s.roomMembers.filter_update_of_not (roomId, userId) (readAt now)
    (readAt_key now) (fun m hm => ?_))
  have hroom : m.roomId = roomId := (Prod.mk.inj hm).1
  simp [readAt, hroom, h.symm]

theorem membershipsIn_append {t : Table (Uuid × Uuid) RoomMember RoomMember.key}
    {l : List RoomMember} (h : t.rows = s.roomMembers.rows ++ l)
    (hl : ∀ m ∈ l, m.roomId ≠ r) (rooms : Table Uuid Room Room.id) :
    membershipsIn { s with rooms := rooms, roomMembers := t } r = membershipsIn s r :=
  congrArg Table.rows (Table.filter_append_of_not h (fun m hm => by simpa using hl m hm))

theorem sameRoom_withoutRoom {roomId : Uuid} (h : r ≠ roomId) :
    SameRoom s (withoutRoom roomId s) r where
  room := (s.rooms.get_filter_key (fun k => decide (k ≠ roomId)) r).trans (by simp [h])
  members := by
    refine congrArg Table.rows (s.roomMembers.filter_filter_of_imp (fun m _ hm => ?_))
    rw [decide_eq_true_iff] at hm ⊢
    exact hm.trans_ne h
  messages := by
    refine s.roomMessages.filter_filter_of_imp (fun m _ hm => ?_)
    rw [decide_eq_true_iff] at hm ⊢
    exact hm.trans_ne h

theorem sameRoom_withoutMember {roomId : Uuid} (userId : Uuid) (h : r ≠ roomId) :
    SameRoom s (withoutMember roomId userId s) r where
  room := rfl
  members := by
    refine congrArg Table.rows (s.roomMembers.filter_filter_of_imp (fun m _ hm => ?_))
    rw [decide_eq_true_iff] at hm ⊢
    exact fun hkey => h (hm.symm.trans (Prod.mk.inj hkey).1)
  messages := rfl

theorem RoomEffect.sameRoom (h : RoomEffect s op s') (hr : r ≠ op.roomId) : SameRoom s s' r := by
  cases h with
  | created creatorId name memberIds roomId now roomName t t' hroom hmembers =>
    refine ⟨?_, membershipsIn_append hmembers (fun m hm => ?_) t, rfl⟩
    · exact (Table.get_of_insert hroom r).trans (if_neg (Ne.symm hr))
    · obtain ⟨id, -, rfl⟩ := mem_firstMembers.mp hm
      exact Ne.symm hr
  | added roomId ownerId memberIds now new t h hc hnew hmembers =>
    refine ⟨rfl, membershipsIn_append hmembers (fun m hm => ?_) s.rooms, rfl⟩
    obtain ⟨id, -, rfl⟩ := mem_addedMembers.mp hm
    exact Ne.symm hr
  | shown | kept | listed | named => exact SameRoom.refl s r
  | renamed roomId ownerId name roomName =>
    exact ⟨s.rooms.get_update_of_ne (Rooms.renamed roomName) (renamed_id roomName) hr, rfl, rfl⟩
  | sent new t h hmessage =>
    refine ⟨rfl, membershipsIn_withReader new.senderId new.now hr, ?_⟩
    refine Table.filter_append_of_not hmessage (fun m hm => ?_)
    rw [List.mem_singleton.mp hm]
    exact decide_eq_false (Ne.symm hr)
  | marked roomId viewerId now => exact ⟨rfl, membershipsIn_withReader viewerId now hr, rfl⟩
  | removed roomId ownerId memberId => exact sameRoom_withoutMember memberId hr
  | left roomId userId => exact sameRoom_withoutMember userId hr
  | emptied | deleted => exact sameRoom_withoutRoom hr

/-! ## Runs -/

theorem Unmoved.isMember_iff (h : Unmoved s s') : IsMember s' r u ↔ IsMember s r u := by
  rw [IsMember, h.members, IsMember]

/-- Every step is controlled. -/
theorem controlled (unicode : Unicode) (s : Db) (step : RoomStep) : Controlled unicode s step where
  allowed := by
    rintro op rfl hok
    rcases RoomOp.apply_cases unicode op s with ⟨-, heffect⟩ | ⟨hfail, -⟩
    · exact heffect.allowed
    · exact absurd hok hfail
  admits r u hout hin := by
    rcases step.apply_cases unicode s with
      ⟨op, rfl, heffect⟩ | ⟨userId, rfl, -, hdel⟩ | ⟨hsame, -⟩
    · exact heffect.admits hout hin
    · rw [hdel, isMember_withoutUser] at hin
      exact absurd hin.1 hout
    · exact absurd (hsame.isMember_iff.mp hin) hout
  dismisses r u hin hout := by
    rcases step.apply_cases unicode s with
      ⟨op, rfl, heffect⟩ | ⟨userId, rfl, -, hdel⟩ | ⟨hsame, -⟩
    · exact heffect.dismisses hin hout
    · rw [hdel, isMember_withoutUser] at hout
      by_cases hu : u = userId
      · exact hu ▸ .deletedUser
      · by_cases hc : IsCreator s r userId
        · exact .deletedCreator userId hc
        · exact absurd ⟨hin, hu, hc⟩ hout
    · exact absurd (hsame.isMember_iff.mpr hin) hout
  creatorStays r ownerId creatorId hc hok := by
    rcases RoomOp.apply_cases unicode (.removeRoomMember r ownerId creatorId) s with
      ⟨-, heffect⟩ | ⟨hfail, -⟩
    · generalize RoomOp.apply _ _ s = s' at heffect
      cases heffect with
      | removed _ _ _ _ howner hne => exact hne (hc.unique howner)
    · exact hfail hok
  frame := by
    rintro op rfl r hr
    rcases RoomOp.apply_cases unicode op s with ⟨-, heffect⟩ | ⟨-, hsame⟩
    · exact heffect.sameRoom hr
    · rw [RoomStep.apply, hsame]
      exact SameRoom.refl s r

theorem admitted_of_run {steps : List RoomStep} (hout : ¬ IsMember s r u)
    (hin : IsMember (runSteps unicode steps s) r u) : ∃ before step after,
      steps = before ++ step :: after ∧ Admits (runSteps unicode before s) r u step := by
  induction steps generalizing s with
  | nil => exact absurd hin hout
  | cons step steps ih =>
    by_cases hstep : IsMember (step.apply unicode s) r u
    · exact ⟨[], step, steps, rfl, (controlled unicode s step).admits r u hout hstep⟩
    · obtain ⟨before, next, after, rfl, hadmits⟩ := ih hstep hin
      exact ⟨step :: before, next, after, rfl, hadmits⟩

theorem dismissed_of_run {steps : List RoomStep} (hin : IsMember s r u)
    (hout : ¬ IsMember (runSteps unicode steps s) r u) : ∃ before step after,
      steps = before ++ step :: after ∧ Dismisses (runSteps unicode before s) r u step := by
  induction steps generalizing s with
  | nil => exact absurd hin hout
  | cons step steps ih =>
    by_cases hstep : IsMember (step.apply unicode s) r u
    · obtain ⟨before, next, after, rfl, hdismisses⟩ := ih hstep hout
      exact ⟨step :: before, next, after, rfl, hdismisses⟩
    · exact ⟨[], step, steps, rfl, (controlled unicode s step).dismisses r u hin hstep⟩

end

/-- Access control of rooms: in a run, every step is controlled in the database that it finds, and
over the whole run nobody joins or goes but through a step that may admit or dismiss her. -/
theorem rooms_controlled (unicode : Unicode) (steps : List RoomStep) (s : Db) :
    (∀ before step after, steps = before ++ step :: after →
      Controlled unicode (runSteps unicode before s) step) ∧
    (∀ r u, ¬ IsMember s r u → IsMember (runSteps unicode steps s) r u →
      ∃ before step after, steps = before ++ step :: after ∧
        Admits (runSteps unicode before s) r u step) ∧
    (∀ r u, IsMember s r u → ¬ IsMember (runSteps unicode steps s) r u →
      ∃ before step after, steps = before ++ step :: after ∧
        Dismisses (runSteps unicode before s) r u step) :=
  ⟨fun before step _ _ => controlled unicode (runSteps unicode before s) step,
    fun _ _ hout hin => admitted_of_run hout hin, fun _ _ hin hout => dismissed_of_run hin hout⟩

end SyncServer.Rooms
