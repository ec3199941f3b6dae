import SyncServer.Rooms.Access

/-! # Owners of rooms

A room is owned twice: by the user who created it, and by the member with the role of an owner. The
two stay the same user until she leaves others behind in her room.
-/

namespace SyncServer.Rooms
open Transaction Moderation Messaging

/-- `u` has the role of an owner in room `r`. -/
def IsOwner (s : Db) (r u : Uuid) : Prop :=
  ∃ m ∈ s.roomMembers.rows, m.key = (r, u) ∧ m.role = "owner"

/-- Every room has one owner: the user who created it. -/
def OwnerKept (s : Db) : Prop := ∀ r c, IsCreator s r c → ∀ u, IsOwner s r u ↔ u = c

/-- Who created a room leaves it, and somebody else stays. -/
def OwnerLeaves (s : Db) : RoomStep → Prop
  | .room (.leaveRoom r u) => IsMember s r u ∧ IsCreator s r u ∧ ∃ v, v ≠ u ∧ IsMember s r v
  | _ => False

structure Linked (s : Db) : Prop where
  members : ∀ r u, IsMember s r u → ∃ c, IsCreator s r c
  messages : ∀ m ∈ s.roomMessages.rows, ∃ c, IsCreator s m.roomId c

section
variable {unicode : Unicode} {s s' : Db} {op : RoomOp} {r u c : Uuid}

/-! ## Creators after a change -/

theorem isCreator_insert {room : Room} {t : Table Uuid Room Room.id}
    (h : s.rooms.insert room = some t)
    (members : Table (Uuid × Uuid) RoomMember RoomMember.key) :
    IsCreator { s with rooms := t, roomMembers := members } r c ↔
      (r = room.id ∧ c = room.createdBy) ∨ (r ≠ room.id ∧ IsCreator s r c) := by
  simp only [IsCreator, Table.get_of_insert h]
  by_cases hr : room.id = r
  · simp [hr, eq_comm]
  · simp [hr, Ne.symm hr]

theorem isCreator_renamed (roomId : Uuid) (name : String) :
    IsCreator { s with rooms := s.rooms.update roomId (renamed name) (renamed_id name) } r c ↔
      IsCreator s r c := by
  by_cases hr : r = roomId
  · subst hr
    rw [IsCreator, Table.get_update_self]
    simp [IsCreator, renamed]
  · rw [IsCreator, Table.get_update_of_ne _ _ _ hr, IsCreator]

theorem isCreator_withoutRoom (roomId : Uuid) :
    IsCreator (withoutRoom roomId s) r c ↔ IsCreator s r c ∧ r ≠ roomId := by
  have hget : (withoutRoom roomId s).rooms.get r = _ :=
    s.rooms.get_filter_key (fun k => decide (k ≠ roomId)) r
  rw [IsCreator, hget]
  by_cases hr : r = roomId <;> simp [hr, IsCreator]

theorem isCreator_withoutUser (userId : Uuid) :
    IsCreator (Accounts.withoutUser userId s) r c ↔ IsCreator s r c ∧ c ≠ userId := by
  simp only [IsCreator, Accounts.withoutUser, Table.get_filter, Option.filter_eq_some_iff,
    decide_eq_true_iff]
  constructor
  · rintro ⟨room, ⟨hroom, hne⟩, rfl⟩
    exact ⟨⟨room, hroom, rfl⟩, hne⟩
  · rintro ⟨⟨room, hroom, rfl⟩, hne⟩
    exact ⟨room, ⟨hroom, hne⟩, rfl⟩

/-! ## References -/

theorem linked_withoutRoom (roomId : Uuid) (h : Linked s) : Linked (withoutRoom roomId s) where
  members r u hu := by
    obtain ⟨hu, hr⟩ := (isMember_withoutRoom roomId).mp hu
    obtain ⟨c, hc⟩ := h.members r u hu
    exact ⟨c, (isCreator_withoutRoom roomId).mpr ⟨hc, hr⟩⟩
  messages m hm := by
    obtain ⟨hm, hr⟩ := List.mem_filter.mp hm
    obtain ⟨c, hc⟩ := h.messages m hm
    exact ⟨c, (isCreator_withoutRoom roomId).mpr ⟨hc, of_decide_eq_true hr⟩⟩

theorem linked_withoutUser (userId : Uuid) (h : Linked s) :
    Linked (Accounts.withoutUser userId s) where
  members r u hu := by
    obtain ⟨hu, -, hother⟩ := (isMember_withoutUser userId).mp hu
    obtain ⟨c, hc⟩ := h.members r u hu
    exact ⟨c, (isCreator_withoutUser userId).mpr ⟨hc, fun he => hother (he ▸ hc)⟩⟩
  messages m hm := by
    obtain ⟨hm, hkeep⟩ := List.mem_filter.mp hm
    obtain ⟨c, hc⟩ := h.messages m hm
    refine ⟨c, (isCreator_withoutUser userId).mpr ⟨hc, fun he => ?_⟩⟩
    simp [createdRoom_iff.mpr (he ▸ hc)] at hkeep

theorem RoomEffect.linked (h : RoomEffect s op s') (hl : Linked s) : Linked s' := by
  cases h with
  | created creatorId name memberIds roomId now roomName t t' hroom hmembers =>
    have hkept : ∀ r, (∃ c, IsCreator s r c) →
        ∃ c, IsCreator { s with rooms := t, roomMembers := t' } r c := by
      rintro r ⟨c, hc⟩
      by_cases hr : r = roomId
      · exact ⟨creatorId, (isCreator_insert hroom t').mpr (.inl ⟨hr, rfl⟩)⟩
      · exact ⟨c, (isCreator_insert hroom t').mpr (.inr ⟨hr, hc⟩)⟩
    refine ⟨fun r u hu => ?_, fun m hm => hkept m.roomId (hl.messages m hm)⟩
    rcases (isMember_append hmembers t).mp hu with hu | ⟨m, hm, hkey⟩
    · exact hkept r (hl.members r u hu)
    · obtain ⟨id, -, rfl⟩ := mem_firstMembers.mp hm
      exact ⟨creatorId, (isCreator_insert hroom t').mpr (.inl ⟨(Prod.mk.inj hkey).1.symm, rfl⟩)⟩
  | added roomId ownerId memberIds now new t h hc hnew hmembers =>
    refine ⟨fun r u hu => ?_, hl.messages⟩
    rcases (isMember_append hmembers s.rooms).mp hu with hu | ⟨m, hm, hkey⟩
    · exact hl.members r u hu
    · obtain ⟨id, -, rfl⟩ := mem_addedMembers.mp hm
      exact ⟨ownerId, (Prod.mk.inj hkey).1 ▸ hc⟩
  | shown | kept | listed | named => exact hl
  | renamed roomId ownerId name roomName =>
    refine ⟨fun r u hu => ?_, fun m hm => ?_⟩
    · obtain ⟨c, hc⟩ := hl.members r u hu
      exact ⟨c, (isCreator_renamed roomId roomName).mpr hc⟩
    · obtain ⟨c, hc⟩ := hl.messages m hm
      exact ⟨c, (isCreator_renamed roomId roomName).mpr hc⟩
  | sent new t h hmessage =>
    refine ⟨fun r u hu => hl.members r u ((isMember_withRoomMessage new t).mp hu), fun m hm => ?_⟩
    have hrows : m ∈ s.roomMessages.rows ++ [new.row] := hmessage ▸ hm
    rcases List.mem_append.mp hrows with hm | hm
    · exact hl.messages m hm
    · rw [List.mem_singleton.mp hm]
      exact hl.members new.roomId new.senderId h
  | marked roomId viewerId now =>
    exact ⟨fun r u hu => hl.members r u ((isMember_withReader roomId viewerId now).mp hu),
      hl.messages⟩
  | removed | left =>
    exact ⟨fun r u hu => hl.members r u ((isMember_withoutMember _ _).mp hu).1, hl.messages⟩
  | emptied | deleted => exact linked_withoutRoom _ hl

theorem Unmoved.isCreator_iff (h : Unmoved s s') : IsCreator s' r c ↔ IsCreator s r c := by
  rw [IsCreator, h.rooms, IsCreator]

theorem Unmoved.linked (h : Unmoved s s') (hl : Linked s) : Linked s' where
  members r u hu := by
    obtain ⟨c, hc⟩ := hl.members r u (h.isMember_iff.mp hu)
    exact ⟨c, h.isCreator_iff.mpr hc⟩
  messages m hm := by
    obtain ⟨m', hm', hroom⟩ := h.messages m hm
    obtain ⟨c, hc⟩ := hl.messages m' hm'
    exact ⟨c, h.isCreator_iff.mpr (hroom ▸ hc)⟩

theorem linked_step (step : RoomStep) (hl : Linked s) : Linked (step.apply unicode s) := by
  rcases step.apply_cases unicode s with
    ⟨op, -, heffect⟩ | ⟨userId, -, -, hdel⟩ | ⟨hsame, -⟩
  · exact heffect.linked hl
  · rw [hdel]
    exact linked_withoutUser userId hl
  · exact hsame.linked hl

/-! ## Owners after a change -/

theorem IsOwner.isMember (h : IsOwner s r u) : IsMember s r u := by
  obtain ⟨m, hm, hkey, -⟩ := h
  exact Option.isSome_iff_exists.mpr ⟨m, Table.get_eq_some.mpr ⟨hm, hkey⟩⟩

theorem isOwner_append {t : Table (Uuid × Uuid) RoomMember RoomMember.key} {l : List RoomMember}
    (h : t.rows = s.roomMembers.rows ++ l) (rooms : Table Uuid Room Room.id) :
    IsOwner { s with rooms := rooms, roomMembers := t } r u ↔
      IsOwner s r u ∨ ∃ m ∈ l, m.key = (r, u) ∧ m.role = "owner" := by
  simp only [IsOwner, h, List.mem_append, or_and_right, exists_or]

theorem isOwner_withReader (roomId userId : Uuid) (now : Int) :
    IsOwner (withReader roomId userId now s) r u ↔ IsOwner s r u := by
  have hrole : ∀ m : RoomMember, (if m.key = (roomId, userId) then readAt now m else m).role =
      m.role := by
    intro m
    split <;> rfl
  have hkey : ∀ m : RoomMember, (if m.key = (roomId, userId) then readAt now m else m).key =
      m.key := by
    intro m
    split <;> rfl
  simp only [IsOwner, withReader, Table.update, Table.map, List.mem_map, exists_exists_and_eq_and,
    hrole, hkey]

theorem isOwner_filter (q : Uuid × Uuid → Bool) :
    (∃ m ∈ s.roomMembers.rows.filter (fun m => q m.key), m.key = (r, u) ∧ m.role = "owner") ↔
      IsOwner s r u ∧ q (r, u) = true := by
  simp only [List.mem_filter, IsOwner]
  constructor
  · rintro ⟨m, ⟨hm, hq⟩, hkey, hrole⟩
    exact ⟨⟨m, hm, hkey, hrole⟩, hkey ▸ hq⟩
  · rintro ⟨⟨m, hm, hkey, hrole⟩, hq⟩
    exact ⟨m, ⟨hm, hkey.symm ▸ hq⟩, hkey, hrole⟩

theorem isOwner_withoutMember (roomId userId : Uuid) :
    IsOwner (withoutMember roomId userId s) r u ↔ IsOwner s r u ∧ (r, u) ≠ (roomId, userId) :=
  (isOwner_filter (fun k => decide (k ≠ (roomId, userId)))).trans (by rw [decide_eq_true_iff])

theorem isOwner_withoutRoom (roomId : Uuid) :
    IsOwner (withoutRoom roomId s) r u ↔ IsOwner s r u ∧ r ≠ roomId :=
  (isOwner_filter (fun k => decide (k.1 ≠ roomId))).trans (by rw [decide_eq_true_iff])

theorem isOwner_withoutUser (userId : Uuid) :
    IsOwner (Accounts.withoutUser userId s) r u ↔
      IsOwner s r u ∧ u ≠ userId ∧ ¬ IsCreator s r userId := by
  refine (isOwner_filter
    (fun k => decide (k.2 ≠ userId) && !Accounts.createdRoom s userId k.1)).trans ?_
  rw [← createdRoom_iff]
  simp

theorem Linked.not_isMember_of_insert (hl : Linked s) {room : Room} {t : Table Uuid Room Room.id}
    (h : s.rooms.insert room = some t) (u : Uuid) : ¬ IsMember s room.id u := by
  intro hu
  obtain ⟨c, found, hfound, -⟩ := hl.members room.id u hu
  rw [Table.get_eq_none_of_insert h] at hfound
  cases hfound

/-! ## The owner of a room -/

theorem ownerKept_withoutRoom (roomId : Uuid) (hk : OwnerKept s) :
    OwnerKept (withoutRoom roomId s) := by
  intro r c hc u
  obtain ⟨hc, hr⟩ := (isCreator_withoutRoom roomId).mp hc
  rw [isOwner_withoutRoom, hk r c hc u]
  exact and_iff_left hr

theorem ownerKept_withoutUser (userId : Uuid) (hk : OwnerKept s) :
    OwnerKept (Accounts.withoutUser userId s) := by
  intro r c hc u
  obtain ⟨hc, hne⟩ := (isCreator_withoutUser userId).mp hc
  rw [isOwner_withoutUser, hk r c hc u]
  refine and_iff_left_of_imp (fun hu => ⟨hu ▸ hne, fun hother => ?_⟩)
  exact hne (hc.unique hother)

theorem ownerKept_withoutMember {roomId userId : Uuid} (hk : OwnerKept s)
    (hne : ∀ c, IsCreator s roomId c → userId ≠ c) :
    OwnerKept (withoutMember roomId userId s) := by
  intro r c hc u
  rw [isOwner_withoutMember, hk r c hc u]
  refine and_iff_left_of_imp (fun hu hkey => ?_)
  obtain ⟨rfl, rfl⟩ := Prod.mk.inj hkey
  exact hne c hc hu

/-- An operation keeps the owners unless one leaves others behind. -/
theorem RoomEffect.ownerKept_iff (h : RoomEffect s op s') (hl : Linked s) (hk : OwnerKept s) :
    OwnerKept s' ↔ ¬ OwnerLeaves s (.room op) := by
  cases h with
  | created creatorId name memberIds roomId now roomName t t' hroom hmembers =>
    refine iff_of_true (fun r c hc u => ?_) not_false
    rw [isOwner_append hmembers t]
    rcases (isCreator_insert hroom t').mp hc with ⟨rfl, rfl⟩ | ⟨hr, hc⟩
    · have hnobody : ¬ IsOwner s r u :=
        fun hu => hl.not_isMember_of_insert hroom u hu.isMember
      simp only [hnobody, false_or]
      constructor
      · rintro ⟨m, hm, hkey, hrole⟩
        obtain ⟨id, -, rfl⟩ := mem_firstMembers.mp hm
        obtain ⟨-, rfl⟩ := Prod.mk.inj hkey
        by_contra hne
        simp [hne] at hrole
      · rintro rfl
        refine ⟨_, mem_firstMembers.mpr ⟨u, mem_normalizeMemberIds.mpr (.inl rfl), rfl⟩, rfl, ?_⟩
        exact if_pos rfl
    · rw [hk r c hc u]
      refine or_iff_left ?_
      rintro ⟨m, hm, hkey, -⟩
      obtain ⟨id, -, rfl⟩ := mem_firstMembers.mp hm
      exact hr (Prod.mk.inj hkey).1.symm
  | added roomId ownerId memberIds now new t h hc hnew hmembers =>
    refine iff_of_true (fun r c hc u => ?_) not_false
    rw [isOwner_append hmembers s.rooms, hk r c hc u]
    refine or_iff_left ?_
    rintro ⟨m, hm, -, hrole⟩
    obtain ⟨id, -, rfl⟩ := mem_addedMembers.mp hm
    simp at hrole
  | shown | kept | listed | named => exact iff_of_true hk not_false
  | renamed roomId ownerId name roomName =>
    exact iff_of_true (fun r c hc => hk r c ((isCreator_renamed roomId roomName).mp hc)) not_false
  | sent new t =>
    refine iff_of_true (fun r c hc u => ?_) not_false
    exact (isOwner_withReader new.roomId new.senderId new.now).trans (hk r c hc u)
  | marked roomId viewerId now =>
    exact iff_of_true (fun r c hc u => (isOwner_withReader roomId viewerId now).trans (hk r c hc u))
      not_false
  | removed roomId ownerId memberId h hc hne =>
    refine iff_of_true (ownerKept_withoutMember hk (fun c hc' => ?_)) not_false
    exact hc.unique hc' ▸ hne
  | left roomId userId h hrest =>
    constructor
    · rintro hkept ⟨-, hc, -⟩
      have howner := (hkept roomId userId hc userId).mpr rfl
      exact ((isOwner_withoutMember roomId userId).mp howner).2 rfl
    · intro hstays
      refine ownerKept_withoutMember hk (fun c hc he => hstays ⟨h, he ▸ hc, ?_⟩)
      rw [ne_eq, membershipsIn_eq_nil] at hrest
      obtain ⟨v, hv⟩ := not_forall_not.mp hrest
      obtain ⟨hv, hkey⟩ := (isMember_withoutMember roomId userId).mp hv
      exact ⟨v, fun he => hkey (he ▸ rfl), hv⟩
  | emptied roomId userId h hrest =>
    refine iff_of_true (ownerKept_withoutRoom roomId hk) ?_
    rintro ⟨-, -, v, hne, hv⟩
    exact hne (eq_of_membershipsIn_eq_nil hrest hv)
  | deleted roomId userId => exact iff_of_true (ownerKept_withoutRoom roomId hk) not_false

theorem succeeds_leaveRoom (h : IsMember s r u) : (RoomOp.leaveRoom r u).Succeeds unicode s := by
  obtain ⟨membership, hget⟩ := Option.isSome_iff_exists.mp h
  have hdelete : (deleteRoomMember r u).run s = (.ok (), withoutMember r u s) := rfl
  have hrun : ∃ s', (leaveRoom r u).run s = (.ok (), s') := by
    rw [leaveRoom, Tx.run_bind_ok (Tx.run_query _ _), hget]
    simp only [Option.isNone_some, Bool.false_eq_true, if_false]
    rw [Tx.run_bind_ok hdelete, Tx.run_bind_ok (Tx.run_query _ _)]
    split
    · exact ⟨_, rfl⟩
    · exact ⟨_, rfl⟩
  obtain ⟨s', hrun⟩ := hrun
  rw [RoomOp.Succeeds, RoomOp.transaction, Tx.run_bind_ok hrun]
  rfl

theorem OwnerLeaves.exists {step : RoomStep} (h : OwnerLeaves s step) :
    ∃ r u, step = .room (.leaveRoom r u) ∧ IsMember s r u := by
  match step, h with
  | .room (.leaveRoom r u), h => exact ⟨r, u, rfl, h.1⟩

theorem Unmoved.ownerKept (h : Unmoved s s') (hk : OwnerKept s) : OwnerKept s' := by
  intro r c hc u
  rw [IsOwner, h.members]
  exact hk r c (h.isCreator_iff.mp hc) u

theorem ownerKept_step_iff (step : RoomStep) (hl : Linked s) (hk : OwnerKept s) :
    OwnerKept (step.apply unicode s) ↔ ¬ OwnerLeaves s step := by
  rcases step.apply_cases unicode s with
    ⟨op, rfl, heffect⟩ | ⟨userId, rfl, -, hdel⟩ | ⟨hsame, hfails, -⟩
  · exact heffect.ownerKept_iff hl hk
  · refine iff_of_true ?_ not_false
    rw [hdel]
    exact ownerKept_withoutUser userId hk
  · refine iff_of_true (hsame.ownerKept hk) (fun hleaves => ?_)
    obtain ⟨r, u, rfl, hmember⟩ := hleaves.exists
    exact hfails (.leaveRoom r u) rfl (succeeds_leaveRoom hmember)

end

/-- There are no rooms, and so no members and no messages of rooms. -/
structure NoRooms (s : Db) : Prop where
  rooms : s.rooms.rows = []
  members : s.roomMembers.rows = []
  messages : s.roomMessages.rows = []

section
variable {s : Db}

theorem NoRooms.not_isCreator (h : NoRooms s) (r c : Uuid) : ¬ IsCreator s r c := by
  rintro ⟨room, hroom, -⟩
  simp [Table.get, h.rooms] at hroom

theorem NoRooms.linked (h : NoRooms s) : Linked s where
  members r u hu := by simp [IsMember, Table.get, h.members] at hu
  messages m hm := by simp [h.messages] at hm

theorem NoRooms.ownerKept (h : NoRooms s) : OwnerKept s :=
  fun r c hc => absurd hc (h.not_isCreator r c)

end

/-- In a run from a database without rooms, all rooms keep their owners all the time just when no
owner leaves a room in which somebody else stays. -/
theorem owner_kept_iff (unicode : Unicode) (steps : List RoomStep) (s : Db) (h : NoRooms s) :
    (∀ before after, steps = before ++ after → OwnerKept (runSteps unicode before s)) ↔
      ∀ before step after, steps = before ++ step :: after →
        ¬ OwnerLeaves (runSteps unicode before s) step :=
  run_keeps_iff (fun _ step => linked_step step) (fun _ step => ownerKept_step_iff step) steps
    h.linked h.ownerKept

def person (id : Uuid) (name : String) : User :=
  ⟨id, name, name, "", none, none, none, "user", true, none, true, none, 0, none⟩

def twoPeople : Db := { Db.empty with users := ⟨[person 1 "ada", person 2 "bob"], by decide⟩ }

theorem noRooms_twoPeople : NoRooms twoPeople := ⟨rfl, rfl, rfl⟩

/-- Ada makes a room with Bob. -/
def adaInvitesBob : RoomStep := .room (.createRoom 1 "Tea" [2] 9 0)

theorem owner_kept_iff_bob_leaves :
    OwnerKept (runSteps Unicode.ascii [adaInvitesBob, .room (.leaveRoom 9 2)] twoPeople) := by
  refine (owner_kept_iff Unicode.ascii [adaInvitesBob, .room (.leaveRoom 9 2)] twoPeople
    noRooms_twoPeople).mpr ?_ _ [] rfl
  rw [forall_cut_cons, forall_cut_cons]
  refine ⟨not_false, ?_, by simp⟩
  rintro ⟨-, ⟨room, hroom, hc⟩, -⟩
  have hget : (runSteps Unicode.ascii [adaInvitesBob] twoPeople).rooms.get 9 = some ⟨9, "Tea", 1⟩ := by
    decide
  rw [hget, Option.some.injEq] at hroom
  subst hroom
  exact absurd hc (by decide)

/-- Ada leaves; her room has no owner, and Bob cannot even rename it. -/
theorem ada_leaves_bob : NoRooms twoPeople ∧
    ¬ OwnerKept (runSteps Unicode.ascii [adaInvitesBob, .room (.leaveRoom 9 1)] twoPeople) := by
  refine ⟨noRooms_twoPeople, fun hkept => ?_⟩
  obtain ⟨m, hm, hkey, -⟩ := (hkept 9 1 ⟨⟨9, "Tea", 1⟩, by decide, rfl⟩ 1).mpr rfl
  have hrows : (runSteps Unicode.ascii [adaInvitesBob, .room (.leaveRoom 9 1)]
      twoPeople).roomMembers.rows = [⟨9, 2, "member", some 0⟩] := by decide
  rw [hrows, List.mem_singleton] at hm
  subst hm
  exact absurd hkey (by decide)

end SyncServer.Rooms
