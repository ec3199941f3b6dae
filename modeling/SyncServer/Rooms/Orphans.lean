import SyncServer.Rooms.Owners

/-! # Rooms without members

Members leave rooms, and they vanish with their accounts. Only the second way leaves a room without
any.
-/

namespace SyncServer.Rooms
open Transaction Moderation Messaging

/-- Every room, and every message, is in a room that somebody is a member of. -/
structure NoOrphans (s : Db) : Prop where
  rooms : ∀ r c, IsCreator s r c → ∃ u, IsMember s r u
  messages : ∀ m ∈ s.roomMessages.rows, ∃ u, IsMember s m.roomId u

/-- An account is deleted that is the only member of a room which somebody else created. -/
def Strands (s : Db) : RoomStep → Prop
  | .deleteUser v => s.userExists v ∧ ∃ r c, IsCreator s r c ∧ c ≠ v ∧ IsMember s r v ∧
      ∀ u, IsMember s r u → u = v
  | _ => False

section
variable {unicode : Unicode} {s s' : Db} {op : RoomOp}

theorem Linked.noOrphans (hl : Linked s) (h : ∀ r c, IsCreator s r c → ∃ u, IsMember s r u) :
    NoOrphans s where
  rooms := h
  messages m hm := by
    obtain ⟨c, hc⟩ := hl.messages m hm
    exact h m.roomId c hc

theorem inhabited_withoutRoom (roomId : Uuid) (hn : NoOrphans s) (r c : Uuid)
    (hc : IsCreator (withoutRoom roomId s) r c) : ∃ u, IsMember (withoutRoom roomId s) r u := by
  obtain ⟨hc, hr⟩ := (isCreator_withoutRoom roomId).mp hc
  obtain ⟨u, hu⟩ := hn.rooms r c hc
  exact ⟨u, (isMember_withoutRoom roomId).mpr ⟨hu, hr⟩⟩

theorem inhabited_withoutMember {roomId userId : Uuid} (hn : NoOrphans s)
    (hstays : ∃ v, IsMember (withoutMember roomId userId s) roomId v) (r c : Uuid)
    (hc : IsCreator s r c) : ∃ u, IsMember (withoutMember roomId userId s) r u := by
  by_cases hr : r = roomId
  · exact hr ▸ hstays
  · obtain ⟨u, hu⟩ := hn.rooms r c hc
    exact ⟨u, (isMember_withoutMember roomId userId).mpr ⟨hu, fun he => hr (Prod.mk.inj he).1⟩⟩

theorem RoomEffect.inhabited (h : RoomEffect s op s') (hn : NoOrphans s) (r c : Uuid)
    (hc : IsCreator s' r c) : ∃ u, IsMember s' r u := by
  cases h with
  | created creatorId name memberIds roomId now roomName t t' hroom hmembers =>
    rcases (isCreator_insert hroom t').mp hc with ⟨hr, -⟩ | ⟨-, hc⟩
    · have hrow : ⟨roomId, creatorId, "owner", some now⟩ ∈
          firstMembers roomId creatorId (normalizeMemberIds creatorId memberIds) now :=
        mem_firstMembers.mpr ⟨creatorId, mem_normalizeMemberIds.mpr (.inl rfl), by simp⟩
      exact ⟨creatorId, (isMember_append hmembers t).mpr (.inr ⟨_, hrow, by rw [hr]; rfl⟩)⟩
    · obtain ⟨u, hu⟩ := hn.rooms r c hc
      exact ⟨u, (isMember_append hmembers t).mpr (.inl hu)⟩
  | added roomId ownerId memberIds now new t h hown hnew hmembers =>
    obtain ⟨u, hu⟩ := hn.rooms r c hc
    exact ⟨u, (isMember_append hmembers s.rooms).mpr (.inl hu)⟩
  | shown | kept | listed | named => exact hn.rooms r c hc
  | renamed roomId ownerId name roomName =>
    exact hn.rooms r c ((isCreator_renamed roomId roomName).mp hc)
  | sent new t =>
    obtain ⟨u, hu⟩ := hn.rooms r c hc
    exact ⟨u, (isMember_withRoomMessage new t).mpr hu⟩
  | marked roomId viewerId now =>
    obtain ⟨u, hu⟩ := hn.rooms r c hc
    exact ⟨u, (isMember_withReader roomId viewerId now).mpr hu⟩
  | removed roomId ownerId memberId h hown hne =>
    refine inhabited_withoutMember hn ⟨ownerId, ?_⟩ r c hc
    exact (isMember_withoutMember roomId memberId).mpr ⟨h, fun he => hne (Prod.mk.inj he).2.symm⟩
  | left roomId userId h hrest =>
    rw [ne_eq, membershipsIn_eq_nil] at hrest
    exact inhabited_withoutMember hn (not_forall_not.mp hrest) r c hc
  | emptied roomId | deleted roomId => exact inhabited_withoutRoom roomId hn r c hc

theorem noOrphans_withoutUser_iff {v : Uuid} (hl : Linked s) (hn : NoOrphans s) :
    NoOrphans (Accounts.withoutUser v s) ↔
      ¬ ∃ r c, IsCreator s r c ∧ c ≠ v ∧ IsMember s r v ∧ ∀ u, IsMember s r u → u = v := by
  constructor
  · rintro hn' ⟨r, c, hc, hne, -, honly⟩
    obtain ⟨u, hu⟩ := hn'.rooms r c ((isCreator_withoutUser v).mpr ⟨hc, hne⟩)
    obtain ⟨hu, huv, -⟩ := (isMember_withoutUser v).mp hu
    exact huv (honly u hu)
  · intro hothers
    refine (linked_withoutUser v hl).noOrphans (fun r c hc => ?_)
    obtain ⟨hc, hne⟩ := (isCreator_withoutUser v).mp hc
    by_contra hnobody
    have honly : ∀ u, IsMember s r u → u = v := by
      intro u hu
      by_contra huv
      exact hnobody ⟨u, (isMember_withoutUser v).mpr ⟨hu, huv, fun hv => hne (hc.unique hv)⟩⟩
    obtain ⟨u, hu⟩ := hn.rooms r c hc
    exact hothers ⟨r, c, hc, hne, honly u hu ▸ hu, honly⟩

theorem Strands.exists {step : RoomStep} (h : Strands s step) :
    ∃ v, step = .deleteUser v ∧ s.userExists v := by
  match step, h with
  | .deleteUser v, h => exact ⟨v, rfl, h.1⟩

theorem noOrphans_step_iff (step : RoomStep) (hl : Linked s) (hn : NoOrphans s) :
    NoOrphans (step.apply unicode s) ↔ ¬ Strands s step := by
  have hl' : Linked (step.apply unicode s) := linked_step step hl
  rcases step.apply_cases unicode s with
    ⟨op, rfl, heffect⟩ | ⟨v, rfl, hv, hdel⟩ | ⟨hsame, -, hnone⟩
  · exact iff_of_true (hl'.noOrphans (heffect.inhabited hn)) not_false
  · rw [hdel, noOrphans_withoutUser_iff hl hn, Strands, and_iff_right hv]
  · refine iff_of_true (hl'.noOrphans (fun r c hc => ?_)) (fun hstrands => ?_)
    · obtain ⟨u, hu⟩ := hn.rooms r c (hsame.isCreator_iff.mp hc)
      exact ⟨u, hsame.isMember_iff.mpr hu⟩
    · obtain ⟨v, rfl, hv⟩ := hstrands.exists
      exact hnone v rfl hv

end

theorem NoRooms.noOrphans {s : Db} (h : NoRooms s) : NoOrphans s :=
  h.linked.noOrphans (fun r c hc => absurd hc (h.not_isCreator r c))

/-- In a run from a database without rooms, all rooms have members all the time just when no account
is deleted that is the only member of another user's room. -/
theorem no_orphans_iff (unicode : Unicode) (steps : List RoomStep) (s : Db) (h : NoRooms s) :
    (∀ before after, steps = before ++ after → NoOrphans (runSteps unicode before s)) ↔
      ∀ before step after, steps = before ++ step :: after →
        ¬ Strands (runSteps unicode before s) step :=
  run_keeps_iff (fun _ step => linked_step step) (fun _ step => noOrphans_step_iff step) steps
    h.linked h.noOrphans

theorem no_orphans_iff_bob_deleted :
    NoOrphans (runSteps Unicode.ascii [adaInvitesBob, .deleteUser 2] twoPeople) := by
  refine (no_orphans_iff Unicode.ascii [adaInvitesBob, .deleteUser 2] twoPeople
    noRooms_twoPeople).mpr ?_ _ [] rfl
  rw [forall_cut_cons, forall_cut_cons]
  refine ⟨not_false, ?_, by simp⟩
  rintro ⟨-, r, c, ⟨room, hroom, -⟩, -, -, honly⟩
  have hrows : (runSteps Unicode.ascii [adaInvitesBob] twoPeople).rooms.rows = [⟨9, "Tea", 1⟩] := by
    decide
  obtain ⟨hrow, rfl⟩ := Table.get_eq_some.mp hroom
  rw [hrows, List.mem_singleton] at hrow
  subst hrow
  exact absurd (honly 1 (by decide)) (by decide)

/-- Ada leaves, and then Bob's account is deleted: Ada's room is there without members. -/
theorem ada_leaves_bob_deleted : NoRooms twoPeople ∧
    ¬ NoOrphans (runSteps Unicode.ascii [adaInvitesBob, .room (.leaveRoom 9 1), .deleteUser 2]
      twoPeople) := by
  refine ⟨noRooms_twoPeople, fun hno => ?_⟩
  obtain ⟨u, hu⟩ := hno.rooms 9 1 ⟨⟨9, "Tea", 1⟩, by decide, rfl⟩
  have hrows : (runSteps Unicode.ascii [adaInvitesBob, .room (.leaveRoom 9 1), .deleteUser 2]
      twoPeople).roomMembers.rows = [] := by decide
  rw [IsMember, Table.get, hrows] at hu
  cases hu

end SyncServer.Rooms
