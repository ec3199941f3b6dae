import SyncServer.Accounts.Shadows
import SyncServer.Base.Json
import SyncServer.Base.Patch

/-! # Patches of a profile

A field of `UpdateProfileRequest` can be absent, `null` or a text, and its type has a value for each
of the three. What is read from a body is never the one for `null`: serde gives an absent field and
a `null` the same value, and a `null` leaves the profile as it is.
-/

namespace SyncServer.Accounts
open Transaction

namespace UpdateProfileRequest

/-! ## Reading a body -/

/-- Why a body is not a request. -/
inductive DeError where
  | invalidType (expected : String)
  | invalidLength (length : Nat) (expected : String)
  | duplicateField (name : String)
  | trailingCharacters
deriving DecidableEq, Repr

/-- `String::deserialize`. -/
def string : Json → Except DeError String
  | .string s => .ok s
  | _ => .error (.invalidType "a string")

/-- `Option::deserialize`. -/
def option {α : Type} (inner : Json → Except DeError α) : Json → Except DeError (Option α)
  | .null => .ok none
  | value => do
    let a ← inner value
    pure (some a)

/-- The fields of an object that have been read so far. -/
structure Slots where
  username : Option (Option String)
  avatarBase64 : Option (Option (Option String))
  description : Option (Option (Option String))
  messagePublicKey : Option (Option (Option String))
deriving DecidableEq, Repr

def fill {α : Type} (name : String) (read : Json → Except DeError α) (slot : Option α)
    (value : Json) : Except DeError (Option α) :=
  if slot.isSome then .error (.duplicateField name)
  else do
    let a ← read value
    pure (some a)

def visitEntry (slots : Slots) (entry : String × Json) : Except DeError Slots :=
  if entry.1 = "username" then do
    let slot ← fill "username" (option string) slots.username entry.2
    pure { slots with username := slot }
  else if entry.1 = "avatar_base64" then do
    let slot ← fill "avatar_base64" (option (option string)) slots.avatarBase64 entry.2
    pure { slots with avatarBase64 := slot }
  else if entry.1 = "description" then do
    let slot ← fill "description" (option (option string)) slots.description entry.2
    pure { slots with description := slot }
  else if entry.1 = "message_public_key" then do
    let slot ← fill "message_public_key" (option (option string)) slots.messagePublicKey entry.2
    pure { slots with messagePublicKey := slot }
  else .ok slots

def Slots.finish (slots : Slots) : ProfileChanges where
  username := slots.username.getD none
  avatarBase64 := slots.avatarBase64.getD none
  description := slots.description.getD none
  messagePublicKey := slots.messagePublicKey.getD none

def visitMap (fields : List (String × Json)) : Except DeError ProfileChanges := do
  let slots ← fields.foldlM visitEntry ⟨none, none, none, none⟩
  pure slots.finish

def element : Option Json → Except DeError (Option (Option String))
  | none => .ok none
  | some value => option (option string) value

def visitSeq : List Json → Except DeError ProfileChanges
  | [] => .error (.invalidLength 0 "struct UpdateProfileRequest with 4 elements")
  | first :: rest => do
    let username ← option string first
    let avatarBase64 ← element rest[0]?
    let description ← element rest[1]?
    let messagePublicKey ← element rest[2]?
    if 3 < rest.length then throw .trailingCharacters
    else pure ⟨username, avatarBase64, description, messagePublicKey⟩

/-- `UpdateProfileRequest::deserialize`, as it is derived. -/
def deserialize : Json → Except DeError ProfileChanges
  | .object fields => visitMap fields
  | .array items => visitSeq items
  | _ => .error (.invalidType "struct UpdateProfileRequest")

def fieldNames : List String := ["username", "avatar_base64", "description", "message_public_key"]

def member (name : String) : Json → Option Json
  | .array items => (Json.object (fieldNames.zip items)).get name
  | body => body.get name

end UpdateProfileRequest

/-! ## The rule of a patch -/

open UpdateProfileRequest

/-- The fields of a profile that may be empty. -/
inductive ProfileField where
  | avatarBase64
  | description
  | messagePublicKey
deriving DecidableEq, Repr

namespace ProfileField

def name : ProfileField → String
  | avatarBase64 => "avatar_base64"
  | description => "description"
  | messagePublicKey => "message_public_key"

/-- The position of the field behind `username`. -/
def index : ProfileField → Nat
  | avatarBase64 => 0
  | description => 1
  | messagePublicKey => 2

def value (u : User) : ProfileField → Option String
  | avatarBase64 => u.avatarBase64
  | description => u.description
  | messagePublicKey => u.messagePublicKey

def change (changes : ProfileChanges) : ProfileField → Option (Option String)
  | avatarBase64 => changes.avatarBase64
  | description => changes.description
  | messagePublicKey => changes.messagePublicKey

def slot (slots : Slots) : ProfileField → Option (Option (Option String))
  | avatarBase64 => slots.avatarBase64
  | description => slots.description
  | messagePublicKey => slots.messagePublicKey

def clean (s : String) : ProfileField → Option String
  | description => if trim s = "" then none else some (trim s)
  | _ => some s

/-- What a body says on the field: absent keeps, `null` clears, a text sets. -/
def patch (body : Json) (field : ProfileField) : Patch (Option String) :=
  match member field.name body with
  | some .null => .clear
  | some (.string s) => .set (field.clean s)
  | _ => .keep

/-- The value that a sequence of bodies is to leave behind. -/
def merged (bodies : List Json) (user : User) (field : ProfileField) : Option String :=
  Patch.mergeAll none (field.value user) (bodies.map (fun body => field.patch body))

theorem value_over (changes : ProfileChanges) (user : User) (field : ProfileField) :
    field.value (changes.over user user) = (field.change changes).getD (field.value user) := by
  cases field <;> rfl

end ProfileField

/-! ## What a body is read as -/

namespace UpdateProfileRequest

/-- A `null` is read as the outer `none`, never as the inner one. -/
theorem option_option_string_ok {value : Json} {o : Option (Option String)}
    (h : option (option string) value = .ok o) : o = value.asStr.map some := by
  cases value with
  | null =>
    cases h
    rfl
  | string s =>
    cases h
    rfl
  | _ => cases h

theorem fill_ok {name : String} {slot slot' : Option (Option (Option String))} {value : Json}
    (h : fill name (option (option string)) slot value = .ok slot') :
    slot = none ∧ slot' = some (value.asStr.map some) := by
  unfold fill at h
  split at h
  · cases h
  rename_i hempty
  obtain ⟨o, hread, h⟩ := bind_eq_ok.mp h
  cases h
  rw [option_option_string_ok hread]
  exact ⟨by simpa using hempty, rfl⟩

/-- An entry fills the slot of its field, which was empty, and no other one. -/
theorem visitEntry_slot {slots slots' : Slots} {entry : String × Json} (field : ProfileField)
    (h : visitEntry slots entry = .ok slots') :
    (entry.1 = field.name →
        field.slot slots = none ∧ field.slot slots' = some (entry.2.asStr.map some)) ∧
      (entry.1 ≠ field.name → field.slot slots' = field.slot slots) := by
  unfold visitEntry at h
  split at h
  · rename_i hname
    obtain ⟨slot, -, h⟩ := bind_eq_ok.mp h
    cases h
    cases field <;> simp [hname, ProfileField.name, ProfileField.slot]
  split at h
  · rename_i hname
    obtain ⟨slot, hfill, h⟩ := bind_eq_ok.mp h
    cases h
    cases field <;> simp [hname, ProfileField.name, ProfileField.slot, fill_ok hfill]
  split at h
  · rename_i hname
    obtain ⟨slot, hfill, h⟩ := bind_eq_ok.mp h
    cases h
    cases field <;> simp [hname, ProfileField.name, ProfileField.slot, fill_ok hfill]
  split at h
  · rename_i hname
    obtain ⟨slot, hfill, h⟩ := bind_eq_ok.mp h
    cases h
    cases field <;> simp [hname, ProfileField.name, ProfileField.slot, fill_ok hfill]
  · rename_i havatar hdescription hkey
    cases h
    cases field <;> simp [ProfileField.name, havatar, hdescription, hkey]

theorem foldlM_visitEntry_slot {entries : List (String × Json)} {slots slots' : Slots}
    (field : ProfileField) (h : entries.foldlM visitEntry slots = .ok slots') :
    field.slot slots' = (field.slot slots).or
      (((Json.object entries).get field.name).map (fun value => value.asStr.map some)) := by
  induction entries generalizing slots with
  | nil =>
    cases h
    simp [Json.get]
  | cons entry rest ih =>
    rw [List.foldlM_cons] at h
    obtain ⟨slots₁, hentry, hrest⟩ := bind_eq_ok.mp h
    obtain ⟨hown, hother⟩ := visitEntry_slot field hentry
    rw [ih hrest]
    by_cases hname : entry.1 = field.name
    · obtain ⟨hempty, hfilled⟩ := hown hname
      simp [Json.get, hname, hempty, hfilled]
    · simp [Json.get, hname, hother hname]

theorem change_finish (slots : Slots) (field : ProfileField) :
    field.change slots.finish = (field.slot slots).getD none := by
  cases field <;> rfl

theorem element_ok {value : Option Json} {o : Option (Option String)} (h : element value = .ok o) :
    o = (value.bind Json.asStr).map some := by
  cases value with
  | none =>
    cases h
    rfl
  | some value => exact option_option_string_ok h

theorem member_array (first : Json) (rest : List Json) (field : ProfileField) :
    member field.name (.array (first :: rest)) = rest[field.index]? := by
  rcases rest with _ | ⟨a, _ | ⟨b, _ | ⟨c, more⟩⟩⟩ <;>
    cases field <;> simp [member, fieldNames, Json.get, ProfileField.name, ProfileField.index]

theorem visitSeq_ok {items : List Json} {request : ProfileChanges}
    (h : visitSeq items = .ok request) (field : ProfileField) :
    field.change request = ((member field.name (.array items)).bind Json.asStr).map some := by
  cases items with
  | nil => cases h
  | cons first rest =>
    obtain ⟨username, -, h⟩ := bind_eq_ok.mp h
    obtain ⟨avatarBase64, havatar, h⟩ := bind_eq_ok.mp h
    obtain ⟨description, hdescription, h⟩ := bind_eq_ok.mp h
    obtain ⟨messagePublicKey, hkey, h⟩ := bind_eq_ok.mp h
    split at h
    · cases h
    cases h
    rw [member_array]
    cases field with
    | avatarBase64 => exact element_ok havatar
    | description => exact element_ok hdescription
    | messagePublicKey => exact element_ok hkey

theorem deserialize_ok {body : Json} {request : ProfileChanges}
    (h : deserialize body = .ok request) (field : ProfileField) :
    field.change request = ((member field.name body).bind Json.asStr).map some := by
  cases body with
  | object entries =>
    obtain ⟨slots, hslots, h⟩ := bind_eq_ok.mp h
    cases h
    rw [change_finish, foldlM_visitEntry_slot field hslots]
    rcases hmember : (Json.object entries).get field.name with _ | value <;>
      cases field <;> simp_all [ProfileField.slot, member]
  | array items => exact visitSeq_ok h field
  | _ => cases h

end UpdateProfileRequest

/-! ## What an accepted body writes -/

theorem ProfileField.value?_patch (body : Json) (field : ProfileField) :
    (field.patch body).value? = ((member field.name body).bind Json.asStr).map field.clean := by
  unfold patch
  rcases member field.name body with _ | _ | _ | _ | _ | _ | _ <;> rfl

theorem checkDescription_ok {env : AccountEnv} {o : Option String}
    {next : Option (Option String)} (h : checkDescription env (o.map some) = .ok next) :
    next = o.map ProfileField.description.clean := by
  cases o with
  | none =>
    cases h
    rfl
  | some raw =>
    by_cases hblank : trim raw = ""
    · simp only [Option.map_some, checkDescription, hblank, if_true] at h
      cases h
      simp [ProfileField.clean, hblank]
    · simp only [Option.map_some, checkDescription, hblank, if_false] at h
      obtain ⟨-, h⟩ := require_bind_eq_ok.mp h
      obtain ⟨-, h⟩ := unit_bind_eq_ok.mp h
      cases h
      simp [ProfileField.clean, hblank]

theorem change_checkProfile {env : AccountEnv} {body : Json} {request changes : ProfileChanges}
    (hbody : deserialize body = .ok request) (h : checkProfile env request = .ok changes)
    (field : ProfileField) : field.change changes = (field.patch body).value? := by
  obtain ⟨-, havatar, hdescription, hkey⟩ := checkProfile_ok h
  have hread := deserialize_ok hbody field
  rw [ProfileField.value?_patch]
  cases field with
  | avatarBase64 => exact havatar.trans hread
  | description =>
    change request.description = _ at hread
    rw [hread] at hdescription
    exact checkDescription_ok hdescription
  | messagePublicKey => exact hkey.trans hread

/-- A sequence of bodies for the profile of an account, each of which is accepted. -/
inductive Accepted (env : AccountEnv) (userId : Uuid) : Server → List Json → Server → Prop
  | nil (s : Server) : Accepted env userId s [] s
  | cons (request : ProfileChanges) (u : User) {body : Json} {rest : List Json} {s s₁ s' : Server}
      (hbody : deserialize body = .ok request)
      (hrun : (updateMe env userId request).run s = (.ok u, s₁))
      (hrest : Accepted env userId s₁ rest s') : Accepted env userId s (body :: rest) s'

section
variable {env : AccountEnv} {userId : Uuid} {user : User} {s s' : Server}

theorem accepted_step {body : Json} {request : ProfileChanges} {u : User}
    (hbody : deserialize body = .ok request)
    (hrun : (updateMe env userId request).run s = (.ok u, s'))
    (hget : s.db.users.get userId = some user) :
    s'.db.users.get userId = some u ∧
      ∀ field : ProfileField, field.value u = (field.patch body).write (field.value user) := by
  obtain ⟨changes, found, hcheck, hfound, rfl, husers⟩ := run_updateMe_ok hrun
  obtain rfl := Option.some.inj (hget.symm.trans hfound)
  constructor
  · rw [husers]
    simp [hget]
  · intro field
    rw [ProfileField.value_over, change_checkProfile hbody hcheck, Patch.write]

theorem accepted_run {bodies : List Json} (h : Accepted env userId s bodies s')
    (hget : s.db.users.get userId = some user) :
    ∃ u, s'.db.users.get userId = some u ∧ ∀ field : ProfileField, field.value u =
      Patch.writeAll (field.value user) (bodies.map (fun body => field.patch body)) := by
  induction h generalizing user with
  | nil s => exact ⟨user, hget, fun field => rfl⟩
  | cons request u hbody hrun hrest ih =>
    obtain ⟨hget₁, hwrite⟩ := accepted_step hbody hrun hget
    obtain ⟨u', hget', hlater⟩ := ih hget₁
    refine ⟨u', hget', fun field => ?_⟩
    rw [hlater field, hwrite field]
    rfl

/-- Whatever the profile and the accepted bodies are, the fields hold what the bodies leave behind
if and only if no `null` was to clear anything: if the last body that has the field has `null` for
it, then the text sent last, or without one the profile before all bodies, left it empty. -/
theorem merged_iff (env : AccountEnv) (userId : Uuid) (s s' : Server) (user : User)
    (hget : s.db.users.get userId = some user) (bodies : List Json)
    (haccepted : Accepted env userId s bodies s') :
    (∃ u, s'.db.users.get userId = some u ∧
        ∀ field : ProfileField, field.value u = field.merged bodies user) ↔
      ∀ field : ProfileField, Patch.ClearsIdle none (field.value user)
        (bodies.map (fun body => field.patch body)) := by
  obtain ⟨u, hget', hwritten⟩ := accepted_run haccepted hget
  have hfield (field : ProfileField) : field.value u = field.merged bodies user ↔
      Patch.ClearsIdle none (field.value user) (bodies.map (fun body => field.patch body)) := by
    rw [hwritten, ProfileField.merged, Patch.writeAll_eq_mergeAll_iff]
  constructor
  · rintro ⟨v, hv, hmerged⟩ field
    obtain rfl := Option.some.inj (hget'.symm.trans hv)
    exact (hfield field).mp (hmerged field)
  · intro hidle
    exact ⟨u, hget', fun field => (hfield field).mpr (hidle field)⟩

end

/-! ## Alice describes herself -/

/-- Alice has an account, with nothing in her profile. -/
def alicesServer : Server :=
  (registration "alice" "alice@example.org").serve sampleAccountEnv newServer

def alice : User :=
  (NewUser.row ⟨1, "alice", "alice@example.org",
    "$2b$12$abcdefghijklmnopqrstuuFDJRuYeKkCzo3Wy7h8SxhBSHBAHiPK2", "user", none, true⟩)

def describe (text : String) : ProfileChanges := ⟨none, none, some (some text), none⟩

def describedAs (text : String) : User := { alice with description := some text }

/-- The server after a request of Alice. -/
def afterRequest (s : Server) (request : ProfileChanges) : Server :=
  ((updateMe sampleAccountEnv 1 request).run s).2

/-- A `null` before the first description clears nothing. -/
def idleBodies : List Json :=
  [.object [("description", .null)], .object [("description", .string " hello ")]]

def clearingBodies : List Json :=
  [.object [("description", .string "hello")], .object [("description", .null)]]

theorem accepted_idleBodies : Accepted sampleAccountEnv 1 alicesServer idleBodies
    (afterRequest (afterRequest alicesServer ⟨none, none, none, none⟩) (describe " hello ")) :=
  .cons ⟨none, none, none, none⟩ alice rfl (Prod.ext (by decide +kernel) rfl)
    (.cons (describe " hello ") (describedAs "hello") rfl (Prod.ext (by decide +kernel) rfl)
      (.nil _))

theorem accepted_clearingBodies : Accepted sampleAccountEnv 1 alicesServer clearingBodies
    (afterRequest (afterRequest alicesServer (describe "hello")) ⟨none, none, none, none⟩) :=
  .cons (describe "hello") (describedAs "hello") rfl (Prod.ext (by decide +kernel) rfl)
    (.cons ⟨none, none, none, none⟩ (describedAs "hello") rfl (Prod.ext (by decide +kernel) rfl)
      (.nil _))

theorem merged_iff_alice :
    ∃ u, (afterRequest (afterRequest alicesServer ⟨none, none, none, none⟩)
        (describe " hello ")).db.users.get 1 = some u ∧
      ∀ field : ProfileField, field.value u = field.merged idleBodies alice :=
  (merged_iff sampleAccountEnv 1 alicesServer _ alice rfl idleBodies accepted_idleBodies).mpr
    (fun field => by cases field <;> decide)

/-- Her `null` is accepted, and the description that it is to clear is still there. -/
theorem null_clears_nothing : alicesServer.db.users.get 1 = some alice ∧
    ∃ s', Accepted sampleAccountEnv 1 alicesServer clearingBodies s' ∧
      ProfileField.description.merged clearingBodies alice = none ∧
      (s'.db.users.get 1).bind User.description = some "hello" ∧
      ¬ ∃ u, s'.db.users.get 1 = some u ∧
        ∀ field : ProfileField, field.value u = field.merged clearingBodies alice := by
  have hkept : ((afterRequest (afterRequest alicesServer (describe "hello"))
      ⟨none, none, none, none⟩).db.users.get 1).bind User.description = some "hello" := by
    decide +kernel
  refine ⟨rfl, _, accepted_clearingBodies, by decide, hkept, ?_⟩
  rintro ⟨u, hget, hmerged⟩
  rw [hget] at hkept
  have hcleared : u.description = none := hmerged .description
  simp [hcleared] at hkept

end SyncServer.Accounts
