import Mathlib.Data.List.Basic
import Mathlib.Tactic.Common

/-! # Base64

The standard alphabet with canonical padding: three bytes are written as four digits, and what is
left at the end is filled up with equality signs.
-/

namespace SyncServer.Base64

/-- The digit with a value below 64. -/
def digit (n : Nat) : Char :=
  if n < 26 then Char.ofNat (n + 65)
  else if n < 52 then Char.ofNat (n + 71)
  else if n < 62 then Char.ofNat (n - 4)
  else if n = 62 then '+' else '/'

def value (c : Char) : Option Nat :=
  if 65 ≤ c.toNat ∧ c.toNat ≤ 90 then some (c.toNat - 65)
  else if 97 ≤ c.toNat ∧ c.toNat ≤ 122 then some (c.toNat - 71)
  else if 48 ≤ c.toNat ∧ c.toNat ≤ 57 then some (c.toNat + 4)
  else if c = '+' then some 62
  else if c = '/' then some 63 else none

theorem value_digit {n : Nat} (h : n < 64) : value (digit n) = some n := by
  have hall : ∀ n : Fin 64, value (digit n) = some n.val := by decide
  exact hall ⟨n, h⟩

theorem digit_ne_pad {n : Nat} (h : n < 64) : digit n ≠ '=' := by
  have hall : ∀ n : Fin 64, digit n ≠ '=' := by decide
  exact hall ⟨n, h⟩

/-! ## Encoding -/

def encodeBytes : List UInt8 → List Char
  | a :: b :: c :: rest =>
    digit (a.toNat / 4) :: digit (a.toNat % 4 * 16 + b.toNat / 16) ::
      digit (b.toNat % 16 * 4 + c.toNat / 64) :: digit (c.toNat % 64) :: encodeBytes rest
  | [a, b] =>
    [digit (a.toNat / 4), digit (a.toNat % 4 * 16 + b.toNat / 16), digit (b.toNat % 16 * 4), '=']
  | [a] => [digit (a.toNat / 4), digit (a.toNat % 4 * 16), '=', '=']
  | [] => []

def encode (bytes : List UInt8) : String := String.ofList (encodeBytes bytes)

/-! ## Decoding -/

def byte (n : Nat) : UInt8 := .ofNat n

@[simp] theorem byte_toNat (a : UInt8) : byte a.toNat = a := UInt8.ofNat_toNat

/-- The last digits, which may be followed by padding. Bits that are left over have to be zero. -/
def decodeLast (w x y z : Char) : Option (List UInt8) := do
  let w ← value w
  let x ← value x
  if z = '=' then
    if y = '=' then
      if x % 16 = 0 then some [byte (w * 4 + x / 16)] else none
    else
      let y ← value y
      if y % 4 = 0 then some [byte (w * 4 + x / 16), byte (x % 16 * 16 + y / 4)] else none
  else
    let y ← value y
    let z ← value z
    some [byte (w * 4 + x / 16), byte (x % 16 * 16 + y / 4), byte (y % 4 * 64 + z)]

/-- Four digits that are followed by others. -/
def decodeGroup (w x y z : Char) : Option (List UInt8) := do
  let w ← value w
  let x ← value x
  let y ← value y
  let z ← value z
  some [byte (w * 4 + x / 16), byte (x % 16 * 16 + y / 4), byte (y % 4 * 64 + z)]

def decodeChars : List Char → Option (List UInt8)
  | [] => some []
  | [w, x, y, z] => decodeLast w x y z
  | w :: x :: y :: z :: rest => do
    let bytes ← decodeGroup w x y z
    let others ← decodeChars rest
    some (bytes ++ others)
  | _ => none

def decode (text : String) : Option (List UInt8) := decodeChars text.toList

theorem decodeLast_of_ne_pad {w x y z : Char} (hz : z ≠ '=') :
    decodeLast w x y z = decodeGroup w x y z := by
  simp [decodeLast, decodeGroup, hz]

theorem decodeGroup_digits (a b c : UInt8) :
    decodeGroup (digit (a.toNat / 4)) (digit (a.toNat % 4 * 16 + b.toNat / 16))
      (digit (b.toNat % 16 * 4 + c.toNat / 64)) (digit (c.toNat % 64)) = some [a, b, c] := by
  have ha := a.toNat_lt
  have hb := b.toNat_lt
  have hc := c.toNat_lt
  unfold decodeGroup
  rw [value_digit (by omega), value_digit (by omega), value_digit (by omega),
    value_digit (by omega)]
  have h₁ : a.toNat / 4 * 4 + (a.toNat % 4 * 16 + b.toNat / 16) / 16 = a.toNat := by omega
  have h₂ : (a.toNat % 4 * 16 + b.toNat / 16) % 16 * 16 + (b.toNat % 16 * 4 + c.toNat / 64) / 4 =
      b.toNat := by omega
  have h₃ : (b.toNat % 16 * 4 + c.toNat / 64) % 4 * 64 + c.toNat % 64 = c.toNat := by omega
  simp only [Option.bind_eq_bind, Option.bind_some, h₁, h₂, h₃, byte_toNat]

theorem decodeChars_group (w x y z : Char) (hz : z ≠ '=') (rest : List Char) :
    decodeChars (w :: x :: y :: z :: rest) =
      (decodeGroup w x y z).bind (fun bytes => (decodeChars rest).map (bytes ++ ·)) := by
  cases rest with
  | nil =>
    change decodeLast w x y z = _
    rw [decodeLast_of_ne_pad hz]
    cases decodeGroup w x y z <;> simp [decodeChars]
  | cons v rest =>
    rw [decodeChars]
    · cases decodeGroup w x y z with
      | none => rfl
      | some bytes => cases decodeChars (v :: rest) <;> rfl
    · simp

/-- What is encoded is decoded again. -/
theorem decodeChars_encodeBytes (bytes : List UInt8) :
    decodeChars (encodeBytes bytes) = some bytes := by
  induction bytes using encodeBytes.induct with
  | case1 a b c rest ih =>
    have hc := c.toNat_lt
    rw [encodeBytes, decodeChars_group _ _ _ _ (digit_ne_pad (by omega)), decodeGroup_digits, ih]
    rfl
  | case2 a b =>
    have ha := a.toNat_lt
    have hb := b.toNat_lt
    have h₁ : a.toNat / 4 * 4 + (a.toNat % 4 * 16 + b.toNat / 16) / 16 = a.toNat := by omega
    have h₂ : (a.toNat % 4 * 16 + b.toNat / 16) % 16 * 16 + b.toNat % 16 * 4 / 4 = b.toNat := by
      omega
    have h₃ : b.toNat % 16 * 4 % 4 = 0 := by omega
    rw [encodeBytes, decodeChars, decodeLast, value_digit (by omega), value_digit (by omega),
      value_digit (by omega)]
    simp only [Option.bind_eq_bind, Option.bind_some, if_true, if_false, h₁, h₂, h₃, byte_toNat,
      digit_ne_pad (show b.toNat % 16 * 4 < 64 by omega)]
  | case3 a =>
    have ha := a.toNat_lt
    have h₁ : a.toNat / 4 * 4 + a.toNat % 4 * 16 / 16 = a.toNat := by omega
    have h₂ : a.toNat % 4 * 16 % 16 = 0 := by omega
    rw [encodeBytes, decodeChars, decodeLast, value_digit (by omega), value_digit (by omega)]
    simp only [Option.bind_eq_bind, Option.bind_some, if_true, h₁, h₂, byte_toNat]
  | case4 => rfl

theorem decode_encode (bytes : List UInt8) : decode (encode bytes) = some bytes := by
  simp [decode, encode, decodeChars_encodeBytes]

/-- What is written are digits and padding. -/
theorem mem_encodeBytes {bytes : List UInt8} {c : Char} (h : c ∈ encodeBytes bytes) :
    c = '=' ∨ ∃ n < 64, c = digit n := by
  induction bytes using encodeBytes.induct with
  | case1 a b d rest ih =>
    have ha := a.toNat_lt
    have hb := b.toNat_lt
    have hd := d.toNat_lt
    rw [encodeBytes] at h
    simp only [List.mem_cons] at h
    rcases h with h | h | h | h | h
    · exact .inr ⟨_, by omega, h⟩
    · exact .inr ⟨_, by omega, h⟩
    · exact .inr ⟨_, by omega, h⟩
    · exact .inr ⟨_, by omega, h⟩
    · exact ih h
  | case2 a b =>
    have ha := a.toNat_lt
    have hb := b.toNat_lt
    simp only [encodeBytes, List.mem_cons, List.not_mem_nil, or_false] at h
    rcases h with h | h | h | h
    · exact .inr ⟨_, by omega, h⟩
    · exact .inr ⟨_, by omega, h⟩
    · exact .inr ⟨_, by omega, h⟩
    · exact .inl h
  | case3 a =>
    have ha := a.toNat_lt
    simp only [encodeBytes, List.mem_cons, List.not_mem_nil, or_false] at h
    rcases h with h | h | h | h
    · exact .inr ⟨_, by omega, h⟩
    · exact .inr ⟨_, by omega, h⟩
    · exact .inl h
    · exact .inl h
  | case4 => cases h

example : encode [77, 97, 110, 77, 97, 77] = "TWFuTWFN" ∧ encode [77, 97] = "TWE=" ∧
    encode [77] = "TQ==" ∧ decode "TWF=" = none ∧ decode "TQ==TWFu" = none := by decide

end SyncServer.Base64
