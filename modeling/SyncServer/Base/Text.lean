import Mathlib.Algebra.Group.Nat.Defs
import Mathlib.Data.List.Basic
import Mathlib.Data.List.Infix
import Mathlib.Tactic.Common

/-! # Strings

The string operations of the server, on the characters of a string.
-/

namespace SyncServer

/-- Strings are ordered by their code points. -/
instance textLT : LT String := String.instLT

/-- What holds of all characters of a text is decided along the text. -/
instance decidableForallChars (l : List Char) (p : Char → Prop) [DecidablePred p] :
    Decidable (∀ c ∈ l, p c) := List.decidableBAll p l

/-- Unicode `White_Space`. -/
def isWhitespace (c : Char) : Bool :=
  (9 ≤ c.toNat && c.toNat ≤ 13) || c.toNat == 0x20 || c.toNat == 0x85 || c.toNat == 0xA0 ||
    c.toNat == 0x1680 || (0x2000 ≤ c.toNat && c.toNat ≤ 0x200A) || c.toNat == 0x2028 ||
    c.toNat == 0x2029 || c.toNat == 0x202F || c.toNat == 0x205F || c.toNat == 0x3000

/-- Unicode general category `Cc`. -/
def isControl (c : Char) : Bool := c.toNat < 0x20 || (0x7F ≤ c.toNat && c.toNat < 0xA0)

/-- `str::trim` on characters. -/
def trimChars (l : List Char) : List Char :=
  ((l.dropWhile isWhitespace).reverse.dropWhile isWhitespace).reverse

/-- `str::trim`. -/
def trim (s : String) : String := String.ofList (trimChars s.toList)

/-- What a column of type `TEXT` takes: PostgreSQL refuses U+0000 (22021). -/
def isText (s : String) : Bool := s.toList.all (fun c => c.toNat ≠ 0)

@[simp] theorem isText_empty : isText "" = true := rfl

/-- `str::ends_with`. -/
def endsWith (s suffix : String) : Bool := suffix.toList.isSuffixOf s.toList

/-- `str::starts_with`. -/
def startsWith (s start : String) : Bool := start.toList.isPrefixOf s.toList

/-- `str::contains`. -/
def containsText (s t : String) : Bool := t.toList <:+: s.toList

/-- `str::split_once`. -/
def splitOnce (c : Char) (s : String) : Option (String × String) :=
  if c ∈ s.toList then
    some (String.ofList (s.toList.takeWhile (· ≠ c)),
      String.ofList (s.toList.dropWhile (· ≠ c)).tail)
  else none

/-- `str::split_whitespace`. -/
def splitWhitespace (s : String) : List String :=
  ((s.toList.splitOnP isWhitespace).filter (· ≠ [])).map String.ofList

/-- `str::parse::<u32>`. -/
def parseU32 (s : String) : Option Nat :=
  let digits : List Char := match s.toList with
    | '+' :: rest => rest
    | l => l
  let n : Nat := digits.foldl (fun acc c => 10 * acc + (c.toNat - 48)) 0
  if digits ≠ [] ∧ digits.all Char.isDigit ∧ n < 2 ^ 32 then some n else none

/-- `str::trim_matches` for a character. -/
def trimMatches (c : Char) (s : String) : String :=
  String.ofList ((s.toList.dropWhile (· = c)).reverse.dropWhile (· = c)).reverse

/-- `str::split` at a character. -/
def splitChar (c : Char) (s : String) : List String := (s.toList.splitOn c).map String.ofList

/-- `str::lines`: a carriage return before the end of a line, and an empty last line, do not
count. -/
def textLines (s : String) : List String :=
  let ls := s.toList.splitOn '\n'
  let ls := if ls.getLast? = some [] then ls.dropLast else ls
  ls.map (fun l => String.ofList (if l.getLast? = some '\r' then l.dropLast else l))

/-- `[String]::join` with line feeds. -/
def joinLines (parts : List String) : String :=
  String.ofList (['\n'].intercalate (parts.map String.toList))

/-- `str::eq_ignore_ascii_case` and header names: ASCII letters in lower case. -/
def asciiLower (s : String) : String := String.ofList (s.toList.map Char.toLower)

theorem isUpper_eq (c : Char) : c.isUpper = decide (65 ≤ c.toNat ∧ c.toNat ≤ 90) :=
  decide_eq_decide.mpr (and_congr UInt32.le_iff_toNat_le UInt32.le_iff_toNat_le)

theorem isLower_eq (c : Char) : c.isLower = decide (97 ≤ c.toNat ∧ c.toNat ≤ 122) := by
  rw [Bool.decide_and]
  exact congrArg₂ and (decide_eq_decide.mpr UInt32.le_iff_toNat_le)
    (decide_eq_decide.mpr UInt32.le_iff_toNat_le)

theorem isAlpha_eq (c : Char) : c.isAlpha = (c.isUpper || c.isLower) := rfl

theorem eq_of_toLower {c d : Char} (h : c.toLower = d) (hd : d.isAlpha = false) : c = d := by
  unfold Char.toLower at h
  split at h
  · rename_i hc
    obtain ⟨h₁, h₂⟩ := hc
    subst h
    simp only [isAlpha_eq, isUpper_eq, isLower_eq, Bool.or_eq_false_iff,
      decide_eq_false_iff_not, ge_iff_le, UInt32.le_iff_toNat_le, Char.toNat,
      UInt32.toNat_add, UInt32.toNat_sub] at hd h₁ h₂
    have hA : 'A'.val.toNat = 65 := rfl
    have hZ : 'Z'.val.toNat = 90 := rfl
    have ha : 'a'.val.toNat = 97 := rfl
    have hz : 'z'.val.toNat = 122 := rfl
    omega
  · exact h

theorem toLower_cases (c : Char) :
    c.toLower = c ∨ 65 ≤ c.toNat ∧ c.toNat ≤ 90 ∧ c.toLower.toNat = c.toNat + 32 := by
  unfold Char.toLower
  split
  · rename_i hc
    obtain ⟨h₁, h₂⟩ := hc
    right
    simp only [UInt32.le_iff_toNat_le, ge_iff_le] at h₁ h₂
    have hA : 'A'.val.toNat = 65 := rfl
    have hZ : 'Z'.val.toNat = 90 := rfl
    simp only [Char.toNat, UInt32.toNat_add, UInt32.toNat_sub]
    have ha : 'a'.val.toNat = 97 := rfl
    omega
  · exact .inl rfl

theorem toLower_toLower (c : Char) : c.toLower.toLower = c.toLower := by
  rcases toLower_cases c.toLower with h | ⟨-, hle, -⟩
  · exact h
  · rcases toLower_cases c with h | ⟨hge, -, hc⟩
    · rw [h, h]
    · omega

theorem isAlphanum_range {c : Char} (h : c.isAlphanum = true) : 48 ≤ c.toNat ∧ c.toNat ≤ 122 := by
  simp only [Char.isAlphanum, isAlpha_eq, isUpper_eq, isLower_eq, Char.isDigit,
    Bool.or_eq_true, Bool.and_eq_true, decide_eq_true_eq, ge_iff_le, UInt32.le_iff_toNat_le,
    Char.toNat_val] at h
  have h0 : '0'.toNat = 48 := rfl
  have h9 : '9'.toNat = 57 := rfl
  omega

theorem not_isWhitespace_of_range {c : Char} (h : 33 ≤ c.toNat) (h' : c.toNat ≤ 126) :
    isWhitespace c = false := by
  simp only [isWhitespace, Bool.or_eq_false_iff, Bool.and_eq_false_iff, decide_eq_false_iff_not,
    beq_eq_false_iff_ne, ne_eq]
  omega

theorem isWhitespace_toLower (c : Char) : isWhitespace c.toLower = isWhitespace c := by
  rcases toLower_cases c with h | ⟨h₁, h₂, h₃⟩
  · rw [h]
  · rw [not_isWhitespace_of_range (by omega) (by omega),
      not_isWhitespace_of_range (by omega) (by omega)]

theorem splitChar_intercalate {c : Char} {parts : List String} (h : ∀ p ∈ parts, c ∉ p.toList)
    (hne : parts ≠ []) :
    splitChar c (String.ofList ([c].intercalate (parts.map String.toList))) = parts := by
  rw [splitChar, String.toList_ofList, List.splitOn_intercalate]
  · simp
  · simpa using h
  · simpa using hne

theorem splitChar_joinLines {parts : List String} (h : ∀ p ∈ parts, '\n' ∉ p.toList)
    (hne : parts ≠ []) : splitChar '\n' (joinLines parts) = parts :=
  splitChar_intercalate h hne

theorem dropWhile_eq_self {α : Type} {p : α → Bool} {l : List α} (h : ∀ a ∈ l.head?, p a = false) :
    l.dropWhile p = l := by
  cases l with
  | nil => rfl
  | cons a l => simp [h a rfl]

theorem trim_eq_self {s : String} (h₁ : ∀ c ∈ s.toList.head?, isWhitespace c = false)
    (h₂ : ∀ c ∈ s.toList.getLast?, isWhitespace c = false) : trim s = s := by
  rw [trim, trimChars, dropWhile_eq_self h₁, dropWhile_eq_self (by simpa using h₂)]
  simp

theorem not_of_head?_dropWhile {α : Type} {p : α → Bool} {l : List α} {a : α}
    (h : a ∈ (l.dropWhile p).head?) : p a = false := by
  have := List.head?_dropWhile_not p l
  rw [Option.mem_def.mp h] at this
  simpa using this

theorem head?_trim {s : String} : ∀ c ∈ (trim s).toList.head?, isWhitespace c = false := by
  intro c hc
  obtain ⟨rest, hrest⟩ :
      trimChars s.toList <+: s.toList.dropWhile isWhitespace := by
    rw [trimChars, ← List.reverse_suffix, List.reverse_reverse]
    exact List.dropWhile_suffix _
  have hmem : c ∈ (s.toList.dropWhile isWhitespace).head? := by
    rw [← hrest, List.head?_append]
    simp only [trim, String.toList_ofList] at hc
    simp [Option.mem_def.mp hc]
  exact not_of_head?_dropWhile hmem

theorem getLast?_trim {s : String} : ∀ c ∈ (trim s).toList.getLast?, isWhitespace c = false := by
  intro c hc
  simp only [trim, trimChars, String.toList_ofList, List.getLast?_reverse] at hc
  exact not_of_head?_dropWhile hc

theorem trim_trim (s : String) : trim (trim s) = trim s := trim_eq_self head?_trim getLast?_trim

theorem all_dropWhile {α : Type} {p q : α → Bool} (h : ∀ a, p a = true → q a = true) (l : List α) :
    (l.dropWhile p).all q = l.all q := by
  induction l with
  | nil => rfl
  | cons a l ih =>
    by_cases ha : p a = true
    · simp [ha, h a ha, ih]
    · simp [ha]

theorem isText_trim (s : String) : isText (trim s) = isText s := by
  have hspace : ∀ c : Char, isWhitespace c = true → decide (c.toNat ≠ 0) = true := by
    intro c hc
    rw [decide_eq_true_eq]
    intro hzero
    simp [isWhitespace, hzero] at hc
  rw [isText, isText, trim, String.toList_ofList, trimChars, List.all_reverse,
    all_dropWhile hspace, List.all_reverse, all_dropWhile hspace]

/-- The quotes around a text are trimmed off, if it does not begin or end with one itself. -/
theorem trimMatches_quoted {c : Char} {s : String} (h₁ : c ∉ s.toList.head?)
    (h₂ : c ∉ s.toList.getLast?) :
    trimMatches c (String.singleton c ++ s ++ String.singleton c) = s := by
  have hcons : ∀ l : List Char, (c :: l).dropWhile (· = c) = l.dropWhile (· = c) := by
    intro l
    simp
  rcases hs : s.toList with _ | ⟨d, l⟩
  · have : s = "" := String.toList_eq_nil_iff.mp hs
    simp [trimMatches, this]
  have hd : d ≠ c := by
    rintro rfl
    exact h₁ (by simp [hs])
  have hfront : (s.toList ++ [c]).dropWhile (· = c) = s.toList ++ [c] := by
    rw [hs]
    exact dropWhile_eq_self (by simpa using hd)
  have hback : s.toList.reverse.dropWhile (· = c) = s.toList.reverse := by
    apply dropWhile_eq_self
    intro a ha
    have : a ≠ c := by
      rintro rfl
      exact h₂ (by simpa using ha)
    simpa using this
  have hlist : (String.singleton c ++ s ++ String.singleton c).toList = c :: (s.toList ++ [c]) := by
    simp
  rw [trimMatches, hlist, hcons, hfront, List.reverse_append, List.reverse_singleton,
    List.singleton_append, hcons, hback]
  simp

theorem splitOnce_eq_none {c : Char} {s : String} : splitOnce c s = none ↔ c ∉ s.toList := by
  simp [splitOnce]

theorem splitOnce_append {c : Char} {a b : String} (h : c ∉ a.toList) :
    splitOnce c (a ++ String.singleton c ++ b) = some (a, b) := by
  have hne : ∀ x ∈ a.toList, decide (x ≠ c) = true := by
    intro x hx
    have : x ≠ c := fun he => h (he ▸ hx)
    simpa using this
  have htake : (a.toList ++ c :: b.toList).takeWhile (· ≠ c) = a.toList := by
    rw [List.takeWhile_append_of_pos hne]
    simp
  have hdrop : (a.toList ++ c :: b.toList).dropWhile (· ≠ c) = c :: b.toList := by
    rw [List.dropWhile_append_of_pos hne]
    simp
  have hlist : (a ++ String.singleton c ++ b).toList = a.toList ++ c :: b.toList := by simp
  rw [splitOnce, hlist, if_pos (by simp), htake, hdrop]
  simp

/-- The tables of the standard library for case conversion. -/
structure Unicode where
  toLowercase : String → String
  toLowercase_ascii : ∀ s : String, (∀ c ∈ s.toList, c.toNat < 128) →
    toLowercase s = String.ofList (s.toList.map Char.toLower)

/-- Case conversion of ASCII characters only. -/
def Unicode.ascii : Unicode where
  toLowercase s := String.ofList (s.toList.map Char.toLower)
  toLowercase_ascii _ _ := rfl

/-- What holds of the conversion to lower case: a second one changes nothing, and no white
space appears at the ends of a text. -/
structure Unicode.LowercaseLaws (unicode : Unicode) : Prop where
  idem : ∀ s, unicode.toLowercase (unicode.toLowercase s) = unicode.toLowercase s
  ends : ∀ s, trim s = s → trim (unicode.toLowercase s) = unicode.toLowercase s

theorem Unicode.lowercaseLaws_ascii : Unicode.ascii.LowercaseLaws where
  idem s := by
    have h : Char.toLower ∘ Char.toLower = Char.toLower := funext toLower_toLower
    simp [ascii, h]
  ends s hs := by
    apply trim_eq_self
    · intro c hc
      simp only [ascii, String.toList_ofList, List.head?_map, Option.mem_def, Option.map_eq_some_iff] at hc
      obtain ⟨d, hd, rfl⟩ := hc
      rw [isWhitespace_toLower]
      exact head?_trim d (by rwa [hs])
    · intro c hc
      simp only [ascii, String.toList_ofList, List.getLast?_map, Option.mem_def, Option.map_eq_some_iff] at hc
      obtain ⟨d, hd, rfl⟩ := hc
      rw [isWhitespace_toLower]
      exact getLast?_trim d (by rwa [hs])

/-- Insertion into a `BTreeSet<String>`. -/
def insertSorted (s : String) : List String → List String
  | [] => [s]
  | t :: ts => if s < t then s :: t :: ts else if s = t then t :: ts else t :: insertSorted s ts

/-- `collect::<BTreeSet<_>>().into_iter().collect()`. -/
def sortedSet (l : List String) : List String := l.foldl (fun acc s => insertSorted s acc) []

theorem mem_insertSorted {s t : String} {l : List String} :
    t ∈ insertSorted s l ↔ t = s ∨ t ∈ l := by
  induction l with
  | nil => simp [insertSorted]
  | cons a l ih =>
    unfold insertSorted
    split
    · simp
    split
    · simp_all
    · simp only [List.mem_cons, ih]
      tauto

theorem pairwise_insertSorted {s : String} {l : List String} (h : l.Pairwise (· < ·)) :
    (insertSorted s l).Pairwise (· < ·) := by
  induction l with
  | nil => simp [insertSorted]
  | cons a l ih =>
    obtain ⟨ha, hl⟩ := List.pairwise_cons.mp h
    unfold insertSorted
    split
    · rename_i hs
      refine List.pairwise_cons.mpr ⟨fun t ht => ?_, h⟩
      rcases List.mem_cons.mp ht with rfl | ht
      · exact hs
      · exact String.lt_trans hs (ha t ht)
    split
    · exact h
    · rename_i hs hne
      refine List.pairwise_cons.mpr ⟨fun t ht => ?_, ih hl⟩
      rcases mem_insertSorted.mp ht with rfl | ht
      · rcases Std.lt_trichotomy a t with hlt | heq | hgt
        · exact hlt
        · exact absurd heq.symm hne
        · exact absurd hgt hs
      · exact ha t ht

theorem insertSorted_eq_append {s : String} {l : List String} (h : ∀ t ∈ l, t < s) :
    insertSorted s l = l ++ [s] := by
  induction l with
  | nil => rfl
  | cons a l ih =>
    have ha : a < s := h a (by simp)
    have hne : s ≠ a := by
      rintro rfl
      exact String.lt_irrefl _ ha
    rw [insertSorted, if_neg (String.lt_asymm ha), if_neg hne, ih (fun t ht => h t (by simp [ht]))]
    rfl

theorem mem_sortedSet {t : String} {l : List String} : t ∈ sortedSet l ↔ t ∈ l := by
  have h : ∀ acc : List String,
      t ∈ l.foldl (fun acc s => insertSorted s acc) acc ↔ t ∈ acc ∨ t ∈ l := by
    induction l with
    | nil => simp
    | cons a l ih =>
      intro acc
      rw [List.foldl_cons, ih, mem_insertSorted, List.mem_cons]
      tauto
  simp [sortedSet, h]

theorem pairwise_sortedSet (l : List String) : (sortedSet l).Pairwise (· < ·) := by
  have h : ∀ acc : List String, acc.Pairwise (· < ·) →
      (l.foldl (fun acc s => insertSorted s acc) acc).Pairwise (· < ·) := by
    induction l with
    | nil => exact fun acc hacc => hacc
    | cons a l ih => exact fun acc hacc => ih _ (pairwise_insertSorted hacc)
  exact h [] .nil

theorem sortedSet_eq_self {l : List String} (h : l.Pairwise (· < ·)) : sortedSet l = l := by
  have hfold : ∀ acc : List String, (acc ++ l).Pairwise (· < ·) →
      l.foldl (fun acc s => insertSorted s acc) acc = acc ++ l := by
    induction l with
    | nil => simp
    | cons a l ih =>
      intro acc hacc
      have hlt : ∀ t ∈ acc, t < a := by
        intro t ht
        exact (List.pairwise_append.mp hacc).2.2 t ht a (by simp)
      rw [List.foldl_cons, insertSorted_eq_append hlt,
        ih (List.pairwise_cons.mp h).2 _ (by simpa using hacc)]
      simp
  exact hfold [] (by simpa using h)

end SyncServer
