import SyncServer.Base.Runs
import SyncServer.Moderation.Text

/-! # Blocked terms and words

`detect_blocked_term` looks for single words among the tokens of a text, and for phrases in the text
itself. So the verdict may depend on more than the words of the text: on what stands between two
words, and on words that end or begin with those of a phrase.
-/

namespace SyncServer.Moderation

def isSeparator (c : Char) : Bool := !c.isAlphanum

/-- The words of a text, as `detect_blocked_term` splits it. -/
def wordsOf (unicode : Unicode) (value : String) : List String :=
  tokens (unicode.toLowercase (trim value))

def IsPhrase (term : String) : Prop := ' ' ∈ term.toList

instance : DecidablePred IsPhrase := fun term => inferInstanceAs (Decidable (' ' ∈ term.toList))

def termWords (term : String) : List String := (term.toList.splitOn ' ').map String.ofList

/-- The words of a term occur as consecutive words. -/
def Occurs (term : String) (words : List String) : Prop := termWords term <:+: words

instance (term : String) (words : List String) : Decidable (Occurs term words) :=
  inferInstanceAs (Decidable (_ <:+: _))

def Touches (term : String) (words : List String) : Prop :=
  ∃ a b front x y rest, term.toList = a ++ ' ' :: b ∧ words = front ++ x :: y :: rest ∧
    a <:+ x.toList ∧ b <+: y.toList

/-- For the words of this text, `f` says the same of all texts, and `f` reports something exactly if a
blocked term is among the words. -/
def DecidedByWords {β : Type} (unicode : Unicode) (f : String → β) (reports : β → Bool)
    (value : String) : Prop :=
  (∀ value', wordsOf unicode value' = wordsOf unicode value → f value' = f value) ∧
    (reports (f value) = true ↔ ∃ term ∈ blockedTerms, Occurs term (wordsOf unicode value))

/-! ## Terms -/

def matchesTerm (lowercase term : String) : Bool :=
  if ' ' ∈ term.toList then containsText lowercase term else term ∈ tokens lowercase

theorem tokens_eq_runs (s : String) : tokens s = (runs isSeparator s.toList).map String.ofList := rfl

theorem detectBlockedTerm_eq (unicode : Unicode) (value : String) :
    detectBlockedTerm unicode value =
      blockedTerms.find? (matchesTerm (unicode.toLowercase (trim value))) := by
  rw [detectBlockedTerm]
  split
  · rename_i hempty
    rw [hempty]
    decide
  · rfl

theorem phrase_words {term : String} (hterm : term ∈ blockedTerms) (h : IsPhrase term) :
    ∃ a b, term.toList = a ++ ' ' :: b ∧ a ≠ [] ∧ b ≠ [] ∧ (∀ c ∈ a, isSeparator c = false) ∧
      ∀ c ∈ b, isSeparator c = false := by
  have hphrases : ∀ term ∈ blockedTerms, IsPhrase term →
      term = "child porn" ∨ term = "kill yourself" := by decide
  rcases hphrases term hterm h with rfl | rfl
  · exact ⟨"child".toList, "porn".toList, by decide, by decide, by decide, by decide, by decide⟩
  · exact ⟨"kill".toList, "yourself".toList, by decide, by decide, by decide, by decide, by decide⟩

theorem occurs_iff_mem {term : String} (h : ¬ IsPhrase term) {words : List String} :
    Occurs term words ↔ term ∈ words := by
  have hone : termWords term = [term] := by
    rw [termWords, List.splitOn_eq_singleton h]
    simp
  rw [Occurs, hone]
  constructor
  · rintro ⟨front, rest, rfl⟩
    simp
  · intro hmem
    obtain ⟨front, rest, rfl⟩ := List.append_of_mem hmem
    exact ⟨front, rest, by simp⟩

theorem Occurs.touches {term : String} (hterm : term ∈ blockedTerms) (h : IsPhrase term)
    {words : List String} (hoccurs : Occurs term words) : Touches term words := by
  obtain ⟨a, b, hsplit, -, -, ha, hb⟩ := phrase_words hterm h
  have hspace : isSeparator ' ' = true := by decide
  have hnot : ∀ l : List Char, (∀ c ∈ l, isSeparator c = false) → ' ' ∉ l := by
    intro l hl hmem
    rw [hl ' ' hmem] at hspace
    cases hspace
  have hwords : termWords term = [String.ofList a, String.ofList b] := by
    rw [termWords, hsplit, List.splitOn_append_cons_self_of_not_mem (hnot a ha),
      List.splitOn_eq_singleton (hnot b hb)]
    rfl
  rw [Occurs, hwords] at hoccurs
  obtain ⟨front, rest, hmid⟩ := hoccurs
  exact ⟨a, b, front, String.ofList a, String.ofList b, rest, hsplit, by simp [← hmid], by simp,
    by simp⟩

theorem touches_of_containsText {term : String} (hterm : term ∈ blockedTerms) (h : IsPhrase term)
    {s : String} (hcontains : containsText s term = true) : Touches term (tokens s) := by
  obtain ⟨a, b, hsplit, hane, hbne, ha, hb⟩ := phrase_words hterm h
  rw [containsText, decide_eq_true_eq, hsplit] at hcontains
  obtain ⟨l, r, hs⟩ := hcontains
  have hlist : s.toList = l ++ a ++ ' ' :: (b ++ r) := by simp [← hs]
  obtain ⟨front, x, y, rest, hruns, hx, hy⟩ :=
    runs_around hane hbne (show isSeparator ' ' = true by decide) ha hb l r
  refine ⟨a, b, front.map String.ofList, String.ofList x, String.ofList y, rest.map String.ofList,
    hsplit, ?_, by simpa using hx, by simpa using hy⟩
  rw [tokens_eq_runs, hlist, hruns]
  simp

/-! ## Texts with given words -/

def textWith (c : Char) (words : List String) : String :=
  String.ofList ([c].intercalate (words.map String.toList))

def PlainWord (w : String) : Prop :=
  w.toList ≠ [] ∧ ∀ c ∈ w.toList, isSeparator c = false ∧ c.toLower = c

theorem tokens_textWith {c : Char} (hc : isSeparator c = true) {words : List String}
    (h : ∀ w ∈ words, PlainWord w) : tokens (textWith c words) = words := by
  have hruns : ∀ w ∈ words.map String.toList, w ≠ [] ∧ ∀ x ∈ w, isSeparator x = false := by
    intro w hw
    obtain ⟨v, hv, rfl⟩ := List.mem_map.mp hw
    exact ⟨(h v hv).1, fun x hx => ((h v hv).2 x hx).1⟩
  rw [tokens_eq_runs, textWith, String.toList_ofList, runs_intercalate hc hruns]
  simp

section
variable {c : Char} {words : List String}

theorem toLowercase_textWith (unicode : Unicode) (hc : isSeparator c = true) (hlow : c.toNat < 128) (hcase : c.toLower = c)
    (h : ∀ w ∈ words, PlainWord w) :
    unicode.toLowercase (trim (textWith c words)) = textWith c words := by
  have hne : ∀ w ∈ words.map String.toList, w ≠ [] := by
    intro w hw
    obtain ⟨v, hv, rfl⟩ := List.mem_map.mp hw
    exact (h v hv).1
  have hplain : ∀ x, (∃ w ∈ words.map String.toList, x ∈ w) →
      48 ≤ x.toNat ∧ x.toNat ≤ 122 ∧ x.toLower = x := by
    rintro x ⟨w, hw, hx⟩
    obtain ⟨v, hv, rfl⟩ := List.mem_map.mp hw
    obtain ⟨hsep, hlower⟩ := (h v hv).2 x hx
    have hrange := isAlphanum_range (show x.isAlphanum = true by simpa [isSeparator] using hsep)
    exact ⟨hrange.1, hrange.2, hlower⟩
  have htrim : trim (textWith c words) = textWith c words := by
    apply trim_eq_self
    · intro x hx
      rw [textWith, String.toList_ofList] at hx
      obtain ⟨h₁, h₂, -⟩ := hplain x (head?_intercalate hne hx)
      exact not_isWhitespace_of_range (by omega) (by omega)
    · intro x hx
      rw [textWith, String.toList_ofList] at hx
      obtain ⟨h₁, h₂, -⟩ := hplain x (getLast?_intercalate hne hx)
      exact not_isWhitespace_of_range (by omega) (by omega)
  have hchars : ∀ x ∈ (textWith c words).toList, x.toNat < 128 ∧ x.toLower = x := by
    intro x hx
    rw [textWith, String.toList_ofList] at hx
    rcases mem_intercalate hx with rfl | hw
    · exact ⟨hlow, hcase⟩
    · obtain ⟨-, h₂, h₃⟩ := hplain x hw
      exact ⟨by omega, h₃⟩
  rw [htrim, unicode.toLowercase_ascii _ (fun x hx => (hchars x hx).1),
    List.map_congr_left (fun x hx => (hchars x hx).2), List.map_id', String.ofList_toList]

theorem containsText_textWith {term : String} (h : Touches term words) :
    containsText (textWith ' ' words) term = true := by
  obtain ⟨a, b, front, x, y, rest, hterm, rfl, ⟨a', ha⟩, ⟨b', hb⟩⟩ := h
  obtain ⟨l, r, hlr⟩ := intercalate_around ' ' (front.map String.toList) x.toList y.toList
    (rest.map String.toList)
  rw [containsText, decide_eq_true_eq, textWith, String.toList_ofList, hterm]
  refine ⟨l ++ a', b' ++ r, ?_⟩
  rw [List.map_append, List.map_cons, List.map_cons, hlr, ← ha, ← hb]
  simp

theorem not_containsText_textWith {term : String} (hterm : IsPhrase term)
    (h : ∀ w ∈ words, PlainWord w) : containsText (textWith '-' words) term = false := by
  rw [containsText, decide_eq_false_iff_not]
  intro hin
  have hspace := hin.subset hterm
  rw [textWith, String.toList_ofList] at hspace
  rcases mem_intercalate hspace with heq | ⟨w, hw, hmem⟩
  · exact absurd heq (by decide)
  · obtain ⟨v, hv, rfl⟩ := List.mem_map.mp hw
    have hsep := ((h v hv).2 ' ' hmem).1
    revert hsep
    decide

end

/-! ## The verdict -/

/-- A blocked term of one word is among the words. -/
def HasBlockedWord (terms words : List String) : Prop :=
  ∃ term ∈ terms, ¬ IsPhrase term ∧ term ∈ words

/-- There is a blocked word, or no phrase is touched. -/
def FlagDecided (words : List String) : Prop :=
  HasBlockedWord blockedTerms words ∨ ∀ term ∈ blockedTerms, IsPhrase term → ¬ Touches term words

/-- There is a blocked word that is listed before any phrase that is touched. -/
def TermDecided (words : List String) : Prop :=
  ∀ front term rest, blockedTerms = front ++ term :: rest → IsPhrase term → Touches term words →
    HasBlockedWord front words

section
variable {unicode : Unicode} {value value' : String} {words : List String}

theorem matchesTerm_word {s term : String} (h : ¬ IsPhrase term) :
    matchesTerm s term = true ↔ term ∈ tokens s := by
  rw [matchesTerm, if_neg (show ' ' ∉ term.toList from h), decide_eq_true_eq]

theorem matchesTerm_phrase {s term : String} (h : IsPhrase term) :
    matchesTerm s term = containsText s term := if_pos h

theorem isSome_detectBlockedTerm : (detectBlockedTerm unicode value).isSome = true ↔
    ∃ term ∈ blockedTerms, matchesTerm (unicode.toLowercase (trim value)) term = true := by
  rw [detectBlockedTerm_eq, List.find?_isSome]

def findWord (words : List String) : Option String :=
  blockedTerms.find? (fun term => decide (¬ IsPhrase term ∧ term ∈ words))

theorem isSome_findWord : (findWord words).isSome = true ↔ HasBlockedWord blockedTerms words := by
  rw [findWord, List.find?_isSome]
  simp [HasBlockedWord]

theorem find?_eq_of_earlier {α : Type} {p q : α → Bool} {l : List α}
    (hpq : ∀ x ∈ l, q x = true → p x = true)
    (hearlier : ∀ front x rest, l = front ++ x :: rest → p x = true → q x = false →
      ∃ y ∈ front, q y = true) : l.find? p = l.find? q := by
  induction l with
  | nil => rfl
  | cons x rest ih =>
    by_cases hq : q x = true
    · simp [hq, hpq x (by simp) hq]
    · rw [Bool.not_eq_true] at hq
      have hp : p x = false := by
        by_contra hp
        rw [Bool.not_eq_false] at hp
        obtain ⟨y, hy, -⟩ := hearlier [] x rest rfl hp hq
        cases hy
      rw [List.find?_cons_of_neg (by simp [hp]), List.find?_cons_of_neg (by simp [hq])]
      refine ih (fun y hy => hpq y (List.mem_cons_of_mem _ hy)) (fun front y tail hl hpy hqy => ?_)
      obtain ⟨z, hz, hqz⟩ := hearlier (x :: front) y tail (by rw [hl]; rfl) hpy hqy
      rcases List.mem_cons.mp hz with rfl | hz
      · rw [hq] at hqz
        cases hqz
      · exact ⟨z, hz, hqz⟩

theorem detect_of_termDecided (h : TermDecided (wordsOf unicode value)) :
    detectBlockedTerm unicode value = findWord (wordsOf unicode value) := by
  rw [detectBlockedTerm_eq]
  apply find?_eq_of_earlier
  · intro term _ hword
    rw [decide_eq_true_eq] at hword
    exact (matchesTerm_word hword.1).mpr hword.2
  · intro front term rest hsplit hmatch hnot
    have hterm : term ∈ blockedTerms := by simp [hsplit]
    by_cases hphrase : IsPhrase term
    · rw [matchesTerm_phrase hphrase] at hmatch
      obtain ⟨w, hw, hblocked⟩ :=
        h front term rest hsplit hphrase (touches_of_containsText hterm hphrase hmatch)
      exact ⟨w, hw, decide_eq_true hblocked⟩
    · rw [matchesTerm_word hphrase] at hmatch
      rw [decide_eq_false_iff_not] at hnot
      exact absurd ⟨hphrase, hmatch⟩ hnot

theorem termDecided_of_untouched (h : ∀ term ∈ blockedTerms, IsPhrase term → ¬ Touches term words) :
    TermDecided words := by
  intro front term rest hsplit hphrase htouches
  exact absurd htouches (h term (by simp [hsplit]) hphrase)

theorem isSome_detect_of_blockedWord (h : HasBlockedWord blockedTerms (wordsOf unicode value)) :
    (detectBlockedTerm unicode value).isSome = true := by
  obtain ⟨term, hterm, hword, hmem⟩ := h
  exact isSome_detectBlockedTerm.mpr ⟨term, hterm, (matchesTerm_word hword).mpr hmem⟩

theorem occurs_of_blockedWord (h : HasBlockedWord blockedTerms words) :
    ∃ term ∈ blockedTerms, Occurs term words := by
  obtain ⟨term, hterm, hword, hmem⟩ := h
  exact ⟨term, hterm, (occurs_iff_mem hword).mpr hmem⟩

theorem termDecided_occurs (h : TermDecided words) :
    (∃ term ∈ blockedTerms, Occurs term words) ↔ HasBlockedWord blockedTerms words := by
  constructor
  · rintro ⟨term, hterm, hoccurs⟩
    by_cases hphrase : IsPhrase term
    · obtain ⟨front, rest, hsplit⟩ := List.append_of_mem hterm
      obtain ⟨w, hw, hblocked⟩ := h front term rest hsplit hphrase (hoccurs.touches hterm hphrase)
      exact ⟨w, by simp [hsplit, hw], hblocked⟩
    · exact ⟨term, hterm, hphrase, (occurs_iff_mem hphrase).mp hoccurs⟩
  · exact occurs_of_blockedWord

/-! ## Two texts with the same words -/

variable (hlower : ∀ s, ∀ c ∈ (unicode.toLowercase s).toList, c.toLower = c)
include hlower

theorem plainWord_of_mem {w : String} (h : w ∈ wordsOf unicode value) : PlainWord w := by
  rw [wordsOf, tokens_eq_runs, List.mem_map] at h
  obtain ⟨l, hl, rfl⟩ := h
  obtain ⟨hne, hchars⟩ := mem_runs hl
  rw [PlainWord, String.toList_ofList]
  exact ⟨hne, fun c hc => ⟨(hchars c hc).2, hlower _ c (hchars c hc).1⟩⟩

theorem detect_spaced (value : String) : wordsOf unicode (textWith ' ' (wordsOf unicode value)) =
      wordsOf unicode value ∧
    ∀ term, IsPhrase term → Touches term (wordsOf unicode value) →
      matchesTerm (unicode.toLowercase (trim (textWith ' ' (wordsOf unicode value)))) term = true := by
  have hplain : ∀ w ∈ wordsOf unicode value, PlainWord w := fun w => plainWord_of_mem hlower
  have hlow := toLowercase_textWith unicode (c := ' ') (by decide) (by decide) (by decide) hplain
  constructor
  · rw [wordsOf, hlow, tokens_textWith (by decide) hplain]
  · intro term hphrase htouches
    rw [hlow, matchesTerm_phrase hphrase]
    exact containsText_textWith htouches

theorem detect_hyphened (value : String) : wordsOf unicode (textWith '-' (wordsOf unicode value)) =
      wordsOf unicode value ∧
    ∀ term, IsPhrase term →
      matchesTerm (unicode.toLowercase (trim (textWith '-' (wordsOf unicode value)))) term = false := by
  have hplain : ∀ w ∈ wordsOf unicode value, PlainWord w := fun w => plainWord_of_mem hlower
  have hlow := toLowercase_textWith unicode (c := '-') (by decide) (by decide) (by decide) hplain
  constructor
  · rw [wordsOf, hlow, tokens_textWith (by decide) hplain]
  · intro term hphrase
    rw [hlow, matchesTerm_phrase hphrase]
    exact not_containsText_textWith hphrase hplain

theorem flagDecided_iff :
    DecidedByWords unicode (fun v => (detectBlockedTerm unicode v).isSome) id value ↔
      FlagDecided (wordsOf unicode value) := by
  constructor
  · rintro ⟨hsame, -⟩
    rw [FlagDecided, or_iff_not_imp_left]
    intro hword term hterm hphrase htouches
    obtain ⟨hspaced, hfound⟩ := detect_spaced hlower value
    obtain ⟨hhyphened, hmissed⟩ := detect_hyphened hlower value
    have hyes : (detectBlockedTerm unicode (textWith ' ' (wordsOf unicode value))).isSome = true :=
      isSome_detectBlockedTerm.mpr ⟨term, hterm, hfound term hphrase htouches⟩
    have hno : (detectBlockedTerm unicode (textWith '-' (wordsOf unicode value))).isSome = false := by
      rw [← Bool.not_eq_true, isSome_detectBlockedTerm]
      rintro ⟨other, hother, hmatch⟩
      by_cases hphrase' : IsPhrase other
      · rw [hmissed other hphrase'] at hmatch
        cases hmatch
      · rw [matchesTerm_word hphrase'] at hmatch
        exact hword ⟨other, hother, hphrase', hhyphened ▸ hmatch⟩
    have heq := (hsame _ hspaced).trans (hsame _ hhyphened).symm
    dsimp only at heq
    rw [hyes, hno] at heq
    cases heq
  · rintro (hword | huntouched)
    · refine ⟨fun value' hwords => ?_, ?_⟩
      · exact (isSome_detect_of_blockedWord (hwords ▸ hword)).trans
          (isSome_detect_of_blockedWord hword).symm
      · exact iff_of_true (isSome_detect_of_blockedWord hword) (occurs_of_blockedWord hword)
    · have hdecided := termDecided_of_untouched huntouched
      refine ⟨fun value' hwords => ?_, ?_⟩
      · dsimp only
        rw [detect_of_termDecided (hwords ▸ hdecided), hwords, detect_of_termDecided hdecided]
      · change (detectBlockedTerm unicode value).isSome = true ↔ _
        rw [termDecided_occurs hdecided, detect_of_termDecided hdecided]
        exact isSome_findWord

theorem termDecided_iff :
    DecidedByWords unicode (detectBlockedTerm unicode) Option.isSome value ↔
      TermDecided (wordsOf unicode value) := by
  constructor
  · rintro ⟨hsame, -⟩ front term rest hsplit hphrase htouches
    by_contra hword
    obtain ⟨hspaced, hfound⟩ := detect_spaced hlower value
    obtain ⟨hhyphened, hmissed⟩ := detect_hyphened hlower value
    have heq := (hsame _ hspaced).trans (hsame _ hhyphened).symm
    -- With spaces a phrase is reported, with hyphens a word or nothing.
    have hreports : ∃ other, detectBlockedTerm unicode (textWith ' ' (wordsOf unicode value)) =
        some other ∧ IsPhrase other := by
      rw [detectBlockedTerm_eq, hsplit, List.find?_append,
        List.find?_cons_of_pos (hfound term hphrase htouches)]
      rcases hfront : front.find? (matchesTerm (unicode.toLowercase
        (trim (textWith ' ' (wordsOf unicode value))))) with _ | other
      · exact ⟨term, rfl, hphrase⟩
      · refine ⟨other, rfl, ?_⟩
        by_contra hother
        have hmatch := List.find?_some hfront
        rw [matchesTerm_word hother] at hmatch
        exact hword ⟨other, List.mem_of_find?_eq_some hfront, hother, hspaced ▸ hmatch⟩
    obtain ⟨other, hother, hphrase'⟩ := hreports
    rw [hother, detectBlockedTerm_eq] at heq
    have hmatch := List.find?_some heq.symm
    rw [hmissed other hphrase'] at hmatch
    cases hmatch
  · intro hdecided
    refine ⟨fun value' hwords => ?_, ?_⟩
    · rw [detect_of_termDecided (hwords ▸ hdecided), hwords, detect_of_termDecided hdecided]
    · rw [termDecided_occurs hdecided, detect_of_termDecided hdecided]
      exact isSome_findWord

end

/-- The words of a text decide whether it is flagged exactly if one of them is blocked or they touch no
phrase, and they decide which term is reported exactly if a blocked word is listed before every phrase
that they touch. -/
theorem detect_decided_iff (unicode : Unicode)
    (hlower : ∀ s, ∀ c ∈ (unicode.toLowercase s).toList, c.toLower = c) (value : String) :
    (DecidedByWords unicode (fun v => (detectBlockedTerm unicode v).isSome) id value ↔
      FlagDecided (wordsOf unicode value)) ∧
    (DecidedByWords unicode (detectBlockedTerm unicode) Option.isSome value ↔
      TermDecided (wordsOf unicode value)) :=
  ⟨flagDecided_iff hlower, termDecided_iff hlower⟩

theorem toLower_ascii (s : String) : ∀ c ∈ (Unicode.ascii.toLowercase s).toList, c.toLower = c := by
  intro c hc
  obtain ⟨a, -, rfl⟩ : ∃ a ∈ s.toList, a.toLower = c := by simpa [Unicode.ascii] using hc
  exact toLower_toLower a

theorem detect_decided_word :
    DecidedByWords .ascii (fun v => (detectBlockedTerm .ascii v).isSome) id "child  porn, or cp" :=
  (detect_decided_iff .ascii toLower_ascii "child  porn, or cp").1.mpr
    (.inl ⟨"cp", by decide, by decide, by decide⟩)

/-- A second space hides a phrase, and a longer word is taken for one. -/
theorem spacing_escapes :
    wordsOf .ascii "child  porn" = wordsOf .ascii "child porn" ∧
    detectBlockedTerm .ascii "child  porn" = none ∧
    detectBlockedTerm .ascii "child porn" = some "child porn" ∧
    detectBlockedTerm .ascii "child pornography" = some "child porn" ∧
    ¬ ∃ term ∈ blockedTerms, Occurs term (wordsOf .ascii "child pornography") := by
  refine ⟨?_, ?_, ?_, ?_, ?_⟩
  all_goals decide +kernel

end SyncServer.Moderation
