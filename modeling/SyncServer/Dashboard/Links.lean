import SyncServer.Dashboard.Inert

/-! # Targets of links

A URL is escaped with its line, and the callback of the link escapes it once more. A page reads the
attribute once, so the link leads to the URL only where escaping does nothing.
-/

namespace SyncServer.Dashboard

/-! ## Reading an attribute -/

/-- The character references that `escapeHtml` writes. -/
def references : List (JsString × UInt16) :=
  [(js "&amp;", 38), (js "&lt;", 60), (js "&gt;", 62), (js "&quot;", 34), (js "&#39;", 39)]

def reference (s : JsString) : Option (JsString × UInt16) :=
  references.find? (fun r => r.1.isPrefixOf s)

def decodeFrom : Nat → JsString → JsString
  | 0, s => s
  | _ + 1, [] => []
  | n + 1, c :: s =>
    match reference (c :: s) with
    | some r => r.2 :: decodeFrom n ((c :: s).drop r.1.length)
    | none => c :: decodeFrom n s

def decodeAttribute (value : JsString) : JsString := decodeFrom value.length value

theorem reference_eq_none {c : UInt16} (hc : c ≠ 38) (s : JsString) :
    reference (c :: s) = none := by
  have hfirst : ∀ r ∈ references, r.1 = 38 :: r.1.tail := by decide
  rw [reference, List.find?_eq_none]
  intro r hr
  rw [hfirst r hr]
  simp [List.isPrefixOf, Ne.symm hc]

theorem decodeFrom_escaped {s : JsString} {n : Nat} (hn : s.length ≤ n) :
    decodeFrom n (s.flatMap escaped) = s := by
  induction s generalizing n with
  | nil => cases n <;> rfl
  | cons c s ih =>
    rcases n with _ | n
    · simp at hn
    have hrest : decodeFrom n (s.flatMap escaped) = s := ih (Nat.le_of_succ_le_succ hn)
    rw [List.flatMap_cons]
    by_cases h₁ : c = 38
    · subst h₁
      exact congrArg (38 :: ·) hrest
    by_cases h₂ : c = 60
    · subst h₂
      exact congrArg (60 :: ·) hrest
    by_cases h₃ : c = 62
    · subst h₃
      exact congrArg (62 :: ·) hrest
    by_cases h₄ : c = 34
    · subst h₄
      exact congrArg (34 :: ·) hrest
    by_cases h₅ : c = 39
    · subst h₅
      exact congrArg (39 :: ·) hrest
    · have hsame : escaped c = [c] := by simp [escaped, h₁, h₂, h₃, h₄, h₅]
      rw [hsame, List.cons_append, List.nil_append, decodeFrom, reference_eq_none h₁, hrest]

theorem length_le_escaped (s : JsString) : s.length ≤ (s.flatMap escaped).length := by
  have hunit : ∀ c, 1 ≤ (escaped c).length := by
    intro c
    unfold escaped
    split_ifs <;> simp [js]
  induction s with
  | nil => exact Nat.le_refl _
  | cons c s ih =>
    have := hunit c
    rw [List.flatMap_cons, List.length_append, List.length_cons]
    omega

theorem decodeAttribute_escapeHtml (s : JsString) : decodeAttribute (escapeHtml s) = s := by
  rw [escapeHtml_eq]
  exact decodeFrom_escaped (length_le_escaped s)

/-! ## What is escaped -/

/-- The units that escaping changes. -/
def specials : JsString := js "&<>\"'"

theorem escaped_eq {c : UInt16} (h : c ∉ specials) : escaped c = [c] := by
  have hunits : specials = [38, 60, 62, 34, 39] := by decide
  simp only [hunits, List.mem_cons, List.not_mem_nil, or_false, not_or] at h
  simp [escaped, h]

theorem escaped_mem_references {c : UInt16} (h : c ∈ specials) :
    ∃ r ∈ references, escaped c = r.1 := by
  revert c
  decide

theorem length_escaped {c : UInt16} (h : c ∈ specials) : 1 < (escaped c).length := by
  revert c
  decide

theorem escapeHtml_eq_self {s : JsString} (h : ∀ c ∈ s, c ∉ specials) : escapeHtml s = s := by
  rw [escapeHtml_eq]
  induction s with
  | nil => rfl
  | cons c s ih =>
    obtain ⟨hc, h⟩ := List.forall_mem_cons.mp h
    rw [List.flatMap_cons, escaped_eq hc, ih h]
    rfl

theorem notMem_specials {s : JsString} (h : escapeHtml s = s) : ∀ c ∈ s, c ∉ specials := by
  rw [escapeHtml_eq] at h
  intro c hc hspecial
  obtain ⟨a, b, rfl⟩ := List.append_of_mem hc
  have hlength := congrArg List.length h
  have ha := length_le_escaped a
  have hb := length_le_escaped b
  have hlong := length_escaped hspecial
  simp only [List.flatMap_append, List.flatMap_cons, List.length_append, List.length_cons] at hlength
  omega

theorem count_escapeHtml {c : UInt16} (hc : c ∉ specials) (hreference : ∀ r ∈ references, c ∉ r.1)
    (s : JsString) : (escapeHtml s).count c = s.count c := by
  rw [escapeHtml_eq]
  induction s with
  | nil => rfl
  | cons d s ih =>
    have hunit : (escaped d).count c = [d].count c := by
      by_cases hd : d ∈ specials
      · obtain ⟨r, hr, heq⟩ := escaped_mem_references hd
        have hne : d ≠ c := fun h => hc (h ▸ hd)
        rw [heq, List.count_eq_zero.mpr (hreference r hr)]
        simp [hne]
      · rw [escaped_eq hd]
    rw [List.flatMap_cons, List.count_append, ih, hunit, ← List.count_append]
    rfl

theorem forall_escapeHtml {q : UInt16 → Prop} (hreference : ∀ r ∈ references, ∀ c ∈ r.1, q c)
    {s : JsString} (hs : ∀ c ∈ s, q c) : ∀ c ∈ escapeHtml s, q c := by
  intro c hc
  rw [escapeHtml_eq] at hc
  obtain ⟨d, hd, hcd⟩ := List.mem_flatMap.mp hc
  by_cases hspecial : d ∈ specials
  · obtain ⟨r, hr, heq⟩ := escaped_mem_references hspecial
    exact hreference r hr c (heq ▸ hcd)
  · rw [escaped_eq hspecial, List.mem_singleton] at hcd
    exact hcd ▸ hs d hd

/-! ## What surrounds a label -/

section
variable {d before after b : JsString} {inner : Piece UInt16}

theorem needs_literal (hne : d ≠ []) (hb : ∀ c ∈ b, c ∉ d) : Piece.Needs b (literal d) := by
  obtain ⟨x, hx⟩ := List.exists_mem_of_ne_nil d hne
  refine ⟨(· == x), List.mem_map_of_mem hx, fun c hc => ?_⟩
  rw [beq_eq_false_iff_ne]
  rintro rfl
  exact hb c hc hx

theorem guarded_literal {pieces : List (Piece UInt16)} (hb : ∀ c ∈ b, c ∉ d)
    (h : Piece.Guarded b pieces) : Piece.Guarded b (literal d ++ pieces) := by
  induction d with
  | nil => exact h
  | cons x d ih =>
    refine ⟨fun c hc => ?_, ih (fun c hc hd => hb c hc (List.mem_cons_of_mem _ hd))⟩
    rw [beq_eq_false_iff_ne]
    rintro rfl
    exact hb c hc List.mem_cons_self

theorem guarded_between (hne : d ≠ []) (hinner : ∀ p, inner ≠ .one p) (hb : ∀ c ∈ b, c ∉ d) :
    Piece.Guarded b (between d inner) := by
  have hclose : Piece.Guarded b (literal d ++ []) := guarded_literal hb trivial
  rw [List.append_nil] at hclose
  rw [between, List.append_assoc]
  refine guarded_literal hb ?_
  cases inner with
  | one p => exact absurd rfl (hinner p)
  | shortest | longest => exact ⟨needs_literal hne hb, hclose⟩

theorem enclose_context (hne : d ≠ []) (hinner : ∀ p, inner ≠ .one p) (hopen : 91 ∉ d)
    (hb : ∀ c ∈ b, c ∉ d) (s : JsString) :
    enclose (between d inner) before after (js "[" ++ s ++ b) =
      js "[" ++ enclose (between d inner) before after s ++ b := by
  have hneeds : Piece.Needs b (between d inner) := by
    obtain ⟨p, hp, hnone⟩ := needs_literal hne hb
    exact ⟨p, by simp [between, hp], hnone⟩
  have hguarded := guarded_between hne hinner hb
  rcases d with _ | ⟨x, d⟩
  · exact absurd rfl hne
  have hx : ∀ c ∈ js "[", (c == x) = false := by
    intro c hc
    obtain rfl : c = 91 := by simpa [js] using hc
    rw [beq_eq_false_iff_ne]
    rintro rfl
    exact hopen List.mem_cons_self
  unfold enclose
  rw [Piece.replaceAll_append_right (by simp [between, literal]) hguarded hneeds]
  exact congrArg (· ++ b) (Piece.replaceAll_append_left hx s)

end

theorem emphasise_context (label : JsString) {b : JsString} (hb : ∀ c ∈ b, c ∉ js "*`") :
    emphasise (js "[" ++ label ++ b) = js "[" ++ emphasise label ++ escapeHtml b := by
  have hescaped : ∀ c ∈ escapeHtml b, c ∉ js "*`" := forall_escapeHtml (by decide) hb
  have houtside : ∀ {d : JsString}, (∀ c ∈ d, c ∈ js "*`") → ∀ c ∈ escapeHtml b, c ∉ d :=
    fun hd c hc hcd => hescaped c hc (hd c hcd)
  have hopen : escapeHtml (js "[") = js "[" := by decide +kernel
  simp only [emphasise, escapeHtml_append, hopen, strongPattern, emPattern, codePattern]
  rw [enclose_context (by decide) (by simp [dot]) (by decide) (houtside (by decide)),
    enclose_context (by decide) (by simp [dot]) (by decide) (houtside (by decide)),
    enclose_context (by decide) (by simp) (by decide) (houtside (by decide))]

/-! ## Labels -/

/-- What a link can have between its brackets. The first unit is taken as it is. -/
structure LinkLabel (label : JsString) : Prop where
  ne_nil : label ≠ []
  line : ∀ c ∈ label, isLineTerminator c = false
  closed : ¬ js "](" <:+: label.tail

def Inner (c : UInt16) : Prop := c ∉ js "](" ∧ isLineTerminator c = false

instance (c : UInt16) : Decidable (Inner c) := inferInstanceAs (Decidable (_ ∧ _))

theorem linkLabel_iff {s t : JsString} (h : Swaps Inner s t) : LinkLabel s ↔ LinkLabel t := by
  have hpair : js "](" = [93, 40] := by decide
  have hnil := not_congr h.eq_nil_iff
  have hline : (∀ c ∈ s, isLineTerminator c = false) ↔ ∀ c ∈ t, isLineTerminator c = false := by
    have hterminator : ∀ c, isLineTerminator c = true → (c ∈ s ↔ c ∈ t) :=
      fun c hc => h.mem_iff (fun hinner => by simp [hinner.2] at hc)
    constructor
    · intro hs c hct
      by_contra hc
      exact hc (hs c ((hterminator c (by simpa using hc)).mpr hct))
    · intro ht c hcs
      by_contra hc
      exact hc (ht c ((hterminator c (by simpa using hc)).mp hcs))
  have hclosed := not_congr (h.pair_tail_iff (x := 93) (y := 40) (by decide) (by decide))
  rw [← hpair] at hclosed
  constructor
  · intro h
    exact ⟨hnil.mp h.ne_nil, hline.mp h.line, hclosed.mp h.closed⟩
  · intro h
    exact ⟨hnil.mpr h.ne_nil, hline.mpr h.line, hclosed.mpr h.closed⟩

theorem swaps_escapeHtml (s : JsString) : Swaps Inner s (escapeHtml s) := by
  rw [escapeHtml_eq]
  induction s with
  | nil => exact .nil
  | cons c s ih =>
    rw [List.flatMap_cons]
    by_cases hc : c ∈ specials
    · have hunits : ∀ c ∈ specials, escaped c ≠ [] ∧ Inner c ∧ ∀ d ∈ escaped c, Inner d := by
        decide
      obtain ⟨hne, hinner, hescaped⟩ := hunits c hc
      exact .swap (List.cons_ne_nil c []) hne (by simpa using hinner) hescaped ih
    · rw [escaped_eq hc]
      exact .keep c ih

theorem swaps_enclose {d before after : JsString} {inner : Piece UInt16}
    (hinner : ∀ p, inner ≠ .one p) (hunits : ∀ t ∈ [d, before, after], t ≠ [] ∧ ∀ c ∈ t, Inner c)
    (s : JsString) : Swaps Inner s (enclose (between d inner) before after s) := by
  obtain ⟨⟨hd, hdi⟩, ⟨hb, hbi⟩, ha, hai⟩ : (d ≠ [] ∧ ∀ c ∈ d, Inner c) ∧
      (before ≠ [] ∧ ∀ c ∈ before, Inner c) ∧ after ≠ [] ∧ ∀ c ∈ after, Inner c := by
    simpa using hunits
  have hr := replaced_enclose d before after inner s
  generalize enclose (between d inner) before after s = t at hr ⊢
  induction hr with
  | nil => exact .nil
  | skip _ _ ih => exact .keep _ ih
  | hit hsome _ ih =>
    obtain ⟨t, rfl, ht⟩ := Piece.fits_of_matchPieces hsome
    obtain ⟨g, rfl, rfl⟩ := fits_between hinner ht
    simp only [List.append_assoc]
    exact .swap hd hb hdi hbi (.keep_append g (.swap hd ha hdi hai ih))

theorem linkLabel_emphasise (label : JsString) : LinkLabel label ↔ LinkLabel (emphasise label) := by
  have hstrong : ∀ s, Swaps Inner s (enclose strongPattern (js "<strong>") (js "</strong>") s) :=
    swaps_enclose (by simp [dot]) (by decide)
  have hem : ∀ s, Swaps Inner s (enclose emPattern (js "<em>") (js "</em>") s) :=
    swaps_enclose (by simp [dot]) (by decide)
  have hcode : ∀ s, Swaps Inner s (enclose codePattern (js "<code>") (js "</code>") s) :=
    swaps_enclose (by simp) (by decide)
  rw [linkLabel_iff (swaps_escapeHtml label), linkLabel_iff (hstrong _), linkLabel_iff (hem _),
    linkLabel_iff (hcode _)]
  rfl

/-! ## The link that is found -/

/-- `[label](URL)`. -/
def linkSource (label url : JsString) : JsString :=
  js "[" ++ label ++ js "](" ++ url ++ js ")"

theorem linkSource_eq (label url : JsString) :
    linkSource label url = js "[" ++ (label ++ (js "](" ++ (url ++ js ")"))) := by
  simp only [linkSource, List.append_assoc]

theorem matchPieces_literal_append (d : JsString) (pieces : List (Piece UInt16)) (s : JsString) :
    Piece.matchPieces (literal d ++ pieces) (d ++ s) = Piece.matchPieces pieces s := by
  induction d with
  | nil => rfl
  | cons c d ih =>
    have hself : (c == c) = true := by simp
    rw [List.cons_append, ← ih]
    exact if_pos hself

def targetPattern : List (Piece UInt16) := literal (js "](") ++ (dot :: literal (js ")"))

theorem linkPattern_eq_target : linkPattern = literal (js "[") ++ (dot :: targetPattern) := by
  simp [linkPattern, targetPattern]

theorem matchPieces_target {v : JsString} (hne : v ≠ [])
    (hline : ∀ c ∈ v, isLineTerminator c = false) (hclose : 41 ∉ v) :
    Piece.matchPieces targetPattern (js "](" ++ (v ++ js ")")) = some ([v], []) := by
  have hend : Piece.matchPieces (literal (js ")")) (js ")") = some ([], []) := by decide
  have hmatch : Piece.matchShortest (fun c => !isLineTerminator c)
      (Piece.matchPieces (literal (js ")"))) (v ++ js ")") = some (v, ([], [])) := by
    refine Piece.matchShortest_of_least hne (by simpa using hline) hend ?_
    intro x y hxy _ hy
    rcases y with _ | ⟨c, y⟩
    · exact absurd rfl hy
    have hc : c ≠ 41 := by
      rintro rfl
      exact hclose (by simp [hxy])
    simp [js, literal, Piece.matchPieces, hc]
  rw [targetPattern, matchPieces_literal_append, dot, Piece.matchPieces, hmatch]
  rfl

theorem prefix_of_matchPieces {d s : JsString} {pieces : List (Piece UInt16)}
    {m : List JsString × JsString} (h : Piece.matchPieces (literal d ++ pieces) s = some m) :
    d <+: s := by
  obtain ⟨t, rfl, ht⟩ := Piece.fits_of_matchPieces h
  obtain ⟨t', rfl, -⟩ := fits_literal ht
  simp [List.append_assoc]

theorem matchPieces_link {l v : JsString} (hl : LinkLabel l) (hne : v ≠ [])
    (hline : ∀ c ∈ v, isLineTerminator c = false) (hclose : 41 ∉ v) :
    Piece.matchPieces linkPattern (linkSource l v) = some ([l, v], []) := by
  have htarget := matchPieces_target hne hline hclose
  have hmatch : Piece.matchShortest (fun c => !isLineTerminator c)
      (Piece.matchPieces targetPattern) (l ++ (js "](" ++ (v ++ js ")"))) = some (l, ([v], [])) := by
    refine Piece.matchShortest_of_least hl.ne_nil (by simpa using hl.line) htarget ?_
    intro x y hxy hx hy
    rw [Option.eq_none_iff_forall_ne_some]
    intro m hm
    have hpair : js "](" = [93, 40] := by decide
    have hfront : [93, 40] <+: y ++ ([93, 40] ++ (v ++ js ")")) := by
      have hbegin := prefix_of_matchPieces hm
      rwa [hpair] at hbegin
    rcases x with _ | ⟨c, x⟩
    · exact absurd rfl hx
    rcases y with _ | ⟨c₁, _ | ⟨c₂, y⟩⟩
    · exact absurd rfl hy
    · simp at hfront
    · obtain ⟨rfl, rfl⟩ : 93 = c₁ ∧ 40 = c₂ := by simpa using hfront
      exact hl.closed ⟨x, y, by simp [hxy, hpair]⟩
  rw [linkPattern_eq_target, linkSource_eq, matchPieces_literal_append, dot, Piece.matchPieces,
    hmatch]
  rfl

theorem literal_fits {d t : JsString} {pieces : List (Piece UInt16)} {gs : List JsString}
    (h : Piece.Fits pieces gs t) : Piece.Fits (literal d ++ pieces) gs (d ++ t) := by
  induction d with
  | nil => exact h
  | cons c d ih => exact .one (by simp) ih

/-- What is found as a label can be one, if the line goes on behind it. -/
theorem linkLabel_of_matchPieces {l u v rest : JsString}
    (hline : ∀ c ∈ v, isLineTerminator c = false)
    (h : Piece.matchPieces linkPattern (linkSource l v) = some ([l, u], rest)) : LinkLabel l := by
  rw [linkPattern_eq_target, linkSource_eq, matchPieces_literal_append, dot, Piece.matchPieces] at h
  obtain ⟨⟨g, gs, rest'⟩, hm, heq⟩ := Option.map_eq_some_iff.mp h
  obtain rfl : g = l := (List.cons.inj (congrArg Prod.fst heq)).1
  obtain ⟨s', hs, hne, hl, -, hleast⟩ := Piece.of_matchShortest hm
  obtain rfl := List.append_cancel_left hs
  have hrun : ∀ c ∈ g, isLineTerminator c = false := by simpa using hl
  refine ⟨hne, hrun, ?_⟩
  rintro ⟨x, z, hz⟩
  rcases g with _ | ⟨c, g⟩
  · exact absurd rfl hne
  obtain rfl : x ++ js "](" ++ z = g := hz
  have hunits : ∀ c ∈ z ++ (js "](" ++ v), isLineTerminator c = false := by
    have hpair : ∀ c ∈ js "](", isLineTerminator c = false := by decide
    intro c hc
    rcases List.mem_append.mp hc with hc | hc
    · exact hrun c (by simp [hc])
    · exact (List.mem_append.mp hc).elim (hpair c) (hline c)
  have hfits : Piece.Fits targetPattern [z ++ (js "](" ++ v)]
      (js "](" ++ (z ++ (js "](" ++ v) ++ js ")")) := by
    have hclose : Piece.Fits (literal (js ")")) [] (js ")") := .one (by decide) .nil
    exact literal_fits (.shortest (by simp [js]) (by simpa using hunits) hclose)
  have hnone := hleast (c :: x) (js "](" ++ z) (by simp) (by simp) (by simp [js])
  have hsome := hfits.isSome_matchPieces []
  simp only [List.append_assoc, List.append_nil] at hnone hsome
  rw [hnone] at hsome
  cases hsome

/-! ## Spaces -/

theorem count_trim {c : UInt16} (hc : isWhiteSpace c = false) (s : JsString) :
    (trim s).count c = s.count c := by
  have hdrop : ∀ s : JsString, (s.dropWhile isWhiteSpace).count c = s.count c := by
    intro s
    induction s with
    | nil => rfl
    | cons d s ih =>
      by_cases hd : isWhiteSpace d = true
      · have hne : d ≠ c := by
          rintro rfl
          simp [hc] at hd
        simp [hd, ih, hne]
      · simp [hd]
  rw [trim, List.rdropWhile, List.count_reverse, hdrop, List.count_reverse, hdrop]

theorem trim_eq_self {s : JsString} (hfirst : ∀ c ∈ s.head?, isWhiteSpace c = false)
    (hlast : ∀ c ∈ s.getLast?, isWhiteSpace c = false) : trim s = s := by
  have hdrop : ∀ s : JsString, (∀ c ∈ s.head?, isWhiteSpace c = false) →
      s.dropWhile isWhiteSpace = s := by
    intro s h
    cases s with
    | nil => rfl
    | cons c s => simp [h c rfl]
  rw [trim, hdrop s hfirst, List.rdropWhile, hdrop _ (by simpa using hlast), List.reverse_reverse]

theorem trim_cons {c : UInt16} (hc : isWhiteSpace c = false) (s : JsString) :
    ∃ s', trim (c :: s) = c :: s' := by
  have hdrop : (c :: s).dropWhile isWhiteSpace = c :: s := by simp [hc]
  have hbegin : trim (c :: s) <+: c :: s := by
    rw [trim, hdrop]
    exact List.rdropWhile_prefix _ _
  have hmem : c ∈ trim (c :: s) := by
    rw [← List.count_pos_iff, count_trim hc]
    simp
  rcases ht : trim (c :: s) with _ | ⟨d, s'⟩
  · simp [ht] at hmem
  · rw [ht] at hbegin
    obtain ⟨rest, hrest⟩ := hbegin
    obtain ⟨rfl, -⟩ := List.cons.inj hrest
    exact ⟨s', rfl⟩

/-! ## Lines -/

theorem linesOf_of_notMem {x : JsString} (h : 10 ∉ x) : linesOf x = [x] := by
  have hreplace : replaceText x (js "\r\n") (js "\n") = x := by
    refine Piece.replaceAll_eq (by simp [literal, js]) (.of_none (fun a b hab => ?_))
    have hneeds : Piece.Needs b (literal (js "\r\n")) := by
      refine ⟨(· == 10), List.mem_map_of_mem (by decide), fun c hc => ?_⟩
      rw [beq_eq_false_iff_ne]
      rintro rfl
      exact h (hab ▸ List.mem_append_right a hc)
    exact hneeds.matchPieces_eq_none (fun c hc => hc)
  rw [linesOf, hreplace, List.splitOn_eq_singleton h]

/-- The text before a line is split stays in brackets, and so do its first and its last line. -/
theorem replaceText_brackets (s : JsString) :
    ∃ t, replaceText (js "[" ++ s ++ js ")") (js "\r\n") (js "\n") = js "[" ++ t ++ js ")" ∧
      (10 ∈ s → 10 ∈ t) := by
  have hpattern : literal (js "\r\n") = [.one (· == 13), .one (· == 10)] := rfl
  have hopen : ∀ c ∈ js "[", (c == 13) = false := by decide
  have hguarded : Piece.Guarded (js ")") (literal (js "\r\n")) := by
    rw [hpattern]
    exact ⟨by decide, by decide, trivial⟩
  have hneeds : Piece.Needs (js ")") (literal (js "\r\n")) :=
    ⟨(· == 10), by simp [hpattern], by decide⟩
  refine ⟨replaceText s (js "\r\n") (js "\n"), ?_, ?_⟩
  · unfold replaceText
    rw [Piece.replaceAll_append_right (by simp [hpattern]) hguarded hneeds, hpattern]
    exact congrArg (· ++ js ")") (Piece.replaceAll_append_left hopen s)
  · have hr : Piece.Replaced (literal (js "\r\n")) (fun _ => js "\n") s
        (replaceText s (js "\r\n") (js "\n")) := Piece.replaced_replaceAll (by simp [hpattern]) s
    generalize replaceText s (js "\r\n") (js "\n") = t at hr
    induction hr with
    | nil => exact id
    | skip _ _ ih =>
      intro h
      rcases List.mem_cons.mp h with rfl | h
      · exact List.mem_cons_self
      · exact List.mem_cons_of_mem _ (ih h)
    | hit => simp [js]

theorem exists_mem_splitOn {c : UInt16} (hc : c ≠ 10) {s : JsString} (h : c ∈ s) :
    ∃ line ∈ s.splitOn 10, c ∈ line := by
  have hlines : ∀ lines : List JsString, c ∈ [10].intercalate lines → ∃ line ∈ lines, c ∈ line := by
    intro lines
    induction lines with
    | nil => simp
    | cons line lines ih =>
      rcases lines with _ | ⟨next, lines⟩
      · simp
      · rw [List.intercalate_cons_cons]
        intro hmem
        rcases List.mem_append.mp hmem with hmem | hmem
        · exact ⟨line, List.mem_cons_self, by simpa [hc] using hmem⟩
        · obtain ⟨line', hline', hmem⟩ := ih hmem
          exact ⟨line', List.mem_cons_of_mem _ hline', hmem⟩
  exact hlines _ (by rwa [List.intercalate_splitOn])

theorem linesOf_of_mem {s : JsString} (h : 10 ∈ s) :
    ∃ first rest, linesOf (js "[" ++ s ++ js ")") = (91 :: first) :: rest ∧
      ∃ line ∈ rest, trim line ≠ [] := by
  obtain ⟨t, hreplace, ht⟩ := replaceText_brackets s
  obtain ⟨a, b, rfl, ha⟩ := List.eq_append_cons_of_mem (ht h)
  have hopen : js "[" = [91] := by decide
  have hsplit : linesOf (js "[" ++ s ++ js ")") = (91 :: a) :: (b ++ js ")").splitOn 10 := by
    have hfirst : (91 :: a).splitOn 10 = [91 :: a] :=
      List.splitOn_eq_singleton (by simpa using ha)
    have hsame : js "[" ++ (a ++ 10 :: b) ++ js ")" = (91 :: a) ++ 10 :: (b ++ js ")") := by
      simp [hopen]
    rw [linesOf, hreplace, hsame, List.splitOn_append_cons_self, hfirst]
    rfl
  refine ⟨a, _, hsplit, ?_⟩
  obtain ⟨line, hline, hmem⟩ := exists_mem_splitOn (c := 41) (s := b ++ js ")") (by decide)
    (List.mem_append_right _ (by decide))
  refine ⟨line, hline, fun hblank => ?_⟩
  rw [← List.count_pos_iff, ← count_trim (by decide), hblank] at hmem
  simp at hmem

/-! ## The paragraph -/

namespace Rendering

theorem closeList_html (r : Rendering) : r.html <+: r.closeList.html := by
  unfold closeList
  split
  · exact List.prefix_append _ _
  · exact List.prefix_refl _

theorem openList_html (r : Rendering) : r.html <+: r.openList.html := by
  unfold openList
  split
  · exact List.prefix_refl _
  · exact List.prefix_append _ _

theorem line_html (r : Rendering) (line : JsString) :
    r.html <+: (r.line line).html ∧ (trim line ≠ [] → r.html ≠ (r.line line).html) := by
  have hpush : ∀ {r' : Rendering} (block : JsString), r.html <+: r'.html →
      r.html <+: (r'.push block).html ∧ r.html ≠ (r'.push block).html := by
    intro r' block hbegin
    refine ⟨hbegin.trans (List.prefix_append _ _), fun heq => ?_⟩
    have hlength := congrArg List.length heq
    have hle := hbegin.length_le
    simp [push] at hlength
    omega
  have hclose := r.closeList_html
  unfold Rendering.line
  dsimp only
  split
  · exact ⟨hclose, fun h => absurd ‹_› h⟩
  split
  · exact (hpush _ r.openList_html).imp_right (fun h _ => h)
  split
  · exact (hpush _ hclose).imp_right (fun h _ => h)
  split
  · exact (hpush _ hclose).imp_right (fun h _ => h)
  split
  · exact (hpush _ hclose).imp_right (fun h _ => h)
  · exact (hpush _ hclose).imp_right (fun h _ => h)

theorem lines_html (lines : List JsString) (r : Rendering) :
    r.html <+: (lines.foldl Rendering.line r).html ∧
      ((∃ line ∈ lines, trim line ≠ []) → r.html ≠ (lines.foldl Rendering.line r).html) := by
  induction lines generalizing r with
  | nil => simp
  | cons line lines ih =>
    obtain ⟨hfirst, hblank⟩ := r.line_html line
    obtain ⟨hrest, hrests⟩ := ih (r.line line)
    refine ⟨hfirst.trans hrest, fun ⟨l, hl, hne⟩ heq => ?_⟩
    have hsame : r.html = (r.line line).html :=
      hfirst.eq_of_length_le (by rw [heq]; exact hrest.length_le)
    rcases List.mem_cons.mp hl with rfl | hl
    · exact hblank hne hsame
    · exact hrests ⟨l, hl, hne⟩ (hsame.symm.trans heq)

theorem line_bracket (s : JsString) : (⟨[], false⟩ : Rendering).line (91 :: s) =
    ⟨[js "<p>" ++ inlineMarkdown (trim (91 :: s)) ++ js "</p>"], false⟩ := by
  obtain ⟨s', hs'⟩ := trim_cons (c := 91) (by decide) s
  have hother : ∀ d ∈ ["- ", "### ", "## ", "# "].map js, d.isPrefixOf (91 :: s') = false := by
    have hfirst : ∀ d ∈ ["- ", "### ", "## ", "# "].map js, d = d.headD 91 :: d.tail ∧
        (d.headD 91 == 91) = false := by decide
    intro d hd
    obtain ⟨hd, hne⟩ := hfirst d hd
    rw [hd, List.isPrefixOf, hne, Bool.false_and]
  simp only [List.map_cons, List.map_nil, List.forall_mem_cons] at hother
  obtain ⟨h₁, h₂, h₃, h₄, -⟩ := hother
  simp [Rendering.line, hs', h₁, h₂, h₃, h₄, closeList, push]

end Rendering

theorem render_of_notMem {s : JsString} (h : 10 ∉ s) :
    renderSimpleMarkdownToHtml (js "[" ++ s ++ js ")") =
      js "<p>" ++ inlineMarkdown (js "[" ++ s ++ js ")") ++ js "</p>" := by
  have hfirst : (js "[" ++ s ++ js ")").head? = some 91 := rfl
  have hlast : (js "[" ++ s ++ js ")").getLast? = some 41 := List.getLast?_concat
  have htrim : trim (js "[" ++ s ++ js ")") = js "[" ++ s ++ js ")" := by
    refine trim_eq_self ?_ ?_
    · rw [hfirst]
      rintro c ⟨⟩
      decide
    · rw [hlast]
      rintro c ⟨⟩
      decide
  have hline := Rendering.line_bracket (s ++ js ")")
  have hsame : (91 : UInt16) :: (s ++ js ")") = js "[" ++ s ++ js ")" := by simp [js]
  rw [hsame, htrim] at hline
  have hone : 10 ∉ js "[" ++ s ++ js ")" := by simpa [js] using h
  rw [renderSimpleMarkdownToHtml, linesOf_of_notMem hone, List.foldl_cons, List.foldl_nil, hline]
  simp [Rendering.closeList]

theorem render_of_mem {s : JsString} (h : 10 ∈ s) :
    ∃ first more, renderSimpleMarkdownToHtml (js "[" ++ s ++ js ")") =
      js "<p>" ++ inlineMarkdown (trim (91 :: first)) ++ (js "</p>" ++ (js "\n" ++ more)) := by
  obtain ⟨first, rest, hlines, hblank⟩ := linesOf_of_mem h
  obtain ⟨hbegin, hne⟩ := Rendering.lines_html rest ((⟨[], false⟩ : Rendering).line (91 :: first))
  have hclose := (rest.foldl Rendering.line ((⟨[], false⟩ : Rendering).line (91 :: first)))
    |>.closeList_html
  obtain ⟨blocks, hblocks⟩ := hbegin.trans hclose
  have hmore : blocks ≠ [] := by
    rintro rfl
    rw [List.append_nil] at hblocks
    exact hne hblank (hbegin.eq_of_length_le (by rw [hblocks]; exact hclose.length_le))
  obtain ⟨block, blocks, rfl⟩ := List.exists_cons_of_ne_nil hmore
  rw [renderSimpleMarkdownToHtml, hlines, List.foldl_cons, ← hblocks, Rendering.line_bracket]
  exact ⟨first, _, by simp only [List.singleton_append, List.intercalate_cons_cons,
    List.append_assoc]; rfl⟩

/-! ## The target -/

/-- A URL as it is written in a link. -/
structure LinkUrl (url : JsString) : Prop where
  scheme : js "http://" <+: url ∨ js "https://" <+: url
  bare : ∀ c ∈ url, isWhiteSpace c = false ∧ c ∉ js ")*`"

/-- The text becomes one link, and the page reads the URL in its attribute. -/
def KeepsTarget (label url : JsString) : Prop :=
  ∃ href text, renderSimpleMarkdownToHtml (linkSource label url) =
      js "<p>" ++ (anchor href ++ (text ++ js "</a>")) ++ js "</p>" ∧
    34 ∉ href ∧ ¬ js "</a>" <:+: text ∧ decodeAttribute href = url

theorem isLineTerminator_of_isWhiteSpace {c : UInt16} (h : isWhiteSpace c = false) :
    isLineTerminator c = false := by
  simp only [isWhiteSpace, Bool.or_eq_false_iff] at h
  exact h.1.1

theorem trim_of_bare {s : JsString} (h : ∀ c ∈ s, isWhiteSpace c = false) : trim s = s :=
  trim_eq_self (fun c hc => h c (List.mem_of_mem_head? hc))
    (fun c hc => h c (List.mem_of_mem_getLast? hc))

theorem safeLink_eq_trim {u url : JsString} (h : safeLink u = url)
    (hscheme : js "http://" <+: url ∨ js "https://" <+: url) : trim u = url := by
  unfold safeLink at h
  dsimp only at h
  split at h
  · exact h
  · subst h
    exact absurd hscheme (by decide)

namespace LinkUrl
variable {url : JsString}

theorem ne_nil (h : LinkUrl url) : url ≠ [] := by
  rintro rfl
  exact absurd h.scheme (by decide)

theorem safeLink_eq (h : LinkUrl url) : safeLink url = url := by
  have htrim : trim url = url := trim_of_bare (fun c hc => (h.bare c hc).1)
  have hscheme : ((js "https://").isPrefixOf url || (js "http://").isPrefixOf url) = true := by
    rw [Bool.or_eq_true, List.isPrefixOf_iff_prefix, List.isPrefixOf_iff_prefix]
    exact h.scheme.symm
  rw [safeLink, htrim]
  exact if_pos hscheme

theorem bare_escapeHtml (h : LinkUrl url) :
    ∀ c ∈ escapeHtml url, isWhiteSpace c = false ∧ c ∉ js ")*`" :=
  forall_escapeHtml (by decide) h.bare

theorem line_escapeHtml (h : LinkUrl url) : ∀ c ∈ escapeHtml url, isLineTerminator c = false :=
  fun c hc => isLineTerminator_of_isWhiteSpace (h.bare_escapeHtml c hc).1

theorem emphasise_linkSource (h : LinkUrl url) (label : JsString) :
    emphasise (linkSource label url) = linkSource (emphasise label) (escapeHtml url) := by
  have houtside : ∀ c ∈ js "](" ++ url ++ js ")", c ∉ js "*`" := by
    have hfixed : (∀ c ∈ js "](", c ∉ js "*`") ∧ ∀ c ∈ js ")", c ∉ js "*`" := by decide
    intro c hc
    rcases List.mem_append.mp hc with hc | hc
    · rcases List.mem_append.mp hc with hc | hc
      · exact hfixed.1 c hc
      · exact fun hdelim => (h.bare c hc).2 (List.mem_cons_of_mem _ hdelim)
    · exact hfixed.2 c hc
  have hfixed : escapeHtml (js "](") = js "](" ∧ escapeHtml (js ")") = js ")" := by decide +kernel
  have hcontext := emphasise_context label houtside
  rw [escapeHtml_append, escapeHtml_append, hfixed.1, hfixed.2] at hcontext
  simpa only [linkSource, List.append_assoc] using hcontext

end LinkUrl

theorem not_infix_emphasise (line : JsString) : ¬ js "</a>" <:+: emphasise line := by
  have hnames : ∀ name ∈ emphasisNames, tag name = 60 :: (tag name).tail ∧ 60 ∉ (tag name).tail ∧
      (js "</a>").length ≤ (tag name).length ∧ ¬ js "</a>" <+: tag name := by decide
  rintro ⟨a, b, hline⟩
  have hparts := parts_emphasise line
  rw [← hline, List.append_assoc] at hparts
  obtain ⟨t, ⟨name, hname, rfl⟩, hbegin⟩ := Parts.tag_at (o := 60) (b := js "/a>" ++ b)
    (fun h => ne_of_plain h rfl)
    (by rintro t ⟨name, hname, rfl⟩
        exact ⟨_, (hnames name hname).1, (hnames name hname).2.1⟩) hparts
  obtain ⟨-, -, hlength, hnone⟩ := hnames name hname
  exact hnone (List.prefix_of_prefix_length_le (List.prefix_append (js "</a>") b) hbegin hlength)

theorem inlineMarkdown_eq {line r : JsString}
    (h : Piece.Replaced linkPattern linkElement (emphasise line) r) : inlineMarkdown line = r :=
  (replaced_inlineMarkdown line).unique (by simp [linkPattern_eq]) h

theorem linkSource_brackets (label url : JsString) :
    linkSource label url = js "[" ++ (label ++ js "](" ++ url) ++ js ")" := by
  simp only [linkSource, List.append_assoc]

theorem inlineMarkdown_linkSource {label url : JsString} (hurl : LinkUrl url)
    (hlabel : LinkLabel label) : inlineMarkdown (linkSource label url) =
      anchor (escapeHtml (safeLink (escapeHtml url))) ++ (emphasise label ++ js "</a>") := by
  have hne : escapeHtml url ≠ [] := by
    intro hnil
    have hlength := length_le_escaped url
    rw [← escapeHtml_eq, hnil] at hlength
    exact hurl.ne_nil (List.eq_nil_of_length_eq_zero (Nat.le_zero.mp hlength))
  have hclose : 41 ∉ escapeHtml url := fun h => (hurl.bare_escapeHtml _ h).2 (by decide)
  have hmatch := matchPieces_link ((linkLabel_emphasise label).mp hlabel) hne hurl.line_escapeHtml
    hclose
  rw [← hurl.emphasise_linkSource] at hmatch
  rw [inlineMarkdown_eq (.hit hmatch .nil), List.append_nil, linkElement, List.append_assoc]
  rfl

theorem render_linkSource {label url : JsString} (hurl : LinkUrl url) (hlabel : LinkLabel label) :
    renderSimpleMarkdownToHtml (linkSource label url) =
      js "<p>" ++ (anchor (escapeHtml (safeLink (escapeHtml url))) ++
        (emphasise label ++ js "</a>")) ++ js "</p>" := by
  have hone : 10 ∉ label ++ js "](" ++ url := by
    intro h
    rcases List.mem_append.mp h with h | h
    · rcases List.mem_append.mp h with h | h
      · exact absurd (hlabel.line _ h) (by decide)
      · exact absurd h (by decide)
    · exact absurd (hurl.bare _ h).1 (by decide)
  rw [linkSource_brackets, render_of_notMem hone, ← linkSource_brackets,
    inlineMarkdown_linkSource hurl hlabel]

/-! ## What a page reads -/

theorem eq_of_anchor {href href' a a' : JsString} (h : 34 ∉ href) (h' : 34 ∉ href')
    (heq : anchor href ++ a = anchor href' ++ a') : href = href' ∧ a = a' := by
  have hend : js "\" target=\"_blank\" rel=\"noopener noreferrer\">" =
      [34] ++ js " target=\"_blank\" rel=\"noopener noreferrer\">" := by decide
  have hquote : ∀ {t : JsString}, 34 ∉ t → ¬ [34] <:+: t :=
    fun ht hin => ht (hin.subset (List.mem_singleton_self 34))
  simp only [anchor, hend, List.append_assoc] at heq
  obtain ⟨rfl, hrest⟩ := eq_of_append_tag 34 [] (by simp) (hquote h) (hquote h')
    (List.append_cancel_left heq)
  exact ⟨rfl, List.append_cancel_left hrest⟩

/-- A line whose output begins with a link begins with it. -/
theorem of_inlineMarkdown {s z z' href text : JsString} (hhref : 34 ∉ href)
    (htext : ¬ js "</a>" <:+: text)
    (h : inlineMarkdown (js "[" ++ s) ++ z = anchor href ++ (text ++ (js "</a>" ++ z'))) :
    ∃ u rest r, Piece.matchPieces linkPattern (emphasise (js "[" ++ s)) = some ([text, u], rest) ∧
      href = escapeHtml (safeLink u) ∧ Piece.Replaced linkPattern linkElement rest r ∧
        r ++ z = z' := by
  have hunit : js "[" = [91] := by decide
  have hopen : emphasise (js "[" ++ s) = 91 :: emphasise s := by
    have hcontext := emphasise_context s (b := []) (by simp)
    have hnil : escapeHtml [] = [] := by decide
    rw [hnil, List.append_nil, List.append_nil] at hcontext
    exact hcontext.trans (congrArg (· ++ emphasise s) hunit)
  have hnone := not_infix_emphasise (js "[" ++ s)
  have hr := replaced_inlineMarkdown (js "[" ++ s)
  generalize inlineMarkdown (js "[" ++ s) = r₀ at h hr
  rw [hopen] at hr hnone ⊢
  cases hr with
  | skip =>
    have hfirst : some (91 : UInt16) = some 60 := congrArg List.head? h
    exact absurd hfirst (by decide)
  | @hit _ rest r gs hsome hrest =>
    obtain ⟨t, heq, ht⟩ := Piece.fits_of_matchPieces hsome
    obtain ⟨l, u, rfl, rfl⟩ := fits_link ht
    have hl : ¬ js "</a>" <:+: l := by
      refine fun hin => hnone (heq ▸ hin.trans ?_)
      exact ⟨js "[", js "](" ++ (u ++ js ")") ++ rest, by simp only [List.append_assoc]⟩
    have hplain : ∀ v, 34 ∉ escapeHtml v := fun v hv => plain_escapeHtml v 34 hv (by decide)
    simp only [linkElement, List.append_assoc] at h
    obtain ⟨hsame, hbehind⟩ := eq_of_anchor (hplain _) hhref h
    obtain ⟨rfl, hrest'⟩ := eq_of_append_tag 60 (js "/a>") (by decide) hl htext hbehind
    exact ⟨u, rest, r, hsome, hsame.symm, hrest, hrest'⟩

theorem notMem_of_keepsTarget {label url : JsString} (h : KeepsTarget label url) :
    10 ∉ label ++ js "](" ++ url := by
  obtain ⟨href, text, hrender, hhref, htext, -⟩ := h
  intro hmem
  obtain ⟨first, more, hmore⟩ := render_of_mem hmem
  obtain ⟨first', hfirst'⟩ := trim_cons (c := 91) (by decide) first
  have hopen : (91 : UInt16) :: first' = js "[" ++ first' := rfl
  rw [linkSource_brackets, hmore, hfirst', hopen] at hrender
  simp only [List.append_assoc] at hrender
  obtain ⟨u, rest, r, -, -, -, hbehind⟩ :=
    of_inlineMarkdown hhref htext (List.append_cancel_left hrender)
  have hlength := congrArg List.length hbehind
  simp only [List.length_append] at hlength
  have hpos : (js "\n").length = 1 := by decide
  omega

theorem eq_linkSource {x l u : JsString}
    (h : Piece.matchPieces linkPattern x = some ([l, u], [])) : x = linkSource l u := by
  obtain ⟨t, rfl, ht⟩ := Piece.fits_of_matchPieces h
  obtain ⟨l', u', heq, rfl⟩ := fits_link ht
  cases heq
  rw [List.append_nil, linkSource_eq]

theorem eq_of_linkSource {l l' u u' : JsString} (h : linkSource l u = linkSource l' u')
    (hcount : u.count 40 = u'.count 40) : l = l' ∧ u = u' := by
  have hpair : js "](" = [93] ++ [40] := by decide
  simp only [linkSource_eq, hpair, List.append_assoc] at h
  have hcut : (l ++ [93]) ++ 40 :: (u ++ js ")") = (l' ++ [93]) ++ 40 :: (u' ++ js ")") := by
    simpa using List.append_cancel_left h
  obtain ⟨hl, hu⟩ := eq_of_append_cons hcut (by simp [List.count_append, hcount])
  exact ⟨List.append_cancel_right hl, List.append_cancel_right hu⟩

/-- A link keeps its target if and only if its label can be one and nothing in its URL is escaped:
what is escaped is escaped twice, and read once. -/
theorem keepsTarget_iff {label url : JsString} (hurl : LinkUrl url) :
    KeepsTarget label url ↔ LinkLabel label ∧ ∀ c ∈ url, c ∉ specials := by
  constructor
  · intro h
    have hone := notMem_of_keepsTarget h
    obtain ⟨href, text, hrender, hhref, htext, hdecode⟩ := h
    rw [linkSource_brackets, render_of_notMem hone] at hrender
    simp only [List.append_assoc] at hrender
    obtain ⟨u, rest, r, hm, rfl, hr, hbehind⟩ :=
      of_inlineMarkdown hhref htext (List.append_cancel_left hrender)
    obtain rfl : r = [] := List.append_left_eq_self.mp hbehind
    obtain rfl : rest = [] := hr.eq_nil (fun gs => by simp [linkElement, anchor, js])
    have hsource : linkSource (emphasise label) (escapeHtml url) = linkSource text u := by
      rw [← eq_linkSource hm, ← hurl.emphasise_linkSource, linkSource_eq]
    rw [decodeAttribute_escapeHtml] at hdecode
    have htrim : trim u = url := safeLink_eq_trim hdecode hurl.scheme
    have hcount : (escapeHtml url).count 40 = u.count 40 := by
      rw [count_escapeHtml (by decide) (by decide), ← htrim, count_trim (by decide)]
    obtain ⟨rfl, rfl⟩ := eq_of_linkSource hsource hcount
    have hsame : escapeHtml url = url := by
      rw [trim_of_bare (fun c hc => (hurl.bare_escapeHtml c hc).1)] at htrim
      exact htrim
    rw [← linkSource_eq, hurl.emphasise_linkSource] at hm
    exact ⟨(linkLabel_emphasise label).mpr (linkLabel_of_matchPieces hurl.line_escapeHtml hm),
      notMem_specials hsame⟩
  · rintro ⟨hlabel, hplain⟩
    have hsame : escapeHtml url = url := escapeHtml_eq_self hplain
    refine ⟨_, _, render_linkSource hurl hlabel, ?_, not_infix_emphasise label, ?_⟩
    · exact fun h => plain_escapeHtml _ 34 h (by decide)
    · rw [decodeAttribute_escapeHtml, hsame, hurl.safeLink_eq]

/-- A link to a page, and its label. -/
theorem keepsTarget_page : LinkUrl (js "https://b.c/d#e") ∧
    KeepsTarget (js "**a**") (js "https://b.c/d#e") := by
  have hurl : LinkUrl (js "https://b.c/d#e") := ⟨by decide, by decide⟩
  exact ⟨hurl, (keepsTarget_iff hurl).mpr ⟨⟨by decide, by decide, by decide⟩, by decide⟩⟩

/-- The query `a=1&b=2` is read as `a=1&amp;b=2`. -/
theorem query_loses_target : LinkUrl (js "http://x?a=1&b=2") ∧ LinkLabel (js "a") ∧
    renderSimpleMarkdownToHtml (linkSource (js "a") (js "http://x?a=1&b=2")) =
      js "<p>" ++ (anchor (js "http://x?a=1&amp;amp;b=2") ++ (js "a" ++ js "</a>")) ++ js "</p>" ∧
    ¬ KeepsTarget (js "a") (js "http://x?a=1&b=2") := by
  have hrun : renderSimpleMarkdownToHtml (linkSource (js "a") (js "http://x?a=1&b=2")) =
      js "<p>" ++ (anchor (js "http://x?a=1&amp;amp;b=2") ++ (js "a" ++ js "</a>")) ++
        js "</p>" := by
    decide +kernel
  refine ⟨⟨by decide, by decide⟩, ⟨by decide, by decide, by decide⟩, hrun, ?_⟩
  rintro ⟨href, text, hrender, hhref, -, hdecode⟩
  rw [hrun] at hrender
  obtain ⟨rfl, -⟩ := eq_of_anchor (by decide) hhref
    (List.append_cancel_left (List.append_cancel_right hrender))
  exact absurd hdecode (by decide +kernel)

end SyncServer.Dashboard
