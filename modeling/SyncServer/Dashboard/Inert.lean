import SyncServer.Base.Markup
import SyncServer.Dashboard.Markdown

/-! # Inert output

What the renderer makes of a text is put into the page as it is. It consists of the tags of the
renderer and of text without markup, whatever the rewrites match, and its blocks are in order.
-/

namespace SyncServer.Dashboard

/-! ## What is inert -/

def Plain (c : UInt16) : Prop := c ∉ js "<>\"'"

instance (c : UInt16) : Decidable (Plain c) := inferInstanceAs (Decidable (¬ _))

def tag (name : JsString) : JsString := js "<" ++ name ++ js ">"

structure SafeHref (href : JsString) : Prop where
  plain : ∀ c ∈ href, Plain c
  target : href = js "#" ∨ js "http://" <+: href ∨ js "https://" <+: href

def blockNames : List JsString :=
  ["ul", "/ul", "li", "/li", "h1", "/h1", "h2", "/h2", "h3", "/h3", "p", "/p"].map js

def emphasisNames : List JsString :=
  ["strong", "/strong", "em", "/em", "code", "/code"].map js

def EmphasisTag (t : JsString) : Prop := ∃ name ∈ emphasisNames, t = tag name

def LinkTag (t : JsString) : Prop := t = js "</a>" ∨ ∃ href, SafeHref href ∧ t = anchor href

def OwnTag (t : JsString) : Prop :=
  (∃ name ∈ blockNames, t = tag name) ∨ EmphasisTag t ∨ LinkTag t

/-- Where a reader of the output is. -/
inductive Place where
  | top
  | list
  | item
  | block (name : JsString)
deriving DecidableEq, Repr

/-- What a tag does to the place, if it may stand there. -/
def Place.pass (place : Place) (name : JsString) : Option Place :=
  if name ∉ blockNames then some place
  else match place with
    | .top => if name = js "ul" then some .list
        else if name ∈ ["h1", "h2", "h3", "p"].map js then some (.block name) else none
    | .list => if name = js "/ul" then some .top else if name = js "li" then some .item else none
    | .item => if name = js "/li" then some .list else none
    | .block opened => if name = js "/" ++ opened then some .top else none

def tagNames : JsString → List JsString
  | [] => []
  | c :: s => if c = 60 then s.takeWhile (· ≠ 62) :: tagNames s else tagNames s

def Place.walk (place : Place) (html : JsString) : Option Place :=
  (tagNames html).foldlM Place.pass place

/-- The output has the tags of the renderer only, with their attributes, and the blocks follow one
another: a list is closed before another block opens. -/
structure Inert (html : JsString) : Prop where
  parts : Parts Plain OwnTag html
  tags : ∀ a b, html = a ++ 60 :: b → ∃ t, OwnTag t ∧ t <+: 60 :: b
  blocks : Place.top.walk html = some .top

/-! ## Escaping -/

def escaped (c : UInt16) : JsString :=
  if c = 38 then js "&amp;" else if c = 60 then js "&lt;" else if c = 62 then js "&gt;"
  else if c = 34 then js "&quot;" else if c = 39 then js "&#39;" else [c]

theorem replaceText_singleton (s replacement : JsString) (c : UInt16) :
    replaceText s [c] replacement = s.flatMap (fun d => if d = c then replacement else [d]) := by
  refine Piece.replaceAll_eq (by simp [literal]) ?_
  induction s with
  | nil => exact .nil
  | cons d s ih =>
    rw [List.flatMap_cons]
    by_cases hd : d = c
    · rw [if_pos hd]
      have hsome : Piece.matchPieces (literal [c]) (d :: s) = some ([], s) := by
        simp [literal, Piece.matchPieces, hd]
      exact .hit hsome ih
    · rw [if_neg hd]
      exact .skip (by simp [literal, Piece.matchPieces, hd]) ih

theorem escapeHtml_eq (value : JsString) : escapeHtml value = value.flatMap escaped := by
  have hunits : js "&" = [38] ∧ js "<" = [60] ∧ js ">" = [62] ∧ js "\"" = [34] ∧ js "'" = [39] := by
    decide
  obtain ⟨hamp, hlt, hgt, hquot, hapos⟩ := hunits
  simp only [escapeHtml, hamp, hlt, hgt, hquot, hapos, replaceText_singleton, List.flatMap_assoc]
  congr 1
  funext c
  by_cases h₁ : c = 38
  · subst h₁
    decide
  by_cases h₂ : c = 60
  · subst h₂
    decide
  by_cases h₃ : c = 62
  · subst h₃
    decide
  by_cases h₄ : c = 34
  · subst h₄
    decide
  by_cases h₅ : c = 39
  · subst h₅
    decide
  · simp [escaped, h₁, h₂, h₃, h₄, h₅]

theorem plain_escaped (c : UInt16) : ∀ d ∈ escaped c, Plain d := by
  unfold escaped
  split
  · decide
  split
  · decide
  split
  · decide
  split
  · decide
  split
  · decide
  · rename_i h₁ h₂ h₃ h₄ h₅
    have hmarkup : js "<>\"'" = [60, 62, 34, 39] := by decide
    simp [Plain, hmarkup, h₂, h₃, h₄, h₅]

theorem plain_escapeHtml (value : JsString) : ∀ c ∈ escapeHtml value, Plain c := by
  intro c hc
  rw [escapeHtml_eq] at hc
  obtain ⟨d, -, hc⟩ := List.mem_flatMap.mp hc
  exact plain_escaped d c hc

/-! ## Patterns -/

section
variable {pieces : List (Piece UInt16)} {gs : List JsString} {t : JsString}

theorem fits_literal {d : JsString} (h : Piece.Fits (literal d ++ pieces) gs t) :
    ∃ t', t = d ++ t' ∧ Piece.Fits pieces gs t' := by
  induction d generalizing t with
  | nil => exact ⟨t, rfl, h⟩
  | cons c d ih =>
    cases h with
    | one hc h =>
      obtain ⟨t', rfl, ht'⟩ := ih h
      exact ⟨t', by simp [eq_of_beq hc], ht'⟩

theorem fits_between {d : JsString} {inner : Piece UInt16} (hinner : ∀ p, inner ≠ .one p)
    (h : Piece.Fits (between d inner) gs t) : ∃ g, gs = [g] ∧ t = d ++ (g ++ d) := by
  have heq : between d inner = literal d ++ (inner :: (literal d ++ [])) := by simp [between]
  obtain ⟨t₁, rfl, h₁⟩ := fits_literal (heq ▸ h)
  cases h₁ with
  | one => exact absurd rfl (hinner _)
  | shortest _ _ h₂ | longest _ _ h₂ =>
    obtain ⟨t₃, rfl, h₃⟩ := fits_literal h₂
    cases h₃
    exact ⟨_, rfl, by simp⟩

theorem fits_link (h : Piece.Fits linkPattern gs t) :
    ∃ l u, gs = [l, u] ∧ t = js "[" ++ (l ++ (js "](" ++ (u ++ js ")"))) := by
  have heq : linkPattern =
      literal (js "[") ++ (dot :: (literal (js "](") ++ (dot :: (literal (js ")") ++ [])))) := by
    simp [linkPattern]
  obtain ⟨t₁, rfl, h₁⟩ := fits_literal (heq ▸ h)
  cases h₁ with
  | shortest _ _ h₂ =>
    obtain ⟨t₃, rfl, h₃⟩ := fits_literal h₂
    cases h₃ with
    | shortest _ _ h₄ =>
      obtain ⟨t₅, rfl, h₅⟩ := fits_literal h₄
      cases h₅
      exact ⟨_, _, rfl, by simp⟩

end

theorem linkPattern_eq : linkPattern =
    .one (· == 91) :: (dot :: (literal (js "](") ++ [dot] ++ literal (js ")"))) := by
  have hopen : js "[" = [91] := by decide
  rw [linkPattern, hopen]
  rfl

theorem replaced_enclose (d before after : JsString) (inner : Piece UInt16) (s : JsString) :
    Piece.Replaced (between d inner) (fun m => before ++ group m 1 ++ after) s
      (enclose (between d inner) before after s) :=
  Piece.replaced_replaceAll (by simp [between]) s

def linkElement (m : List JsString) : JsString :=
  anchor (escapeHtml (safeLink (group m 2))) ++ group m 1 ++ js "</a>"

theorem replaced_inlineMarkdown (line : JsString) :
    Piece.Replaced linkPattern linkElement (emphasise line) (inlineMarkdown line) :=
  Piece.replaced_replaceAll (by simp [linkPattern_eq]) _

/-! ## Lines -/

theorem parts_enclose {d before after s : JsString} {inner : Piece UInt16}
    (hinner : ∀ p, inner ≠ .one p) (hne : d ≠ []) (hd : ∀ t, EmphasisTag t → ∀ c ∈ d, c ∉ t)
    (hbefore : EmphasisTag before) (hafter : EmphasisTag after)
    (h : Parts Plain EmphasisTag s) :
    Parts Plain EmphasisTag (enclose (between d inner) before after s) := by
  have hr := replaced_enclose d before after inner s
  rcases d with _ | ⟨c, d⟩
  · exact absurd rfl hne
  refine h.replaced (fun _ h => h) (fun _ h => h) ?_ ?_ hr
  · intro t ht x hx
    rw [beq_eq_false_iff_ne]
    rintro rfl
    exact hd t ht x List.mem_cons_self hx
  · intro s gs rest hs hm
    obtain ⟨t, rfl, ht⟩ := Piece.fits_of_matchPieces hm
    obtain ⟨g, rfl, rfl⟩ := fits_between (d := c :: d) hinner ht
    rw [List.append_assoc, List.append_assoc] at hs
    obtain ⟨hg, hrest⟩ := (hs.split_list (a := []) hd hne).2.split_list hd hne
    exact ⟨((Parts.of_tag hbefore).append hg).append (.of_tag hafter), hrest⟩

theorem parts_emphasise (line : JsString) : Parts Plain EmphasisTag (emphasise line) := by
  have htag : ∀ {d : JsString}, (∀ name ∈ emphasisNames, ∀ c ∈ d, c ∉ tag name) →
      ∀ t, EmphasisTag t → ∀ c ∈ d, c ∉ t := by
    rintro d h t ⟨name, hname, rfl⟩
    exact h name hname
  have hline : Parts Plain EmphasisTag (escapeHtml line) := .of_text (plain_escapeHtml line)
  have hstrong : Parts Plain EmphasisTag (enclose strongPattern (js "<strong>") (js "</strong>")
      (escapeHtml line)) :=
    parts_enclose (by simp [dot]) (by decide) (htag (by decide)) ⟨js "strong", by decide, by decide⟩
      ⟨js "/strong", by decide, by decide⟩ hline
  have hem : Parts Plain EmphasisTag (enclose emPattern (js "<em>") (js "</em>") _) :=
    parts_enclose (by simp [dot]) (by decide) (htag (by decide)) ⟨js "em", by decide, by decide⟩
      ⟨js "/em", by decide, by decide⟩ hstrong
  exact parts_enclose (by simp) (by decide) (htag (by decide)) ⟨js "code", by decide, by decide⟩
    ⟨js "/code", by decide, by decide⟩ hem

theorem escapeHtml_append (s s' : JsString) :
    escapeHtml (s ++ s') = escapeHtml s ++ escapeHtml s' := by
  simp only [escapeHtml_eq, List.flatMap_append]

theorem safeHref_safeLink (url : JsString) : SafeHref (escapeHtml (safeLink url)) := by
  have hhttps : escapeHtml (js "https://") = js "https://" := by decide +kernel
  have hhttp : escapeHtml (js "http://") = js "http://" := by decide +kernel
  refine ⟨plain_escapeHtml _, ?_⟩
  unfold safeLink
  dsimp only
  split
  · rename_i h
    rw [Bool.or_eq_true, List.isPrefixOf_iff_prefix, List.isPrefixOf_iff_prefix] at h
    rcases h with ⟨rest, hrest⟩ | ⟨rest, hrest⟩
    · rw [← hrest, escapeHtml_append, hhttps]
      exact .inr (.inr (List.prefix_append _ _))
    · rw [← hrest, escapeHtml_append, hhttp]
      exact .inr (.inl (List.prefix_append _ _))
  · exact .inl (by decide +kernel)

/-- A rewritten line has tags of emphasis and of links. -/
theorem parts_inlineMarkdown (line : JsString) :
    Parts Plain (fun t => EmphasisTag t ∨ LinkTag t) (inlineMarkdown line) := by
  have hr := replaced_inlineMarkdown line
  have htag : ∀ t, EmphasisTag t → ∀ c ∈ js "[]()", c ∉ t := by
    rintro t ⟨name, hname, rfl⟩
    revert name
    decide
  rw [linkPattern_eq] at hr
  refine (parts_emphasise line).replaced (fun _ h => h) (fun _ h => .inl h) ?_ ?_ hr
  · intro t ht x hx
    rw [beq_eq_false_iff_ne]
    rintro rfl
    exact htag t ht 91 (by decide) hx
  · intro s gs rest hs hm
    obtain ⟨t, rfl, ht⟩ := Piece.fits_of_matchPieces hm
    rw [← linkPattern_eq] at ht
    obtain ⟨l, u, rfl, rfl⟩ := fits_link ht
    simp only [List.append_assoc] at hs
    have hdelim : ∀ {d : JsString}, (∀ c ∈ d, c ∈ js "[]()") →
        ∀ t, EmphasisTag t → ∀ c ∈ d, c ∉ t := fun h t ht c hc => htag t ht c (h c hc)
    have hlabel := (hs.split_list (a := []) (d := js "[") (hdelim (by decide)) (by decide)).2
    obtain ⟨hl, hurl⟩ := hlabel.split_list (d := js "](") (hdelim (by decide)) (by decide)
    obtain ⟨-, hrest⟩ := hurl.split_list (d := js ")") (hdelim (by decide)) (by decide)
    have hanchor : LinkTag (anchor (escapeHtml (safeLink u))) :=
      .inr ⟨_, safeHref_safeLink u, rfl⟩
    refine ⟨((Parts.of_tag (.inr hanchor)).append ?_).append (.of_tag (.inr (.inl rfl))), hrest⟩
    exact hl.mono (fun _ h => h) (fun _ h => .inl h)

/-! ## The tags of the output -/

def anchorName (href : JsString) : JsString :=
  js "a href=\"" ++ href ++ js "\" target=\"_blank\" rel=\"noopener noreferrer\""

theorem anchor_eq (href : JsString) : anchor href = tag (anchorName href) := by
  have hopen : js "<a href=\"" = js "<" ++ js "a href=\"" := by decide
  have hclose : js "\" target=\"_blank\" rel=\"noopener noreferrer\">" =
      js "\" target=\"_blank\" rel=\"noopener noreferrer\"" ++ js ">" := by decide
  rw [anchor, tag, anchorName, hopen, hclose]
  simp only [List.append_assoc]

theorem SafeHref.name {href : JsString} (h : SafeHref href) :
    ∀ c ∈ anchorName href, c ≠ 60 ∧ c ≠ 62 := by
  intro c hc
  simp only [anchorName, List.mem_append] at hc
  rcases hc with (hc | hc) | hc
  · revert c
    decide
  · constructor <;>
    · rintro rfl
      exact h.plain _ hc (by decide)
  · revert c
    decide

theorem anchorName_notMem (href : JsString) : anchorName href ∉ blockNames := by
  have hshort : ∀ name ∈ blockNames, name.length ≤ 3 := by decide
  have hlong : (js "a href=\"").length = 8 := by decide
  intro h
  have hlength := hshort _ h
  simp only [anchorName, List.length_append, hlong] at hlength
  omega

theorem OwnTag.name {t : JsString} (h : OwnTag t) :
    ∃ name, t = tag name ∧ ∀ c ∈ name, c ≠ 60 ∧ c ≠ 62 := by
  rcases h with ⟨name, hname, rfl⟩ | ⟨name, hname, rfl⟩ | rfl | ⟨href, hsafe, rfl⟩
  · exact ⟨name, rfl, by revert name; decide⟩
  · exact ⟨name, rfl, by revert name; decide⟩
  · exact ⟨js "/a", by decide, by decide⟩
  · exact ⟨anchorName href, anchor_eq href, hsafe.name⟩

theorem tagNames_append {a : JsString} (h : ∀ c ∈ a, c ≠ 60) (s : JsString) :
    tagNames (a ++ s) = tagNames s := by
  induction a with
  | nil => rfl
  | cons c a ih =>
    obtain ⟨hc, h⟩ := List.forall_mem_cons.mp h
    rw [List.cons_append, tagNames, if_neg hc, ih h]

theorem tagNames_tag {name : JsString} (h : ∀ c ∈ name, c ≠ 60 ∧ c ≠ 62) (s : JsString) :
    tagNames (tag name ++ s) = name :: tagNames s := by
  have hunits : js "<" = [60] ∧ js ">" = [62] := by decide
  have htake : (name ++ 62 :: s).takeWhile (· ≠ 62) = name := by
    rw [List.takeWhile_append_of_pos (by simpa using fun c hc => (h c hc).2)]
    simp
  rw [tag, hunits.1, hunits.2]
  simp only [List.append_assoc, List.cons_append, List.nil_append, tagNames, if_true, htake]
  have hrest : ∀ c ∈ name ++ [62], c ≠ 60 := by
    intro c hc
    rcases List.mem_append.mp hc with hc | hc
    · exact (h c hc).1
    · obtain rfl := List.mem_singleton.mp hc
      decide
  have hnames := tagNames_append hrest s
  rw [List.append_assoc] at hnames
  exact congrArg (name :: ·) hnames

theorem ne_of_plain {c : UInt16} (h : Plain c) : c ≠ 60 := by
  rintro rfl
  exact h (by decide)

theorem tagNames_parts {a : JsString} (h : Parts Plain OwnTag a) (s : JsString) :
    tagNames (a ++ s) = tagNames a ++ tagNames s := by
  induction h with
  | nil => rfl
  | text hc _ ih => simp only [List.cons_append, tagNames, if_neg (ne_of_plain hc), ih]
  | tag ht _ ih =>
    obtain ⟨name, rfl, hname⟩ := ht.name
    rw [List.append_assoc, tagNames_tag hname, tagNames_tag hname, ih]
    rfl

theorem Place.walk_append {a : JsString} (h : Parts Plain OwnTag a) (place : Place) (s : JsString) :
    place.walk (a ++ s) = (place.walk a).bind (fun place => place.walk s) := by
  simp only [walk, tagNames_parts h, List.foldlM_append]
  rfl

theorem Place.walk_tag (name : JsString) (h : ∀ c ∈ name, c ≠ 60 ∧ c ≠ 62) (place : Place) :
    place.walk (tag name) = place.pass name := by
  have htag := tagNames_tag h []
  rw [List.append_nil] at htag
  rw [walk, htag]
  simp [tagNames]

theorem Place.pass_of_notMem {name : JsString} (h : name ∉ blockNames) (place : Place) :
    place.pass name = some place := by
  unfold pass
  rw [if_pos h]

theorem Place.walk_inline {s : JsString} (h : Parts Plain (fun t => EmphasisTag t ∨ LinkTag t) s)
    (place : Place) : place.walk s = some place := by
  induction h with
  | nil => rfl
  | text hc _ ih => rwa [walk, tagNames, if_neg (ne_of_plain hc)]
  | @tag t s ht _ ih =>
    have hown : OwnTag t := .inr ht
    have hpass : place.walk t = some place := by
      rcases ht with ⟨name, hname, rfl⟩ | rfl | ⟨href, hsafe, rfl⟩
      · have hother : ∀ name ∈ emphasisNames, (∀ c ∈ name, c ≠ 60 ∧ c ≠ 62) ∧
            name ∉ blockNames := by decide
        rw [walk_tag name (hother name hname).1, pass_of_notMem (hother name hname).2]
      · exact (walk_tag (js "/a") (by decide) place).trans (pass_of_notMem (by decide) place)
      · rw [anchor_eq, walk_tag _ hsafe.name, pass_of_notMem (anchorName_notMem href)]
    rw [walk_append (.of_tag hown), hpass]
    exact ih

/-! ## The loop over the lines -/

def Rendering.place (r : Rendering) : Place := if r.inList then .list else .top

/-- The blocks so far are made of own tags, and lead to the place of the loop. -/
structure Ordered (r : Rendering) : Prop where
  parts : ∀ block ∈ r.html, Parts Plain OwnTag block
  place : r.html.foldlM Place.walk .top = some r.place

theorem parts_block (name : JsString) (hopen : name ∈ blockNames)
    (hclose : js "/" ++ name ∈ blockNames) (line : JsString) :
    Parts Plain OwnTag (tag name ++ inlineMarkdown line ++ tag (js "/" ++ name)) := by
  have hline : Parts Plain OwnTag (inlineMarkdown line) :=
    (parts_inlineMarkdown line).mono (fun _ h => h) (fun _ h => .inr h)
  exact ((Parts.of_tag (.inl ⟨name, hopen, rfl⟩)).append hline).append
    (.of_tag (.inl ⟨_, hclose, rfl⟩))

theorem walk_block (name : JsString) (hopen : name ∈ blockNames)
    (hclose : js "/" ++ name ∈ blockNames) {place : Place} (inner : Place)
    (henter : place.pass name = some inner)
    (hleave : inner.pass (js "/" ++ name) = some place) (line : JsString) :
    place.walk (tag name ++ inlineMarkdown line ++ tag (js "/" ++ name)) = some place := by
  have hname : ∀ name ∈ blockNames, ∀ c ∈ name, c ≠ 60 ∧ c ≠ 62 := by decide
  have hline := parts_inlineMarkdown line
  have hparts : Parts Plain OwnTag (inlineMarkdown line) :=
    hline.mono (fun _ h => h) (fun _ h => .inr h)
  have htag : Parts Plain OwnTag (tag name) := .of_tag (.inl ⟨name, hopen, rfl⟩)
  rw [Place.walk_append (htag.append hparts), Place.walk_append htag,
    Place.walk_tag name (hname name hopen), henter, Option.bind_some, Place.walk_inline hline,
    Option.bind_some, Place.walk_tag _ (hname _ hclose), hleave]

namespace Ordered
variable {r : Rendering}

theorem push (h : Ordered r) {block : JsString} (hparts : Parts Plain OwnTag block) (inList : Bool)
    (hwalk : r.place.walk block = some (if inList then .list else .top)) :
    Ordered { r.push block with inList := inList } := by
  constructor
  · intro b hb
    rcases List.mem_append.mp hb with hb | hb
    · exact h.parts b hb
    · rwa [List.mem_singleton.mp hb]
  · change (r.html ++ [block]).foldlM Place.walk .top = _
    rw [List.foldlM_append, h.place]
    simpa [Rendering.place] using hwalk

theorem openList (h : Ordered r) : Ordered r.openList ∧ r.openList.inList = true := by
  unfold Rendering.openList
  by_cases hin : r.inList = true
  · simpa [hin] using h
  · rw [if_neg hin]
    refine ⟨h.push ?_ _ ?_, rfl⟩
    · exact .of_tag (.inl ⟨js "ul", by decide, by decide⟩)
    · rw [Rendering.place, if_neg hin]
      decide

theorem closeList (h : Ordered r) : Ordered r.closeList ∧ r.closeList.inList = false := by
  unfold Rendering.closeList
  by_cases hin : r.inList = true
  · rw [if_pos hin]
    refine ⟨h.push ?_ _ ?_, rfl⟩
    · exact .of_tag (.inl ⟨js "/ul", by decide, by decide⟩)
    · rw [Rendering.place, if_pos hin]
      decide
  · simpa [hin] using h

theorem pushBlock (h : Ordered r) (hin : r.inList = false) (name : JsString)
    (hname : name ∈ ["h1", "h2", "h3", "p"].map js) (line : JsString) :
    Ordered (r.push (tag name ++ inlineMarkdown line ++ tag (js "/" ++ name))) := by
  have hblock : ∀ name ∈ ["h1", "h2", "h3", "p"].map js, name ∈ blockNames ∧
      js "/" ++ name ∈ blockNames ∧ Place.top.pass name = some (.block name) ∧
        (Place.block name).pass (js "/" ++ name) = some .top := by decide
  obtain ⟨hopen, hclose, henter, hleave⟩ := hblock name hname
  have hplace : r.place = .top := by simp [Rendering.place, hin]
  have hpush := h.push (parts_block name hopen hclose line) false
    (by rw [hplace]; exact walk_block name hopen hclose _ henter hleave line)
  rw [← hin] at hpush
  exact hpush

theorem pushItem (h : Ordered r) (hin : r.inList = true) (line : JsString) :
    Ordered (r.push (js "<li>" ++ inlineMarkdown line ++ js "</li>")) := by
  have hplace : r.place = .list := by simp [Rendering.place, hin]
  have hpush := h.push (parts_block (js "li") (by decide) (by decide) line) true (by
    rw [hplace]
    exact walk_block (js "li") (by decide) (by decide) .item (by decide) (by decide) line)
  rw [← hin] at hpush
  exact hpush

theorem line (h : Ordered r) (line : JsString) : Ordered (r.line line) := by
  unfold Rendering.line
  obtain ⟨hclosed, hout⟩ := h.closeList
  obtain ⟨hopened, hin⟩ := h.openList
  dsimp only
  split
  · exact hclosed
  split
  · exact hopened.pushItem hin _
  split
  · exact hclosed.pushBlock hout (js "h3") (by decide) _
  split
  · exact hclosed.pushBlock hout (js "h2") (by decide) _
  split
  · exact hclosed.pushBlock hout (js "h1") (by decide) _
  · exact hclosed.pushBlock hout (js "p") (by decide) _

theorem lines (h : Ordered r) (lines : List JsString) : Ordered (lines.foldl Rendering.line r) := by
  induction lines generalizing r with
  | nil => exact h
  | cons line lines ih => exact ih (h.line line)

end Ordered

theorem walk_intercalate {blocks : List JsString} (h : ∀ block ∈ blocks, Parts Plain OwnTag block)
    (place : Place) : Parts Plain OwnTag ((js "\n").intercalate blocks) ∧
      place.walk ((js "\n").intercalate blocks) = blocks.foldlM Place.walk place := by
  have hbreak : Parts Plain OwnTag (js "\n") := .of_text (by decide)
  induction blocks generalizing place with
  | nil => exact ⟨.nil, rfl⟩
  | cons block blocks ih =>
    obtain ⟨hblock, h⟩ := List.forall_mem_cons.mp h
    have hwalk : ∀ blocks : List JsString, (block :: blocks).foldlM Place.walk place =
        (place.walk block).bind (fun place => blocks.foldlM Place.walk place) := fun _ => rfl
    rcases blocks with _ | ⟨next, blocks⟩
    · rw [List.intercalate_singleton, hwalk]
      exact ⟨hblock, by cases place.walk block <;> rfl⟩
    · rw [List.intercalate_cons_cons, List.append_assoc, hwalk]
      refine ⟨hblock.append (hbreak.append (ih h .top).1), ?_⟩
      rw [Place.walk_append hblock]
      congr 1
      funext place
      rw [Place.walk_append hbreak]
      exact (ih h place).2

/-- Whatever the text, the output is inert. -/
theorem renderSimpleMarkdownToHtml_inert (markdown : JsString) :
    Inert (renderSimpleMarkdownToHtml markdown) := by
  have hstart : Ordered ⟨[], false⟩ := ⟨by simp, rfl⟩
  obtain ⟨hordered, hout⟩ := (hstart.lines (linesOf markdown)).closeList
  obtain ⟨hparts, hwalk⟩ := walk_intercalate hordered.parts .top
  refine ⟨hparts, ?_, ?_⟩
  · rintro a b heq
    rw [renderSimpleMarkdownToHtml] at heq
    rw [heq] at hparts
    refine hparts.tag_at (fun h => ne_of_plain h rfl) (fun t ht => ?_)
    obtain ⟨name, rfl, hname⟩ := ht.name
    have hunits : js "<" = [60] ∧ js ">" = [62] := by decide
    refine ⟨name ++ [62], by rw [tag, hunits.1, hunits.2]; rfl, ?_⟩
    simpa using fun h => (hname 60 h).1 rfl
  · rw [renderSimpleMarkdownToHtml, hwalk, hordered.place, Rendering.place, hout]
    rfl

end SyncServer.Dashboard
