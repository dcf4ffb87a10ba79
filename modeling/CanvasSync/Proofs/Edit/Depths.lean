import CanvasSync.Proofs.Edit.Indentation
import CanvasSync.Proofs.Markup.Updates

/-!
Markup at a depth.

The markup of a component is indented in two ways: at a depth, each of its lines is indented where it
is written; without a depth, the finished text is cut into lines and these are indented.

* `Component.IsUnbroken`: no line feed is in what a component writes as it is;
* `isUnbroken_iff`: then none is in its opening tag and in its text content, and only then;
* `Shifts`: a text is another one reindented exactly if something holds, closed under `append`;
* `shifts_lines`: components written deeper are their markup reindented exactly if all are unbroken;
* `render_eq_indentBlock`: the two ways agree for unbroken components and, if there is an indent, for
  no others.
-/

namespace CanvasSync

open CanvasSync.Markup (Shell Style attributeText contentText needsBraces repeated)

/-! ### Indents and text content -/

namespace Markup

lemma repeated_add (t : Text) (m n : Nat) : repeated t (m + n) = repeated t m ++ repeated t n := by
  induction m with
  | zero => rw [Nat.zero_add]; rfl
  | succ m ih => rw [Nat.succ_add, repeated, ih, repeated, List.append_assoc]

lemma notMem_repeated {t : Text} {x : Char} (h : x ∉ t) (n : Nat) : x ∉ repeated t n := by
  induction n with
  | zero => exact List.not_mem_nil
  | succ n ih => rw [repeated, List.mem_append, not_or]; exact ⟨h, ih⟩

/-- Text content in braces has no line feeds. -/
lemma notMem_contentText_iff (t : Text) :
    '\n' ∉ contentText t ↔ (t.any needsBraces = false → '\n' ∉ t) := by
  have hquote : '\n' ∉ Json.quote t := Text.notMem_of_isOneLine (Json.isOneLine_quote t)
  rw [contentText]
  by_cases ht : t.any needsBraces
  · simp [ht, hquote]
  · simp [ht]

end Markup

/-! ### Line feeds of components -/

namespace Component

variable {style : Style} {c : Component} {depth : Nat}

/-- No line feed is in what a component, without those within it, writes as it is: its tag, its id,
its keys, the strings of its attributes in quotes, and its text content outside braces. -/
structure IsUnbroken (style : Style) (c : Component) : Prop where
  tag : '\n' ∉ c.tag.toList
  id : '\n' ∉ c.id.toList
  keys : ∀ p ∈ c.props, '\n' ∉ p.1.toList
  strings : ∀ p ∈ c.attributeProps style, ∀ s ∈ p.2.string?, '"' ∉ s.toList → '\n' ∉ s.toList
  content : c.children = [] → ∀ s ∈ c.text?, s.toList.any needsBraces = false → '\n' ∉ s.toList

instance (style : Style) (c : Component) : Decidable (c.IsUnbroken style) :=
  decidable_of_iff ('\n' ∉ c.tag.toList ∧ '\n' ∉ c.id.toList ∧ (∀ p ∈ c.props, '\n' ∉ p.1.toList)
      ∧ (∀ p ∈ c.attributeProps style, ∀ s ∈ p.2.string?, '"' ∉ s.toList → '\n' ∉ s.toList)
      ∧ (c.children = [] →
        ∀ s ∈ c.text?, s.toList.any needsBraces = false → '\n' ∉ s.toList))
    ⟨fun ⟨htag, hid, hkeys, hstrings, hcontent⟩ => ⟨htag, hid, hkeys, hstrings, hcontent⟩,
      fun h => ⟨h.tag, h.id, h.keys, h.strings, h.content⟩⟩

/-- No line feed is in an opening tag if none is in the name, the id and the attributes. -/
lemma notMem_opening_iff (hmarker : '\n' ∉ style.marker.toList) : '\n' ∉ (c.shell style).opening
    ↔ '\n' ∉ c.tag.toList ∧ '\n' ∉ c.id.toList
      ∧ ∀ p ∈ c.attributeProps style, '\n' ∉ attributeText p.1 p.2 := by
  have htext (gap : Text) (hgap : '\n' ∉ gap) : '\n' ∉ (c.openingTag style gap).text
      ↔ '\n' ∉ c.tag.toList ∧ '\n' ∉ c.id.toList
        ∧ ∀ p ∈ c.attributeProps style, '\n' ∉ attributeText p.1 p.2 := by
    rw [text_openingTag, Markup.attributesText]
    change '\n' ∉ '<' :: (_ ++ (_ ++ (c.attributeProps style).flatMap _ ++ _)) ↔ _
    simp [hmarker, hgap]
  rw [shell]
  split
  · simpa [Shell.opening] using htext [' '] (by decide)
  · simpa [Shell.opening] using htext [] (by decide)

lemma notMem_closing (h : '\n' ∉ c.tag.toList) : '\n' ∉ (c.shell style).closing := by
  rw [shell]
  split
  · exact List.not_mem_nil
  · simpa [Shell.closing, openingTag] using h

/-- The text between the tags of a component without others within it. -/
lemma notMem_inner_iff (h : c.children = []) : '\n' ∉ (c.inner style depth).written
    ↔ ∀ s ∈ c.text?, s.toList.any needsBraces = false → '\n' ∉ s.toList := by
  cases ht : c.text? with
  | some s =>
      rw [inner_of_text h ht, Markup.Passage.written_ofText, Markup.notMem_contentText_iff]
      simp
  | none =>
      rw [inner_of_leaf h ht]
      simp [Markup.Passage.written]

/-- **A component is unbroken exactly if no line feed is in its opening tag and in its text content.**
-/
theorem isUnbroken_iff (hmarker : '\n' ∉ style.marker.toList) (depth : Nat) : c.IsUnbroken style
    ↔ '\n' ∉ (c.shell style).opening
      ∧ (c.children = [] → '\n' ∉ (c.inner style depth).written) := by
  rw [notMem_opening_iff hmarker]
  constructor
  · intro h
    refine ⟨⟨h.tag, h.id, fun p hp => ?_⟩, fun hc => (notMem_inner_iff hc).mpr (h.content hc)⟩
    exact (Markup.notMem_attributeText_iff p.1 p.2).mpr
      ⟨h.keys p (List.mem_of_mem_filter hp), h.strings p hp⟩
  · rintro ⟨⟨htag, hid, hprops⟩, hinner⟩
    have hattribute (p) (hp : p ∈ c.attributeProps style) :=
      (Markup.notMem_attributeText_iff p.1 p.2).mp (hprops p hp)
    refine ⟨htag, hid, fun p hp => ?_, fun p hp => (hattribute p hp).2,
      fun hc => (notMem_inner_iff hc).mp (hinner hc)⟩
    -- a prop that is no attribute is text content or has the key of the marker
    by_cases hmem : p ∈ c.attributeProps style
    · exact (hattribute p hmem).1
    · have hkey : p.1 = "children" ∨ p.1 = style.marker := by
        simp only [attributeProps, List.mem_filter, hp, true_and, Bool.and_eq_true,
          Bool.not_eq_true', decide_eq_true_eq] at hmem
        by_contra hno
        rw [not_or] at hno
        exact hmem ⟨by simp [hno.1], hno.2⟩
      rcases hkey with hkey | hkey
      · rw [hkey]
        decide
      · rwa [hkey]

end Component

/-! ### Reindented texts -/

namespace Edit

variable {indent t u t' u' : Text} {P Q : Prop}

/-- A text `u` is `t` reindented if `P` holds. Unless the indent is empty it is so only then: the two
do not even end alike behind other texts. -/
structure Shifts (indent t u : Text) (P : Prop) : Prop where
  eq : P → reindent indent t = u
  of_eq : indent ≠ [] → ∀ x y, x ++ reindent indent t = y ++ u → x = y ∧ P

namespace Shifts

lemma of_reindent (h : reindent indent t = u) : Shifts indent t u True := by
  refine ⟨fun _ => h, fun _ x y heq => ⟨?_, trivial⟩⟩
  rw [h] at heq
  exact List.append_cancel_right heq

lemma of_text (hindent : '\n' ∉ indent) (t : Text) : Shifts indent t t ('\n' ∉ t) :=
  ⟨reindent_of_notMem, fun hne _ _ => (append_reindent_eq_append_iff hindent hne).mp⟩

lemma append (h : Shifts indent t u P) (h' : Shifts indent t' u' Q)
    (hsplit : reindent indent (t ++ t') = reindent indent t ++ reindent indent t') :
    Shifts indent (t ++ t') (u ++ u') (P ∧ Q) := by
  refine ⟨fun hpq => by rw [hsplit, h.eq hpq.1, h'.eq hpq.2], fun hne x y heq => ?_⟩
  rw [hsplit, ← List.append_assoc, ← List.append_assoc] at heq
  obtain ⟨hfront, hq⟩ := h'.of_eq hne _ _ heq
  obtain ⟨hxy, hp⟩ := h.of_eq hne _ _ hfront
  exact ⟨hxy, hp, hq⟩

lemma congr (h : Shifts indent t u P) (hiff : P ↔ Q) : Shifts indent t u Q :=
  ⟨fun hq => h.eq (hiff.mpr hq), fun hne x y heq => (h.of_eq hne x y heq).imp_right hiff.mp⟩

end Shifts

/-! ### Deeper components -/

variable {style : Style} {c : Component} {cs : List Component} {depth last : Nat}

/-- The blanks before an element are reindented to those of a greater depth. -/
lemma reindent_lineGap (hindent : '\n' ∉ style.indent.toList) (k depth : Nat) :
    reindent (repeated style.indent.toList k) (Component.lineGap style depth)
      = Component.lineGap style (k + depth) := by
  have hfree : '\n' ∉ repeated style.indent.toList depth := Markup.notMem_repeated hindent depth
  rw [Component.lineGap, reindent, if_pos rfl, beginsEmpty_of_notMem hfree, reindent_of_notMem hfree,
    Component.lineGap, Markup.repeated_add]
  rfl

variable {k : Nat}

/-- What stands between the tags of a component is reindented, if the components within are reindented
on lines of their own. -/
lemma shifts_inner_of_lines (hindent : '\n' ∉ indent) (hlines : Shifts indent
      (Component.lines style (depth + 1) (Component.lineGap style depth) c.children).written
      (Component.lines style (k + depth + 1) (Component.lineGap style (k + depth)) c.children).written
      (∀ d ∈ Component.nodesAll c.children, d.IsUnbroken style)) :
    Shifts indent (c.inner style depth).written (c.inner style (k + depth)).written
      ((c.children = [] → '\n' ∉ (c.inner style depth).written)
        ∧ ∀ d ∈ Component.nodesAll c.children, d.IsUnbroken style) := by
  by_cases hchildren : c.children = []
  · have hinner : c.inner style (k + depth) = c.inner style depth := by
      cases ht : c.text? with
      | some t => rw [Component.inner_of_text hchildren ht, Component.inner_of_text hchildren ht]
      | none => rw [Component.inner_of_leaf hchildren ht, Component.inner_of_leaf hchildren ht]
    rw [hinner]
    exact (Shifts.of_text hindent _).congr (by simp [hchildren])
  · rw [Component.inner_of_children hchildren, Component.inner_of_children hchildren]
    exact hlines.congr (and_iff_right fun h => absurd h hchildren).symm

/-- A component without its indentation is reindented exactly if it is unbroken, and those within it
are. -/
lemma shifts_wrap_of_lines (hmarker : '\n' ∉ style.marker.toList) (hindent : '\n' ∉ indent)
    (hlines : Shifts indent
      (Component.lines style (depth + 1) (Component.lineGap style depth) c.children).written
      (Component.lines style (k + depth + 1) (Component.lineGap style (k + depth)) c.children).written
      (∀ d ∈ Component.nodesAll c.children, d.IsUnbroken style)) :
    Shifts indent ((c.shell style).wrap (c.inner style depth))
      ((c.shell style).wrap (c.inner style (k + depth))) (∀ d ∈ c.nodes, d.IsUnbroken style) := by
  have hshifts := (Shifts.of_text hindent (c.shell style).opening).append
    ((shifts_inner_of_lines hindent hlines).append (Shifts.of_text hindent (c.shell style).closing)
      (reindent_inner_append_closing style depth c))
    (reindent_append_of_endsSolid (Shell.endsSolid_opening _) _)
  refine hshifts.congr ?_
  -- a line feed of the closing tag is one of the opening tag too
  rw [Component.nodes_eq, List.forall_mem_cons, Component.isUnbroken_iff hmarker depth]
  constructor
  · rintro ⟨hopening, ⟨hinner, hwithin⟩, -⟩
    exact ⟨⟨hopening, hinner⟩, hwithin⟩
  · rintro ⟨⟨hopening, hinner⟩, hwithin⟩
    have htag := ((Component.notMem_opening_iff hmarker).mp hopening).1
    exact ⟨hopening, ⟨hinner, hwithin⟩, Component.notMem_closing htag⟩

/-- **Components on lines of their own that are written deeper are these lines reindented**, exactly
if they are unbroken. -/
theorem shifts_lines (hmarker : '\n' ∉ style.marker.toList) (hindent : '\n' ∉ style.indent.toList)
    (cs : List Component) (k depth last : Nat) : Shifts (repeated style.indent.toList k)
      (Component.lines style depth (Component.lineGap style last) cs).written
      (Component.lines style (k + depth) (Component.lineGap style (k + last)) cs).written
      (∀ d ∈ Component.nodesAll cs, d.IsUnbroken style) := by
  have hfree := Markup.notMem_repeated hindent k
  induction cs using Component.forestInduction generalizing depth last with
  | nil => exact (Shifts.of_reindent (reindent_lineGap hindent k last)).congr (by simp)
  | cons c cs ihc ihcs =>
      have hgap := Shifts.of_reindent (reindent_lineGap hindent k depth)
      have hwrap := shifts_wrap_of_lines hmarker hfree (ihc (depth + 1) depth)
      rw [written_lines_cons, written_lines_cons]
      -- an element begins and ends with a sign, so what is around it is reindented on its own
      refine (hgap.append (hwrap.append (ihcs depth last)
        (reindent_append_of_endsSolid (endsSolid_wrap style depth c) _))
        (reindent_append_of_beginsSolid (beginsSolid_wrap style depth c _) _)).congr ?_
      rw [true_and, Component.nodesAll_cons, Component.nodes_eq, ← List.forall_mem_append,
        List.cons_append]

/-- **The markup of a component at a depth is its markup without a depth, indented line by line**, if
no line feed is in what is written as it is; and unless there is no indent, only then. -/
theorem render_eq_indentBlock (hmarker : '\n' ∉ style.marker.toList)
    (hindent : '\n' ∉ style.indent.toList) (depth : Nat) (c : Component) :
    ((∀ d ∈ c.nodes, d.IsUnbroken style) → Markup.render style depth c
        = indentBlock (repeated style.indent.toList depth) (Markup.render style 0 c))
      ∧ (repeated style.indent.toList depth ≠ [] → Markup.render style depth c
          = indentBlock (repeated style.indent.toList depth) (Markup.render style 0 c) →
        ∀ d ∈ c.nodes, d.IsUnbroken style) := by
  have hshifts := shifts_wrap_of_lines hmarker (Markup.notMem_repeated hindent depth)
    (shifts_lines hmarker hindent c.children depth 1 0)
  rw [indentBlock_render_eq, render_zero, Component.render_eq, List.append_cancel_left_eq]
  exact ⟨fun h => (hshifts.eq h).symm,
    fun hne h => (hshifts.of_eq hne [] [] (by simpa using h.symm)).2⟩

/-- A section with line feeds in strings that are written as JSON. -/
def newsPanel : Component :=
  { Component.ofTag "panel" "section" with
    props := [("title", .string "News")]
    children :=
      [{ Component.ofTag "head" "h2" with props := [("children", .string "a < b\n")] },
        { Component.ofTag "rule" "hr" with props := [("label", .string "\"a\"\n")] }] }

/-- An item with a line feed in its id, which is written in quotes. -/
def brokenItem : Component := Component.ofTag "a\nb" "li"

theorem render_eq_indentBlock_newsPanel :
    '\n' ∉ Style.standard.marker.toList ∧ '\n' ∉ Style.standard.indent.toList
      ∧ (∀ d ∈ newsPanel.nodes, d.IsUnbroken .standard)
      ∧ Markup.render .standard 2 newsPanel
        = indentBlock (repeated Style.standard.indent.toList 2) (Markup.render .standard 0 newsPanel)
      ∧ repeated Style.standard.indent.toList 1 ≠ []
      ∧ Markup.render .standard 1 brokenItem
        ≠ indentBlock (repeated Style.standard.indent.toList 1)
          (Markup.render .standard 0 brokenItem) := by
  have hmarker : '\n' ∉ Style.standard.marker.toList := by decide
  have hindent : '\n' ∉ Style.standard.indent.toList := by decide
  have hunbroken : ∀ d ∈ newsPanel.nodes, d.IsUnbroken .standard := by decide +kernel
  have hbroken : ¬∀ d ∈ brokenItem.nodes, d.IsUnbroken .standard := by decide +kernel
  have hne : repeated Style.standard.indent.toList 1 ≠ [] := by decide
  obtain ⟨hagree, -⟩ := render_eq_indentBlock hmarker hindent 2 newsPanel
  obtain ⟨-, honly⟩ := render_eq_indentBlock hmarker hindent 1 brokenItem
  exact ⟨hmarker, hindent, hunbroken, hagree hunbroken, hne, fun heq => hbroken (honly hne heq)⟩

end Edit

end CanvasSync
