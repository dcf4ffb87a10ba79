import CanvasSync.Proofs.Component.Forest
import CanvasSync.Proofs.Script.Elements

/-!
Components as they are written.

* `Part.ofProp`, `Passage.ofText`: a prop as an attribute, and a text as the content of an element;
* `Component.shell`, `Component.inner`: the tags of a component and what stands between them;
* `render_eq`: the markup of a component is its indentation and this content with these tags around
  it;
* `Component.isPrintable`: components whose markup is read as written, whatever comes back from it.
-/

namespace CanvasSync

open CanvasSync.Script (isAttributeName isMarkupName)
open CanvasSync.Script.Grammar (IsAttribute IsPlain IsTag Writes attributeText_eq isInsert_text
  valueText writes_valueText writtenValue)

namespace Markup

/-! ### Props and texts -/

lemma allBlank_space : Text.allBlank [' '] := by decide

/-- A prop as an attribute behind a space. -/
def Part.ofProp (p : String × Json.Value) : Part := ⟨[' '], p.1, valueText p.2, writtenValue p.2⟩

lemma Part.whole_ofProp (p : String × Json.Value) :
    (ofProp p).whole = ' ' :: attributeText p.1 p.2 := by
  rw [attributeText_eq]
  rfl

lemma Part.isAttribute_ofProp {p : String × Json.Value} (hname : isAttributeName p.1.toList)
    (hvalue : p.2.isPlain) : IsAttribute (ofProp p) :=
  ⟨List.cons_ne_nil _ _, allBlank_space, hname, writes_valueText hvalue⟩

/-- A text as the content of an element. -/
def Passage.ofText (t : Text) : Passage :=
  if t.any needsBraces then .braced [] (Json.quote t) (.text t) (.text []) else .text t

lemma Passage.written_ofText (t : Text) : (ofText t).written = contentText t := by
  unfold ofText contentText
  split <;> rfl

@[simp] lemma Passage.components_ofText (marker : String) (t : Text) :
    (ofText t).components marker = [] := by
  unfold ofText
  split <;> rfl

lemma Passage.isProper_ofText (t : Text) : (ofText t).IsProper := by
  unfold ofText
  split
  · have hquote := isInsert_text (v := .string (String.ofList t)) rfl
    simp only [Json.Value.string?, Json.Value.text, String.toList_ofList] at hquote
    exact ⟨List.forall_mem_nil _, hquote, List.forall_mem_nil _⟩
  · next h =>
      intro x hx
      have hx' : needsBraces x = false := by
        simpa using fun hb => h (List.any_eq_true.mpr ⟨x, hx, hb⟩)
      simp only [needsBraces, Bool.or_eq_false_iff, decide_eq_false_iff_not] at hx'
      exact ⟨hx'.1.2, hx'.1.1.1⟩

/-! ### Styles -/

/-- A style whose marker is a name, and whose indentation is blank. -/
structure Style.IsProper (style : Style) : Prop where
  marker : isAttributeName style.marker.toList
  indent : Text.allBlank style.indent.toList

lemma Style.isProper_standard : Style.standard.IsProper := ⟨by decide +kernel, by decide⟩

end Markup

namespace Component

open CanvasSync.Markup (Node Part Passage Place Shell Style Tag Tree attributeText attributesText
  partsText render renderLines)

variable {style : Style}

/-! ### Components -/

/-- The marker of a component as an attribute. -/
def markerPart (style : Style) (id : String) : Part :=
  ⟨[' '], style.marker, '=' :: '"' :: (id.toList ++ ['"']), .quoted id⟩

/-- The props of a component that are written as attributes: text content is left to the content. -/
def attributeProps (style : Style) (c : Component) : Json.Fields :=
  c.props.filter fun p => !(p.1 = "children" && (c.text?.isSome || !c.children.isEmpty))
    && p.1 ≠ style.marker

/-- The opening tag of a component up to its end, its marker first. -/
def openingTag (style : Style) (c : Component) (gap : Text) : Tag :=
  ⟨c.tag.toList, markerPart style c.id :: (c.attributeProps style).map Part.ofProp, gap⟩

/-- The tags of a component: one that closes itself if there is nothing between them. -/
def shell (style : Style) (c : Component) : Shell :=
  if c.children.isEmpty && c.text?.isNone then .closed (c.openingTag style [' '])
  else .element (c.openingTag style [])

/-- The line feed and the blanks before an element at a depth of indentation. -/
def lineGap (style : Style) (depth : Nat) : Text :=
  '\n' :: Markup.repeated style.indent.toList depth

mutual
/-- What stands between the tags of a component. -/
def inner (style : Style) (depth : Nat) : Component → Passage
  | ⟨id, tag, name, props, children, position⟩ =>
    match children with
    | [] =>
      match text? ⟨id, tag, name, props, [], position⟩ with
      | some t => .ofText t.toList
      | none => .text []
    | c :: cs => lines style (depth + 1) (lineGap style depth) (c :: cs)

/-- Components on lines of their own, with a text behind the last one. -/
def lines (style : Style) (depth : Nat) (last : Text) : List Component → Passage
  | [] => .text last
  | c :: cs => .node (lineGap style depth) (shell style c) (inner style depth c)
      (lines style depth last cs)
end

variable {depth : Nat} {c : Component} {cs : List Component} {last : Text}

lemma inner_of_children (h : c.children ≠ []) :
    c.inner style depth = lines style (depth + 1) (lineGap style depth) c.children := by
  obtain ⟨id, tag, name, props, children, position⟩ := c
  cases children with
  | nil => exact absurd rfl h
  | cons d ds => rw [inner]

lemma inner_of_text {t : String} (h : c.children = []) (ht : c.text? = some t) :
    c.inner style depth = .ofText t.toList := by
  obtain ⟨id, tag, name, props, children, position⟩ := c
  subst h
  rw [inner, ht]

lemma inner_of_leaf (h : c.children = []) (ht : c.text? = none) :
    c.inner style depth = .text [] := by
  obtain ⟨id, tag, name, props, children, position⟩ := c
  subst h
  rw [inner, ht]

/-! ### The markup of components -/

/-- The opening tag of a component as it is written. -/
lemma text_openingTag (style : Style) (c : Component) (gap : Text) :
    (c.openingTag style gap).text = '<' :: (c.tag.toList
      ++ (attributesText style c.id c.props (c.text?.isSome || !c.children.isEmpty) ++ gap)) := by
  have hprops (ps : Json.Fields) :
      partsText (ps.map Part.ofProp) = ps.flatMap fun p => ' ' :: attributeText p.1 p.2 := by
    rw [partsText, List.flatMap_map]
    exact List.flatMap_congr fun p _ => Part.whole_ofProp p
  rw [openingTag, Tag.text, Markup.partsText_cons, hprops, attributesText, attributeProps]
  simp [markerPart, Part.text]

/-- Components on lines of their own, each behind a line feed. -/
lemma cons_renderLines (hne : cs ≠ []) :
    '\n' :: renderLines style depth cs = cs.flatMap fun c => '\n' :: render style depth c := by
  induction cs with
  | nil => exact absurd rfl hne
  | cons c cs ih =>
      cases cs with
      | nil => simp [renderLines]
      | cons d ds => rw [List.flatMap_cons, ← ih (List.cons_ne_nil d ds), renderLines]; rfl

/-- A component is written as its indentation and its content with its tags around it, if those
within it are written on lines of their own. -/
lemma render_eq_of_lines (h : ∀ last, (lines style (depth + 1) last c.children).written
      = (c.children.flatMap fun d => '\n' :: render style (depth + 1) d) ++ last) :
    render style depth c
      = Markup.repeated style.indent.toList depth ++ (c.shell style).wrap (c.inner style depth) := by
  have hopening := text_openingTag style c
  by_cases hchildren : c.children = []
  · cases ht : c.text? with
    | some t =>
        rw [inner_of_text hchildren ht, shell, hchildren, ht, if_neg (by simp), Shell.wrap,
          Shell.opening, hopening, hchildren, ht, Passage.written_ofText]
        obtain ⟨id, tag, name, props, children, position⟩ := c
        obtain rfl : children = [] := hchildren
        rw [render, ht]
        simp [Shell.closing, openingTag]
    | none =>
        rw [inner_of_leaf hchildren ht, shell, hchildren, ht, if_pos (by simp), Shell.wrap,
          Shell.opening, hopening, hchildren, ht]
        obtain ⟨id, tag, name, props, children, position⟩ := c
        obtain rfl : children = [] := hchildren
        rw [render, ht]
        simp [Shell.closing, Passage.written]
  · obtain ⟨d, ds, hds⟩ := List.exists_cons_of_ne_nil hchildren
    rw [inner_of_children hchildren, Shell.wrap, h, ← cons_renderLines hchildren, shell, hds,
      if_neg (by simp), Shell.opening, hopening, hds]
    obtain ⟨id, tag, name, props, children, position⟩ := c
    obtain rfl : children = d :: ds := hds
    rw [render]
    simp [Shell.closing, openingTag, lineGap]

lemma written_lines (cs : List Component) : (lines style depth last cs).written
    = (cs.flatMap fun c => '\n' :: render style depth c) ++ last := by
  induction cs using forestInduction generalizing depth last with
  | nil => rfl
  | cons c cs ihc ihcs =>
      have hc : render style depth c = _ := render_eq_of_lines fun _ => ihc
      rw [lines, Passage.written, ihcs, List.flatMap_cons, hc]
      simp [lineGap, Shell.wrap]

/-- **A component is written as its indentation and its content with its tags around it.** -/
theorem render_eq (style : Style) (depth : Nat) (c : Component) : render style depth c
    = Markup.repeated style.indent.toList depth ++ (c.shell style).wrap (c.inner style depth) :=
  render_eq_of_lines fun _ => written_lines c.children

/-! ### Markup that is read as written -/

mutual
/-- Whether the markup of a component is read as written: its tag and its keys are names, its values
have texts, and there is no quote in its id. -/
def isPrintable : Component → Bool
  | ⟨id, tag, _, props, children, _⟩ =>
    isMarkupName tag.toList && !id.toList.contains '"'
      && props.all (fun p => isAttributeName p.1.toList && p.2.isPlain) && arePrintable children

/-- Whether the markup of several components is read as written. -/
def arePrintable : List Component → Bool
  | [] => true
  | c :: cs => isPrintable c && arePrintable cs
end

/-- The parts of a component whose markup is read as written. -/
structure Printable (c : Component) : Prop where
  tag : isMarkupName c.tag.toList
  id : '"' ∉ c.id.toList
  props : ∀ p ∈ c.props, isAttributeName p.1.toList ∧ p.2.isPlain
  children : arePrintable c.children

lemma printable_of_isPrintable (h : c.isPrintable) : c.Printable := by
  obtain ⟨id, tag, name, props, children, position⟩ := c
  simp only [isPrintable, Bool.and_eq_true, Bool.not_eq_true', List.all_eq_true] at h
  obtain ⟨⟨⟨htag, hid⟩, hprops⟩, hchildren⟩ := h
  exact ⟨htag, by simpa using hid, hprops, hchildren⟩

lemma isPlain_of_allBlank {t : Text} (h : Text.allBlank t) : IsPlain t := by
  intro x hx
  have hblank := List.all_eq_true.mp h x hx
  constructor <;> rintro rfl <;> exact absurd hblank (by decide)

lemma allBlank_repeated {t : Text} (h : Text.allBlank t) (depth : Nat) :
    Text.allBlank (Markup.repeated t depth) := by
  induction depth with
  | zero => rfl
  | succ n ih => simpa [Markup.repeated, Text.allBlank] using ⟨by simpa [Text.allBlank] using h,
      by simpa [Text.allBlank] using ih⟩

lemma allBlank_lineGap (hstyle : style.IsProper) (depth : Nat) :
    Text.allBlank (lineGap style depth) := by
  have hfeed : isBlank '\n' := by decide
  rw [lineGap, Text.allBlank, List.all_cons, hfeed, Bool.true_and]
  exact allBlank_repeated hstyle.indent depth

lemma isTag_openingTag (hstyle : style.IsProper) (hc : c.Printable) {gap : Text}
    (hgap : Text.allBlank gap) : IsTag (c.openingTag style gap) := by
  refine ⟨hc.tag, List.forall_mem_cons.mpr ⟨?_, fun p hp => ?_⟩, hgap⟩
  · have hid := Writes.quoted (.inl rfl) hc.id
    rw [String.ofList_toList] at hid
    exact ⟨List.cons_ne_nil _ _, Markup.allBlank_space, hstyle.marker, hid⟩
  · obtain ⟨q, hq, rfl⟩ := List.mem_map.mp hp
    obtain ⟨hname, hvalue⟩ := hc.props q (List.mem_of_mem_filter hq)
    exact Part.isAttribute_ofProp hname hvalue

lemma isProper_shell (hstyle : style.IsProper) (hc : c.Printable) : (c.shell style).IsProper := by
  rw [shell]
  split
  · exact isTag_openingTag hstyle hc Markup.allBlank_space
  · exact isTag_openingTag hstyle hc rfl

lemma inner_of_isClosed (h : (c.shell style).isClosed) (depth : Nat) :
    c.inner style depth = .text [] := by
  rw [shell] at h
  split at h
  · next hleaf =>
      simp only [Bool.and_eq_true, List.isEmpty_iff, Option.isNone_iff_eq_none] at hleaf
      exact inner_of_leaf hleaf.1 hleaf.2
  · cases h

lemma isProper_inner_of_lines (hstyle : style.IsProper)
    (h : ∀ last, IsPlain last → (lines style (depth + 1) last c.children).IsProper) :
    (c.inner style depth).IsProper := by
  by_cases hchildren : c.children = []
  · cases ht : c.text? with
    | some t =>
        rw [inner_of_text hchildren ht]
        exact Passage.isProper_ofText _
    | none =>
        rw [inner_of_leaf hchildren ht]
        exact List.forall_mem_nil _
  · rw [inner_of_children hchildren]
    exact h _ (isPlain_of_allBlank (allBlank_lineGap hstyle depth))

/-- Components on lines of their own are read as written. -/
lemma isProper_lines (hstyle : style.IsProper) (h : arePrintable cs) (hlast : IsPlain last) :
    (lines style depth last cs).IsProper := by
  induction cs using forestInduction generalizing depth last with
  | nil => exact hlast
  | cons c cs ihc ihcs =>
      rw [arePrintable, Bool.and_eq_true] at h
      have hc := printable_of_isPrintable h.1
      exact ⟨isPlain_of_allBlank (allBlank_lineGap hstyle depth), isProper_shell hstyle hc,
        fun hclosed => inner_of_isClosed hclosed depth,
        isProper_inner_of_lines hstyle fun _ hl => ihc hc.children hl, ihcs h.2 hlast⟩

lemma isProper_inner (hstyle : style.IsProper) (hc : c.Printable) :
    (c.inner style depth).IsProper :=
  isProper_inner_of_lines hstyle fun _ hl => isProper_lines hstyle hc.children hl

/-! ### The components of a markup -/

lemma parts_shell (style : Style) (c : Component) : (c.shell style).parts
    = markerPart style c.id :: (c.attributeProps style).map Part.ofProp := by
  rw [shell]
  split <;> rfl

lemma name_shell (style : Style) (c : Component) : (c.shell style).name = c.tag.toList := by
  rw [shell]
  split <;> rfl

/-- The element of a component is marked with its id. -/
lemma marker?_shell (style : Style) (c : Component) :
    (c.shell style).marker? style.marker = some c.id := by
  simp [Shell.marker?, parts_shell, markerPart]

/-- The component of a markup has the id and the tag that it was written from. -/
lemma components_lines_cons (style : Style) (depth : Nat) (last : Text) (c : Component)
    (cs : List Component) :
    (lines style depth last (c :: cs)).components style.marker
      = { ofTag c.id c.tag with
            props := (c.shell style).props style.marker (c.inner style depth)
            children := (c.inner style depth).components style.marker }
          :: (lines style depth last cs).components style.marker := by
  rw [lines, Passage.components, marker?_shell, name_shell, String.ofList_toList]
  rfl

end Component

end CanvasSync
