import CanvasSync.Proofs.Json.Characters
import CanvasSync.Proofs.Markup.Writing

/-!
What an update changes in the markup of a component.

The name and the place of a component are not written, and what is within it stands between its tags.
So an update of anything but props is seen in the markup only where it puts other components within.

* `render_of_children`, `render_of_text`, `render_of_leaf`: a component by what is within it;
* `notMem_attributeText_iff`: where line feeds of attributes come from;
* `SameElement`, `render_eq_render_iff`: components with the same id, tag and props are written the
  same exactly if those within them are;
* `exists_renderLines_eq_iff`: a forest with one tree changed is written as before exactly if this
  tree is;
* `render_apply_iff`: the same of an update that changes no props.
-/

namespace CanvasSync.Markup

open CanvasSync.Component (findAll? Modifies)
open CanvasSync.Script.Grammar (attributeText_eq valueText)

variable {style : Style} {depth : Nat} {c d : Component} {cs ds : List Component}

/-! ### A component by what is within it -/

/-- The opening tag of a component up to its end. -/
def openingText (style : Style) (depth : Nat) (c : Component) (asContent : Bool) : Text :=
  repeated style.indent.toList depth
    ++ '<' :: (c.tag.toList ++ attributesText style c.id c.props asContent)

/-- The closing tag of a component. -/
def closingText (c : Component) : Text := '<' :: '/' :: (c.tag.toList ++ ['>'])

lemma render_of_children (h : c.children ≠ []) : render style depth c
    = openingText style depth c true ++ '>' :: '\n' :: (renderLines style (depth + 1) c.children
        ++ '\n' :: (repeated style.indent.toList depth ++ closingText c)) := by
  obtain ⟨id, tag, name, props, children, position⟩ := c
  cases children with
  | nil => exact absurd rfl h
  | cons d ds =>
      rw [render]
      simp [openingText, closingText]

lemma render_of_text {t : String} (h : c.children = []) (ht : c.text? = some t) :
    render style depth c
      = openingText style depth c true ++ '>' :: (contentText t.toList ++ closingText c) := by
  obtain ⟨id, tag, name, props, children, position⟩ := c
  obtain rfl : children = [] := h
  rw [render, ht]
  simp [openingText, closingText]

lemma render_of_leaf (h : c.children = []) (ht : c.text? = none) :
    render style depth c = openingText style depth c false ++ " />".toList := by
  obtain ⟨id, tag, name, props, children, position⟩ := c
  obtain rfl : children = [] := h
  rw [render, ht]
  simp [openingText]

lemma mem_openingText (style : Style) (depth : Nat) (c : Component) (asContent : Bool) :
    '<' ∈ openingText style depth c asContent := by
  simp [openingText]

/-- There is a tag in the markup of a component. -/
lemma mem_render (style : Style) (depth : Nat) (c : Component) : '<' ∈ render style depth c := by
  by_cases hchildren : c.children = []
  · cases ht : c.text? with
    | some t =>
        rw [render_of_text hchildren ht]
        exact List.mem_append_left _ (mem_openingText style depth c true)
    | none =>
        rw [render_of_leaf hchildren ht]
        exact List.mem_append_left _ (mem_openingText style depth c false)
  · rw [render_of_children hchildren]
    exact List.mem_append_left _ (mem_openingText style depth c true)

lemma mem_renderLines (style : Style) (depth : Nat) (h : cs ≠ []) :
    '<' ∈ renderLines style depth cs := by
  have hlines : '<' ∈ '\n' :: renderLines style depth cs := by
    obtain ⟨c, ds, rfl⟩ := List.exists_cons_of_ne_nil h
    rw [Component.cons_renderLines h, List.flatMap_cons]
    exact List.mem_append_left _ (List.mem_cons_of_mem _ (mem_render style depth c))
  simpa using hlines

/-! ### Line feeds of attributes -/

/-- Only a name and a string in quotes bring line feeds into an attribute. -/
lemma notMem_attributeText_iff (key : String) (v : Json.Value) : '\n' ∉ attributeText key v
    ↔ '\n' ∉ key.toList ∧ ∀ s ∈ v.string?, '"' ∉ s.toList → '\n' ∉ s.toList := by
  have hjson : '\n' ∉ v.text := Text.notMem_of_isOneLine (Json.isOneLine_text v)
  rw [attributeText_eq, List.mem_append, not_or]
  refine and_congr_right fun _ => ?_
  cases v with
  | string s => by_cases hs : '"' ∈ s.toList <;> simp_all [valueText, Json.Value.string?]
  | bool b => cases b <;> simp_all [valueText, Json.Value.string?]
  | _ => simp_all [valueText, Json.Value.string?]

/-- The prop that can be left to the content brings no line feed into the attributes if it is not a
string. -/
lemma count_attributesText {props : Json.Fields} (id : String)
    (h : ∀ p ∈ props, p.1 = "children" → p.2.string? = none) :
    (attributesText style id props false).count '\n'
      = (attributesText style id props true).count '\n' := by
  simp only [attributesText, List.count_append]
  congr 1
  induction props with
  | nil => rfl
  | cons p ps ih =>
      rw [List.forall_mem_cons] at h
      have hps := ih h.2
      by_cases hmarker : p.1 = style.marker
      · simpa [List.filter_cons, hmarker] using hps
      · by_cases hkey : p.1 = "children"
        · have hvalue : '\n' ∉ attributeText p.1 p.2 :=
            (notMem_attributeText_iff p.1 p.2).mpr ⟨by rw [hkey]; decide, by simp [h.1 hkey]⟩
          have hcount : (' ' :: attributeText p.1 p.2).count '\n' = 0 :=
            List.count_eq_zero.mpr (by simp [hvalue])
          rw [List.filter_cons_of_pos (by simp [hmarker]), List.filter_cons_of_neg (by simp [hkey]),
            List.flatMap_cons, List.count_append, hcount, hps, Nat.zero_add]
        · rw [List.filter_cons_of_pos (by simp [hmarker]),
            List.filter_cons_of_pos (by simp [hmarker, hkey]), List.flatMap_cons, List.flatMap_cons,
            List.count_append, List.count_append, hps]

lemma count_openingText (hprops : c.props.isRising) (ht : c.text? = none) :
    (openingText style depth c false).count '\n' = (openingText style depth c true).count '\n' := by
  have hstring : ∀ p ∈ c.props, p.1 = "children" → p.2.string? = none := by
    rintro ⟨key, v⟩ hp rfl
    have hget := Json.Fields.get?_of_mem (Json.Fields.nodup_keys hprops) hp
    rwa [Component.text?, hget] at ht
  simp only [openingText, List.count_append, List.count_cons, count_attributesText c.id hstring]

/-! ### Components that are the same element -/

/-- Components that are the same but for their names, their places and what is within them. -/
structure SameElement (d c : Component) : Prop where
  id : d.id = c.id
  tag : d.tag = c.tag
  props : d.props = c.props

namespace SameElement

lemma symm (h : SameElement d c) : SameElement c d := ⟨h.id.symm, h.tag.symm, h.props.symm⟩

lemma text? (h : SameElement d c) : d.text? = c.text? := by
  rw [Component.text?, Component.text?, h.props]

lemma openingText_eq (h : SameElement d c) (style : Style) (depth : Nat) (asContent : Bool) :
    openingText style depth d asContent = openingText style depth c asContent := by
  rw [openingText, openingText, h.id, h.tag, h.props]

lemma closingText_eq (h : SameElement d c) : closingText d = closingText c := by
  rw [closingText, closingText, h.tag]

/-- Without others within them they are written the same. -/
lemma render_eq_of_nil (h : SameElement d c) (hd : d.children = []) (hc : c.children = []) :
    render style depth d = render style depth c := by
  cases ht : c.text? with
  | some t =>
      rw [render_of_text hd (h.text?.trans ht), render_of_text hc ht, h.openingText_eq,
        h.closingText_eq]
  | none =>
      rw [render_of_leaf hd (h.text?.trans ht), render_of_leaf hc ht, h.openingText_eq]

/-- With others within them their tags are the same, so they are told apart between them. -/
lemma render_eq_iff_of_children (h : SameElement d c) (hd : d.children ≠ [])
    (hc : c.children ≠ []) : render style depth d = render style depth c
      ↔ renderLines style (depth + 1) d.children = renderLines style (depth + 1) c.children := by
  rw [render_of_children hd, render_of_children hc, h.openingText_eq, h.closingText_eq,
    List.append_cancel_left_eq, List.cons.injEq, List.cons.injEq, List.append_cancel_right_eq]
  simp

/-- One with others within it is not written like one without. Text content would have to begin with
a line feed and have a tag in it, but then it stands in braces. Without text content there is no line
feed behind the attributes, nor does a prop have one that is left out of them. -/
lemma render_ne_of_nil (h : SameElement d c) (hprops : c.props.isRising) (hd : d.children ≠ [])
    (hc : c.children = []) : render style depth d ≠ render style depth c := by
  rw [render_of_children hd, h.openingText_eq, h.closingText_eq]
  cases ht : c.text? with
  | some t =>
      rw [render_of_text hc ht]
      intro heq
      have hcontent : '\n' :: (renderLines style (depth + 1) d.children
          ++ '\n' :: repeated style.indent.toList depth) = contentText t.toList := by
        have hbehind := (List.cons.inj (List.append_cancel_left heq)).2
        refine List.append_cancel_right (Eq.trans ?_ hbehind)
        simp
      rw [contentText] at hcontent
      split at hcontent
      · cases hcontent
      · next hplain =>
          have hmem : '<' ∈ t.toList := by
            rw [← hcontent]
            exact List.mem_cons_of_mem _ (List.mem_append_left _ (mem_renderLines style _ hd))
          exact hplain (List.any_eq_true.mpr ⟨'<', hmem, by decide⟩)
  | none =>
      rw [render_of_leaf hc ht]
      intro heq
      have hcount := congrArg (List.count '\n') heq
      have hend : " />".toList.count '\n' = 0 := by decide
      rw [List.count_append, List.count_append, count_openingText hprops ht, hend, List.count_cons,
        List.count_cons_self] at hcount
      omega

end SameElement

/-- **Components that are the same element are written the same exactly if what is within them is.**
-/
theorem render_eq_render_iff (h : SameElement d c) (hprops : c.props.isRising) :
    render style depth d = render style depth c
      ↔ renderLines style (depth + 1) d.children = renderLines style (depth + 1) c.children := by
  have hlines {es : List Component} (hes : es ≠ []) : renderLines style (depth + 1) es ≠ [] :=
    List.ne_nil_of_mem (mem_renderLines style (depth + 1) hes)
  by_cases hd : d.children = [] <;> by_cases hc : c.children = []
  · rw [hd, hc]
    exact iff_of_true (h.render_eq_of_nil hd hc) rfl
  · rw [hd]
    have hne : render style depth c ≠ render style depth d :=
      h.symm.render_ne_of_nil (h.props.symm ▸ hprops) hc hd
    exact iff_of_false hne.symm (hlines hc).symm
  · rw [hc]
    exact iff_of_false (h.render_ne_of_nil hprops hd hc) (hlines hd)
  · exact h.render_eq_iff_of_children hd hc

/-! ### A forest with one tree changed -/

lemma renderLines_cons_left (cs : List Component) :
    renderLines style depth (d :: cs) = renderLines style depth (c :: cs)
      ↔ render style depth d = render style depth c := by
  cases cs with
  | nil => rfl
  | cons e es => rw [renderLines, renderLines, List.append_cancel_right_eq]

lemma renderLines_cons_right (c : Component) (hds : ds ≠ []) (hcs : cs ≠ []) :
    renderLines style depth (c :: ds) = renderLines style depth (c :: cs)
      ↔ renderLines style depth ds = renderLines style depth cs := by
  obtain ⟨d, ds, rfl⟩ := List.exists_cons_of_ne_nil hds
  obtain ⟨e, es, rfl⟩ := List.exists_cons_of_ne_nil hcs
  rw [renderLines, renderLines, List.append_cancel_left_eq, List.cons.injEq]
  simp

/-- **A forest with the first tree of an id changed is written as before exactly if this tree is, at
the depth where it stands.** -/
theorem exists_renderLines_eq_iff {id : String} {f : Component → Component}
    (h : Modifies id f cs ds) : ∃ c k, findAll? id cs = some c ∧ ∀ style depth,
      renderLines style depth ds = renderLines style depth cs
        ↔ render style (depth + k) (f c) = render style (depth + k) c := by
  induction h with
  | here c cs hc =>
      exact ⟨c, 0, by rw [Component.findAll?_cons, if_pos hc], fun style depth =>
        renderLines_cons_left cs⟩
  | @within c cs ds hc h ih =>
      obtain ⟨d, k, hfind, hiff⟩ := ih
      obtain ⟨hold, hnew⟩ := h.ne_nil
      have hsame : SameElement { c with children := ds } c := ⟨rfl, rfl, rfl⟩
      refine ⟨d, k + 1, by rw [Component.findAll?_cons_of_mem hc h.mem_idsAll, hfind],
        fun style depth => ?_⟩
      rw [renderLines_cons_left, hsame.render_eq_iff_of_children hnew hold, hiff,
        Nat.add_assoc, Nat.add_comm 1 k]
  | behind c hc h ih =>
      obtain ⟨d, k, hfind, hiff⟩ := ih
      obtain ⟨hold, hnew⟩ := h.ne_nil
      refine ⟨d, k, by rw [Component.findAll?_cons_of_notMem hc, hfind], fun style depth => ?_⟩
      rw [renderLines_cons_right c hnew hold, hiff]

/-- The trees of a forest stand on lines of their own, whether it is written in a fragment or not. -/
lemma exists_renderAll_eq_iff (h : ds.length = cs.length) : ∃ depth, ∀ style,
    renderAll style ds = renderAll style cs
      ↔ renderLines style depth ds = renderLines style depth cs := by
  match cs, ds, h with
  | [], [], _ => exact ⟨0, fun style => Iff.rfl⟩
  | [c], [d], _ => exact ⟨0, fun style => Iff.rfl⟩
  | c :: c' :: cs, d :: d' :: ds, _ =>
      refine ⟨1, fun style => ?_⟩
      show ['<', '>', '\n'] ++ _ ++ _ = ['<', '>', '\n'] ++ _ ++ _ ↔ _
      rw [List.append_cancel_right_eq, List.append_cancel_left_eq]

/-! ### Updates -/

/-- Whether the components that an update puts within a component, if any, are written as those that
stand there. -/
def KeepsInner (u : Update) (style : Style) (depth : Nat) (c : Component) : Prop :=
  ∀ ds ∈ u.children, renderLines style (depth + 1) ds = renderLines style (depth + 1) c.children

variable {u : Update}

/-- An update that changes no props leaves the element. -/
lemma sameElement_apply (hu : u.touchesSource = false) (c : Component) :
    SameElement (u.apply c) c := by
  refine ⟨rfl, rfl, ?_⟩
  rw [Update.touchesSource] at hu
  rw [Update.apply]
  cases hprops : u.props with
  | none => rfl
  | some changes =>
      obtain rfl : changes = [] := by simpa [hprops] using hu
      rfl

/-- **An update that changes no props leaves the markup of a component as it is exactly if it puts
nothing else within it.** -/
theorem render_apply_iff (hu : u.touchesSource = false) (hprops : c.props.isRising) :
    render style depth (u.apply c) = render style depth c ↔ KeepsInner u style depth c := by
  have hchildren : (u.apply c).children = u.children.getD c.children := rfl
  rw [render_eq_render_iff (sameElement_apply hu c) hprops, hchildren, KeepsInner]
  cases u.children with
  | none => simp
  | some ds => simp

end CanvasSync.Markup
