import CanvasSync.Proofs.Edit.Pages
import CanvasSync.Proofs.Markup.Nesting
import CanvasSync.Proofs.Markup.RoundTrip

/-!
What an inserted component is read as.

The markup of a component is indented when it is inserted, line by line and with no regard to what
its lines are part of. So the strings that stand in it as they are take the indentation in behind
their line feeds, while what is written as JSON has no line ends.

* `reindent_eq_self_iff`: a text stays as it is exactly if there is no line feed in it;
* `Component.rawTexts`: the strings of a component that are written as they are;
* `Component.reindented`: the component with these reindented;
* `shell_reindented`, `components_lines_reindented`: reindented markup is the one of this component;
* `extract_insert`: the component that comes back from an insertion, which is the one inserted
  exactly if there is no line feed in these strings.
-/

namespace CanvasSync

open CanvasSync.Edit (mem_reindent reindent)
open CanvasSync.Json (Fields Value)
open CanvasSync.Markup (Part Passage Shell marker needsBraces)
open CanvasSync.Script.Grammar (valueText writtenValue)

/-! ### Texts that stay -/

namespace Edit

variable {pad t : Text}

/-- **A text stays as it is exactly if there is no line feed in it.** -/
theorem reindent_eq_self_iff (hpad : '\n' ∉ pad) (hne : pad ≠ []) :
    reindent pad t = t ↔ '\n' ∉ t := by
  simpa using append_reindent_eq_append_iff (t := t) hpad hne (x := []) (y := [])

end Edit

/-! ### Components reindented -/

namespace Component

/-- The string of a prop that is written as it is: in quotes, or as the content of an element. -/
def rawText? : String × Value → Option Text
  | (key, .string s) =>
    if key = "children" then if s.toList.any needsBraces then none else some s.toList
    else if s.toList.contains '"' then none else some s.toList
  | _ => none

/-- The strings of a component that are written as they are, without those within it. -/
def ownTexts (c : Component) : List Text := c.id.toList :: c.props.filterMap rawText?

/-- The strings of a component, and of those within it, that are written as they are. -/
def rawTexts (c : Component) : List Text := c.nodes.flatMap ownTexts

/-- A prop with its string reindented if it is written as it is. -/
def reindentProp (pad : Text) (p : String × Value) : String × Value :=
  match rawText? p with
  | some t => (p.1, .string (String.ofList (reindent pad t)))
  | none => p

mutual
/-- A component with the strings reindented that are written as they are. -/
def reindented (pad : Text) : Component → Component
  | ⟨id, tag, name, props, children, position⟩ =>
    ⟨String.ofList (reindent pad id.toList), tag, name, props.map (reindentProp pad),
      reindentedAll pad children, position⟩

/-- Components with these strings reindented. -/
def reindentedAll (pad : Text) : List Component → List Component
  | [] => []
  | c :: cs => reindented pad c :: reindentedAll pad cs
end

variable {pad : Text} {c d : Component} {cs : List Component} {p : String × Value} {s : String}

lemma reindented_eq (pad : Text) (c : Component) : c.reindented pad
    = { c with
        id := String.ofList (reindent pad c.id.toList)
        props := c.props.map (reindentProp pad)
        children := reindentedAll pad c.children } := by
  cases c; rfl

@[simp] lemma fst_reindentProp (pad : Text) (p : String × Value) : (reindentProp pad p).1 = p.1 := by
  rw [reindentProp]
  split <;> rfl

lemma reindentProp_children (pad : Text) (s : String) : reindentProp pad ("children", .string s)
    = ("children", .string (if s.toList.any needsBraces then s
        else String.ofList (reindent pad s.toList))) := by
  rw [reindentProp, rawText?, if_pos rfl]
  by_cases h : s.toList.any needsBraces
  · rw [if_pos h, if_pos h]
  · rw [if_neg h, if_neg h]

lemma reindentProp_string {key : String} (hkey : key ≠ "children") (pad : Text) (s : String) :
    reindentProp pad (key, .string s) = (key, .string (if s.toList.contains '"' then s
      else String.ofList (reindent pad s.toList))) := by
  rw [reindentProp, rawText?, if_neg hkey]
  by_cases h : s.toList.contains '"'
  · rw [if_pos h, if_pos h]
  · rw [if_neg h, if_neg h]

lemma reindentProp_of_ne (h : ∀ s, p.2 ≠ .string s) (pad : Text) : reindentProp pad p = p := by
  obtain ⟨key, v⟩ := p
  cases v with
  | string s => exact absurd rfl (h s)
  | _ => rfl

lemma rawText?_eq_some {t : Text} (h : rawText? p = some t) : p.2 = .string (String.ofList t) := by
  unfold rawText? at h
  split at h
  · next key s =>
      have ht : s.toList = t := by
        split_ifs at h <;> exact Option.some.inj h
      rw [← ht, String.ofList_toList]
  · cases h

lemma ofList_eq_iff (t : Text) (s : String) : String.ofList t = s ↔ t = s.toList := by
  constructor
  · rintro rfl
    rw [String.toList_ofList]
  · rintro rfl
    rw [String.ofList_toList]

/-- A component stays as it is exactly if there is no line feed in a string that is written as it
is. -/
lemma reindentedAll_eq_self_iff (hpad : '\n' ∉ pad) (hne : pad ≠ []) :
    reindentedAll pad cs = cs ↔ ∀ d ∈ nodesAll cs, ∀ t ∈ ownTexts d, '\n' ∉ t := by
  have htext (s : String) : String.ofList (reindent pad s.toList) = s ↔ '\n' ∉ s.toList := by
    rw [ofList_eq_iff, Edit.reindent_eq_self_iff hpad hne]
  have hprop (p : String × Value) : reindentProp pad p = p ↔ ∀ t ∈ rawText? p, '\n' ∉ t := by
    rw [reindentProp]
    cases h : rawText? p with
    | none => simp
    | some t =>
        obtain ⟨key, v⟩ := p
        obtain rfl : v = .string (String.ofList t) := rawText?_eq_some h
        have htext := htext (String.ofList t)
        rw [String.toList_ofList] at htext
        simpa using htext
  induction cs using forestInduction with
  | nil => simp [reindentedAll]
  | cons c cs ihc ihcs =>
      have hprops : c.props.map (reindentProp pad) = c.props
          ↔ ∀ t ∈ c.props.filterMap rawText?, '\n' ∉ t := by
        have hmap := List.map_inj_left (l := c.props) (f := reindentProp pad) (g := fun p => p)
        rw [List.map_id'] at hmap
        rw [hmap]
        constructor
        · intro h t ht
          obtain ⟨p, hp, hraw⟩ := List.mem_filterMap.mp ht
          exact (hprop p).mp (h p hp) t hraw
        · intro h p hp
          exact (hprop p).mpr fun t ht => h t (List.mem_filterMap.mpr ⟨p, hp, ht⟩)
      have hc : c.reindented pad = c ↔ (∀ t ∈ ownTexts c, '\n' ∉ t)
          ∧ reindentedAll pad c.children = c.children := by
        rw [reindented_eq, ownTexts, List.forall_mem_cons, ← htext, ← hprops]
        obtain ⟨id, tag, name, props, children, position⟩ := c
        simp [and_assoc]
      rw [reindentedAll, List.cons_eq_cons, hc, nodesAll_cons, List.forall_mem_cons,
        List.forall_mem_append, and_assoc]
      exact and_congr Iff.rfl (and_congr ihc ihcs)

/-! ### The markup of a reindented component -/

lemma ids_reindented (pad : Text) (cs : List Component) :
    (idsAll (reindentedAll pad cs)).length = (idsAll cs).length := by
  induction cs using forestInduction with
  | nil => rfl
  | cons c cs ihc ihcs =>
      rw [reindentedAll, idsAll_cons, idsAll_cons, List.length_append, List.length_append, ihcs,
        ids_eq, ids_eq c, reindented_eq, List.length_cons, List.length_cons, ihc]

/-- Text content is reindented if it is written as it is. -/
lemma text?_reindented (pad : Text) (c : Component) : (c.reindented pad).text?
    = c.text?.map fun s =>
      if s.toList.any needsBraces then s else String.ofList (reindent pad s.toList) := by
  have hget (ps : Fields) : Fields.get? "children" (ps.map (reindentProp pad))
      = (Fields.get? "children" ps).map fun v => (reindentProp pad ("children", v)).2 := by
    induction ps with
    | nil => rfl
    | cons p ps ih =>
        obtain ⟨key, v⟩ := p
        rw [List.map_cons, Fields.get?, ← Prod.mk.eta (p := reindentProp pad (key, v)), Fields.get?,
          fst_reindentProp]
        split
        · next h =>
            obtain rfl : key = "children" := h
            rfl
        · exact ih
  rw [text?, reindented_eq, text?, hget]
  cases Fields.get? "children" c.props with
  | none => rfl
  | some v =>
      cases v with
      | string s =>
          rw [Option.map_some, Option.bind_some, reindentProp_children]
          rfl
      | _ => rfl

/-- A reindented string has no quotes that were not in it. -/
lemma notMem_reindent {x : Char} {t : Text} (hpad : Text.allBlank pad) (hx : isBlank x = false)
    (ht : x ∉ t) : x ∉ reindent pad t := fun hmem =>
  (mem_reindent hmem).elim ht fun hm => by
    rw [List.all_eq_true.mp hpad x hm] at hx
    cases hx

/-- The same holds for the signs that need braces. -/
lemma any_needsBraces_reindent {t : Text} (hpad : Text.allBlank pad)
    (ht : t.any needsBraces = false) :
    (reindent pad t).any needsBraces = false := by
  rw [List.any_eq_false] at ht ⊢
  intro x hx
  refine (mem_reindent hx).elim (ht x) fun hm => ?_
  have hblank := List.all_eq_true.mp hpad x hm
  intro hneeds
  simp only [needsBraces, Bool.or_eq_true, decide_eq_true_eq] at hneeds
  rcases hneeds with ((rfl | rfl) | rfl) | rfl <;> exact absurd hblank (by decide)

/-- An attribute of a component with its string reindented is the attribute reindented. -/
lemma ofProp_reindentProp (hkey : p.1 = "children" → ∀ s, p.2 ≠ .string s)
    (hpad : Text.allBlank pad) :
    Part.ofProp (reindentProp pad p) = (Part.ofProp p).reindented pad := by
  have hself (hquoted : ∀ s, (Part.ofProp p).value ≠ .quoted s) :
      (Part.ofProp p).reindented pad = Part.ofProp p := by
    rcases (Edit.isSpaced_ofProp p).2 with ⟨hline, hvalue⟩ | ⟨s, -, -, hvalue⟩
    · exact Edit.reindented_eq_self hline hvalue
    · exact absurd hvalue (hquoted s)
  obtain ⟨key, v⟩ := p
  by_cases hstring : ∃ s, v = .string s
  · obtain ⟨s, rfl⟩ := hstring
    have hne : key ≠ "children" := fun h => hkey h s rfl
    rw [reindentProp_string hne]
    by_cases hquote : s.toList.contains '"'
    · rw [if_pos hquote, hself fun t => by simp only [Part.ofProp, writtenValue, if_pos hquote, ne_eq,
        reduceCtorEq, not_false_eq_true]]
    · have hfree : '"' ∉ reindent pad s.toList :=
        notMem_reindent hpad (by decide) (by simpa using hquote)
      simp only [Part.ofProp, Part.reindented, valueText, writtenValue, String.toList_ofList,
        if_neg hquote, Edit.reindent_quoted, Markup.AttributeValue.reindented]
      simp [hfree]
  · have hne (s : String) : v ≠ .string s := fun h => hstring ⟨s, h⟩
    rw [reindentProp_of_ne hne, hself fun t => ?_]
    simp only [Part.ofProp, writtenValue]
    split
    · next s => exact absurd rfl (hne s)
    · simp
    · simp

/-- The props of a reindented component that are written as attributes. -/
lemma attributeProps_reindented (pad : Text) (c : Component) :
    (c.reindented pad).attributeProps .standard
      = (c.attributeProps .standard).map (reindentProp pad) := by
  have hchildren : (c.reindented pad).children.isEmpty = c.children.isEmpty := by
    rw [reindented_eq]
    cases c.children <;> rfl
  have hprops : (c.reindented pad).props = c.props.map (reindentProp pad) := by rw [reindented_eq]
  rw [attributeProps, hprops, attributeProps, List.filter_map, hchildren, text?_reindented,
    Option.isSome_map]
  refine congrArg _ (List.filter_congr fun p _ => ?_)
  simp

/-- A string `children` is text content and no attribute. -/
lemma ne_string_of_mem_attributeProps (hw : c.Writable marker) (hp : p ∈ c.attributeProps .standard)
    (hkey : p.1 = "children") (s : String) : p.2 ≠ .string s := by
  intro hs
  have hget : Fields.get? "children" c.props = some (.string s) :=
    Fields.get?_of_mem (Fields.nodup_keys hw.rising)
      (by rw [← hkey, ← hs]; exact List.mem_of_mem_filter hp)
  have htext : c.text? = some s := by rw [text?, hget]; rfl
  have hfilter := List.of_mem_filter hp
  simp [hkey, htext] at hfilter

/-- **The tags of a reindented component are its tags reindented.** -/
theorem shell_reindented (hw : c.Writable marker) (hpad : Text.allBlank pad) :
    (c.shell .standard).reindented pad = (c.reindented pad).shell .standard := by
  have hparts : (markerPart .standard c.id :: (c.attributeProps .standard).map Part.ofProp).map
        (Part.reindented pad)
      = markerPart .standard (c.reindented pad).id
        :: ((c.reindented pad).attributeProps .standard).map Part.ofProp := by
    have hid : (markerPart .standard c.id).reindented pad
        = markerPart .standard (c.reindented pad).id := by
      rw [reindented_eq]
      simp only [markerPart, Part.reindented, Edit.reindent_quoted, String.toList_ofList,
        Markup.AttributeValue.reindented]
    rw [List.map_cons, hid, attributeProps_reindented, List.map_map, List.map_map]
    refine congrArg _ (List.map_congr_left fun p hp => ?_)
    exact (ofProp_reindentProp (ne_string_of_mem_attributeProps hw hp) hpad).symm
  have hchildren : (c.reindented pad).children.isEmpty = c.children.isEmpty := by
    rw [reindented_eq]
    cases c.children <;> rfl
  have htag : (c.reindented pad).tag = c.tag := by rw [reindented_eq]
  rw [shell, shell, hchildren, text?_reindented, Option.isNone_map]
  split
  · rw [Shell.reindented, Markup.Tag.reindented, openingTag, openingTag, hparts, htag]
  · rw [Shell.reindented, Markup.Tag.reindented, openingTag, openingTag, hparts, htag]

/-! ### The components of reindented markup -/

lemma beginsSolid_reindent {t : Text} (h : Text.beginsSolid t) :
    Text.beginsSolid (reindent pad t) := by
  cases t with
  | nil => cases h
  | cons c t =>
      have hc := Edit.ne_lineEnd_of_isBlank (c := c) (by simpa [Text.beginsSolid] using h)
      rw [Edit.reindent_cons hc]
      exact h

lemma endsSolid_reindent {t : Text} (h : Text.endsSolid t) : Text.endsSolid (reindent pad t) := by
  rcases List.eq_nil_or_concat t with rfl | ⟨u, c, rfl⟩
  · cases h
  · rw [List.concat_eq_append] at h ⊢
    have hblank : isBlank c = false := by simpa [Text.endsSolid] using h
    rw [Edit.reindent_append_cons (Edit.ne_lineEnd_of_isBlank hblank)]
    exact Text.endsSolid_append _ (by simpa [Text.endsSolid, reindent] using hblank)

/-- Content that is solid at its ends stays so. -/
lemma isContent_reindent (h : isContent (.string s)) :
    isContent (.string (String.ofList (reindent pad s.toList))) := by
  simp only [isContent, Bool.and_eq_true, Bool.not_eq_true', decide_eq_true_eq,
    List.isEmpty_eq_false_iff, String.toList_ofList] at h ⊢
  obtain ⟨hne, htrim⟩ := h
  have hbegin : Text.beginsSolid s.toList := htrim ▸ Text.beginsSolid_trim (htrim.symm ▸ hne)
  have hend : Text.endsSolid s.toList := htrim ▸ Text.endsSolid_trim (htrim.symm ▸ hne)
  have hbegin' : Text.beginsSolid (reindent pad s.toList) := beginsSolid_reindent hbegin
  refine ⟨fun hnil => ?_, Text.trim_eq_self hbegin' (endsSolid_reindent hend)⟩
  rw [hnil] at hbegin'
  cases hbegin'

lemma isWritableProp_reindentProp {leaf : Bool} (h : isWritableProp marker leaf p) :
    isWritableProp marker leaf (reindentProp pad p) := by
  obtain ⟨key, v⟩ := p
  by_cases hstring : ∃ s, v = .string s
  · obtain ⟨s, rfl⟩ := hstring
    by_cases hkey : key = "children"
    · subst hkey
      rw [reindentProp_children]
      split
      · exact h
      · simp only [isWritableProp, Bool.and_eq_true, Bool.or_eq_true] at h ⊢
        obtain ⟨⟨⟨hname, -⟩, -⟩, hcontent⟩ := h
        have hcontent := hcontent.resolve_left (by simp)
        exact ⟨⟨⟨hname, rfl⟩, rfl⟩, .inr ⟨hcontent.1, isContent_reindent hcontent.2⟩⟩
    · rw [reindentProp_string hkey]
      simp only [isWritableProp, Bool.and_eq_true, Bool.or_eq_true] at h ⊢
      exact ⟨⟨⟨h.1.1.1, rfl⟩, rfl⟩, .inl (decide_eq_true hkey)⟩
  · rwa [reindentProp_of_ne fun s hs => hstring ⟨s, hs⟩]

/-- Markup that can hold components can hold them reindented. -/
lemma areWritable_reindentedAll (hpad : Text.allBlank pad) (h : areWritable marker cs) :
    areWritable marker (reindentedAll pad cs) := by
  induction cs using forestInduction with
  | nil => rfl
  | cons c cs ihc ihcs =>
      rw [areWritable, Bool.and_eq_true] at h
      have hw := writable_of_isWritable h.1
      have hchildren : (reindentedAll pad c.children).isEmpty = c.children.isEmpty := by
        cases c.children <;> rfl
      have hid : '"' ∉ reindent pad c.id.toList := notMem_reindent hpad (by decide) hw.id
      have hrising : Fields.isRising (c.props.map (reindentProp pad)) := by
        have hkeys : (c.props.map (reindentProp pad)).map Prod.fst = c.props.map Prod.fst := by
          simp [List.map_map, Function.comp_def]
        rw [Fields.isRising, hkeys]
        exact hw.rising
      rw [reindentedAll, areWritable, ihcs h.2, reindented_eq, isWritable, hchildren, hrising,
        ihc hw.children, hw.tag]
      simp only [Bool.true_and, Bool.and_true, Bool.and_eq_true, String.toList_ofList,
        Bool.not_eq_true', List.contains_eq_mem, decide_eq_false_iff_not, List.all_eq_true]
      refine ⟨hid, fun q hq => ?_⟩
      obtain ⟨p, hp, rfl⟩ := List.mem_map.mp hq
      exact isWritableProp_reindentProp (hw.props p hp)

/-- What stands between the tags of a reindented component has the text of what stood there. -/
lemma contentText_inner_reindented (hpad : Text.allBlank pad) (c : Component) (depth : Nat) :
    Script.Grammar.contentText ((c.inner .standard depth).reindented pad).pieces
      = Script.Grammar.contentText ((c.reindented pad).inner .standard depth).pieces := by
  have hchildren : (c.reindented pad).children = reindentedAll pad c.children := by
    rw [reindented_eq]
  have htext := text?_reindented pad c
  cases hcs : c.children with
  | nil =>
      rw [hcs] at hchildren
      cases ht : c.text? with
      | none =>
          rw [ht] at htext
          rw [inner_of_leaf hcs ht, inner_of_leaf hchildren htext]
          rfl
      | some t =>
          simp only [ht, Option.map_some] at htext
          rw [inner_of_text hcs ht, inner_of_text hchildren htext]
          refine congrArg (fun q => Script.Grammar.contentText (Passage.pieces q)) ?_
          by_cases hbraces : t.toList.any needsBraces
          · rw [if_pos hbraces, Passage.ofText, if_pos hbraces]
            rfl
          · have hfree := any_needsBraces_reindent hpad (by simpa using hbraces)
            rw [if_neg hbraces, String.toList_ofList, Passage.ofText, if_neg hbraces,
              Passage.ofText, hfree]
            rfl
  | cons d ds =>
      rw [hcs] at hchildren
      have hne : (c.reindented pad).children ≠ [] := by
        rw [hchildren, reindentedAll]
        exact List.cons_ne_nil _ _
      rw [inner_of_children (by rw [hcs]; exact List.cons_ne_nil d ds), inner_of_children hne, hcs,
        hchildren, reindentedAll, lines, lines, Passage.reindented, Passage.pieces, Passage.pieces,
        Markup.contentText_of_other (by simp), Markup.contentText_of_other (by simp)]

/-- **Reindented elements on lines of their own are the components reindented.** -/
theorem components_lines_reindented (hpad : Text.allBlank pad) (h : areWritable marker cs)
    (depth : Nat) (last : Text) :
    ((lines .standard depth last cs).reindented pad).components marker
      = asWrittenAll (reindentedAll pad cs) := by
  induction cs using forestInduction generalizing depth last with
  | nil => rfl
  | cons c cs ihc ihcs =>
      have hwritable := areWritable_reindentedAll hpad h
      rw [reindentedAll, areWritable, Bool.and_eq_true] at hwritable
      rw [areWritable, Bool.and_eq_true] at h
      have hw := writable_of_isWritable h.1
      have hw' := writable_of_isWritable hwritable.1
      have hinner : ((c.inner .standard depth).reindented pad).components marker
          = asWrittenAll (reindentedAll pad c.children) := by
        by_cases hchildren : c.children = []
        · cases ht : c.text? with
          | some t =>
              rw [inner_of_text hchildren ht, hchildren, Passage.ofText]
              split <;> rfl
          | none =>
              rw [inner_of_leaf hchildren ht, hchildren]
              rfl
        · rw [inner_of_children hchildren, ihc hw.children]
      have hprops : ((c.reindented pad).shell .standard).props marker
          ((c.inner .standard depth).reindented pad) = (c.reindented pad).props := by
        rw [Shell.props, contentText_inner_reindented hpad, ← Shell.props, Markup.props_shell hw']
      have hrest := ihcs h.2 depth last
      rw [lines, Passage.reindented, Passage.components, shell_reindented hw hpad, marker?_shell,
        name_shell, hprops, hinner, hrest, reindentedAll, asWrittenAll, asWritten_eq, reindented_eq,
        String.ofList_toList]
      rfl

/-! ### Components as they are read -/

lemma reindentedAll_asWrittenAll (pad : Text) (cs : List Component) :
    reindentedAll pad (asWrittenAll cs) = asWrittenAll (reindentedAll pad cs) := by
  induction cs using forestInduction with
  | nil => rfl
  | cons c cs ihc ihcs =>
      rw [asWrittenAll, reindentedAll, reindentedAll, asWrittenAll, ihcs, asWritten_eq, reindented_eq,
        asWritten_eq, reindented_eq, ihc]
      rfl

lemma nodesAll_asWrittenAll (cs : List Component) :
    nodesAll (asWrittenAll cs) = (nodesAll cs).map asWritten := by
  induction cs using forestInduction with
  | nil => rfl
  | cons c cs ihc ihcs =>
      have hchildren : c.asWritten.children = asWrittenAll c.children := by rw [asWritten_eq]
      rw [asWrittenAll, nodesAll_cons, nodesAll_cons, hchildren, ihc, ihcs, List.map_cons,
        List.map_append]

lemma length_ids_asWritten (c : Component) : c.asWritten.ids.length = c.ids.length := by
  have hnodes := congrArg List.length (nodesAll_asWrittenAll [c])
  have hids (d : Component) : d.ids.length = (nodesAll [d]).length := by
    have h := congrArg List.length (idsAll_eq_map_nodesAll [d])
    simpa [idsAll_cons] using h
  rw [hids, hids]
  exact hnodes.trans (List.length_map _)

/-- A component is read as it is written exactly if there is no line feed in a string that is
written as it is. -/
lemma asWritten_reindented_eq_iff (hpad : '\n' ∉ pad) (hne : pad ≠ []) :
    (c.reindented pad).asWritten = c.asWritten ↔ ∀ t ∈ c.rawTexts, '\n' ∉ t := by
  have hall := reindentedAll_asWrittenAll pad [c]
  have hself : reindentedAll pad (asWrittenAll [c]) = asWrittenAll [c]
      ↔ ∀ d ∈ nodesAll (asWrittenAll [c]), ∀ t ∈ ownTexts d, '\n' ∉ t :=
    reindentedAll_eq_self_iff hpad hne
  rw [hall, nodesAll_asWrittenAll] at hself
  have htexts (d : Component) : ownTexts d.asWritten = ownTexts d := by
    rw [ownTexts, asWritten_eq, ownTexts]
    rfl
  simp only [reindentedAll, asWrittenAll, List.cons.injEq, and_true, List.forall_mem_map, htexts,
    nodesAll_cons, nodesAll_nil, List.append_nil, ← nodes_eq] at hself
  rw [hself, rawTexts]
  simp only [List.mem_flatMap, forall_exists_index, and_imp]
  exact ⟨fun h t d hd ht => h d hd t ht, fun h d hd t ht => h t d hd ht⟩

end Component

namespace Edit

open CanvasSync.Component (asWrittenAll idsAll nodesAll reindentedAll writable_of_isWritable)
open CanvasSync.Markup (Frame Page Passage Shell Style)

variable {c : Component} {p : Page} {pad out : Text}

/-- The element that is inserted for a component is this component reindented. -/
lemma components_inserted (hpad : Text.allBlank pad) (hc : c.isWritable marker) :
    (inserted .standard pad c).components marker = [(c.reindented pad).asWritten] := by
  have hall : Component.areWritable marker [c] := by simpa [Component.areWritable] using hc
  have hlines := Component.components_lines_reindented hpad hall 0 []
  rw [reindentedAll, reindentedAll, asWrittenAll, asWrittenAll] at hlines
  rw [← hlines]
  rfl

/-- The components between the tags of an element are among those of the element. -/
lemma nodesAll_inner_subset (t : Text) (shell : Shell) (inner rest : Passage) :
    nodesAll (inner.components marker)
      ⊆ nodesAll ((Passage.node t shell inner rest).components marker) := by
  intro d hd
  rw [Passage.components, Component.nodesAll_append]
  refine List.mem_append_left _ ?_
  cases shell.marker? marker with
  | none => exact hd
  | some i =>
      rw [Component.nodesAll_cons]
      exact List.mem_cons_of_mem _ (List.mem_append_left _ hd)

/-- Where the tags of an element and what is behind it stay, a component with a new id stands between
the tags. -/
lemma mem_nodesAll_inner {d : Component} {t : Text} {shell shell' : Shell} {inner inner' rest : Passage}
    (hid : d.id ∉ idsAll ((Passage.node t shell inner rest).components marker))
    (hshell : shell'.marker? marker = shell.marker? marker)
    (h : d ∈ nodesAll ((Passage.node t shell' inner' rest).components marker)) :
    d ∈ nodesAll (inner'.components marker) := by
  rw [Passage.components, Component.idsAll_append, List.mem_append, not_or] at hid
  rw [Passage.components, Component.nodesAll_append, List.mem_append, hshell] at h
  have h := h.resolve_right fun h => hid.2 (Component.id_mem_idsAll_of_mem_nodesAll h)
  have hnode := hid.1
  cases hm : shell.marker? marker with
  | none =>
      rw [hm] at h
      exact h
  | some i =>
      rw [hm] at h hnode
      simp only [Component.idsAll_cons, Component.idsAll_nil, Component.ids_eq, List.append_nil,
        List.mem_cons, not_or] at hnode
      simp only [Component.nodesAll_cons, Component.nodesAll_nil, List.append_nil, List.mem_cons] at h
      refine h.resolve_left fun h => hnode.1 ?_
      rw [h]
      rfl

/-- A component is one of the nodes of another one with as many nodes only if it is this one. -/
lemma eq_of_mem_nodes {c d : Component} (hlength : c.ids.length = d.ids.length) (h : c ∈ d.nodes) :
    c = d := by
  rw [Component.nodes_eq] at h
  refine (List.mem_cons.mp h).resolve_right fun h => ?_
  have hle := Component.length_ids_le_of_mem_nodesAll h
  have hlt : d.ids.length = (idsAll d.children).length + 1 := by
    rw [Component.ids_eq, List.length_cons]
  omega

/-- **What comes back of an inserted component** is the component with an indentation behind the
line feeds of the strings that are written as they are. So the component itself comes back exactly
if there are none. -/
theorem extract_insert {path : Option (List Nat)} (hp : p.IsProper) (hc : c.isWritable marker)
    (hfresh : ∀ cs, extract p.text .standard = .ok cs → c.id ∉ idsAll cs)
    (h : insert p.text c path .standard = .ok out) :
    ∃ (pad : Text) (cs : List Component), pad ≠ [] ∧ Text.allBlank pad ∧ '\n' ∉ pad
      ∧ extract out .standard = .ok cs ∧ (c.reindented pad).asWritten ∈ nodesAll cs
      ∧ (c.asWritten ∈ nodesAll cs ↔ ∀ t ∈ c.rawTexts, '\n' ∉ t) := by
  have hprintable : c.Printable := by
    have hall : Component.arePrintable [c] :=
      Markup.arePrintable_of_areWritable (by simpa [Component.areWritable] using hc)
    exact Component.printable_of_isPrintable (by simpa [Component.arePrintable] using hall)
  obtain ⟨f, t, shell, inner, inner', rest, q, hpassage, happends, hq, htext, hqpassage, -⟩ :=
    exists_insert hp Markup.Style.isProper_standard hprintable h
  obtain ⟨base, hbase, hline, hinner'⟩ := happends.components
  set pad := base ++ Style.standard.indent.toList with hpadEq
  have hpad : Text.allBlank pad := by
    rw [hpadEq, Text.allBlank, List.all_append, Bool.and_eq_true]
    exact ⟨hbase, by decide⟩
  have hfeed : '\n' ∉ pad := by
    rw [hpadEq, List.mem_append, not_or]
    exact ⟨Text.notMem_of_isOneLine hline, by decide⟩
  have hne : pad ≠ [] := by simp [hpadEq, Style.standard]
  rw [components_inserted hpad hc] at hinner'
  set read := (c.reindented pad).asWritten with hreadEq
  have hextract := Page.extract_text hq .standard
  rw [htext] at hextract
  have hnew : q.passage.components marker
      = f.nest marker ((Passage.node t shell.opened inner' rest).components marker) := by
    rw [hqpassage, Frame.components_fill_node]
  have hread : read ∈ nodesAll (q.passage.components marker) := by
    rw [hnew]
    refine Frame.nodesAll_subset_nest f marker _ (nodesAll_inner_subset t shell.opened inner' rest ?_)
    rw [hinner', Component.nodesAll_append, Component.nodesAll_cons]
    exact List.mem_append_right _ List.mem_cons_self
  refine ⟨pad, _, hne, hpad, hfeed, hextract, hread, ?_⟩
  rw [← Component.asWritten_reindented_eq_iff hfeed hne]
  refine ⟨fun hmem => ?_, fun heq => heq ▸ hread⟩
  -- the id stands nowhere around the inserted element, nor beside it
  have hid : c.asWritten.id = c.id := by rw [Component.asWritten_eq]; rfl
  have hold := hfresh _ (Page.extract_text hp .standard)
  obtain ⟨xs, ys, hids⟩ := f.exists_idsAll_nest marker
  rw [hpassage, Frame.components_fill_node, hids, List.mem_append, List.mem_append, not_or, not_or,
    ← hid] at hold
  have haround : c.asWritten.id ∉ idsAll (f.nest marker []) := by
    rw [hids]
    simp [hold.1, hold.2.2]
  rw [hnew] at hmem
  have hmem := mem_nodesAll_inner hold.2.1 (Shell.marker?_opened marker shell)
    (Frame.mem_nodesAll_of_nest haround hmem)
  rw [hinner', Component.nodesAll_append, List.mem_append] at hmem
  have hmem := hmem.resolve_left fun h => hold.2.1
    (Component.id_mem_idsAll_of_mem_nodesAll (nodesAll_inner_subset t shell inner rest h))
  have hlength : c.asWritten.ids.length = read.ids.length := by
    rw [hreadEq, Component.length_ids_asWritten, Component.length_ids_asWritten]
    simpa [reindentedAll, Component.idsAll_cons] using (Component.ids_reindented pad [c]).symm
  exact (eq_of_mem_nodes hlength (by simpa [Component.nodes_eq, Component.nodesAll_cons] using hmem)).symm

/-- A list with one item, whose text stands in braces for its signs. -/
def listComponent : Component :=
  ⟨"list", "ul", "List", [("aria-label", .string "a \"b\"\nc")],
    [⟨"item", "li", "Item", [("children", .string "1 < 2\n\x7bok\x7d")], [], .origin⟩], .origin⟩

/-- In strings that are written as JSON there are line feeds, but none in the markup. -/
theorem extract_insert_listComponent :
    let out := "export default function Home() \x7b\n  return (\n    <main>\n".toList
      ++ "      <h1 data-component-id=\"title\">Hi</h1>\n".toList
      ++ "      <ul data-component-id=\"list\" aria-label=\x7b\"a \\\"b\\\"\\nc\"\x7d>\n".toList
      ++ "        <li data-component-id=\"item\">\x7b\"1 < 2\\n\x7bok\x7d\"\x7d</li>\n".toList
      ++ "      </ul>\n    </main>\n  );\n\x7d\n".toList
    listComponent.isWritable marker
      ∧ (∀ cs, extract headingPage.text .standard = .ok cs → listComponent.id ∉ idsAll cs)
      ∧ insert headingPage.text listComponent none .standard = .ok out
      ∧ ∃ cs, extract out .standard = .ok cs ∧ listComponent.asWritten ∈ nodesAll cs := by
  intro out
  have hc : listComponent.isWritable marker := by decide +kernel
  have hinsert : insert headingPage.text listComponent none .standard = .ok out := by
    decide +kernel
  have hfresh (cs : List Component) (h : extract headingPage.text .standard = .ok cs) :
      listComponent.id ∉ idsAll cs := by
    obtain rfl := Except.ok.inj ((Page.extract_text isProper_headingPage .standard).symm.trans h)
    decide +kernel
  obtain ⟨pad, cs, -, -, -, hextract, -, hself⟩ :=
    extract_insert isProper_headingPage hc hfresh hinsert
  exact ⟨hc, hfresh, hinsert, cs, hextract, hself.mpr (by decide +kernel)⟩

/-- A line feed in a string between quotes is followed by the indentation when it comes back. -/
theorem extract_insert_ne :
    let note : Component := ⟨"note", "p", "Note", [("title", .string "a\nb")], [], .origin⟩
    let out := "export default function Home() \x7b\n  return (\n    <main>\n".toList
      ++ "      <h1 data-component-id=\"title\">Hi</h1>\n".toList
      ++ "      <p data-component-id=\"note\" title=\"a\n      b\" />\n    </main>\n  );\n\x7d\n".toList
    note.isWritable marker
      ∧ (∀ cs, extract headingPage.text .standard = .ok cs → note.id ∉ idsAll cs)
      ∧ insert headingPage.text note none .standard = .ok out
      ∧ (extract out .standard).toOption.isSome
      ∧ ∀ cs, extract out .standard = .ok cs → note.asWritten ∉ nodesAll cs := by
  intro note out
  have hread : (extract out .standard).toOption.any fun cs => (nodesAll cs).all fun d =>
      d.props.all fun m => m.2.string? ≠ some "a\nb" := by decide +kernel
  have hsome : (extract out .standard).toOption.isSome := by
    obtain ⟨cs, hcs, -⟩ := (Option.any_eq_true _ _).mp hread
    rw [hcs]
    rfl
  refine ⟨by decide +kernel, fun cs h => ?_, by decide +kernel, hsome, fun cs h hmem => ?_⟩
  · obtain rfl := Except.ok.inj ((Page.extract_text isProper_headingPage .standard).symm.trans h)
    decide +kernel
  · rw [h] at hread
    have hprops := List.all_eq_true.mp (List.all_eq_true.mp hread _ hmem)
    have htitle : ("title", Value.string "a\nb") ∈ note.asWritten.props := List.mem_singleton.mpr rfl
    simpa [Value.string?] using hprops _ htitle

end Edit

end CanvasSync
