import CanvasSync.Proofs.Json.RoundTrip
import CanvasSync.Proofs.Markup.Nesting
import CanvasSync.Proofs.Markup.Pages
import CanvasSync.Proofs.Markup.Writing

/-!
Components written as markup come back from it.

* `Component.isWritable`: the components that markup can hold;
* `Component.asWritten`: what of a component comes back, which is all but its name and its place;
* `props_shell`: the attributes and the text of an element give back the props;
* `components_lines`: elements on lines of their own give back the components, by induction over
  those within;
* `extract_pageText`: the components of a page are those that it was written from.
-/

namespace CanvasSync

open CanvasSync.Script CanvasSync.Script.Grammar

namespace Component

/-! ### What markup can hold -/

/-- Whether a text is a letter with letters and digits behind it. -/
def isTagName : Text → Bool
  | [] => false
  | c :: t => c.isAlpha && t.all Char.isAlphanum

/-- Whether a value may be the prop `children`: a string must neither be blank nor have blanks
around it. -/
def isContent : Json.Value → Bool
  | .string t => !t.toList.isEmpty && Text.trim t.toList = t.toList
  | _ => true

/-- Whether markup can hold a prop of a component, which is a leaf if it has none within. -/
def isWritableProp (marker : String) (leaf : Bool) (p : String × Json.Value) : Bool :=
  isAttributeName p.1.toList && p.1 ≠ marker && p.2.isPlain && p.2.depth ≤ Json.depthLimit
    && (p.1 ≠ "children" || leaf && isContent p.2)

mutual
/-- Whether markup can hold a component with those within it. -/
def isWritable (marker : String) : Component → Bool
  | ⟨id, tag, _, props, children, _⟩ =>
    isTagName tag.toList && !id.toList.contains '"' && Json.Fields.isRising props
      && props.all (isWritableProp marker children.isEmpty) && areWritable marker children

/-- Whether markup can hold several components. -/
def areWritable (marker : String) : List Component → Bool
  | [] => true
  | c :: cs => isWritable marker c && areWritable marker cs
end

mutual
/-- A component as its markup tells it: its name is its tag, and it has no place yet. -/
def asWritten : Component → Component
  | ⟨id, tag, _, props, children, _⟩ => ⟨id, tag, tag, props, asWrittenAll children, .origin⟩

/-- Components as their markup tells them. -/
def asWrittenAll : List Component → List Component
  | [] => []
  | c :: cs => asWritten c :: asWrittenAll cs
end

lemma asWritten_eq (c : Component) :
    c.asWritten = { ofTag c.id c.tag with props := c.props, children := asWrittenAll c.children } := by
  cases c; rfl

/-- The parts of a component that markup can hold. -/
structure Writable (marker : String) (c : Component) : Prop where
  tag : isTagName c.tag.toList
  id : '"' ∉ c.id.toList
  rising : Json.Fields.isRising c.props
  props : ∀ p ∈ c.props, isWritableProp marker c.children.isEmpty p
  children : areWritable marker c.children

lemma writable_of_isWritable {marker : String} {c : Component} (h : c.isWritable marker) :
    c.Writable marker := by
  obtain ⟨id, tag, name, props, children, position⟩ := c
  simp only [isWritable, Bool.and_eq_true, Bool.not_eq_true', List.all_eq_true] at h
  obtain ⟨⟨⟨⟨htag, hid⟩, hrising⟩, hprops⟩, hchildren⟩ := h
  exact ⟨htag, by simpa using hid, hrising, hprops, hchildren⟩

end Component

namespace Markup

open CanvasSync.Component

/-- The marker that components are written with. -/
abbrev marker : String := Style.standard.marker

/-! ### Names -/

lemma isNameStart_of_isAlpha {c : Char} (h : c.isAlpha) : Character.isNameStart c := by
  simp [Character.isNameStart, h]

lemma isNamePart_of_isAlphanum {c : Char} (h : c.isAlphanum) : Character.isNamePart c := by
  rw [Char.isAlphanum, Bool.or_eq_true] at h
  rcases h with h | h
  · exact isNamePart_of_isNameStart (isNameStart_of_isAlpha h)
  · simp [Character.isNamePart, h]

/-- A tag is a word of a script. -/
lemma isWord_of_isTagName {t : Text} (h : isTagName t) : isWord t := by
  cases t with
  | nil => simp [isTagName] at h
  | cons c t =>
      simp only [isTagName, isWord, Bool.and_eq_true, List.all_eq_true] at h ⊢
      exact ⟨isNameStart_of_isAlpha h.1, fun x hx => isNamePart_of_isAlphanum (h.2 x hx)⟩

/-- A tag is a word as a whole. -/
lemma firstWord_of_isTagName {t : Text} (h : isTagName t) : firstWord t = t := by
  have hw := isWord_of_isTagName h
  cases t with
  | nil => rfl
  | cons c t =>
      simp only [isWord, Bool.and_eq_true, List.all_eq_true] at hw
      refine List.takeWhile_eq_self_iff.mpr (List.forall_mem_cons.mpr ⟨?_, hw.2⟩)
      exact isNamePart_of_isNameStart hw.1

lemma isMarkupName_of_isTagName {t : Text} (h : isTagName t) : isMarkupName t := by
  have hw := isWord_of_isTagName h
  cases t with
  | nil => simp [isWord] at hw
  | cons c t =>
      simp only [isWord, isMarkupName, Bool.and_eq_true, List.all_eq_true] at hw ⊢
      exact ⟨hw.1, fun x hx => by simp [isMarkupPart, hw.2 x hx]⟩

/-! ### Props -/

/-- A value comes back from the attribute that it was written as. -/
lemma propValue?_writtenValue {v : Json.Value} (hv : v.isPlain) (hdepth : v.depth ≤ Json.depthLimit) :
    propValue? (writtenValue v) = some v := by
  rcases valueText_cases v with ⟨-, hw⟩ | ⟨-, hw⟩ | ⟨t, -, -, hw⟩
  · have htrue : v = .bool true := by
      cases v with
      | bool b => cases b <;> simp_all [writtenValue]
      | string t => by_cases h : '"' ∈ t.toList <;> simp_all [writtenValue]
      | _ => simp_all [writtenValue]
    rw [hw, propValue?, htrue]
  · rw [hw, propValue?, String.toList_ofList, Json.parse?_text hv hdepth]
  · have hstring : v = .string t := by
      cases v with
      | bool b => cases b <;> simp_all [writtenValue]
      | string t => by_cases h : '"' ∈ t.toList <;> simp_all [writtenValue]
      | _ => simp_all [writtenValue]
    rw [hw, propValue?, hstring]

/-- Written props come back from their attributes. -/
lemma filterMap_ofProp {props : Json.Fields}
    (h : ∀ p ∈ props, p.1 ≠ marker ∧ p.2.isPlain ∧ p.2.depth ≤ Json.depthLimit) :
    (((props.map Part.ofProp).filter fun p => p.name ≠ marker).filterMap fun p =>
      (propValue? p.value).map fun v => (p.name, v)) = props := by
  induction props with
  | nil => rfl
  | cons p ps ih =>
      rw [List.forall_mem_cons] at h
      obtain ⟨⟨hne, hplain, hdepth⟩, hps⟩ := h
      have hvalue : propValue? (Part.ofProp p).value = some p.2 :=
        propValue?_writtenValue hplain hdepth
      rw [List.map_cons, List.filter_cons_of_pos (p := fun q : Part => q.name ≠ marker)
        (decide_eq_true hne), List.filterMap_cons, hvalue, ih hps]
      rfl

variable {c : Component} {cs : List Component}

/-- The props that a component shows as attributes are all but its text content. -/
lemma attributeProps_eq (hw : c.Writable marker) :
    c.attributeProps .standard = match c.text? with
      | some _ => Json.Fields.erase "children" c.props
      | none => c.props := by
  have hmarker : ∀ p ∈ c.props, p.1 ≠ marker := fun p hp => by
    have h := hw.props p hp
    simp only [isWritableProp, Bool.and_eq_true, decide_eq_true_eq] at h
    exact h.1.1.1.2
  rw [attributeProps]
  cases h : c.text? with
  | some t =>
      refine List.filter_congr fun p hp => ?_
      simp [hmarker p hp]
  | none =>
      refine List.filter_eq_self.mpr fun p hp => ?_
      have hp' := hw.props p hp
      simp only [isWritableProp, Bool.and_eq_true, Bool.or_eq_true, decide_eq_true_eq] at hp'
      rcases hp'.2 with hne | ⟨hleaf, -⟩
      · simp [hmarker p hp, hne]
      · simp [hmarker p hp, hleaf]

/-- The props of a component are those that it shows as attributes, and its text content. -/
lemma ofList_attributeProps (hw : c.Writable marker) :
    Json.Fields.ofList (c.attributeProps .standard
      ++ c.text?.toList.map fun t => ("children", .string t)) = c.props := by
  rw [attributeProps_eq hw]
  cases h : c.text? with
  | none => simpa using Json.Fields.ofList_eq_self hw.rising
  | some t =>
      have hget : Json.Fields.get? "children" c.props = some (.string t) := by
        obtain ⟨v, hv, ht⟩ := Option.bind_eq_some_iff.mp h
        cases v <;> simp_all [Json.Value.string?]
      simp only [Option.toList_some, List.map_cons, List.map_nil]
      rw [Json.Fields.ofList_append_singleton,
        Json.Fields.ofList_eq_self (Json.Fields.isRising_erase hw.rising),
        Json.Fields.insert_erase hw.rising hget]

/-! ### The text of a component -/

/-- A text comes back from the content that it is written as, without the blanks around it. -/
lemma contentText_ofText (t : Text) : Grammar.contentText (Passage.ofText t).pieces
    = if Text.trim t = [] then none else some (String.ofList (Text.trim t)) := by
  have htext : Grammar.contentText [.text t]
      = if Text.trim t = [] then none else some (String.ofList (Text.trim t)) := by
    change (if Text.trim ([t].flatten) = [] then none else _) = _
    simp
  unfold Passage.ofText
  split
  · exact htext
  · by_cases hne : t = []
    · subst hne
      rfl
    · rw [Passage.pieces, piecesOf, if_neg hne, htext]

/-- The content of a written component is its text, if it has one. -/
lemma contentText_inner (hw : c.Writable marker) (depth : Nat) :
    Grammar.contentText (c.inner .standard depth).pieces = c.text? := by
  have htext {t : String} (ht : c.text? = some t) : c.children = [] ∧ isContent (.string t) := by
    obtain ⟨v, hv, hstring⟩ := Option.bind_eq_some_iff.mp ht
    have h := hw.props _ (Json.Fields.mem_of_get? hv)
    simp only [isWritableProp, Bool.and_eq_true, Bool.or_eq_true] at h
    cases v <;> simp_all [Json.Value.string?]
  cases ht : c.text? with
  | some t =>
      obtain ⟨hchildren, hcontent⟩ := htext ht
      simp only [isContent, Bool.and_eq_true, Bool.not_eq_true', decide_eq_true_eq,
        List.isEmpty_eq_false_iff] at hcontent
      rw [inner_of_text hchildren ht, contentText_ofText, hcontent.2, if_neg hcontent.1,
        String.ofList_toList]
  | none =>
      by_cases hchildren : c.children = []
      · rw [inner_of_leaf hchildren ht]
        rfl
      · obtain ⟨d, ds, hds⟩ := List.exists_cons_of_ne_nil hchildren
        rw [inner_of_children hchildren, hds, lines, Passage.pieces]
        exact contentText_of_other (by simp)

/-- The props of a written component come back from its attributes and its text. -/
lemma props_shell (hw : c.Writable marker) (depth : Nat) :
    (c.shell .standard).props marker (c.inner .standard depth) = c.props := by
  have hprops : ∀ p ∈ c.attributeProps .standard,
      p.1 ≠ marker ∧ p.2.isPlain ∧ p.2.depth ≤ Json.depthLimit := by
    intro p hp
    have h := hw.props p (List.mem_of_mem_filter hp)
    simp only [isWritableProp, Bool.and_eq_true, decide_eq_true_eq] at h
    exact ⟨h.1.1.1.2, h.1.1.2, h.1.2⟩
  rw [Shell.props, Shell.fields, parts_shell, List.filter_cons_of_neg (by simp [markerPart]),
    filterMap_ofProp hprops, contentText_inner hw, ofList_attributeProps hw]

/-! ### Components in a row -/

/-- What markup can hold is read as written. -/
lemma arePrintable_of_areWritable (h : areWritable marker cs) : arePrintable cs := by
  induction cs using forestInduction with
  | nil => rfl
  | cons c cs ihc ihcs =>
      rw [areWritable, Bool.and_eq_true] at h
      have hw := writable_of_isWritable h.1
      obtain ⟨id, tag, name, props, children, position⟩ := c
      simp only [arePrintable, isPrintable, Bool.and_eq_true, Bool.not_eq_true', List.all_eq_true]
      refine ⟨⟨⟨⟨isMarkupName_of_isTagName hw.tag, by simpa using hw.id⟩, fun p hp => ?_⟩,
        ihc hw.children⟩, ihcs h.2⟩
      have hp := hw.props p hp
      simp only [isWritableProp, Bool.and_eq_true] at hp
      exact ⟨hp.1.1.1.1, hp.1.1.2⟩

/-- Elements on lines of their own are the components that they are written from. -/
lemma components_lines (h : areWritable marker cs) (depth : Nat) (last : Text) :
    (lines .standard depth last cs).components marker = asWrittenAll cs := by
  induction cs using forestInduction generalizing depth last with
  | nil => rfl
  | cons c cs ihc ihcs =>
      rw [areWritable, Bool.and_eq_true] at h
      have hw := writable_of_isWritable h.1
      have hinner : (c.inner .standard depth).components marker = asWrittenAll c.children := by
        by_cases hchildren : c.children = []
        · cases ht : c.text? with
          | some t => rw [inner_of_text hchildren ht, Passage.components_ofText, hchildren]; rfl
          | none => rw [inner_of_leaf hchildren ht, hchildren]; rfl
        · rw [inner_of_children hchildren, ihc hw.children]
      have hrest := ihcs h.2 depth last
      have hcons := components_lines_cons .standard depth last c cs
      rw [hcons, props_shell hw, hinner, hrest, asWrittenAll, asWritten_eq]

/-- The first attribute of a component is its marker, which no type is bound with. -/
lemma opens_shell (hw : c.Writable marker) : (c.shell .standard).Opens := by
  have hopens (gap : Text) : (c.openingTag .standard gap).Opens := by
    have hmarker : firstWord marker.toList ≠ "extends".toList ∧ isMarkupName marker.toList
        ∧ firstWord marker.toList ≠ marker.toList := by decide +kernel
    by_cases hconst : c.tag.toList = "const".toList
    · exact .inr ⟨hconst, _, _, rfl, hmarker.2⟩
    · refine .inl ⟨fun hword => hconst ?_, fun p hp => ?_⟩
      · exact (firstWord_of_isTagName hw.tag).symm.trans hword
      · obtain rfl : markerPart .standard c.id = p := by simpa [openingTag] using hp
        exact hmarker.1
  rw [shell]
  split
  · exact hopens _
  · exact hopens _

/-- Written components are one node, a fragment if they are more than one, which gives them back. -/
lemma exists_wrap_renderAll (hne : cs ≠ []) (h : areWritable marker cs) :
    ∃ (shell : Shell) (inner : Passage), renderAll .standard cs = shell.wrap inner
      ∧ shell.IsProper ∧ shell.Opens ∧ (shell.isClosed → inner = .text []) ∧ inner.IsProper
      ∧ (Passage.node [] shell inner (.text [])).components marker = asWrittenAll cs := by
  have hprintable := arePrintable_of_areWritable h
  match cs, hne with
  | [c], _ =>
      have hcomponents := components_lines h 0 []
      rw [areWritable, Bool.and_eq_true] at h
      rw [arePrintable, Bool.and_eq_true] at hprintable
      have hw := writable_of_isWritable h.1
      have hc := printable_of_isPrintable hprintable.1
      exact ⟨_, _, render_eq .standard 0 c, isProper_shell Style.isProper_standard hc,
        opens_shell hw, fun hclosed => inner_of_isClosed hclosed 0,
        isProper_inner Style.isProper_standard hc, hcomponents⟩
  | c :: d :: ds, _ =>
      have htext : renderAll .standard (c :: d :: ds)
          = ['<', '>', '\n'] ++ renderLines .standard 1 (c :: d :: ds) ++ ['\n', '<', '/', '>'] := rfl
      refine ⟨.fragment, lines .standard 1 ['\n'] (c :: d :: ds), ?_, trivial, trivial,
        by simp [Shell.isClosed], isProper_lines Style.isProper_standard hprintable
          (List.forall_mem_singleton.mpr (by decide)), ?_⟩
      · rw [Shell.wrap, written_lines, ← cons_renderLines (by simp), htext]
        simp [Shell.opening, Shell.closing]
      · have hcomponents := components_lines h 1 ['\n']
        rw [Passage.components, hcomponents]
        exact List.append_nil _

/-- **Components come back from the page that they are written to**, whatever their props, however
they nest: a module whose function gives back their markup in parentheses holds the same
components, each with its tag as its name and with no place of its own. -/
theorem extract_pageText {nodes : List Component} (hne : nodes ≠ [])
    (hnodes : areWritable Style.standard.marker nodes) {name before after : Text}
    (hname : isWord name) (hfree : String.ofList name ∉ Token.reservedWords)
    (hbefore : ∀ c ∈ before, isGap c) (hafter : ∀ c ∈ after, isGap c) :
    Edit.extract (pageText name before after (renderAll .standard nodes)) .standard
      = .ok (asWrittenAll nodes) := by
  obtain ⟨shell, inner, hwrap, hshell, hopens, hclosed, hinner, hcomponents⟩ :=
    exists_wrap_renderAll hne hnodes
  let page : Page := ⟨name, before, after, shell, inner⟩
  have hpage : page.IsProper :=
    ⟨hname, hfree, hbefore, hafter, hshell, hopens, hclosed, hinner⟩
  have hextract : Edit.extract (pageText name before after (shell.wrap inner)) .standard
      = .ok (page.passage.components marker) := Page.extract_text hpage .standard
  rw [hwrap, hextract]
  exact congrArg Except.ok hcomponents

/-- A card with a heading and a list within, and a note behind it. -/
def cardAndNote : List Component :=
  [⟨"cg-card", "section", "Card", [("active", .bool true), ("className", .string "a \"b\"")],
      [⟨"cg-title", "h1", "Title", [("children", .string "1 < 2 \x7bok\x7d\n\"3\"")], [], .origin⟩,
       ⟨"cg-list", "Chart", "List",
        [("data", .object [("rows", .array [.number (.whole (-1)), .null, .string "</Chart>"])])],
        [⟨"", "Row", "Row", [("children", .number (.whole 5))], [], .origin⟩], .origin⟩], .origin⟩,
   ⟨"cg-note", "p", "Note", [("aria-label", .string "a\nb"), ("children", .string "plain text")], [],
    .origin⟩]

theorem extract_pageText_cardAndNote :
    cardAndNote ≠ [] ∧ areWritable Style.standard.marker cardAndNote
      ∧ Edit.extract (pageText "Page".toList ['\n'] "\n  ".toList
          (renderAll .standard cardAndNote)) .standard = .ok (asWrittenAll cardAndNote) := by
  have hne : cardAndNote ≠ [] := by simp [cardAndNote]
  have hwritable : areWritable Style.standard.marker cardAndNote := by decide +kernel
  exact ⟨hne, hwritable, extract_pageText hne hwritable (by decide) (by decide)
    (List.all_eq_true.mp (by decide)) (List.all_eq_true.mp (by decide))⟩

end Markup

end CanvasSync
