import CanvasSync.Edit.Strategy
import CanvasSync.Proofs.Edit.Lines
import CanvasSync.Proofs.Line.Files
import CanvasSync.Proofs.Line.Updates

/-!
A marked element edited by its line, and through the index.

The line of an element is not read as markup, so it matters what else stands on it. If the opening
tag of the element is the first tag of its line and is written so that the scans of the line read
it, the edit stays within the element, and it is the one that is made through the index.

* `Leads`: an element whose opening tag leads its line;
* `exists_apply_byLine`: the edit by the line changes this line only, and this element only;
* `exists_patch_eq_ok`: a patch without a text is made;
* `IsCommon`: an update that means the same on a line and to the index;
* `apply_byLine_eq_byIndex`: the edit through the index is the same one.
-/

namespace CanvasSync.Edit

open CanvasSync.Json (Fields Value)
open CanvasSync.Line (IsContent IsScannedTag Updates classMark)
open CanvasSync.Line.Tag (splitStart?)
open CanvasSync.Markup (Document Node Part Passage Shell Style addedParts setParts)

variable {style : Style} {id : String} {u : Updates} {front back tail : Text} {shell : Shell}
  {inner : Passage}

/-! ### By the line -/

/-- An opening tag on one line, the first tag of it, which the scans of the line read as it is
written. It has a class attribute, and the first marker of an id is on it, `front` being the text
before it. -/
structure Leads (style : Style) (id : String) (names : List String) (front : Text) (shell : Shell) :
    Prop where
  scanned : IsScannedTag names shell
  oneLine : '\n' ∉ shell.opening
  first : splitStart? (lastLine front) = none
  fresh : Text.contains front ((Target.component id).searchText style).toList = false
  marked : Text.contains shell.opening ((Target.component id).searchText style).toList
  classed : Text.contains shell.opening classMark

/-- An edit by the line of a tag changes this line behind what stands before the tag. -/
lemma exists_apply_byLine_opening (h : Leads style id (u.props.map Prod.fst) front shell)
    (hu : u.Fits (lastLine front) shell) (tail : Text) :
    ∃ post post' rest, tail = post ++ rest
      ∧ Strategy.byLine.apply (front ++ (shell.opening ++ tail)) (.component id) u style
        = .ok (front ++ ((u.tag shell).opening ++ (post' ++ rest)))
      ∧ (post' = post ∨ ∃ t ∈ u.text, IsContent t.toList post post')
      ∧ (shell.isClosed → post' = post) ∧ (u.text = none → post' = post) := by
  set m := ((Target.component id).searchText style).toList with hm
  obtain ⟨a, ha, hfeed⟩ := exists_eq_append_lastLine front
  have hline : '\n' ∉ lastLine front ++ shell.opening := by
    rw [List.mem_append, not_or]
    refine ⟨fun hmem => ?_, h.oneLine⟩
    simpa using List.all_eq_true.mp List.all_takeWhile _ (List.mem_reverse.mp hmem)
  have hsuffix : shell.opening <:+: lastLine front ++ shell.opening :=
    (List.suffix_append _ _).isInfix
  have hfresh : Text.contains a m = false :=
    Text.contains_eq_false_of_isInfix h.fresh (ha ▸ (List.prefix_append _ _).isInfix)
  have hsource : front ++ (shell.opening ++ tail)
      = a ++ (lastLine front ++ shell.opening ++ tail) := by
    rw [List.append_assoc, ← List.append_assoc a, ← ha]
  obtain ⟨post, rest, htail, hlocated, hbefore⟩ := Line.exists_locateExact?_eq hfeed hline
    (Text.endsSolid_append _ shell.endsSolid_opening) hfresh
    (Text.contains_of_isInfix h.marked hsuffix) (Text.contains_of_isInfix h.classed hsuffix) tail
  rw [← hsource] at hlocated hbefore
  obtain ⟨b, hb, -, -, -, hout⟩ := Line.exists_of_locateExact? hlocated
  simp only [hbefore] at hb hout
  have hrest : b = rest := by
    rw [hsource, htail] at hb
    have hbehind := List.append_cancel_left hb
    rw [← List.append_assoc, List.append_cancel_left_eq] at hbehind
    exact hbehind.symm
  obtain ⟨post', happly, hcontent, hclosed, htext⟩ :=
    Line.exists_apply_opening h.scanned h.first hu post
  refine ⟨post, post', rest, htail, ?_, hcontent, hclosed, htext⟩
  have hfound : (Target.component id).line? (front ++ (shell.opening ++ tail)) style
      = some ⟨(Text.pieces a).length, lastLine front ++ shell.opening ++ post⟩ := hlocated
  rw [Strategy.apply]
  simp only [hfound]
  rw [← hm, hout u, List.append_assoc (lastLine front), happly, hrest]
  simp only [List.append_assoc]
  rw [← List.append_assoc a, ← ha]

/-- What an update may make of the content of an element: a text takes the place of what stands
before the first tag in it. -/
def Refills (u : Updates) (t t' : Text) : Prop :=
  t' = t ∨ ∃ text ∈ u.text, ∃ x y, t = x ++ y ∧ '<' ∉ x
    ∧ t' = Markup.contentText text.toList ++ y

/-- An edit by the line stays within the element whose tag leads the line. -/
lemma exists_apply_byLine_wrap (h : Leads style id (u.props.map Prod.fst) front shell)
    (hu : u.Fits (lastLine front) shell) (hclosed : shell.isClosed → inner = .text [])
    (back : Text) : ∃ content, Refills u inner.written content
      ∧ Strategy.byLine.apply (front ++ (shell.wrap inner ++ back)) (.component id) u style
        = .ok (front ++ (((u.tag shell).opening ++ (content ++ shell.closing)) ++ back)) := by
  have hsource : front ++ (shell.wrap inner ++ back)
      = front ++ (shell.opening ++ (inner.written ++ (shell.closing ++ back))) := by
    simp [Shell.wrap]
  obtain ⟨post, post', rest, htail, hout, hcontent, hopen, -⟩ :=
    exists_apply_byLine_opening h hu (inner.written ++ (shell.closing ++ back))
  have hkept (hpost : post' = post) : ∃ content, Refills u inner.written content
      ∧ Strategy.byLine.apply (front ++ (shell.wrap inner ++ back)) (.component id) u style
        = .ok (front ++ (((u.tag shell).opening ++ (content ++ shell.closing)) ++ back)) := by
    refine ⟨inner.written, .inl rfl, ?_⟩
    rw [hsource, hout, hpost, ← htail]
    simp
  rcases hcontent with hpost | ⟨t, ht, hcontent⟩
  · exact hkept hpost
  · cases hcontent with
    | kept => exact hkept rfl
    | @set x y hx hpost =>
        cases hshut : shell.isClosed with
        | true => exact hkept (hopen hshut)
        | false =>
            -- the closing tag stops the text at the latest
            obtain ⟨z, hz⟩ : ∃ z, shell.closing = '<' :: z := by
              cases shell with
              | closed t => cases hshut
              | _ => exact ⟨_, rfl⟩
            have hbehind : inner.written ++ '<' :: (z ++ back) = x ++ ('<' :: '/' :: y ++ rest) := by
              rw [← List.append_assoc, ← hpost, ← htail, hz, List.cons_append]
            obtain ⟨w, hw, hw'⟩ := Text.exists_eq_append_of_notMem hx hbehind
            refine ⟨Markup.contentText t.toList ++ w, .inr ⟨t, ht, x, w, hw, hx, rfl⟩, ?_⟩
            rw [hsource, hout, List.append_assoc (Markup.contentText _), hw', hz]
            simp

/-- **An edit by the line changes the line of the marker alone, and the element alone** if its tag
leads the line: attributes of this tag are set, and a text takes the place of what stands before the
first tag in the element. -/
theorem exists_apply_byLine {source out : Text}
    (h : Strategy.byLine.apply source (.component id) u style = .ok out) :
    ∃ a l b, source = a ++ (l ++ b) ∧ out = a ++ (u.apply l ++ b) ∧ '\n' ∉ l
      ∧ Text.contains l classMark
      ∧ Text.contains l ((Target.component id).searchText style).toList
      ∧ ∀ front shell inner back, source = front ++ (shell.wrap inner ++ back)
        → (shell.isClosed → inner = .text [])
        → Leads style id (u.props.map Prod.fst) front shell → u.Fits (lastLine front) shell
        → ∃ content, Refills u inner.written content
          ∧ out = front ++ (((u.tag shell).opening ++ (content ++ shell.closing)) ++ back) := by
  have hwithin (front : Text) (shell : Shell) (inner : Passage) (back : Text)
      (hsource : source = front ++ (shell.wrap inner ++ back))
      (hclosed : shell.isClosed → inner = .text [])
      (hleads : Leads style id (u.props.map Prod.fst) front shell)
      (hfits : u.Fits (lastLine front) shell) : ∃ content, Refills u inner.written content
        ∧ out = front ++ (((u.tag shell).opening ++ (content ++ shell.closing)) ++ back) := by
    obtain ⟨content, hcontent, hout⟩ := exists_apply_byLine_wrap hleads hfits hclosed back
    rw [← hsource, h] at hout
    exact ⟨content, hcontent, Except.ok.inj hout⟩
  rw [Strategy.apply] at h
  cases hline : (Target.component id).line? source style with
  | none =>
      simp only [hline] at h
      cases h
  | some f =>
      simp only [hline] at h
      obtain ⟨b, hsource, hfeed, hclass, hmarker, hout⟩ := Line.exists_of_locateExact? hline
      obtain rfl := Except.ok.inj h
      exact ⟨_, f.text, b, hsource, hout u, hfeed, hclass, hmarker, hwithin⟩

/-- A result with a property is there. -/
lemma exists_of_any_toOption {α : Type} {r : Except Fault α} {f : α → Bool}
    (h : r.toOption.any f) : ∃ a, r = .ok a ∧ f a := by
  cases r with
  | error e => cases h
  | ok a => exact ⟨a, rfl, h⟩

/-- A paragraph on a line of its own, with a marker, an id and classes. -/
def noteShell : Shell :=
  .element ⟨"p".toList, [Component.markerPart .standard "note", .ofProp ("id", .string "old"),
    .ofProp ("className", .string "a")], []⟩

/-- What stands before the paragraph. -/
def noteFront : Text := "export default function Home() \x7b\n  return (\n    ".toList

/-- What stands behind the paragraph. -/
def noteBack : Text := "\n  );\n\x7d\n".toList

/-- Classes and attributes for the paragraph. -/
def noteUpdates : Updates :=
  ⟨some " b c ", none, [("hidden", .bool true), ("id", .null), ("title", .string "Note")]⟩

lemma leads_noteShell {names : List String} (h : IsScannedTag names noteShell) :
    Leads .standard "note" names noteFront noteShell :=
  ⟨h, by decide +kernel, by decide +kernel, by decide +kernel, by decide +kernel, by decide +kernel⟩

lemma fits_noteUpdates : noteUpdates.Fits (lastLine noteFront) noteShell where
  keys := by decide +kernel
  props := by decide +kernel
  alone := by decide +kernel
  silent := by decide +kernel
  classed _ := ⟨[Component.markerPart .standard "note", .ofProp ("id", .string "old")],
    .ofProp ("className", .string "a"), [], ['a'], rfl, rfl, rfl, by decide, by decide,
    by decide +kernel⟩

theorem exists_apply_byLine_note :
    let u : Updates := { noteUpdates with text := some "Bye" }
    let inner : Passage := .text "Hi".toList
    let out := noteFront ++ ("<p data-component-id=\"note\" className=\"b c\" hidden"
      ++ " title=\"Note\">Bye</p>").toList ++ noteBack
    Strategy.byLine.apply (noteFront ++ (noteShell.wrap inner ++ noteBack)) (.component "note") u
        .standard = .ok out
      ∧ Leads .standard "note" (u.props.map Prod.fst) noteFront noteShell
      ∧ u.Fits (lastLine noteFront) noteShell
      ∧ ∃ content, Refills u inner.written content
        ∧ out = noteFront
          ++ (((u.tag noteShell).opening ++ (content ++ noteShell.closing)) ++ noteBack) := by
  intro u inner out
  have happly : Strategy.byLine.apply (noteFront ++ (noteShell.wrap inner ++ noteBack))
      (.component "note") u .standard = .ok out := by
    set source := noteFront ++ (noteShell.wrap inner ++ noteBack) with hsource
    set f : Line.Located :=
      ⟨2, "    <p data-component-id=\"note\" id=\"old\" className=\"a\">Hi</p>".toList⟩ with hf
    have hfound : Line.locate? source "data-component-id=\"note\"".toList = some f := by
      decide +kernel
    have hline : Text.IsLine source ((Text.pieces noteFront).take 2) f.text ['\n']
        (Text.pieces (noteBack.drop 1)) := ⟨by decide +kernel, by decide +kernel, by simp⟩
    have happlied : u.apply f.text = ("    <p data-component-id=\"note\" className=\"b c\" hidden"
        ++ " title=\"Note\">Bye</p>").toList := by
      rw [Line.Updates.apply]
      simp only [u, noteUpdates, List.foldl_cons, List.foldl_nil]
      rw [Line.setProp_eq "hidden" (by decide) (by decide),
        Line.setProp_eq "id" (by decide) (by decide),
        Line.setProp_eq "title" (by decide) (by decide)]
      decide +kernel
    have hupdate := (Line.updateFile_eq_of_isLine hline (by decide +kernel) hfound u).2
    rw [happlied] at hupdate
    exact congrArg Except.ok (hupdate.trans (by decide +kernel))
  have hleads : Leads .standard "note" (u.props.map Prod.fst) noteFront noteShell :=
    leads_noteShell (by decide +kernel)
  have hfits : u.Fits (lastLine noteFront) noteShell :=
    ⟨fits_noteUpdates.keys, fits_noteUpdates.props, by decide +kernel, fits_noteUpdates.silent,
      fits_noteUpdates.classed⟩
  obtain ⟨a, l, b, -, -, -, -, -, hwithin⟩ := exists_apply_byLine happly
  exact ⟨happly, hleads, hfits,
    hwithin _ _ inner _ rfl (by simp [noteShell, Shell.isClosed]) hleads hfits⟩

/-- An edit by the line changes another element if the tag of that one leads the line. -/
theorem apply_byLine_outside :
    let front := "export default function Home() \x7b\n  return (\n    <ul>\n".toList
      ++ "      <li className=\"a\">One</li>".toList
    let element := "<li data-component-id=\"two\" className=\"b\">Two</li>".toList
    let back := "\n    </ul>\n  );\n\x7d\n".toList
    let source := front ++ (element ++ back)
    ((document source).toOption.map fun d =>
        (d.findByAttribute? "data-component-id" "two").map fun i => (nodeAt d i).span)
          = some (some ⟨Text.size front, Text.size (front ++ element)⟩)
      ∧ ∃ out, Strategy.byLine.apply source (.component "two") ⟨some "c", none, []⟩ .standard
          = .ok out
        ∧ ∀ x, out ≠ front ++ (x ++ back) := by
  intro front element back source
  have hout : ((Strategy.byLine.apply source (.component "two") ⟨some "c", none, []⟩
      .standard).toOption.any fun out => !front.isPrefixOf out) := by decide +kernel
  obtain ⟨out, happly, hne⟩ := exists_of_any_toOption hout
  refine ⟨by decide +kernel, out, happly, fun x hx => ?_⟩
  rw [hx, List.isPrefixOf_iff_prefix.mpr (List.prefix_append front _)] at hne
  cases hne

/-! ### Through the index -/

variable {changes : Fields} {source : Text} {d : Document}

/-- A patch without a text is made. -/
lemma exists_patch_eq_ok (hchanges : ∀ c ∈ changes, contentOf? c = none) (source : Text)
    (d : Document) (i : Nat) (style : Style) :
    ∃ out, patch source d i changes style = .ok out := by
  have hnone : (changes.filter fun c => c.1 ≠ style.marker).any (fun c => (contentOf? c).isSome)
      = false := by
    refine List.any_eq_false.mpr fun c hc => ?_
    simp [hchanges c (List.mem_of_mem_filter hc)]
  rw [patch_filter, patch_eq_map, patchEdits_eq fun c hc => by simpa using List.of_mem_filter hc,
    hnone, Bool.and_false]
  exact ⟨_, rfl⟩

/-- Props without a text are all attributes. -/
lemma attributeChanges_eq_self (hchanges : ∀ c ∈ changes, contentOf? c = none) :
    attributeChanges changes = changes :=
  List.filter_eq_self.mpr fun c hc => by rw [hchanges c hc]; rfl

lemma contentChange?_eq_none (hchanges : ∀ c ∈ changes, contentOf? c = none) :
    contentChange? changes = none := by
  rw [contentChange?]
  cases hget : Fields.get? "children" changes with
  | none => rfl
  | some v =>
      have hc := hchanges _ (Fields.mem_of_get? hget)
      rw [contentOf?, if_pos rfl] at hc
      exact hc

/-- Props without a text set the attributes of a tag. -/
lemma updated_eq_set (hchanges : ∀ c ∈ changes, contentOf? c = none) (shell : Shell) :
    shell.updated changes = shell.set changes := by
  have htag (t : Markup.Tag) : t.updated changes = t.set changes := by
    rw [Markup.Tag.updated, Markup.updatedParts, attributeChanges_eq_self hchanges, Markup.Tag.set]
  cases shell with
  | fragment => rfl
  | element t => rw [Shell.updated, htag, Shell.set]
  | closed t =>
      rw [Shell.updated, contentChange?_eq_none hchanges, htag, Shell.set]
      rfl

/-! ### The same edit -/

variable {key : String} {v : Value} {props : Fields}

/-- Values that are the same under each name set the same attributes. -/
lemma setParts_congr {changes' : Fields} (h : ∀ k, Fields.get? k changes = Fields.get? k changes')
    (ps : List Part) : setParts changes ps = setParts changes' ps := by
  induction ps generalizing changes changes' with
  | nil => rfl
  | cons p ps ih =>
      have hrest : setParts (Fields.erase p.name changes) ps
          = setParts (Fields.erase p.name changes') ps :=
        ih fun k => by simp only [Fields.get?_erase, h]
      rw [setParts, setParts, h, ih h]
      simp only [hrest]

/-- A value of an attribute that is there may be set before other values. -/
lemma set_insert (hkey : key ∉ props.map Prod.fst) (hhas : key ∈ shell.parts.map Part.name)
    (v : Value) : shell.set (Fields.insert key v props) = shell.set ((key, v) :: props) := by
  have hget (k : String) : Fields.get? k (Fields.insert key v props)
      = Fields.get? k ((key, v) :: props) := by
    rw [Fields.get?_insert, Fields.get?]
  have hadded (ps : List Part) (hps : key ∈ ps.map Part.name) :
      addedParts (Fields.insert key v props) ps = addedParts ((key, v) :: props) ps := by
    obtain ⟨xs, ys, hprops, hinsert⟩ := Fields.exists_insert_eq hkey v
    rw [hinsert, hprops, addedParts, addedParts, List.filter_append,
      List.filter_cons_of_neg (by simp [hps]), List.filter_cons_of_neg (by simp [hps]),
      List.filter_append]
  cases shell with
  | fragment => rfl
  | element t => simp only [Shell.set, Markup.Tag.set, setParts_congr hget, hadded t.parts hhas]
  | closed t => simp only [Shell.set, Markup.Tag.set, setParts_congr hget, hadded t.parts hhas]

/-- An update that means the same on a line and to the index: it has no text, be it among the props,
does not touch the marker, and sets the classes once. -/
structure IsCommon (style : Style) (u : Updates) : Prop where
  text : u.text = none
  content : ∀ c ∈ u.props, contentOf? c = none
  marker : ∀ c ∈ u.props, c.1 ≠ style.marker
  once : u.className.isSome → "className" ∉ u.props.map Prod.fst
  unmarked : u.className.isSome → style.marker ≠ "className"

/-- The props of an update are its own ones with the classes among them. -/
lemma propsOfUpdates_eq (hu : IsCommon style u) : propsOfUpdates u
    = u.className.elim u.props fun c =>
      Fields.insert "className" (.string (String.ofList (Text.trim c.toList))) u.props := by
  rw [propsOfUpdates, hu.text]
  cases u.className <;> rfl

lemma nodup_propsOfUpdates (hu : IsCommon style u) (hkeys : (u.props.map Prod.fst).Nodup) :
    ((propsOfUpdates u).map Prod.fst).Nodup := by
  rw [propsOfUpdates_eq hu]
  cases hc : u.className with
  | none => exact hkeys
  | some c =>
      have hkey := hu.once (by rw [hc]; rfl)
      obtain ⟨xs, ys, hprops, hinsert⟩ :=
        Fields.exists_insert_eq hkey (.string (String.ofList (Text.trim c.toList)))
      rw [hprops] at hkey hkeys
      rw [Option.elim_some, hinsert, List.map_append, List.map_cons, List.nodup_middle,
        ← List.map_append]
      exact List.nodup_cons.mpr ⟨hkey, hkeys⟩

lemma of_mem_propsOfUpdates (hu : IsCommon style u) :
    ∀ c ∈ propsOfUpdates u, contentOf? c = none ∧ c.1 ≠ style.marker := by
  intro c hc
  rw [propsOfUpdates_eq hu] at hc
  have hown (hc : c ∈ u.props) : contentOf? c = none ∧ c.1 ≠ style.marker :=
    ⟨hu.content c hc, hu.marker c hc⟩
  cases hclass : u.className with
  | none =>
      rw [hclass] at hc
      exact hown hc
  | some w =>
      rw [hclass] at hc
      rcases Fields.mem_insert hc with rfl | hc
      · exact ⟨rfl, Ne.symm (hu.unmarked (by rw [hclass]; rfl))⟩
      · exact hown hc

/-- The props of an update are set as its classes and its own props one after the other, unless the
classes end early. -/
lemma tag_eq_set_iff (hu : IsCommon style u) (hfragment : shell.isFragment = false)
    (hfits : u.Fits (lastLine front) shell) (inner : Passage) (back : Text) :
    front ++ ((u.tag shell).wrap inner ++ back)
      = front ++ ((shell.set (propsOfUpdates u)).wrap inner ++ back)
    ↔ ∀ c ∈ u.className, '"' ∉ Text.trim c.toList := by
  rw [propsOfUpdates_eq hu, Updates.tag, Updates.classed]
  cases hc : u.className with
  | none => simp
  | some c =>
      have hkey := hu.once (by rw [hc]; rfl)
      obtain ⟨ps, p, qs, w, hclassed⟩ := hfits.classed (by rw [hc]; rfl)
      have hhas : "className" ∈ shell.parts.map Part.name := by
        rw [hclassed.parts, ← hclassed.name]
        simp
      rw [Option.elim_some, Option.elim_some, set_insert hkey hhas, Line.set_cons hkey]
      refine ⟨fun heq d hd hquote => ?_, fun hfree => ?_⟩
      · obtain rfl := Option.some.inj hd
        rw [(hfits.alone c hc hquote).1, Line.set_nil, Line.set_nil, List.append_cancel_left_eq,
          Shell.wrap, Shell.wrap, List.append_assoc, List.append_assoc, List.append_assoc] at heq
        exact hclassed.opening_append_ne hfragment hquote _ _ heq
      · rw [hclassed.withClasses_eq_set (hfree c rfl)]

/-- **The two ways to edit an element are one**, whatever else is in the file, if the tag of the
element leads its line and the update sets attributes alone: they give the same text exactly if the
classes have no double quote. -/
theorem apply_byLine_eq_byIndex (hshell : shell.IsProper)
    (hclosed : shell.isClosed → inner = .text [])
    (h : Leads style id (u.props.map Prod.fst) front shell) (hfits : u.Fits (lastLine front) shell)
    (hu : IsCommon style u) (hd : document (front ++ (shell.wrap inner ++ back)) = .ok d)
    (hindex : (d.findByAttribute? style.marker id).map (nodeAt d)
      = some (shell.node inner (Text.size front))) :
    ∃ out out', Strategy.byLine.apply (front ++ (shell.wrap inner ++ back)) (.component id) u style
        = .ok out
      ∧ Strategy.byIndex.apply (front ++ (shell.wrap inner ++ back)) (.component id) u style
        = .ok out'
      ∧ out' = front ++ ((shell.set (propsOfUpdates u)).wrap inner ++ back)
      ∧ (out = out' ↔ ∀ c ∈ u.className, '"' ∉ Text.trim c.toList) := by
  refine ⟨front ++ ((u.tag shell).wrap inner ++ back), _, ?_, ?_, rfl,
    tag_eq_set_iff hu h.scanned.fragment hfits inner back⟩
  · obtain ⟨post, post', rest, htail, hout, -, -, hkept⟩ :=
      exists_apply_byLine_opening h hfits (inner.written ++ (shell.closing ++ back))
    have hwrap (s : Shell) (hs : s.closing = shell.closing) : s.wrap inner ++ back
        = s.opening ++ (inner.written ++ (shell.closing ++ back)) := by
      simp [Shell.wrap, hs]
    rw [hwrap shell rfl, hwrap _ (Updates.closing_tag u shell), hout, hkept hu.text, ← htail]
  · obtain ⟨i, hi, hnode⟩ := Option.map_eq_some_iff.mp hindex
    have hprops := of_mem_propsOfUpdates hu
    have hcontent : ∀ c ∈ propsOfUpdates u, contentOf? c = none := fun c hc => (hprops c hc).1
    obtain ⟨out, hout⟩ :=
      exists_patch_eq_ok hcontent (front ++ (shell.wrap inner ++ back)) d i style
    obtain ⟨heq, -⟩ := patch_wrap hshell h.scanned.fragment hclosed hnode
      (nodup_propsOfUpdates hu hfits.keys) (fun c hc => (hprops c hc).2) hout
    have hinner : inner.updated (propsOfUpdates u) = inner := by
      rw [Passage.updated, contentChange?_eq_none hcontent]
    rw [updated_eq_set hcontent, hinner] at heq
    rw [Strategy.apply, hd]
    simp only [bind, Except.bind, Target.index?, hi]
    rw [hout, heq]

theorem apply_byLine_eq_byIndex_note :
    let u := noteUpdates
    let source := noteFront ++ (noteShell.wrap (.text "Hi".toList) ++ noteBack)
    ∃ out, Strategy.byLine.apply source (.component "note") u .standard = .ok out
      ∧ Strategy.byIndex.apply source (.component "note") u .standard = .ok out
      ∧ out = noteFront ++ ("<p data-component-id=\"note\" className=\"b c\" hidden"
        ++ " title=\"Note\">Hi</p>").toList ++ noteBack := by
  intro u source
  have hindex : (document source).toOption.any fun d =>
      (d.findByAttribute? Style.standard.marker "note").map (nodeAt d)
        = some (noteShell.node (.text "Hi".toList) (Text.size noteFront)) := by decide +kernel
  obtain ⟨d, hd, hnode⟩ := exists_of_any_toOption hindex
  have hshell : noteShell.IsProper :=
    { name := by decide +kernel
      parts := List.forall_mem_cons.mpr ⟨⟨by decide, by decide, by decide +kernel,
          .quoted (.inl rfl) (by decide)⟩, List.forall_mem_cons.mpr
            ⟨Part.isAttribute_ofProp (by decide +kernel) rfl,
              List.forall_mem_singleton.mpr (Part.isAttribute_ofProp (by decide +kernel) rfl)⟩⟩
      gap := rfl }
  have hcommon : IsCommon .standard u :=
    ⟨rfl, by decide, by decide, by decide, by decide⟩
  obtain ⟨out, out', hline, hsame, hout, hiff⟩ := apply_byLine_eq_byIndex hshell
    (by simp [noteShell, Shell.isClosed]) (leads_noteShell (by decide +kernel)) fits_noteUpdates
    hcommon hd (of_decide_eq_true hnode)
  obtain rfl := hiff.mpr (by decide +kernel)
  exact ⟨out, hline, hsame, hout.trans (by decide +kernel)⟩

/-- Classes with a double quote end early on a line, while the index puts them into braces. -/
theorem apply_byLine_ne_byIndex :
    let u : Updates := ⟨some "before:content-[\"x\"]", none, []⟩
    let source := noteFront ++ (noteShell.wrap (.text "Hi".toList) ++ noteBack)
    let edited (value : String) : Text := noteFront
      ++ ("<p data-component-id=\"note\" id=\"old\" className=" ++ value ++ ">Hi</p>").toList
      ++ noteBack
    Leads .standard "note" (u.props.map Prod.fst) noteFront noteShell
      ∧ ((Text.cut? "data-component-id=\"note\"".toList source).any fun (_, rest) =>
        !Text.contains rest "data-component-id=\"note\"".toList)
      ∧ Strategy.byLine.apply source (.component "note") u .standard
        = .ok (edited "\"before:content-[\"x\"]\"")
      ∧ Strategy.byIndex.apply source (.component "note") u .standard
        = .ok (edited "\x7b\"before:content-[\\\"x\\\"]\"\x7d")
      ∧ edited "\"before:content-[\"x\"]\"" ≠ edited "\x7b\"before:content-[\\\"x\\\"]\"\x7d" := by
  intro u source edited
  exact ⟨leads_noteShell (by decide +kernel), by decide +kernel, by decide +kernel,
    by decide +kernel, by decide +kernel⟩

end CanvasSync.Edit
