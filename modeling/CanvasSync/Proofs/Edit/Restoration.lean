import CanvasSync.Proofs.Edit.Insertions
import CanvasSync.Proofs.Edit.Places
import CanvasSync.Proofs.Edit.Removals

/-!
A component that is inserted and removed again.

* `insertedSpan`: where the markup of a component stands if it is put before the line of a closing
  tag;
* `applyAll_removal_between`: the removal of a line between others;
* `exists_insert_of_alone`: the source with a component put between its lines;
* `remove_of_insert`: the removal of what was inserted gives the source back.
-/

namespace CanvasSync.Edit

open CanvasSync.Markup (Document Node Style render)

variable {source out : Text} {d d' : Document} {style : Style} {c : Component}
  {path : Option (List Nat)} {target : Node} {closing : Span}

/-- The indent of a component that is inserted into a node. -/
def insertedIndent (source : Text) (style : Style) (target : Node) : Text :=
  indentationAt source target.opening.start ++ style.indent.toList

/-- Where the markup of a component stands behind its indent, if it is put before the line of a
closing tag. -/
def insertedSpan (source : Text) (style : Style) (target : Node) (closing : Span) (c : Component) :
    Span :=
  let start := lineStart source closing.start
  let indent := insertedIndent source style target
  ⟨start + Text.size indent, start + Text.size (indentBlock indent (render style 0 c))⟩

/-- The indent of a component is blank, and there is no line feed in it. -/
lemma allBlank_insertedIndent (source : Text) (target : Node)
    (hindent : ∀ x ∈ style.indent.toList, x = ' ' ∨ x = '\t') :
    Text.allBlank (insertedIndent source style target)
      ∧ '\n' ∉ insertedIndent source style target := by
  constructor
  · rw [insertedIndent, Text.allBlank, List.all_append, Bool.and_eq_true]
    refine ⟨allBlank_indentationAt source target.opening.start, List.all_eq_true.mpr fun x hx => ?_⟩
    rcases hindent x hx with rfl | rfl <;> decide
  · rw [insertedIndent, List.mem_append, not_or]
    have hline := isOneLine_indentationAt source target.opening.start
    refine ⟨Text.notMem_of_isOneLine hline, fun hx => ?_⟩
    rcases hindent _ hx with h | h <;> exact absurd h (by decide)

/-- A stretch behind an indent and before a line feed is removed with both. -/
lemma applyAll_removal_between {lines indent : Text} (hlines : lastLine lines = [])
    (hindent : Text.allBlank indent) (hfree : '\n' ∉ indent) (w rest : Text) :
    Splice.applyAll (lines ++ ((indent ++ w ++ ['\n']) ++ rest))
      [removal (lines ++ ((indent ++ w ++ ['\n']) ++ rest))
        ⟨Text.size lines + Text.size indent, Text.size lines + Text.size (indent ++ w)⟩]
      = lines ++ rest := by
  have hsource : lines ++ ((indent ++ w ++ ['\n']) ++ rest)
      = (lines ++ indent) ++ (w ++ '\n' :: rest) := by simp
  have hspan : Span.mk (Text.size lines + Text.size indent)
      (Text.size lines + Text.size (indent ++ w))
        = ⟨Text.size (lines ++ indent), Text.size (lines ++ indent ++ w)⟩ := by simp
  have hline : lastLine (lines ++ indent) = indent := by
    rw [lastLine_append hlines, lastLine_of_notMem hfree]
  have hbefore : beforeLastLine (lines ++ indent) = lines := by
    have hwhole := beforeLastLine_append_lastLine (lines ++ indent)
    rw [hline] at hwhole
    exact List.append_cancel_right hwhole
  have halone : isAlone (lines ++ indent) ('\n' :: rest) := by
    rw [isAlone, hline, hindent]
    rfl
  rw [hsource, hspan, applyAll_removal, remainder, if_pos halone, hbefore, behindFirstLine_feed]

/-- A component that is inserted before a closing tag alone on its line stands between whole lines
and this one. -/
lemma exists_insert_of_alone (hdocument : document source = .ok d)
    (htarget : insertionTarget d path = .ok target) (hclosing : target.closing = some closing)
    (halone : Text.allBlank (Text.slice (lineStart source closing.start) closing.start source))
    (hinsert : insert source c path style = .ok out) :
    ∃ lines rest, source = lines ++ rest ∧ lastLine lines = []
      ∧ lineStart source closing.start = Text.size lines
      ∧ out = lines ++ ((indentBlock (insertedIndent source style target) (render style 0 c)
        ++ ['\n']) ++ rest) := by
  obtain ⟨-, w, ⟨before, behind, hsource, rfl⟩, -⟩ :=
    (isLaid_insertionTarget (isLaid_of_document hdocument) htarget hclosing).closing _ hclosing
  rw [List.append_assoc] at hsource
  have hstart : lineStart source (Text.size before) = Text.size (beforeLastLine before) := by
    rw [hsource, lineStart_append (beforeLastLine_append_lastLine before).symm]
  have hparts : source = beforeLastLine before ++ (lastLine before ++ (w ++ behind)) := by
    rw [← List.append_assoc, beforeLastLine_append_lastLine, hsource]
  refine ⟨_, _, hparts, lastLine_beforeLastLine before, hstart, ?_⟩
  have hinsertion : insertion source style target (render style 0 c)
      = .insertion (Text.size (beforeLastLine before))
        (indentBlock (insertedIndent source style target) (render style 0 c) ++ ['\n']) := by
    rw [insertion]
    simp only [hclosing]
    rw [if_pos halone, hstart]
    rfl
  rw [insert, hdocument] at hinsert
  simp only [bind, Except.bind, htarget] at hinsert
  rw [← Except.ok.inj hinsert, hinsertion]
  generalize indentBlock _ _ = block
  rw [hparts, applyAll_insertion]

/-- **The removal of a component that was inserted gives the source back**, byte for byte, if it was
inserted before a closing tag that stands alone on its line, and its markup is the first element of
the new source that is marked with its id. -/
theorem remove_of_insert {i : Nat}
    (hindent : ∀ x ∈ style.indent.toList, x = ' ' ∨ x = '\t') (hdocument : document source = .ok d)
    (htarget : insertionTarget d path = .ok target) (hclosing : target.closing = some closing)
    (halone : Text.allBlank (Text.slice (lineStart source closing.start) closing.start source))
    (hinsert : insert source c path style = .ok out) (hout : document out = .ok d')
    (hmarked : marked d' c.id style = .ok i)
    (hspan : (nodeAt d' i).span = insertedSpan source style target closing c) :
    remove out c.id style = .ok source := by
  obtain ⟨lines, rest, hsource, hlines, hstart, rfl⟩ :=
    exists_insert_of_alone hdocument htarget hclosing halone hinsert
  obtain ⟨hblank, hfree⟩ := allBlank_insertedIndent source target hindent
  rw [remove, hout]
  simp only [bind, Except.bind, hmarked]
  rw [hspan, insertedSpan, hstart, indentBlock_render_eq,
    applyAll_removal_between hlines hblank hfree, ← hsource]
  rfl

/-- A list whose closing tag stands on a line of its own. -/
def listSource : Text := "export default () => (\n\t<ul>\r\n\t</ul>\n)".toList

/-- This list with an item. -/
def itemSource : Text :=
  "export default () => (\n\t<ul>\r\n\t  <li data-component-id=\"a\" />\n\t</ul>\n)".toList

/-- An item inserted into a list and removed again. -/
theorem remove_insert_item : insert listSource (.ofTag "a" "li") none .standard = .ok itemSource
    ∧ remove itemSource "a" .standard = .ok listSource := by
  have hinsert : insert listSource (.ofTag "a" "li") none .standard = .ok itemSource :=
    eq_ok_of_toOption (by decide +kernel)
  have htarget : insertionTarget (indexOf listSource) none = .ok (nodeAt (indexOf listSource) 0) :=
    eq_ok_of_toOption (by decide +kernel)
  have hclosing : (nodeAt (indexOf listSource) 0).closing = some ⟨31, 36⟩ := by decide +kernel
  have hmarked : marked (indexOf itemSource) "a" .standard = .ok 1 :=
    eq_ok_of_toOption (by decide +kernel)
  have hspan : (nodeAt (indexOf itemSource) 1).span = insertedSpan listSource .standard
      (nodeAt (indexOf listSource) 0) ⟨31, 36⟩ (.ofTag "a" "li") := by decide +kernel
  have halone : Text.allBlank (Text.slice (lineStart listSource 31) 31 listSource) := by
    decide +kernel
  have hindent : ∀ x ∈ Style.standard.indent.toList, x = ' ' ∨ x = '\t' := by
    simp [Style.standard]
  have hdocument : document listSource = .ok (indexOf listSource) :=
    document_eq_ok (by decide +kernel)
  have hout : document itemSource = .ok (indexOf itemSource) := document_eq_ok (by decide +kernel)
  exact ⟨hinsert, remove_of_insert (c := .ofTag "a" "li") hindent hdocument htarget hclosing halone
    hinsert hout hmarked hspan⟩

end CanvasSync.Edit
