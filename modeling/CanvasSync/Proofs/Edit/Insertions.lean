import CanvasSync.Edit.Source
import CanvasSync.Proofs.Edit.Indentation
import CanvasSync.Proofs.Edit.Lines
import CanvasSync.Proofs.Markup.Frames

/-!
A component inserted into an element.

* `Shell.opened`: the tags of an element that has a closing one;
* `inserted`, `Appends`: the element that is inserted for a component, and a content with it;
* `insertion_wrap`: an insertion gives the element with this node at the end of its content.
-/

namespace CanvasSync

open CanvasSync.Script.Grammar (IsAttribute IsPlain IsTag isBlank_of_mem_markupName)

namespace Markup

/-- The tags of an element with a closing one, if its tag closes itself. -/
def Shell.opened : Shell → Shell
  | closed t => element { t with gap := [] }
  | shell => shell

variable {shell : Shell} {t : Tag}

lemma Shell.isProper_opened (h : shell.IsProper) : shell.opened.IsProper := by
  cases shell with
  | fragment => exact h
  | element t => exact h
  | closed t => exact ⟨h.name, h.parts, rfl⟩

@[simp] lemma Shell.isClosed_opened (shell : Shell) : shell.opened.isClosed = false := by
  cases shell <;> rfl

@[simp] lemma Shell.parts_opened (shell : Shell) : shell.opened.parts = shell.parts := by
  cases shell <;> rfl

@[simp] lemma Shell.name_opened (shell : Shell) : shell.opened.name = shell.name := by
  cases shell <;> rfl

@[simp] lemma Shell.marker?_opened (marker : String) (shell : Shell) :
    shell.opened.marker? marker = shell.marker? marker := by
  rw [marker?, parts_opened, marker?]

lemma Shell.opens_opened (h : shell.Opens) : shell.opened.Opens := by
  cases shell <;> exact h

/-- An opening tag is solid up to the blanks behind its attributes. -/
lemma trimEnd_text (ht : IsTag t) : Text.trimEnd t.text = '<' :: (t.name ++ partsText t.parts) := by
  have hname : Text.endsSolid ('<' :: t.name) :=
    Text.endsSolid_append ['<'] (endsSolid_of_isMarkupName ht.name)
  have hassoc : t.text = '<' :: t.name ++ partsText t.parts ++ t.gap := by simp [Tag.text]
  rw [hassoc, Text.trimEnd_append (endsSolid_append_partsText hname ht.parts) ht.gap]
  rfl

end Markup

namespace Edit

open CanvasSync.Markup (Passage Shell Style isPlain_append isPlain_feed render)

variable {style : Style} {c : Component} {pad front back : Text} {shell : Shell} {inner : Passage}

/-- The element that is inserted for a component, indented by a pad. -/
def inserted (style : Style) (pad : Text) (c : Component) : Passage :=
  .node [] ((c.shell style).reindented pad) ((c.inner style 0).reindented pad) (.text [])

/-- A content that is read as written, and whose elements nest as those of another one with a
component behind them, which is the one of an inserted element. -/
structure Appends (style : Style) (c : Component) (inner inner' : Passage) : Prop where
  isProper : inner'.IsProper
  outline : (∀ i ∈ c.ids, Text.isOneLine i.toList) →
    Component.outlineAll (inner'.components style.marker)
      = Component.outlineAll (inner.components style.marker ++ [c])
  components : ∃ base, Text.allBlank base ∧ Text.isOneLine base
    ∧ inner'.components style.marker = inner.components style.marker
      ++ (inserted style (base ++ style.indent.toList) c).components style.marker

lemma isOneLine_indentationAt (source : Text) (offset : Nat) :
    Text.isOneLine (indentationAt source offset) := by
  refine List.all_eq_true.mpr fun c hc => ?_
  have hc := List.all_eq_true.mp List.all_takeWhile c hc
  simp only [Bool.or_eq_true, decide_eq_true_eq] at hc
  rcases hc with rfl | rfl <;> decide

/-- A content with the indented markup of a component at its end, between two texts. -/
lemma exists_appends (inner : Passage) (hstyle : style.IsProper) (hc : c.Printable) {base : Text}
    (hbase : Text.allBlank base) (hline : Text.isOneLine base) (hinner : inner.IsProper)
    {gap tail : Text} (hgap : IsPlain gap) (htail : Text.allBlank tail) :
    ∃ inner' : Passage, Appends style c inner inner' ∧ inner'.written = inner.beforeLast
      ++ (gap ++ (indentBlock (base ++ style.indent.toList) (render style 0 c) ++ '\n' :: tail)) := by
  have hpad : Text.allBlank (base ++ style.indent.toList) := by
    rw [Text.allBlank, List.all_append, Bool.and_eq_true]
    exact ⟨hbase, hstyle.indent⟩
  set pad := base ++ style.indent.toList with hpadEq
  have hnode := nests_render (gap ++ pad) (.text ('\n' :: tail)) hstyle hc hpad
    (isPlain_append.mpr ⟨hgap, Component.isPlain_of_allBlank hpad⟩)
    ⟨List.forall_mem_cons.mpr ⟨by decide, Component.isPlain_of_allBlank htail⟩, fun _ => rfl⟩
  refine ⟨inner.withLast (.node (gap ++ pad) ((c.shell style).reindented pad)
    ((c.inner style 0).reindented pad) (.text ('\n' :: tail))),
    ⟨Passage.isProper_withLast hinner hnode.isProper, fun hids => ?_, base, hbase, hline, ?_⟩, ?_⟩
  · rw [Passage.components_withLast, Component.outlineAll_append, Component.outlineAll_append,
      hnode.outline (by simpa using hids)]
  · rw [Passage.components_withLast]
    rfl
  · rw [Passage.written_withLast, indentBlock_render hstyle hc]
    simp [Passage.written, Shell.wrap]

variable (front back)

/-- A component is inserted before a closing tag. -/
lemma insertion_of_closing (hstyle : style.IsProper) (hc : c.Printable) (hinner : inner.IsProper)
    (hshell : shell.isClosed = false) :
    ∃ inner' : Passage, Appends style c inner inner'
      ∧ Splice.applyAll (front ++ (shell.wrap inner ++ back))
          [insertion (front ++ (shell.wrap inner ++ back)) style
            (shell.node inner (Text.size front)) (render style 0 c)]
        = front ++ (shell.wrap inner' ++ back) := by
  set source := front ++ (shell.wrap inner ++ back) with hsource
  have hbase := allBlank_indentationAt source (Text.size front)
  have hline := isOneLine_indentationAt source (Text.size front)
  set base := indentationAt source (Text.size front) with hbaseEq
  -- what stands before the closing tag, and what is solid of it
  set before := front ++ (shell.opening ++ inner.written) with hbefore
  set solid := front ++ (shell.opening ++ inner.beforeLast) with hsolidEq
  have hsplit : source = before ++ (shell.closing ++ back) := by
    simp [hsource, hbefore, Shell.wrap]
  have hlast : before = solid ++ inner.lastText := by
    rw [hbefore, Passage.written_eq]
    simp [hsolidEq]
  have hsolid : Text.endsSolid solid := by
    have h := Passage.endsSolid_beforeLast hinner
      (Text.endsSolid_append front shell.endsSolid_opening)
    rwa [List.append_assoc] at h
  have hstop : Text.size front + Text.size shell.opening + Text.size inner.written
      = Text.size before := by
    simp only [hbefore, Text.size_append]
    omega
  have hplain := Passage.isPlain_lastText hinner
  have hinsertion : insertion source style (shell.node inner (Text.size front)) (render style 0 c)
      = if Text.allBlank (lastLine before) then
          .insertion (lineStart source (Text.size before))
            (indentBlock (base ++ style.indent.toList) (render style 0 c) ++ ['\n'])
        else .insertion (Text.size before)
          ('\n' :: indentBlock (base ++ style.indent.toList) (render style 0 c)
            ++ '\n' :: base) := by
    have hslice := slice_lineStart before (shell.closing ++ back)
    rw [← hsplit] at hslice
    simp only [insertion, Shell.node, hshell, Bool.false_eq_true, if_false, hstop, hslice]
    rfl
  rw [hinsertion]
  split
  · next hblank =>
      rw [hlast] at hblank
      obtain ⟨u, hu⟩ := exists_feed_of_allBlank hsolid hblank
      rw [← hlast] at hu hblank
      rw [hu, isPlain_append] at hplain
      have hgap : IsPlain (u ++ ['\n']) := isPlain_append.mpr ⟨hplain.1, isPlain_feed⟩
      obtain ⟨inner', happends, hwritten⟩ :=
        exists_appends inner hstyle hc hbase hline hinner hgap hblank
      refine ⟨inner', happends, ?_⟩
      have hline : before = solid ++ (u ++ ['\n']) ++ lastLine before := by
        rw [List.append_assoc solid, List.append_assoc u, List.singleton_append, ← hu]
        exact hlast
      have hstart := lineStart_append hline (shell.closing ++ back)
      rw [← hsplit] at hstart
      have hparts : source
          = solid ++ (u ++ ['\n']) ++ (lastLine before ++ (shell.closing ++ back)) := by
        rw [← List.append_assoc, ← hline, hsplit]
      rw [hstart, hparts, applyAll_insertion, Shell.wrap, hwritten, hsolidEq]
      simp
  · obtain ⟨inner', happends, hwritten⟩ := exists_appends inner hstyle hc hbase hline hinner
      (isPlain_append.mpr ⟨hplain, isPlain_feed⟩) hbase
    refine ⟨inner', happends, ?_⟩
    rw [hsplit, applyAll_insertion, Shell.wrap, hwritten, hlast, hsolidEq]
    simp

/-- A component is inserted into a tag that closes itself, which is opened for it. -/
lemma insertion_of_closed {t : Markup.Tag} (hstyle : style.IsProper) (hc : c.Printable)
    (ht : IsTag t) :
    ∃ inner' : Passage, Appends style c (.text []) inner'
      ∧ Splice.applyAll (front ++ ((Shell.closed t).wrap (.text []) ++ back))
          [insertion (front ++ ((Shell.closed t).wrap (.text []) ++ back)) style
            ((Shell.closed t).node (.text []) (Text.size front)) (render style 0 c)]
        = front ++ ((Shell.closed t).opened.wrap inner' ++ back) := by
  set source := front ++ ((Shell.closed t).wrap (.text []) ++ back) with hsource
  have hbase := allBlank_indentationAt source (Text.size front)
  have hline := isOneLine_indentationAt source (Text.size front)
  set base := indentationAt source (Text.size front) with hbaseEq
  have hparts : source = front ++ ((Shell.closed t).opening ++ back) := by
    simp [hsource, Shell.wrap, Shell.closing, Passage.written]
  have hcovered : Text.covered source ⟨Text.size front,
      Text.size front + Text.size (Shell.closed t).opening⟩ = t.text ++ ['/', '>'] := by
    rw [hparts, ← List.append_assoc]
    exact Text.slice_append _ _ _
  have hstrip : Text.stripEnd? ['/', '>'] (t.text ++ ['/', '>']) = some t.text := by
    simp [Text.stripEnd?, Text.strip?]
  obtain ⟨inner', happends, hwritten⟩ := exists_appends (.text []) hstyle hc hbase hline
    (List.forall_mem_nil _) isPlain_feed hbase
  refine ⟨inner', happends, ?_⟩
  have hinsertion : insertion source style ((Shell.closed t).node (.text []) (Text.size front))
        (render style 0 c)
      = ⟨Text.size front, Text.size (front ++ (Shell.closed t).opening),
        '<' :: (t.name ++ Markup.partsText t.parts) ++ ['>', '\n']
          ++ indentBlock (base ++ style.indent.toList) (render style 0 c)
          ++ '\n' :: base ++ ['<', '/'] ++ t.name ++ ['>']⟩ := by
    simp only [insertion, Shell.node, Shell.isClosed, if_true, hcovered, hstrip, Option.getD_some,
      Markup.trimEnd_text ht, Shell.name, String.toList_ofList, Text.size_append]
    rfl
  rw [hinsertion, hparts, applyAll_append, Shell.opened, Shell.wrap, hwritten]
  simp [Shell.opening, Shell.closing, Markup.Tag.text, Passage.beforeLast]

/-- **An insertion puts the component at the end of the content of an element**, on lines of its
own, and opens a tag that closes itself. -/
theorem insertion_wrap (hstyle : style.IsProper) (hc : c.Printable) (hshell : shell.IsProper)
    (hclosed : shell.isClosed → inner = .text []) (hinner : inner.IsProper) :
    ∃ inner' : Passage, Appends style c inner inner'
      ∧ Splice.applyAll (front ++ (shell.wrap inner ++ back))
          [insertion (front ++ (shell.wrap inner ++ back)) style
            (shell.node inner (Text.size front)) (render style 0 c)]
        = front ++ (shell.opened.wrap inner' ++ back) := by
  cases shell with
  | fragment => exact insertion_of_closing front back hstyle hc hinner rfl
  | element t => exact insertion_of_closing front back hstyle hc hinner rfl
  | closed t =>
      obtain rfl := hclosed rfl
      exact insertion_of_closed front back hstyle hc hshell

end Edit

end CanvasSync
