import CanvasSync.Edit.Source
import CanvasSync.Proofs.Edit.Lines
import CanvasSync.Proofs.Markup.Frames

/-!
A stretch taken out of a text, and an element taken out of a content.

* `remainder`: what is left of a text around a stretch that is removed. If the stretch has its lines
  to itself, these go with it;
* `applyAll_removal`: what the edit that removes a stretch leaves;
* `removal_node`: what stands behind an element moves up to what stands before it.
-/

namespace CanvasSync.Edit

open CanvasSync.Markup (Passage Shell isPlain_append isPlain_feed)
open CanvasSync.Script.Grammar (IsPlain)

variable {front back t : Text} {rest : Passage}

/-- The first line of a text that is blank up to a line feed ends with it. -/
lemma exists_feed_of_allBlank_firstLine {u b : Text} (hb : Text.beginsSolid b)
    (hblank : Text.allBlank (firstLine (u ++ b))) :
    ∃ v, u = firstLine (u ++ b) ++ '\n' :: v := by
  induction u with
  | nil =>
      cases b with
      | nil => cases hb
      | cons c b =>
          have hc : isBlank c = false := by simpa [Text.beginsSolid] using hb
          have hne : c ≠ '\n' := by
            rintro rfl
            exact absurd hc (by decide)
          simp [firstLine, hne, Text.allBlank, hc] at hblank
  | cons c u ih =>
      by_cases hc : c = '\n'
      · exact ⟨u, by simp [firstLine, hc]⟩
      · have hcons : firstLine (c :: u ++ b) = c :: firstLine (u ++ b) := by simp [firstLine, hc]
        rw [hcons, Text.allBlank, List.all_cons, Bool.and_eq_true] at hblank
        obtain ⟨v, hv⟩ := ih hblank.2
        exact ⟨v, by rw [hcons, List.cons_append, ← hv]⟩

variable {before w behind x y : Text}

/-- Whether nothing but blanks stands on the lines around a stretch, between two parts of a text. -/
def isAlone (before behind : Text) : Bool :=
  Text.allBlank (lastLine before) && Text.allBlank (firstLine behind)

/-- What is left of the two parts of a text around a stretch that is removed. -/
def remainder (before behind : Text) : Text :=
  if isAlone before behind then beforeLastLine before ++ behindFirstLine behind
  else before ++ behind

/-- The edit that removes the middle one of three parts. -/
lemma removal_append (before w behind : Text) :
    removal (before ++ (w ++ behind)) ⟨Text.size before, Text.size (before ++ w)⟩
      = if isAlone before behind then
          .deletion (lineStart (before ++ (w ++ behind)) (Text.size before))
            (min (Text.size (before ++ w ++ firstLine behind) + 1)
              (Text.size (before ++ (w ++ behind))))
        else .deletion (Text.size before) (Text.size (before ++ w)) := by
  have hstop := slice_lineStop (before ++ w) behind
  have hlineStop := lineStop_append (before ++ w) behind
  rw [List.append_assoc before w behind] at hstop hlineStop
  rw [removal]
  simp only [slice_lineStart]
  rw [hstop, hlineStop]
  rfl

/-- A stretch that has its lines to itself is removed from where they begin up to the next line. -/
lemma removal_of_isAlone (h : isAlone before behind) (w : Text) :
    ∃ line, behind = line ++ behindFirstLine behind
      ∧ removal (before ++ (w ++ behind)) ⟨Text.size before, Text.size (before ++ w)⟩
        = .deletion (Text.size (beforeLastLine before)) (Text.size (before ++ (w ++ line))) := by
  obtain ⟨u, hu, hfeed⟩ := exists_eq_firstLine_append behind
  have hstart := lineStart_append (beforeLastLine_append_lastLine before).symm (w ++ behind)
  rw [removal_append, if_pos h, hstart]
  rcases hfeed with rfl | ⟨v, rfl⟩
  · -- the last line of the text, which has no line feed
    rw [List.append_nil] at hu
    refine ⟨behind, ?_, ?_⟩
    · have hall : '\n' ∉ behind := hu ▸ notMem_firstLine behind
      simpa [behindFirstLine] using behindFirstLine_append_of_notMem hall []
    · rw [← hu, List.append_assoc, Nat.min_eq_right (Nat.le_succ _)]
  · have hrest : behindFirstLine behind = v := by
      conv_lhs => rw [hu]
      rw [behindFirstLine_append_of_notMem (notMem_firstLine behind), behindFirstLine_feed]
    refine ⟨firstLine behind ++ ['\n'], by rw [hrest, List.append_assoc]; exact hu, ?_⟩
    have hsize := congrArg Text.size hu
    simp only [Text.size_append, Text.size] at hsize ⊢
    have hone : ('\n').utf8Size = 1 := rfl
    congr 1
    omega

/-- Any other stretch is removed on its own. -/
lemma removal_of_not_isAlone (h : ¬isAlone before behind) (w : Text) :
    removal (before ++ (w ++ behind)) ⟨Text.size before, Text.size (before ++ w)⟩
      = .deletion (Text.size before) (Text.size (before ++ w)) := by
  rw [removal_append, if_neg h]

/-- What is left of a text when a stretch of it is removed. -/
lemma applyAll_removal (before w behind : Text) :
    Splice.applyAll (before ++ (w ++ behind))
      [removal (before ++ (w ++ behind)) ⟨Text.size before, Text.size (before ++ w)⟩]
        = remainder before behind := by
  rw [remainder]
  split
  · next h =>
      obtain ⟨line, hline, hremoval⟩ := removal_of_isAlone h w
      have hparts : before ++ (w ++ behind) = beforeLastLine before
          ++ ((lastLine before ++ (w ++ line)) ++ behindFirstLine behind) := by
        calc before ++ (w ++ behind)
          _ = (beforeLastLine before ++ lastLine before)
              ++ (w ++ (line ++ behindFirstLine behind)) := by
            rw [beforeLastLine_append_lastLine, ← hline]
          _ = _ := by simp
      have hstop : before ++ (w ++ line)
          = beforeLastLine before ++ (lastLine before ++ (w ++ line)) := by
        rw [← List.append_assoc (beforeLastLine before), beforeLastLine_append_lastLine]
      rw [hremoval, hstop, Splice.deletion, hparts, applyAll_append]
      rfl
  · next h =>
      rw [removal_of_not_isAlone h, Splice.deletion, applyAll_append]
      rfl

/-- A stretch that has its lines to itself is removed with them. -/
lemma applyAll_removal_line (hx : before = x ++ lastLine before)
    (hy : behind = firstLine behind ++ '\n' :: y) (hbefore : Text.allBlank (lastLine before))
    (hbehind : Text.allBlank (firstLine behind)) :
    Splice.applyAll (before ++ (w ++ behind))
      [removal (before ++ (w ++ behind)) ⟨Text.size before, Text.size (before ++ w)⟩] = x ++ y := by
  have hfront : beforeLastLine before = x :=
    List.append_cancel_right ((beforeLastLine_append_lastLine before).trans hx)
  have hback : behindFirstLine behind = y := by
    have hfeed : behindFirstLine (firstLine behind ++ '\n' :: y) = y := by
      rw [behindFirstLine_append_of_notMem (notMem_firstLine behind), behindFirstLine_feed]
    rwa [← hy] at hfeed
  rw [applyAll_removal, remainder, isAlone, hbefore, hbehind, Bool.and_self, if_pos rfl, hfront,
    hback]

/-- Any other stretch is removed on its own. -/
lemma applyAll_removal_inline
    (h : ¬(Text.allBlank (lastLine before) && Text.allBlank (firstLine behind))) :
    Splice.applyAll (before ++ (w ++ behind))
      [removal (before ++ (w ++ behind)) ⟨Text.size before, Text.size (before ++ w)⟩]
        = before ++ behind := by
  rw [applyAll_removal, remainder, isAlone, if_neg h]

/-- **An element that is removed leaves the content around it**, the texts before and behind it made
one, without the line of the element if nothing else stands on it. -/
theorem removal_node (shell : Shell) (inner : Passage) (hrest : rest.IsProper) (ht : IsPlain t)
    (hfront : Text.endsSolid front) (hback : Text.beginsSolid back) :
    ∃ u, IsPlain u ∧ Splice.applyAll
        (front ++ ((Passage.node t shell inner rest).written ++ back))
        [removal (front ++ ((Passage.node t shell inner rest).written ++ back))
          (shell.node inner (Text.size (front ++ t))).span]
      = front ++ ((rest.withFirst u).written ++ back) := by
  have hfirst := Passage.isPlain_firstText hrest
  have hsource : front ++ ((Passage.node t shell inner rest).written ++ back)
      = (front ++ t) ++ (shell.wrap inner ++ (rest.firstText ++ (rest.behindFirst ++ back))) := by
    simp [Passage.written, Shell.wrap, Passage.written_eq_firstText rest]
  have hspan : (shell.node inner (Text.size (front ++ t))).span
      = ⟨Text.size (front ++ t), Text.size (front ++ t ++ shell.wrap inner)⟩ := by
    simp [Shell.node, Shell.wrap, Nat.add_assoc]
  rw [hsource, hspan]
  by_cases hblank : Text.allBlank (lastLine (front ++ t))
      && Text.allBlank (firstLine (rest.firstText ++ (rest.behindFirst ++ back)))
  · rw [Bool.and_eq_true] at hblank
    obtain ⟨u, hu⟩ := exists_feed_of_allBlank hfront hblank.1
    obtain ⟨v, hv⟩ := exists_feed_of_allBlank_firstLine
      (Passage.beginsSolid_behindFirst hback rest) hblank.2
    have hx : front ++ t = front ++ (u ++ ['\n']) ++ lastLine (front ++ t) := by
      conv_lhs => rw [hu]
      simp
    have hy : rest.firstText ++ (rest.behindFirst ++ back)
        = firstLine (rest.firstText ++ (rest.behindFirst ++ back))
          ++ '\n' :: (v ++ (rest.behindFirst ++ back)) := by
      exact (congrArg (· ++ (rest.behindFirst ++ back)) hv).trans (by simp)
    rw [hu, isPlain_append] at ht
    rw [hv, isPlain_append] at hfirst
    refine ⟨u ++ '\n' :: v, isPlain_append.mpr ⟨ht.1, hfirst.2⟩, ?_⟩
    rw [applyAll_removal_line hx hy hblank.1 hblank.2, Passage.written_withFirst]
    simp
  · refine ⟨t ++ rest.firstText, isPlain_append.mpr ⟨ht, hfirst⟩, ?_⟩
    rw [applyAll_removal_inline hblank, Passage.written_withFirst]
    simp

end CanvasSync.Edit
