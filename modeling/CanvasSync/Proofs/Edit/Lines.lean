import CanvasSync.Edit.Splice
import CanvasSync.Proofs.Text.Solid

/-!
The line around an offset, and one edit.

* `exists_eq_append_lastLine`, `exists_eq_firstLine_append`: a text falls into its last line, or its
  first one, and the rest;
* `beforeLastLine`, `behindFirstLine`: these rests;
* `lineStart_append`, `lineStop_append`: where the line around the end of a first part begins and
  ends;
* `exists_feed_of_allBlank`: a blank line begins behind all that is solid;
* `applyAll_append`: an edit of the middle one of three parts.
-/

namespace CanvasSync.Edit

variable {a b t x y z : Text}

/-! ### Lines -/

@[simp] lemma lastLine_nil : lastLine [] = [] := rfl

lemma lastLine_append_singleton (t : Text) (c : Char) :
    lastLine (t ++ [c]) = if c = '\n' then [] else lastLine t ++ [c] := by
  by_cases hc : c = '\n' <;> simp [lastLine, hc]

/-- A text is its last line behind nothing or a line feed. -/
lemma exists_eq_append_lastLine (t : Text) :
    ∃ u, t = u ++ lastLine t ∧ (u = [] ∨ ∃ v, u = v ++ ['\n']) := by
  induction t using List.reverseRecOn with
  | nil => exact ⟨[], rfl, .inl rfl⟩
  | append_singleton t c ih =>
      rw [lastLine_append_singleton]
      split
      · next hc => exact ⟨t ++ [c], by simp, .inr ⟨t, by rw [hc]⟩⟩
      · obtain ⟨u, hu, hfeed⟩ := ih
        exact ⟨u, by rw [← List.append_assoc, ← hu], hfeed⟩

/-- A text is its first line before nothing or a line feed. -/
lemma exists_eq_firstLine_append (t : Text) :
    ∃ u, t = firstLine t ++ u ∧ (u = [] ∨ ∃ v, u = '\n' :: v) := by
  induction t with
  | nil => exact ⟨[], rfl, .inl rfl⟩
  | cons c t ih =>
      by_cases hc : c = '\n'
      · exact ⟨c :: t, by simp [firstLine, hc], .inr ⟨t, by rw [hc]⟩⟩
      · obtain ⟨u, hu, hfeed⟩ := ih
        have hcons : firstLine (c :: t) = c :: firstLine t := by simp [firstLine, hc]
        exact ⟨u, by rw [hcons, List.cons_append, ← hu], hfeed⟩

/-- What stands before the last line of a text. -/
def beforeLastLine (t : Text) : Text := (t.reverse.dropWhile (· ≠ '\n')).reverse

/-- What stands behind the first line feed of a text. -/
def behindFirstLine (t : Text) : Text := (t.dropWhile (· ≠ '\n')).tail

lemma beforeLastLine_append_lastLine (t : Text) : beforeLastLine t ++ lastLine t = t := by
  rw [beforeLastLine, lastLine, ← List.reverse_append, List.takeWhile_append_dropWhile,
    List.reverse_reverse]

/-- What stands before the last line of a text is nothing, or ends with a line feed. -/
lemma lastLine_beforeLastLine (t : Text) : lastLine (beforeLastLine t) = [] := by
  obtain ⟨u, hu, hfeed⟩ := exists_eq_append_lastLine t
  have hbefore : beforeLastLine t = u :=
    List.append_cancel_right ((beforeLastLine_append_lastLine t).trans hu)
  rw [hbefore]
  rcases hfeed with rfl | ⟨v, rfl⟩
  · rfl
  · rw [lastLine_append_singleton, if_pos rfl]

/-! Whole lines stand before the last line of what follows them. -/

lemma lastLine_append (ht : lastLine t = []) (u : Text) : lastLine (t ++ u) = lastLine u := by
  induction u using List.reverseRecOn with
  | nil => simpa using ht
  | append_singleton u c ih =>
      rw [← List.append_assoc, lastLine_append_singleton, ih, lastLine_append_singleton]

lemma beforeLastLine_append (ht : lastLine t = []) (u : Text) :
    beforeLastLine (t ++ u) = t ++ beforeLastLine u := by
  have hwhole := beforeLastLine_append_lastLine (t ++ u)
  rw [lastLine_append ht] at hwhole
  refine List.append_cancel_right (hwhole.trans ?_)
  rw [List.append_assoc, beforeLastLine_append_lastLine]

@[simp] lemma lastLine_append_feed (t u : Text) : lastLine (t ++ '\n' :: u) = lastLine u := by
  have hfeed : lastLine (t ++ ['\n']) = [] := by rw [lastLine_append_singleton, if_pos rfl]
  simpa using lastLine_append hfeed u

lemma notMem_lastLine (t : Text) : '\n' ∉ lastLine t := fun h => by
  simpa using List.all_eq_true.mp List.all_takeWhile _ (List.mem_reverse.mp h)

lemma notMem_firstLine (t : Text) : '\n' ∉ firstLine t := fun h => by
  simpa using List.all_eq_true.mp List.all_takeWhile _ h

/-! A text without line feeds is all of a line, or stands on a line with what is next to it. -/

lemma forall_ne_of_notMem (hx : '\n' ∉ x) : ∀ c ∈ x, (decide (c ≠ '\n')) = true := by
  intro c hc
  exact decide_eq_true fun h => hx (h ▸ hc)

lemma lastLine_append_of_notMem (hx : '\n' ∉ x) (t : Text) :
    lastLine (t ++ x) = lastLine t ++ x := by
  have hreverse := forall_ne_of_notMem (x := x.reverse) (by simpa using hx)
  rw [lastLine, List.reverse_append, List.takeWhile_append_of_pos hreverse, List.reverse_append,
    List.reverse_reverse, lastLine]

lemma lastLine_of_notMem (hx : '\n' ∉ x) : lastLine x = x := by
  simpa using lastLine_append_of_notMem hx []

lemma beforeLastLine_append_of_notMem (hx : '\n' ∉ x) (t : Text) :
    beforeLastLine (t ++ x) = beforeLastLine t := by
  have hreverse := forall_ne_of_notMem (x := x.reverse) (by simpa using hx)
  rw [beforeLastLine, List.reverse_append, List.dropWhile_append_of_pos hreverse, beforeLastLine]

lemma firstLine_append_of_notMem (hx : '\n' ∉ x) (t : Text) :
    firstLine (x ++ t) = x ++ firstLine t :=
  List.takeWhile_append_of_pos (forall_ne_of_notMem hx)

lemma behindFirstLine_append_of_notMem (hx : '\n' ∉ x) (t : Text) :
    behindFirstLine (x ++ t) = behindFirstLine t := by
  rw [behindFirstLine, List.dropWhile_append_of_pos (forall_ne_of_notMem hx), behindFirstLine]

@[simp] lemma firstLine_feed (t : Text) : firstLine ('\n' :: t) = [] := rfl

@[simp] lemma behindFirstLine_feed (t : Text) : behindFirstLine ('\n' :: t) = t := rfl

/-- The line around the end of a first part begins where its last line does. -/
lemma lineStart_append (hu : a = x ++ lastLine a) (b : Text) :
    lineStart (a ++ b) (Text.size a) = Text.size x := by
  have hsize := congrArg Text.size hu
  rw [Text.size_append] at hsize
  rw [lineStart, Text.upTo_size_append]
  omega

/-- What stands on the line before the end of a first part. -/
lemma slice_lineStart (a b : Text) :
    Text.slice (lineStart (a ++ b) (Text.size a)) (Text.size a) (a ++ b) = lastLine a := by
  obtain ⟨x, hx, -⟩ := exists_eq_append_lastLine a
  rw [lineStart_append hx]
  have hsize : Text.size a = Text.size x + Text.size (lastLine a) := by
    rw [← Text.size_append, ← hx]
  have happend : a ++ b = x ++ lastLine a ++ b := by rw [← hx]
  rw [hsize, happend, Text.slice_append]

/-- The line around the end of a first part ends where the first line behind it does. -/
lemma lineStop_append (a b : Text) :
    lineStop (a ++ b) (Text.size a) = Text.size (a ++ firstLine b) := by
  rw [lineStop, Text.fromOffset_size_append, Text.size_append]

/-- What stands on the line behind the end of a first part. -/
lemma slice_lineStop (a b : Text) :
    Text.slice (Text.size a) (lineStop (a ++ b) (Text.size a)) (a ++ b) = firstLine b := by
  obtain ⟨y, hy, -⟩ := exists_eq_firstLine_append b
  have happend : a ++ b = a ++ firstLine b ++ y := by rw [List.append_assoc, ← hy]
  rw [lineStop_append, Text.size_append, happend, Text.slice_append]

/-- A blank line begins behind all that is solid. -/
lemma exists_feed_of_allBlank (ha : Text.endsSolid a) (hblank : Text.allBlank (lastLine (a ++ t))) :
    ∃ u, t = u ++ '\n' :: lastLine (a ++ t) := by
  induction t using List.reverseRecOn with
  | nil =>
      obtain ⟨u, hu, hfeed⟩ := exists_eq_append_lastLine a
      rw [List.append_nil] at hblank
      have hnil : lastLine a = [] := by
        by_contra hne
        rw [Text.endsSolid, hu, List.getLast?_append, List.getLast?_eq_some_getLast hne] at ha
        simp [List.all_eq_true.mp hblank _ (List.getLast_mem hne)] at ha
      rw [hnil, List.append_nil] at hu
      rw [hu] at ha
      rcases hfeed with rfl | ⟨v, rfl⟩
      · cases ha
      · rw [Text.endsSolid, List.getLast?_append] at ha
        exact absurd (show isBlank '\n' = false by simpa using ha) (by decide)
  | append_singleton t c ih =>
      rw [← List.append_assoc, lastLine_append_singleton] at hblank ⊢
      split
      · next hc => exact ⟨t, by rw [hc]⟩
      · next hc =>
          rw [if_neg hc, Text.allBlank, List.all_append, Bool.and_eq_true] at hblank
          obtain ⟨u, hu⟩ := ih hblank.1
          refine ⟨u, ?_⟩
          rw [← List.cons_append, ← List.append_assoc, ← hu]

lemma allBlank_indentationAt (source : Text) (offset : Nat) :
    Text.allBlank (indentationAt source offset) := by
  refine List.all_eq_true.mpr fun c hc => ?_
  have hc := List.all_eq_true.mp List.all_takeWhile c hc
  simp only [Bool.or_eq_true, decide_eq_true_eq] at hc
  rcases hc with rfl | rfl <;> decide

/-! ### One edit -/

lemma applyAll_singleton (source : Text) (e : Splice) :
    Splice.applyAll source [e] = e.apply source := by
  simp [Splice.applyAll]

/-- An edit of the middle one of three parts. -/
lemma applyAll_append (x y z t : Text) :
    Splice.applyAll (x ++ (y ++ z)) [⟨Text.size x, Text.size (x ++ y), t⟩] = x ++ (t ++ z) := by
  rw [applyAll_singleton, Splice.apply]
  simp only
  rw [Text.upTo_size_append, ← List.append_assoc x y, Text.fromOffset_size_append,
    List.append_assoc]

/-- An insertion between two parts. -/
lemma applyAll_insertion (x y t : Text) :
    Splice.applyAll (x ++ y) [.insertion (Text.size x) t] = x ++ (t ++ y) := by
  have h := applyAll_append x [] y t
  rwa [List.append_nil, List.nil_append] at h

end CanvasSync.Edit
