import CanvasSync.Proofs.Edit.Places
import CanvasSync.Proofs.Edit.Removals

/-!
Two elements removed one after the other.

* `Splice.moved`: where a stretch stands once an edit beside it is made;
* `remainder_comm`, `remainder_append`, `remainder_append_feed`: what is left around a stretch next
  to a text on the same line, and next to whole lines;
* `removeBoth`: two stretches removed one after the other;
* `removeBoth_comm`: the order does not matter;
* `remove_comm`: nor does it for two elements of which neither is within the other.
-/

namespace CanvasSync.Edit

open CanvasSync.Markup (Document Style)
open CanvasSync.Text (allBlank beginsSolid endsSolid size)

/-- Where a stretch before or behind an edit stands once the edit is made. -/
def Splice.moved (e : Splice) (s : Span) : Span :=
  if e.stop ≤ s.start then
    ⟨s.start - (e.stop - e.start) + size e.text, s.stop - (e.stop - e.start) + size e.text⟩
  else s

/-- Two stretches removed from a text, one after the other. -/
def removeBoth (source : Text) (first second : Span) : Text :=
  let e := removal source first
  let rest := Splice.applyAll source [e]
  Splice.applyAll rest [removal rest (e.moved second)]

variable {p u m v q a b : Text}

/-! ### What is left around a stretch -/

/-- A text without line feeds counts to the same line on both sides of a stretch. -/
lemma remainder_comm (hm : '\n' ∉ m) (p q : Text) :
    remainder (p ++ m) q = remainder p (m ++ q) := by
  have halone : isAlone (p ++ m) q = isAlone p (m ++ q) := by
    rw [isAlone, isAlone, lastLine_append_of_notMem hm, firstLine_append_of_notMem hm]
    simp [allBlank, Bool.and_assoc]
  rw [remainder, remainder, halone, beforeLastLine_append_of_notMem hm,
    behindFirstLine_append_of_notMem hm, List.append_assoc]

/-- Whole lines before a stretch stay. -/
lemma remainder_append (hp : lastLine p = []) (b q : Text) :
    remainder (p ++ b) q = p ++ remainder b q := by
  rw [remainder, remainder, isAlone, isAlone, lastLine_append hp, beforeLastLine_append hp]
  split <;> simp

/-- What follows a line feed behind a stretch stays. -/
lemma remainder_append_feed (ha : '\n' ∉ a) (p t : Text) :
    remainder p (a ++ '\n' :: t) = remainder p (a ++ ['\n']) ++ t := by
  simp only [remainder, isAlone, firstLine_append_of_notMem ha, behindFirstLine_append_of_notMem ha,
    firstLine_feed, behindFirstLine_feed]
  split <;> simp

/-- What is left up to a line feed behind a stretch are whole lines. -/
lemma lastLine_remainder (ha : '\n' ∉ a) (p : Text) :
    lastLine (remainder p (a ++ ['\n'])) = [] := by
  simp only [remainder, behindFirstLine_append_of_notMem ha, behindFirstLine_feed]
  split
  · simpa using lastLine_beforeLastLine p
  · rw [← List.append_assoc, lastLine_append_feed]
    rfl

/-! ### Offsets -/

lemma moved_of_lt {e : Splice} {s : Span} (h : s.start < e.stop) : e.moved s = s :=
  if_neg (Nat.not_le.mpr h)

/-- A stretch behind a deletion moves up to what stands before the deletion. -/
lemma moved_deletion (x y z w : Text) :
    (Splice.deletion (size x) (size (x ++ y))).moved
        ⟨size (x ++ (y ++ z)), size (x ++ (y ++ (z ++ w)))⟩
      = ⟨size (x ++ z), size (x ++ (z ++ w))⟩ := by
  have hle : size (x ++ y) ≤ size (x ++ (y ++ z)) := by
    simp only [Text.size_append]
    omega
  rw [Splice.moved, Splice.deletion, if_pos hle]
  simp only [Text.size_append, Text.size, Span.mk.injEq]
  omega

lemma size_le_stop_removal (before w behind : Text) : size (before ++ w)
    ≤ (removal (before ++ (w ++ behind)) ⟨size before, size (before ++ w)⟩).stop := by
  by_cases h : isAlone before behind
  · obtain ⟨line, -, hremoval⟩ := removal_of_isAlone h w
    rw [hremoval, Splice.deletion]
    simp only [Text.size_append]
    omega
  · rw [removal_of_not_isAlone h]
    rfl

/-! ### Two stretches -/

/-- What is left by two removals, from what is left by the first one. -/
lemma removeBoth_eq {before w behind before' behind' : Text} {second : Span} (w' : Text)
    (hrest : remainder before behind = before' ++ (w' ++ behind'))
    (hmoved : (removal (before ++ (w ++ behind)) ⟨size before, size (before ++ w)⟩).moved second
      = ⟨size before', size (before' ++ w')⟩) :
    removeBoth (before ++ (w ++ behind)) ⟨size before, size (before ++ w)⟩ second
      = remainder before' behind' := by
  rw [removeBoth]
  simp only [applyAll_removal]
  rw [hmoved, hrest, applyAll_removal]

variable (p u m v q : Text)

/-- Two stretches of a text are removed, the last one first: the other one stays where it is. -/
lemma removeBoth_back {behind : Text} (hu : u ≠ [])
    (hrest : remainder (p ++ (u ++ m)) q = p ++ (u ++ behind)) :
    removeBoth (p ++ (u ++ (m ++ (v ++ q)))) ⟨size (p ++ (u ++ m)), size (p ++ (u ++ (m ++ v)))⟩
      ⟨size p, size (p ++ u)⟩ = remainder p behind := by
  have hsource : p ++ (u ++ (m ++ (v ++ q))) = (p ++ (u ++ m)) ++ (v ++ q) := by simp
  have hstop : p ++ (u ++ (m ++ v)) = (p ++ (u ++ m)) ++ v := by simp
  rw [hsource, hstop]
  refine removeBoth_eq u hrest (moved_of_lt ?_)
  have hlt : size p < size (p ++ (u ++ m) ++ v) := by
    have hpos := Text.size_pos hu
    simp only [Text.size_append]
    omega
  exact Nat.lt_of_lt_of_le hlt (size_le_stop_removal _ v q)

/-- Of two stretches on one line, the first to go leaves the line to the other one. -/
lemma removeBoth_comm_of_notMem (hu : endsSolid u) (hv : beginsSolid v) (hm : '\n' ∉ m) :
    removeBoth (p ++ (u ++ (m ++ (v ++ q)))) ⟨size p, size (p ++ u)⟩
        ⟨size (p ++ (u ++ m)), size (p ++ (u ++ (m ++ v)))⟩
      = removeBoth (p ++ (u ++ (m ++ (v ++ q))))
        ⟨size (p ++ (u ++ m)), size (p ++ (u ++ (m ++ v)))⟩ ⟨size p, size (p ++ u)⟩ := by
  have hfirst : ¬isAlone p (m ++ (v ++ q)) := by
    intro halone
    rw [isAlone, Bool.and_eq_true] at halone
    obtain ⟨x, hx⟩ := exists_feed_of_allBlank_firstLine (Text.beginsSolid_append hv q) halone.2
    exact hm (hx ▸ by simp)
  have hlast : ¬isAlone (p ++ (u ++ m)) q := by
    intro halone
    rw [isAlone, Bool.and_eq_true, ← List.append_assoc] at halone
    obtain ⟨x, hx⟩ := exists_feed_of_allBlank (Text.endsSolid_append p hu) halone.1
    exact hm (hx ▸ by simp)
  calc
    _ = remainder (p ++ m) q := by
        refine removeBoth_eq v ?_ ?_
        · rw [remainder, if_neg hfirst, List.append_assoc]
        · rw [removal_of_not_isAlone hfirst, moved_deletion, List.append_assoc]
    _ = remainder p (m ++ q) := remainder_comm hm p q
    _ = _ := by
        refine (removeBoth_back p u m v q (Text.ne_nil_of_endsSolid hu) ?_).symm
        rw [remainder, if_neg hlast]
        simp

/-- A stretch behind a line feed moves up to what is left of the text before it. -/
lemma moved_removal_feed {a : Text} (ha : '\n' ∉ a) (b : Text) :
    (removal (p ++ (u ++ (a ++ '\n' :: (b ++ (v ++ q))))) ⟨size p, size (p ++ u)⟩).moved
        ⟨size (p ++ (u ++ (a ++ '\n' :: b))), size (p ++ (u ++ (a ++ '\n' :: (b ++ v))))⟩
      = ⟨size (remainder p (a ++ ['\n']) ++ b), size (remainder p (a ++ ['\n']) ++ (b ++ v))⟩ := by
  have hsame (t : Text) : isAlone p (a ++ '\n' :: t) = isAlone p (a ++ ['\n']) := by
    simp only [isAlone, firstLine_append_of_notMem ha, firstLine_feed]
  have hrest (t : Text) : behindFirstLine (a ++ '\n' :: t) = t := by
    rw [behindFirstLine_append_of_notMem ha, behindFirstLine_feed]
  by_cases halone : isAlone p (a ++ '\n' :: (b ++ (v ++ q)))
  · obtain ⟨line, hline, hremoval⟩ := removal_of_isAlone halone u
    have hline' : line = a ++ ['\n'] := by
      rw [hrest, ← List.singleton_append, ← List.append_assoc] at hline
      exact (List.append_cancel_right hline).symm
    have hbefore (t : Text) : p ++ t = beforeLastLine p ++ (lastLine p ++ t) := by
      rw [← List.append_assoc, beforeLastLine_append_lastLine]
    have hmoved := moved_deletion (beforeLastLine p) (lastLine p ++ (u ++ line)) b v
    rw [hremoval, remainder, if_pos ((hsame _).symm.trans halone), hrest, List.append_nil, ← hmoved,
      hbefore, hbefore, hbefore, hline']
    simp
  · have hmoved := moved_deletion p u (a ++ '\n' :: b) v
    rw [removal_of_not_isAlone halone, remainder, if_neg fun h => halone ((hsame _).trans h)]
    simpa using hmoved

/-- Of two stretches with a line feed between them, each one goes on its own. -/
lemma removeBoth_comm_of_feed (hu : u ≠ []) {a b : Text} (ha : '\n' ∉ a) (hm : m = a ++ '\n' :: b) :
    removeBoth (p ++ (u ++ (m ++ (v ++ q)))) ⟨size p, size (p ++ u)⟩
        ⟨size (p ++ (u ++ m)), size (p ++ (u ++ (m ++ v)))⟩
      = removeBoth (p ++ (u ++ (m ++ (v ++ q))))
        ⟨size (p ++ (u ++ m)), size (p ++ (u ++ (m ++ v)))⟩ ⟨size p, size (p ++ u)⟩ := by
  have hfront : remainder p (m ++ (v ++ q)) = remainder p (a ++ ['\n']) ++ (b ++ (v ++ q)) := by
    rw [hm, List.append_assoc, List.cons_append, remainder_append_feed ha]
  have hback : remainder (p ++ (u ++ m)) q = p ++ (u ++ (a ++ '\n' :: remainder b q)) := by
    have hlines : lastLine (p ++ (u ++ (a ++ ['\n']))) = [] := by
      simpa using lastLine_append_feed (p ++ (u ++ a)) []
    have hparts : p ++ (u ++ m) = p ++ (u ++ (a ++ ['\n'])) ++ b := by simp [hm]
    rw [hparts, remainder_append hlines]
    simp
  calc
    _ = remainder (remainder p (a ++ ['\n']) ++ b) q := by
        refine removeBoth_eq v ?_ ?_
        · rw [hfront, List.append_assoc]
        · simpa only [hm, List.append_assoc, List.cons_append] using moved_removal_feed p u v q ha b
    _ = remainder p (a ++ ['\n']) ++ remainder b q := remainder_append (lastLine_remainder ha p) b q
    _ = remainder p (a ++ '\n' :: remainder b q) := (remainder_append_feed ha p _).symm
    _ = _ := (removeBoth_back p u m v q hu hback).symm

/-- **It does not matter which one of two stretches is removed first.** -/
theorem removeBoth_comm (hu : endsSolid u) (hv : beginsSolid v) :
    removeBoth (p ++ (u ++ (m ++ (v ++ q)))) ⟨size p, size (p ++ u)⟩
        ⟨size (p ++ (u ++ m)), size (p ++ (u ++ (m ++ v)))⟩
      = removeBoth (p ++ (u ++ (m ++ (v ++ q))))
        ⟨size (p ++ (u ++ m)), size (p ++ (u ++ (m ++ v)))⟩ ⟨size p, size (p ++ u)⟩ := by
  by_cases hm : '\n' ∈ m
  · obtain ⟨a, b, hparts, ha⟩ := List.eq_append_cons_of_mem hm
    exact removeBoth_comm_of_feed p u m v q (Text.ne_nil_of_endsSolid hu) ha hparts
  · exact removeBoth_comm_of_notMem p u m v q hu hv hm

/-! ### Two elements -/

variable {source out₁ out₂ : Text} {d d₁ d₂ : Document} {style : Style} {id₁ id₂ : String}
  {i j i' j' : Nat}

/-- The removal of two elements of a text, one after the other. -/
lemma remove_eq_removeBoth (hdocument : document source = .ok d)
    (hi : marked d id₁ style = .ok i) (hout : remove source id₁ style = .ok out₁)
    (hd : document out₁ = .ok d₁) (hj : marked d₁ id₂ style = .ok j') {s : Span}
    (hspan : (nodeAt d₁ j').span = (removal source (nodeAt d i).span).moved s) :
    remove out₁ id₂ style = .ok (removeBoth source (nodeAt d i).span s) := by
  rw [remove, hdocument] at hout
  simp only [bind, Except.bind, hi] at hout
  obtain rfl := Except.ok.inj hout
  rw [remove, hd]
  simp only [bind, Except.bind, hj, hspan]
  rfl

/-- **It does not matter which one of two elements is removed first**, if neither is within the
other and the one that stays is found where the removal of the other one leaves it. -/
theorem remove_comm (hdocument : document source = .ok d) (hi : marked d id₁ style = .ok i)
    (hj : marked d id₂ style = .ok j)
    (hij : ¬(nodeAt d i).span.within (nodeAt d j).span)
    (hji : ¬(nodeAt d j).span.within (nodeAt d i).span)
    (hout₁ : remove source id₁ style = .ok out₁) (hd₁ : document out₁ = .ok d₁)
    (hj' : marked d₁ id₂ style = .ok j')
    (hspan₁ : (nodeAt d₁ j').span = (removal source (nodeAt d i).span).moved (nodeAt d j).span)
    (hout₂ : remove source id₂ style = .ok out₂) (hd₂ : document out₂ = .ok d₂)
    (hi' : marked d₂ id₁ style = .ok i')
    (hspan₂ : (nodeAt d₂ i').span = (removal source (nodeAt d j).span).moved (nodeAt d i).span) :
    ∃ out, remove out₁ id₂ style = .ok out ∧ remove out₂ id₁ style = .ok out := by
  rw [remove_eq_removeBoth hdocument hi hout₁ hd₁ hj' hspan₁,
    remove_eq_removeBoth hdocument hj hout₂ hd₂ hi' hspan₂]
  refine ⟨_, rfl, congrArg Except.ok ?_⟩
  have hlaid := isLaid_of_document hdocument
  have hlt := lt_of_marked hi
  have hlt' := lt_of_marked hj
  rcases apart_of_not_within hlaid hlt hlt' hij hji with hle | hle
  · obtain ⟨p, u, m, v, q, rfl, hs, hs', hu, hv⟩ := exists_parts_of_le hlaid hlt hlt' hle
    rw [hs, hs', removeBoth_comm p u m v q hu hv]
  · obtain ⟨p, u, m, v, q, rfl, hs, hs', hu, hv⟩ := exists_parts_of_le hlaid hlt' hlt hle
    rw [hs, hs', removeBoth_comm p u m v q hu hv]

/-- A list with something on the one line of its content. -/
def lineSource (content : String) : Text :=
  "<a>\n".toList ++ content.toList ++ "\n</a>".toList

/-- Two elements on one line, the line of which goes with the second one. -/
theorem remove_comm_of_line :
    ∃ out, remove (lineSource "   <b data-component-id='y' />") "y" .standard = .ok out
      ∧ remove (lineSource "  <b data-component-id='x' /> ") "x" .standard = .ok out := by
  set source := lineSource "  <b data-component-id='x' /> <b data-component-id='y' />" with hsource
  have hdocument (content : String) (h : (document (lineSource content)).toOption.isSome) :
      document (lineSource content) = .ok (indexOf (lineSource content)) := document_eq_ok h
  have hi : marked (indexOf source) "x" .standard = .ok 1 := eq_ok_of_toOption (by decide +kernel)
  have hj : marked (indexOf source) "y" .standard = .ok 2 := eq_ok_of_toOption (by decide +kernel)
  have hout₁ : remove source "x" .standard = .ok (lineSource "   <b data-component-id='y' />") :=
    eq_ok_of_toOption (by decide +kernel)
  have hout₂ : remove source "y" .standard = .ok (lineSource "  <b data-component-id='x' /> ") :=
    eq_ok_of_toOption (by decide +kernel)
  have hj' : marked (indexOf (lineSource "   <b data-component-id='y' />")) "y" .standard = .ok 1 :=
    eq_ok_of_toOption (by decide +kernel)
  have hi' : marked (indexOf (lineSource "  <b data-component-id='x' /> ")) "x" .standard = .ok 1 :=
    eq_ok_of_toOption (by decide +kernel)
  exact remove_comm (hdocument _ (by decide +kernel)) hi hj (by decide +kernel) (by decide +kernel)
    hout₁ (hdocument _ (by decide +kernel)) hj' (by decide +kernel) hout₂
    (hdocument _ (by decide +kernel)) hi' (by decide +kernel)

end CanvasSync.Edit
