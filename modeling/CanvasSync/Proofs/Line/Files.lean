import CanvasSync.Line.Edit
import CanvasSync.Proofs.Text.Cuts
import CanvasSync.Proofs.Text.Solid

/-!
The line of a file that an update changes.

* `pieces_append`, `exists_pieces_append`: the lines before a line feed, and the line behind it;
* `withoutLineEnd_append`: what is solid on a line is no part of its end;
* `IsLine`: a text around one of its lines;
* `exists_isLine_of_firstFrom?`: the first line with a property stands behind lines without it;
* `updateFile_eq_of_isLine`: an update changes the line that is found, and nothing else;
* `exists_of_locateExact?`: the same of a line that is found for a text;
* `exists_locateExact?_eq`: the line that is found for a text.
-/

namespace CanvasSync

namespace Text

variable {t u p a l : Text}

/-! ### Lines -/

/-- The lines of a text up to a line feed, and those behind it. -/
lemma pieces_append (ha : a = [] ∨ ∃ b, a = b ++ ['\n']) (t : Text) :
    pieces (a ++ t) = pieces a ++ pieces t := by
  rcases ha with rfl | ⟨b, rfl⟩
  · rfl
  · induction b with
    | nil => rfl
    | cons c b ih =>
        rw [List.cons_append, List.cons_append, pieces, pieces]
        split
        · rw [ih, List.cons_append]
        · rw [ih]
          cases h : pieces (b ++ ['\n']) with
          | nil =>
              have hflatten := flatten_pieces (b ++ ['\n'])
              rw [h] at hflatten
              exact absurd hflatten.symm (by simp)
          | cons p ps => rfl

/-- The first line goes on up to the first line feed. -/
lemma exists_pieces_append (hl : '\n' ∉ l) (hne : l ≠ []) (t : Text) :
    ∃ u ps, pieces (l ++ t) = (l ++ u) :: ps ∧ t = u ++ ps.flatten := by
  induction l with
  | nil => exact absurd rfl hne
  | cons c l ih =>
      rw [List.mem_cons, not_or] at hl
      rw [List.cons_append, pieces, if_neg (Ne.symm hl.1)]
      by_cases hnil : l = []
      · subst hnil
        rw [List.nil_append]
        cases h : pieces t with
        | nil =>
            have hflatten := flatten_pieces t
            rw [h] at hflatten
            exact ⟨[], [], rfl, hflatten.symm⟩
        | cons p ps =>
            have hflatten := flatten_pieces t
            rw [h] at hflatten
            exact ⟨p, ps, rfl, hflatten.symm⟩
      · obtain ⟨u, ps, hpieces, ht⟩ := ih hl.2 hnil
        exact ⟨u, ps, by rw [hpieces]; rfl, ht⟩

lemma stripEnd?_append_singleton (x c : Char) (t : Text) :
    stripEnd? [x] (t ++ [c]) = if x = c then some t else none := by
  rw [stripEnd?, List.reverse_singleton, List.reverse_append, List.reverse_singleton,
    List.singleton_append, strip?]
  split
  · simp [strip?]
  · rfl

/-- What is solid on a line is no part of its end. -/
lemma withoutLineEnd_append (hl : endsSolid l) (t : Text) :
    withoutLineEnd (l ++ t) = l ++ withoutLineEnd t := by
  have hsolid (x : Char) (hx : isBlank x) : stripEnd? [x] l = none := by
    rcases List.eq_nil_or_concat l with rfl | ⟨l, d, rfl⟩
    · cases hl
    · rw [List.concat_eq_append] at hl ⊢
      rw [stripEnd?_append_singleton, if_neg]
      rintro rfl
      simp [endsSolid, hx] at hl
  rcases List.eq_nil_or_concat t with rfl | ⟨t, c, rfl⟩
  · rw [List.append_nil, withoutLineEnd, hsolid '\n' (by decide)]
    exact (List.append_nil l).symm
  · rw [List.concat_eq_append, ← List.append_assoc, withoutLineEnd, withoutLineEnd,
      stripEnd?_append_singleton, stripEnd?_append_singleton]
    by_cases hc : '\n' = c
    · rw [if_pos hc, if_pos hc]
      rcases List.eq_nil_or_concat t with rfl | ⟨t, d, rfl⟩
      · simp only [List.append_nil]
        rw [hsolid '\r' (by decide)]
        simp [stripEnd?, strip?]
      · rw [List.concat_eq_append, ← List.append_assoc]
        simp only [stripEnd?_append_singleton]
        split <;> simp
    · rw [if_neg hc, if_neg hc, List.append_assoc]

/-- A line is what stands before a line feed or the end. -/
lemma exists_of_mem_pieces {p : Text} (hp : p ∈ pieces t) :
    ∃ x, '\n' ∉ x ∧ (p = x ∨ p = x ++ ['\n']) := by
  induction t generalizing p with
  | nil => cases hp
  | cons c t ih =>
      rw [pieces] at hp
      split at hp
      · rcases List.mem_cons.mp hp with rfl | hp
        · exact ⟨[], List.not_mem_nil, .inr rfl⟩
        · exact ih hp
      · next hc =>
          cases hpieces : pieces t with
          | nil =>
              rw [hpieces] at hp
              obtain rfl := List.mem_singleton.mp hp
              exact ⟨[c], by simpa using Ne.symm hc, .inl rfl⟩
          | cons q qs =>
              rw [hpieces] at hp ih
              rcases List.mem_cons.mp hp with rfl | hp
              · obtain ⟨x, hx, hq⟩ := ih List.mem_cons_self
                refine ⟨c :: x, by simpa using ⟨Ne.symm hc, hx⟩, ?_⟩
                exact hq.imp (congrArg (c :: ·)) (congrArg (c :: ·))
              · exact ih (List.mem_cons_of_mem _ hp)

/-- A line is what is left of it without its end, and this end. -/
lemma exists_lineEnd (p : Text) : ∃ e, p = withoutLineEnd p ++ e
    ∧ (e = [] ∨ e = ['\n'] ∨ e = ['\r', '\n']) := by
  rw [withoutLineEnd]
  split
  · exact ⟨[], (List.append_nil p).symm, .inl rfl⟩
  · next body hfeed =>
      rw [eq_of_stripEnd? hfeed]
      cases hreturn : stripEnd? ['\r'] body with
      | none => exact ⟨['\n'], rfl, .inr (.inl rfl)⟩
      | some body' =>
          rw [eq_of_stripEnd? hreturn, List.append_assoc]
          exact ⟨['\r', '\n'], rfl, .inr (.inr rfl)⟩

/-- A line begins with what is left of it without its end. -/
lemma prefix_withoutLineEnd (p : Text) : withoutLineEnd p <+: p := by
  obtain ⟨e, he, -⟩ := exists_lineEnd p
  exact ⟨e, he.symm⟩

/-- A text around one of its lines: the lines before it with their ends, the line, its end, and the
lines behind it with their ends. -/
structure IsLine (source : Text) (before : List Text) (line lineEnd : Text) (behind : List Text) :
    Prop where
  pieces : pieces source = before ++ (line ++ lineEnd) :: behind
  line : withoutLineEnd (line ++ lineEnd) = line
  lineEnd : lineEnd = [] ∨ lineEnd = ['\n'] ∨ lineEnd = ['\r', '\n']

/-- The parts of a text around one of its lines make it up. -/
lemma IsLine.flatten {source line lineEnd : Text} {before behind : List Text}
    (h : IsLine source before line lineEnd behind) :
    source = before.flatten ++ (line ++ (lineEnd ++ behind.flatten)) := by
  rw [← flatten_pieces source, h.pieces]
  simp

/-- There is no line feed on a line without its end. -/
lemma notMem_withoutLineEnd {p : Text} (hp : p ∈ pieces t) : '\n' ∉ withoutLineEnd p := by
  obtain ⟨x, hx, rfl | rfl⟩ := exists_of_mem_pieces hp
  · exact fun hmem => hx ((prefix_withoutLineEnd p).subset hmem)
  · rw [withoutLineEnd, stripEnd?_append_singleton, if_pos rfl]
    simp only
    cases hreturn : stripEnd? ['\r'] x with
    | none => exact hx
    | some body => exact fun hmem => hx (eq_of_stripEnd? hreturn ▸ List.mem_append_left _ hmem)

end Text

namespace Line

open CanvasSync.Text (contains pieces withoutLineEnd)

variable {a l m p : Text} {u : Updates}

/-- The first line of a list with a property is the one behind lines without it. -/
lemma firstFrom?_append {q : Text → Bool} {xs ys : List Text} (hxs : ∀ x ∈ xs, q x = false)
    (hl : q l) (i : Nat) : firstFrom? q i (xs ++ l :: ys) = some ⟨i + xs.length, l⟩ := by
  induction xs generalizing i with
  | nil => simp [firstFrom?, hl]
  | cons x xs ih =>
      rw [List.forall_mem_cons] at hxs
      rw [List.cons_append, firstFrom?, hxs.1, if_neg Bool.false_ne_true, ih hxs.2]
      simp [Nat.add_assoc, Nat.add_comm 1]

/-- The first line with a property is one of the list, behind lines without it. -/
lemma exists_of_firstFrom? {q : Text → Bool} {xs : List Text} {i : Nat} {f : Located}
    (h : firstFrom? q i xs = some f) :
    ∃ ys zs, xs = ys ++ f.text :: zs ∧ f.index = i + ys.length ∧ q f.text
      ∧ ∀ y ∈ ys, q y = false := by
  induction xs generalizing i with
  | nil => cases h
  | cons x xs ih =>
      rw [firstFrom?] at h
      split at h
      · next hx =>
          obtain rfl := Option.some.inj h
          exact ⟨[], xs, rfl, rfl, hx, List.forall_mem_nil _⟩
      · next hx =>
          obtain ⟨ys, zs, hxs, hindex, hq, hys⟩ := ih h
          refine ⟨x :: ys, zs, by rw [hxs, List.cons_append], ?_, hq, ?_⟩
          · rw [hindex, List.length_cons]
            omega
          · exact List.forall_mem_cons.mpr ⟨by simpa using hx, hys⟩

/-- The first line of a text with a property stands behind lines without it. -/
lemma exists_isLine_of_firstFrom? {q : Text → Bool} {source : Text} {f : Located}
    (h : firstFrom? q 0 (Text.lines source) = some f) :
    ∃ before lineEnd behind, Text.IsLine source before f.text lineEnd behind
      ∧ f.index = before.length ∧ q f.text ∧ ∀ p ∈ before, q (withoutLineEnd p) = false := by
  obtain ⟨ys, zs, hlines, hindex, hq, hys⟩ := exists_of_firstFrom? h
  obtain ⟨before, rest, hpieces, rfl, hrest⟩ := List.map_eq_append_iff.mp hlines
  obtain ⟨piece, behind, rfl, hpiece, -⟩ := List.map_eq_cons_iff.mp hrest
  obtain ⟨lineEnd, hlineEnd, hcases⟩ := Text.exists_lineEnd piece
  rw [hpiece] at hlineEnd
  refine ⟨before, lineEnd, behind, ⟨?_, ?_, hcases⟩, ?_, hq, fun p hp => ?_⟩
  · rw [hpieces, hlineEnd]
  · rw [← hlineEnd, hpiece]
  · rw [hindex, List.length_map, Nat.zero_add]
  · exact hys _ (List.mem_map_of_mem hp)

/-- A line with a part changed before its end. -/
lemma replaceBody_append {l lineEnd : Text} (hl : withoutLineEnd (l ++ lineEnd) = l)
    (f : Text → Text) : replaceBody f (l ++ lineEnd) = f l ++ lineEnd := by
  rw [replaceBody, hl, List.drop_left]

/-- **An update changes the line that is found**, and keeps its end and all other lines. -/
lemma updateFile_eq_of_isLine {source lineEnd : Text} {before behind : List Text} {f : Located}
    (hline : Text.IsLine source before f.text lineEnd behind) (hindex : f.index = before.length)
    (hfound : locate? source m = some f) (u : Updates) :
    updateFile? source m u = (if u.apply f.text = f.text then none
        else some (before.flatten ++ (u.apply f.text ++ (lineEnd ++ behind.flatten))))
      ∧ updateFile source m u
        = before.flatten ++ (u.apply f.text ++ (lineEnd ++ behind.flatten)) := by
  have hmodify : ((pieces source).modify f.index (replaceBody u.apply)).flatten
      = before.flatten ++ (u.apply f.text ++ (lineEnd ++ behind.flatten)) := by
    rw [hline.pieces, hindex, List.modify_eq_take_drop]
    simp [replaceBody_append hline.line]
  have hupdate : updateFile? source m u = (if u.apply f.text = f.text then none
      else some (before.flatten ++ (u.apply f.text ++ (lineEnd ++ behind.flatten)))) := by
    rw [updateFile?, hfound, ← hmodify]
  refine ⟨hupdate, ?_⟩
  rw [updateFile, hupdate]
  split
  · next hsame => rw [hsame, Option.getD_none]; exact hline.flatten
  · rfl

/-- An update changes the line that is found for a text, and keeps its end and all other lines. -/
theorem exists_of_locateExact? {source : Text} {f : Located} (h : locateExact? source m = some f) :
    ∃ b, source = ((pieces source).take f.index).flatten ++ (f.text ++ b)
      ∧ '\n' ∉ f.text ∧ contains f.text classMark ∧ contains f.text m
      ∧ ∀ u : Updates, updateFile source m u
        = ((pieces source).take f.index).flatten ++ (u.apply f.text ++ b) := by
  obtain ⟨before, lineEnd, behind, hline, hindex, hmarks, -⟩ := exists_isLine_of_firstFrom? h
  rw [Bool.and_eq_true] at hmarks
  have hlocate : locate? source m = some f := by
    rw [locate?, h]
  have hbefore : (pieces source).take f.index = before := by
    rw [hline.pieces, hindex, List.take_left]
  rw [hbefore]
  refine ⟨lineEnd ++ behind.flatten, hline.flatten, ?_, hmarks.1, hmarks.2,
    fun u => (updateFile_eq_of_isLine hline hindex hlocate u).2⟩
  rw [← hline.line]
  exact Text.notMem_withoutLineEnd (t := source) (by rw [hline.pieces]; simp)

/-- A line with a class attribute is the first one with a text if this is nowhere before it. -/
theorem exists_locateExact?_eq (ha : a = [] ∨ ∃ b, a = b ++ ['\n']) (hl : '\n' ∉ l)
    (hsolid : Text.endsSolid l) (hfresh : contains a m = false) (hmatch : contains l m)
    (hclass : contains l classMark) (tail : Text) :
    ∃ post rest, tail = post ++ rest
      ∧ locateExact? (a ++ (l ++ tail)) m = some ⟨(pieces a).length, l ++ post⟩
      ∧ ((pieces (a ++ (l ++ tail))).take (pieces a).length).flatten = a := by
  have hne : l ≠ [] := by
    rintro rfl
    cases hsolid
  obtain ⟨piece, ps, hpieces, htail⟩ := Text.exists_pieces_append hl hne tail
  have hall : pieces (a ++ (l ++ tail)) = pieces a ++ (l ++ piece) :: ps := by
    rw [Text.pieces_append ha, hpieces]
  have hpiece : withoutLineEnd piece ++ piece.drop (withoutLineEnd piece).length = piece :=
    List.prefix_iff_eq_append.mp (Text.prefix_withoutLineEnd piece)
  refine ⟨withoutLineEnd piece, piece.drop (withoutLineEnd piece).length ++ ps.flatten, ?_, ?_, ?_⟩
  · rw [← List.append_assoc, hpiece, ← htail]
  · have hlines : Text.lines (a ++ (l ++ tail)) = (pieces a).map withoutLineEnd
        ++ (l ++ withoutLineEnd piece) :: ps.map withoutLineEnd := by
      rw [Text.lines, hall, List.map_append, List.map_cons, Text.withoutLineEnd_append hsolid]
    have hbefore : ∀ x ∈ (pieces a).map withoutLineEnd,
        (contains x classMark && contains x m) = false := by
      intro x hx
      obtain ⟨p, hp, rfl⟩ := List.mem_map.mp hx
      have hinfix : withoutLineEnd p <:+: a := by
        have hflatten : p <:+: (pieces a).flatten := List.infix_of_mem_flatten hp
        rw [Text.flatten_pieces] at hflatten
        exact (Text.prefix_withoutLineEnd p).isInfix.trans hflatten
      rw [Text.contains_eq_false_of_isInfix hfresh hinfix, Bool.and_false]
    have hline : (contains (l ++ withoutLineEnd piece) classMark
        && contains (l ++ withoutLineEnd piece) m) = true := by
      have hinfix : l <:+: l ++ withoutLineEnd piece := (List.prefix_append l _).isInfix
      rw [Bool.and_eq_true]
      exact ⟨Text.contains_of_isInfix hclass hinfix, Text.contains_of_isInfix hmatch hinfix⟩
    rw [locateExact?, hlines, firstFrom?_append hbefore hline, List.length_map, Nat.zero_add]
  · rw [hall, List.take_left, Text.flatten_pieces]

end Line

end CanvasSync
