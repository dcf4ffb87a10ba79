import CanvasSync.Assist.Position
import CanvasSync.Proofs.Text.Cuts
import Mathlib.Data.List.Basic
import Mathlib.Tactic.Common

/-!
Positions and offsets.

Both directions count through the text from its start: the one until an offset is reached, the other
until a line and a column are. The position reached behind a beginning of the text is what they have
in common.

* `behind`: the position behind a text, its line a count of line feeds (`line_behind`) and its
  column the characters since the last one (`origin_behind`);
* `offset_ofOffset`: the position of the end of a part leads back to that end;
* `before_behind`: positions grow with what stands before them;
* `IsLineIn`, `exists_isLineIn`: a line of a text with what stands around it, for as many lines as
  there are line feeds, and one more;
* `offset_of_isLineIn`, `offset_eq_size`: the offset of a column of a line, and of a line that is not
  there;
* `offset_positions`: positions and offsets lead back to each other.
-/

namespace CanvasSync.Assist

variable {a b t line : Text} {c : Char} {n m : Nat} {p here : Position}

namespace Position

/-! ### The position behind a text -/

/-- The position behind a text that starts at `p`. -/
def behind (p : Position) (t : Text) : Position := t.foldl after p

lemma behind_append (p : Position) (a b : Text) : p.behind (a ++ b) = (p.behind a).behind b :=
  List.foldl_append

lemma line_behind (p : Position) (t : Text) : (p.behind t).line = p.line + t.count '\n' := by
  induction t generalizing p with
  | nil => rfl
  | cons c t ih =>
      show ((p.after c).behind t).line = _
      rw [ih, List.count_cons]
      by_cases hc : c = '\n'
      · simp only [after, hc, if_true, beq_self_eq_true]
        omega
      · simp only [after, hc, if_false, beq_iff_eq]
        omega

/-- Behind a line feed, and at the start, the column is the first one. -/
lemma origin_behind (h : ∀ c ∈ a.getLast?, c = '\n') : origin.behind a = ⟨a.count '\n', 0⟩ := by
  have hline : (origin.behind a).line = a.count '\n' := by
    rw [line_behind]
    exact Nat.zero_add _
  have hcolumn : (origin.behind a).column = 0 := by
    rcases List.eq_nil_or_concat a with rfl | ⟨u, c, rfl⟩
    · rfl
    · obtain rfl := h c (by simp)
      rw [List.concat_eq_append, behind_append]
      rfl
  rw [← hline, ← hcolumn]

/-- Behind a text the line is not an earlier one, and on the same line the column is not an earlier
one. -/
lemma le_behind (p : Position) (t : Text) :
    p.line ≤ (p.behind t).line ∧ ((p.behind t).line = p.line → p.column ≤ (p.behind t).column) := by
  induction t generalizing p with
  | nil => exact ⟨Nat.le_refl _, fun _ => Nat.le_refl _⟩
  | cons c t ih =>
      have hstep : p.behind (c :: t) = (p.after c).behind t := rfl
      obtain ⟨hline, hcolumn⟩ := ih (p.after c)
      rw [← hstep] at hline hcolumn
      by_cases hc : c = '\n'
      · simp only [after, if_pos hc] at hline
        exact ⟨by omega, fun h => by omega⟩
      · simp only [after, if_neg hc] at hline hcolumn
        exact ⟨hline, fun h => by have := hcolumn h; omega⟩

/-- A position stands on no later line and column than there are characters before it. -/
lemma behind_le (p : Position) (t : Text) :
    (p.behind t).line + (p.behind t).column ≤ p.line + p.column + t.length := by
  induction t generalizing p with
  | nil => exact Nat.le_refl _
  | cons x t ih =>
      have hstep : p.behind (x :: t) = (p.after x).behind t := rfl
      have hafter : (p.after x).line + (p.after x).column ≤ p.line + p.column + 1 := by
        unfold after
        split <;> simp only <;> omega
      have hrest := ih (p.after x)
      rw [hstep, List.length_cons]
      omega

/-- Whether a position stands before another one: on an earlier line, or on its line in an earlier
column. -/
def Before (p q : Position) : Prop := p.line < q.line ∨ p.line = q.line ∧ p.column < q.column

/-- Positions grow with what stands before them. -/
lemma before_behind (p : Position) (h : t ≠ []) : p.Before (p.behind t) := by
  obtain ⟨c, u, rfl⟩ := List.exists_cons_of_ne_nil h
  have hstep : p.behind (c :: u) = (p.after c).behind u := rfl
  obtain ⟨hline, hcolumn⟩ := le_behind (p.after c) u
  rw [← hstep] at hline hcolumn
  by_cases hc : c = '\n'
  · simp only [after, if_pos hc] at hline
    exact .inl (by omega)
  · simp only [after, if_neg hc] at hline hcolumn
    by_cases hsame : (p.behind (c :: u)).line = p.line
    · have hlt := hcolumn hsame
      exact .inr ⟨hsame.symm, by omega⟩
    · exact .inl (by omega)

/-! ### From an offset to its position and back -/

lemma advance_size (p : Position) (a b : Text) : p.advance (Text.size a) (a ++ b) = p.behind a := by
  induction a generalizing p with
  | nil =>
      rw [Text.size_nil]
      cases b <;> rfl
  | cons c a ih =>
      obtain ⟨k, hk⟩ : ∃ k, Text.size (c :: a) = k + 1 := by
        refine ⟨Text.size (c :: a) - 1, ?_⟩
        have hpos := c.utf8Size_pos
        rw [Text.size_cons]
        omega
      have hrest : k + 1 - c.utf8Size = Text.size a := by
        rw [← hk, Text.size_cons]
        omega
      rw [hk, List.cons_append, advance, hrest, ih]
      rfl

lemma ofOffset_size (a b : Text) : ofOffset (a ++ b) (Text.size a) = origin.behind a :=
  advance_size origin a b

/-- The position behind a text is not reached before one of its characters. -/
lemma not_reachedBy (p : Position) (c : Char) (t : Text) :
    reachedBy (p.behind (c :: t)) p c = false := by
  have hstep : p.behind (c :: t) = (p.after c).behind t := rfl
  obtain ⟨hline, hcolumn⟩ := le_behind (p.after c) t
  rw [← hstep] at hline hcolumn
  rw [reachedBy, Bool.and_eq_false_iff, decide_eq_false_iff_not, Bool.or_eq_false_iff,
    decide_eq_false_iff_not, decide_eq_false_iff_not]
  by_cases hc : c = '\n'
  · simp only [after, if_pos hc] at hline
    exact .inl (by omega)
  · simp only [after, if_neg hc] at hline hcolumn
    by_cases hsame : p.line = (p.behind (c :: t)).line
    · have := hcolumn hsame.symm
      exact .inr ⟨by omega, hc⟩
    · exact .inl hsame

lemma offsetFrom_behind (p : Position) (n : Nat) (a b : Text) :
    offsetFrom (p.behind a) p n (a ++ b) = n + Text.size a := by
  induction a generalizing p n with
  | nil =>
      cases b with
      | nil => rfl
      | cons c b =>
          have hreached : reachedBy p p c = true := by simp [reachedBy]
          rw [List.nil_append, offsetFrom]
          exact if_pos hreached
  | cons c a ih =>
      have hstep : p.behind (c :: a) = (p.after c).behind a := rfl
      rw [List.cons_append, offsetFrom, not_reachedBy, if_neg Bool.false_ne_true, hstep, ih,
        Text.size_cons, Nat.add_assoc]

/-- **The position of the end of a part leads back to that end.** -/
theorem offset_ofOffset (a b : Text) :
    offset (a ++ b) (ofOffset (a ++ b) (Text.size a)) = Text.size a := by
  rw [ofOffset_size, offset, offsetFrom_behind, Nat.zero_add]

/-! ### From a position to its offset -/

/-- No character is reached on an earlier line. -/
lemma offsetFrom_append (h : a ≠ [] → here.line + a.dropLast.count '\n' < p.line) (b : Text) :
    offsetFrom p here n (a ++ b) = offsetFrom p (here.behind a) (n + Text.size a) b := by
  induction a generalizing here n with
  | nil => rfl
  | cons c a ih =>
      have hlt := h (List.cons_ne_nil c a)
      have hreached : reachedBy p here c = false := by
        have hne : here.line ≠ p.line := by omega
        simp [reachedBy, hne]
      have hrest : a ≠ [] → (here.after c).line + a.dropLast.count '\n' < p.line := by
        intro ha
        rw [List.dropLast_cons_of_ne_nil ha, List.count_cons] at hlt
        by_cases hc : c = '\n'
        · simp only [hc, beq_self_eq_true, if_true] at hlt
          simp only [after, hc, if_true]
          omega
        · simp only [beq_iff_eq, hc, if_false] at hlt
          simp only [after, hc, if_false]
          omega
      rw [List.cons_append, offsetFrom, hreached, if_neg Bool.false_ne_true, ih hrest,
        Text.size_cons, Nat.add_assoc]
      rfl

/-- On the line of a position the characters are counted, up to its column or to the line feed. -/
lemma offsetFrom_line (hline : '\n' ∉ line) (hb : ∀ c ∈ b.head?, c = '\n')
    (hsame : here.line = p.line) (hle : here.column ≤ p.column) :
    offsetFrom p here n (line ++ b) = n + Text.size (line.take (p.column - here.column)) := by
  induction line generalizing here n with
  | nil =>
      rw [List.nil_append, List.take_nil, Text.size_nil, Nat.add_zero]
      cases b with
      | nil => rfl
      | cons c b =>
          have hreached : reachedBy p here c = true := by simp [reachedBy, hsame, hb c rfl]
          rw [offsetFrom, if_pos hreached]
  | cons c line ih =>
      rw [List.mem_cons, not_or] at hline
      have hc : c ≠ '\n' := Ne.symm hline.1
      by_cases hcolumn : here.column = p.column
      · have hreached : reachedBy p here c = true := by simp [reachedBy, hsame, hcolumn]
        rw [List.cons_append, offsetFrom, if_pos hreached, hcolumn, Nat.sub_self]
        rfl
      · have hreached : reachedBy p here c = false := by simp [reachedBy, hcolumn, hc]
        have hstep : here.after c = ⟨here.line, here.column + 1⟩ := by rw [after, if_neg hc]
        have hlt : here.column + 1 ≤ p.column := by omega
        obtain ⟨k, hk⟩ : ∃ k, p.column - here.column = k + 1 :=
          ⟨p.column - here.column - 1, by omega⟩
        have hrest : offsetFrom p ⟨here.line, here.column + 1⟩ (n + c.utf8Size) (line ++ b)
            = n + c.utf8Size + Text.size (line.take (p.column - (here.column + 1))) :=
          ih hline.2 hsame hlt
        rw [show p.column - (here.column + 1) = k by omega] at hrest
        rw [List.cons_append, offsetFrom, hreached, if_neg Bool.false_ne_true, hstep, hrest, hk,
          List.take_succ_cons, Text.size_cons, Nat.add_assoc]

end Position

/-! ### Lines -/

/-- Whether a text is a line, without its line feed, between what stands before and behind it. -/
structure IsLineIn (a line b : Text) : Prop where
  before : ∀ c ∈ a.getLast?, c = '\n'
  line : '\n' ∉ line
  behind : ∀ c ∈ b.head?, c = '\n'

/-- A text has as many lines as line feeds, and one more. -/
lemma exists_isLineIn (h : n ≤ t.count '\n') :
    ∃ a line b, t = a ++ (line ++ b) ∧ IsLineIn a line b ∧ a.count '\n' = n := by
  induction n generalizing t with
  | zero =>
      refine ⟨[], t.takeWhile (· ≠ '\n'), t.dropWhile (· ≠ '\n'), ?_, ⟨?_, ?_, ?_⟩, rfl⟩
      · rw [List.nil_append, List.takeWhile_append_dropWhile]
      · intro c hc
        cases hc
      · intro hmem
        have hall := List.all_eq_true.mp List.all_takeWhile '\n' hmem
        simp at hall
      · intro c hc
        have hhead := List.head?_dropWhile_not (fun c => decide (c ≠ '\n')) t
        rw [hc] at hhead
        simpa using hhead
  | succ n ih =>
      have hmem : '\n' ∈ t := List.count_pos_iff.mp (by omega)
      obtain ⟨u, v, rfl, hu⟩ := List.eq_append_cons_of_mem hmem
      have hcount (v : Text) : (u ++ '\n' :: v).count '\n' = v.count '\n' + 1 := by
        rw [List.count_append, List.count_eq_zero_of_not_mem hu, List.count_cons_self, Nat.zero_add]
      rw [hcount] at h
      obtain ⟨a, line, b, rfl, hline, ha⟩ := ih (Nat.le_of_succ_le_succ h)
      refine ⟨u ++ '\n' :: a, line, b, by simp, ⟨?_, hline.line, hline.behind⟩, ?_⟩
      · intro c hc
        rw [List.getLast?_append, List.getLast?_cons, Option.some_or] at hc
        cases hlast : a.getLast? with
        | none =>
            rw [hlast] at hc
            exact (Option.some.inj hc).symm
        | some d =>
            rw [hlast] at hc
            obtain rfl := Option.some.inj hc
            exact hline.before _ hlast
      · rw [hcount, ha]

namespace Position

/-- The offset of a column of a line, or of the end of the line if it has no such column. -/
lemma offset_of_isLineIn (h : IsLineIn a line b) (ha : a.count '\n' = p.line) :
    offset (a ++ (line ++ b)) p = Text.size a + Text.size (line.take p.column) := by
  have hskip : a ≠ [] → origin.line + a.dropLast.count '\n' < p.line := by
    intro hne
    obtain ⟨u, c, rfl⟩ := (List.eq_nil_or_concat a).resolve_left hne
    obtain rfl := h.before c (by simp)
    rw [← ha, List.concat_eq_append, List.dropLast_concat, List.count_append]
    show 0 + u.count '\n' < u.count '\n' + 1
    omega
  have hbehind := origin_behind h.before
  have hline : offsetFrom p ⟨a.count '\n', 0⟩ (Text.size a) (line ++ b)
      = Text.size a + Text.size (line.take (p.column - 0)) :=
    offsetFrom_line h.line h.behind ha (Nat.zero_le p.column)
  rw [offset, offsetFrom_append hskip, Nat.zero_add, hbehind, hline, Nat.sub_zero]

/-- The offset of a line that is not there is the end of the text. -/
lemma offset_eq_size (h : t.count '\n' < p.line) : offset t p = Text.size t := by
  have hskip : t ≠ [] → origin.line + t.dropLast.count '\n' < p.line := by
    intro _
    have hle := (List.dropLast_sublist t).count_le '\n'
    show 0 + t.dropLast.count '\n' < p.line
    omega
  have hoffset := offsetFrom_append (n := 0) hskip []
  rw [List.append_nil, Nat.zero_add] at hoffset
  exact hoffset

/-! ### Both directions -/

/-- **Positions and offsets lead back to each other.** The position of an offset between two
characters leads back to it, grows with it, and counts no more lines and columns than there are
characters. The offset of any position lies between two characters: at its column of its line, at the
end of its line if the column is too large, and at the end of the text if there is no such line. -/
theorem offset_positions (t : Text) :
    (∀ n, Text.IsBoundary n t → offset t (ofOffset t n) = n
        ∧ (ofOffset t n).line + (ofOffset t n).column ≤ t.length)
      ∧ (∀ m n, Text.IsBoundary m t → Text.IsBoundary n t → m < n →
          (ofOffset t m).Before (ofOffset t n))
      ∧ ∀ p : Position, Text.IsBoundary (offset t p) t ∧ offset t p ≤ Text.size t
          ∧ (p.line ≤ t.count '\n' → ∃ a line b, t = a ++ (line ++ b) ∧ IsLineIn a line b
              ∧ a.count '\n' = p.line
              ∧ (p.column ≤ line.length →
                  offset t p = Text.size a + Text.size (line.take p.column))
              ∧ (line.length ≤ p.column → offset t p = Text.size a + Text.size line))
          ∧ (t.count '\n' < p.line → offset t p = Text.size t) := by
  refine ⟨?_, ?_, ?_⟩
  · intro n hn
    obtain ⟨a, b, rfl, rfl⟩ := Text.isBoundary_iff.mp hn
    refine ⟨offset_ofOffset a b, ?_⟩
    have hle := behind_le origin a
    rw [ofOffset_size, List.length_append]
    simp only [origin] at hle ⊢
    omega
  · intro m n hm hn hlt
    obtain ⟨a, b, rfl, rfl⟩ := Text.isBoundary_iff.mp hm
    obtain ⟨x, y, htext, rfl⟩ := Text.isBoundary_iff.mp hn
    obtain ⟨u, rfl, rfl⟩ := Text.exists_eq_append_of_size_le htext (Nat.le_of_lt hlt)
    have hu : u ≠ [] := by
      rintro rfl
      rw [List.append_nil] at hlt
      exact Nat.lt_irrefl _ hlt
    rw [ofOffset_size, ← List.append_assoc, ofOffset_size, behind_append]
    exact before_behind _ hu
  · intro p
    rcases Nat.lt_or_ge (t.count '\n') p.line with hlt | hge
    · have hoffset := offset_eq_size hlt
      refine ⟨?_, Nat.le_of_eq hoffset, fun hle => absurd hlt (Nat.not_lt.mpr hle), fun _ => hoffset⟩
      rw [hoffset]
      exact Text.isBoundary_iff.mpr ⟨t, [], (List.append_nil t).symm, rfl⟩
    · obtain ⟨a, line, b, rfl, hline, ha⟩ := exists_isLineIn hge
      have hoffset := offset_of_isLineIn hline ha
      refine ⟨?_, ?_, fun _ => ⟨a, line, b, rfl, hline, ha, fun _ => hoffset, fun hle => ?_⟩,
        fun hlt => absurd hlt (Nat.not_lt.mpr hge)⟩
      · rw [hoffset, ← Text.size_append]
        refine Text.isBoundary_iff.mpr ⟨_, line.drop p.column ++ b, ?_, rfl⟩
        rw [List.append_assoc, ← List.append_assoc (line.take p.column), List.take_append_drop]
      · have hsplit := congrArg Text.size (List.take_append_drop p.column line)
        rw [Text.size_append] at hsplit
        rw [hoffset, Text.size_append, Text.size_append]
        omega
      · rw [hoffset, List.take_of_length_le hle]

/-- Two lines, the first with a character of two bytes. -/
theorem offset_positions_twoLines :
    let t := "é\nab".toList
    Text.IsBoundary 2 t ∧ Text.IsBoundary 3 t ∧ offset t (ofOffset t 3) = 3
      ∧ (ofOffset t 2).Before (ofOffset t 3) ∧ offset t ⟨5, 0⟩ = Text.size t := by
  intro t
  have htwo : Text.IsBoundary 2 t := by decide
  have hthree : Text.IsBoundary 3 t := by decide
  obtain ⟨hback, hgrow, hoffset⟩ := offset_positions t
  exact ⟨htwo, hthree, (hback 3 hthree).1, hgrow 2 3 htwo hthree (by omega),
    (hoffset ⟨5, 0⟩).2.2.2 (by decide)⟩

end Position

end CanvasSync.Assist
