import CanvasSync.Proofs.Assist.Warnings

/-!
Which literals the scan of a text finds.

The scan stops at a mark, looks for a value in quotes behind it, and goes on behind that value, or
right behind the mark if there is none. What it lists are the literals of all marks but of those that
stand within a literal already found.

* `Marks`: a mark in a text with the literal behind it;
* `Marks.first`, `Marks.behind`: the first mark of a text, and the marks behind it;
* `Scans`: the rounds of a scan, up to the one that finds no mark;
* `Scans.mem_iff`: the literals of a scan are those of the marks that stand in none of them;
* `literals_exact`: every scan ends, and with exactly these literals, one behind the other.
-/

namespace CanvasSync.Assist

variable {a t u v before rest rest' : Text} {l l' : Literal} {ls : List Literal} {q : Char}
  {k n : Nat}

/-! ### Marks -/

/-- What opens a literal behind its mark: a quote, behind a brace or not. -/
def Opens (brace : Text) (q : Char) : Prop := (brace = [] ∨ brace = ['\x7b']) ∧ isQuote q

/-- In a text that starts at offset `n` a mark begins at offset `k`, and behind it a literal: a quote
opens it, and it goes up to the next quote of the same kind. -/
def Marks (n : Nat) (t : Text) (k : Nat) (l : Literal) : Prop :=
  ∃ a brace q b, t = a ++ (attributeMark ++ (brace ++ q :: (l.value ++ q :: b)))
    ∧ Opens brace q ∧ q ∉ l.value ∧ k = n + Text.size a
    ∧ l.start = k + Text.size (attributeMark ++ (brace ++ [q]))

/-- Whether an offset stands within a literal. -/
def Literal.Covers (l : Literal) (k : Nat) : Prop := l.start ≤ k ∧ k < l.stop

/-- The value behind a mark goes up to the next quote of the kind that opens it. -/
lemma value?_eq_some_iff : value? n t = some (l, rest)
    ↔ ∃ brace q, t = brace ++ q :: (l.value ++ q :: rest) ∧ Opens brace q ∧ q ∉ l.value
      ∧ l.start = n + Text.size (brace ++ [q]) := by
  have hread {m : Nat} {u : Text} :
      (quoted? u).map (fun r => ((⟨m, r.1⟩ : Literal), r.2)) = some (l, rest)
        ↔ m = l.start ∧ ∃ q, isQuote q ∧ q ∉ l.value ∧ u = q :: (l.value ++ q :: rest) := by
    rw [← quoted?_eq_some_iff, Option.map_eq_some_iff]
    constructor
    · rintro ⟨⟨v, r⟩, hquoted, hl⟩
      obtain ⟨rfl, rfl⟩ := Prod.mk.inj hl
      exact ⟨rfl, hquoted⟩
    · rintro ⟨rfl, hquoted⟩
      exact ⟨_, hquoted, rfl⟩
  have hsize {q : Char} (hq : isQuote q) :
      Text.size [q] = 1 ∧ Text.size (['\x7b'] ++ [q]) = 2 := by
    have hbrace : '\x7b'.utf8Size = 1 := rfl
    simp [utf8Size_of_isQuote hq, hbrace]
  constructor
  · intro h
    unfold value? at h
    split at h
    · obtain ⟨hstart, q, hq, hfirst, rfl⟩ := hread.mp h
      exact ⟨['\x7b'], q, rfl, ⟨.inr rfl, hq⟩, hfirst, by rw [← hstart, (hsize hq).2]⟩
    · obtain ⟨hstart, q, hq, hfirst, rfl⟩ := hread.mp h
      exact ⟨[], q, rfl, ⟨.inl rfl, hq⟩, hfirst, by rw [← hstart, List.nil_append, (hsize hq).1]⟩
  · rintro ⟨brace, q, rfl, ⟨rfl | rfl, hq⟩, hfirst, hstart⟩
    · rw [List.nil_append, value?_of_ne_brace (ne_brace_of_isQuote hq)]
      exact hread.mpr ⟨by rw [hstart, List.nil_append, (hsize hq).1], q, hq, hfirst, rfl⟩
    · exact hread.mpr ⟨by rw [hstart, (hsize hq).2], q, hq, hfirst, rfl⟩

/-- The literal of a mark is the value that is read behind it. -/
lemma marks_iff : Marks n t k l ↔ ∃ a x rest, t = a ++ (attributeMark ++ x)
    ∧ k = n + Text.size a ∧ value? (k + Text.size attributeMark) x = some (l, rest) := by
  simp only [value?_eq_some_iff, Marks, Text.size_append, Nat.add_assoc]
  constructor
  · rintro ⟨a, brace, q, b, rfl, hopens, hfirst, hk, hstart⟩
    exact ⟨a, _, b, rfl, hk, brace, q, rfl, hopens, hfirst, hstart⟩
  · rintro ⟨a, x, b, rfl, hk, brace, q, rfl, hopens, hfirst, hstart⟩
    exact ⟨a, brace, q, b, rfl, hopens, hfirst, hk, hstart⟩

/-- The literal of a mark at an occurrence of one is the value that is read behind that. -/
lemma marks_append_iff {x : Text} : Marks n (a ++ (attributeMark ++ x)) (n + Text.size a) l
    ↔ ∃ rest, value? (n + Text.size a + Text.size attributeMark) x = some (l, rest) := by
  rw [marks_iff]
  constructor
  · rintro ⟨a', x', rest, htext, ha, hvalue⟩
    obtain ⟨rfl, hx⟩ := Text.append_inj_of_size_eq htext (by omega)
    obtain rfl := List.append_cancel_left hx
    exact ⟨rest, hvalue⟩
  · rintro ⟨rest, hvalue⟩
    exact ⟨a, x, rest, rfl, rfl, hvalue⟩

/-- A literal stands behind an occurrence of a mark with a quote that stands once more. -/
lemma exists_marks {brace b : Text} (hopens : Opens brace q) (hq : q ∈ b) :
    ∃ l, Marks n (a ++ (attributeMark ++ (brace ++ q :: b))) (n + Text.size a) l := by
  obtain ⟨v, rest, rfl, hfirst⟩ := List.eq_append_cons_of_mem hq
  exact ⟨⟨_, v⟩, a, brace, q, rest, rfl, hopens, hfirst, rfl, rfl⟩

namespace Marks

lemma le (h : Marks n t k l) : n ≤ k := by
  obtain ⟨a, -, -, -, -, -, -, rfl, -⟩ := h
  exact Nat.le_add_right n _

lemma lt_start (h : Marks n t k l) : k < l.start := by
  obtain ⟨-, brace, q, -, -, -, -, -, hstart⟩ := h
  have hpos : 0 < Text.size (attributeMark ++ (brace ++ [q])) := Text.size_pos (by simp)
  omega

/-- A mark is one of every longer text. -/
lemma append (h : Marks (n + Text.size a) t k l) : Marks n (a ++ t) k l := by
  obtain ⟨b, brace, q, c, rfl, hopens, hfirst, rfl, hstart⟩ := h
  exact ⟨a ++ b, brace, q, c, (List.append_assoc _ _ _).symm, hopens, hfirst,
    by rw [Text.size_append, Nat.add_assoc], hstart⟩

/-- A text with a mark holds one. -/
lemma cut?_ne_none (h : Marks n t k l) : Text.cut? attributeMark t ≠ none := by
  obtain ⟨a, x, -, rfl, -⟩ := marks_iff.mp h
  have hcontains : Text.contains (a ++ (attributeMark ++ x)) attributeMark :=
    Text.contains_iff.mpr ⟨a, x, List.append_assoc _ _ _⟩
  exact Option.isSome_iff_ne_none.mp hcontains

/-- The marks of a text do not begin before the first occurrence of one. -/
lemma first (h : Marks n t k l) (hcut : Text.cut? attributeMark t = some (before, rest)) :
    n + Text.size before ≤ k := by
  obtain ⟨a, x, -, htext, rfl, -⟩ := marks_iff.mp h
  obtain ⟨rfl, hmin⟩ := Text.cut?_eq_some_iff.mp hcut
  -- what stands before the first occurrence begins every text before another one
  obtain ⟨m, rfl, -⟩ : ∃ m, a = before ++ m ∧ attributeMark ++ rest = m ++ (attributeMark ++ x) := by
    rcases List.append_eq_append_iff.mp htext with hm | ⟨m, rfl, hm⟩
    · exact hm
    · have hle := hmin a x htext
      rw [List.length_append] at hle
      obtain rfl := List.eq_nil_of_length_eq_zero (by omega : m.length = 0)
      exact ⟨[], by simp, by simpa using hm.symm⟩
  rw [Text.size_append]
  omega

/-- A mark behind another one begins behind what stands right behind that, if it has no first letter
of a mark. -/
lemma behind (h : Marks n (before ++ (attributeMark ++ (u ++ v))) k l) (hu : 'c' ∉ u)
    (hk : n + Text.size before < k) :
    Marks (n + Text.size (before ++ (attributeMark ++ u))) v k l := by
  obtain ⟨a, x, r, htext, rfl, hvalue⟩ := marks_iff.mp h
  obtain ⟨m, rfl, hm⟩ := Text.exists_eq_append_of_size_le htext (by omega)
  obtain ⟨letters, hmark, hletters⟩ : ∃ letters, attributeMark = 'c' :: letters ∧ 'c' ∉ letters :=
    ⟨"lassName=".toList, by decide, by decide⟩
  cases m with
  | nil => simp at hk
  | cons c m =>
      have hm' : m ++ 'c' :: (letters ++ x) = letters ++ u ++ v ∧ c = 'c' := by
        rw [hmark] at hm
        obtain ⟨hc, hm⟩ := List.cons_eq_cons.mp hm
        exact ⟨by rw [List.append_assoc]; exact hm.symm, hc.symm⟩
      obtain ⟨hm', rfl⟩ := hm'
      have hnot : 'c' ∉ letters ++ u := by simp [hletters, hu]
      obtain ⟨w, rfl, rfl⟩ := Text.exists_eq_append_of_notMem hnot hm'
      refine marks_iff.mpr ⟨w, x, r, by rw [hmark]; rfl, ?_, hvalue⟩
      simp only [hmark, Text.size_append, Text.size_cons]
      omega

/-- A mark that does not begin before a quote begins behind it. -/
lemma behind_quote (h : Marks n (v ++ q :: t) k l) (hq : isQuote q) (hk : n + Text.size v ≤ k) :
    Marks (n + Text.size v + 1) t k l := by
  obtain ⟨a, x, r, htext, rfl, hvalue⟩ := marks_iff.mp h
  obtain ⟨m, rfl, hm⟩ := Text.exists_eq_append_of_size_le htext (by omega)
  have hsize := utf8Size_of_isQuote hq
  cases m with
  | nil =>
      -- the quote would be the first letter of the mark
      obtain ⟨rfl, -⟩ := List.cons_eq_cons.mp hm
      exact absurd hq (by decide)
  | cons c m =>
      obtain ⟨rfl, rfl⟩ := List.cons_eq_cons.mp hm
      refine marks_iff.mpr ⟨m, x, r, rfl, ?_, hvalue⟩
      rw [Text.size_append, Text.size_cons, hsize]
      omega

end Marks

/-! ### Scans -/

/-- The rounds of a scan of a text that starts at an offset, with the literals that it finds: it ends
when no mark is left, goes on behind a literal and its quote, and right behind a mark that has no
literal. -/
inductive Scans : Nat → Text → List Literal → Prop
  | stop {n : Nat} {t : Text} (hmark : Text.cut? attributeMark t = none) : Scans n t []
  | found {n : Nat} {t before rest rest' : Text} {l : Literal} {ls : List Literal}
    (hmark : Text.cut? attributeMark t = some (before, rest))
    (hvalue : value? (n + Text.size before + Text.size attributeMark) rest = some (l, rest'))
    (hrest : Scans (l.stop + 1) rest' ls) : Scans n t (l :: ls)
  | missed {n : Nat} {t before rest : Text} {ls : List Literal}
    (hmark : Text.cut? attributeMark t = some (before, rest))
    (hvalue : value? (n + Text.size before + Text.size attributeMark) rest = none)
    (hrest : Scans (n + Text.size before + Text.size attributeMark) rest ls) : Scans n t ls

/-- A scan ends: there are no more rounds than characters. -/
lemma scans_literalsFrom {fuel : Nat} (h : t.length < fuel) (n : Nat) :
    Scans n t (literalsFrom fuel n t) := by
  induction fuel generalizing n t with
  | zero => cases h
  | succ fuel ih =>
      cases hcut : Text.cut? attributeMark t with
      | none =>
          rw [literalsFrom, hcut]
          exact .stop hcut
      | some r =>
          obtain ⟨before, rest⟩ := r
          have hrest := length_lt_of_cut? hcut
          rw [literalsFrom_of_cut? hcut]
          cases hvalue : value? (n + Text.size before + Text.size attributeMark) rest with
          | none => exact .missed hcut hvalue (ih (by omega) _)
          | some r =>
              have hrest' := length_lt_of_value? hvalue
              exact .found hcut hvalue (ih (by omega) _)

/-- A scan finds what the search finds that may go on for more rounds than there are characters. -/
lemma Scans.eq_literalsFrom (h : Scans n t ls) {fuel : Nat} (hfuel : t.length < fuel) :
    ls = literalsFrom fuel n t := by
  induction h generalizing fuel with
  | stop hmark =>
      cases fuel with
      | zero => cases hfuel
      | succ fuel => rw [literalsFrom, hmark]
  | found hmark hvalue hrest ih =>
      have hrest := length_lt_of_cut? hmark
      have hrest' := length_lt_of_value? hvalue
      obtain ⟨fuel, rfl⟩ := Nat.exists_eq_add_of_lt hfuel
      rw [literalsFrom_of_cut? hmark, hvalue]
      exact congrArg _ (ih (by omega))
  | missed hmark hvalue hrest ih =>
      have hrest := length_lt_of_cut? hmark
      obtain ⟨fuel, rfl⟩ := Nat.exists_eq_add_of_lt hfuel
      rw [literalsFrom_of_cut? hmark, hvalue]
      exact ih (by omega)

/-- A mark without a literal leaves the marks behind it. -/
lemma marks_iff_of_missed (hmark : Text.cut? attributeMark t = some (before, rest))
    (hvalue : value? (n + Text.size before + Text.size attributeMark) rest = none) :
    Marks n t k l ↔ Marks (n + Text.size before + Text.size attributeMark) rest k l := by
  have hsize : n + Text.size (before ++ attributeMark)
      = n + Text.size before + Text.size attributeMark := by
    rw [Text.size_append, Nat.add_assoc]
  have htext := Text.eq_of_cut? hmark
  rw [← hsize]
  constructor
  · intro h
    have hne : k ≠ n + Text.size before := by
      rintro rfl
      rw [htext, marks_append_iff, hvalue] at h
      obtain ⟨r, hr⟩ := h
      cases hr
    have hlt := Nat.lt_of_le_of_ne (h.first hmark) hne.symm
    rw [htext] at h
    simpa using h.behind (u := []) List.not_mem_nil hlt
  · intro h
    rw [htext, ← List.append_assoc]
    exact h.append

/-- A mark with a literal leaves the marks within the literal and those behind it. -/
lemma marks_iff_of_found (hmark : Text.cut? attributeMark t = some (before, rest))
    (hvalue : value? (n + Text.size before + Text.size attributeMark) rest = some (l', rest')) :
    Marks n t k l ∧ ¬l'.Covers k
      ↔ k = n + Text.size before ∧ l = l' ∨ Marks (l'.stop + 1) rest' k l := by
  have htext := Text.eq_of_cut? hmark
  have hl' : Marks n t (n + Text.size before) l' := by
    rw [htext, marks_append_iff]
    exact ⟨rest', hvalue⟩
  obtain ⟨brace, q, rfl, ⟨hbrace, hq⟩, -, hstart⟩ := value?_eq_some_iff.mp hvalue
  have hsize : n + Text.size (before ++ (attributeMark ++ (brace ++ [q]))) = l'.start := by
    rw [hstart, Text.size_append, Text.size_append]
    omega
  have hne : q ≠ 'c' := by
    rintro rfl
    exact absurd hq (by decide)
  constructor
  · rintro ⟨h, hcovers⟩
    rcases Nat.eq_or_lt_of_le (h.first hmark) with rfl | hlt
    · rw [htext, marks_append_iff, hvalue] at h
      obtain ⟨r, hr⟩ := h
      exact .inl ⟨rfl, (Prod.mk.inj (Option.some.inj hr)).1.symm⟩
    · -- no mark begins between the first one and the value behind it
      have hopening : 'c' ∉ brace ++ [q] := by
        rcases hbrace with rfl | rfl <;> simp [ne_comm, hne]
      rw [htext, List.append_cons brace q] at h
      have hbehind := h.behind hopening hlt
      rw [hsize] at hbehind
      have hstop : l'.stop ≤ k := Nat.le_of_not_lt fun hk => hcovers ⟨hbehind.le, hk⟩
      exact .inr (hbehind.behind_quote hq hstop)
  · rintro (⟨rfl, rfl⟩ | h)
    · exact ⟨hl', fun hcovers => Nat.not_le_of_lt hl'.lt_start hcovers.1⟩
    · refine ⟨?_, fun hcovers => ?_⟩
      · have htext' : t = before ++ (attributeMark ++ (brace ++ [q])) ++ (l'.value ++ [q]) ++ rest' := by
          rw [htext]
          simp
        have hstop : n + Text.size (before ++ (attributeMark ++ (brace ++ [q])) ++ (l'.value ++ [q]))
            = l'.stop + 1 := by
          rw [Text.size_append, ← Nat.add_assoc, hsize, Text.size_append, Text.size_cons,
            utf8Size_of_isQuote hq]
          rfl
        rw [htext']
        exact Marks.append (by rwa [hstop])
      · exact Nat.not_le_of_lt hcovers.2 (Nat.le_of_succ_le h.le)

/-- **The literals of a scan** are those of the marks that stand in none of them. -/
lemma Scans.mem_iff (h : Scans n t ls) :
    l ∈ ls ↔ ∃ k, Marks n t k l ∧ ∀ l' ∈ ls, ¬l'.Covers k := by
  induction h generalizing l with
  | stop hmark =>
      refine iff_of_false List.not_mem_nil ?_
      rintro ⟨k, hk, -⟩
      exact hk.cut?_ne_none hmark
  | missed hmark hvalue hrest ih =>
      rw [ih]
      exact exists_congr fun k => and_congr_left fun _ => (marks_iff_of_missed hmark hvalue).symm
  | @found n t before rest rest' first ls hmark hvalue hrest ih =>
      have hlater {l' : Literal} (hl' : l' ∈ ls) : first.stop < l'.start := by
        obtain ⟨k, hk, -⟩ := ih.mp hl'
        exact Nat.lt_trans hk.le hk.lt_start
      simp only [List.mem_cons, forall_eq_or_imp, ← and_assoc, marks_iff_of_found hmark hvalue]
      constructor
      · rintro (rfl | hl)
        · -- the literals behind the first one begin behind its mark
          have hfirst := ((marks_iff_of_found hmark hvalue).mpr (.inl ⟨rfl, rfl⟩)).1.lt_start
          refine ⟨_, .inl ⟨rfl, rfl⟩, fun l' hl' hcovers => ?_⟩
          have hstop : l.start ≤ l.stop := Nat.le_add_right _ _
          have hstart := hcovers.1
          have hbehind := hlater hl'
          omega
        · obtain ⟨k, hk, hcovers⟩ := ih.mp hl
          exact ⟨k, .inr hk, hcovers⟩
      · rintro ⟨k, ⟨-, rfl⟩ | hk, hcovers⟩
        · exact .inl rfl
        · exact .inr (ih.mpr ⟨k, hk, hcovers⟩)

/-- **The literals of a text.** The scan ends with them, they stand one behind the other, and they are
those of the marks that begin in none of them. Every occurrence of a mark has one if the quote behind
it stands once more in the text. -/
theorem literals_exact (t : Text) :
    (∀ ls, Scans 0 t ls ↔ ls = literals t)
      ∧ (literals t).Pairwise (fun l l' => l.stop < l'.start)
      ∧ (∀ l, l ∈ literals t ↔ ∃ k, Marks 0 t k l ∧ ∀ l' ∈ literals t, ¬l'.Covers k)
      ∧ ∀ a brace q b, t = a ++ (attributeMark ++ (brace ++ q :: b)) → Opens brace q → q ∈ b →
        (∀ l ∈ literals t, ¬l.Covers (Text.size a)) →
        ∃ l ∈ literals t, Marks 0 t (Text.size a) l := by
  have henough := Nat.lt_succ_self t.length
  have hscan : Scans 0 t (literals t) := scans_literalsFrom henough 0
  refine ⟨fun ls => ⟨fun h => h.eq_literalsFrom henough, fun h => h ▸ hscan⟩,
    pairwise_literalsFrom (t.length + 1) 0 t, fun l => hscan.mem_iff, ?_⟩
  intro a brace q b htext hopens hq hcovers
  obtain ⟨l, hl⟩ := exists_marks (n := 0) (a := a) hopens hq
  rw [← htext, Nat.zero_add] at hl
  exact ⟨l, hscan.mem_iff.mpr ⟨_, hl, hcovers⟩, hl⟩

/-- A text with a mark within a literal, one whose quote stands alone, and one behind a brace. -/
def markedText : Text :=
  "className=\"className='a'\" className='b className=\x7b\x60c\x60".toList

theorem literals_exact_markedText :
    literals markedText = [⟨11, "className='a'".toList⟩, ⟨51, ['c']⟩]
      ∧ ∃ l ∈ literals markedText, Marks 0 markedText 39 l := by
  have hliterals : literals markedText = [⟨11, "className='a'".toList⟩, ⟨51, ['c']⟩] := by
    decide +kernel
  refine ⟨hliterals, (literals_exact markedText).2.2.2
    "className=\"className='a'\" className='b ".toList ['\x7b'] '\x60' ['c', '\x60']
    (by decide) ⟨.inr rfl, by decide⟩ (by decide) ?_⟩
  rw [hliterals]
  simp only [List.forall_mem_cons, Literal.Covers]
  decide

end CanvasSync.Assist
