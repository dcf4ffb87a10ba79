import CanvasSync.Proofs.Utility.Sorting
import CanvasSync.Utility.StyleSheet
import Mathlib.Data.List.Basic
import Mathlib.Tactic.Common

/-!
The CSS of a class string as its styles in order.

The styles of a class string are put into a bucket for each category, the buckets are read one after
the other, and what is read is gathered by breakpoint. All of this together is one stable sort for
each breakpoint: styles of one category and one breakpoint stay in the order of their tokens, and
the order of all others does not matter.

* `inOrder`: styles sorted by category;
* `flatMap_filter_eq_inOrder`: the buckets in a row are the sorted styles;
* `filter_inOrder`: the styles of a breakpoint are sorted among themselves;
* `perm_inOrderAt`: every style is among those of one breakpoint, or of none;
* `Rearranged`: lists that differ by the order of styles of different categories or breakpoints;
* `css_parse`: the CSS of a class string, line by line, with every style in it once.
-/

namespace CanvasSync.Utility

open List (Perm)

variable {l m : List Style} {s : Style}

/-! ### Styles by category -/

namespace Category

/-- The place of a category in the order in which they are written. -/
def rank (c : Category) : Nat := all.idxOf c

lemma mem_all (c : Category) : c ∈ all := by cases c <;> decide

lemma pairwise_all : all.Pairwise fun c d => c.rank < d.rank := by decide

end Category

/-- The category of a style. -/
def Style.category (s : Style) : Category := Category.ofProperty s.property

/-- Whether the category of a style is written no later than the one of another. -/
def Style.noLater (s t : Style) : Bool := s.category.rank ≤ t.category.rank

lemma noLater_trans (s t u : Style) (hst : s.noLater t) (htu : t.noLater u) : s.noLater u := by
  simp only [Style.noLater, decide_eq_true_eq] at *
  omega

lemma noLater_total (s t : Style) : s.noLater t || t.noLater s := by
  simp only [Style.noLater, Bool.or_eq_true, decide_eq_true_eq]
  omega

/-- Styles sorted by category; those of one category stay in their order. -/
def inOrder (l : List Style) : List Style := l.mergeSort Style.noLater

lemma inOrder_perm (l : List Style) : Perm (inOrder l) l := List.mergeSort_perm l _

lemma pairwise_inOrder (l : List Style) : (inOrder l).Pairwise fun s t => s.noLater t :=
  List.pairwise_mergeSort noLater_trans noLater_total l

/-- The styles of one category stay in their order. -/
lemma filter_category_inOrder (l : List Style) (c : Category) :
    (inOrder l).filter (fun s => s.category = c) = l.filter fun s => s.category = c := by
  refine filter_mergeSort noLater_trans noLater_total ?_ l
  intro s t hs ht
  rw [decide_eq_true_eq] at hs ht
  simp [Style.noLater, hs, ht]

/-- Styles that are sorted by category are those of each category in a row. -/
lemma flatMap_filter_eq_self (h : l.Pairwise fun s t => s.noLater t) :
    Category.all.flatMap (fun c => l.filter fun s => s.category = c) = l := by
  induction l with
  | nil => simp
  | cons s l ih =>
      rw [List.pairwise_cons] at h
      have hih := ih h.2
      obtain ⟨before, after, hall⟩ := List.append_of_mem (Category.mem_all s.category)
      have hranks := Category.pairwise_all
      rw [hall, List.pairwise_append, List.pairwise_cons] at hranks
      rw [hall, List.flatMap_append, List.flatMap_cons] at hih ⊢
      -- the first style is of the first category that has any
      have hbefore (l' : List Style) (hl : ∀ t ∈ l', t ∈ s :: l) :
          before.flatMap (fun c => l'.filter fun t => t.category = c) = [] := by
        refine List.flatMap_eq_nil_iff.mpr fun c hc => List.filter_eq_nil_iff.mpr fun t ht => ?_
        have hlt := hranks.2.2 c hc s.category List.mem_cons_self
        rw [decide_eq_true_eq]
        rintro rfl
        rcases List.mem_cons.mp (hl t ht) with rfl | ht
        · exact Nat.lt_irrefl _ hlt
        · have hle := h.1 t ht
          rw [Style.noLater, decide_eq_true_eq] at hle
          omega
      have hafter : after.flatMap (fun c => (s :: l).filter fun t => t.category = c)
          = after.flatMap fun c => l.filter fun t => t.category = c := by
        refine List.flatMap_congr fun c hc => List.filter_cons_of_neg ?_
        have hlt := hranks.2.1.1 c hc
        rw [decide_eq_true_eq]
        rintro rfl
        exact Nat.lt_irrefl _ hlt
      rw [hbefore l fun _ => List.mem_cons_of_mem s, List.nil_append] at hih
      rw [hbefore (s :: l) fun _ => id, hafter, List.nil_append, List.filter_cons_of_pos (by simp),
        List.cons_append, hih]

/-- **The buckets in a row are the sorted styles.** -/
theorem flatMap_filter_eq_inOrder (l : List Style) :
    Category.all.flatMap (fun c => l.filter fun s => s.category = c) = inOrder l := by
  have h := flatMap_filter_eq_self (pairwise_inOrder l)
  simpa only [filter_category_inOrder] using h

/-- What is picked out of sorted styles is sorted. -/
lemma filter_inOrder (p : Style → Bool) (l : List Style) :
    (inOrder l).filter p = inOrder (l.filter p) := by
  rw [← flatMap_filter_eq_inOrder, ← flatMap_filter_eq_inOrder, List.filter_flatMap]
  simp only [List.filter_filter, Bool.and_comm]

/-! ### Styles by breakpoint -/

namespace Breakpoint

lemma mem_all (b : Breakpoint) : b ∈ all := by cases b <;> decide

lemma pairwise_all : all.Pairwise fun b c => b.minWidth < c.minWidth := by decide

/-- The media query of a breakpoint that holds styles. -/
def query (b : Breakpoint) (l : List Style) : Text :=
  "@media (min-width: ".toList ++ Number.digitsOf b.minWidth ++ "px) ".toList ++ ['\x7b']
    ++ l.flatMap (fun s => ' ' :: s.css) ++ [' ', '\x7d']

lemma css?_eq (b : Breakpoint) (l : List Style) :
    b.css? l = if l = [] then none else some (b.query l) := rfl

end Breakpoint

/-- The styles that apply from a breakpoint on, or without one, in the order of their categories. -/
def inOrderAt (x : Option Breakpoint) (l : List Style) : List Style :=
  inOrder (l.filter fun s => s.breakpoint = x)

/-- The breakpoints that styles have, narrowest first. -/
def breakpoints (l : List Style) : List Breakpoint :=
  Breakpoint.all.filter fun b => l.any fun s => s.breakpoint = some b

lemma inOrderAt_eq_nil_iff {x : Option Breakpoint} :
    inOrderAt x l = [] ↔ ∀ s ∈ l, s.breakpoint ≠ x := by
  have hperm := inOrder_perm (l.filter fun s => s.breakpoint = x)
  rw [inOrderAt, ← List.length_eq_zero_iff, hperm.length_eq, List.length_eq_zero_iff,
    List.filter_eq_nil_iff]
  simp

lemma mem_breakpoints {b : Breakpoint} : b ∈ breakpoints l ↔ ∃ s ∈ l, s.breakpoint = some b := by
  simp [breakpoints, Breakpoint.mem_all]

/-- What is made of styles may be gathered from all breakpoints, if nothing is made of none. -/
lemma flatMap_breakpoints {β : Type} {f : Breakpoint → List β}
    (hf : ∀ b, inOrderAt (some b) l = [] → f b = []) :
    (breakpoints l).flatMap f = Breakpoint.all.flatMap f := by
  rw [breakpoints]
  induction Breakpoint.all with
  | nil => rfl
  | cons b bs ih =>
      rw [List.filter_cons, List.flatMap_cons, ← ih]
      split
      · rw [List.flatMap_cons]
      · next hnone => rw [hf b (inOrderAt_eq_nil_iff.mpr (by simpa using hnone)), List.nil_append]

/-- The media queries are those of the breakpoints that styles have. -/
lemma filterMap_css? (l : List Style) :
    (Breakpoint.all.filterMap fun b => b.css? (inOrderAt (some b) l))
      = (breakpoints l).map fun b => b.query (inOrderAt (some b) l) := by
  rw [List.filterMap_eq_flatMap_toList, List.map_eq_flatMap, ← flatMap_breakpoints]
  · refine List.flatMap_congr fun b hb => ?_
    obtain ⟨s, hs, hsb⟩ := mem_breakpoints.mp hb
    rw [Breakpoint.css?_eq, if_neg fun h => inOrderAt_eq_nil_iff.mp h s hs hsb]
    rfl
  · intro b hb
    rw [Breakpoint.css?_eq, if_pos hb]
    rfl

/-- Every style is among those of its breakpoint, once. -/
lemma perm_flatMap_inOrderAt {xs : List (Option Breakpoint)} (hxs : xs.Nodup)
    (hl : ∀ s ∈ l, s.breakpoint ∈ xs) : Perm (xs.flatMap fun x => inOrderAt x l) l := by
  induction xs generalizing l with
  | nil =>
      obtain rfl := List.eq_nil_iff_forall_not_mem.mpr fun s hs => List.not_mem_nil (hl s hs)
      exact Perm.nil
  | cons x xs ih =>
      rw [List.nodup_cons] at hxs
      -- the styles of other breakpoints, which are all that the other ones see
      have hrest : (xs.flatMap fun y => inOrderAt y l)
          = xs.flatMap fun y => inOrderAt y (l.filter fun s => !decide (s.breakpoint = x)) := by
        refine List.flatMap_congr fun y hy => ?_
        rw [inOrderAt, inOrderAt, List.filter_filter]
        refine congrArg inOrder (List.filter_congr fun s _ => ?_)
        by_cases hs : s.breakpoint = y
        · have hne : y ≠ x := fun h => hxs.1 (h ▸ hy)
          simp [hs, hne]
        · simp [hs]
      have hperm := ih hxs.2 (l := l.filter fun s => !decide (s.breakpoint = x)) fun s hs => by
        simp only [List.mem_filter, Bool.not_eq_true', decide_eq_false_iff_not] at hs
        exact (List.mem_cons.mp (hl s hs.1)).resolve_left hs.2
      rw [List.flatMap_cons, hrest]
      exact ((inOrder_perm _).append hperm).trans (List.filter_append_perm _ l)

/-- **Every style is written once**, without a breakpoint or with its own. -/
lemma perm_inOrderAt (l : List Style) :
    Perm (inOrderAt none l ++ (breakpoints l).flatMap fun b => inOrderAt (some b) l) l := by
  have hnodup : (none :: Breakpoint.all.map some).Nodup := by decide
  have hmem (s : Style) (_ : s ∈ l) : s.breakpoint ∈ none :: Breakpoint.all.map some := by
    cases s.breakpoint with
    | none => exact List.mem_cons_self
    | some b => exact List.mem_cons_of_mem _ (List.mem_map_of_mem (Breakpoint.mem_all b))
  have hperm := perm_flatMap_inOrderAt hnodup hmem
  rw [List.flatMap_cons, List.flatMap_map] at hperm
  rwa [flatMap_breakpoints fun b => id]

/-! ### Styles in another order -/

/-- Lists that become each other by swaps of neighbours of different categories or breakpoints. -/
inductive Rearranged : List Style → List Style → Prop where
  | nil : Rearranged [] []
  | cons (s : Style) {l m : List Style} (h : Rearranged l m) : Rearranged (s :: l) (s :: m)
  | swap {s t : Style} (h : s.category ≠ t.category ∨ s.breakpoint ≠ t.breakpoint)
      (l : List Style) : Rearranged (s :: t :: l) (t :: s :: l)
  | trans {l m n : List Style} (h : Rearranged l m) (h' : Rearranged m n) : Rearranged l n

namespace Rearranged

/-- Styles of one category and one breakpoint stay in their order. -/
lemma filter_eq (h : Rearranged l m) (c : Category) (x : Option Breakpoint) :
    (l.filter fun s => decide (s.category = c) && decide (s.breakpoint = x))
      = m.filter fun s => decide (s.category = c) && decide (s.breakpoint = x) := by
  induction h with
  | nil => rfl
  | cons s h ih => rw [List.filter_cons, List.filter_cons, ih]
  | swap h l =>
      simp only [List.filter_cons, Bool.and_eq_true, decide_eq_true_eq]
      split_ifs with ht hs
      · rcases h with h | h
        · exact absurd (ht.1.trans hs.1.symm) h
        · exact absurd (ht.2.trans hs.2.symm) h
      all_goals rfl
  | trans h h' ih ih' => exact ih.trans ih'

lemma inOrderAt_eq (h : Rearranged l m) (x : Option Breakpoint) :
    inOrderAt x l = inOrderAt x m := by
  simp only [inOrderAt, ← flatMap_filter_eq_inOrder, List.filter_filter, h.filter_eq]

end Rearranged

/-! ### The sheet of a class string -/

/-- The styles of the tokens of a class string, in their order. -/
def styles (table : Table) (classes : String) : List Style :=
  (Text.words classes.toList).filterMap (resolve? table)

namespace StyleSheet

lemma map_entries_parse (table : Table) (classes : String) :
    (parse table classes).entries.map (·.2) = inOrder (styles table classes) := by
  rw [← flatMap_filter_eq_inOrder, entries, List.map_flatMap]
  simp only [List.map_map, Function.comp_def, List.map_id']
  rfl

lemma css_parse_eq (table : Table) (classes : String) : (parse table classes).css = Text.join ['\n']
    ((inOrderAt none (styles table classes)).map Style.css
      ++ Breakpoint.all.filterMap fun b => b.css? (inOrderAt (some b) (styles table classes))) := by
  simp only [css, map_entries_parse, filter_inOrder, inOrderAt]

/-- **The CSS of a class string**: the declarations without a breakpoint, sorted by category, then a
media query for each breakpoint that a style has, narrowest first, with the declarations of this
breakpoint sorted by category. Every style is written once, and the order of styles of different
categories or breakpoints does not matter. -/
theorem css_parse (table : Table) (classes : String) :
    (parse table classes).css = Text.join ['\n']
        ((inOrderAt none (styles table classes)).map Style.css
          ++ (breakpoints (styles table classes)).map fun b =>
            b.query (inOrderAt (some b) (styles table classes)))
      ∧ (∀ b, b ∈ breakpoints (styles table classes)
          ↔ ∃ s ∈ styles table classes, s.breakpoint = some b)
      ∧ (breakpoints (styles table classes)).Pairwise (fun b c => b.minWidth < c.minWidth)
      ∧ Perm (inOrderAt none (styles table classes)
          ++ (breakpoints (styles table classes)).flatMap fun b =>
            inOrderAt (some b) (styles table classes)) (styles table classes)
      ∧ ∀ classes', Rearranged (styles table classes) (styles table classes') →
        (parse table classes').css = (parse table classes).css := by
  refine ⟨?_, fun b => mem_breakpoints, Breakpoint.pairwise_all.filter _, perm_inOrderAt _,
    fun classes' h => ?_⟩
  · rw [css_parse_eq, filterMap_css?]
  · simp only [css_parse_eq, h.inOrderAt_eq]

/-- Two tokens of different categories, one of which has a breakpoint. -/
theorem css_parse_swapped :
    styles Table.standard "lg:flex p-4"
        = [⟨"display", "flex", some .large, false⟩, ⟨"padding", "1rem", none, false⟩]
      ∧ (parse Table.standard "p-4 lg:flex").css = (parse Table.standard "lg:flex p-4").css := by
  have hfirst : styles Table.standard "lg:flex p-4"
      = [⟨"display", "flex", some .large, false⟩, ⟨"padding", "1rem", none, false⟩] := by
    decide +kernel
  have hsecond : styles Table.standard "p-4 lg:flex"
      = [⟨"padding", "1rem", none, false⟩, ⟨"display", "flex", some .large, false⟩] := by
    decide +kernel
  refine ⟨hfirst, (css_parse Table.standard "lg:flex p-4").2.2.2.2 _ ?_⟩
  rw [hfirst, hsecond]
  exact .swap (.inr (by decide)) []

end StyleSheet

end CanvasSync.Utility
