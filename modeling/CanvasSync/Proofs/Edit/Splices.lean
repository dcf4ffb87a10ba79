import CanvasSync.Edit.Splice
import CanvasSync.Proofs.Text.Cuts
import Mathlib.Data.List.Pairwise
import Mathlib.Tactic.Common

/-!
Edits of stretches of a text that do not overlap.

* `Segment`: a stretch of a text, kept or changed; `oldText` and `newText` are the text before and
  after;
* `splicesFrom`: the edits of the changed stretches, in the order of the text;
* `Splice.InBounds`, `Splice.Apart`: these edits are of stretches of the text, and do not overlap;
* `Splice.before_trans`, `Splice.before_total`: the order in which edits are applied;
* `applyAll_segments`: these edits, given in any order, make the one text into the other.
-/

namespace CanvasSync.Edit

/-- A stretch of a text. -/
inductive Segment where
  /-- A stretch that stays. -/
  | kept (text : Text)
  /-- A stretch, and what takes its place. -/
  | changed (old new : Text)
  deriving DecidableEq, Repr

namespace Segment

/-- What a stretch is before it is changed. -/
def old : Segment → Text
  | kept t => t
  | changed t _ => t

/-- What a stretch is after it is changed. -/
def new : Segment → Text
  | kept t => t
  | changed _ t => t

end Segment

variable {s : Segment} {segments : List Segment} {o : Nat}

/-- A text before its stretches are changed. -/
def oldText (segments : List Segment) : Text := segments.flatMap Segment.old

/-- A text after its stretches are changed. -/
def newText (segments : List Segment) : Text := segments.flatMap Segment.new

@[simp] lemma oldText_nil : oldText [] = [] := rfl

@[simp] lemma oldText_cons (s : Segment) (ss : List Segment) :
    oldText (s :: ss) = s.old ++ oldText ss := rfl

@[simp] lemma oldText_append (ss ts : List Segment) :
    oldText (ss ++ ts) = oldText ss ++ oldText ts := List.flatMap_append

@[simp] lemma newText_nil : newText [] = [] := rfl

@[simp] lemma newText_cons (s : Segment) (ss : List Segment) :
    newText (s :: ss) = s.new ++ newText ss := rfl

@[simp] lemma newText_append (ss ts : List Segment) :
    newText (ss ++ ts) = newText ss ++ newText ts := List.flatMap_append

/-- The edits of the changed stretches of a text that begins at an offset. -/
def splicesFrom (o : Nat) : List Segment → List Splice
  | [] => []
  | .kept t :: ss => splicesFrom (o + Text.size t) ss
  | .changed t u :: ss => ⟨o, o + Text.size t, u⟩ :: splicesFrom (o + Text.size t) ss

lemma splicesFrom_append (o : Nat) (ss ts : List Segment) :
    splicesFrom o (ss ++ ts) = splicesFrom o ss ++ splicesFrom (o + Text.size (oldText ss)) ts := by
  induction ss generalizing o with
  | nil => rfl
  | cons s ss ih =>
      cases s <;>
        simp [splicesFrom, ih, Segment.old, Nat.add_assoc]

/-- The edits lie within the text, one after the other. -/
lemma le_of_mem_splicesFrom {e : Splice} (h : e ∈ splicesFrom o segments) :
    o ≤ e.start ∧ e.start ≤ e.stop ∧ e.stop ≤ o + Text.size (oldText segments) := by
  induction segments generalizing o with
  | nil => simp [splicesFrom] at h
  | cons s ss ih =>
      rw [oldText_cons, Text.size_append]
      cases s with
      | kept t =>
          have h := ih h
          simp only [Segment.old]
          omega
      | changed t u =>
          rcases List.mem_cons.mp h with rfl | h
          · simp only [Segment.old]
            omega
          · have h := ih h
            simp only [Segment.old]
            omega

/-- Whether an edit stands before another one in the text. -/
def Splice.precedes (a b : Splice) : Prop :=
  a.start < b.start ∨ (a.start = b.start ∧ a.stop < b.stop)

/-- An edit of a stretch that is not empty covers some of the text. -/
lemma start_lt_stop_of_mem_splicesFrom {e : Splice}
    (hne : ∀ t u, Segment.changed t u ∈ segments → t ≠ []) (h : e ∈ splicesFrom o segments) :
    e.start < e.stop := by
  induction segments generalizing o with
  | nil => simp [splicesFrom] at h
  | cons s ss ih =>
      have hss (t u : Text) (hm : Segment.changed t u ∈ ss) : t ≠ [] :=
        hne t u (List.mem_cons_of_mem _ hm)
      cases s with
      | kept t => exact ih hss h
      | changed t u =>
          rcases List.mem_cons.mp h with rfl | h
          · obtain ⟨c, t, rfl⟩ := List.exists_cons_of_ne_nil (hne t u (List.mem_cons_self ..))
            have hpos := Char.utf8Size_pos c
            simp only [Text.size_cons]
            omega
          · exact ih hss h

/-- The edits of stretches that are not empty stand in the order of the text. -/
lemma pairwise_precedes_splicesFrom (hne : ∀ t u, Segment.changed t u ∈ segments → t ≠ []) :
    (splicesFrom o segments).Pairwise Splice.precedes := by
  induction segments generalizing o with
  | nil => exact List.Pairwise.nil
  | cons s ss ih =>
      have hss (t u : Text) (hm : Segment.changed t u ∈ ss) : t ≠ [] :=
        hne t u (List.mem_cons_of_mem _ hm)
      cases s with
      | kept t => exact ih hss
      | changed t u =>
          refine List.pairwise_cons.mpr ⟨fun e he => .inl ?_, ih hss⟩
          obtain ⟨c, t, rfl⟩ := List.exists_cons_of_ne_nil (hne t u (List.mem_cons_self ..))
          have hpos := Char.utf8Size_pos c
          have hle := (le_of_mem_splicesFrom he).1
          simp only [Text.size_cons] at hle ⊢
          omega

/-! What edits are like that do not overlap. -/

/-- Whether an edit is of a stretch between two boundaries of a text. -/
def Splice.InBounds (source : Text) (e : Splice) : Prop :=
  e.start ≤ e.stop ∧ Text.IsBoundary e.start source ∧ Text.IsBoundary e.stop source

instance (source : Text) (e : Splice) : Decidable (e.InBounds source) :=
  inferInstanceAs (Decidable (_ ∧ _ ∧ _))

/-- Whether two edits do not overlap. -/
def Splice.Apart (a b : Splice) : Prop := a.stop ≤ b.start ∨ b.stop ≤ a.start

instance (a b : Splice) : Decidable (a.Apart b) := inferInstanceAs (Decidable (_ ∨ _))

lemma inBounds_of_mem_splicesFrom (front : Text) {e : Splice}
    (h : e ∈ splicesFrom (Text.size front) segments) :
    e.InBounds (front ++ oldText segments) := by
  induction segments generalizing front with
  | nil => cases h
  | cons s ss ih =>
      have hrest (t : Text) (ht : e ∈ splicesFrom (Text.size front + Text.size t) ss) :
          e.InBounds (front ++ (t ++ oldText ss)) := by
        rw [← Text.size_append] at ht
        rw [← List.append_assoc]
        exact ih (front ++ t) ht
      cases s with
      | kept t => exact hrest t h
      | changed t u =>
          rcases List.mem_cons.mp h with rfl | h
          · refine ⟨Nat.le_add_right _ _, Text.isBoundary_size _ _, ?_⟩
            have hstop := Text.isBoundary_size (front ++ t) (oldText ss)
            rwa [Text.size_append, List.append_assoc] at hstop
          · exact hrest t h

lemma pairwise_apart_splicesFrom (o : Nat) (segments : List Segment) :
    (splicesFrom o segments).Pairwise Splice.Apart := by
  induction segments generalizing o with
  | nil => exact .nil
  | cons s ss ih =>
      cases s with
      | kept t => exact ih _
      | changed t u =>
          exact List.pairwise_cons.mpr ⟨fun e he => .inl (le_of_mem_splicesFrom he).1, ih _⟩

/-- Edits in the order of the text are applied from the back to the front. -/
lemma foldl_apply_splicesFrom (front : Text) (segments : List Segment) :
    (splicesFrom (Text.size front) segments).reverse.foldl Splice.apply (front ++ oldText segments)
      = front ++ newText segments := by
  induction segments generalizing front with
  | nil => rfl
  | cons s ss ih =>
      have hsize (t : Text) : Text.size front + Text.size t = Text.size (front ++ t) := by simp
      have hassoc (t : Text) : front ++ (t ++ oldText ss) = (front ++ t) ++ oldText ss := by simp
      cases s with
      | kept t =>
          rw [splicesFrom, oldText_cons, newText_cons, Segment.old, Segment.new, hsize, hassoc,
            ih (front ++ t), List.append_assoc]
      | changed t u =>
          rw [splicesFrom, oldText_cons, newText_cons, Segment.old, Segment.new, hsize, hassoc,
            List.reverse_cons, List.foldl_append, ih (front ++ t), List.foldl_cons, List.foldl_nil]
          rw [Splice.apply, Text.fromOffset_size_append, List.append_assoc front t,
            Text.upTo_size_append, List.append_assoc]

lemma Splice.before_iff {a b : Splice} :
    a.before b ↔ b.start < a.start ∨ (a.start = b.start ∧ b.stop ≤ a.stop) := by
  simp [before]

lemma Splice.before_trans (a b c : Splice) (hab : a.before b) (hbc : b.before c) : a.before c := by
  rw [before_iff] at hab hbc ⊢
  omega

lemma Splice.before_total (a b : Splice) : (a.before b || b.before a) = true := by
  rw [Bool.or_eq_true, before_iff, before_iff]
  omega

/-- **Edits that do not overlap are applied all at once**, in whatever order they are given: each
changed stretch of a text gives way to what takes its place. -/
theorem applyAll_segments {edits : List Splice} (hedits : edits.Perm (splicesFrom 0 segments))
    (hordered : (splicesFrom 0 segments).Pairwise Splice.precedes) :
    Splice.applyAll (oldText segments) edits = newText segments := by
  have hsort : edits.mergeSort Splice.before = (splicesFrom 0 segments).reverse := by
    have hback : (splicesFrom 0 segments).reverse.Pairwise fun a b => a.before b := by
      rw [List.pairwise_reverse]
      refine hordered.imp fun {a b} h => ?_
      rw [Splice.precedes] at h
      rw [Splice.before_iff]
      omega
    refine List.Perm.eq_of_pairwise (fun a b ha hb hab hba => ?_)
      (List.pairwise_mergeSort Splice.before_trans Splice.before_total edits) hback
      ((List.mergeSort_perm _ _).trans (hedits.trans (List.reverse_perm _).symm))
    -- two edits that stand neither before nor behind each other are the same one
    by_contra hne
    have hapart : (splicesFrom 0 segments).Pairwise fun a b => a.precedes b ∨ b.precedes a :=
      hordered.imp Or.inl
    have : Std.Symm fun a b : Splice => a.precedes b ∨ b.precedes a := ⟨fun _ _ h => h.symm⟩
    have h := hapart.forall (hedits.subset (List.mem_mergeSort.mp ha)) (List.mem_reverse.mp hb) hne
    simp only [Splice.precedes] at h
    rw [Splice.before_iff] at hab hba
    omega
  rw [Splice.applyAll, hsort]
  exact foldl_apply_splicesFrom [] segments

end CanvasSync.Edit
