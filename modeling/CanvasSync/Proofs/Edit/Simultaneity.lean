import CanvasSync.Proofs.Edit.Splices
import CanvasSync.Proofs.Text.Cuts

/-!
Edits made one after the other, and all at once.

Edits are applied from the back of a text to its front, so that the offsets of those to come stay
true. If no two of them overlap, what comes out is what stands between them and what takes their
place, in the order of the text.

* `together`: a text with edits made at once;
* `IsArranged`: edits in the order of the text, those of one place in reverse;
* `foldl_apply_reverse`: edits made from the back to the front are made at once;
* `isArranged_mergeSort`, `mergeSort_eq_of_perm`: the order in which edits are applied;
* `applyAll_eq_together`: the edits of a list, arranged, are made at once.
-/

namespace CanvasSync.Edit

variable {source : Text} {e : Splice} {edits edits' es : List Splice} {o : Nat}

/-- What stands behind an offset of a text once edits are made in their order: the text up to the
first of them stays, its own text comes next, and the others are made behind it. -/
def together (source : Text) : Nat → List Splice → Text
  | o, [] => Text.fromOffset o source
  | o, e :: es => Text.slice o e.start source ++ (e.text ++ together source e.stop es)

/-- Whether two edits are of the same stretch of a text. -/
def Splice.samePlace (a b : Splice) : Bool := a.start = b.start && a.stop = b.stop

/-- The edits of a list in the order of the text: by their starts, an insertion before what begins at
its offset, and edits of the same place last given first. -/
structure IsArranged (edits es : List Splice) : Prop where
  perm : es.Perm edits
  sorted : es.Pairwise fun a b => a.start < b.start ∨ (a.start = b.start ∧ a.stop ≤ b.stop)
  ties : ∀ e : Splice, es.filter e.samePlace = (edits.filter e.samePlace).reverse

/-! ### From the back to the front -/

/-- A text around an edit behind an offset. -/
lemma Splice.InBounds.exists_parts (he : e.InBounds source) (ho : Text.IsBoundary o source)
    (hle : o ≤ e.start) : ∃ a b c d, source = a ++ (b ++ (c ++ d)) ∧ o = Text.size a
      ∧ e.start = Text.size (a ++ b) ∧ e.stop = Text.size (a ++ (b ++ c)) := by
  obtain ⟨hwithin, hstart, hstop⟩ := he
  have hat (n : Nat) : source = Text.upTo n source ++ Text.fromOffset n source :=
    (Text.upTo_append_fromOffset n source).symm
  obtain ⟨b, hb, hbehind⟩ := Text.exists_eq_append_of_size_le
    ((hat o).symm.trans (hat e.start)) (by rw [ho, hstart]; exact hle)
  obtain ⟨c, hc, -⟩ := Text.exists_eq_append_of_size_le
    ((hat e.start).symm.trans (hat e.stop)) (by rw [hstart, hstop]; exact hwithin)
  refine ⟨Text.upTo o source, b, c, Text.fromOffset e.stop source, ?_, ho.symm, ?_, ?_⟩
  · rw [← List.append_assoc, ← List.append_assoc, ← hb, ← hc]
    exact hat e.stop
  · rw [← hb, hstart]
  · rw [← List.append_assoc, ← hb, ← hc, hstop]

/-- **Edits made from the back to the front are made at once**: an edit changes nothing before its
start, so the offsets of those before it stay true. -/
lemma foldl_apply_reverse (ho : Text.IsBoundary o source) (hbounds : ∀ e ∈ es, e.InBounds source)
    (hbehind : ∀ e ∈ es, o ≤ e.start) (horder : es.Pairwise fun a b => a.stop ≤ b.start) :
    es.reverse.foldl Splice.apply source = Text.upTo o source ++ together source o es := by
  induction es generalizing o with
  | nil => exact (Text.upTo_append_fromOffset o source).symm
  | cons e es ih =>
      rw [List.forall_mem_cons] at hbounds hbehind
      rw [List.pairwise_cons] at horder
      have hrest := ih hbounds.1.2.2 hbounds.2 horder.1 horder.2
      obtain ⟨a, b, c, d, hsource, rfl, hstart, hstop⟩ := hbounds.1.exists_parts ho hbehind.1
      have hupTo : Text.upTo e.stop source = a ++ (b ++ c) := by
        rw [hstop, hsource, ← List.append_assoc b c, ← List.append_assoc a (b ++ c),
          Text.upTo_size_append]
      have hslice : Text.slice (Text.size a) e.start source = b := by
        rw [Text.slice, hsource, Text.fromOffset_size_append, hstart, Text.size_append,
          Nat.add_sub_cancel_left, Text.upTo_size_append]
      have hbegin : Text.upTo (Text.size a) source = a := by
        rw [hsource, Text.upTo_size_append]
      rw [List.reverse_cons, List.foldl_append, hrest, List.foldl_cons, List.foldl_nil,
        Splice.apply, hupTo, together, hslice, hbegin]
      have hfront (t : Text) : Text.upTo e.start (a ++ (b ++ c) ++ t) = a ++ b := by
        rw [hstart, ← List.append_assoc a, List.append_assoc (a ++ b), Text.upTo_size_append]
      have hback (t : Text) : Text.fromOffset e.stop (a ++ (b ++ c) ++ t) = t := by
        rw [hstop, Text.fromOffset_size_append]
      rw [hfront, hback]
      simp only [List.append_assoc]

/-! ### The order of the edits -/

/-- The edits in the order in which they are applied, from the last one on, are arranged: edits of the
same place keep their order when they are sorted. -/
lemma isArranged_mergeSort (edits : List Splice) :
    IsArranged edits (edits.mergeSort Splice.before).reverse := by
  have hperm := List.mergeSort_perm edits Splice.before
  refine ⟨(List.reverse_perm _).trans hperm, ?_, fun e => ?_⟩
  · rw [List.pairwise_reverse]
    refine (List.pairwise_mergeSort Splice.before_trans Splice.before_total edits).imp ?_
    intro a b h
    rw [Splice.before_iff] at h
    omega
  · have hsame : (edits.filter e.samePlace).Pairwise fun a b => a.before b := by
      rw [List.pairwise_filter]
      refine List.pairwise_of_forall fun a b ha hb => ?_
      simp only [Splice.samePlace, Bool.and_eq_true, decide_eq_true_eq] at ha hb
      rw [Splice.before_iff]
      omega
    have hkept := (List.sublist_mergeSort Splice.before_trans Splice.before_total hsame
      List.filter_sublist).filter e.samePlace
    rw [List.filter_filter] at hkept
    simp only [Bool.and_self] at hkept
    rw [List.filter_reverse, ← hkept.eq_of_length (hperm.filter _).length_eq.symm]

/-- The order in which edits are applied is that of their places, if no two are of the same place. -/
lemma mergeSort_eq_of_perm (hperm : edits'.Perm edits)
    (hplaces : edits.Pairwise fun a b => a.samePlace b = false) :
    edits'.mergeSort Splice.before = edits.mergeSort Splice.before := by
  refine List.Perm.eq_of_pairwise (fun a b ha hb hab hba => ?_)
    (List.pairwise_mergeSort Splice.before_trans Splice.before_total edits')
    (List.pairwise_mergeSort Splice.before_trans Splice.before_total edits)
    ((List.mergeSort_perm _ _).trans (hperm.trans (List.mergeSort_perm _ _).symm))
  by_contra hne
  have : Std.Symm fun a b : Splice => a.samePlace b = false := by
    refine ⟨fun a b h => ?_⟩
    simp only [Splice.samePlace, Bool.and_eq_false_iff, decide_eq_false_iff_not] at h ⊢
    omega
  have hdiffer := hplaces.forall (hperm.subset (List.mem_mergeSort.mp ha)) (List.mem_mergeSort.mp hb)
    hne
  simp only [Splice.samePlace, Bool.and_eq_false_iff, decide_eq_false_iff_not] at hdiffer
  rw [Splice.before_iff] at hab hba
  omega

/-- Arranged edits that do not overlap stand one behind the other. -/
lemma IsArranged.pairwise_le (h : IsArranged edits es) (hbounds : ∀ e ∈ edits, e.InBounds source)
    (hapart : edits.Pairwise Splice.Apart) : es.Pairwise fun a b => a.stop ≤ b.start := by
  have hes : es.Pairwise Splice.Apart :=
    (h.perm.pairwise_iff fun hab => hab.symm).mpr hapart
  refine (hes.and h.sorted).imp_of_mem fun {a b} ha hb ⟨hab, hle⟩ => ?_
  have hb := (hbounds b (h.perm.subset hb)).1
  rw [Splice.Apart] at hab
  omega

/-- **Edits of a list are made at once** if no two of them overlap: what comes out is the text between
them and what takes their place, in the order of the text. An insertion comes before what takes the
place of the stretch that begins at its offset, and of two insertions at one offset the one given
last comes first. If no two edits are of the same place, it does not matter in what order they are
given. -/
theorem applyAll_eq_together (hbounds : ∀ e ∈ edits, e.InBounds source)
    (hapart : edits.Pairwise Splice.Apart) :
    (∃ es, IsArranged edits es ∧ es.Pairwise (fun a b => a.stop ≤ b.start)
        ∧ Splice.applyAll source edits = together source 0 es)
      ∧ ((edits.Pairwise fun a b => a.samePlace b = false) → ∀ edits' : List Splice,
        edits'.Perm edits → Splice.applyAll source edits' = Splice.applyAll source edits) := by
  have harranged := isArranged_mergeSort edits
  have horder := harranged.pairwise_le hbounds hapart
  refine ⟨⟨_, harranged, horder, ?_⟩, fun hplaces edits' hperm => ?_⟩
  · have hstart : Text.IsBoundary 0 source := Text.isBoundary_size [] source
    have hnone : Text.upTo 0 source = [] := Text.upTo_size_append [] source
    have hfold := foldl_apply_reverse hstart (fun e he => hbounds e (harranged.perm.subset he))
      (fun e _ => Nat.zero_le _) horder
    rw [List.reverse_reverse, hnone, List.nil_append] at hfold
    exact hfold
  · rw [Splice.applyAll, mergeSort_eq_of_perm hperm hplaces, Splice.applyAll]

/-- A call with two insertions before what takes the place of its name, and one behind that. -/
def callEdits : List Splice :=
  [.insertion 1 ['b'], ⟨1, 4, ['d']⟩, .insertion 4 ['e'], .insertion 1 ['a']]

theorem applyAll_eq_together_call :
    (∀ e ∈ callEdits, e.InBounds "(äf)".toList) ∧ callEdits.Pairwise Splice.Apart
      ∧ (∃ es, IsArranged callEdits es
        ∧ Splice.applyAll "(äf)".toList callEdits = together "(äf)".toList 0 es)
      ∧ Splice.applyAll "(äf)".toList callEdits = "(abde)".toList := by
  have hbounds : ∀ e ∈ callEdits, e.InBounds "(äf)".toList := by decide
  have hapart : callEdits.Pairwise Splice.Apart := by decide
  have hsorted : callEdits.mergeSort Splice.before
      = [.insertion 4 ['e'], ⟨1, 4, ['d']⟩, .insertion 1 ['b'], .insertion 1 ['a']] := by
    simp [callEdits, List.mergeSort, List.MergeSort.Internal.splitInTwo, Splice.before,
      Splice.insertion]
  obtain ⟨es, harranged, -, heq⟩ := (applyAll_eq_together hbounds hapart).1
  refine ⟨hbounds, hapart, ⟨es, harranged, heq⟩, ?_⟩
  rw [Splice.applyAll, hsorted]
  decide +kernel

end CanvasSync.Edit
