import CanvasSync.Text.Blank
import Mathlib.Data.List.Induction
import Mathlib.Tactic.Common

/-!
Texts with solid ends.

* `beginsSolid`, `endsSolid`: the first or the last character of a text is there and is not blank;
* `trimEnd_append`: blanks at the end are trimmed up to what is solid;
* `exists_eq_trimEnd_append`, `trim_isInfix`: what is left of a text when it is trimmed is a part of
  it;
* `trim_eq_self`: a text with solid ends stays as it is when it is trimmed;
* `beginsSolid_trim`, `endsSolid_trim`: what is left of a text when it is trimmed has solid ends.
-/

namespace CanvasSync.Text

variable {t gap : Text}

/-- Whether a text has a first character that is not blank. -/
def beginsSolid (t : Text) : Bool := t.head?.any fun c => !isBlank c

/-- Whether a text has a last character that is not blank. -/
def endsSolid (t : Text) : Bool := t.getLast?.any fun c => !isBlank c

lemma beginsSolid_append (h : beginsSolid t) (u : Text) : beginsSolid (t ++ u) := by
  cases t with
  | nil => simp [beginsSolid] at h
  | cons c t => exact h

lemma ne_nil_of_endsSolid (h : endsSolid t) : t ≠ [] := by
  rintro rfl
  cases h

lemma endsSolid_append (t : Text) {u : Text} (h : endsSolid u) : endsSolid (t ++ u) := by
  rw [endsSolid, List.getLast?_append]
  cases hu : u.getLast? <;> simp_all [endsSolid]

/-- What stands behind something solid is trimmed on its own. -/
lemma trimEnd_append_of_endsSolid (ht : endsSolid t) (u : Text) :
    trimEnd (t ++ u) = t ++ trimEnd u := by
  have hkept : t.reverse.dropWhile isBlank = t.reverse := by
    induction t using List.reverseRecOn with
    | nil => rfl
    | append_singleton v c =>
        have hc : isBlank c = false := by simpa [endsSolid] using ht
        rw [List.reverse_append, List.reverse_singleton, List.singleton_append,
          List.dropWhile_cons_of_neg (by simp [hc])]
  rw [trimEnd, trimEnd, List.reverse_append, List.dropWhile_append]
  split
  · next hnil => rw [List.isEmpty_iff.mp hnil, hkept, List.reverse_reverse, List.reverse_nil,
      List.append_nil]
  · rw [List.reverse_append, List.reverse_reverse]

/-- Blanks at the end of a text are trimmed up to what is solid. -/
lemma trimEnd_append (ht : endsSolid t) (hgap : allBlank gap) : trimEnd (t ++ gap) = t := by
  have hall : ∀ x ∈ gap.reverse, isBlank x := by simpa [allBlank] using hgap
  have hnil : (gap.reverse ++ []).dropWhile isBlank = ([] : Text).dropWhile isBlank :=
    List.dropWhile_append_of_pos hall
  rw [List.append_nil] at hnil
  rw [trimEnd_append_of_endsSolid ht, trimEnd, hnil, List.dropWhile_nil, List.reverse_nil,
    List.append_nil]

/-- A text is what is left of it when its end is trimmed, and blanks behind that. -/
lemma exists_eq_trimEnd_append (t : Text) : ∃ gap, t = trimEnd t ++ gap ∧ allBlank gap := by
  refine ⟨(t.reverse.takeWhile isBlank).reverse, ?_, ?_⟩
  · rw [trimEnd, ← List.reverse_append, List.takeWhile_append_dropWhile, List.reverse_reverse]
  · rw [allBlank, List.all_reverse]
    exact List.all_takeWhile

/-- What is left of a text when it is trimmed is a part of it. -/
lemma trim_isInfix (t : Text) : trim t <:+: t := by
  obtain ⟨gap, hgap, -⟩ := exists_eq_trimEnd_append (trimStart t)
  have hprefix : trim t <+: trimStart t := ⟨gap, hgap.symm⟩
  exact hprefix.isInfix.trans (List.dropWhile_suffix isBlank).isInfix

/-- A text with solid ends stays as it is when it is trimmed. -/
lemma trim_eq_self (hbegin : beginsSolid t) (hend : endsSolid t) : trim t = t := by
  have hstart : trimStart t = t := by
    cases t with
    | nil => rfl
    | cons c t => simp_all [trimStart, beginsSolid]
  rw [trim, hstart]
  have hnone : allBlank [] := rfl
  simpa using trimEnd_append hend hnone

lemma beginsSolid_trim (h : trim t ≠ []) : beginsSolid (trim t) := by
  have hstart : trimStart t ≠ [] := by
    intro hnil
    rw [trim, hnil] at h
    exact h rfl
  obtain ⟨x, hx, -⟩ : ∃ x, trimStart t = trim t ++ x ∧ allBlank x :=
    exists_eq_trimEnd_append (trimStart t)
  have hhead := List.head_dropWhile_not isBlank (l := t) hstart
  obtain ⟨c, u, hu⟩ := List.exists_cons_of_ne_nil h
  have hc : (trimStart t).head hstart = c := by simp [hx, hu]
  rw [hu, beginsSolid, List.head?_cons, Option.any_some, ← hc, Bool.not_eq_true']
  exact hhead

lemma endsSolid_trim (h : trim t ≠ []) : endsSolid (trim t) := by
  have hdrop : (trimStart t).reverse.dropWhile isBlank ≠ [] := fun hnil => h (by
    rw [trim, trimEnd, hnil]
    rfl)
  have hhead := List.head_dropWhile_not isBlank hdrop
  obtain ⟨c, u, hu⟩ := List.exists_cons_of_ne_nil hdrop
  simp only [hu, List.head_cons] at hhead
  rw [trim, trimEnd, hu, endsSolid, List.getLast?_reverse, List.head?_cons, Option.any_some, hhead]
  rfl

lemma isBlank_of_isDigit {c : Char} (h : c.isDigit) : isBlank c = false := by
  obtain ⟨hlow, hhigh⟩ := Char.isDigit_iff_toNat.mp h
  have hzero : '0'.toNat = 48 := rfl
  have hnine : '9'.toNat = 57 := rfl
  simp only [isBlank, Bool.or_eq_false_iff, Bool.and_eq_false_iff, decide_eq_false_iff_not]
  omega

end CanvasSync.Text
