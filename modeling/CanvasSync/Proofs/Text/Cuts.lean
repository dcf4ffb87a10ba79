import CanvasSync.Text.Basic
import Mathlib.Data.List.Basic
import Mathlib.Tactic.Common

/-!
Texts that begin with another one, or in which another one occurs.

* `strip?_eq_some_iff`: what is left of a text after a beginning;
* `contains_iff`: a text occurs in another one if it is a part of it;
* `cut?_eq_some_iff`, `cut?_append_of_cut?`: what stands around the first occurrence of a text,
  which does not depend on what follows;
* `cut?_of_contains_eq_false`: a text that does not overlap itself first occurs behind what it does
  not occur in;
* `cut?_singleton_eq_some_iff`, `exists_eq_append_of_notMem`: what stands around the first
  occurrence of a character;
* `exists_eq_append_of_size_le`, `append_inj_of_size_eq`: one text up to two offsets;
* `isBoundary_iff`: the offsets between two characters are the sizes of the beginnings.
-/

namespace CanvasSync.Text

variable {p t u rest before after : Text} {c : Char}

@[simp] lemma strip?_append (p rest : Text) : strip? p (p ++ rest) = some rest := by
  induction p with
  | nil => cases rest <;> rfl
  | cons c p ih => rw [List.cons_append, strip?, if_pos rfl, ih]

/-- What is left of a text after a beginning, put behind it, is the text. -/
lemma eq_of_strip? (h : strip? p t = some rest) : t = p ++ rest := by
  induction p generalizing t with
  | nil => exact Option.some.inj h
  | cons c p ih =>
      cases t with
      | nil => cases h
      | cons d t =>
          rw [strip?] at h
          split at h
          · next hc => rw [ih h, hc, List.cons_append]
          · cases h

lemma strip?_eq_some_iff : strip? p t = some rest ↔ t = p ++ rest :=
  ⟨eq_of_strip?, fun h => by rw [h, strip?_append]⟩

lemma eq_of_stripEnd? (h : stripEnd? p t = some rest) : t = rest ++ p := by
  obtain ⟨r, hr, rfl⟩ := Option.map_eq_some_iff.mp h
  rw [← List.reverse_reverse t, eq_of_strip? hr, List.reverse_append, List.reverse_reverse]

/-- What stands around an occurrence of a text, with the text between. -/
lemma eq_of_cut? (h : cut? p t = some (before, after)) :
    t = before ++ (p ++ after) := by
  induction t generalizing before with
  | nil =>
      rw [cut?] at h
      split at h
      · next hp =>
          obtain ⟨rfl, rfl⟩ := Prod.mk.inj (Option.some.inj h)
          rw [hp, List.append_nil, List.append_nil]
      · cases h
  | cons c t ih =>
      rw [cut?] at h
      split at h
      · next rest hrest =>
          obtain ⟨rfl, rfl⟩ := Prod.mk.inj (Option.some.inj h)
          rw [List.nil_append, eq_of_strip? hrest]
      · obtain ⟨⟨x, y⟩, hcut, hxy⟩ := Option.map_eq_some_iff.mp h
        obtain ⟨rfl, rfl⟩ := Prod.mk.inj hxy
        rw [ih hcut, List.cons_append]

/-- A text occurs in another one exactly if it is a part of it. -/
lemma contains_iff : contains t p ↔ p <:+: t := by
  constructor
  · intro h
    obtain ⟨⟨before, after⟩, hcut⟩ := Option.isSome_iff_exists.mp h
    exact ⟨before, after, by rw [List.append_assoc]; exact (eq_of_cut? hcut).symm⟩
  · rintro ⟨before, after, rfl⟩
    induction before with
    | nil =>
        cases p with
        | nil => cases after <;> rfl
        | cons c p =>
            rw [List.nil_append, contains, List.cons_append, cut?, ← List.cons_append,
              strip?_append]
            rfl
    | cons c before ih =>
        rw [contains, List.cons_append, List.cons_append, cut?]
        split
        · rfl
        · rw [Option.isSome_map]
          exact ih

lemma contains_of_isInfix (h : contains u p) (hu : u <:+: t) : contains t p :=
  contains_iff.mpr ((contains_iff.mp h).trans hu)

lemma contains_eq_false_of_isInfix (h : contains t p = false) (hu : u <:+: t) :
    contains u p = false := by
  by_contra hcontains
  rw [Bool.not_eq_false] at hcontains
  rw [contains_of_isInfix hcontains hu] at h
  cases h

/-- What stands around the first occurrence of a text. -/
lemma cut?_eq_some_iff : cut? p t = some (before, after)
    ↔ t = before ++ (p ++ after) ∧ ∀ x y, t = x ++ (p ++ y) → before.length ≤ x.length := by
  have hfirst {t before after : Text} (h : cut? p t = some (before, after)) :
      ∀ x y, t = x ++ (p ++ y) → before.length ≤ x.length := by
    induction t generalizing before with
    | nil =>
        obtain rfl := (List.append_eq_nil_iff.mp (eq_of_cut? h).symm).1
        exact fun _ _ _ => Nat.zero_le _
    | cons c t ih =>
        rw [cut?] at h
        split at h
        · obtain ⟨rfl, -⟩ := Prod.mk.inj (Option.some.inj h)
          exact fun _ _ _ => Nat.zero_le _
        · next hstrip =>
            obtain ⟨⟨b, a⟩, hcut, heq⟩ := Option.map_eq_some_iff.mp h
            obtain ⟨rfl, rfl⟩ := Prod.mk.inj heq
            intro x y htext
            cases x with
            | nil =>
                rw [List.nil_append] at htext
                rw [htext, strip?_append] at hstrip
                cases hstrip
            | cons d x => exact Nat.succ_le_succ (ih hcut x y (List.cons.inj htext).2)
  refine ⟨fun h => ⟨eq_of_cut? h, hfirst h⟩, fun ⟨htext, hmin⟩ => ?_⟩
  have hcontains : contains t p := contains_iff.mpr ⟨before, after, by simp [htext]⟩
  obtain ⟨⟨b, a⟩, hcut⟩ := Option.isSome_iff_exists.mp hcontains
  have hlength : b.length = before.length :=
    Nat.le_antisymm (hfirst hcut _ _ htext) (hmin _ _ (eq_of_cut? hcut))
  obtain ⟨rfl, hrest⟩ := List.append_inj ((eq_of_cut? hcut).symm.trans htext) hlength
  obtain rfl := List.append_cancel_left hrest
  exact hcut

/-- What stands around the first occurrence of a character. -/
lemma cut?_singleton_eq_some_iff :
    cut? [c] t = some (before, after) ↔ t = before ++ c :: after ∧ c ∉ before := by
  induction t generalizing before with
  | nil => simp [cut?]
  | cons d t ih =>
      rw [cut?, strip?]
      by_cases hd : c = d
      · subst hd
        cases before with
        | nil => simp [strip?, eq_comm]
        | cons b before => simp +contextual [strip?, eq_comm]
      · rw [if_neg hd]
        simp only [Option.map_eq_some_iff, Prod.exists, Prod.mk.injEq]
        cases before with
        | nil => simp [Ne.symm hd]
        | cons b before =>
            constructor
            · rintro ⟨x, y, hcut, hx, rfl⟩
              obtain ⟨rfl, rfl⟩ := List.cons_eq_cons.mp hx
              obtain ⟨rfl, hnot⟩ := ih.mp hcut
              simp [hd, hnot]
            · rintro ⟨htext, hnot⟩
              obtain ⟨rfl, rfl⟩ := List.cons_eq_cons.mp htext
              have hbefore : c ∉ before := fun h => hnot (List.mem_cons_of_mem _ h)
              exact ⟨before, after, ih.mpr ⟨rfl, hbefore⟩, rfl, rfl⟩

/-- Whether a text begins with another is decided within its first characters. -/
lemma strip?_append_eq_none_iff {x : Text} (h : p.length ≤ x.length) (y z : Text) :
    strip? p (x ++ y) = none ↔ strip? p (x ++ z) = none := by
  induction p generalizing x with
  | nil => simp [strip?]
  | cons d p ih =>
      cases x with
      | nil => simp at h
      | cons e x =>
          rw [List.cons_append, List.cons_append, strip?, strip?]
          split
          · exact ih (by simpa using h)
          · rfl

/-- What stands between the start of a text and the first occurrence of another is all that the
search reads. -/
lemma cut?_append_of_cut? (hp : p ≠ []) (h : cut? p (before ++ (p ++ rest)) = some (before, rest))
    (rest' : Text) : cut? p (before ++ (p ++ rest')) = some (before, rest') := by
  induction before with
  | nil =>
      obtain ⟨d, p, rfl⟩ := List.exists_cons_of_ne_nil hp
      rw [List.nil_append, List.cons_append, cut?, ← List.cons_append, strip?_append]
  | cons c before ih =>
      rw [List.cons_append, cut?] at h
      rw [List.cons_append, cut?]
      split at h
      · simp at h
      · next hstop =>
          obtain ⟨⟨x, y⟩, hcut, hxy⟩ := Option.map_eq_some_iff.mp h
          obtain ⟨hx, rfl⟩ := Prod.mk.inj hxy
          obtain rfl := (List.cons_eq_cons.mp hx).2
          have hstop' : strip? p (c :: (x ++ (p ++ rest'))) = none := by
            have hlong : p.length ≤ (c :: (x ++ p)).length := by
              rw [List.length_cons, List.length_append]
              omega
            have hiff := strip?_append_eq_none_iff hlong y rest'
            simp only [List.cons_append, List.append_assoc] at hiff
            exact hiff.mp hstop
          rw [hstop', ih hcut]
          rfl

/-- A text whose last character stands in it only there first occurs behind what it does not occur
in. -/
lemma cut?_of_contains_eq_false (h : contains before (p ++ [c]) = false) (hc : c ∉ p)
    (rest : Text) :
    cut? (p ++ [c]) (before ++ (p ++ [c] ++ rest)) = some (before, rest) := by
  induction before with
  | nil =>
      obtain ⟨d, q, hq⟩ := List.exists_cons_of_ne_nil (List.append_ne_nil_of_right_ne_nil p
        (List.cons_ne_nil c []))
      rw [List.nil_append, hq, List.cons_append, cut?, ← List.cons_append, strip?_append]
  | cons d before ih =>
      rw [contains, cut?] at h
      rw [List.cons_append, cut?]
      cases hstrip : strip? (p ++ [c]) (d :: before) with
      | some r => simp [hstrip] at h
      | none =>
          simp only [hstrip, Option.isSome_map] at h
          have hnone : strip? (p ++ [c]) (d :: (before ++ (p ++ [c] ++ rest))) = none := by
            by_contra hsome
            obtain ⟨r, hr⟩ := Option.ne_none_iff_exists'.mp hsome
            have htext := eq_of_strip? hr
            rw [← List.cons_append] at htext
            rcases List.append_eq_append_iff.mp htext with ⟨x, hx, hr'⟩ | ⟨x, hx, -⟩
            · rcases List.eq_nil_or_concat x with rfl | ⟨y, e, rfl⟩
              · rw [List.append_nil] at hx
                rw [← hx] at hstrip
                have hself := strip?_append (p ++ [c]) []
                rw [List.append_nil, hstrip] at hself
                cases hself
              · -- the last character would stand within the occurrence behind
                rw [List.concat_eq_append, ← List.append_assoc] at hx
                obtain ⟨hp, he⟩ := List.append_inj' hx rfl
                obtain rfl := List.singleton_inj.mp he
                rw [List.concat_eq_append, List.append_assoc, List.append_assoc] at hr'
                have hlength : y.length < p.length := by
                  rw [hp, List.length_append, List.length_cons]
                  omega
                rcases List.append_eq_append_iff.mp hr' with ⟨z, hz, -⟩ | ⟨z, hz, hr'⟩
                · rw [hz, List.length_append] at hlength
                  omega
                · cases z with
                  | nil => simp [hz] at hlength
                  | cons f z =>
                      obtain rfl := (List.cons.inj hr').1
                      exact hc (by rw [hz]; simp)
            · rw [hx, strip?_append] at hstrip
              cases hstrip
          rw [hnone, ih h]
          rfl

/-- A part without a character ends before the first occurrence of the character. -/
lemma exists_eq_append_of_notMem {x y z : Text} (hx : c ∉ x) (h : t ++ c :: z = x ++ y) :
    ∃ w, t = x ++ w ∧ y = w ++ c :: z := by
  rcases List.append_eq_append_iff.mp h with ⟨w, hw, hw'⟩ | ⟨w, hw, hw'⟩
  · cases w with
    | nil => exact ⟨[], by simpa using hw.symm, by simpa using hw'.symm⟩
    | cons d w =>
        obtain rfl := (List.cons.inj hw').1
        exact absurd (hw ▸ List.mem_append_right _ List.mem_cons_self) hx
  · exact ⟨w, hw, hw'⟩

lemma size_pos (h : t ≠ []) : 0 < size t := by
  obtain ⟨c, u, rfl⟩ := List.exists_cons_of_ne_nil h
  exact Nat.add_pos_left (Char.utf8Size_pos c) _

/-- The text before an offset is the beginning of the text before a later one. -/
lemma exists_eq_append_of_size_le {x y x' y' : Text} (h : x ++ y = x' ++ y')
    (hle : size x ≤ size x') : ∃ m, x' = x ++ m ∧ y = m ++ y' := by
  rcases List.append_eq_append_iff.mp h with ⟨m, hx, hy⟩ | ⟨m, hx, hy⟩
  · exact ⟨m, hx, hy⟩
  · obtain rfl : m = [] := by
      by_contra hne
      have hpos := size_pos hne
      rw [hx, size_append] at hle
      omega
    exact ⟨[], by simpa using hx.symm, by simpa using hy.symm⟩

/-- Two ways to cut a text at one offset are the same. -/
lemma append_inj_of_size_eq {x y x' y' : Text} (h : x ++ y = x' ++ y') (hsize : size x = size x') :
    x = x' ∧ y = y' := by
  obtain ⟨m, rfl, rfl⟩ := exists_eq_append_of_size_le h (Nat.le_of_eq hsize)
  obtain rfl : m = [] := by
    by_contra hne
    have hpos := size_pos hne
    rw [size_append] at hsize
    omega
  exact ⟨(List.append_nil x).symm, rfl⟩

lemma isBoundary_size (a b : Text) : IsBoundary (size a) (a ++ b) := by
  rw [IsBoundary, upTo_size_append]

/-- An offset lies between two characters if it is the size of a beginning of the text. -/
lemma isBoundary_iff {n : Nat} : IsBoundary n t ↔ ∃ a b, t = a ++ b ∧ size a = n := by
  constructor
  · intro h
    exact ⟨upTo n t, fromOffset n t, (upTo_append_fromOffset n t).symm, h⟩
  · rintro ⟨a, b, rfl, rfl⟩
    exact isBoundary_size a b

/-- A text that ends with another one is something and this one. -/
lemma exists_eq_append_of_endsWith (h : endsWith t p) : ∃ u, t = u ++ p := by
  obtain ⟨u, hu⟩ := Option.isSome_iff_exists.mp h
  refine ⟨u.reverse, ?_⟩
  rw [← List.reverse_reverse t, eq_of_strip? hu, List.reverse_append, List.reverse_reverse]

end CanvasSync.Text
