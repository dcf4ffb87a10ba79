import CanvasSync.Proofs.Text.Cuts
import CanvasSync.Utility.Resolve
import CanvasSync.Utility.Validation

/-!
How a class token is put together.

* `splitOpacity?_eq_some_iff`: an opacity is what stands behind the last slash, if it is digits;
* `eq_of_splitVariants`: a token is its variants with colons behind them, and its base;
* `splitVariants_append`: what has neither colons nor brackets may be added to the base;
* `eq_of_splitArbitrary?`: a value in brackets stands behind its name and a hyphen;
* `exists_parts_of_resolve?`: a token that has a style, in its parts, which are found in any order.
-/

namespace CanvasSync

namespace Utility

variable {t base digits : Text} {variants : List Text}

namespace Token

/-- What stands around the last occurrence of a character. -/
lemma cutLast?_eq_some_iff {c : Char} {before after : Text} :
    cutLast? c t = some (before, after) ↔ t = before ++ c :: after ∧ c ∉ after := by
  simp only [cutLast?, Option.map_eq_some_iff, Prod.exists, Prod.mk.injEq,
    Text.cut?_singleton_eq_some_iff]
  constructor
  · rintro ⟨x, y, ⟨ht, hx⟩, rfl, rfl⟩
    refine ⟨?_, by simpa using hx⟩
    rw [← List.reverse_reverse t, ht]
    simp
  · rintro ⟨rfl, hafter⟩
    exact ⟨after.reverse, before.reverse, by simpa using hafter, by simp, by simp⟩

/-- **An opacity is what stands behind the last slash**, if it is digits and something stands before
the slash. -/
theorem splitOpacity?_eq_some_iff :
    splitOpacity? t = some (base, digits)
      ↔ t = base ++ '/' :: digits ∧ base ≠ [] ∧ digits ≠ [] ∧ digits.all Char.isDigit := by
  rw [splitOpacity?]
  constructor
  · intro h
    split at h
    · next b d hcut =>
        split at h
        · next hparts =>
            obtain ⟨rfl, rfl⟩ := Prod.mk.inj (Option.some.inj h)
            exact ⟨(cutLast?_eq_some_iff.mp hcut).1, hparts⟩
        · cases h
    · cases h
  · rintro ⟨rfl, hparts⟩
    have hslash : '/' ∉ digits := fun h => by simpa using List.all_eq_true.mp hparts.2.2 _ h
    rw [cutLast?_eq_some_iff.mpr ⟨rfl, hslash⟩]
    exact if_pos hparts

/-- What has no opacity has none at its end. -/
lemma splitOpacity?_eq_none_of_append {front : Text} (h : splitOpacity? (front ++ t) = none) :
    splitOpacity? t = none := by
  rw [Option.eq_none_iff_forall_ne_some] at h ⊢
  rintro ⟨base, digits⟩ hsome
  obtain ⟨rfl, hbase, hdigits⟩ := splitOpacity?_eq_some_iff.mp hsome
  exact h (front ++ base, digits)
    (splitOpacity?_eq_some_iff.mpr ⟨by simp, by simp [hbase], hdigits⟩)

lemma splitColons_ne_nil (depth : Nat) (t : Text) : splitColons depth t ≠ [] := by
  cases t with
  | nil => simp [splitColons]
  | cons c t =>
      rw [splitColons]
      split
      · simp
      · simp only
        split <;> simp

/-- What stands in a row between colons, with a colon behind each part. -/
def front (variants : List Text) : Text := variants.flatMap fun v => v ++ [':']

lemma front_cons (v : Text) (vs : List Text) : front (v :: vs) = v ++ ':' :: front vs := by
  simp [front]

/-- The parts between the colons of a text make it up. -/
lemma eq_of_splitColons (depth : Nat) (t : Text) :
    front (splitColons depth t).dropLast ++ (splitColons depth t).getLastD [] = t := by
  induction t generalizing depth with
  | nil => simp [splitColons, front]
  | cons c t ih =>
      rw [splitColons]
      split
      · next hc =>
          obtain ⟨p, ps, hps⟩ := List.exists_cons_of_ne_nil (splitColons_ne_nil depth t)
          have ih := ih depth
          rw [hps] at ih ⊢
          rw [List.dropLast_cons_cons, front_cons, List.getLastD_cons, hc.1]
          simpa using ih
      · simp only
        generalize (if c = '[' then depth + 1 else if c = ']' then depth - 1 else depth) = inner
        have ih := ih inner
        obtain ⟨p, ps, hps⟩ := List.exists_cons_of_ne_nil (splitColons_ne_nil inner t)
        rw [hps] at ih ⊢
        cases ps with
        | nil => simpa [front] using ih
        | cons q qs =>
            simp only [List.dropLast_cons_cons, front_cons, List.getLastD_cons] at ih ⊢
            simpa using ih

/-- **A token is its variants with colons behind them, and its base.** -/
theorem eq_of_splitVariants (h : splitVariants t = (variants, base)) : t = front variants ++ base := by
  obtain ⟨rfl, rfl⟩ := Prod.mk.inj h
  exact (eq_of_splitColons 0 t).symm

/-- Whether a text has neither colons nor brackets. -/
def isPlain (t : Text) : Bool := t.all fun c => c ≠ ':' && c ≠ '[' && c ≠ ']'

lemma splitColons_of_isPlain {u : Text} (hu : isPlain u) (depth : Nat) :
    splitColons depth u = [u] := by
  induction u with
  | nil => rfl
  | cons c u ih =>
      rw [isPlain, List.all_cons, Bool.and_eq_true] at hu
      have hc : c ≠ ':' ∧ c ≠ '[' ∧ c ≠ ']' := by simpa [and_assoc] using hu.1
      rw [splitColons, if_neg (by simp [hc.1])]
      simp only [hc.2.1, hc.2.2, if_false, ih hu.2]

lemma splitColons_append (t : Text) {u : Text} (hu : isPlain u) (depth : Nat) :
    splitColons depth (t ++ u)
      = (splitColons depth t).dropLast ++ [(splitColons depth t).getLastD [] ++ u] := by
  induction t generalizing depth with
  | nil => simpa [splitColons] using splitColons_of_isPlain hu depth
  | cons c t ih =>
      rw [List.cons_append, splitColons, splitColons]
      split
      · obtain ⟨p, ps, hps⟩ := List.exists_cons_of_ne_nil (splitColons_ne_nil depth t)
        rw [ih, hps]
        simp
      · simp only
        generalize (if c = '[' then depth + 1 else if c = ']' then depth - 1 else depth) = inner
        obtain ⟨p, ps, hps⟩ := List.exists_cons_of_ne_nil (splitColons_ne_nil inner t)
        rw [ih, hps]
        cases ps <;> simp

/-- What has neither colons nor brackets may be added to the base. -/
theorem splitVariants_append (t : Text) {u : Text} (hu : isPlain u) :
    splitVariants (t ++ u) = ((splitVariants t).1, (splitVariants t).2 ++ u) := by
  simp only [splitVariants]
  rw [splitColons_append t hu]
  simp

/-- A token with a value in brackets is its name, a hyphen and the value between brackets. -/
theorem eq_of_splitArbitrary? {name value : Text} (h : splitArbitrary? t = some (name, value)) :
    t = name ++ ("-[".toList ++ (value ++ [']'])) ∧ name ≠ [] ∧ value ≠ [] := by
  obtain ⟨inner, hinner, h⟩ := Option.bind_eq_some_iff.mp h
  obtain ⟨⟨before, after⟩, hcut, h⟩ := Option.bind_eq_some_iff.mp h
  simp only at h
  split at h
  · next hparts =>
      obtain ⟨rfl, rfl⟩ := Prod.mk.inj (Option.some.inj h)
      refine ⟨?_, hparts⟩
      rw [Text.eq_of_stripEnd? hinner, Text.eq_of_cut? hcut]
      simp
  · cases h

end Token

/-! ### The base of a token -/

/-- The mark of importance of a token, if it has one. -/
def mark (important : Bool) : Text := if important then ['!'] else []

lemma eq_of_splitImportant (t : Text) : t = mark (splitImportant t).1 ++ (splitImportant t).2 := by
  unfold splitImportant mark
  split <;> rfl

lemma splitImportant_append (ht : t ≠ []) (u : Text) :
    splitImportant (t ++ u) = ((splitImportant t).1, (splitImportant t).2 ++ u) := by
  cases t with
  | nil => exact absurd rfl ht
  | cons c t =>
      by_cases hc : c = '!'
      · subst hc
        rfl
      · have hother (t : Text) : splitImportant (c :: t) = (false, c :: t) := by
          unfold splitImportant
          split <;> simp_all
        rw [List.cons_append, hother, hother, List.cons_append]

/-- A class token in its parts, outside in. -/
structure Parts where
  variants : List Text
  important : Bool
  base : Text
  /-- The digits of the opacity. -/
  opacity : Option Text
  deriving DecidableEq, Repr

/-- The opacity of a token as it is written. -/
def opacityText (opacity : Option Text) : Text := (opacity.map fun digits => '/' :: digits).getD []

/-- A token as it is written. -/
def Parts.text (p : Parts) : Text :=
  Token.front p.variants ++ (mark p.important ++ (p.base ++ opacityText p.opacity))

lemma isPlain_opacityText (hdigits : digits.all Char.isDigit) : Token.isPlain ('/' :: digits) := by
  refine List.all_eq_true.mpr fun c hc => ?_
  rcases List.mem_cons.mp hc with rfl | hc
  · rfl
  · have hdigit := List.all_eq_true.mp hdigits c hc
    have hnot : c ≠ ':' ∧ c ≠ '[' ∧ c ≠ ']' := by
      refine ⟨?_, ?_, ?_⟩ <;> rintro rfl <;> simp at hdigit
    simp [hnot]

/-- A base without an opacity is found behind the mark of importance. -/
lemma baseOf_of_splitOpacity?_eq_none (h : Token.splitOpacity? (splitImportant t).2 = none) :
    Catalog.baseOf t = (splitImportant t).2 := by
  rw [Catalog.baseOf]
  simp only [h]

/-- A base is found before its opacity. -/
lemma baseOf_append_opacity (hbase : (splitImportant t).2 ≠ []) (hne : digits ≠ [])
    (hdigits : digits.all Char.isDigit) :
    Catalog.baseOf (t ++ '/' :: digits) = (splitImportant t).2 := by
  have ht : t ≠ [] := by
    rintro rfl
    exact hbase rfl
  rw [Catalog.baseOf, splitImportant_append ht]
  simp only [Token.splitOpacity?_eq_some_iff.mpr ⟨rfl, hbase, hne, hdigits⟩]

/-- **A token that has a style, in its parts**: its variants name a breakpoint or are none, its base
has a declaration and its opacity is a known step. Whoever takes the variants off first and the
opacity last finds the same variants and the same base. -/
theorem exists_parts_of_resolve? {table : Table} {s : Style} (h : resolve? table t = some s) :
    ∃ p : Parts, t = p.text
      ∧ breakpointOf? p.variants = some s.breakpoint
      ∧ p.important = s.important
      ∧ baseDeclaration? table p.base = some ⟨s.property, s.value⟩
      ∧ (∀ digits ∈ p.opacity, digits ≠ [] ∧ digits.all Char.isDigit
        ∧ Number.ofDigits digits ∈ Table.opacitySteps)
      ∧ (Token.splitVariants t).1 = p.variants
      ∧ Catalog.baseOf (Token.splitVariants t).2 = p.base := by
  rw [resolve?] at h
  obtain ⟨token, htoken, h⟩ := Option.bind_eq_some_iff.mp h
  simp only at h
  obtain ⟨breakpoint, hbreakpoint, h⟩ := Option.bind_eq_some_iff.mp h
  split at h
  · cases h
  next hbase =>
  obtain ⟨d, hd, h⟩ := Option.bind_eq_some_iff.mp h
  obtain rfl := Option.some.inj h
  obtain ⟨hfound, -⟩ := not_or.mp hbase
  have htext : token = Token.front (Token.splitVariants token).1
      ++ (mark (splitImportant (Token.splitVariants token).2).1
        ++ (splitImportant (Token.splitVariants token).2).2) := by
    rw [← eq_of_splitImportant]
    exact Token.eq_of_splitVariants rfl
  rw [withoutOpacity?] at htoken
  cases hsplit : Token.splitOpacity? t with
  | none =>
      rw [hsplit] at htoken
      obtain rfl := Option.some.inj htoken
      refine ⟨⟨_, _, _, none⟩, by simpa [Parts.text, opacityText] using htext, hbreakpoint, rfl, hd,
        by simp, rfl, baseOf_of_splitOpacity?_eq_none ?_⟩
      -- an opacity of the base would be one of the token
      rw [htext, ← List.append_assoc] at hsplit
      exact Token.splitOpacity?_eq_none_of_append hsplit
  | some r =>
      obtain ⟨before, digits⟩ := r
      rw [hsplit] at htoken
      simp only at htoken
      split at htoken
      next hstep =>
        obtain rfl := Option.some.inj htoken
        obtain ⟨rfl, -, hne, hdigits⟩ := Token.splitOpacity?_eq_some_iff.mp hsplit
        have hvariants := Token.splitVariants_append before (isPlain_opacityText hdigits)
        refine ⟨⟨_, _, _, some digits⟩, ?_, hbreakpoint, rfl, hd, ?_, by rw [hvariants], ?_⟩
        · simp only [Parts.text, opacityText, Option.map_some, Option.getD_some]
          rw [← List.append_assoc, ← List.append_assoc, List.append_assoc (Token.front _), ← htext]
        · simpa using ⟨hne, by simpa using hdigits, hstep⟩
        · rw [hvariants]
          exact baseOf_append_opacity hfound hne hdigits
      · cases htoken

end Utility

end CanvasSync
