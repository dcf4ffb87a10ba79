import CanvasSync.Proofs.Utility.Readings
import Mathlib.Algebra.Order.Field.Basic
import Mathlib.Algebra.Order.Field.Rat
import Mathlib.Data.Nat.Digits.Lemmas
import Mathlib.Tactic.Linarith
import Mathlib.Tactic.Positivity

/-!
The lengths of the scale.

* `ofDigits_injective`: digits are known by their number and what they make;
* `IsDecimal`: the decimal of a rational number, of which there is one at most;
* `isDecimal_fractionText`: quarters are written as their decimals;
* `Scale.Denotes`: a token of the scale with the property that it sets and its signed number;
* `Scale.IsLength`: the length of a signed number, in quarters of a rem;
* `Scale.declaration?_exact`: a token of the scale sets its property to the length of its number.
-/

namespace CanvasSync.Number

variable {ds es : List Char}

lemma ofDigits_eq (ds : List Char) : ofDigits ds = Nat.ofDigits 10 (ds.reverse.map digitValue) := by
  rw [Nat.ofDigits_eq_foldr, List.foldr_map, List.foldr_reverse, ofDigits]
  simp only [Nat.add_comm, Nat.cast_id]

lemma digitValue_lt {c : Char} (h : c.isDigit) : digitValue c < 10 := by
  have hends : '0'.toNat = 48 ∧ '9'.toNat = 57 := ⟨rfl, rfl⟩
  have hhigh : c.toNat ≤ '9'.toNat := by
    simp only [Char.isDigit, Bool.and_eq_true, decide_eq_true_eq] at h
    exact h.2
  rw [digitValue]
  omega

/-- A digit is the one of its value. -/
lemma digitChar_digitValue {c : Char} (h : c.isDigit) : (digitValue c).digitChar = c := by
  have hzero : '0'.toNat = 48 := rfl
  have hlow : '0'.toNat ≤ c.toNat := by
    simp only [Char.isDigit, Bool.and_eq_true, decide_eq_true_eq, ge_iff_le] at h
    exact h.1
  have hvalue := Nat.toNat_digitChar_of_lt_ten (digitValue_lt h)
  rw [digitValue] at hvalue ⊢
  exact Char.toNat_inj.mp (by omega)

/-- Digits make less than a power of ten. -/
lemma ofDigits_lt (h : ds.all Char.isDigit) : ofDigits ds < 10 ^ ds.length := by
  rw [ofDigits_eq]
  have hdigits : ∀ x ∈ ds.reverse.map digitValue, x < 10 := by
    simpa using fun c hc => digitValue_lt (List.all_eq_true.mp h c hc)
  simpa using Nat.ofDigits_lt_base_pow_length (by decide) hdigits

/-- Digits are known by their number and what they make. -/
lemma ofDigits_injective (hds : ds.all Char.isDigit) (hes : es.all Char.isDigit)
    (hlength : ds.length = es.length) (h : ofDigits ds = ofDigits es) : ds = es := by
  have hdigits {cs : List Char} (hcs : cs.all Char.isDigit) :
      ∀ x ∈ cs.reverse.map digitValue, x < 10 := by
    simpa using fun c hc => digitValue_lt (List.all_eq_true.mp hcs c hc)
  rw [ofDigits_eq, ofDigits_eq] at h
  have hvalues := Nat.ofDigits_inj_of_len_eq (by decide) (by simpa using hlength) (hdigits hds)
    (hdigits hes) h
  have hback {cs : List Char} (hcs : cs.all Char.isDigit) :
      (cs.reverse.map digitValue).map Nat.digitChar = cs.reverse := by
    rw [List.map_map]
    refine (List.map_congr_left fun c hc => ?_).trans (List.map_id _)
    exact digitChar_digitValue (List.all_eq_true.mp hcs c (List.mem_reverse.mp hc))
  exact List.reverse_inj.mp (by rw [← hback hds, ← hback hes, hvalues])

lemma ofDigits_append_replicate (ds : List Char) (k : Nat) :
    ofDigits (ds ++ List.replicate k '0') = 10 ^ k * ofDigits ds := by
  have happend : ofDigits (ds ++ List.replicate k '0')
      = Nat.ofDigitChars 10 (List.replicate k '0') (ofDigits ds) := Nat.ofDigitChars_append 0
  rw [happend, Nat.ofDigitChars_replicate_zero]

end CanvasSync.Number

namespace CanvasSync.Utility

open Number (digitsOf ofDigits)

variable {t u fraction fraction' : Text} {q r : ℚ} {whole whole' : Nat}

/-! ### Decimals -/

/-- Whether some digits stand behind the point of a decimal: the last of them is no zero. -/
def IsFraction (fraction : Text) : Prop :=
  fraction.all Char.isDigit ∧ fraction.getLast? ≠ some '0'

instance (fraction : Text) : Decidable (IsFraction fraction) := inferInstanceAs (Decidable (_ ∧ _))

/-- The text of a decimal. If there are no digits behind the point there is no point. -/
def decimalText (whole : Nat) (fraction : Text) : Text :=
  digitsOf whole ++ if fraction = [] then [] else '.' :: fraction

/-- The number of a decimal. -/
def decimalValue (whole : Nat) (fraction : Text) : ℚ :=
  whole + ofDigits fraction / 10 ^ fraction.length

/-- A text is the decimal of a number, without zeros at its end. -/
def IsDecimal (t : Text) (q : ℚ) : Prop :=
  ∃ whole fraction, IsFraction fraction ∧ t = decimalText whole fraction
    ∧ q = decimalValue whole fraction

/-- The text of a decimal shows its parts. -/
lemma decimalText_injective (h : decimalText whole fraction = decimalText whole' fraction') :
    whole = whole' ∧ fraction = fraction' := by
  have hdigits (n : Nat) : ∀ c ∈ digitsOf n, c.isDigit := fun _ =>
    Nat.isDigit_of_mem_toDigits (by decide) (by decide)
  have hsplit (whole : Nat) (fraction : Text) :
      (decimalText whole fraction).takeWhile Char.isDigit = digitsOf whole
        ∧ (decimalText whole fraction).dropWhile Char.isDigit
          = if fraction = [] then [] else '.' :: fraction := by
    have hpoint : '.'.isDigit = false := by decide
    rw [decimalText, List.takeWhile_append_of_pos (hdigits whole),
      List.dropWhile_append_of_pos (hdigits whole)]
    split <;> simp [hpoint]
  obtain ⟨hwhole, hfraction⟩ := hsplit whole fraction
  obtain ⟨hwhole', hfraction'⟩ := hsplit whole' fraction'
  rw [h] at hwhole hfraction
  have hnumber : whole = whole' := by
    have hread := congrArg (fun ds => Nat.ofDigitChars 10 ds 0) (hwhole.symm.trans hwhole')
    simpa [digitsOf] using hread
  have hrest := hfraction.symm.trans hfraction'
  refine ⟨hnumber, ?_⟩
  split_ifs at hrest with h1 h2 h2
  · rw [h1, h2]
  · exact (List.cons_eq_cons.mp hrest).2

/-- Of two fractions that make the same, neither is the longer one. -/
lemma fraction_unique (h : IsFraction fraction) (h' : IsFraction fraction')
    (heq : ofDigits fraction * 10 ^ fraction'.length = ofDigits fraction' * 10 ^ fraction.length) :
    fraction = fraction' := by
  wlog hle : fraction.length ≤ fraction'.length generalizing fraction fraction'
  · exact (this h' h heq.symm (Nat.le_of_not_le hle)).symm
  obtain ⟨k, hk⟩ := Nat.exists_eq_add_of_le hle
  have hvalue : ofDigits (fraction ++ List.replicate k '0') = ofDigits fraction' := by
    rw [Number.ofDigits_append_replicate]
    rw [hk, Nat.pow_add, Nat.mul_comm (10 ^ _), ← Nat.mul_assoc] at heq
    rw [Nat.mul_comm]
    exact Nat.eq_of_mul_eq_mul_right (Nat.pow_pos (by decide)) heq
  have hpadded : fraction ++ List.replicate k '0' = fraction' := by
    refine Number.ofDigits_injective ?_ h'.1 (by simp [hk]) hvalue
    rw [List.all_append, h.1, Bool.true_and]
    simp
  cases k with
  | zero => simpa using hpadded
  | succ k =>
      refine absurd ?_ h'.2
      rw [← hpadded, List.replicate_succ', ← List.append_assoc, List.getLast?_concat]

/-- A number has one decimal at most. -/
lemma IsDecimal.unique (h : IsDecimal t q) (h' : IsDecimal u q) : t = u := by
  obtain ⟨whole, fraction, hfraction, rfl, rfl⟩ := h
  obtain ⟨whole', fraction', hfraction', rfl, heq⟩ := h'
  have hbelow {fraction : Text} (h : IsFraction fraction) :
      (0 : ℚ) ≤ ofDigits fraction / 10 ^ fraction.length
        ∧ (ofDigits fraction : ℚ) / 10 ^ fraction.length < 1 := by
    refine ⟨by positivity, (div_lt_one (by positivity)).mpr ?_⟩
    exact_mod_cast Number.ofDigits_lt h.1
  obtain ⟨hlow, hhigh⟩ := hbelow hfraction
  obtain ⟨hlow', hhigh'⟩ := hbelow hfraction'
  rw [decimalValue, decimalValue] at heq
  obtain rfl : whole = whole' := by
    have hle : (whole : ℚ) < whole' + 1 := by linarith
    have hge : (whole' : ℚ) < whole + 1 := by linarith
    norm_cast at hle hge
    omega
  have hparts := add_left_cancel heq
  rw [div_eq_div_iff (by positivity) (by positivity)] at hparts
  rw [fraction_unique hfraction hfraction' (by exact_mod_cast hparts)]

/-- A text is the decimal of one number at most. -/
lemma IsDecimal.number_eq (h : IsDecimal t q) (h' : IsDecimal t r) : q = r := by
  obtain ⟨whole, fraction, -, rfl, rfl⟩ := h
  obtain ⟨whole', fraction', -, htext, rfl⟩ := h'
  obtain ⟨rfl, rfl⟩ := decimalText_injective htext
  rfl

/-- **Quarters are written as their decimals.** -/
lemma isDecimal_fractionText (n : Nat) : IsDecimal (fractionText (25 * n)) (n / 4) := by
  obtain ⟨w, k, hk, rfl⟩ : ∃ w k, k < 4 ∧ n = 4 * w + k :=
    ⟨n / 4, n % 4, Nat.mod_lt n (by decide), (Nat.div_add_mod n 4).symm⟩
  have hwhole : 25 * (4 * w + k) / 100 = w := by omega
  have hrest : 25 * (4 * w + k) % 100 = 25 * k := by omega
  have hvalue (fraction : Text) (h : (ofDigits fraction : ℚ) / 10 ^ fraction.length = k / 4) :
      ((4 * w + k : Nat) : ℚ) / 4 = decimalValue w fraction := by
    rw [decimalValue, h]
    push_cast
    ring
  simp only [fractionText, hwhole, hrest]
  obtain rfl | rfl | rfl | rfl : k = 0 ∨ k = 1 ∨ k = 2 ∨ k = 3 := by omega
  · exact ⟨w, [], by decide, (List.append_nil _).symm, hvalue [] (by simp [ofDigits])⟩
  · have hdigits : ofDigits ['2', '5'] = 25 := rfl
    exact ⟨w, ['2', '5'], by decide, rfl, hvalue _ (by norm_num [hdigits])⟩
  · have hdigits : ofDigits ['5'] = 5 := rfl
    exact ⟨w, ['5'], by decide, rfl, hvalue _ (by norm_num [hdigits])⟩
  · have hdigits : ofDigits ['7', '5'] = 75 := rfl
    exact ⟨w, ['7', '5'], by decide, rfl, hvalue _ (by norm_num [hdigits])⟩

/-- A decimal begins with a digit. -/
lemma IsDecimal.exists_cons (h : IsDecimal t q) : ∃ c u, t = c :: u ∧ c.isDigit := by
  obtain ⟨whole, fraction, -, rfl, -⟩ := h
  obtain ⟨c, ds, hds⟩ := List.exists_cons_of_ne_nil (Nat.toDigits_ne_nil (b := 10) (n := whole))
  have hmem : c ∈ Nat.toDigits 10 whole := by
    rw [hds]
    exact List.mem_cons_self
  have hc := Nat.isDigit_of_mem_toDigits (by decide) (by decide) hmem
  exact ⟨c, _, by rw [decimalText, digitsOf, hds, List.cons_append], hc⟩

namespace Scale

variable {v w : Text} {y z : ℤ} {property : String} {d : Declaration}

/-! ### Lengths -/

/-- The length of a signed number: `0px` for none, and else a quarter of a rem for each. -/
def IsLength (v : Text) (z : ℤ) : Prop :=
  z = 0 ∧ v = "0px".toList
    ∨ z ≠ 0 ∧ ∃ t, IsDecimal t (z.natAbs / 4)
      ∧ v = (if z < 0 then ['-'] else []) ++ (t ++ "rem".toList)

/-- A step with its sign. -/
def signed (step : Nat) (negative : Bool) : ℤ := if negative then -step else step

lemma natAbs_signed (step : Nat) (negative : Bool) : (signed step negative).natAbs = step := by
  cases negative <;> simp [signed]

/-- A step has the length of its signed number. -/
lemma isLength_length (step : Nat) (negative : Bool) :
    IsLength (length step negative) (signed step negative) := by
  have hzero : signed step negative = 0 ↔ step = 0 := by
    rw [← Int.natAbs_eq_zero, natAbs_signed]
  rw [length]
  by_cases h : step = 0
  · exact .inl ⟨hzero.mpr h, if_pos h⟩
  · have hsign : (signed step negative < 0) = (negative = true) := by
      cases negative <;> simp [signed]
      omega
    rw [if_neg h]
    refine .inr ⟨hzero.not.mpr h, _, by rw [natAbs_signed]; exact isDecimal_fractionText step, ?_⟩
    simp only [hsign, List.append_assoc]

/-- A signed number has one length at most. -/
lemma IsLength.unique (h : IsLength v z) (h' : IsLength w z) : v = w := by
  rcases h with ⟨hz, rfl⟩ | ⟨hz, t, ht, rfl⟩ <;> rcases h' with ⟨hz', rfl⟩ | ⟨hz', u, hu, rfl⟩
  · rfl
  · exact absurd hz hz'
  · exact absurd hz' hz
  · rw [ht.unique hu]

/-- A length is that of one signed number at most. -/
lemma IsLength.number_eq (h : IsLength v y) (h' : IsLength v z) : y = z := by
  have hunit (sign t : Text) : sign ++ (t ++ "rem".toList) ≠ "0px".toList := by
    intro heq
    have hlast := congrArg List.getLast? heq
    rw [← List.append_assoc, List.getLast?_append_of_ne_nil _ (by decide)] at hlast
    exact absurd hlast (by decide)
  -- a sign is no part of a decimal
  have hsign {t u : Text} {q : ℚ} (hu : IsDecimal u q) :
      ['-'] ++ (t ++ "rem".toList) ≠ [] ++ (u ++ "rem".toList) := by
    obtain ⟨c, u, rfl, hc⟩ := hu.exists_cons
    intro heq
    obtain rfl := (List.cons_eq_cons.mp heq).1
    exact absurd hc (by decide)
  rcases h with ⟨hy, rfl⟩ | ⟨hy, t, ht, rfl⟩ <;> rcases h' with ⟨hz, heq⟩ | ⟨hz, u, hu, heq⟩
  · rw [hy, hz]
  · exact absurd heq.symm (hunit _ u)
  · exact absurd heq (hunit _ t)
  · have hsame : (y < 0 ↔ z < 0) ∧ t = u := by
      split_ifs at heq with hneg hneg' hneg'
      · exact ⟨by simp [hneg, hneg'], by simpa using heq⟩
      · exact absurd heq (hsign hu)
      · exact absurd heq.symm (hsign ht)
      · exact ⟨by simp [hneg, hneg'], by simpa using heq⟩
    obtain ⟨hneg, rfl⟩ := hsame
    have habs : y.natAbs = z.natAbs := by
      have hquarters := ht.number_eq hu
      rw [div_left_inj' (by norm_num)] at hquarters
      exact_mod_cast hquarters
    omega

/-! ### Tokens -/

/-- A token of the scale with the property that it sets and its number: a sign, which only margins
have, a name of the scale, a hyphen, and digits for a number below `2 ^ 32`. -/
def Denotes (t : Text) (property : String) (z : ℤ) : Prop :=
  ∃ (negative : Bool) (name digits : Text),
    t = (if negative then ['-'] else []) ++ (name ++ '-' :: digits)
      ∧ names.lookup (String.ofList name) = some property
      ∧ digits ≠ [] ∧ digits.all Char.isDigit ∧ ofDigits digits < 2 ^ 32
      ∧ (negative → isMargin property) ∧ z = signed (ofDigits digits) negative

/-- A token that denotes a number sets its property to the length of that. -/
lemma Denotes.exists_declaration? (h : Denotes t property z) :
    ∃ v, declaration? t = some ⟨property, String.ofList v⟩ ∧ IsLength v z := by
  obtain ⟨negative, name, digits, rfl, hproperty, hne, hdigits, hstep, hmargin, rfl⟩ := h
  obtain ⟨hname, hletters⟩ := letters_of_lookup hproperty
  have hsplit : split? ((if negative then ['-'] else []) ++ (name ++ '-' :: digits))
      = some (negative, name, ofDigits digits) :=
    split?_eq_some_iff.mpr ⟨digits, rfl, hname, hletters, hne, hdigits, Nat.le_of_lt_succ hstep, rfl⟩
  refine ⟨length (ofDigits digits) negative, ?_, isLength_length _ _⟩
  rw [declaration?, hsplit]
  cases negative <;> simp_all

/-- A declaration of the scale is that of a token which denotes a number. -/
lemma exists_denotes (h : declaration? t = some d) :
    ∃ z, Denotes t d.property z ∧ IsLength d.value.toList z := by
  obtain ⟨⟨negative, name, step⟩, hsplit, h⟩ := Option.bind_eq_some_iff.mp h
  obtain ⟨property, hproperty, h⟩ := Option.bind_eq_some_iff.mp h
  obtain ⟨digits, rfl, -, -, hne, hdigits, hstep, rfl⟩ := split?_eq_some_iff.mp hsplit
  split_ifs at h with hsign
  obtain rfl := Option.some.inj h
  refine ⟨signed (ofDigits digits) negative, ⟨negative, name, digits, rfl, hproperty, hne, hdigits,
    Nat.lt_succ_of_le hstep, fun hneg => ?_, rfl⟩, ?_⟩
  · by_contra hmargin
    exact hsign ⟨hneg, by simpa using hmargin⟩
  · rw [String.toList_ofList]
    exact isLength_length _ _

/-- **The scale.** A token has a declaration exactly if it denotes a number of a property, and this is
that property with the length of the number. Of two tokens that denote numbers the values are equal
exactly if the numbers are. -/
theorem declaration?_exact :
    (∀ t, (declaration? t).isSome ↔ ∃ property z, Denotes t property z)
      ∧ (∀ t d, declaration? t = some d
        ↔ ∃ z, Denotes t d.property z ∧ IsLength d.value.toList z)
      ∧ ∀ t u property property' y z, Denotes t property y → Denotes u property' z →
        ((declaration? t).map Declaration.value = (declaration? u).map Declaration.value
          ↔ y = z) := by
  refine ⟨fun t => ⟨fun h => ?_, ?_⟩, fun t d => ⟨exists_denotes, ?_⟩, ?_⟩
  · obtain ⟨d, hd⟩ := Option.isSome_iff_exists.mp h
    obtain ⟨z, hz, -⟩ := exists_denotes hd
    exact ⟨d.property, z, hz⟩
  · rintro ⟨property, z, hz⟩
    obtain ⟨v, hv, -⟩ := hz.exists_declaration?
    rw [hv, Option.isSome_some]
  · rintro ⟨z, hz, hlength⟩
    obtain ⟨v, hv, hv'⟩ := hz.exists_declaration?
    rw [hv, hv'.unique hlength, String.ofList_toList]
  · intro t u property property' y z hy hz
    obtain ⟨v, hv, hlength⟩ := hy.exists_declaration?
    obtain ⟨w, hw, hlength'⟩ := hz.exists_declaration?
    rw [hv, hw, Option.map_some, Option.map_some, Option.some_inj, String.ofList_inj]
    exact ⟨fun h => hlength.number_eq (h ▸ hlength'), fun h => hlength.unique (h ▸ hlength')⟩

/-- Two tokens of one margin with zeros in front of their steps. -/
theorem declaration?_exact_margins :
    Denotes "-my-05".toList "margin-top" (-5) ∧ Denotes "-mt-5".toList "margin-top" (-5)
      ∧ declaration? "-my-05".toList = some ⟨"margin-top", "-1.25rem"⟩
      ∧ (declaration? "-my-05".toList).map Declaration.value
        = (declaration? "-mt-5".toList).map Declaration.value := by
  have hzero : Denotes "-my-05".toList "margin-top" (-5) :=
    ⟨true, "my".toList, "05".toList, by decide⟩
  have hplain : Denotes "-mt-5".toList "margin-top" (-5) :=
    ⟨true, "mt".toList, "5".toList, by decide⟩
  obtain ⟨-, -, hvalues⟩ := declaration?_exact
  exact ⟨hzero, hplain, by decide +kernel, (hvalues _ _ _ _ _ _ hzero hplain).mpr rfl⟩

end Scale

end CanvasSync.Utility
