import CanvasSync.Proofs.Json.Plain

/-!
The characters of JSON text.

* `isBare`, `all_isBare_number`: a number is written in letters, digits, signs and points;
* `Text.isOneLine`: texts without line ends;
* `isOneLine_text`: there are no line ends in the text of a value, whatever is in its strings.
-/

namespace CanvasSync

/-! ### Texts without line ends -/

namespace Text

/-- Whether there are no line ends in a text. -/
def isOneLine (t : Text) : Bool := t.all fun c => c ≠ '\n' && c ≠ '\r'

lemma notMem_of_isOneLine {t : Text} (h : isOneLine t) : '\n' ∉ t := fun hmem => by
  simpa using List.all_eq_true.mp h _ hmem

lemma isOneLine_append (t u : Text) : isOneLine (t ++ u) = (isOneLine t && isOneLine u) :=
  List.all_append

lemma isOneLine_flatMap {α : Type} {f : α → Text} {xs : List α} (h : ∀ x ∈ xs, isOneLine (f x)) :
    isOneLine (xs.flatMap f) := by
  refine List.all_eq_true.mpr fun c hc => ?_
  obtain ⟨x, hx, hc⟩ := List.mem_flatMap.mp hc
  exact List.all_eq_true.mp (h x hx) c hc

lemma isOneLine_cons (c : Char) (t : Text) :
    isOneLine (c :: t) = ((c ≠ '\n' && c ≠ '\r') && isOneLine t) :=
  List.all_cons

end Text

namespace Json

open CanvasSync.Number (Decimal Layout digitsOf doubleText dropTrailingZeros)
open CanvasSync.Text (isOneLine isOneLine_append isOneLine_cons isOneLine_flatMap)

/-! ### Numbers -/

/-- Whether a character can stand in a word or in a number. -/
def isBare (c : Char) : Bool := c.isAlphanum || c = '+' || c = '-' || c = '.'

lemma ne_of_isBare {c x : Char} (h : isBare c) (hx : isBare x = false) : c ≠ x := by
  rintro rfl
  rw [h] at hx
  cases hx

lemma all_isBare_digitsOf (n : Nat) : (digitsOf n).all isBare := by
  refine List.all_eq_true.mpr fun c hc => ?_
  have hdigit : c.isDigit := Nat.isDigit_of_mem_toDigits (by decide) (by decide) hc
  simp [isBare, Char.isAlphanum, hdigit]

lemma all_isBare_decimal (l : Layout) (d : Decimal) : (l.text d).all isBare := by
  have hzero : isBare '0' := by decide
  have hzeros (n : Nat) : (List.replicate n '0').all isBare :=
    List.all_eq_true.mpr fun c hc => by rw [List.eq_of_mem_replicate hc, hzero]
  have hdropped : (dropTrailingZeros (digitsOf d.digits)).all isBare := by
    refine List.all_eq_true.mpr fun c hc => ?_
    rw [dropTrailingZeros, List.mem_reverse] at hc
    have hmem := List.mem_reverse.mp ((List.dropWhile_sublist _).subset hc)
    exact List.all_eq_true.mp (all_isBare_digitsOf d.digits) c hmem
  unfold Layout.text
  extract_lets all lead ds whole front back first rest
  have hall : ds.all isBare := by
    simp only [ds]
    split
    · decide
    · exact hdropped
  have htake (n : Nat) : (ds.take n).all isBare :=
    List.all_eq_true.mpr fun c hc => List.all_eq_true.mp hall c (List.mem_of_mem_take hc)
  have hdrop (n : Nat) : (ds.drop n).all isBare :=
    List.all_eq_true.mpr fun c hc => List.all_eq_true.mp hall c (List.mem_of_mem_drop hc)
  have hsigns : isBare '.' ∧ isBare 'e' ∧ isBare '-' ∧ isBare '+' := by decide
  obtain ⟨hdot, hexponent, hminus, hplus⟩ := hsigns
  have hfront : front.all isBare := by rw [List.all_append, htake, hzeros]; rfl
  have hback : back.all isBare := hdrop whole
  have hfirst : first.all isBare := htake 1
  have hrest : rest.all isBare := hdrop 1
  clear_value ds front back first rest
  split_ifs <;> simp only [List.all_append, List.all_cons, List.all_nil, hall, hfront, hback, hfirst,
    hrest, hzero, hzeros, hdot, hexponent, hminus, hplus, all_isBare_digitsOf, Bool.and_true]

/-- A number is written in letters, digits, signs and points; one that is not finite, as a word. -/
lemma all_isBare_number (n : Number) : n.text.all isBare := by
  cases n with
  | whole i =>
      rw [Number.text]
      split
      · exact all_isBare_digitsOf i.natAbs
      · exact all_isBare_digitsOf i.natAbs
  | double x =>
      rw [Number.text, doubleText]
      cases CanvasSync.Number.shortest .double x with
      | none => rfl
      | some d =>
          rw [Option.map_some, Option.getD_some, List.all_append, all_isBare_decimal, Bool.and_true]
          split <;> decide

/-! ### Values -/

lemma isOneLine_of_all_isBare {t : Text} (h : t.all isBare) : isOneLine t := by
  refine List.all_eq_true.mpr fun c hc => ?_
  have hbare : isBare c := List.all_eq_true.mp h c hc
  simp [ne_of_isBare hbare (x := '\n') (by decide), ne_of_isBare hbare (x := '\r') (by decide)]

lemma isOneLine_escape (c : Char) : isOneLine (escape c) := by
  have hdigit : ∀ n, isOneLine [hexDigit n] := by
    intro n
    have hall : ∀ m < 16, isOneLine [(Nat.toDigits 16 m).headD '0'] := by decide
    exact hall _ (Nat.mod_lt n (by decide))
  unfold escape
  split_ifs with h₁ h₂ h₃ h₄ hfeed hreturn <;> try decide
  · have hfirst := hdigit (c.toNat / 16)
    have hsecond := hdigit c.toNat
    simp only [isOneLine, List.all_cons, List.all_nil, Bool.and_true] at hfirst hsecond ⊢
    rw [hfirst, hsecond]
    rfl
  · simp [isOneLine, hfeed, hreturn]

lemma isOneLine_quote (t : Text) : isOneLine (quote t) := by
  rw [quote, isOneLine_cons, isOneLine_append, isOneLine_flatMap fun c _ => isOneLine_escape c]
  rfl

/-- There are no line ends in the text of a value. -/
lemma isOneLine_text (v : Value) : isOneLine v.text := by
  induction v using valueInduction with
  | null => decide
  | bool b => cases b <;> decide
  | number n => exact isOneLine_of_all_isBare (all_isBare_number n)
  | string s => exact isOneLine_quote s.toList
  | array items ih =>
      cases items with
      | nil => decide
      | cons v vs =>
          rw [List.forall_mem_cons] at ih
          have hrest : isOneLine (vs.flatMap fun w => ',' :: w.text) :=
            isOneLine_flatMap fun w hw => by
              rw [isOneLine_cons, ih.2 w hw]
              rfl
          rw [text_array_cons, isOneLine_cons, isOneLine_append, isOneLine_append, hrest, ih.1]
          rfl
  | object members ih =>
      have hmember (m : String × Value) (hm : m ∈ members) : isOneLine (memberText m) := by
        rw [memberText, isOneLine_append, isOneLine_quote, isOneLine_cons, ih m hm]
        rfl
      cases members with
      | nil => decide
      | cons m ms =>
          rw [List.forall_mem_cons] at hmember
          have hrest : isOneLine (ms.flatMap fun n => ',' :: memberText n) :=
            isOneLine_flatMap fun n hn => by
              rw [isOneLine_cons, hmember.2 n hn]
              rfl
          rw [text_object_cons, isOneLine_cons, isOneLine_append, isOneLine_append, hrest,
            hmember.1]
          rfl

end Json

end CanvasSync
