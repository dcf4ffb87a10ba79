import CanvasSync.Proofs.Json.Characters
import CanvasSync.Proofs.Line.Tags

/-!
Values of attributes as they are written.

The scan for the end of a tag counts braces outside quotes, the scan for the end of a value counts
those within quotes too, and neither of them knows of escapes. So it matters what stands within the
literals of a value.

* `IsBalanced`, `IsValue`: expressions and values with literals of a kind;
* `IsBalanced.scan_append`, `IsBalanced.afterBraces?_append`: what the scans make of an expression;
* `IsValue.isLevel`, `IsValue.endsThere`: a value leaves nothing open, and ends where it is written;
* `isValue_valueText`: what is written for a prop is such a value, if there are no quotes and no
  braces in the strings of the prop.
-/

namespace CanvasSync.Line

open CanvasSync.Json (Value all_isBare_number escape isBare itemsText_cons memberText
  membersText_cons ne_of_isBare quote valueInduction)
open CanvasSync.Script.Grammar (valueText)
open Tag (IsLevel afterBraces? afterValue? scan)

/-! ### Values as they are written -/

/-- Whether a character begins a literal. -/
def isQuote (c : Char) : Bool := c = '"' || c = '\'' || c = '\x60'

/-- Whether a character of an expression stands for itself. -/
def isCode (c : Char) : Bool := !isQuote c && c ≠ '\x7b' && c ≠ '\x7d'

/-- Expressions with balanced braces, and with literals of which nothing is known but what stands
within them. -/
inductive IsBalanced (inside : Char → Text → Prop) : Text → Prop
  | nil : IsBalanced inside []
  | code {c : Char} {t : Text} (hc : isCode c) (ht : IsBalanced inside t) : IsBalanced inside (c :: t)
  | literal {q : Char} {w t : Text} (hquote : isQuote q) (hw : inside q w)
    (ht : IsBalanced inside t) : IsBalanced inside (q :: (w ++ q :: t))
  | braces {e t : Text} (he : IsBalanced inside e) (ht : IsBalanced inside t) :
    IsBalanced inside ('\x7b' :: (e ++ '\x7d' :: t))

/-- What stands behind the name of an attribute: nothing, a string in quotes, or an expression in
braces. -/
inductive IsValue (inside : Char → Text → Prop) : Text → Prop
  | bare : IsValue inside []
  | quoted {q : Char} {w : Text} (hq : q = '"' ∨ q = '\'') (hw : q ∉ w) :
    IsValue inside ('=' :: q :: (w ++ [q]))
  | braced {e : Text} (he : IsBalanced inside e) : IsValue inside ('=' :: '\x7b' :: (e ++ ['\x7d']))

/-- The inside of a literal: its quote stands in it only behind a backslash. -/
def isEscaped (q : Char) : Text → Bool
  | [] => true
  | ['\\'] => false
  | '\\' :: _ :: t => isEscaped q t
  | c :: t => c ≠ q && isEscaped q t

/-- The inside of a literal without its quote. -/
def IsPlain (q : Char) (w : Text) : Prop := q ∉ w

/-- The inside of a literal without its quote and without braces. -/
def IsClear (q : Char) (w : Text) : Prop := q ∉ w ∧ '\x7b' ∉ w ∧ '\x7d' ∉ w

variable {inside : Char → Text → Prop} {w t e : Text} {v : Value} {key : String}

lemma isCode_iff {c : Char} : isCode c ↔ isQuote c = false ∧ c ≠ '\x7b' ∧ c ≠ '\x7d' := by
  simp [isCode, and_assoc]

lemma isBalanced_of_all (h : e.all isCode) : IsBalanced inside e := by
  induction e with
  | nil => exact .nil
  | cons c e ih =>
      rw [List.all_cons, Bool.and_eq_true] at h
      exact .code h.1 (ih h.2)

lemma IsBalanced.append {u : Text} (ht : IsBalanced inside t) (hu : IsBalanced inside u) :
    IsBalanced inside (t ++ u) := by
  induction ht with
  | nil => exact hu
  | code hc _ ih => exact .code hc ih
  | literal hquote hw _ ih =>
      rw [List.cons_append, List.append_assoc, List.cons_append]
      exact .literal hquote hw ih
  | braces he _ _ ih =>
      rw [List.cons_append, List.append_assoc, List.cons_append]
      exact .braces he ih

lemma isBalanced_flatMap {α : Type} {f : α → Text} {xs : List α}
    (h : ∀ x ∈ xs, IsBalanced inside (f x)) : IsBalanced inside (xs.flatMap f) := by
  induction xs with
  | nil => exact .nil
  | cons x xs ih =>
      rw [List.forall_mem_cons] at h
      exact h.1.append (ih h.2)

/-- **An expression leaves nothing open**, whatever is in its literals but their quote. -/
lemma IsBalanced.scan_append (he : IsBalanced inside e) (hplain : ∀ q w, inside q w → q ∉ w)
    (depth : Nat) (u : Text) : scan none (depth + 1) (e ++ u) = scan none (depth + 1) u := by
  induction he generalizing depth u with
  | nil => rfl
  | code hc _ ih =>
      obtain ⟨hquote, hopen, hclose⟩ := isCode_iff.mp hc
      simp only [isQuote, Bool.or_eq_false_iff, decide_eq_false_iff_not] at hquote
      rw [List.cons_append, scan, if_neg (by simp), if_neg (by tauto), if_neg hopen, if_neg hclose,
        ih]
  | @literal q w t hquote hw _ ih =>
      simp only [isQuote, Bool.or_eq_true, decide_eq_true_eq, or_assoc] at hquote
      rw [List.cons_append, scan, if_neg (by simp), if_pos hquote, List.append_assoc,
        Tag.scan_append, Tag.scan_of_notMem (hplain q w hw), Option.bind_some, List.cons_append,
        scan, if_pos rfl, ih]
  | @braces e t _ _ ihe iht =>
      have hopen : scan none (depth + 1) ('\x7b' :: (e ++ '\x7d' :: t) ++ u)
          = scan none (depth + 2) (e ++ ('\x7d' :: t ++ u)) := by
        rw [List.cons_append, List.append_assoc, scan, if_neg (by simp), if_neg (by decide),
          if_pos rfl]
      have hclose : scan none (depth + 2) ('\x7d' :: t ++ u) = scan none (depth + 1) (t ++ u) := by
        rw [List.cons_append, scan, if_neg (by simp), if_neg (by decide), if_neg (by decide),
          if_pos rfl]
        rfl
      rw [hopen, ihe, hclose, iht]

lemma afterBraces?_of_notMem (hopen : '\x7b' ∉ w) (hclose : '\x7d' ∉ w) (depth : Nat) (u : Text) :
    afterBraces? depth (w ++ u) = afterBraces? depth u := by
  induction w with
  | nil => rfl
  | cons c w ih =>
      rw [List.mem_cons, not_or] at hopen hclose
      rw [List.cons_append, afterBraces?, if_neg (Ne.symm hopen.1), if_neg (Ne.symm hclose.1),
        ih hopen.2 hclose.2]

/-- **The braces of an expression are counted right** if there are none in its literals. -/
lemma IsBalanced.afterBraces?_append (he : IsBalanced IsClear e) (depth : Nat) (u : Text) :
    afterBraces? (depth + 1) (e ++ u) = afterBraces? (depth + 1) u := by
  have hquoted {q : Char} (hquote : isQuote q) : '\x7b' ≠ q ∧ '\x7d' ≠ q := by
    constructor <;> rintro rfl <;> cases hquote
  induction he generalizing depth u with
  | nil => rfl
  | code hc _ ih =>
      obtain ⟨-, hopen, hclose⟩ := isCode_iff.mp hc
      rw [List.cons_append, afterBraces?, if_neg hopen, if_neg hclose, ih]
  | @literal q w t hquote hw _ ih =>
      obtain ⟨hopen, hclose⟩ := hquoted hquote
      have hsplit : q :: (w ++ q :: t) ++ u = (q :: (w ++ [q])) ++ (t ++ u) := by simp
      rw [hsplit, afterBraces?_of_notMem (by simp [hopen, hw.2.1]) (by simp [hclose, hw.2.2]), ih]
  | @braces e t _ _ ihe iht =>
      have hclose : afterBraces? (depth + 2) ('\x7d' :: t ++ u)
          = afterBraces? (depth + 1) (t ++ u) := by
        rw [List.cons_append, afterBraces?, if_neg (by decide), if_pos rfl, if_neg (by omega)]
        rfl
      rw [List.cons_append, List.append_assoc, afterBraces?, if_pos rfl, ihe, hclose, iht]

/-- A value leaves nothing open if the quote of a literal is not within it. -/
lemma IsValue.isLevel (h : IsValue inside w) (hplain : ∀ q w, inside q w → q ∉ w) : IsLevel w := by
  have hequals : IsLevel ['='] := by decide
  cases h with
  | bare => rfl
  | quoted hq hw => exact Tag.isLevel_append hequals (Tag.isLevel_quoted hq hw)
  | braced he =>
      refine Tag.isLevel_append hequals ?_
      have hopen (t : Text) : scan none 0 ('\x7b' :: t) = scan none 1 t := rfl
      rw [IsLevel, hopen, he.scan_append hplain]
      rfl

lemma IsValue.exists_last (h : IsValue inside w) :
    w = [] ∨ ∃ y c, w = '=' :: (y ++ [c]) ∧ (c = '"' ∨ c = '\'' ∨ c = '\x7d') := by
  cases h with
  | bare => exact .inl rfl
  | @quoted q w hq _ => exact .inr ⟨q :: w, q, rfl, by tauto⟩
  | @braced e _ => exact .inr ⟨'\x7b' :: e, _, rfl, by tauto⟩

/-- A value ends where it is written if there are no quotes and no braces in its literals. -/
lemma IsValue.endsThere (h : IsValue IsClear w) : EndsThere w := by
  cases h with
  | bare => exact .inl rfl
  | quoted hq hw =>
      have hscans := scans_quoted hq hw (List.forall_mem_nil _)
      exact hscans.ends
  | @braced e he =>
      refine .inr ⟨_, rfl, ?_⟩
      have hopen (t : Text) : afterValue? ('\x7b' :: t) = afterBraces? 1 t := rfl
      rw [hopen, he.afterBraces?_append]
      rfl

/-! ### Values of props -/

/-- Whether a character is neither a quote of JSON nor a brace. -/
def isClearChar (c : Char) : Bool := c ≠ '"' && c ≠ '\x7b' && c ≠ '\x7d'

/-- Whether there are no quotes and no braces in a string. -/
def isClearString (s : String) : Bool := s.toList.all isClearChar

mutual
/-- Whether there are no quotes and no braces in the strings of a value. -/
def hasClearStrings : Value → Bool
  | .string s => isClearString s
  | .array items => haveClearStrings items
  | .object members => membersHaveClearStrings members
  | _ => true

/-- `hasClearStrings` of each item. -/
def haveClearStrings : List Value → Bool
  | [] => true
  | v :: vs => hasClearStrings v && haveClearStrings vs

/-- `hasClearStrings` of each member. -/
def membersHaveClearStrings : List (String × Value) → Bool
  | [] => true
  | (k, v) :: rest => isClearString k && hasClearStrings v && membersHaveClearStrings rest
end

lemma haveClearStrings_iff {items : List Value} :
    haveClearStrings items ↔ ∀ v ∈ items, hasClearStrings v := by
  induction items with
  | nil => simp [haveClearStrings]
  | cons v vs ih => simp [haveClearStrings, ih]

lemma membersHaveClearStrings_iff {members : List (String × Value)} :
    membersHaveClearStrings members ↔ ∀ m ∈ members, isClearString m.1 ∧ hasClearStrings m.2 := by
  induction members with
  | nil => simp [membersHaveClearStrings]
  | cons m ms ih => simp [membersHaveClearStrings, ih, and_assoc]

lemma isCode_of_isBare {c : Char} (h : isBare c) : isCode c := by
  have hne (x : Char) (hx : isBare x = false) : c ≠ x := ne_of_isBare h hx
  simp [isCode, isQuote, hne '"' (by decide), hne '\'' (by decide), hne '\x60' (by decide),
    hne '\x7b' (by decide), hne '\x7d' (by decide)]

lemma isBalanced_number (n : Json.Number) : IsBalanced inside n.text :=
  isBalanced_of_all (List.all_eq_true.mpr fun c hc =>
    isCode_of_isBare (List.all_eq_true.mp (all_isBare_number n) c hc))

lemma all_isClearChar_escape {c : Char} (h : isClearChar c) : (escape c).all isClearChar := by
  have hdigit (n : Nat) : isClearChar (Json.hexDigit n) := by
    have hall : ∀ m < 16, isClearChar ((Nat.toDigits 16 m).headD '0') := by decide
    exact hall _ (Nat.mod_lt n (by decide))
  have hquote : c ≠ '"' := by
    rintro rfl
    cases h
  rw [escape, if_neg hquote]
  split_ifs <;> try decide
  · simp only [List.all_cons, List.all_nil, hdigit]
    decide
  · rw [List.all_cons, h, List.all_nil]
    rfl

/-- A string without quotes and braces is written as a literal without them. -/
lemma isBalanced_quote (h : isClearString key) : IsBalanced IsClear (quote key.toList) := by
  have hall : ∀ x ∈ key.toList.flatMap escape, isClearChar x := fun x hx => by
    obtain ⟨c, hc, hx⟩ := List.mem_flatMap.mp hx
    exact List.all_eq_true.mp (all_isClearChar_escape (List.all_eq_true.mp h c hc)) x hx
  have hnot (x : Char) (hx : isClearChar x = false) : x ∉ key.toList.flatMap escape := fun hmem => by
    rw [hall x hmem] at hx
    cases hx
  exact .literal (by decide) ⟨hnot _ (by decide), hnot _ (by decide), hnot _ (by decide)⟩ .nil

/-- The text of a value is balanced, and there are no quotes and no braces in its literals. -/
lemma isBalanced_text (h : hasClearStrings v) : IsBalanced IsClear v.text := by
  induction v using valueInduction with
  | null => exact isBalanced_of_all (by decide)
  | bool b => cases b <;> exact isBalanced_of_all (by decide)
  | number n => exact isBalanced_number n
  | string s => exact isBalanced_quote h
  | array items ih =>
      rw [hasClearStrings, haveClearStrings_iff] at h
      have hitems : IsBalanced IsClear (Json.itemsText items) := by
        cases items with
        | nil => exact .nil
        | cons v vs =>
            rw [List.forall_mem_cons] at h ih
            rw [itemsText_cons]
            exact (ih.1 h.1).append (isBalanced_flatMap fun w hw =>
              .code (by decide) (ih.2 w hw (h.2 w hw)))
      rw [Value.text]
      exact .code (by decide) (hitems.append (isBalanced_of_all (by decide)))
  | object members ih =>
      rw [hasClearStrings, membersHaveClearStrings_iff] at h
      have hmember (m : String × Value) (hm : m ∈ members) : IsBalanced IsClear (memberText m) :=
        (isBalanced_quote (h m hm).1).append (.code (by decide) (ih m hm (h m hm).2))
      have hmembers : IsBalanced IsClear (Json.membersText members) := by
        cases members with
        | nil => exact .nil
        | cons m ms =>
            rw [List.forall_mem_cons] at hmember
            rw [membersText_cons]
            exact hmember.1.append (isBalanced_flatMap fun n hn =>
              .code (by decide) (hmember.2 n hn))
      rw [Value.text]
      exact .braces hmembers .nil

/-- Whether a value, set as a prop, is read as it is written: a string has no quotes in it, and there
are no quotes and no braces in the strings of any other value. -/
def isSettable : Value → Bool
  | .string s => !s.toList.contains '"'
  | v => hasClearStrings v

/-- What is written for such a value ends where it is written, and leaves nothing open. -/
lemma isValue_valueText (h : isSettable v) : IsValue IsClear (valueText v) := by
  cases v with
  | string s =>
      rw [isSettable, Bool.not_eq_true'] at h
      rw [valueText, h, if_neg Bool.false_ne_true]
      exact .quoted (.inl rfl) (by simpa using h)
  | bool b =>
      cases b with
      | true => exact .bare
      | false => exact .braced (isBalanced_text rfl)
  | _ => exact .braced (isBalanced_text h)

end CanvasSync.Line
