import CanvasSync.Markup.Printer
import CanvasSync.Proofs.Markup.Passages
import CanvasSync.Proofs.Script.Literals
import CanvasSync.Proofs.Text.Solid
import Mathlib.Data.List.TakeWhile

/-!
Names and attributes of elements.

* `isMarkupName`, `isAttributeName`: the names that elements and attributes may have;
* `namedMarkup_eq`, `elementName_eq`: a name is taken up to where it does not go on;
* `Writes`: a text behind the name of an attribute is a value, whatever stands around;
* `valueText`, `writtenValue`: a JSON value as an attribute shows it;
* `IsAttribute`, `attributes_eq`: written attributes are taken one by one, each where it stands.
-/

namespace CanvasSync.Script

open Reader
open CanvasSync.Markup (Attribute AttributeValue Part attributeText attributesFrom partsText)

variable {β : Type} {ctx : Context} {s : State} {n : Nat} {w rest gaps : Text}

/-! ### Names -/

/-- Whether a character may stand within a name of markup. -/
def isMarkupPart (c : Char) : Bool := Character.isNamePart c || c = '-'

/-- Whether a text is a name of a script, with hyphens allowed behind its first character. -/
def isMarkupName : Text → Bool
  | [] => false
  | c :: t => Character.isNameStart c && t.all isMarkupPart

/-- Whether a text is a name of an attribute: a name of markup, or two with a colon between them. -/
def isAttributeName (t : Text) : Bool :=
  match t.dropWhile (· ≠ ':') with
  | [] => isMarkupName t
  | _ :: behind => isMarkupName (t.takeWhile (· ≠ ':')) && isMarkupName behind

/-- Whether what follows a name of markup does not go on with it. -/
def endsName (rest : Text) : Bool := rest.head?.all fun c => !isMarkupPart c && c ≠ '\\'

lemma head_of_dropWhile {p : Char → Bool} {t u : Text} {c : Char} (h : t.dropWhile p = c :: u) :
    ¬p c := by
  induction t with
  | nil => simp at h
  | cons x xs ih =>
      rw [List.dropWhile_cons] at h
      split at h
      · exact ih h
      · next hx => rwa [← (List.cons.inj h).1]

lemma isAttributeName_cases (h : isAttributeName w) :
    isMarkupName w ∨ ∃ a b, w = a ++ ':' :: b ∧ isMarkupName a ∧ isMarkupName b := by
  rw [isAttributeName] at h
  split at h
  · exact .inl h
  · next c behind heq =>
      rw [Bool.and_eq_true] at h
      have hcolon : c = ':' := by
        simpa using head_of_dropWhile heq
      refine .inr ⟨_, behind, ?_, h.1, h.2⟩
      rw [hcolon] at heq
      rw [← heq, List.takeWhile_append_dropWhile]

/-- The word that a name begins with. -/
def firstWord (w : Text) : Text := w.takeWhile Character.isNamePart

/-- A name of markup begins with a token that is a word, and goes on with a hyphen if it does. -/
lemma exists_word_of_isMarkupName (h : isMarkupName w) (hrest : endsName rest) :
    ∃ a b, w = a ++ b ∧ firstWord w = a ∧ (∀ c ∈ b, isMarkupPart c) ∧ (b ≠ [] → b.head? = some '-')
      ∧ Lexes (.word (String.ofList a) false) a (b ++ rest) := by
  cases w with
  | nil => simp [isMarkupName] at h
  | cons c t =>
      simp only [isMarkupName, Bool.and_eq_true, List.all_eq_true] at h
      have hword : firstWord (c :: t) = c :: t.takeWhile Character.isNamePart := by
        rw [firstWord, List.takeWhile_cons_of_pos (isNamePart_of_isNameStart h.1)]
      have hhyphen : t.dropWhile Character.isNamePart ≠ [] →
          (t.dropWhile Character.isNamePart).head? = some '-' := by
        intro hne
        obtain ⟨x, xs, hd⟩ := List.exists_cons_of_ne_nil hne
        have hx : Character.isNamePart x = false := by simpa using head_of_dropWhile hd
        have hpart := h.2 x (List.dropWhile_subset _ (hd ▸ List.mem_cons_self ..))
        rw [hd, List.head?_cons]
        simpa [isMarkupPart, hx] using hpart
      refine ⟨c :: t.takeWhile Character.isNamePart, t.dropWhile Character.isNamePart, ?_, hword, ?_,
        hhyphen, lexes_word ?_ ?_⟩
      · rw [List.cons_append, List.takeWhile_append_dropWhile]
      · exact fun x hx => h.2 x (List.dropWhile_subset _ hx)
      · simp only [isWord, h.1, Bool.true_and, List.all_eq_true]
        exact fun x hx => List.mem_takeWhile_imp hx
      · by_cases hd : t.dropWhile Character.isNamePart = []
        · rw [hd]
          cases rest <;> simp_all [endsWord, endsName, isMarkupPart]
        · obtain ⟨x, xs, hcons⟩ := List.exists_cons_of_ne_nil hd
          have hx := hhyphen hd
          rw [hcons, List.head?_cons, Option.some.injEq] at hx
          have hpart : Character.isNamePart '-' = false := by decide +kernel
          rw [hcons, hx]
          simp [endsWord, hpart]

namespace Grammar

lemma markupName_apply (h : s.token.isAnyWord) :
    markupName ctx s = some ((), s.face Lexer.next (s.after.dropWhile isMarkupPart).offset
      (s.after.dropWhile isMarkupPart)) := by
  rw [markupName, bind_token, bind_need h, bind_change]
  rfl

/-- A name is taken with the blanks before it, up to where it does not go on. -/
lemma namedMarkup_eq (hw : isMarkupName w) (hrest : endsName rest) (hgaps : ∀ c ∈ gaps, isGap c)
    (stop o : Nat) :
    namedMarkup ctx (s.face Lexer.next stop ⟨o, gaps ++ (w ++ rest)⟩)
      = some (w, s.face Lexer.next (o + Text.size gaps + Text.size w)
          ⟨o + Text.size gaps + Text.size w, rest⟩) := by
  obtain ⟨a, b, rfl, -, hb, -, hlex⟩ := exists_word_of_isMarkupName hw hrest
  have hnext := Lexer.next_of_gaps hgaps hlex o
  rw [← List.append_assoc a] at hnext
  have hdrop : Cursor.dropWhile isMarkupPart
      ⟨o + Text.size gaps + Text.size a, b ++ rest⟩
      = ⟨o + Text.size gaps + Text.size (a ++ b), rest⟩ := by
    rw [Text.size_append, ← Nat.add_assoc]
    refine dropFrom_append hb ?_ _
    cases rest with
    | nil => rfl
    | cons c t =>
        simp only [endsName, List.head?_cons, Option.all_some, Bool.and_eq_true] at hrest ⊢
        exact hrest.1
  have hupTo : Text.upTo (o + Text.size gaps + Text.size (a ++ b) - (o + Text.size gaps))
      ((a ++ b) ++ rest) = a ++ b := by
    rw [Nat.add_sub_cancel_left, Text.upTo_size_append]
  have hface : s.face Lexer.next stop ⟨o, gaps ++ (a ++ b ++ rest)⟩
      = { s with
          token := ⟨.word (String.ofList a) false,
            ⟨o + Text.size gaps, o + Text.size gaps + Text.size a⟩, gaps.any Character.isLineEnd⟩
          here := ⟨o + Text.size gaps, a ++ b ++ rest⟩
          after := ⟨o + Text.size gaps + Text.size a, b ++ rest⟩
          lastStop := stop } := by
    rw [State.face, hnext]
  rw [hface, namedMarkup, bind_state, bind_of_eq (markupName_apply rfl), hdrop, bind_lastStop,
    pure_apply]
  change some (Text.upTo (o + Text.size gaps + Text.size (a ++ b) - (o + Text.size gaps))
      ((a ++ b) ++ rest), _) = _
  rw [hupTo]
  rfl

/-- The place of a name, behind the blanks before it. -/
lemma here_of_isMarkupName (hw : isMarkupName w) (hrest : endsName rest)
    (hgaps : ∀ c ∈ gaps, isGap c) (s : State) (stop o : Nat) :
    (s.face Lexer.next stop ⟨o, gaps ++ (w ++ rest)⟩).here = ⟨o + Text.size gaps, w ++ rest⟩ := by
  obtain ⟨a, b, rfl, -, -, -, hlex⟩ := exists_word_of_isMarkupName hw hrest
  have hnext := Lexer.next_of_gaps hgaps hlex o
  rw [← List.append_assoc a] at hnext
  rw [State.face, hnext]

/-- A name of markup begins with a word. -/
lemma kind_of_isMarkupName (hw : isMarkupName w) (hrest : endsName rest)
    (hgaps : ∀ c ∈ gaps, isGap c) (o : Nat) :
    (Lexer.next ⟨o, gaps ++ (w ++ rest)⟩).1.kind = .word (String.ofList (firstWord w)) false := by
  obtain ⟨a, b, rfl, hfirst, -, -, hlex⟩ := exists_word_of_isMarkupName hw hrest
  have hnext := Lexer.next_of_gaps hgaps hlex o
  rw [← List.append_assoc a] at hnext
  rw [hnext, hfirst]

/-- The name of an element is taken as written. -/
lemma elementName_eq (hw : isMarkupName w) (hrest : endsName rest)
    (hcolon : ∀ o, (Lexer.next ⟨o, rest⟩).1.isSign ":" = false)
    (hpoint : ∀ o, (Lexer.next ⟨o, rest⟩).1.isSign "." = false) (hbound : 0 < s.bound)
    (stop o : Nat) :
    elementName ctx (s.face Lexer.next stop ⟨o, w ++ rest⟩)
      = some (([w], w), s.face Lexer.next (o + Text.size w) ⟨o + Text.size w, rest⟩) := by
  have hname : namedMarkup ctx (s.face Lexer.next stop ⟨o, w ++ rest⟩) = _ :=
    namedMarkup_eq hw hrest (List.forall_mem_nil _) stop o
  have hhere : (s.face Lexer.next stop ⟨o, w ++ rest⟩).here = _ :=
    here_of_isMarkupName hw hrest (List.forall_mem_nil _) s stop o
  obtain ⟨m, hm⟩ : ∃ m, s.bound = m + 1 := ⟨s.bound - 1, by omega⟩
  have hparts : nameParts (m + 1) ctx (s.face Lexer.next (o + Text.size w) ⟨o + Text.size w, rest⟩)
      = some ([], s.face Lexer.next (o + Text.size w) ⟨o + Text.size w, rest⟩) := by
    rw [nameParts, bind_trySign_false (hpoint _)]
    rfl
  rw [elementName, bind_state, hhere, bind_of_eq hname]
  simp only [Text.size_nil, Nat.add_zero]
  rw [bind_trySign_false (hcolon _), if_neg (by simp)]
  change (nameParts s.bound >>= _) _ _ = _
  rw [hm, bind_of_eq hparts, bind_lastStop, pure_apply]
  change some (([w], Text.upTo (o + Text.size w - o) (w ++ rest)), _) = _
  rw [Nat.add_sub_cancel_left, Text.upTo_size_append]

/-! ### Attributes -/

/-- The value behind the name of an attribute. -/
def valueBehindName (rules : Rules) : Reader AttributeValue := do
  if ← onSign "=" then
    advanceToValue
    attributeValue rules
  else pure .bare

/-- What is done behind the name of an attribute. -/
def attributeRest (rules : Rules) (start : Nat) (name : Text) : Reader Attribute := do
  let value ← valueBehindName rules
  let stop ← lastStop
  return ⟨String.ofList name, ⟨start, stop⟩, value⟩

lemma attributeRest_apply (rules : Rules) (start : Nat) (name : Text) :
    (do
      let finish (value : AttributeValue) : Reader Attribute := do
        let stop ← lastStop
        return ⟨String.ofList name, ⟨start, stop⟩, value⟩
      if ← onSign "=" then
        advanceToValue
        finish (← attributeValue rules)
      else finish (← pure .bare) : Reader Attribute) ctx s = attributeRest rules start name ctx s := by
  rw [attributeRest, valueBehindName, bind_bind, bind_onSign, bind_onSign]
  cases s.token.isSign "="
  · rfl
  · rw [if_pos rfl, if_pos rfl, bind_bind]

/-- The name of an attribute is taken, then its value. -/
lemma namedAttribute_eq {rules : Rules} {key : Text} (hkey : isAttributeName key)
    (hrest : endsName rest) (hcolon : ∀ o, (Lexer.next ⟨o, rest⟩).1.isSign ":" = false)
    (hgaps : ∀ c ∈ gaps, isGap c) (stop o : Nat) :
    namedAttribute rules ctx (s.face Lexer.next stop ⟨o, gaps ++ (key ++ rest)⟩)
      = attributeRest rules (o + Text.size gaps) key ctx
        (s.face Lexer.next (o + Text.size gaps + Text.size key)
          ⟨o + Text.size gaps + Text.size key, rest⟩) := by
  have hwritten : Text.upTo (o + Text.size gaps + Text.size key - (o + Text.size gaps))
      (key ++ rest) = key := by
    rw [Nat.add_sub_cancel_left, Text.upTo_size_append]
  have hbehind : _ = attributeRest rules _ _ ctx _ := attributeRest_apply (s := s.face Lexer.next
    (o + Text.size gaps + Text.size key) ⟨o + Text.size gaps + Text.size key, rest⟩) rules
    (o + Text.size gaps)
    (Text.upTo (o + Text.size gaps + Text.size key - (o + Text.size gaps)) (key ++ rest))
  conv at hbehind => rhs; rw [hwritten]
  rcases isAttributeName_cases hkey with hname | ⟨a, b, rfl, ha, hb⟩
  · rw [namedAttribute, bind_state, here_of_isMarkupName hname hrest hgaps,
      bind_of_eq (namedMarkup_eq hname hrest hgaps stop o), bind_trySign_false (hcolon _),
      if_neg (by simp)]
    exact hbehind
  · have hlone : (':', ":") ∈ loneSigns := by simp [loneSigns]
    have hfirst : endsName (':' :: (b ++ rest)) := by
      have hpart : isMarkupPart ':' = false := by decide +kernel
      simp [endsName, hpart]
    have hsecond : namedMarkup ctx (s.face Lexer.next (o + Text.size gaps + Text.size a + 1)
        ⟨o + Text.size gaps + Text.size a + 1, b ++ rest⟩) = _ :=
      namedMarkup_eq hb hrest (List.forall_mem_nil _) _ _
    have hstop : o + Text.size gaps + Text.size a + 1 + Text.size ([] : Text) + Text.size b
        = o + Text.size gaps + Text.size (a ++ ':' :: b) := by
      simp only [Text.size_append, Text.size_cons, Text.size_nil, utf8Size_of_loneSign hlone]
      omega
    rw [hstop] at hsecond
    rw [List.append_assoc, List.cons_append] at hbehind ⊢
    rw [namedAttribute, bind_state, here_of_isMarkupName ha hfirst hgaps,
      bind_of_eq (namedMarkup_eq ha hfirst hgaps stop o), bind_trySign_lone hlone, if_pos rfl,
      bind_of_eq hsecond]
    exact hbehind

/-! ### Values of attributes -/

/-- An attribute's value as it is kept. -/
def writtenValue (v : Json.Value) : AttributeValue :=
  match v with
  | .string t => if t.toList.contains '"' then .expression (String.ofList v.text) else .quoted t
  | .bool true => .bare
  | v => .expression (String.ofList v.text)

/-- What stands behind the name of an attribute. -/
def valueText (v : Json.Value) : Text :=
  match v with
  | .string t =>
    if t.toList.contains '"' then '=' :: '\x7b' :: (v.text ++ ['\x7d'])
    else '=' :: '"' :: (t.toList ++ ['"'])
  | .bool true => []
  | v => '=' :: '\x7b' :: (v.text ++ ['\x7d'])

lemma attributeText_eq (key : String) (v : Json.Value) :
    attributeText key v = key.toList ++ valueText v := by
  unfold attributeText valueText
  split
  · split_ifs <;> simp_all
  · simp
  · simp

/-- A value in braces. -/
lemma takes_braced {v : Json.Value} (hv : v.isPlain) (hn : 5 * v.text.length ≤ n)
    (hbound : v.text.length < s.bound) :
    Takes (braced (rules (n + 1))) ctx s v.text ('\x7d' :: rest) (IsShapeOf v) := by
  intro stop o
  have htext (ctx : Context) : Takes (rules n .assignment) ctx s v.text ('\x7d' :: rest) _ :=
    takes_text hv rfl hn hbound
  obtain ⟨shape, hshape, hread⟩ := htext { ctx with
    allowIn := true, generator := false, conditionalTypes := true, decorator := false } stop o
  have hexpression : rules (n + 1) .expression _ _ = _ := expression_of_assignment hread rfl
  refine ⟨shape, hshape, ?_⟩
  rw [braced, bind_within, hexpression]
  simp only [bind_need (show (!shape.isSequence) = true by simp [hshape.2.1])]
  rfl

/-! Braces and blanks are taken off again. -/

lemma isBlank_of_startsValue {c : Char} (h : Json.startsValue c) : isBlank c = false := by
  simp only [Json.startsValue, Bool.or_eq_true, decide_eq_true_eq] at h
  rcases h with (((((((h | rfl) | rfl) | rfl) | rfl) | rfl) | rfl) | rfl)
  · exact Text.isBlank_of_isDigit h
  all_goals decide

/-- The text of a plain value begins and ends with characters that are not blank. -/
lemma solid_text {v : Json.Value} (h : v.isPlain) :
    Text.beginsSolid v.text ∧ Text.endsSolid v.text := by
  obtain ⟨c, t, ht, hc⟩ := Json.exists_text_eq_cons h
  refine ⟨by simp [ht, Text.beginsSolid, isBlank_of_startsValue hc], ?_⟩
  cases v with
  | null => decide
  | bool b => cases b <;> decide
  | number n =>
      cases n with
      | double x => simp [Json.Value.isPlain] at h
      | whole i =>
          have hne : Number.digitsOf i.natAbs ≠ [] := Nat.toDigits_ne_nil
          obtain ⟨ds, d, hds⟩ := (List.eq_nil_or_concat _).resolve_left hne
          have hd : isBlank d = false := Text.isBlank_of_isDigit (Json.isDigit_of_mem_digitsOf
            (by rw [hds]; simp))
          have hend : Text.endsSolid (Number.digitsOf i.natAbs) := by
            simp [hds, Text.endsSolid, hd]
          rw [Json.Value.text, Json.Number.text]
          split
          · exact Text.endsSolid_append ['-'] hend
          · exact hend
  | string t =>
      exact Text.endsSolid_append ('"' :: t.toList.flatMap Json.escape) (u := ['"']) (by decide)
  | array items => exact Text.endsSolid_append ('[' :: Json.itemsText items) (u := [']']) (by decide)
  | object members =>
      exact Text.endsSolid_append ('\x7b' :: Json.membersText members) (u := ['\x7d']) (by decide)

lemma withoutBraces_text {v : Json.Value} (hv : v.isPlain) :
    withoutBraces ('\x7b' :: (v.text ++ ['\x7d'])) = v.text := by
  obtain ⟨hbegins, hends⟩ := solid_text hv
  simp [withoutBraces, Text.strip?, Text.stripEnd?, Text.trim_eq_self hbegins hends]

/-- An expression that is read alike wherever it stands in braces as the value of an attribute, and
has no markup in it. -/
def IsExpression (e : Text) : Prop :=
  ∀ (ctx : Context) (s : State) (n : Nat) (rest : Text), 5 * e.length ≤ n → e.length < s.bound →
    Takes (bracedValue (rules (n + 1))) ctx s ('\x7b' :: (e ++ ['\x7d'])) rest fun _ => True

/-- A JSON value is an expression. -/
lemma isExpression_text {v : Json.Value} (hv : v.isPlain) : IsExpression v.text := by
  intro ctx s n rest hn hbound stop o
  have hopen : ('\x7b', "\x7b") ∈ loneSigns := by simp [loneSigns]
  have hclose : ('\x7d', "\x7d") ∈ loneSigns := by simp [loneSigns]
  have hfar : (s.face Lexer.next (o + 1) ⟨o + 1, v.text ++ '\x7d' :: rest⟩).token.isSign "\x7d"
      = false := by
    have hk : (s.face Lexer.next (o + 1) ⟨o + 1, v.text ++ '\x7d' :: rest⟩).token.kind
        = firstKind v := kind_next_text hv rfl _
    rw [isSign_eq, hk, decide_eq_false_iff_not]
    exact firstKind_ne (by decide)
  obtain ⟨shape, -, hread⟩ := takes_braced hv hn hbound (o + 1) (o + 1)
  refine ⟨(), trivial, ?_⟩
  rw [List.cons_append, List.append_assoc, List.singleton_append, bracedValue, bind_sign_lone hopen,
    bind_onSign, hfar, if_pos (by simp), bind_of_eq hread]
  refine (sign_lone hclose _ _).trans ?_
  simp only [Text.size_cons, Text.size_append, Text.size_nil, utf8Size_of_loneSign hopen,
    utf8Size_of_loneSign hclose, Nat.add_assoc]

/-- What may stand behind the name of an attribute, and the value that it is read as. -/
inductive Writes : Text → AttributeValue → Prop where
  | bare : Writes [] .bare
  | quoted {q : Char} {t : Text} (hq : q = '"' ∨ q = '\'') (ht : q ∉ t) :
    Writes ('=' :: q :: (t ++ [q])) (.quoted (String.ofList t))
  | braces {e : Text} (he : IsExpression e) :
    Writes ('=' :: '\x7b' :: (e ++ ['\x7d']))
      (.expression (String.ofList (withoutBraces ('\x7b' :: (e ++ ['\x7d'])))))

variable {behind : Text} {value : AttributeValue}

/-- The texts that stand behind the name of an attribute. -/
lemma valueText_cases (v : Json.Value) :
    (valueText v = [] ∧ writtenValue v = .bare)
      ∨ (valueText v = '=' :: '\x7b' :: (v.text ++ ['\x7d'])
          ∧ writtenValue v = .expression (String.ofList v.text))
      ∨ ∃ t : String, '"' ∉ t.toList ∧ valueText v = '=' :: '"' :: (t.toList ++ ['"'])
          ∧ writtenValue v = .quoted t := by
  cases v with
  | bool b => cases b <;> simp [valueText, writtenValue]
  | string t =>
      by_cases h : t.toList.contains '"' <;> simp_all [valueText, writtenValue]
  | _ => simp [valueText, writtenValue]

/-- A JSON value is written as an attribute shows it. -/
lemma writes_valueText {v : Json.Value} (hv : v.isPlain) : Writes (valueText v) (writtenValue v) := by
  rcases valueText_cases v with ⟨htext, hvalue⟩ | ⟨htext, hvalue⟩ | ⟨t, ht, htext, hvalue⟩
  · rw [htext, hvalue]
    exact .bare
  · have hbraces := Writes.braces (isExpression_text hv)
    rwa [withoutBraces_text hv, ← htext, ← hvalue] at hbraces
  · have hquoted := Writes.quoted (.inl rfl) ht
    rwa [String.ofList_toList, ← htext, ← hvalue] at hquoted

/-- A value is nothing, or begins with an equals sign before another character. -/
lemma Writes.cases_text (h : Writes behind value) :
    behind = [] ∨ ∃ c t, behind = '=' :: c :: t ∧ c ≠ '=' ∧ c ≠ '>' := by
  cases h with
  | bare => exact .inl rfl
  | quoted hq _ => exact .inr ⟨_, _, rfl, by rcases hq with rfl | rfl <;> decide⟩
  | braces _ => exact .inr ⟨_, _, rfl, by decide⟩

/-- An expression in braces as the value of an attribute. -/
lemma attributeValue_braces {e : Text} (he : IsExpression e) (hn : 5 * e.length ≤ n)
    (hbound : e.length < s.bound) (stop o : Nat) :
    attributeValue (rules (n + 1)) ctx
        (s.face Lexer.nextValue stop ⟨o, '\x7b' :: (e ++ ['\x7d']) ++ rest⟩)
      = some (.expression (String.ofList (withoutBraces ('\x7b' :: (e ++ ['\x7d'])))),
          s.face Lexer.next (o + Text.size ('\x7b' :: (e ++ ['\x7d'])))
            ⟨o + Text.size ('\x7b' :: (e ++ ['\x7d'])), rest⟩) := by
  change attributeValue (rules (n + 1)) ctx
    (s.face Lexer.next stop ⟨o, '\x7b' :: (e ++ ['\x7d']) ++ rest⟩) = _
  obtain ⟨_, -, hread⟩ := he ctx s n rest hn hbound stop o
  have hk : (s.face Lexer.next stop ⟨o, '\x7b' :: (e ++ ['\x7d']) ++ rest⟩).token.kind
      = .sign "\x7b" := rfl
  rw [attributeValue, bind_state]
  simp only [hk]
  rw [if_neg (by rw [isSign_eq, hk]; decide), bind_of_eq hread, bind_lastStop, pure_apply]
  change some (AttributeValue.expression (String.ofList (withoutBraces (Text.upTo
    (o + Text.size ('\x7b' :: (e ++ ['\x7d'])) - o)
    ('\x7b' :: (e ++ ['\x7d']) ++ rest)))), _) = _
  rw [Nat.add_sub_cancel_left, Text.upTo_size_append]

/-- A value in quotes as the value of an attribute. -/
lemma attributeValue_quotes {rules : Rules} {q : Char} {t : Text} (hq : q = '"' ∨ q = '\'')
    (ht : q ∉ t) (stop o : Nat) :
    attributeValue rules ctx (s.face Lexer.nextValue stop ⟨o, q :: (t ++ q :: rest)⟩)
      = some (.quoted (String.ofList t),
          s.face Lexer.next (o + Text.size t + 2) ⟨o + Text.size t + 2, rest⟩) := by
  rw [State.face, Lexer.nextValue_quoted hq ht, attributeValue, bind_state]
  rfl

/-- What may follow an attribute. -/
structure EndsAttribute (rest : Text) : Prop where
  name : endsName rest
  colon : ∀ o, (Lexer.next ⟨o, rest⟩).1.isSign ":" = false
  equals : ∀ o, (Lexer.next ⟨o, rest⟩).1.isSign "=" = false

/-- The token behind an equals sign is read as a value. -/
lemma valueBehindName_of_equals {c : Char} (hequals : c ≠ '=') (harrow : c ≠ '>') (rules : Rules)
    (t : Text) (stop o : Nat) :
    valueBehindName rules ctx (s.face Lexer.next stop ⟨o, '=' :: c :: t⟩)
      = attributeValue rules ctx (s.face Lexer.nextValue (o + 1) ⟨o + 1, c :: t⟩) := by
  have hhead := (lexes_equals hequals harrow t).heads
  have hk : (s.face Lexer.next stop ⟨o, '=' :: c :: t⟩).token.kind = .sign "=" :=
    face_kind hhead s stop o
  have hstop : (s.face Lexer.next stop ⟨o, '=' :: c :: t⟩).token.span.stop = o + 1 :=
    hhead.stop_eq o
  have hafter : (s.face Lexer.next stop ⟨o, '=' :: c :: t⟩).after = ⟨o + 1, c :: t⟩ :=
    hhead.after_eq o
  rw [valueBehindName, bind_onSign, isSign_eq, hk, if_pos (by decide),
    bind_of_eq advanceToValue_apply, hstop, hafter]
  rfl

/-- A value is taken from behind the name of an attribute. -/
lemma valueBehindName_eq (h : Writes behind value) (hn : 5 * behind.length ≤ n)
    (hbound : behind.length < s.bound) (hrest : EndsAttribute rest) (o : Nat) :
    valueBehindName (rules (n + 1)) ctx (s.face Lexer.next o ⟨o, behind ++ rest⟩)
      = some (value, s.face Lexer.next (o + Text.size behind) ⟨o + Text.size behind, rest⟩) := by
  have hone : '='.utf8Size = 1 := rfl
  cases h with
  | bare =>
      have hequals : (s.face Lexer.next o ⟨o, rest⟩).token.isSign "=" = false := hrest.equals o
      rw [List.nil_append, valueBehindName, bind_onSign, hequals]
      rfl
  | braces he =>
      simp only [List.length_cons, List.length_append] at hn hbound
      rw [List.cons_append, List.cons_append, valueBehindName_of_equals (by decide) (by decide)]
      refine (attributeValue_braces he (by omega) (by omega) (o + 1) (o + 1)).trans ?_
      rw [Text.size_cons '=', hone, Nat.add_assoc o 1]
  | @quoted q t hq ht =>
      have hsize : q.utf8Size = 1 := by rcases hq with rfl | rfl <;> rfl
      have hother : q ≠ '=' ∧ q ≠ '>' := by rcases hq with rfl | rfl <;> decide
      rw [List.cons_append, List.cons_append, List.append_assoc, List.singleton_append,
        valueBehindName_of_equals hother.1 hother.2]
      refine (attributeValue_quotes hq ht (o + 1) (o + 1)).trans ?_
      have hstop : o + 1 + Text.size t + 2 = o + Text.size ('=' :: q :: (t ++ [q])) := by
        simp only [Text.size_cons, Text.size_append, Text.size_nil, hone, hsize]
        omega
      rw [hstop]

/-! ### Attributes in a row -/

/-- An attribute that is read as written: blanks stand before its name, and a value behind it. -/
structure IsAttribute (p : Part) : Prop where
  gap_ne : p.gap ≠ []
  gap : Text.allBlank p.gap
  name : isAttributeName p.name.toList
  writes : Writes p.behind p.value

lemma isGap_of_isBlank {c : Char} (h : isBlank c) : isGap c := by
  have hfeed : '\n'.toNat = 10 := rfl
  have hreturn : '\r'.toNat = 13 := rfl
  have hline : '\u2028'.toNat = 0x2028 := rfl
  have hparagraph : '\u2029'.toNat = 0x2029 := rfl
  simp only [isBlank, isGap, Character.isSpace, Character.isLineEnd, Bool.or_eq_true,
    Bool.and_eq_true, decide_eq_true_eq, ← Char.toNat_inj] at h ⊢
  omega

lemma isGap_of_allBlank (h : Text.allBlank gaps) : ∀ c ∈ gaps, isGap c := fun c hc =>
  isGap_of_isBlank (List.all_eq_true.mp h c hc)

lemma isMarkupPart_of_isBlank {c : Char} (h : isBlank c) : isMarkupPart c = false := by
  by_contra hpart
  rw [Bool.not_eq_false, isMarkupPart, Bool.or_eq_true, decide_eq_true_eq] at hpart
  rcases hpart with hpart | rfl
  · exact absurd (isGap_of_isBlank h) (by simp [isGap_of_isNamePart hpart])
  · exact absurd h (by decide)

/-- There are no blanks in a name of markup. -/
lemma isBlank_of_mem_markupName (h : isMarkupName w) : ∀ c ∈ w, isBlank c = false := by
  cases w with
  | nil => simp [isMarkupName] at h
  | cons c t =>
      simp only [isMarkupName, Bool.and_eq_true, List.all_eq_true] at h
      have hfirst : isMarkupPart c := by simp [isMarkupPart, isNamePart_of_isNameStart h.1]
      intro x hx
      have hpart : isMarkupPart x := (List.mem_cons.mp hx).elim (fun heq => heq ▸ hfirst) (h.2 x)
      by_contra hblank
      rw [isMarkupPart_of_isBlank (by simpa using hblank)] at hpart
      cases hpart

/-- There are no blanks in a name of an attribute. -/
lemma isBlank_of_mem_attributeName (h : isAttributeName w) : ∀ c ∈ w, isBlank c = false := by
  rcases isAttributeName_cases h with h | ⟨a, b, rfl, ha, hb⟩
  · exact isBlank_of_mem_markupName h
  · exact List.forall_mem_append.mpr ⟨isBlank_of_mem_markupName ha,
      List.forall_mem_cons.mpr ⟨by decide, isBlank_of_mem_markupName hb⟩⟩

/-- What follows a value of an attribute follows its name too. -/
lemma Writes.endsName (h : Writes behind value) (hrest : EndsAttribute rest) :
    Script.endsName (behind ++ rest)
      ∧ ∀ o, (Lexer.next ⟨o, behind ++ rest⟩).1.isSign ":" = false := by
  rcases h.cases_text with rfl | ⟨c, t, rfl, hequals, harrow⟩
  · exact ⟨hrest.name, hrest.colon⟩
  · have hpart : isMarkupPart '=' = false := by decide +kernel
    refine ⟨by simp [Script.endsName, hpart], fun o => ?_⟩
    have hk : (Lexer.next ⟨o, '=' :: c :: (t ++ rest)⟩).1.kind = .sign "=" :=
      (lexes_equals hequals harrow _).heads.kind_eq o
    rw [List.cons_append, List.cons_append, isSign_eq, hk]
    rfl

/-- An attribute is taken with the blanks before it. -/
lemma namedAttribute_part {p : Part} (hp : IsAttribute p) (hn : 5 * p.behind.length ≤ n)
    (hbound : p.behind.length < s.bound) (hrest : EndsAttribute rest) (stop o : Nat) :
    namedAttribute (rules (n + 1)) ctx
        (s.face Lexer.next stop ⟨o, p.gap ++ (p.text ++ rest)⟩)
      = some (⟨p.name, ⟨o + Text.size p.gap, o + Text.size p.gap + Text.size p.text⟩, p.value⟩,
          s.face Lexer.next (o + Text.size p.gap + Text.size p.text)
            ⟨o + Text.size p.gap + Text.size p.text, rest⟩) := by
  have hbehind := hp.writes.endsName hrest
  have hread : valueBehindName _ ctx _ = _ := valueBehindName_eq hp.writes hn hbound hrest
    (o + Text.size p.gap + Text.size p.name.toList)
  have hsize : o + Text.size p.gap + Text.size p.name.toList + Text.size p.behind
      = o + Text.size p.gap + Text.size p.text := by
    rw [Part.text, Text.size_append, Nat.add_assoc]
  rw [hsize] at hread
  conv => lhs; rw [Part.text, List.append_assoc]
  rw [namedAttribute_eq hp.name hbehind.1 hbehind.2 (isGap_of_allBlank hp.gap), attributeRest,
    bind_of_eq hread, bind_lastStop, String.ofList_toList]
  rfl

/-- What may follow the attributes of an opening tag. -/
structure EndsAttributes (rest : Text) : Prop where
  name : endsName rest
  kind : ∀ o, (Lexer.next ⟨o, rest⟩).1.kind = .sign ">" ∨ (Lexer.next ⟨o, rest⟩).1.kind = .sign "/"

lemma EndsAttributes.endsAttribute (h : EndsAttributes rest) : EndsAttribute rest := by
  refine ⟨h.name, fun o => ?_, fun o => ?_⟩ <;>
    rcases h.kind o with hk | hk <;> rw [isSign_eq, hk] <;> rfl

/-- An attribute begins with the first word of its name. -/
lemma kind_next_part {p : Part} (hp : IsAttribute p) (hrest : endsName rest) (o : Nat) :
    (Lexer.next ⟨o, p.gap ++ (p.text ++ rest)⟩).1.kind
      = .word (String.ofList (firstWord p.name.toList)) false := by
  have hcolon (t : Text) : endsName (':' :: t) := by
    have hpart : isMarkupPart ':' = false := by decide +kernel
    simp [endsName, hpart]
  have hbehind : endsName (p.behind ++ rest) := by
    have hpart : isMarkupPart '=' = false := by decide +kernel
    rcases hp.writes.cases_text with hnil | ⟨c, t, heq, -⟩
    · rwa [hnil]
    · simp [heq, endsName, hpart]
  rw [Part.text, List.append_assoc]
  rcases isAttributeName_cases hp.name with hname | ⟨a, b, heq, ha, hb⟩
  · exact kind_of_isMarkupName hname hbehind (isGap_of_allBlank hp.gap) o
  · have hword : firstWord p.name.toList = firstWord a := by
      have hpart : Character.isNamePart ':' = false := by decide +kernel
      rw [heq, firstWord, firstWord, List.takeWhile_append, List.takeWhile_cons_of_neg (by simp [hpart]),
        List.append_nil]
      split
      · next hall => exact (List.IsPrefix.eq_of_length (List.takeWhile_prefix _) hall).symm
      · rfl
    rw [hword, heq, List.append_assoc, List.cons_append]
    exact kind_of_isMarkupName ha (hcolon _) (isGap_of_allBlank hp.gap) o

variable {ps : List Part}

/-- Blanks end a name. -/
lemma endsName_of_allBlank {gap : Text} (hne : gap ≠ []) (hgap : Text.allBlank gap) (t : Text) :
    endsName (gap ++ t) := by
  obtain ⟨c, gap, rfl⟩ := List.exists_cons_of_ne_nil hne
  have hc : isBlank c := List.all_eq_true.mp hgap c (List.mem_cons_self ..)
  have hback : c ≠ '\\' := by
    rintro rfl
    exact absurd hc (by decide)
  simp [endsName, isMarkupPart_of_isBlank hc, hback]

lemma endsName_partsText (hps : ∀ p ∈ ps, IsAttribute p) (hrest : endsName rest) :
    endsName (partsText ps ++ rest) := by
  cases ps with
  | nil => exact hrest
  | cons p ps =>
      have hp := hps p (List.mem_cons_self ..)
      rw [Markup.partsText_cons, List.append_assoc]
      exact endsName_of_allBlank hp.gap_ne hp.gap _

/-- Behind an attribute stand other ones or what ends them all. -/
lemma endsAttribute_partsText (hps : ∀ p ∈ ps, IsAttribute p) (hrest : EndsAttributes rest) :
    EndsAttribute (partsText ps ++ rest) := by
  cases ps with
  | nil => exact hrest.endsAttribute
  | cons p ps =>
      obtain ⟨hp, hps'⟩ := List.forall_mem_cons.mp hps
      refine ⟨endsName_partsText hps hrest.name, fun o => ?_, fun o => ?_⟩ <;>
        · have ha := kind_next_part hp (endsName_partsText hps' hrest.name) o
          rw [Markup.partsText_cons, List.append_assoc, List.append_assoc, isSign_eq, ha]
          rfl

/-- A word begins an attribute. -/
lemma attributes_of_word {rules : Rules} {a : String} (hk : s.token.kind = .word a false) (m : Nat) :
    attributes rules (m + 1) ctx s
      = (do
          let a ← namedAttribute rules
          return a :: (← attributes rules m) : Reader (List Attribute)) ctx s := by
  rw [attributes, bind_token, if_neg (by simp [isSign_eq, hk]), if_neg (by simp [isSign_eq, hk])]

lemma length_parts_le (hps : ∀ p ∈ ps, IsAttribute p) : ps.length ≤ (partsText ps).length := by
  induction ps with
  | nil => simp
  | cons p ps ih =>
      obtain ⟨hp, hps⟩ := List.forall_mem_cons.mp hps
      have hpos := List.length_pos_iff.mpr hp.gap_ne
      have hbehind := ih hps
      simp only [Markup.partsText_cons, List.length_append, List.length_cons]
      omega

/-- **The attributes of an opening tag are taken one by one**, each where it stands. -/
theorem attributes_eq (ctx : Context) (s : State) (hps : ∀ p ∈ ps, IsAttribute p)
    (hn : 5 * (partsText ps).length ≤ n)
    (hbound : (partsText ps).length < s.bound) (hrest : EndsAttributes rest) {m : Nat}
    (hm : ps.length < m) (stop o : Nat) :
    ∃ stop', attributes (rules (n + 1)) m ctx (s.face Lexer.next stop ⟨o, partsText ps ++ rest⟩)
      = some (attributesFrom o ps,
          s.face Lexer.next stop' ⟨o + Text.size (partsText ps), rest⟩) := by
  induction ps generalizing m stop o with
  | nil =>
      obtain ⟨m, rfl⟩ : ∃ k, m = k + 1 := ⟨m - 1, by omega⟩
      refine ⟨stop, ?_⟩
      have hk : (s.face Lexer.next stop ⟨o, rest⟩).token.kind = .sign ">"
          ∨ (s.face Lexer.next stop ⟨o, rest⟩).token.kind = .sign "/" := hrest.kind o
      change attributes (rules (n + 1)) (m + 1) ctx (s.face Lexer.next stop ⟨o, rest⟩) = _
      rw [attributes, bind_token, if_pos (by rcases hk with hk | hk <;> simp [isSign_eq, hk])]
      rfl
  | cons p ps ih =>
      obtain ⟨m, rfl⟩ : ∃ k, m = k + 1 := ⟨m - 1, by omega⟩
      obtain ⟨hp, hps⟩ := List.forall_mem_cons.mp hps
      simp only [Markup.partsText_cons, List.length_append, Part.text] at hn hbound
      have hbehind : 5 * p.behind.length ≤ n ∧ p.behind.length < s.bound := by omega
      have hread : namedAttribute _ ctx _ = _ := namedAttribute_part (s := s) hp hbehind.1 hbehind.2
        (endsAttribute_partsText hps hrest) stop o
      obtain ⟨stop', hreads⟩ := ih hps (by omega) (by omega) (Nat.lt_of_succ_lt_succ hm)
        (o + Text.size p.gap + Text.size p.text) (o + Text.size p.gap + Text.size p.text)
      have hk : (s.face Lexer.next stop
          ⟨o, p.gap ++ (p.text ++ (partsText ps ++ rest))⟩).token.kind = .word _ false :=
        kind_next_part hp (endsName_partsText hps hrest.name) o
      refine ⟨stop', ?_⟩
      have hsize : o + Text.size (partsText (p :: ps))
          = o + Text.size p.gap + Text.size p.text + Text.size (partsText ps) := by
        simp [Nat.add_assoc]
      rw [hsize, Markup.partsText_cons, List.append_assoc, List.append_assoc, attributes_of_word hk,
        bind_of_eq hread, bind_of_eq hreads]
      rfl

end Grammar

end CanvasSync.Script
