import CanvasSync.Json.Record
import CanvasSync.Script.Parse
import CanvasSync.Proofs.Script.Reading

/-!
Expressions without operators, and JSON values among them.

* `Closes`: the signs that end an expression wherever they stand;
* `assignment_of_primary`: a primary expression in front of such a sign is the whole expression;
* `takes_text`: the text of a plain JSON value is an expression.
-/

namespace CanvasSync.Script

open Reader

variable {ctx : Context} {s s' : State} {n : Nat} {shape : Shape} {w rest : Text}

/-- A token that ends any expression before it. -/
def Closes (t : Token) : Prop := ∃ x ∈ [",", "]", "\x7d", ")", ";"], t.kind = .sign x

/-- Whether a kind of token begins a literal, or stands before an expression in parentheses. -/
def opensOperand : Kind → Bool
  | .string _ | .number => true
  | .sign x => x = "[" || x = "\x7b" || x = "("
  | .word w escaped => ["null", "true", "false"].contains w && !escaped
  | _ => false

lemma opensOperand_cases {kind : Kind} (h : opensOperand kind) :
    (∃ v, kind = .string v) ∨ kind = .number ∨ kind = .sign "[" ∨ kind = .sign "\x7b"
      ∨ kind = .sign "(" ∨ kind = .word "null" false ∨ kind = .word "true" false
      ∨ kind = .word "false" false := by
  cases kind with
  | word w escaped =>
      simp only [opensOperand, List.contains_iff_mem, List.mem_cons, List.not_mem_nil, or_false,
        Bool.and_eq_true, Bool.not_eq_true'] at h
      obtain ⟨rfl | rfl | rfl, rfl⟩ := h <;> simp
  | _ => simp_all [opensOperand, or_assoc]

namespace Grammar

/-! ### What does not follow an expression -/

lemma suffixes_of_closes (hs : Closes s.token) (rules : Rules) (calls optional : Bool) :
    suffixes rules calls (n + 1) optional shape ctx s = some ((shape, optional), s) := by
  unfold suffixes
  obtain ⟨x, hx, hk⟩ := hs
  simp only [List.mem_cons, List.not_mem_nil, or_false] at hx
  rcases hx with rfl | rfl | rfl | rfl | rfl <;>
    simp [bind_token, bind_context, bind_onSign, Token.isSign, Token.isTemplate, hk, onAngle,
      bind_bind, pure_apply, bind_value]

lemma binaryRest_of_closes (hs : Closes s.token) (rules : Rules) (level : Nat) :
    binaryRest rules level (n + 1) shape ctx s = some (shape, s) := by
  unfold binaryRest
  obtain ⟨x, hx, hk⟩ := hs
  simp only [List.mem_cons, List.not_mem_nil, or_false] at hx
  rcases hx with rfl | rfl | rfl | rfl | rfl <;>
    simp [bind_onSign, bind_token, isSign_eq, hk, operatorLevel?, pure_apply]

lemma conditionRest_of_closes (hs : Closes s.token) (rules : Rules) :
    conditionRest rules shape ctx s = some (shape, s) := by
  unfold conditionRest
  obtain ⟨x, hx, hk⟩ := hs
  simp only [List.mem_cons, List.not_mem_nil, or_false] at hx
  rcases hx with rfl | rfl | rfl | rfl | rfl <;>
    · rw [bind_trySign_false (by simp [isSign_eq, hk])]
      rfl

/-- A primary expression in front of a closing sign is an expression with its members. -/
lemma call_of_primary {rules : Rules} (hbound : 0 < s'.bound) (hb : s.bound = s'.bound)
    (h : primary rules (newExpression rules s.bound) ctx s = some (shape, s'))
    (hs : Closes s'.token) : call rules ctx s = some (shape, s') := by
  obtain ⟨m, hm⟩ : ∃ m, s'.bound = m + 1 := ⟨s'.bound - 1, by omega⟩
  rw [call, bind_state, bind_of_eq h, hb, hm, bind_of_eq (suffixes_of_closes hs rules true false)]
  rfl

/-! ### Operands -/

/-- A call without an operator before or behind it. -/
lemma unary_of_call {rules : Rules} (ht : opensOperand s.token.kind)
    (h : rules .call ctx s = some (shape, s')) (hs : Closes s'.token) :
    unary rules ctx s = some (shape, s') := by
  unfold unary
  have hbehind : s'.token.kind ≠ .sign "++" ∧ s'.token.kind ≠ .sign "--" := by
    obtain ⟨y, hy, hk⟩ := hs
    simp only [List.mem_cons, List.not_mem_nil, or_false] at hy
    rcases hy with rfl | rfl | rfl | rfl | rfl <;> simp [hk]
  rcases opensOperand_cases ht with ⟨v, hk⟩ | hk | hk | hk | hk | hk | hk | hk <;>
    simp [bind_token, bind_context, operandFollows, bind_following, bind_bind, bind_value, isSign_eq,
      Token.isOneOf, isWord_eq, hk, bind_of_eq h, hbehind, pure_apply]

/-- An element between operators. -/
lemma unary_of_markup {rules : Rules} (ht : s.token.kind = .sign "<")
    (h : rules (.markup false) ctx s = some (shape, s')) :
    unary rules ctx s = some (.plain, s') := by
  unfold unary
  simp [bind_token, isSign_eq, Token.isOneOf, ht, bind_of_eq h, pure_apply]

/-- An operand with no operator behind it. -/
lemma binary_of_unary {rules : Rules} {level : Nat} (hprivate : s.token.kind ≠ .privateName)
    (h : rules .unary ctx s = some (shape, s')) (hbound : 0 < s'.bound) (hs : Closes s'.token) :
    binary rules level ctx s = some (shape, s') := by
  obtain ⟨m, hm⟩ : ∃ m, s'.bound = m + 1 := ⟨s'.bound - 1, by omega⟩
  rw [binary, bind_token, bind_context]
  simp only [hprivate, decide_false, Bool.false_and, Bool.false_eq_true, if_false]
  rw [bind_of_eq h, bind_state, hm, binaryRest_of_closes hs]

/-- An operand that is no arrow function. -/
lemma assignment_of_binary {rules : Rules} (hyield : s.token.isWord "yield" = false)
    (hasync : s.token.isWord "async" = false)
    (harrow : parenthesizedArrow? rules ctx s = some (none, s))
    (h : rules (.binary 0) ctx s = some (shape, s')) (hname : shape.isName = false)
    (hs : Closes s'.token) : assignment rules ctx s = some (shape, s') := by
  have hsigns : assignmentSigns.any s'.token.isSign = false := by
    obtain ⟨y, hy, hk⟩ := hs
    simp only [List.mem_cons, List.not_mem_nil, or_false] at hy
    rcases hy with rfl | rfl | rfl | rfl | rfl <;> simp [assignmentSigns, isSign_eq, hk]
  rw [assignment, bind_onWord, bind_context, operandFollows, bind_bind, bind_following, bind_value,
    hyield, Bool.false_and, if_neg Bool.false_ne_true, bind_of_eq harrow]
  simp only [bind_followingTwo, bind_onWord, hasync, Bool.false_and, Bool.false_eq_true, if_false]
  rw [bind_of_eq h, bind_token]
  simp only [hname, hsigns, Bool.false_and, Bool.false_eq_true, if_false]
  exact conditionRest_of_closes hs rules

/-- No arrow function begins with a token that opens none. -/
lemma parenthesizedArrow?_eq_none {rules : Rules}
    (h : (s.token.isSign "(" || s.token.isSign "<" || s.token.isWord "async") = false) :
    parenthesizedArrow? rules ctx s = some (none, s) := by
  rw [parenthesizedArrow?, bind_token, h]
  rfl

/-- An expression that is no list. -/
lemma expression_of_assignment {rules : Rules}
    (h : rules .assignment ctx s = some (shape, s')) (hcomma : s'.token.isSign "," = false) :
    expression rules ctx s = some (shape, s') := by
  rw [expression, bind_of_eq h, bind_onSign, hcomma]
  rfl

/-! ### Operands in a text -/

lemma closes_of_closesAhead (h : closesAhead rest) (s : State) (stop o : Nat) :
    Closes (s.face Lexer.next stop ⟨o, rest⟩).token := by
  cases rest with
  | nil => simp [closesAhead] at h
  | cons c t =>
      simp only [closesAhead, List.head?_cons, Option.any_some, isCloser, Bool.or_eq_true,
        decide_eq_true_eq] at h
      rcases h with (rfl | rfl) | rfl
      · exact ⟨",", by simp, rfl⟩
      · exact ⟨"]", by simp, rfl⟩
      · exact ⟨"\x7d", by simp, rfl⟩

/-- A primary expression in front of a closing sign is an operand. -/
lemma takes_unary_of_primary {p : Shape → Prop} {kind : Kind} (hkind : opensOperand kind)
    (hfirst : ∀ o, (Lexer.next ⟨o, w ++ rest⟩).1.kind = kind) (hrest : closesAhead rest)
    (hbound : 0 < s.bound)
    (h : Takes (primary (rules n) (newExpression (rules n) s.bound)) ctx s w rest p) :
    Takes (rules (n + 2) .unary) ctx s w rest p := by
  intro stop o
  obtain ⟨shape, hp, hread⟩ := h stop o
  have hcloses := closes_of_closesAhead hrest s (o + Text.size w) (o + Text.size w)
  refine ⟨shape, hp, unary_of_call ?_ (call_of_primary hbound rfl hread hcloses) hcloses⟩
  change opensOperand (Lexer.next ⟨o, w ++ rest⟩).1.kind
  rwa [hfirst]

/-- An operand in front of a closing sign is an assignment, unless an arrow function begins. -/
lemma takes_assignment_of_unary {p : Shape → Prop} {kind : Kind}
    (hkind : opensOperand kind ∨ kind = .sign "-") (hparen : kind ≠ .sign "(")
    (hfirst : ∀ o, (Lexer.next ⟨o, w ++ rest⟩).1.kind = kind) (hrest : closesAhead rest)
    (hbound : 0 < s.bound) (hp : ∀ shape, p shape → shape.isName = false)
    (h : Takes (rules n .unary) ctx s w rest p) :
    Takes (rules (n + 2) .assignment) ctx s w rest p := by
  intro stop o
  obtain ⟨shape, hshape, hread⟩ := h stop o
  have hcloses := closes_of_closesAhead hrest s (o + Text.size w) (o + Text.size w)
  have hk : (s.face Lexer.next stop ⟨o, w ++ rest⟩).token.kind = kind := hfirst o
  have hopens : kind ≠ .privateName ∧ kind ≠ .word "yield" false ∧ kind ≠ .word "async" false
      ∧ kind ≠ .sign "<" := by
    rcases hkind with hkind | rfl
    · rcases opensOperand_cases hkind with ⟨v, rfl⟩ | rfl | rfl | rfl | rfl | rfl | rfl | rfl <;> simp
    · simp
  have hbinary : rules (n + 1) (.binary 0) ctx _ = _ :=
    binary_of_unary (by rw [hk]; exact hopens.1) hread hbound hcloses
  refine ⟨shape, hshape, assignment_of_binary ?_ ?_ ?_ hbinary (hp shape hshape) hcloses⟩
  · simp [isWord_eq, hk, hopens]
  · simp [isWord_eq, hk, hopens]
  · exact parenthesizedArrow?_eq_none (by simp [isSign_eq, isWord_eq, hk, hopens, hparen])

/-- An operand behind a minus sign. -/
lemma takes_unary_minus {rules : Rules} {p : Shape → Prop}
    (hminus : Heads (.sign "-") ['-'] (w ++ rest)) (hrest : closesAhead rest)
    (h : Takes (rules .unary) ctx s w rest p) :
    Takes (unary rules) ctx s ('-' :: w) rest fun shape => shape = .plain := by
  intro stop o
  obtain ⟨shape, -, hread⟩ := h (o + 1) (o + 1)
  have hpower : (s.face Lexer.next (o + 1 + Text.size w) ⟨o + 1 + Text.size w, rest⟩).token.isSign
      "**" = false := by
    obtain ⟨y, hy, hk⟩ := closes_of_closesAhead hrest s (o + 1 + Text.size w) (o + 1 + Text.size w)
    simp only [List.mem_cons, List.not_mem_nil, or_false] at hy
    rcases hy with rfl | rfl | rfl | rfl | rfl <;> simp [isSign_eq, hk]
  have hadvance : (advance >>= _) ctx _ = _ := bind_advance_heads (s := s) hminus (fun _ => do
    let _ ← rules .unary
    need (!(← onSign "**"))
    return Shape.plain) stop o
  have hk : (s.face Lexer.next stop ⟨o, '-' :: (w ++ rest)⟩).token.kind = .sign "-" :=
    face_kind hminus s stop o
  refine ⟨.plain, rfl, ?_⟩
  rw [List.cons_append, unary, bind_token, if_pos (by simp [isSign_eq, hk])]
  refine hadvance.trans ?_
  have hone : Text.size ['-'] = 1 := rfl
  rw [hone, bind_of_eq hread, bind_onSign, bind_need (by simp [hpower]), Text.size_cons,
    ← Nat.add_assoc]
  rfl

/-! ### JSON values -/

/-- What is said about the expression of a value: nothing but its text if it is a string. -/
def IsShapeOf (v : Json.Value) (shape : Shape) : Prop :=
  shape.isName = false ∧ shape.isSequence = false ∧ shape.string = v.string?.map String.toList

/-- The kind of the first token of a value. -/
def firstKind : Json.Value → Kind
  | .null => .word "null" false
  | .bool true => .word "true" false
  | .bool false => .word "false" false
  | .number (.whole i) => if i < 0 then .sign "-" else .number
  | .number (.double _) => .broken
  | .string s => .string s.toList
  | .array _ => .sign "["
  | .object _ => .sign "\x7b"

lemma firstKind_ne {v : Json.Value} {x : String} (hx : x ≠ "-" ∧ x ≠ "[" ∧ x ≠ "\x7b") :
    firstKind v ≠ .sign x := by
  cases v with
  | bool b => cases b <;> simp [firstKind]
  | number n =>
      cases n with
      | whole i => by_cases hi : i < 0 <;> simp [firstKind, hi, hx.1.symm]
      | double x => simp [firstKind]
  | null | string => simp [firstKind]
  | array => simp [firstKind, hx.2.1.symm]
  | object => simp [firstKind, hx.2.2.symm]

/-- A value whose text does not begin with a sign is a token. -/
lemma heads_text {v : Json.Value} (h : v.isPlain) (hrest : closesAhead rest)
    (hscalar : ∀ x, firstKind v ≠ .sign x) : Heads (firstKind v) v.text rest := by
  cases rest with
  | nil => simp [closesAhead] at hrest
  | cons c t =>
      have hc : isCloser c := by simpa [closesAhead] using hrest
      have hword : endsWord (c :: t) := by
        simp only [isCloser, Bool.or_eq_true, decide_eq_true_eq] at hc
        rcases hc with (rfl | rfl) | rfl <;> rw [endsWord_cons] <;> decide +kernel
      cases v with
      | null => exact (lexes_word (by decide) hword).heads
      | bool b => cases b <;> exact (lexes_word (by decide) hword).heads
      | number n =>
          cases n with
          | double x => simp [Json.Value.isPlain] at h
          | whole i =>
              have hi : ¬i < 0 := fun hi => hscalar "-" (by rw [firstKind, if_pos hi])
              rw [Json.Value.text, Json.Number.text, firstKind, if_neg hi, if_neg hi]
              exact (lexes_digitsOf hc t).heads
      | string s => exact (lexes_quote s.toList _).heads
      | array items => exact absurd rfl (hscalar "[")
      | object members => exact absurd rfl (hscalar "\x7b")

/-- The text of a negative number: a minus sign in front of digits. -/
lemma heads_minus (k : Nat) (t : Text) : Heads (.sign "-") ['-'] (Number.digitsOf k ++ t) := by
  obtain ⟨d, ds, hds⟩ := List.exists_cons_of_ne_nil (Nat.toDigits_ne_nil (n := k) (b := 10))
  have hd : d.isDigit := Json.isDigit_of_mem_digitsOf (n := k) (by
    rw [Number.digitsOf, hds]
    exact List.mem_cons_self ..)
  rw [Number.digitsOf, hds]
  exact (lexes_minus (by rintro rfl; exact absurd hd (by decide))
    (by rintro rfl; exact absurd hd (by decide)) _).heads

/-- The first token of a value in front of a closing sign. -/
lemma kind_next_text {v : Json.Value} (h : v.isPlain) (hrest : closesAhead rest) (o : Nat) :
    (Lexer.next ⟨o, v.text ++ rest⟩).1.kind = firstKind v := by
  by_cases hscalar : ∀ x, firstKind v ≠ .sign x
  · exact (heads_text h hrest hscalar).kind_eq o
  · have hsign {c : Char} {x : String} (h : (c, x) ∈ loneSigns) (t : Text) :
        (Lexer.next ⟨o, c :: t⟩).1.kind = .sign x := (heads_loneSign h t).kind_eq o
    cases v with
    | number n =>
        cases n with
        | double x => simp [Json.Value.isPlain] at h
        | whole i =>
            by_cases hi : i < 0
            · rw [Json.Value.text, Json.Number.text, firstKind, if_pos hi, if_pos hi]
              exact (heads_minus i.natAbs rest).kind_eq o
            · simp [firstKind, hi] at hscalar
    | null => simp [firstKind] at hscalar
    | bool b => cases b <;> simp [firstKind] at hscalar
    | string t => simp [firstKind] at hscalar
    | array items => exact hsign (by simp [loneSigns]) _
    | object members => exact hsign (by simp [loneSigns]) _

/-- A value that is a token is a primary expression. -/
lemma takes_primary_text {v : Json.Value} (h : v.isPlain) (hrest : closesAhead rest)
    (hscalar : ∀ x, firstKind v ≠ .sign x) (rules : Rules) (newExpression : Reader Shape) :
    Takes (primary rules newExpression) ctx s v.text rest (IsShapeOf v) := by
  intro stop o
  have hhead := heads_text h hrest hscalar
  have hread (shape : Shape) : (advance >>= _) ctx _ = _ :=
    bind_advance_heads (s := s) hhead (fun _ => pure shape) stop o
  rw [primary, bind_token, face_kind hhead]
  cases v with
  | null => exact ⟨_, ⟨rfl, rfl, rfl⟩, by simpa [firstKind, pure_apply] using hread .plain⟩
  | bool b =>
      cases b <;> exact ⟨_, ⟨rfl, rfl, rfl⟩, by simpa [firstKind, pure_apply] using hread .plain⟩
  | number n =>
      cases n with
      | double x => simp [Json.Value.isPlain] at h
      | whole i =>
          have hi : ¬i < 0 := fun hi => hscalar "-" (by rw [firstKind, if_pos hi])
          rw [firstKind, if_neg hi]
          exact ⟨_, ⟨rfl, rfl, rfl⟩, hread .plain⟩
  | string t => exact ⟨_, ⟨rfl, rfl, rfl⟩, hread { Shape.plain with string := some t.toList }⟩
  | array items => exact absurd rfl (hscalar "[")
  | object members => exact absurd rfl (hscalar "\x7b")

/-! ### Arrays -/

lemma takes_arrayItem {rules : Rules} {v : Json.Value} {p : Shape → Prop} (hv : v.isPlain)
    (hrest : closesAhead rest) (h : ∀ ctx, Takes (rules .assignment) ctx s v.text rest p)
    (cover : Cover) : Takes (arrayItem rules cover) ctx s v.text rest fun _ => True := by
  intro stop o
  have hk : (s.face Lexer.next stop ⟨o, v.text ++ rest⟩).token.kind = firstKind v :=
    kind_next_text hv hrest o
  obtain ⟨shape, -, hread⟩ := h { ctx with allowIn := true, decorator := false } stop o
  refine ⟨cover.add shape.asElement? false, trivial, ?_⟩
  have hsign (x : String) (hx : x ≠ "-" ∧ x ≠ "[" ∧ x ≠ "\x7b") :
      (s.face Lexer.next stop ⟨o, v.text ++ rest⟩).token.isSign x = false := by
    simp [isSign_eq, hk, firstKind_ne hx]
  rw [arrayItem, bind_onSign, bind_onSign, hsign "," (by decide), hsign "]" (by decide),
    if_neg (by simp), bind_trySign_false (hsign "..." (by decide)), if_neg (by simp), element,
    bind_within, hread]
  rfl

lemma itemsText_eq_listText (items : List Json.Value) :
    Json.itemsText items = listText (items.map Json.Value.text) := by
  cases items with
  | nil => rfl
  | cons v vs => rw [Json.itemsText_cons, List.map_cons, listText, List.flatMap_map]

lemma isShapeOf_cover {v : Json.Value} (h : v.string? = none) (cover : Cover) :
    IsShapeOf v cover.shape := by
  rw [IsShapeOf, h]
  unfold Cover.shape
  split <;> exact ⟨rfl, rfl, rfl⟩

lemma takes_arrayLiteral {rules : Rules} {items : List Json.Value}
    (hitems : ∀ v ∈ items, v.isPlain)
    (h : ∀ v ∈ items, ∀ ctx t, closesAhead t →
      Takes (rules .assignment) ctx s v.text t (IsShapeOf v))
    (hbound : items.length < s.bound) :
    Takes (arrayLiteral rules) ctx s (Json.Value.array items).text rest
      (IsShapeOf (.array items)) := by
  have hlist : Takes (do sign "["; let a ← foldSeparated "]" "," (arrayItem rules) _; sign "]"; _)
      ctx s ('[' :: (listText (items.map Json.Value.text) ++ [']'])) rest _ := takes_list
    (by simp [loneSigns]) (by simp [loneSigns]) (by decide) (by decide) (fun w hw a t ht => by
      obtain ⟨v, hv, rfl⟩ := List.mem_map.mp hw
      exact takes_arrayItem (hitems v hv) ht (fun ctx => h v hv ctx t ht) a) (fun w hw o t ht => by
      obtain ⟨v, hv, rfl⟩ := List.mem_map.mp hw
      rw [isSign_eq, kind_next_text (hitems v hv) ht, decide_eq_false (firstKind_ne (by decide))])
    (by rwa [List.length_map]) Cover.empty Cover.shape
  rw [Json.Value.text, itemsText_eq_listText]
  intro stop o
  obtain ⟨shape, ⟨cover, rfl⟩, hread⟩ := hlist stop o
  exact ⟨_, isShapeOf_cover rfl cover, hread⟩

/-! ### Objects -/

/-- A string begins a member whose value stands behind a colon. -/
lemma objectItem_of_string {rules : Rules} {t : Text} (hk : s.token.kind = .string t)
    (hcolon : (Lexer.next s.after).1.isSign ":") (cover : Cover) :
    objectItem rules cover ctx s
      = (do
          advance
          sign ":"
          return cover.add (← element rules).asElement? false : Reader Cover) ctx s := by
  have hcolon' : (s.face Lexer.next s.token.span.stop s.after).token.isSign ":" := hcolon
  rw [objectItem, bind_token, bind_following, bind_trySign_false (by simp [isSign_eq, hk])]
  simp only [Token.isOneOf, Token.isWord, Token.isName, hk, Bool.false_and, Bool.false_eq_true,
    if_false]
  rw [bind_trySign_false (by simp [isSign_eq, hk]), if_neg (by simp), bind_need (by simp),
    propertyName, bind_bind, bind_token, if_pos (by simp [Token.isPropertyName, hk]), bind_advance,
    bind_advance, bind_trySign_true hcolon', bind_sign hcolon']
  rfl

lemma takes_objectItem {rules : Rules} {m : String × Json.Value}
    (h : ∀ ctx, Takes (rules .assignment) ctx s m.2.text rest (IsShapeOf m.2)) (cover : Cover) :
    Takes (objectItem rules cover) ctx s (Json.memberText m) rest fun _ => True := by
  intro stop o
  have hkey := (lexes_quote m.1.toList (':' :: (m.2.text ++ rest))).heads
  have hcolon : (':', ":") ∈ loneSigns := by simp [loneSigns]
  have hnext : (Lexer.next (s.face Lexer.next stop
      ⟨o, Json.quote m.1.toList ++ ':' :: (m.2.text ++ rest)⟩).after).1.isSign ":" := by
    have hafter : (s.face Lexer.next stop ⟨o, Json.quote m.1.toList ++ ':' :: (m.2.text ++ rest)⟩).after
      = _ := hkey.after_eq o
    rw [hafter, isSign_eq]
    exact decide_eq_true ((heads_loneSign hcolon _).kind_eq _)
  obtain ⟨shape, -, hread⟩ := h { ctx with allowIn := true, decorator := false }
    (o + Text.size (Json.quote m.1.toList) + 1) (o + Text.size (Json.quote m.1.toList) + 1)
  refine ⟨cover.add shape.asElement? false, trivial, ?_⟩
  rw [Json.memberText, List.append_assoc, List.cons_append,
    objectItem_of_string (face_kind hkey s stop o) hnext, bind_advance_heads hkey,
    bind_sign_lone hcolon, element, bind_within, hread]
  simp only [Text.size_append, Text.size_cons, utf8Size_of_loneSign hcolon, Nat.add_assoc]
  rfl

lemma membersText_eq_listText (members : List (String × Json.Value)) :
    Json.membersText members = listText (members.map Json.memberText) := by
  cases members with
  | nil => rfl
  | cons m ms => rw [Json.membersText_cons, List.map_cons, listText, List.flatMap_map]

lemma takes_objectLiteral {rules : Rules} {members : List (String × Json.Value)}
    (h : ∀ m ∈ members, ∀ ctx t, closesAhead t →
      Takes (rules .assignment) ctx s m.2.text t (IsShapeOf m.2))
    (hbound : members.length < s.bound) :
    Takes (objectLiteral rules) ctx s (Json.Value.object members).text rest
      (IsShapeOf (.object members)) := by
  have hlist : Takes (do
        sign "\x7b"; let a ← foldSeparated "\x7d" "," (objectItem rules) _; sign "\x7d"; _)
      ctx s ('\x7b' :: (listText (members.map Json.memberText) ++ ['\x7d'])) rest _ := takes_list
    (by simp [loneSigns]) (by simp [loneSigns]) (by decide) (by decide) (fun w hw a t ht => by
      obtain ⟨m, hm, rfl⟩ := List.mem_map.mp hw
      exact takes_objectItem (fun ctx => h m hm ctx t ht) a) (fun w hw o t ht => by
      obtain ⟨m, hm, rfl⟩ := List.mem_map.mp hw
      rw [Json.memberText, List.append_assoc, isSign_eq,
        (lexes_quote m.1.toList _).heads.kind_eq o]
      rfl)
    (by rwa [List.length_map]) Cover.empty Cover.shape
  rw [Json.Value.text, membersText_eq_listText]
  intro stop o
  obtain ⟨shape, ⟨cover, rfl⟩, hread⟩ := hlist stop o
  exact ⟨_, isShapeOf_cover rfl cover, hread⟩

/-! ### Values -/

/-- A value that is a primary expression is an assignment. -/
lemma takes_text_of_primary {v : Json.Value} (hv : v.isPlain) (hfirst : opensOperand (firstKind v))
    (hrest : closesAhead rest) (hbound : 0 < s.bound)
    (h : Takes (primary (rules n) (newExpression (rules n) s.bound)) ctx s v.text rest
      (IsShapeOf v)) :
    Takes (rules (n + 4) .assignment) ctx s v.text rest (IsShapeOf v) :=
  takes_assignment_of_unary (.inl hfirst) (firstKind_ne (by decide))
    (fun o => kind_next_text hv hrest o) hrest hbound (fun _ hshape => hshape.1)
    (takes_unary_of_primary hfirst (fun o => kind_next_text hv hrest o) hrest hbound h)

/-- A value that is a token is an assignment. -/
lemma takes_text_of_token {v : Json.Value} (hv : v.isPlain) (hfirst : ∀ x, firstKind v ≠ .sign x)
    (hopens : opensOperand (firstKind v)) (hrest : closesAhead rest) (hbound : 0 < s.bound) :
    Takes (rules (n + 4) .assignment) ctx s v.text rest (IsShapeOf v) :=
  takes_text_of_primary hv hopens hrest hbound (takes_primary_text hv hrest hfirst _ _)

/-- A negative number is an assignment. -/
lemma takes_negative {i : Int} (hi : i < 0) (hv : (Json.Value.number (.whole i)).isPlain)
    (hrest : closesAhead rest) (hbound : 0 < s.bound) :
    Takes (rules (n + 5) .assignment) ctx s (Json.Value.number (.whole i)).text rest
      (IsShapeOf (.number (.whole i))) := by
  have hfirst : firstKind (.number (.whole i)) = .sign "-" := by rw [firstKind, if_pos hi]
  refine takes_assignment_of_unary (.inr hfirst) (firstKind_ne (by decide))
    (fun o => kind_next_text hv hrest o) hrest hbound (fun _ hshape => hshape.1) ?_
  have hdigits : (Json.Value.number (.whole i)).text
      = '-' :: (Json.Value.number (.whole i.natAbs)).text := by
    rw [Json.Value.text, Json.Number.text, if_pos hi, Json.Value.text, Json.Number.text,
      if_neg (by omega), Int.natAbs_natCast]
  have hplain : (Json.Value.number (.whole i.natAbs)).isPlain := by
    simp only [Json.Value.isPlain, Bool.and_eq_true, decide_eq_true_eq] at hv ⊢
    omega
  have hkind : firstKind (.number (.whole (i.natAbs : Int))) = .number := by
    rw [firstKind, if_neg (by omega)]
  have hnumber : Takes (rules (n + 2) .unary) ctx s (Json.Value.number (.whole i.natAbs)).text rest
      (IsShapeOf (.number (.whole i.natAbs))) :=
    takes_unary_of_primary rfl (fun o => by rw [kind_next_text hplain hrest, hkind]) hrest hbound
      (takes_primary_text hplain hrest (fun _ => by rw [hkind]; simp) _ _)
  rw [hdigits]
  refine (takes_unary_minus (heads_minus i.natAbs rest) hrest hnumber).mono ?_
  rintro _ rfl
  exact ⟨rfl, rfl, rfl⟩

/-- **The text of a plain value is an expression** in front of a sign that closes it, whatever the
surroundings. -/
theorem takes_text {v : Json.Value} (hv : v.isPlain) (hrest : closesAhead rest)
    (hn : 5 * v.text.length ≤ n) (hbound : v.text.length < s.bound) :
    Takes (rules n .assignment) ctx s v.text rest (IsShapeOf v) := by
  obtain ⟨k, hk, hpos⟩ : ∃ k, v.text.length = k + 1 ∧ 0 < s.bound := by
    obtain ⟨c, t, ht, -⟩ := Json.exists_text_eq_cons hv
    exact ⟨t.length, by rw [ht, List.length_cons], by omega⟩
  obtain ⟨n, rfl⟩ : ∃ m, n = m + 5 := ⟨n - 5, by omega⟩
  clear hk k
  induction v using Json.valueInduction generalizing n ctx rest with
  | null => exact takes_text_of_token hv (by simp [firstKind]) rfl hrest hpos
  | bool b => cases b <;> exact takes_text_of_token hv (by simp [firstKind]) rfl hrest hpos
  | number x =>
      cases x with
      | double x => simp [Json.Value.isPlain] at hv
      | whole i =>
          by_cases hi : i < 0
          · exact takes_negative hi hv hrest hpos
          · exact takes_text_of_token hv (by simp [firstKind, hi])
              (by simp [firstKind, hi, opensOperand]) hrest hpos
  | string t => exact takes_text_of_token hv (by simp [firstKind]) rfl hrest hpos
  | array items ih =>
      have htext : (Json.Value.array items).text.length
          = (listText (items.map Json.Value.text)).length + 2 := by
        simp [Json.Value.text, itemsText_eq_listText]
      have hitems := length_le_listText_succ (items.map Json.Value.text)
      rw [List.length_map] at hitems
      have hplain := Json.Value.arePlain_iff.mp hv
      refine takes_text_of_primary hv rfl hrest (by omega) fun stop o => ?_
      have hk : (s.face Lexer.next stop ⟨o, (Json.Value.array items).text ++ rest⟩).token.kind
        = .sign "[" := kind_next_text hv hrest o
      rw [primary, bind_token, hk]
      refine takes_arrayLiteral hplain (fun v hmem ctx t ht => ?_) (by omega) stop o
      have hsize := length_le_listText (List.mem_map_of_mem (f := Json.Value.text) hmem)
      obtain ⟨m, hm⟩ : ∃ m, n + 1 = m + 5 := ⟨n - 4, by omega⟩
      rw [hm]
      exact ih v hmem (hplain v hmem) ht (by omega) m (by omega)
  | object members ih =>
      have htext : (Json.Value.object members).text.length
          = (listText (members.map Json.memberText)).length + 2 := by
        simp [Json.Value.text, membersText_eq_listText]
      have hmembers := length_le_listText_succ (members.map Json.memberText)
      rw [List.length_map] at hmembers
      refine takes_text_of_primary hv rfl hrest (by omega) fun stop o => ?_
      have hk : (s.face Lexer.next stop ⟨o, (Json.Value.object members).text ++ rest⟩).token.kind
        = .sign "\x7b" := kind_next_text hv hrest o
      rw [primary, bind_token, hk]
      refine takes_objectLiteral (fun m hmem ctx t ht => ?_) (by omega) stop o
      have hplain := Json.Value.membersArePlain_iff.mp (Bool.and_eq_true_iff.mp hv).2 m hmem
      have hsize := length_le_listText (List.mem_map_of_mem (f := Json.memberText) hmem)
      rw [Json.memberText, List.length_append, List.length_cons] at hsize
      obtain ⟨k, hk⟩ : ∃ k, n + 1 = k + 5 := ⟨n - 4, by omega⟩
      rw [hk]
      exact ih m hmem hplain ht (by omega) k (by omega)

end Grammar

end CanvasSync.Script
