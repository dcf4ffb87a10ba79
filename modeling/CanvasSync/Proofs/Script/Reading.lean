import CanvasSync.Script.Reader
import CanvasSync.Proofs.Script.Lexing

/-!
What readers take from a text, wherever it stands and whatever stands behind it.

* `State.face`: the state with the token behind a place at hand;
* `bind_sign`, `bind_advance`, ...: what a reader in front of another one does to the state;
* `Heads`: a text is a token in front of another one, blanks before it counted in;
* `Takes`: a reader takes a text in front of another one and leaves the rest of the state alone;
* `takes_list`: items with commas between them and signs around them.
-/

namespace CanvasSync.Script

open Reader

variable {α β : Type} {ctx : Context} {s s' : State} {look look' : Cursor → Token × Cursor × Cursor}
  {w w' rest : Text} {kind : Kind}

/-- The state with the token behind a place at hand, found by one of the functions of the lexer; the
token before ended at an offset. -/
def State.face (s : State) (look : Cursor → Token × Cursor × Cursor) (stop : Nat) (c : Cursor) :
    State :=
  { s with token := (look c).1, here := (look c).2.1, after := (look c).2.2, lastStop := stop }

namespace Reader

/-! ### One reader after the other -/

/-- What a reader gives is handed on to the next one. -/
lemma bind_apply (r : Reader α) (f : α → Reader β) (ctx : Context) (s : State) :
    (r >>= f) ctx s = (r ctx s).bind fun x => f x.1 ctx x.2 := by
  simp only [bind]
  cases r ctx s <;> rfl

lemma bind_of_eq {r : Reader α} {f : α → Reader β} {a : α} (h : r ctx s = some (a, s')) :
    (r >>= f) ctx s = f a ctx s' := by
  rw [bind_apply, h, Option.bind_some]

lemma bind_congr {r : Reader α} (h : r ctx s' = r ctx s) (f : α → Reader β) :
    (r >>= f) ctx s' = (r >>= f) ctx s := by
  rw [bind_apply, bind_apply, h]

lemma bind_bind (r : Reader α) (f : α → Reader β) {γ : Type} (g : β → Reader γ) :
    ((r >>= f) >>= g) ctx s = (r >>= fun a => f a >>= g) ctx s := by
  simp only [bind_apply, Option.bind_assoc]

lemma pure_apply (a : α) : (pure a : Reader α) ctx s = some (a, s) := rfl

lemma bind_value (a : α) (f : α → Reader β) : (pure a >>= f) ctx s = f a ctx s := rfl

/-- A reader at the end of others. -/
lemma apply_eq_bind (r : Reader α) : r ctx s = (r >>= pure) ctx s := by
  rw [bind_apply]
  cases r ctx s <;> rfl

lemma bind_token (f : Token → Reader β) : (token >>= f) ctx s = f s.token ctx s := rfl

lemma bind_state (f : State → Reader β) : (state >>= f) ctx s = f s ctx s := rfl

lemma bind_context (f : Context → Reader β) : (context >>= f) ctx s = f ctx ctx s := rfl

lemma bind_start (f : Nat → Reader β) : (start >>= f) ctx s = f s.token.span.start ctx s := rfl

lemma bind_lastStop (f : Nat → Reader β) : (lastStop >>= f) ctx s = f s.lastStop ctx s := rfl

lemma bind_following (f : Token → Reader β) :
    (following >>= f) ctx s = f (Lexer.next s.after).1 ctx s := rfl

lemma bind_followingTwo (f : Token × Token → Reader β) :
    (followingTwo >>= f) ctx s
      = f ((Lexer.next s.after).1, (Lexer.next (Lexer.next s.after).2.2).1) ctx s := rfl

lemma bind_onSign (x : String) (f : Bool → Reader β) :
    (onSign x >>= f) ctx s = f (s.token.isSign x) ctx s := rfl

lemma bind_onWord (x : String) (f : Bool → Reader β) :
    (onWord x >>= f) ctx s = f (s.token.isWord x) ctx s := rfl

lemma bind_change (g : State → State) (f : Unit → Reader β) :
    (change g >>= f) ctx s = f () ctx (g s) := rfl

lemma advance_apply : advance ctx s = some ((), s.face Lexer.next s.token.span.stop s.after) := rfl

lemma advanceInMarkup_apply :
    advanceInMarkup ctx s = some ((), s.face Lexer.nextMarkup s.token.span.stop s.after) := rfl

lemma advanceToValue_apply :
    advanceToValue ctx s = some ((), s.face Lexer.nextValue s.token.span.stop s.after) := rfl

lemma bind_advance (f : Unit → Reader β) :
    (advance >>= f) ctx s = f () ctx (s.face Lexer.next s.token.span.stop s.after) := rfl

lemma bind_need {b : Bool} (h : b = true) (f : Unit → Reader β) :
    (need b >>= f) ctx s = f () ctx s := by
  subst h
  rfl

lemma bind_complainIf {b : Bool} (h : b = false) (f : Unit → Reader β) :
    (complainIf b >>= f) ctx s = f () ctx s := by
  subst h
  rfl

lemma bind_trySign_false {x : String} (h : s.token.isSign x = false) (f : Bool → Reader β) :
    (trySign x >>= f) ctx s = f false ctx s := by
  refine bind_of_eq ?_
  rw [trySign, bind_onSign, h]
  rfl

lemma bind_trySign_true {x : String} (h : s.token.isSign x = true) (f : Bool → Reader β) :
    (trySign x >>= f) ctx s = f true ctx (s.face Lexer.next s.token.span.stop s.after) := by
  refine bind_of_eq ?_
  rw [trySign, bind_onSign, h]
  rfl

lemma bind_tryWord_false {x : String} (h : s.token.isWord x = false) (f : Bool → Reader β) :
    (tryWord x >>= f) ctx s = f false ctx s := by
  refine bind_of_eq ?_
  rw [tryWord, bind_onWord, h]
  rfl

lemma bind_sign {x : String} (h : s.token.isSign x = true) (f : Unit → Reader β) :
    (sign x >>= f) ctx s = f () ctx (s.face Lexer.next s.token.span.stop s.after) := by
  refine bind_of_eq ?_
  rw [sign, bind_trySign_true h]
  rfl

lemma bind_word {x : String} (h : s.token.isWord x = true) (f : Unit → Reader β) :
    (word x >>= f) ctx s = f () ctx (s.face Lexer.next s.token.span.stop s.after) := by
  refine bind_of_eq ?_
  have htry : tryWord x ctx s = some (true, s.face Lexer.next s.token.span.stop s.after) := by
    rw [tryWord, bind_onWord, h]
    rfl
  rw [word, bind_of_eq htry]
  rfl

lemma gathered_of_eq {r : Reader α} {a : α} (h : r ctx { s with trees := [] } = some (a, s')) :
    gathered r ctx s = some ((a, s'.trees.reverse), { s' with trees := s.trees }) := by
  rw [gathered, h]

lemma bind_within (g : Context → Context) (r : Reader α) (f : α → Reader β) :
    (within g r >>= f) ctx s = (match r (g ctx) s with
      | some (a, s) => f a ctx s
      | none => none) := rfl

end Reader

/-! ### Tokens in front of a text -/

/-- A text is a token in front of another one, blanks before it counted in. -/
structure Heads (kind : Kind) (w rest : Text) : Prop where
  kind_eq : ∀ o, (Lexer.next ⟨o, w ++ rest⟩).1.kind = kind
  stop_eq : ∀ o, (Lexer.next ⟨o, w ++ rest⟩).1.span.stop = o + Text.size w
  after_eq : ∀ o, (Lexer.next ⟨o, w ++ rest⟩).2.2 = ⟨o + Text.size w, rest⟩

lemma Lexes.heads_gaps {gaps : Text} (h : Lexes kind w rest) (hgaps : ∀ c ∈ gaps, isGap c) :
    Heads kind (gaps ++ w) rest := by
  constructor <;> intro o <;>
    rw [List.append_assoc, Lexer.next_of_gaps hgaps h] <;> simp [Nat.add_assoc]

lemma Lexes.heads (h : Lexes kind w rest) : Heads kind w rest :=
  h.heads_gaps (List.forall_mem_nil _)

lemma isSign_eq (t : Token) (x : String) : t.isSign x = decide (t.kind = .sign x) := by
  unfold Token.isSign
  cases t.kind <;> simp

lemma isWord_eq (t : Token) (x : String) : t.isWord x = decide (t.kind = .word x false) := by
  unfold Token.isWord
  cases t.kind <;> simp [Bool.decide_and]

lemma heads_loneSign {c : Char} {x : String} (h : (c, x) ∈ loneSigns) (rest : Text) :
    Heads (.sign x) [c] rest := (lexes_loneSign h rest).heads

lemma heads_space_loneSign {c : Char} {x : String} (h : (c, x) ∈ loneSigns) (rest : Text) :
    Heads (.sign x) [' ', c] rest :=
  (lexes_loneSign h rest).heads_gaps (List.forall_mem_singleton.mpr (by decide))

namespace Reader

variable {c : Char} {x y : String}

lemma face_kind (h : Heads kind w rest) (s : State) (stop o : Nat) :
    (s.face Lexer.next stop ⟨o, w ++ rest⟩).token.kind = kind := h.kind_eq o

lemma bind_advance_heads (h : Heads kind w rest) (f : Unit → Reader β) (stop o : Nat) :
    (advance >>= f) ctx (s.face Lexer.next stop ⟨o, w ++ rest⟩)
      = f () ctx (s.face Lexer.next (o + Text.size w) ⟨o + Text.size w, rest⟩) := by
  have hstop : (s.face Lexer.next stop ⟨o, w ++ rest⟩).token.span.stop = o + Text.size w :=
    h.stop_eq o
  have hafter : (s.face Lexer.next stop ⟨o, w ++ rest⟩).after = ⟨o + Text.size w, rest⟩ :=
    h.after_eq o
  rw [bind_advance, hstop, hafter]
  rfl

lemma bind_sign_heads (h : Heads (.sign x) w rest) (f : Unit → Reader β) (stop o : Nat) :
    (sign x >>= f) ctx (s.face Lexer.next stop ⟨o, w ++ rest⟩)
      = f () ctx (s.face Lexer.next (o + Text.size w) ⟨o + Text.size w, rest⟩) := by
  rw [bind_sign (by simp [isSign_eq, face_kind h])]
  exact bind_advance_heads h f stop o

lemma bind_word_heads (h : Heads (.word x false) w rest) (f : Unit → Reader β) (stop o : Nat) :
    (word x >>= f) ctx (s.face Lexer.next stop ⟨o, w ++ rest⟩)
      = f () ctx (s.face Lexer.next (o + Text.size w) ⟨o + Text.size w, rest⟩) := by
  rw [bind_word (by simp [isWord_eq, face_kind h])]
  exact bind_advance_heads h f stop o

lemma bind_trySign_heads (h : Heads (.sign x) w rest) (f : Bool → Reader β) (stop o : Nat) :
    (trySign x >>= f) ctx (s.face Lexer.next stop ⟨o, w ++ rest⟩)
      = f true ctx (s.face Lexer.next (o + Text.size w) ⟨o + Text.size w, rest⟩) := by
  rw [bind_trySign_true (by simp [isSign_eq, face_kind h])]
  exact bind_advance_heads h (fun _ => f true) stop o

lemma bind_trySign_heads_ne (h : Heads kind w rest) (hne : kind ≠ .sign x) (f : Bool → Reader β)
    (stop o : Nat) :
    (trySign x >>= f) ctx (s.face Lexer.next stop ⟨o, w ++ rest⟩)
      = f false ctx (s.face Lexer.next stop ⟨o, w ++ rest⟩) :=
  bind_trySign_false (by simp [isSign_eq, face_kind h, hne]) f

/-! A lone sign is a token of one byte. -/

lemma utf8Size_of_loneSign (h : (c, x) ∈ loneSigns) : c.utf8Size = 1 := by
  simp only [loneSigns, List.mem_cons, Prod.mk.injEq, List.not_mem_nil, or_false] at h
  rcases h with ⟨rfl, -⟩ | ⟨rfl, -⟩ | ⟨rfl, -⟩ | ⟨rfl, -⟩ | ⟨rfl, -⟩ | ⟨rfl, -⟩ | ⟨rfl, -⟩
    | ⟨rfl, -⟩ | ⟨rfl, -⟩ | ⟨rfl, -⟩ <;> rfl

lemma isSign_lone (h : (c, y) ∈ loneSigns) (hne : y ≠ x) (s : State) (stop o : Nat) :
    (s.face Lexer.next stop ⟨o, c :: rest⟩).token.isSign x = false := by
  have hkind : (s.face Lexer.next stop ⟨o, c :: rest⟩).token.kind = .sign y :=
    face_kind (heads_loneSign h rest) s stop o
  rw [isSign_eq, hkind]
  simp [hne]

lemma bind_onSign_lone (h : (c, y) ∈ loneSigns) (f : Bool → Reader β) (stop o : Nat) :
    (onSign x >>= f) ctx (s.face Lexer.next stop ⟨o, c :: rest⟩)
      = f (decide (y = x)) ctx (s.face Lexer.next stop ⟨o, c :: rest⟩) := by
  have hkind : (s.face Lexer.next stop ⟨o, c :: rest⟩).token.kind = .sign y :=
    face_kind (heads_loneSign h rest) s stop o
  simp only [bind_onSign, isSign_eq, hkind, Kind.sign.injEq]

lemma bind_sign_char (h : Heads (.sign x) [c] rest) (hc : c.utf8Size = 1) (f : Unit → Reader β)
    (stop o : Nat) :
    (sign x >>= f) ctx (s.face Lexer.next stop ⟨o, c :: rest⟩)
      = f () ctx (s.face Lexer.next (o + 1) ⟨o + 1, rest⟩) := by
  have hread : (sign x >>= f) ctx _ = _ := bind_sign_heads (s := s) h f stop o
  rwa [List.singleton_append, Text.size_cons, hc] at hread

lemma bind_sign_lone (h : (c, x) ∈ loneSigns) (f : Unit → Reader β) (stop o : Nat) :
    (sign x >>= f) ctx (s.face Lexer.next stop ⟨o, c :: rest⟩)
      = f () ctx (s.face Lexer.next (o + 1) ⟨o + 1, rest⟩) :=
  bind_sign_char (heads_loneSign h rest) (utf8Size_of_loneSign h) f stop o

lemma sign_lone (h : (c, x) ∈ loneSigns) (stop o : Nat) :
    sign x ctx (s.face Lexer.next stop ⟨o, c :: rest⟩)
      = some ((), s.face Lexer.next (o + 1) ⟨o + 1, rest⟩) := by
  rw [apply_eq_bind (sign x), bind_sign_lone h, pure_apply]

lemma bind_trySign_lone (h : (c, x) ∈ loneSigns) (f : Bool → Reader β) (stop o : Nat) :
    (trySign x >>= f) ctx (s.face Lexer.next stop ⟨o, c :: rest⟩)
      = f true ctx (s.face Lexer.next (o + 1) ⟨o + 1, rest⟩) := by
  have hread : (trySign x >>= f) ctx _ = _ :=
    bind_trySign_heads (s := s) (heads_loneSign h rest) f stop o
  rwa [List.singleton_append, Text.size_cons, utf8Size_of_loneSign h] at hread

end Reader

/-! ### What readers take -/

/-- A reader takes a text in front of another one, gives a result with a property, and leaves the
rest of the state alone. -/
def Takes (r : Reader α) (ctx : Context) (s : State) (w rest : Text) (p : α → Prop) : Prop :=
  ∀ stop o, ∃ a, p a ∧ r ctx (s.face Lexer.next stop ⟨o, w ++ rest⟩)
    = some (a, s.face Lexer.next (o + Text.size w) ⟨o + Text.size w, rest⟩)

lemma Takes.mono {r : Reader α} {p q : α → Prop} (h : Takes r ctx s w rest p)
    (hpq : ∀ a, p a → q a) : Takes r ctx s w rest q := fun stop o =>
  let ⟨a, ha, hread⟩ := h stop o
  ⟨a, hpq a ha, hread⟩

/-- Whether a text begins with a sign that may stand behind a value. -/
def closesAhead (t : Text) : Bool := t.head?.any isCloser

/-- Texts with commas between them. -/
def listText : List Text → Text
  | [] => []
  | w :: ws => w ++ ws.flatMap fun w => ',' :: w

lemma length_le_listText {ws : List Text} (h : w ∈ ws) : w.length ≤ (listText ws).length := by
  cases ws with
  | nil => simp at h
  | cons v vs =>
      rw [listText, List.length_append]
      rcases List.mem_cons.mp h with rfl | h
      · omega
      · obtain ⟨front, back, rfl⟩ := List.append_of_mem h
        simp
        omega

lemma length_le_listText_succ (ws : List Text) : ws.length ≤ (listText ws).length + 1 := by
  cases ws with
  | nil => simp
  | cons v vs =>
      have hcommas : vs.length ≤ (vs.flatMap fun w => ',' :: w).length := by
        induction vs with
        | nil => simp
        | cons w ws ih =>
            simp only [List.flatMap_cons, List.length_append, List.length_cons]
            omega
      rw [listText, List.length_append, List.length_cons]
      omega

namespace Reader

variable {item : α → Reader α} {close : String} {c : Char} {ws : List Text}

/-- Items with commas before them are taken up to a closing sign. -/
lemma foldRest_takes (hclose : (c, close) ∈ loneSigns) (hcloser : isCloser c) (hcomma : close ≠ ",")
    (hitem : ∀ w ∈ ws, ∀ a t, closesAhead t → Takes (item a) ctx s w t fun _ => True)
    (hfirst : ∀ w ∈ ws, ∀ o t, closesAhead t →
      (Lexer.next ⟨o, w ++ t⟩).1.isSign close = false) {n : Nat}
    (hn : ws.length < n) (a : α) (stop o : Nat) :
    ∃ a' stop', foldRest close "," item n a ctx
        (s.face Lexer.next stop ⟨o, (ws.flatMap fun w => ',' :: w) ++ c :: rest⟩)
      = some (a', s.face Lexer.next stop'
          ⟨o + Text.size (ws.flatMap fun w => ',' :: w), c :: rest⟩) := by
  induction ws generalizing n a stop o with
  | nil =>
      obtain ⟨n, rfl⟩ : ∃ m, n = m + 1 := ⟨n - 1, by omega⟩
      refine ⟨a, stop, ?_⟩
      rw [foldRest, List.flatMap_nil, List.nil_append, bind_onSign_lone hclose]
      simp [pure_apply]
  | cons w ws ih =>
      rw [List.forall_mem_cons] at hitem hfirst
      obtain ⟨n, rfl⟩ : ∃ m, n = m + 1 := ⟨n - 1, by omega⟩
      have hahead : closesAhead ((ws.flatMap fun w => ',' :: w) ++ c :: rest) := by
        cases ws with
        | nil => exact hcloser
        | cons => rfl
      have hlone : (',', ",") ∈ loneSigns := by simp [loneSigns]
      obtain ⟨a₁, -, hread⟩ := hitem.1 a _ hahead (o + 1) (o + 1)
      obtain ⟨a₂, stop₂, hrest⟩ := ih hitem.2 hfirst.2 (Nat.lt_of_succ_lt_succ hn) a₁
        (o + 1 + Text.size w) (o + 1 + Text.size w)
      refine ⟨a₂, stop₂, ?_⟩
      have hsize : o + Text.size ((w :: ws).flatMap fun w => ',' :: w)
          = o + 1 + Text.size w + Text.size (ws.flatMap fun w => ',' :: w) := by
        simp [utf8Size_of_loneSign hlone, Nat.add_assoc]
      rw [hsize, List.flatMap_cons, List.cons_append, List.cons_append, List.append_assoc, foldRest,
        bind_onSign_lone hlone, if_neg (by simp [hcomma.symm]), bind_sign_lone hlone, bind_onSign]
      have hfar : (s.face Lexer.next (o + 1) ⟨o + 1, w ++ ((ws.flatMap fun w => ',' :: w)
          ++ c :: rest)⟩).token.isSign close = false := hfirst.1 (o + 1) _ hahead
      rw [hfar, if_neg (by simp), bind_of_eq hread, hrest]

/-- Items with commas between them are taken together with the signs around them. -/
lemma takes_list {first : Char} {start : String} (hopen : (first, start) ∈ loneSigns)
    (hclose : (c, close) ∈ loneSigns) (hcloser : isCloser c) (hcomma : close ≠ ",")
    (hitem : ∀ w ∈ ws, ∀ a t, closesAhead t → Takes (item a) ctx s w t fun _ => True)
    (hfirst : ∀ w ∈ ws, ∀ o t, closesAhead t →
      (Lexer.next ⟨o, w ++ t⟩).1.isSign close = false)
    (hn : ws.length < s.bound) (a : α) (f : α → β) :
    Takes (do sign start; let a ← foldSeparated close "," item a; sign close; return f a) ctx s
      (first :: (listText ws ++ [c])) rest fun b => ∃ a, b = f a := by
  intro stop o
  suffices h : ∃ a' stop', foldSeparated close "," item a ctx
      (s.face Lexer.next (o + 1) ⟨o + 1, listText ws ++ c :: rest⟩)
      = some (a', s.face Lexer.next stop' ⟨o + 1 + Text.size (listText ws), c :: rest⟩) by
    obtain ⟨a', stop', hread⟩ := h
    refine ⟨f a', ⟨a', rfl⟩, ?_⟩
    rw [List.cons_append, List.append_assoc, List.singleton_append, bind_sign_lone hopen,
      bind_of_eq hread, bind_sign_lone hclose]
    simp only [Text.size_cons, Text.size_append, Text.size_nil, utf8Size_of_loneSign hopen,
      utf8Size_of_loneSign hclose, Nat.add_assoc]
    rfl
  cases ws with
  | nil =>
      refine ⟨a, o + 1, ?_⟩
      rw [listText, List.nil_append, foldSeparated, bind_onSign_lone hclose]
      simp [pure_apply]
  | cons w ws =>
      rw [List.forall_mem_cons] at hitem hfirst
      have hahead : closesAhead ((ws.flatMap fun w => ',' :: w) ++ c :: rest) := by
        cases ws with
        | nil => exact hcloser
        | cons => rfl
      obtain ⟨a₁, -, hread⟩ := hitem.1 a _ hahead (o + 1) (o + 1)
      have hfar : (s.face Lexer.next (o + 1) ⟨o + 1, w ++ ((ws.flatMap fun w => ',' :: w)
          ++ c :: rest)⟩).token.isSign close = false := hfirst.1 (o + 1) _ hahead
      obtain ⟨a₂, stop₂, hrest⟩ := foldRest_takes hclose hcloser hcomma hitem.2
        hfirst.2 (Nat.lt_of_succ_lt hn) a₁ (o + 1 + Text.size w) (o + 1 + Text.size w)
      refine ⟨a₂, stop₂, ?_⟩
      rw [listText, List.append_assoc, foldSeparated, bind_onSign, hfar, if_neg (by simp),
        bind_state, bind_of_eq hread, Text.size_append, ← Nat.add_assoc]
      exact hrest

end Reader

end CanvasSync.Script
