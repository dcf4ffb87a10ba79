import CanvasSync.Proofs.Script.Tags

/-!
Markup is read as it is written.

* `IsPlain`, `IsInsert`: the texts that stand between tags, and the expressions in braces there;
* `Passage.IsProper`: a content whose texts, expressions and tags are such that a reader finds them;
* `ReadsAs`: the reader of markup takes a text for a tree, which depends on where the text stands;
* `readsAs_wrap`, `readsContent_of_isProper`: a proper content is read with its pieces and its trees,
  and as a tree with the tags around it.
-/

namespace CanvasSync.Script

open Reader
open CanvasSync.Markup (Node Attribute AttributeValue Part Passage Place Shell Tag Tree attributesFrom
  partsText piecesOf)

variable {β : Type} {ctx : Context} {s : State} {n : Nat} {tag rest gaps w : Text} {inMarkup : Bool}

/-- The function of the lexer that finds the token behind a node. -/
def lookBehind (inMarkup : Bool) : Cursor → Token × Cursor × Cursor :=
  if inMarkup then Lexer.nextMarkup else Lexer.next

namespace Grammar

/-! ### Tags -/

/-- A closing sign is taken, with the blanks before it. -/
lemma bind_closeWith_heads {x : String} (h : Heads (.sign x) w rest) (f : Unit → Reader β)
    (stop o : Nat) :
    (closeWith x inMarkup >>= f) ctx (s.face Lexer.next stop ⟨o, w ++ rest⟩)
      = f () ctx (s.face (lookBehind inMarkup) (o + Text.size w) ⟨o + Text.size w, rest⟩) := by
  have hk : (s.face Lexer.next stop ⟨o, w ++ rest⟩).token.kind = .sign x := face_kind h s stop o
  have hstop : (s.face Lexer.next stop ⟨o, w ++ rest⟩).token.span.stop = o + Text.size w :=
    h.stop_eq o
  have hafter : (s.face Lexer.next stop ⟨o, w ++ rest⟩).after = ⟨o + Text.size w, rest⟩ :=
    h.after_eq o
  refine bind_of_eq ?_
  rw [closeWith, bind_onSign, bind_need (by simp [isSign_eq, hk])]
  cases inMarkup
  · rw [if_neg (by simp), advance_apply, hstop, hafter]
    rfl
  · rw [if_pos rfl, advanceInMarkup_apply, hstop, hafter]
    rfl

lemma bind_closeWith {c : Char} {x : String} (h : (c, x) ∈ loneSigns) (f : Unit → Reader β)
    (stop o : Nat) :
    (closeWith x inMarkup >>= f) ctx (s.face Lexer.next stop ⟨o, c :: rest⟩)
      = f () ctx (s.face (lookBehind inMarkup) (o + 1) ⟨o + 1, rest⟩) := by
  have hread : (closeWith x inMarkup >>= f) ctx _ = _ :=
    bind_closeWith_heads (s := s) (heads_loneSign h rest) f stop o
  rwa [List.singleton_append, Text.size_cons, utf8Size_of_loneSign h] at hread

/-- What a name of markup begins with cannot go on with a sign before it. -/
lemma exists_cons_of_isMarkupName (h : isMarkupName tag) :
    ∃ c t, tag = c :: t ∧ c ≠ '/' ∧ c ≠ '*' ∧ c ≠ '=' ∧ c ≠ '<' ∧ c ≠ '>' := by
  cases tag with
  | nil => simp [isMarkupName] at h
  | cons c t =>
      simp only [isMarkupName, Bool.and_eq_true] at h
      have hne (x : Char) (hx : Character.isNameStart x = false) : c ≠ x := by
        rintro rfl
        simp [h.1] at hx
      exact ⟨c, t, rfl, hne _ (by decide), hne _ (by decide), hne _ (by decide),
        hne _ (by decide), hne _ (by decide)⟩

lemma endsName_cons {c : Char} (h : isMarkupPart c = false) (hback : c ≠ '\\') (t : Text) :
    endsName (c :: t) := by
  simp [endsName, h, hback]

/-- The signs of a closing tag. -/
lemma heads_closing {c : Char} (hslash : c ≠ '/') (hstar : c ≠ '*') (hequals : c ≠ '=') (t : Text) :
    Heads (.sign "<") ['<'] ('/' :: c :: t) ∧ Heads (.sign "/") ['/'] (c :: t) :=
  ⟨(lexes_less (by decide) (by decide) _).heads, (lexes_slash hslash hstar hequals t).heads⟩

/-- A closing tag is taken, and its name given. -/
lemma closingTag_eq (htag : isMarkupName tag) (hbound : 0 < s.bound) (stop o : Nat) :
    closingTag true inMarkup ctx (s.face Lexer.next stop ⟨o, '<' :: '/' :: (tag ++ '>' :: rest)⟩)
      = some (([tag], ⟨o, o + 2 + Text.size tag + 1⟩),
          s.face (lookBehind inMarkup) (o + 2 + Text.size tag + 1)
            ⟨o + 2 + Text.size tag + 1, rest⟩) := by
  obtain ⟨c, t, heq, hslash, hstar, hequals, -, -⟩ := exists_cons_of_isMarkupName htag
  have hgreater : ('>', ">") ∈ loneSigns := by simp [loneSigns]
  have hpart : isMarkupPart '>' = false := by decide +kernel
  have hnext (o : Nat) : (Lexer.next ⟨o, '>' :: rest⟩).1.kind = .sign ">" :=
    (heads_loneSign hgreater rest).kind_eq o
  have hname : elementName ctx _ = _ :=
    elementName_eq (s := s) htag (endsName_cons hpart (by decide) rest)
    (fun o => by rw [isSign_eq, hnext]; rfl) (fun o => by rw [isSign_eq, hnext]; rfl) hbound
    (o + 2) (o + 2)
  have hheads := heads_closing hslash hstar hequals (t ++ '>' :: rest)
  rw [← List.cons_append, ← heq] at hheads
  rw [closingTag, bind_start, bind_sign_char hheads.1 rfl, bind_sign_char hheads.2 rfl, if_pos rfl]
  rw [bind_bind, bind_of_eq hname]
  exact (bind_closeWith hgreater _ _ _).trans rfl

/-- A closing tag without a name is taken. -/
lemma closingTag_fragment (stop o : Nat) :
    closingTag false inMarkup ctx (s.face Lexer.next stop ⟨o, '<' :: '/' :: '>' :: rest⟩)
      = some (([], ⟨o, o + 3⟩), s.face (lookBehind inMarkup) (o + 3) ⟨o + 3, rest⟩) := by
  have hheads := heads_closing (c := '>') (by decide) (by decide) (by decide) rest
  have hgreater : ('>', ">") ∈ loneSigns := by simp [loneSigns]
  rw [closingTag, bind_start, bind_sign_char hheads.1 rfl, bind_sign_char hheads.2 rfl,
    if_neg (by simp), bind_value]
  exact (bind_closeWith hgreater _ _ _).trans rfl

/-! ### Content -/

/-- A tag begins with the same token between tags as anywhere. -/
lemma face_less {t : Text} (h : Lexes (.sign "<") ['<'] t) (s : State) (stop o : Nat) :
    s.face Lexer.nextMarkup stop ⟨o, '<' :: t⟩ = s.face Lexer.next stop ⟨o, '<' :: t⟩ := by
  rw [State.face, State.face, Lexer.nextMarkup_less h]

/-- A closing tag ends the content before it. -/
lemma content_of_closing {rules : Rules} {c : Char} (hslash : c ≠ '/') (hstar : c ≠ '*')
    (hequals : c ≠ '=') (m stop o : Nat) (t : Text) :
    content rules (m + 1) ctx (s.face Lexer.nextMarkup stop ⟨o, '<' :: '/' :: c :: t⟩)
      = some (([], []), s.face Lexer.next stop ⟨o, '<' :: '/' :: c :: t⟩) := by
  obtain ⟨hless, hnext⟩ := heads_closing hslash hstar hequals t
  have hk : (s.face Lexer.next stop ⟨o, '<' :: '/' :: c :: t⟩).token.kind = .sign "<" :=
    face_kind hless s stop o
  have hafter : (s.face Lexer.next stop ⟨o, '<' :: '/' :: c :: t⟩).after
      = ⟨o + 1, '/' :: c :: t⟩ := hless.after_eq o
  have hfollowing : (Lexer.next ⟨o + 1, '/' :: c :: t⟩).1.kind = .sign "/" := hnext.kind_eq _
  rw [face_less (lexes_less (by decide) (by decide) _), content, bind_token,
    if_neg (by simp [hk]), if_neg (by simp [isSign_eq, hk]), if_pos (by simp [isSign_eq, hk]),
    bind_following, hafter, if_pos (by simp [isSign_eq, hfollowing]), pure_apply]

/-- A text that neither begins a tag nor opens a brace. -/
def IsPlain (t : Text) : Prop := ∀ x ∈ t, x ≠ '<' ∧ x ≠ '\x7b'

/-- Text between tags is a piece of the content. -/
lemma content_of_text {rules : Rules} {t : Text} {c : Char} (ht : IsPlain t)
    (hne : t ≠ []) (hc : c = '<' ∨ c = '\x7b') (m stop o : Nat) :
    content rules (m + 1) ctx (s.face Lexer.nextMarkup stop ⟨o, t ++ c :: rest⟩)
      = (do
          let (pieces, nodes) ← content rules m
          return (.text t :: pieces, nodes) : Reader _) ctx
        (s.face Lexer.nextMarkup (o + Text.size t) ⟨o + Text.size t, c :: rest⟩) := by
  have hface : s.face Lexer.nextMarkup stop ⟨o, t ++ c :: rest⟩
      = { s with
          token := ⟨.markupText, ⟨o, o + Text.size t⟩, false⟩
          here := ⟨o, t ++ c :: rest⟩
          after := ⟨o + Text.size t, c :: rest⟩
          lastStop := stop } := by
    rw [State.face, Lexer.nextMarkup_text ht hne hc]
  rw [hface, content, bind_token, if_pos (by rfl), tokenText, bind_bind, bind_state, bind_value,
    bind_of_eq advanceInMarkup_apply]
  simp only [Nat.add_sub_cancel_left, Text.upTo_size_append]
  rfl

/-- What stands in braces in the content of a node. -/
def bracedPiece (rules : Rules) : Reader Piece := do
  if ← trySign "..." then
    let _ ← braced rules
    pure Piece.other
  else if ← onSign "\x7d" then pure Piece.other
  else
    let s ← braced rules
    pure (match s.string with
      | some v => Piece.text v
      | none => Piece.other)

/-- An expression that is read alike wherever it stands in braces in the content of a node, with a
given piece of the content as its result, and has no markup in it. -/
def IsInsert (e : Text) (piece : Piece) : Prop :=
  ∀ (ctx : Context) (s : State) (n : Nat) (rest : Text), 5 * e.length ≤ n → e.length < s.bound →
    Takes (bracedPiece (rules (n + 1))) ctx s e ('\x7d' :: rest) fun p => p = piece

/-- A JSON value in braces gives its text if it is a string. -/
lemma isInsert_text {v : Json.Value} (hv : v.isPlain) :
    IsInsert v.text (match v.string? with
      | some t => .text t.toList
      | none => .other) := by
  intro ctx s n rest hn hbound stop o
  have hbraced : Takes (braced (rules (n + 1))) ctx s v.text ('\x7d' :: rest) (IsShapeOf v) :=
    takes_braced hv hn hbound
  obtain ⟨shape, hshape, hread⟩ := hbraced stop o
  have hk : (s.face Lexer.next stop ⟨o, v.text ++ '\x7d' :: rest⟩).token.kind = firstKind v :=
    kind_next_text hv rfl o
  have hfar {x : String} (hx : x ≠ "-" ∧ x ≠ "[" ∧ x ≠ "\x7b") :
      (s.face Lexer.next stop ⟨o, v.text ++ '\x7d' :: rest⟩).token.isSign x = false := by
    rw [isSign_eq, hk, decide_eq_false_iff_not]
    exact firstKind_ne hx
  refine ⟨_, rfl, ?_⟩
  rw [bracedPiece, bind_trySign_false (hfar (by decide)), if_neg (by simp), bind_onSign,
    hfar (by decide), if_neg (by simp), bind_of_eq hread, hshape.2.2]
  cases v.string? <;> rfl

/-- An expression in braces is a piece of the content. -/
lemma content_of_insert {e : Text} {piece : Piece} (he : IsInsert e piece) (hn : 5 * e.length ≤ n)
    (hbound : e.length < s.bound) (m stop o : Nat) :
    content (rules (n + 1)) (m + 1) ctx
        (s.face Lexer.nextMarkup stop ⟨o, '\x7b' :: (e ++ '\x7d' :: rest)⟩)
      = (do
          let (pieces, nodes) ← content (rules (n + 1)) m
          return (piece :: pieces, nodes) : Reader _) ctx
        (s.face Lexer.nextMarkup (o + Text.size e + 2) ⟨o + Text.size e + 2, rest⟩) := by
  have hopen : ('\x7b', "\x7b") ∈ loneSigns := by simp [loneSigns]
  have hclose : ('\x7d', "\x7d") ∈ loneSigns := by simp [loneSigns]
  change content (rules (n + 1)) (m + 1) ctx
    (s.face Lexer.next stop ⟨o, '\x7b' :: (e ++ '\x7d' :: rest)⟩) = _
  have hk : (s.face Lexer.next stop ⟨o, '\x7b' :: (e ++ '\x7d' :: rest)⟩).token.kind
      = .sign "\x7b" := rfl
  have hadvance (f : Unit → Reader (List Piece × List (Place × Tree))) :
      (advance >>= f) ctx (s.face Lexer.next stop ⟨o, '\x7b' :: (e ++ '\x7d' :: rest)⟩)
        = f () ctx (s.face Lexer.next (o + 1) ⟨o + 1, e ++ '\x7d' :: rest⟩) :=
    bind_advance_heads (heads_loneSign hopen _) f stop o
  obtain ⟨_, rfl, hread⟩ := he ctx { s with trees := [] } n rest hn hbound (o + 1) (o + 1)
  have hgathered : gathered (bracedPiece (rules (n + 1))) ctx
      (s.face Lexer.next (o + 1) ⟨o + 1, e ++ '\x7d' :: rest⟩) = _ := gathered_of_eq hread
  have hstop : o + Text.size e + 2 = o + 1 + Text.size e + 1 := by omega
  rw [hstop, content, bind_token, if_neg (by simp [hk]), if_pos (by simp [isSign_eq, hk]), hadvance]
  refine (bind_of_eq hgathered).trans ?_
  refine (bind_closeWith hclose _ _ _).trans rfl

/-! ### Nodes -/

/-- A text is read as a tree, which depends on where it stands alone. -/
def ReadsAs (n : Nat) (w : Text) (tree : Nat → Tree) : Prop :=
  ∀ (ctx : Context) (s : State) (inMarkup : Bool) (rest : Text) (stop o : Nat),
    w.length < s.bound → rules n (.markup inMarkup) ctx (s.face Lexer.next stop ⟨o, w ++ rest⟩)
      = some (.plain, State.face { s with trees := tree o :: s.trees } (lookBehind inMarkup)
          (o + Text.size w) ⟨o + Text.size w, rest⟩)

/-- A text begins with a tag or a fragment. -/
def BeginsTag (w : Text) : Prop :=
  (∃ t, w = '<' :: '>' :: t)
    ∨ ∃ tag c t, w = '<' :: (tag ++ c :: t) ∧ isMarkupName tag ∧ isMarkupPart c = false ∧ c ≠ '\\'

/-- The less-than sign of a node is a token, and no slash stands behind it. -/
lemma BeginsTag.exists_lexes (hw : BeginsTag w) (rest : Text) :
    ∃ t, w = '<' :: t ∧ Lexes (.sign "<") ['<'] (t ++ rest)
      ∧ ∀ o, (Lexer.next ⟨o, t ++ rest⟩).1.isSign "/" = false := by
  rcases hw with ⟨t, rfl⟩ | ⟨tag, x, t, rfl, htag, hx, hback⟩
  · refine ⟨_, rfl, lexes_less (by decide) (by decide) _, fun o => ?_⟩
    have hk : (Lexer.next ⟨o, '>' :: (t ++ rest)⟩).1.kind = .sign ">" :=
      (heads_loneSign (by simp [loneSigns]) _).kind_eq o
    rw [List.cons_append, isSign_eq, hk]
    rfl
  · obtain ⟨c, u, htag', -, -, hequals, hless, -⟩ := exists_cons_of_isMarkupName htag
    refine ⟨_, rfl, ?_, fun o => ?_⟩
    · rw [htag']
      exact lexes_less hless hequals _
    · have ha : (Lexer.next ⟨o, tag ++ x :: (t ++ rest)⟩).1.kind = .word _ false :=
        kind_of_isMarkupName htag (endsName_cons hx hback (t ++ rest)) (List.forall_mem_nil _) o
      rw [List.append_assoc, List.cons_append, isSign_eq, ha]
      rfl

/-- A node is a piece of the content and a tree in it. -/
lemma content_of_node {tree : Nat → Tree} (hw : BeginsTag w) (hread : ReadsAs n w tree)
    (hbound : w.length < s.bound) (m stop o : Nat) :
    content (rules n) (m + 1) ctx (s.face Lexer.nextMarkup stop ⟨o, w ++ rest⟩)
      = (do
          let (pieces, nodes) ← content (rules n) m
          return (.other :: pieces, (.content, tree o) :: nodes) : Reader _) ctx
        (s.face Lexer.nextMarkup (o + Text.size w) ⟨o + Text.size w, rest⟩) := by
  obtain ⟨t, rfl, hlex, hslash⟩ := hw.exists_lexes rest
  have hmarkup := hread ctx { s with trees := [] } true rest stop o hbound
  have hgathered : gathered (rules n (.markup true)) ctx
      (s.face Lexer.next stop ⟨o, '<' :: t ++ rest⟩) = _ := gathered_of_eq hmarkup
  rw [List.cons_append] at hgathered ⊢
  have hk : (s.face Lexer.next stop ⟨o, '<' :: (t ++ rest)⟩).token.kind = .sign "<" :=
    face_kind hlex.heads s stop o
  have hafter : (s.face Lexer.next stop ⟨o, '<' :: (t ++ rest)⟩).after = ⟨o + 1, t ++ rest⟩ :=
    hlex.heads.after_eq o
  rw [face_less hlex, content, bind_token, if_neg (by simp [hk]), if_neg (by simp [isSign_eq, hk]),
    if_pos (by simp [isSign_eq, hk]), bind_following, hafter, if_neg (by simp [hslash])]
  exact (bind_of_eq hgathered).trans rfl

/-! ### Opening tags -/

/-- The attributes behind the name of an element. -/
def openingAttributes (rules : Rules) (bound : Nat) : Reader (List Attribute) := do
  if ← onAngle then
    let _ ← attempt? (within (fun _ => Context.module) (typeArguments rules))
  attributes rules bound

/-- An element, from the end of its opening tag on. -/
def elementRest (rules : Rules) (inMarkup : Bool) (bound start : Nat) (name : List Text)
    (tag : Text) (attributes : List Attribute) (found : List Tree) : Reader Unit := do
  let inOpening := found.map fun t => (Place.opening, t)
  let selfClosing ← trySign "/"
  closeWith ">" (!selfClosing || inMarkup)
  let opening : Span := ⟨start, ← lastStop⟩
  if selfClosing then
    record (.node
      { isFragment := false, tag := String.ofList tag, span := opening, opening := opening,
        closing := none, attributes := attributes, text := none } inOpening)
  else
    let (pieces, nodes) ← content rules bound
    let (closingName, closing) ← closingTag true inMarkup
    complainIf (name ≠ closingName)
    record (.node
      { isFragment := false, tag := String.ofList tag, span := ⟨opening.start, closing.stop⟩,
        opening := opening, closing := some closing, attributes := attributes,
        text := contentText pieces } (inOpening ++ nodes))

lemma elementFrom_apply (rules : Rules) :
    elementFrom rules inMarkup ctx s
      = (do
          sign "<"
          let (name, tag) ← elementName
          let (attributes, found) ← gathered (openingAttributes rules s.bound)
          elementRest rules inMarkup s.bound s.here.offset name tag attributes found :
            Reader Unit) ctx s := rfl

lemma openingAttributes_of_notAngle {rules : Rules} (hless : s.token.kind ≠ .sign "<")
    (hshift : s.token.kind ≠ .sign "<<") (bound : Nat) :
    openingAttributes rules bound ctx s = attributes rules bound ctx s := by
  rw [openingAttributes, onAngle, bind_bind, bind_onSign, bind_bind, bind_onSign, bind_value,
    if_neg (by simp [isSign_eq, hless, hshift])]

/-- A tag that is read as written. -/
structure IsTag (t : Tag) : Prop where
  name : isMarkupName t.name
  parts : ∀ p ∈ t.parts, IsAttribute p
  gap : Text.allBlank t.gap

/-- Behind the name of a tag stand attributes, or what ends them. -/
lemma kind_next_parts {ps : List Part} (hps : ∀ p ∈ ps, IsAttribute p) (hrest : EndsAttributes rest)
    (o : Nat) : (∃ p ∈ ps.head?, (Lexer.next ⟨o, partsText ps ++ rest⟩).1.kind
        = .word (String.ofList (firstWord p.name.toList)) false)
      ∨ (Lexer.next ⟨o, partsText ps ++ rest⟩).1.kind = .sign ">"
      ∨ (Lexer.next ⟨o, partsText ps ++ rest⟩).1.kind = .sign "/" := by
  cases ps with
  | nil => exact .inr (hrest.kind o)
  | cons p ps =>
      obtain ⟨hp, hps⟩ := List.forall_mem_cons.mp hps
      rw [Markup.partsText_cons, List.append_assoc, List.append_assoc]
      exact .inl ⟨p, rfl, kind_next_part hp (endsName_partsText hps hrest.name) o⟩

/-- What stands in an opening tag before the blanks at its end is taken. -/
lemma elementFrom_eq (ctx : Context) (s : State) (inMarkup : Bool) {t : Tag} (ht : IsTag t)
    (hn : 5 * (partsText t.parts).length ≤ n)
    (hrest : EndsAttributes rest) (hbound : (partsText t.parts).length < s.bound) (stop o : Nat) :
    ∃ stop', elementFrom (rules (n + 1)) inMarkup ctx
        (s.face Lexer.next stop ⟨o, '<' :: (t.name ++ (partsText t.parts ++ rest))⟩)
      = elementRest (rules (n + 1)) inMarkup s.bound o [t.name] t.name
          (attributesFrom (o + 1 + Text.size t.name) t.parts) [] ctx
          (s.face Lexer.next stop'
            ⟨o + 1 + Text.size t.name + Text.size (partsText t.parts), rest⟩) := by
  obtain ⟨c, u, hname', -, -, hequals, hless, -⟩ := exists_cons_of_isMarkupName ht.name
  have hlex : Lexes (.sign "<") ['<'] (t.name ++ (partsText t.parts ++ rest)) := by
    rw [hname']
    exact lexes_less hless hequals _
  have hcount := length_parts_le ht.parts
  let o₁ := o + 1 + Text.size t.name
  obtain ⟨stop', hread⟩ := attributes_eq ctx { s with trees := [] } ht.parts hn hbound hrest
    (Nat.lt_of_le_of_lt hcount hbound) o₁ o₁
  have hhere : (s.face Lexer.next stop
      ⟨o, '<' :: (t.name ++ (partsText t.parts ++ rest))⟩).here.offset = o := by
    have hnext := Lexer.next_of_lexes hlex o
    rw [List.singleton_append] at hnext
    rw [State.face, hnext]
  have hkind := kind_next_parts ht.parts hrest
  have hfar {x : String} (hx : x ≠ ">" ∧ x ≠ "/") (o : Nat) :
      (Lexer.next ⟨o, partsText t.parts ++ rest⟩).1.kind ≠ .sign x := by
    rcases hkind o with ⟨p, -, ha⟩ | ha | ha <;> simp [ha, hx.1.symm, hx.2.symm]
  have hname : elementName ctx _ = _ := elementName_eq (s := s) ht.name
    (endsName_partsText ht.parts hrest.name)
    (fun o => by rw [isSign_eq, decide_eq_false_iff_not]; exact hfar (by decide) o)
    (fun o => by rw [isSign_eq, decide_eq_false_iff_not]; exact hfar (by decide) o)
    (Nat.zero_lt_of_lt hbound) (o + 1) (o + 1)
  have hopening : openingAttributes (rules (n + 1)) s.bound ctx _ = _ :=
    (openingAttributes_of_notAngle (s := State.face { s with trees := [] } Lexer.next o₁
      ⟨o₁, partsText t.parts ++ rest⟩) (hfar (by decide) o₁) (hfar (by decide) o₁)
      s.bound).trans hread
  have hgathered : gathered (openingAttributes (rules (n + 1)) s.bound) ctx
      (s.face Lexer.next o₁ ⟨o₁, partsText t.parts ++ rest⟩) = _ := gathered_of_eq hopening
  refine ⟨stop', ?_⟩
  rw [elementFrom_apply, hhere, bind_sign_char hlex.heads rfl, bind_of_eq hname]
  exact (bind_of_eq hgathered).trans rfl

/-- The signs that end an opening tag, with the blanks before them. -/
lemma heads_slash (hgaps : Text.allBlank gaps) (rest : Text) :
    Heads (.sign "/") (gaps ++ ['/']) ('>' :: rest) :=
  (lexes_slash (by decide) (by decide) (by decide) rest).heads_gaps (isGap_of_allBlank hgaps)

lemma heads_greater (hgaps : Text.allBlank gaps) (rest : Text) :
    Heads (.sign ">") (gaps ++ ['>']) rest :=
  (lexes_loneSign (by simp [loneSigns]) rest).heads_gaps (isGap_of_allBlank hgaps)

lemma bind_trySign_slash (hgaps : Text.allBlank gaps) (f : Bool → Reader β) (stop o : Nat) :
    (trySign "/" >>= f) ctx (s.face Lexer.next stop ⟨o, gaps ++ '/' :: '>' :: rest⟩)
      = f true ctx (s.face Lexer.next (o + Text.size (gaps ++ ['/']))
          ⟨o + Text.size (gaps ++ ['/']), '>' :: rest⟩) := by
  have hread : (trySign "/" >>= f) ctx _ = _ :=
    bind_trySign_heads (s := s) (heads_slash hgaps rest) f stop o
  rwa [List.append_assoc] at hread

lemma bind_trySign_greater (hgaps : Text.allBlank gaps) (f : Bool → Reader β) (stop o : Nat) :
    (trySign "/" >>= f) ctx (s.face Lexer.next stop ⟨o, gaps ++ '>' :: rest⟩)
      = f false ctx (s.face Lexer.next stop ⟨o, gaps ++ '>' :: rest⟩) := by
  have hread : (trySign "/" >>= f) ctx _ = _ :=
    bind_trySign_heads_ne (s := s) (heads_greater hgaps rest) (by decide) f stop o
  rwa [List.append_assoc] at hread

lemma bind_closeWith_greater (hgaps : Text.allBlank gaps) (f : Unit → Reader β) (stop o : Nat) :
    (closeWith ">" inMarkup >>= f) ctx (s.face Lexer.next stop ⟨o, gaps ++ '>' :: rest⟩)
      = f () ctx (s.face (lookBehind inMarkup) (o + Text.size (gaps ++ ['>']))
          ⟨o + Text.size (gaps ++ ['>']), rest⟩) := by
  have hread : (closeWith ">" inMarkup >>= f) ctx _ = _ :=
    bind_closeWith_heads (s := s) (heads_greater hgaps rest) f stop o
  rwa [List.append_assoc] at hread

lemma endsName_gaps {c : Char} (hgaps : Text.allBlank gaps) (hc : isMarkupPart c = false)
    (hback : c ≠ '\\') (t : Text) : endsName (gaps ++ c :: t) := by
  cases gaps with
  | nil => exact endsName_cons hc hback t
  | cons x gaps => exact endsName_of_allBlank (List.cons_ne_nil x gaps) hgaps _

lemma endsAttributes_slash (hgaps : Text.allBlank gaps) (rest : Text) :
    EndsAttributes (gaps ++ '/' :: '>' :: rest) := by
  refine ⟨endsName_gaps hgaps (by decide +kernel) (by decide) _, fun o => .inr ?_⟩
  have hk := (heads_slash hgaps rest).kind_eq o
  rwa [List.append_assoc] at hk

lemma endsAttributes_greater (hgaps : Text.allBlank gaps) (rest : Text) :
    EndsAttributes (gaps ++ '>' :: rest) := by
  refine ⟨endsName_gaps hgaps (by decide +kernel) (by decide) _, fun o => .inl ?_⟩
  have hk := (heads_greater hgaps rest).kind_eq o
  rwa [List.append_assoc] at hk

/-! ### Contents -/

/-- A content is read up to a closing tag, with its pieces and its trees. -/
def ReadsContent (c : Passage) : Prop :=
  ∀ (n m : Nat) (ctx : Context) (s : State) (x : Char) (t : Text) (stop o : Nat),
    5 * c.written.length ≤ n → c.written.length < m → c.written.length < s.bound →
    x ≠ '/' → x ≠ '*' → x ≠ '=' →
    ∃ stop', content (rules n) m ctx
        (s.face Lexer.nextMarkup stop ⟨o, c.written ++ '<' :: '/' :: x :: t⟩)
      = some ((c.pieces, c.trees o),
          s.face Lexer.next stop' ⟨o + Text.size c.written, '<' :: '/' :: x :: t⟩)

/-- A node with a name is an element. -/
lemma rules_markup_of_elementFrom {s' : State} {t : Text} (htag : isMarkupName tag)
    (ht : endsName t) {stop o : Nat} (h : elementFrom (rules n) inMarkup ctx
      (s.face Lexer.next stop ⟨o, '<' :: (tag ++ t)⟩) = some ((), s')) :
    rules (n + 1) (.markup inMarkup) ctx (s.face Lexer.next stop ⟨o, '<' :: (tag ++ t)⟩)
      = some (.plain, s') := by
  obtain ⟨x, u, htag', -, -, hequals, hless, -⟩ := exists_cons_of_isMarkupName htag
  have hlex : Lexes (.sign "<") ['<'] (tag ++ t) := by
    rw [htag']
    exact lexes_less hless hequals _
  have hk : (s.face Lexer.next stop ⟨o, '<' :: (tag ++ t)⟩).token.kind = .sign "<" :=
    face_kind hlex.heads s stop o
  have hafter : (s.face Lexer.next stop ⟨o, '<' :: (tag ++ t)⟩).after = ⟨o + 1, tag ++ t⟩ :=
    hlex.heads.after_eq o
  have ha : (Lexer.next ⟨o + 1, tag ++ t⟩).1.kind = .word _ false :=
    kind_of_isMarkupName htag ht (List.forall_mem_nil _) (o + 1)
  change markup (rules n) inMarkup ctx _ = _
  rw [markup, bind_onSign, bind_need (by simp [isSign_eq, hk]), bind_following, hafter,
    if_neg (by simp [isSign_eq, ha]), bind_of_eq h]
  rfl

/-- **An element that closes itself is read as written.** -/
theorem readsAs_closed {t : Tag} (ht : IsTag t) (hn : 5 * (partsText t.parts).length ≤ n) :
    ReadsAs (n + 2) ((Shell.closed t).wrap (.text [])) ((Shell.closed t).tree (.text [])) := by
  intro ctx s inMarkup rest stop o hbound
  have hgreater : ('>', ">") ∈ loneSigns := by simp [loneSigns]
  have htext : (Shell.closed t).wrap (.text []) ++ rest
      = '<' :: (t.name ++ (partsText t.parts ++ (t.gap ++ '/' :: '>' :: rest))) := by
    simp [Shell.wrap, Shell.opening, Shell.closing, Tag.text, Passage.written]
  have hlength : (partsText t.parts).length < s.bound := by
    simp only [Shell.wrap, Shell.opening, Tag.text, List.length_append, List.length_cons] at hbound
    omega
  have hends := endsAttributes_slash ht.gap rest
  obtain ⟨stop', hopening⟩ := elementFrom_eq ctx s inMarkup ht hn hends hlength stop o
  let o₁ := o + 1 + Text.size t.name + Text.size (partsText t.parts)
  have hstop : o + Text.size ((Shell.closed t).wrap (.text []))
      = o₁ + Text.size (t.gap ++ ['/']) + 1 := by
    have hone : '<'.utf8Size = 1 ∧ '/'.utf8Size = 1 ∧ '>'.utf8Size = 1 := ⟨rfl, rfl, rfl⟩
    simp only [o₁, Shell.wrap, Shell.opening, Shell.closing, Tag.text, Passage.written,
      Text.size_append, Text.size_cons, Text.size_nil, hone]
    omega
  rw [htext]
  refine rules_markup_of_elementFrom ht.name (endsName_partsText ht.parts hends.name) ?_
  rw [hopening, elementRest]
  refine (bind_trySign_slash ht.gap _ _ _).trans ?_
  refine (bind_closeWith hgreater _ _ _).trans ?_
  rw [hstop]
  have htree : (Shell.closed t).tree (.text []) o = .node
      { isFragment := false, tag := String.ofList t.name
        span := ⟨o, o₁ + Text.size (t.gap ++ ['/']) + 1⟩
        opening := ⟨o, o₁ + Text.size (t.gap ++ ['/']) + 1⟩, closing := none
        attributes := attributesFrom (o + 1 + Text.size t.name) t.parts, text := none } [] := by
    have hopen : o + Text.size (Shell.closed t).opening
        = o + Text.size ((Shell.closed t).wrap (.text [])) := by
      simp [Shell.wrap, Shell.closing, Passage.written]
    simp only [Shell.tree, Shell.node, hopen, hstop]
    rfl
  rw [htree]
  rfl

/-- **An element with a content is read as written.** -/
theorem readsAs_element {t : Tag} {inner : Passage} (ht : IsTag t) (hinner : ReadsContent inner)
    (hn : 5 * (partsText t.parts).length ≤ n) (hn' : 5 * inner.written.length ≤ n + 1) :
    ReadsAs (n + 2) ((Shell.element t).wrap inner) ((Shell.element t).tree inner) := by
  intro ctx s inMarkup rest stop o hbound
  have htext : (Shell.element t).wrap inner ++ rest
      = '<' :: (t.name ++ (partsText t.parts
          ++ (t.gap ++ '>' :: (inner.written ++ '<' :: '/' :: (t.name ++ '>' :: rest))))) := by
    simp [Shell.wrap, Shell.opening, Shell.closing, Tag.text]
  have hlength : (partsText t.parts).length < s.bound ∧ inner.written.length < s.bound := by
    simp only [Shell.wrap, Shell.opening, Tag.text, List.length_append, List.length_cons] at hbound
    omega
  have hends := endsAttributes_greater ht.gap
    (inner.written ++ '<' :: '/' :: (t.name ++ '>' :: rest))
  obtain ⟨stop', hopening⟩ := elementFrom_eq ctx s inMarkup ht hn hends hlength.1 stop o
  obtain ⟨x, u, hname', hslash, hstar, hequals, -, -⟩ := exists_cons_of_isMarkupName ht.name
  let o₁ := o + 1 + Text.size t.name + Text.size (partsText t.parts)
  let o₂ := o₁ + Text.size (t.gap ++ ['>'])
  let o₃ := o₂ + Text.size inner.written
  obtain ⟨stop'', hcontent⟩ := hinner (n + 1) s.bound ctx s x (u ++ '>' :: rest) o₂ o₂ hn'
    hlength.2 hlength.2 hslash hstar hequals
  rw [← List.cons_append, ← hname'] at hcontent
  have hclosing : closingTag true inMarkup ctx
      (s.face Lexer.next stop'' ⟨o₃, '<' :: '/' :: (t.name ++ '>' :: rest)⟩) = _ :=
    closingTag_eq ht.name (Nat.zero_lt_of_lt hbound) stop'' o₃
  have hone : '<'.utf8Size = 1 ∧ '/'.utf8Size = 1 ∧ '>'.utf8Size = 1 := ⟨rfl, rfl, rfl⟩
  have hopen : o + Text.size (Shell.element t).opening = o₂ := by
    simp only [o₂, o₁, Shell.opening, Tag.text, Text.size_append, Text.size_cons, Text.size_nil, hone]
    omega
  have hend : o₃ + Text.size (Shell.element t).closing = o₃ + 2 + Text.size t.name + 1 := by
    simp only [Shell.closing, Text.size_append, Text.size_cons, Text.size_nil, hone]
    omega
  have hstop : o + Text.size ((Shell.element t).wrap inner) = o₃ + 2 + Text.size t.name + 1 := by
    rw [Shell.wrap, Text.size_append, Text.size_append, ← Nat.add_assoc, hopen, ← Nat.add_assoc, hend]
  have htree : (Shell.element t).tree inner o = .node
      { isFragment := false, tag := String.ofList t.name
        span := ⟨o, o₃ + 2 + Text.size t.name + 1⟩, opening := ⟨o, o₂⟩
        closing := some ⟨o₃, o₃ + 2 + Text.size t.name + 1⟩
        attributes := attributesFrom (o + 1 + Text.size t.name) t.parts
        text := contentText inner.pieces } (inner.trees o₂) := by
    simp only [Shell.tree, Shell.node, hopen, hend, o₃]
    rfl
  rw [htext]
  refine rules_markup_of_elementFrom ht.name (endsName_partsText ht.parts hends.name) ?_
  rw [hopening, elementRest]
  refine (bind_trySign_greater ht.gap _ _ _).trans ?_
  refine (bind_closeWith_greater ht.gap _ _ _).trans ?_
  rw [bind_lastStop, if_neg (by simp)]
  refine (bind_of_eq hcontent).trans ?_
  refine (bind_of_eq hclosing).trans ?_
  refine (bind_complainIf (by simp) _).trans ?_
  rw [hstop, htree]
  rfl

/-- **A fragment is read as written.** -/
theorem readsAs_fragment {inner : Passage} (hinner : ReadsContent inner)
    (hn : 5 * inner.written.length ≤ n) :
    ReadsAs (n + 1) (Shell.fragment.wrap inner) (Shell.fragment.tree inner) := by
  intro ctx s inMarkup rest stop o hbound
  have htext : Shell.fragment.wrap inner ++ rest
      = '<' :: '>' :: (inner.written ++ '<' :: '/' :: '>' :: rest) := by
    simp [Shell.wrap, Shell.opening, Shell.closing]
  have hlength : inner.written.length < s.bound := by
    simp only [Shell.wrap, Shell.opening, List.length_append] at hbound
    omega
  have hgreater : ('>', ">") ∈ loneSigns := by simp [loneSigns]
  have hlex : Lexes (.sign "<") ['<'] ('>' :: (inner.written ++ '<' :: '/' :: '>' :: rest)) :=
    lexes_less (by decide) (by decide) _
  have hnext := Lexer.next_of_lexes hlex o
  rw [List.singleton_append] at hnext
  have hhere : (s.face Lexer.next stop
      ⟨o, '<' :: '>' :: (inner.written ++ '<' :: '/' :: '>' :: rest)⟩).here.offset = o := by
    rw [State.face, hnext]
  have hk : (s.face Lexer.next stop
      ⟨o, '<' :: '>' :: (inner.written ++ '<' :: '/' :: '>' :: rest)⟩).token.kind = .sign "<" :=
    face_kind hlex.heads s stop o
  have hafter : (s.face Lexer.next stop
      ⟨o, '<' :: '>' :: (inner.written ++ '<' :: '/' :: '>' :: rest)⟩).after
      = ⟨o + 1, '>' :: (inner.written ++ '<' :: '/' :: '>' :: rest)⟩ := hlex.heads.after_eq o
  have hfollowing : (Lexer.next
      ⟨o + 1, '>' :: (inner.written ++ '<' :: '/' :: '>' :: rest)⟩).1.kind = .sign ">" :=
    (heads_loneSign hgreater _).kind_eq _
  obtain ⟨stop', hcontent⟩ := hinner n s.bound ctx s '>' rest (o + 2) (o + 2) hn hlength hlength
    (by decide) (by decide) (by decide)
  have hclosing : closingTag false inMarkup ctx (s.face Lexer.next stop'
      ⟨o + 2 + Text.size inner.written, '<' :: '/' :: '>' :: rest⟩) = _ :=
    closingTag_fragment stop' (o + 2 + Text.size inner.written)
  have hstop : o + Text.size (Shell.fragment.wrap inner) = o + 2 + Text.size inner.written + 3 := by
    have hsizes : Text.size ['<', '>'] = 2 ∧ Text.size ['<', '/', '>'] = 3 := ⟨rfl, rfl⟩
    simp only [Shell.wrap, Shell.opening, Shell.closing, Text.size_append, hsizes]
    omega
  have hfragment : fragment (rules n) inMarkup ctx (s.face Lexer.next stop
      ⟨o, '<' :: '>' :: (inner.written ++ '<' :: '/' :: '>' :: rest)⟩)
      = some ((), State.face { s with trees := Shell.fragment.tree inner o :: s.trees }
          (lookBehind inMarkup) (o + 2 + Text.size inner.written + 3)
          ⟨o + 2 + Text.size inner.written + 3, rest⟩) := by
    rw [fragment, bind_state, hhere, bind_sign_char hlex.heads rfl]
    refine (bind_closeWith hgreater _ _ _).trans ?_
    refine (bind_of_eq hcontent).trans ?_
    exact (bind_of_eq hclosing).trans rfl
  change markup (rules n) inMarkup ctx _ = _
  rw [htext, hstop, markup, bind_onSign, bind_need (by simp [isSign_eq, hk]), bind_following, hafter,
    if_pos (by simp [isSign_eq, hfollowing]), bind_of_eq hfragment]
  rfl

end Grammar

end CanvasSync.Script

namespace CanvasSync.Markup

open CanvasSync.Script (firstWord isMarkupName)
open CanvasSync.Script.Grammar (IsInsert IsPlain IsTag)

/-- Tags that are read as written. -/
def Shell.IsProper : Shell → Prop
  | fragment => True
  | element t | closed t => IsTag t

/-- A tag that no arrow function begins with: its first attribute does not look like the bound of a
type, or it is called `const` and a hyphen in its first attribute tells it from a type. -/
def Tag.Opens (t : Tag) : Prop :=
  (firstWord t.name ≠ "const".toList
      ∧ ∀ p ∈ t.parts.head?, firstWord p.name.toList ≠ "extends".toList)
    ∨ t.name = "const".toList ∧ ∃ p ps, t.parts = p :: ps ∧ isMarkupName p.name.toList
      ∧ firstWord p.name.toList ≠ p.name.toList

/-- Tags that no arrow function begins with. -/
def Shell.Opens : Shell → Prop
  | fragment => True
  | element t | closed t => t.Opens

/-- A content that is read as written; a tag that closes itself has none. -/
def Passage.IsProper : Passage → Prop
  | text t => IsPlain t
  | braced t e piece rest => IsPlain t ∧ IsInsert e piece ∧ rest.IsProper
  | node t shell inner rest =>
    IsPlain t ∧ shell.IsProper ∧ (shell.isClosed → inner = .text []) ∧ inner.IsProper
      ∧ rest.IsProper

end CanvasSync.Markup

namespace CanvasSync.Script.Grammar

open CanvasSync.Script.Reader
open CanvasSync.Markup (Passage Place Shell Tree piecesOf)

variable {ctx : Context} {s : State} {n : Nat} {shell : Shell} {inner : Passage}

/-- **A content with tags around it is read as written.** -/
theorem readsAs_wrap (hshell : shell.IsProper) (hclosed : shell.isClosed → inner = .text [])
    (hinner : ReadsContent inner) (hn : 5 * (shell.wrap inner).length ≤ n) :
    ReadsAs n (shell.wrap inner) (shell.tree inner) := by
  cases shell with
  | fragment =>
      simp only [Shell.wrap, Shell.opening, List.length_append, List.length_cons] at hn
      obtain ⟨n, rfl⟩ : ∃ m, n = m + 1 := ⟨n - 1, by omega⟩
      exact readsAs_fragment hinner (by omega)
  | element t =>
      simp only [Shell.wrap, Shell.opening, Markup.Tag.text, List.length_append, List.length_cons]
        at hn
      obtain ⟨n, rfl⟩ : ∃ m, n = m + 2 := ⟨n - 2, by omega⟩
      exact readsAs_element hshell hinner (by omega) (by omega)
  | closed t =>
      obtain rfl := hclosed rfl
      simp only [Shell.wrap, Shell.opening, Markup.Tag.text, List.length_append, List.length_cons]
        at hn
      obtain ⟨n, rfl⟩ : ∃ m, n = m + 2 := ⟨n - 2, by omega⟩
      exact readsAs_closed hshell (by omega)

/-- An element is written as the attributes of its tag and what ends them. -/
lemma exists_wrap_eq {t : Markup.Tag} (ht : IsTag t) (h : shell = .element t ∨ shell = .closed t)
    (inner : Passage) :
    ∃ c rest, shell.wrap inner = '<' :: (t.name ++ (Markup.partsText t.parts ++ c :: rest))
      ∧ ∀ u, EndsAttributes (c :: (rest ++ u)) := by
  obtain ⟨x, v, hv, hx⟩ : ∃ x v, (∀ u, shell.wrap inner ++ u
      = '<' :: (t.name ++ (Markup.partsText t.parts ++ (t.gap ++ x :: (v ++ u)))))
      ∧ ∀ u, EndsAttributes (t.gap ++ x :: (v ++ u)) := by
    rcases h with rfl | rfl
    · exact ⟨'>', inner.written ++ (Shell.element t).closing,
        fun u => by simp [Shell.wrap, Shell.opening, Markup.Tag.text],
        fun u => endsAttributes_greater ht.gap _⟩
    · exact ⟨'/', '>' :: (inner.written ++ (Shell.closed t).closing),
        fun u => by simp [Shell.wrap, Shell.opening, Markup.Tag.text],
        fun u => endsAttributes_slash ht.gap _⟩
  have hwrap := hv []
  rw [List.append_nil, List.append_nil] at hwrap
  cases hgap : t.gap with
  | nil => exact ⟨x, v, by rw [hwrap, hgap, List.nil_append], fun u => by simpa [hgap] using hx u⟩
  | cons c gap =>
      exact ⟨c, gap ++ x :: v, by rw [hwrap, hgap]; simp, fun u => by simpa [hgap] using hx u⟩

lemma beginsTag_wrap (hshell : shell.IsProper) (inner : Passage) : BeginsTag (shell.wrap inner) := by
  have htag {t : Markup.Tag} (ht : IsTag t) (h : shell = .element t ∨ shell = .closed t) :
      BeginsTag (shell.wrap inner) := by
    obtain ⟨c, rest, hwrap, hends⟩ := exists_wrap_eq ht h inner
    have hname := endsName_partsText ht.parts (hends []).name
    obtain ⟨x, v, hv⟩ : ∃ x v, Markup.partsText t.parts ++ c :: rest = x :: v :=
      List.exists_cons_of_ne_nil (by simp)
    rw [List.append_nil, hv] at hname
    simp only [endsName, List.head?_cons, Option.all_some, Bool.and_eq_true, Bool.not_eq_true',
      decide_eq_true_eq] at hname
    exact .inr ⟨t.name, x, v, by rw [hwrap, hv], ht.name, hname.1, hname.2⟩
  cases shell with
  | fragment => exact .inl ⟨_, rfl⟩
  | element t => exact htag hshell (.inl rfl)
  | closed t => exact htag hshell (.inr rfl)

/-- Text before a tag or a brace is a piece of the content, if there is any. -/
lemma content_of_plain (rules : Rules) (ctx : Context) (s : State) {t : Text} {x : Char}
    (rest : Text) (ht : IsPlain t) (hx : x = '<' ∨ x = '\x7b') {m : Nat} (hm : t.length ≤ m)
    (stop o : Nat) :
    ∃ k stop', m ≤ k + t.length ∧ content rules (m + 1) ctx
        (s.face Lexer.nextMarkup stop ⟨o, t ++ x :: rest⟩)
      = (do
          let (pieces, nodes) ← content rules (k + 1)
          return (piecesOf t ++ pieces, nodes) : Reader _) ctx
        (s.face Lexer.nextMarkup stop' ⟨o + Text.size t, x :: rest⟩) := by
  by_cases hne : t = []
  · refine ⟨m, stop, by simp, ?_⟩
    subst hne
    change _ = (content rules (m + 1) >>= pure) ctx _
    exact apply_eq_bind _
  · have hpos := List.length_pos_iff.mpr hne
    obtain ⟨m, rfl⟩ : ∃ k, m = k + 1 := ⟨m - 1, by omega⟩
    refine ⟨m, o + Text.size t, by omega, ?_⟩
    rw [content_of_text ht hne hx, piecesOf, if_neg hne]
    rfl

lemma readsContent_text {t : Text} (h : (Passage.text t).IsProper) :
    ReadsContent (.text t) := by
  intro n m ctx s x u stop o hn hm hbound hslash hstar hequals
  obtain ⟨m, rfl⟩ : ∃ k, m = k + 1 := ⟨m - 1, by omega⟩
  obtain ⟨k, stop', -, hfirst⟩ := content_of_plain (rules n) ctx s ('/' :: x :: u) h (.inl rfl)
    (Nat.le_of_lt_succ hm) stop o
  have hclosing : content (rules n) _ ctx _ = _ := content_of_closing (s := s) hslash hstar
    hequals k stop' (o + Text.size t) u
  refine ⟨stop', hfirst.trans ((bind_of_eq hclosing).trans ?_)⟩
  simp only [List.append_nil]
  rfl

/-- A value in braces is read, and then what is behind it. -/
lemma readsContent_braced {t e : Text} {piece : Piece} {rest : Passage}
    (h : (Passage.braced t e piece rest).IsProper) (ih : ReadsContent rest) :
    ReadsContent (.braced t e piece rest) := by
  intro n m ctx s x u stop o hn hm hbound hslash hstar hequals
  obtain ⟨ht, he, -⟩ := h
  simp only [Passage.written, List.length_append, List.length_cons] at hn hm hbound
  obtain ⟨m, rfl⟩ : ∃ k, m = k + 1 := ⟨m - 1, by omega⟩
  obtain ⟨n, rfl⟩ : ∃ k, n = k + 1 := ⟨n - 1, by omega⟩
  obtain ⟨k, stop₁, hk, hfirst⟩ := content_of_plain (rules (n + 1)) ctx s
    (e ++ '\x7d' :: (rest.written ++ '<' :: '/' :: x :: u)) ht (.inr rfl) (m := m) (by omega)
    stop o
  have hinsert : content (rules (n + 1)) (k + 1) ctx
      (s.face Lexer.nextMarkup stop₁ ⟨o + Text.size t,
        '\x7b' :: (e ++ '\x7d' :: (rest.written ++ '<' :: '/' :: x :: u))⟩) = _ :=
    content_of_insert he (by omega) (by omega) k stop₁ (o + Text.size t)
  obtain ⟨stop₂, hbehind⟩ := ih (n + 1) k ctx s x u
    (o + Text.size t + Text.size e + 2) (o + Text.size t + Text.size e + 2) (by omega) (by omega)
    (by omega) hslash hstar hequals
  have hstop : o + Text.size (Passage.braced t e piece rest).written
      = o + Text.size t + Text.size e + 2 + Text.size rest.written := by
    have hone : '\x7b'.utf8Size = 1 ∧ '\x7d'.utf8Size = 1 := ⟨rfl, rfl⟩
    simp only [Passage.written, Text.size_append, Text.size_cons, hone]
    omega
  have htext : (Passage.braced t e piece rest).written ++ '<' :: '/' :: x :: u
      = t ++ '\x7b' :: (e ++ '\x7d' :: (rest.written ++ '<' :: '/' :: x :: u)) := by
    simp [Passage.written]
  refine ⟨stop₂, ?_⟩
  rw [htext, hstop, hfirst, bind_of_eq (hinsert.trans (bind_of_eq hbehind))]
  rfl

/-- A node is read with what is in it, and then what is behind it. -/
lemma readsContent_node {t : Text} {shell : Shell} {inner rest : Passage}
    (h : (Passage.node t shell inner rest).IsProper) (ihinner : ReadsContent inner)
    (ih : ReadsContent rest) : ReadsContent (.node t shell inner rest) := by
  intro n m ctx s x u stop o hn hm hbound hslash hstar hequals
  obtain ⟨ht, hshell, hclosed, -, -⟩ := h
  have hwritten : (Passage.node t shell inner rest).written
      = t ++ (shell.wrap inner ++ rest.written) := by
    simp [Passage.written, Shell.wrap]
  rw [hwritten] at hn hm hbound ⊢
  simp only [List.length_append] at hn hm hbound
  have hbegins := beginsTag_wrap hshell inner
  obtain ⟨w, hw, -⟩ := hbegins.exists_lexes []
  have hpos : 0 < (shell.wrap inner).length := by simp [hw]
  obtain ⟨m, rfl⟩ : ∃ k, m = k + 1 := ⟨m - 1, by omega⟩
  obtain ⟨k, stop₁, hk, hfirst⟩ := content_of_plain (rules n) ctx s
    (w ++ (rest.written ++ '<' :: '/' :: x :: u)) ht (.inl rfl) (m := m) (by omega) stop o
  have hnode : content (rules n) (k + 1) ctx (s.face Lexer.nextMarkup stop₁ ⟨o + Text.size t,
      shell.wrap inner ++ (rest.written ++ '<' :: '/' :: x :: u)⟩) = _ :=
    content_of_node hbegins (readsAs_wrap (n := n) hshell hclosed ihinner (by omega))
      (by omega) k stop₁ (o + Text.size t)
  obtain ⟨stop₂, hbehind⟩ := ih n k ctx s x u
    (o + Text.size t + Text.size (shell.wrap inner))
    (o + Text.size t + Text.size (shell.wrap inner)) (by omega) (by omega)
    (by omega) hslash hstar hequals
  have hstop : o + Text.size (t ++ (shell.wrap inner ++ rest.written))
      = o + Text.size t + Text.size (shell.wrap inner) + Text.size rest.written := by
    simp only [Text.size_append, Nat.add_assoc]
  have htext : t ++ (shell.wrap inner ++ rest.written) ++ '<' :: '/' :: x :: u
      = t ++ '<' :: (w ++ (rest.written ++ '<' :: '/' :: x :: u)) := by
    simp [hw]
  rw [hw, List.cons_append, ← hw] at hnode
  refine ⟨stop₂, ?_⟩
  rw [htext, hstop, hfirst, bind_of_eq (hnode.trans (bind_of_eq hbehind))]
  rfl

/-- **A proper content is read as written**, with its pieces and its trees. -/
theorem readsContent_of_isProper {c : Passage} (h : c.IsProper) : ReadsContent c := by
  induction c with
  | text t => exact readsContent_text h
  | braced t e piece rest ih => exact readsContent_braced h (ih h.2.2)
  | node t shell inner rest ihinner ih => exact readsContent_node h (ihinner h.2.2.2.1) (ih h.2.2.2.2)

end CanvasSync.Script.Grammar
