import CanvasSync.Proofs.Script.Elements

/-!
A module that returns one node.

* `pageText`: a function that is exported by default and returns what stands in parentheses;
* `expression_of_markup`, `expression_of_parenthesized`: the node as an expression, and the
  parentheses around it;
* `parse?_pageText`: the script of such a module is that one node.
-/

namespace CanvasSync.Script

open Reader
open CanvasSync.Markup (Passage Shell Tree)

variable {ctx : Context} {s s' : State} {n : Nat} {shape : Shape} {w rest gaps : Text}

namespace Grammar

/-! ### The node as an expression -/

/-- A node between signs that end an expression is an expression. -/
lemma expression_of_markup (ht : s.token.kind = .sign "<")
    (harrow : arrowAhead ctx s = some (some false, s))
    (h : rules n (.markup false) ctx s = some (shape, s')) (hbound : 0 < s'.bound)
    (hs : Closes s'.token) (hcomma : s'.token.isSign "," = false) :
    rules (n + 4) .expression ctx s = some (.plain, s') := by
  have hunary : rules (n + 1) .unary ctx s = some (.plain, s') := unary_of_markup ht h
  have hbinary : rules (n + 2) (.binary 0) ctx s = some (.plain, s') :=
    binary_of_unary (by simp [ht]) hunary hbound hs
  have hparen : parenthesizedArrow? (rules (n + 2)) ctx s = some (none, s) := by
    rw [parenthesizedArrow?, bind_token, if_neg (by simp [isSign_eq, ht]), bind_of_eq harrow]
    rfl
  have hassignment : rules (n + 3) .assignment ctx s = some (.plain, s') :=
    assignment_of_binary (by simp [isWord_eq, ht]) (by simp [isWord_eq, ht]) hparen hbinary rfl hs
  exact expression_of_assignment hassignment hcomma

/-- Parentheses around an expression, between signs that end an expression. -/
lemma expression_of_parenthesized (ht : s.token.kind = .sign "(")
    (harrow : arrowAhead ctx s = some (some false, s))
    (h : parenthesized (rules n) ctx s = some (shape, s')) (hname : shape.isName = false)
    (hbound : 0 < s'.bound) (hsame : s.bound = s'.bound) (hs : Closes s'.token)
    (hcomma : s'.token.isSign "," = false) :
    rules (n + 5) .expression ctx s = some (shape, s') := by
  have hprimary : primary (rules n) (newExpression (rules n) s.bound) ctx s = some (shape, s') := by
    rw [primary, bind_token, ht]
    exact h
  have hcall : rules (n + 1) .call ctx s = some (shape, s') :=
    call_of_primary hbound hsame hprimary hs
  have hunary : rules (n + 2) .unary ctx s = some (shape, s') :=
    unary_of_call (by rw [ht]; rfl) hcall hs
  have hbinary : rules (n + 3) (.binary 0) ctx s = some (shape, s') :=
    binary_of_unary (by simp [ht]) hunary hbound hs
  have hparen : parenthesizedArrow? (rules (n + 3)) ctx s = some (none, s) := by
    rw [parenthesizedArrow?, bind_token, if_neg (by simp [isSign_eq, ht]), bind_of_eq harrow]
    rfl
  have hassignment : rules (n + 4) .assignment ctx s = some (shape, s') :=
    assignment_of_binary (by simp [isWord_eq, ht]) (by simp [isWord_eq, ht]) hparen hbinary hname hs
  exact expression_of_assignment hassignment hcomma

/-! ### No arrow function ahead -/

lemma arrowAhead_of_look (s' : State) (h : arrowAhead.look ctx s = some (some false, s')) :
    arrowAhead ctx s = some (some false, s) := by
  rw [arrowAhead, h]

/-- No arrow function begins where a parenthesis stands before a tag. -/
lemma arrowAhead_parenthesis (ht : s.token.kind = .sign "(")
    (hnext : (Lexer.next s.after).1.kind = .sign "<") :
    arrowAhead ctx s = some (some false, s) := by
  obtain ⟨s₁, hs₁⟩ : ∃ s₁, s.face Lexer.next s.token.span.stop s.after = s₁ := ⟨_, rfl⟩
  have hsecond : s₁.token.kind = .sign "<" := by
    rw [← hs₁]
    exact hnext
  refine arrowAhead_of_look (s₁.face Lexer.next s₁.token.span.stop s₁.after) ?_
  rw [arrowAhead.look, bind_tryWord_false (by simp [isWord_eq, ht]), if_neg (by simp)]
  beta_reduce
  rw [bind_token, bind_advance, hs₁, bind_token, if_pos (by simp [isSign_eq, ht]),
    if_neg (by simp [isSign_eq, hsecond]), if_neg (by simp [isSign_eq, hsecond]),
    if_neg (by simp [isSign_eq, hsecond]), bind_advance, bind_token]
  simp [Token.isOneOf, Token.isName, hsecond, isWord_eq, pure_apply]

/-- A token behind the name of a tag that does not make it the type parameter of a function. -/
def IsNoBound (kind : Kind) : Prop :=
  kind ≠ .word "extends" false ∧ kind ≠ .sign "," ∧ kind ≠ .sign "="

/-- The token that tells a tag of a name from type parameters: the one at a place behind the name, or
the one after that if the name is `const`. -/
def tellingToken (name : String) (c : Cursor) : Token :=
  if name = "const" then (Lexer.next (Lexer.next c).2.2).1 else (Lexer.next c).1

/-- No arrow function begins with a tag, unless what follows its name makes it a type parameter. -/
lemma arrowAhead_tag {a : String} (ht : s.token.kind = .sign "<")
    (hsecond : (Lexer.next s.after).1.kind = .word a false)
    (hthird : IsNoBound (tellingToken a (Lexer.next s.after).2.2).kind) :
    arrowAhead ctx s = some (some false, s) := by
  obtain ⟨s₁, hs₁⟩ : ∃ s₁, s.face Lexer.next s.token.span.stop s.after = s₁ := ⟨_, rfl⟩
  have hname : s₁.token.kind = .word a false := by
    rw [← hs₁]
    exact hsecond
  have hafter : s₁.after = (Lexer.next s.after).2.2 := by
    rw [← hs₁]
    rfl
  obtain ⟨s₂, hs₂⟩ : ∃ s₂, s₁.face Lexer.next s₁.token.span.stop s₁.after = s₂ := ⟨_, rfl⟩
  obtain ⟨s₃, hs₃⟩ : ∃ s₃, s₂.face Lexer.next s₂.token.span.stop s₂.after = s₃ := ⟨_, rfl⟩
  have h : arrowAhead.look ctx s = (do
      let second ← token
      if !(second.isName || second.isWord "const") then return some false
      if second.isWord "const" then advance
      advance
      let third ← token
      if third.isWord "extends" then
        advance
        let fourth ← token
        return some (!(["=", ">", "/"].any fourth.isSign))
      else return some (third.isSign "," || third.isSign "=") : Reader (Option Bool)) ctx s₁ := by
    rw [arrowAhead.look, bind_tryWord_false (by simp [isWord_eq, ht]), if_neg (by simp)]
    beta_reduce
    rw [bind_token, bind_advance, hs₁, bind_token, if_neg (by simp [isSign_eq, ht]),
      if_pos (by simp [isSign_eq, ht]), bind_token]
  have hlook : ∃ s', arrowAhead.look ctx s = some (some false, s') := by
    rw [h, bind_token]
    by_cases hone : (!(s₁.token.isName || s₁.token.isWord "const")) = true
    · refine ⟨s₁, ?_⟩
      rw [if_pos hone]
      rfl
    · rw [if_neg hone]
      by_cases ha : a = "const"
      · have hbound : IsNoBound s₃.token.kind := by
          rw [tellingToken, if_pos ha, ← hafter] at hthird
          rwa [← hs₃, ← hs₂]
        refine ⟨s₃, ?_⟩
        simp only [isWord_eq, hname, ha, decide_true, if_true]
        rw [bind_advance, hs₂, bind_advance, hs₃, bind_token]
        simp [isSign_eq, hbound.1, hbound.2.1, hbound.2.2, pure_apply]
      · have hbound : IsNoBound s₂.token.kind := by
          rw [tellingToken, if_neg ha, ← hafter] at hthird
          rwa [← hs₂]
        refine ⟨s₂, ?_⟩
        simp only [isWord_eq, hname, Kind.word.injEq, ha, false_and, decide_false,
          Bool.false_eq_true, if_false]
        rw [bind_advance, hs₂, bind_token]
        simp [isSign_eq, hbound.1, hbound.2.1, hbound.2.2, pure_apply]
  obtain ⟨s', hlook⟩ := hlook
  exact arrowAhead_of_look s' hlook

/-- No arrow function begins with a fragment. -/
lemma arrowAhead_fragment (ht : s.token.kind = .sign "<")
    (hsecond : (Lexer.next s.after).1.kind = .sign ">") :
    arrowAhead ctx s = some (some false, s) := by
  obtain ⟨s₁, hs₁⟩ : ∃ s₁, s.face Lexer.next s.token.span.stop s.after = s₁ := ⟨_, rfl⟩
  have hsign : s₁.token.kind = .sign ">" := by
    rw [← hs₁]
    exact hsecond
  refine arrowAhead_of_look s₁ ?_
  rw [arrowAhead.look, bind_tryWord_false (by simp [isWord_eq, ht]), if_neg (by simp)]
  beta_reduce
  rw [bind_token, bind_advance, hs₁, bind_token, if_neg (by simp [isSign_eq, ht]),
    if_pos (by simp [isSign_eq, ht]), if_pos (by simp [Token.isName, isWord_eq, hsign])]
  rfl

/-! ### A node in parentheses -/

/-- A text begins with a fragment, or with a tag that no arrow function begins with. -/
def BeginsMarkup (w : Text) : Prop :=
  (∃ t, w = '<' :: '>' :: t)
    ∨ ∃ tag c t, w = '<' :: (tag ++ c :: t) ∧ isMarkupName tag ∧ isMarkupPart c = false ∧ c ≠ '\\'
      ∧ (String.ofList (firstWord tag) = "const" → tag = "const".toList)
      ∧ ∀ (o : Nat) (rest : Text),
        IsNoBound (tellingToken (String.ofList tag) ⟨o, c :: (t ++ rest)⟩).kind

lemma BeginsMarkup.beginsTag (hw : BeginsMarkup w) : BeginsTag w := by
  rcases hw with h | ⟨tag, c, t, hw, htag, hc, hback, -⟩
  · exact .inl h
  · exact .inr ⟨tag, c, t, hw, htag, hc, hback⟩

/-- A hyphen begins a sign. -/
lemma isNoBound_hyphen (o : Nat) (t : Text) : IsNoBound (Lexer.next ⟨o, '-' :: t⟩).1.kind := by
  have hnext (x : String) (c : Cursor) (h : Lexer.sign? ⟨o, '-' :: t⟩ = some (.sign x, c)) :
      (Lexer.next ⟨o, '-' :: t⟩).1.kind = .sign x := by
    rw [Lexer.next, Lexer.nextBy, Lexer.skipTrivia_of_beginsToken (by rfl)]
    change (Lexer.tokenAt false ⟨o, '-' :: t⟩ (Lexer.sign? ⟨o, '-' :: t⟩)).1.kind = _
    rw [h]
    rfl
  have hkind (x : String) (c : Cursor) (h : Lexer.sign? ⟨o, '-' :: t⟩ = some (.sign x, c))
      (hx : x ≠ "," ∧ x ≠ "=") : IsNoBound (Lexer.next ⟨o, '-' :: t⟩).1.kind := by
    rw [hnext x c h]
    exact ⟨by simp, by simp [hx.1], by simp [hx.2]⟩
  by_cases hminus : t.head? = some '-'
  · obtain ⟨u, rfl⟩ : ∃ u, t = '-' :: u := by cases t <;> simp_all
    exact hkind "--" _ (by simp [Lexer.sign?, Lexer.signs, Cursor.strip?, Text.strip?]; rfl) (by decide)
  by_cases hequals : t.head? = some '='
  · obtain ⟨u, rfl⟩ : ∃ u, t = '=' :: u := by cases t <;> simp_all
    exact hkind "-=" _ (by simp [Lexer.sign?, Lexer.signs, Cursor.strip?, Text.strip?]; rfl) (by decide)
  · refine hkind "-" ⟨o + 1, t⟩ ?_ (by decide)
    cases t with
    | nil => rfl
    | cons c u =>
        simp only [List.head?_cons, Option.some.injEq] at hminus hequals
        simp [Lexer.sign?, Lexer.signs, Cursor.strip?, Text.strip?, Ne.symm hminus, Ne.symm hequals]
        rfl

/-- An attribute whose name has a hyphen begins with a word before a sign. -/
lemma isNoBound_part {p : Markup.Part} (hp : IsAttribute p) (hname : isMarkupName p.name.toList)
    (hword : firstWord p.name.toList ≠ p.name.toList) (hrest : endsName rest) (o : Nat) :
    IsNoBound (Lexer.next (Lexer.next ⟨o, p.gap ++ (p.text ++ rest)⟩).2.2).1.kind := by
  have hends : endsName (p.behind ++ rest) := by
    have hpart : isMarkupPart '=' = false := by decide +kernel
    rcases hp.writes.cases_text with hnil | ⟨c, t, heq, -⟩
    · rwa [hnil]
    · simp [heq, endsName, hpart]
  obtain ⟨a, b, hab, ha, -, hhyphen, hlex⟩ := exists_word_of_isMarkupName hname hends
  have hb : b ≠ [] := by
    rintro rfl
    rw [List.append_nil] at hab
    exact hword (ha.trans hab.symm)
  obtain ⟨x, v, rfl⟩ := List.exists_cons_of_ne_nil hb
  obtain rfl : x = '-' := by simpa using hhyphen hb
  have hnext := Lexer.next_of_gaps (isGap_of_allBlank hp.gap) hlex o
  rw [Markup.Part.text, hab, List.append_assoc, List.append_assoc, hnext]
  exact isNoBound_hyphen _ _

lemma beginsMarkup_wrap {shell : Shell} (hshell : shell.IsProper) (hopens : shell.Opens)
    (inner : Passage) : BeginsMarkup (shell.wrap inner) := by
  have htag {t : Markup.Tag} (ht : IsTag t) (hopens : t.Opens)
      (h : shell = .element t ∨ shell = .closed t) : BeginsMarkup (shell.wrap inner) := by
    obtain ⟨c, rest, hwrap, hends⟩ := exists_wrap_eq ht h inner
    have hname := endsName_partsText ht.parts (hends []).name
    obtain ⟨x, v, hv⟩ : ∃ x v, Markup.partsText t.parts ++ c :: rest = x :: v :=
      List.exists_cons_of_ne_nil (by simp)
    rw [List.append_nil, hv] at hname
    simp only [endsName, List.head?_cons, Option.all_some, Bool.and_eq_true, Bool.not_eq_true',
      decide_eq_true_eq] at hname
    refine .inr ⟨t.name, x, v, by rw [hwrap, hv], ht.name, hname.1, hname.2, ?_, fun o u => ?_⟩
    · intro hconst
      rcases hopens with ⟨hword, -⟩ | ⟨hconst, -⟩
      · exact absurd (by rw [← hconst, String.toList_ofList]) hword
      · exact hconst
    have hnext : x :: (v ++ u) = Markup.partsText t.parts ++ c :: (rest ++ u) := by
      rw [← List.cons_append, ← hv]
      simp
    rw [hnext]
    rcases hopens with ⟨hconst, hextends⟩ | ⟨hconst, p, ps, hparts, hname, hword⟩
    · rw [tellingToken, if_neg]
      · rcases kind_next_parts ht.parts (hends u) o with ⟨p, hp, hk⟩ | hk | hk
        · have hword : String.ofList (firstWord p.name.toList) ≠ "extends" := fun heq =>
            hextends p hp (by rw [← heq, String.toList_ofList])
          rw [hk]
          exact ⟨by simp [hword], by simp, by simp⟩
        all_goals
          rw [hk]
          exact ⟨by simp, by simp, by simp⟩
      · intro heq
        refine hconst ?_
        have hlist : t.name = "const".toList := by rw [← heq, String.toList_ofList]
        rw [hlist]
        decide +kernel
    · have hp := ht.parts p (hparts ▸ List.mem_cons_self ..)
      rw [tellingToken, if_pos (by rw [hconst, String.ofList_toList]), hparts,
        Markup.partsText_cons, List.append_assoc, List.append_assoc]
      refine isNoBound_part hp hname hword (endsName_partsText ?_ (hends u).name) o
      exact fun q hq => ht.parts q (hparts ▸ List.mem_cons_of_mem _ hq)
  cases shell with
  | fragment => exact .inl ⟨_, rfl⟩
  | element t => exact htag hshell hopens (.inl rfl)
  | closed t => exact htag hshell hopens (.inr rfl)

/-- No arrow function begins with a node. -/
lemma arrowAhead_of_beginsMarkup (hw : BeginsMarkup w) (hgaps : ∀ c ∈ gaps, isGap c)
    (rest : Text) (stop o : Nat) :
    arrowAhead ctx (s.face Lexer.next stop ⟨o, gaps ++ (w ++ rest)⟩)
      = some (some false, s.face Lexer.next stop ⟨o, gaps ++ (w ++ rest)⟩) := by
  obtain ⟨t, ht, hlex, -⟩ := hw.beginsTag.exists_lexes rest
  have hless : Heads (.sign "<") (gaps ++ ['<']) (t ++ rest) := hlex.heads_gaps hgaps
  have hsplit : gaps ++ (w ++ rest) = (gaps ++ ['<']) ++ (t ++ rest) := by simp [ht]
  rw [hsplit]
  have hkind : (s.face Lexer.next stop ⟨o, (gaps ++ ['<']) ++ (t ++ rest)⟩).token.kind
      = .sign "<" := face_kind hless s stop o
  have hafter : (s.face Lexer.next stop ⟨o, (gaps ++ ['<']) ++ (t ++ rest)⟩).after
      = ⟨o + Text.size (gaps ++ ['<']), t ++ rest⟩ := hless.after_eq o
  rcases hw with ⟨u, hu⟩ | ⟨tag, c, u, hu, htag, hc, hback, hconst, hthird⟩
  · obtain rfl : t = '>' :: u := by simpa [ht] using hu
    refine arrowAhead_fragment hkind ?_
    rw [hafter]
    exact (heads_loneSign (by simp [loneSigns]) (u ++ rest)).kind_eq _
  · obtain rfl : t = tag ++ c :: u := by simpa [ht] using hu
    obtain ⟨a, b, rfl, ha, -, hhyphen, hlexa⟩ :=
      exists_word_of_isMarkupName htag (endsName_cons hc hback (u ++ rest))
    have hword := hlexa.heads
    have hafter' : (s.face Lexer.next stop
        ⟨o, (gaps ++ ['<']) ++ (a ++ b ++ c :: u ++ rest)⟩).after
        = ⟨o + Text.size (gaps ++ ['<']), a ++ (b ++ c :: (u ++ rest))⟩ := by
      rw [hafter]
      simp
    refine arrowAhead_tag hkind (a := String.ofList a) ?_ ?_
    · rw [hafter']
      exact hword.kind_eq _
    · rw [hafter', hword.after_eq]
      -- what follows the first word of the name: a hyphen within the name, or what stands behind it
      by_cases hb : b = []
      · subst hb
        rw [List.append_nil] at hthird
        exact hthird _ rest
      · obtain ⟨v, rfl⟩ : ∃ v, b = '-' :: v := by
          obtain ⟨x, v, rfl⟩ := List.exists_cons_of_ne_nil hb
          exact ⟨v, by simpa using hhyphen hb⟩
        have hname : String.ofList a ≠ "const" := by
          intro heq
          have hlong := hconst (by rw [ha, heq])
          have hlist : a = "const".toList := by rw [← heq, String.toList_ofList]
          rw [hlist] at hlong
          simp at hlong
        rw [tellingToken, if_neg hname, List.cons_append]
        exact isNoBound_hyphen _ _

/-- A node is read alike from states that differ in whether a line ends before it. -/
lemma markup_congr {rules : Rules} {inMarkup : Bool} (ht : s.token.kind = .sign "<")
    (ht' : s'.token.kind = .sign "<") (hhere : s'.here = s.here) (hafter : s'.after = s.after)
    (hstop : s'.token.span.stop = s.token.span.stop)
    (hface : ∀ look stop c, s'.face look stop c = s.face look stop c) :
    markup rules inMarkup ctx s' = markup rules inMarkup ctx s := by
  have hsign {α : Type} (f : Unit → Reader α) :
      (sign "<" >>= f) ctx s' = (sign "<" >>= f) ctx s := by
    rw [bind_sign (by simp [isSign_eq, ht']), bind_sign (by simp [isSign_eq, ht]), hafter, hstop,
      hface]
  have hbound : (s'.face Lexer.next 0 ⟨0, []⟩).bound = (s.face Lexer.next 0 ⟨0, []⟩).bound :=
    congrArg State.bound (hface Lexer.next 0 ⟨0, []⟩)
  change s'.bound = s.bound at hbound
  have hfragment : fragment rules inMarkup ctx s' = fragment rules inMarkup ctx s := by
    simp only [fragment, bind_state, hsign, hhere, hbound]
  have helement : elementFrom rules inMarkup ctx s' = elementFrom rules inMarkup ctx s := by
    simp only [elementFrom, bind_state, hsign, hhere, hbound]
  simp only [markup, bind_onSign, isSign_eq, ht, ht', decide_true, bind_need, bind_following,
    hafter]
  split
  · exact bind_congr hfragment _
  · exact bind_congr helement _

/-- Blanks before a node do not matter. -/
lemma rules_markup_of_gaps {t : Text} {inMarkup : Bool} (hgaps : ∀ c ∈ gaps, isGap c)
    (hlex : Lexes (.sign "<") ['<'] t) (stop o : Nat) :
    rules n (.markup inMarkup) ctx (s.face Lexer.next stop ⟨o, gaps ++ ('<' :: t)⟩)
      = rules n (.markup inMarkup) ctx
        (s.face Lexer.next stop ⟨o + Text.size gaps, '<' :: t⟩) := by
  cases n with
  | zero => rfl
  | succ n =>
      have hnext := Lexer.next_of_lexes hlex (o + Text.size gaps)
      have hgap := Lexer.next_of_gaps hgaps hlex o
      rw [List.singleton_append] at hnext hgap
      refine markup_congr ?_ ?_ ?_ ?_ ?_ fun _ _ _ => rfl <;> simp only [State.face, hnext, hgap]

variable {before after : Text} {tree : Nat → Tree}

/-- A node in parentheses, between signs that end an expression, is an expression. -/
lemma expression_parentheses (ctx : Context) (s : State) (hw : BeginsMarkup w)
    (hread : ReadsAs n w tree)
    (hbefore : ∀ c ∈ before, isGap c) (hafter : ∀ c ∈ after, isGap c) (hbound : w.length < s.bound)
    (rest : Text) (stop o : Nat) :
    ∃ stop' o', rules (n + 9) .expression ctx (s.face Lexer.next stop
        ⟨o, ' ' :: '(' :: (before ++ (w ++ (after ++ ')' :: ';' :: rest)))⟩)
      = some (.plain, State.face { s with trees := tree (o + 2 + Text.size before) :: s.trees }
          Lexer.next stop' ⟨o', ';' :: rest⟩) := by
  obtain ⟨t, ht, hlex, -⟩ := hw.beginsTag.exists_lexes (after ++ ')' :: ';' :: rest)
  have hless : Heads (.sign "<") (before ++ ['<']) (t ++ (after ++ ')' :: ';' :: rest)) :=
    hlex.heads_gaps hbefore
  have hopen : Heads (.sign "(") [' ', '('] (before ++ (w ++ (after ++ ')' :: ';' :: rest))) :=
    heads_space_loneSign (by simp [loneSigns]) _
  have hclose : Heads (.sign ")") (after ++ [')']) (';' :: rest) :=
    (lexes_loneSign (by simp [loneSigns]) _).heads_gaps hafter
  have hsemicolon : Heads (.sign ";") [';'] rest := heads_loneSign (by simp [loneSigns]) rest
  let inner : Context := { ctx with allowIn := true, decorator := false }
  let s₁ := s.face Lexer.next (o + 2) ⟨o + 2, before ++ (w ++ (after ++ ')' :: ';' :: rest))⟩
  have hsplit : before ++ (w ++ (after ++ ')' :: ';' :: rest))
      = (before ++ ['<']) ++ (t ++ (after ++ ')' :: ';' :: rest)) := by simp [ht]
  have hkind : s₁.token.kind = .sign "<" := by
    change (Lexer.next ⟨o + 2, before ++ (w ++ (after ++ ')' :: ';' :: rest))⟩).1.kind = _
    rw [hsplit]
    exact hless.kind_eq _
  have hmarkup := hread inner s false (after ++ ')' :: ';' :: rest) (o + 2)
    (o + 2 + Text.size before) hbound
  let o₂ := o + 2 + Text.size before + Text.size w
  let s₂ := State.face { s with trees := tree (o + 2 + Text.size before) :: s.trees } Lexer.next o₂
    ⟨o₂, after ++ ')' :: ';' :: rest⟩
  have hend : after ++ ')' :: ';' :: rest = (after ++ [')']) ++ ';' :: rest := by simp
  have hkind₂ : s₂.token.kind = .sign ")" := by
    have h := hclose.kind_eq o₂
    rwa [← hend] at h
  have hmarkup₁ : rules n (.markup false) inner s₁ = some (.plain, s₂) := by
    refine Eq.trans ?_ hmarkup
    rw [ht, List.cons_append]
    change rules n (.markup false) inner (s.face Lexer.next (o + 2) ⟨o + 2, before ++ (w ++ _)⟩) = _
    rw [ht, List.cons_append]
    exact rules_markup_of_gaps hbefore hlex (o + 2) (o + 2)
  have hinner : rules (n + 4) .expression inner s₁ = some (.plain, s₂) :=
    expression_of_markup hkind (arrowAhead_of_beginsMarkup hw hbefore _ _ _) hmarkup₁
      (Nat.zero_lt_of_lt hbound) ⟨")", by simp, hkind₂⟩ (by simp [isSign_eq, hkind₂])
  refine ⟨o₂ + Text.size (after ++ [')']), o₂ + Text.size (after ++ [')']), ?_⟩
  have hkind₀ : (s.face Lexer.next stop
      ⟨o, ' ' :: '(' :: (before ++ (w ++ (after ++ ')' :: ';' :: rest)))⟩).token.kind
      = .sign "(" := hopen.kind_eq o
  have hafter₀ : (s.face Lexer.next stop
      ⟨o, ' ' :: '(' :: (before ++ (w ++ (after ++ ')' :: ';' :: rest)))⟩).after
      = ⟨o + 2, before ++ (w ++ (after ++ ')' :: ';' :: rest))⟩ := hopen.after_eq o
  refine expression_of_parenthesized hkind₀ (arrowAhead_parenthesis hkind₀ ?_) ?_ rfl
    (Nat.zero_lt_of_lt hbound) rfl ⟨";", by simp, hsemicolon.kind_eq _⟩ ?_
  · rw [hafter₀]
    exact hkind
  · rw [parenthesized]
    refine (bind_sign_heads hopen _ stop o).trans ?_
    have hwithin : within (fun ctx => { ctx with allowIn := true, decorator := false })
        (rules (n + 4) .expression) ctx s₁ = some (.plain, s₂) := hinner
    refine (bind_of_eq hwithin).trans ?_
    have hsign : (sign ")" >>= _) ctx _ = _ :=
      bind_sign_heads (s := { s with trees := tree (o + 2 + Text.size before) :: s.trees }) hclose
      (fun _ => (pure .plain : Reader Shape)) o₂ o₂
    rw [← hend] at hsign
    exact hsign
  · exact isSign_lone (y := ";") (by simp [loneSigns]) (by decide) _ _ _

/-! ### The function around the node -/

/-- A statement ends with a semicolon. -/
lemma statementEnd_semicolon (stop o : Nat) :
    statementEnd ctx (s.face Lexer.next stop ⟨o, ';' :: rest⟩)
      = some ((), s.face Lexer.next (o + 1) ⟨o + 1, rest⟩) := by
  have hlone : (';', ";") ∈ loneSigns := by simp [loneSigns]
  have hkind : (s.face Lexer.next stop ⟨o, ';' :: rest⟩).token.kind = .sign ";" :=
    face_kind (heads_loneSign hlone rest) s stop o
  have hend : mayEnd ctx (s.face Lexer.next stop ⟨o, ';' :: rest⟩)
      = some (true, s.face Lexer.next stop ⟨o, ';' :: rest⟩) := by
    simp [mayEnd, isSign_eq, hkind]
  rw [statementEnd, bind_of_eq hend, bind_need rfl, bind_trySign_lone hlone]
  rfl

lemma statement_of_return {rules : Rules} (h : s.token.kind = .word "return" false) :
    statement rules false ctx s = (do
      complainIf (!(← context).function)
      advance
      if !(← mayEnd) then
        let _ ← within (fun ctx => { ctx with allowIn := true }) (rules .expression)
      statementEnd
      return .plain : Reader Shape) ctx s := by
  rw [statement, bind_token, bind_following]
  simp [h]

lemma statement_of_export {rules : Rules} (h : s.token.kind = .word "export" false) :
    statement rules false ctx s = (do
      exportDeclaration rules
      return .plain : Reader Shape) ctx s := by
  rw [statement, bind_token, bind_following]
  simp [h]

lemma heads_return (rest : Text) :
    Heads (.word "return" false) "\n  return".toList (' ' :: rest) :=
  (lexes_word (w := "return".toList) (by decide) (by rfl)).heads_gaps
    (List.all_eq_true.mp (by decide) : ∀ c ∈ "\n  ".toList, isGap c)

/-- What a function gives back stands in parentheses behind `return`. -/
lemma statement_return (hfunction : ctx.function = true) (hw : BeginsMarkup w)
    (hread : ReadsAs n w tree) (hbefore : ∀ c ∈ before, isGap c) (hafter : ∀ c ∈ after, isGap c)
    (hbound : w.length < s.bound) (rest : Text) (stop o : Nat) :
    ∃ stop' o', rules (n + 10) (.statement false) ctx (s.face Lexer.next stop
        ⟨o, "\n  return".toList ++ (' ' :: '(' :: (before ++ (w ++ (after ++ ')' :: ';' :: rest))))⟩)
      = some (.plain, State.face
          { s with trees := tree (o + Text.size "\n  return".toList + 2 + Text.size before) :: s.trees }
          Lexer.next stop' ⟨o', rest⟩) := by
  let back := ' ' :: '(' :: (before ++ (w ++ (after ++ ')' :: ';' :: rest)))
  have hreturn : Heads (.word "return" false) "\n  return".toList back := heads_return _
  let o₁ := o + Text.size "\n  return".toList
  have hopen : (Lexer.next ⟨o₁, back⟩).1.kind = .sign "("
      ∧ (Lexer.next ⟨o₁, back⟩).1.afterLine = false := by
    have hspace : ∀ c ∈ [' '], isGap c := List.forall_mem_singleton.mpr (by decide)
    have hlone : ('(', "(") ∈ loneSigns := by simp [loneSigns]
    have hnext := Lexer.next_of_gaps hspace
      (lexes_loneSign hlone (before ++ (w ++ (after ++ ')' :: ';' :: rest)))) o₁
    exact ⟨congrArg (·.1.kind) hnext, congrArg (·.1.afterLine) hnext⟩
  obtain ⟨stop', o', hexpression⟩ :=
    expression_parentheses { ctx with allowIn := true } s hw hread hbefore hafter hbound rest o₁ o₁
  refine ⟨o' + 1, o' + 1, ?_⟩
  have hkind : (s.face Lexer.next stop ⟨o, "\n  return".toList ++ back⟩).token.kind
      = .word "return" false := hreturn.kind_eq o
  refine (statement_of_return hkind).trans ?_
  rw [bind_context, bind_complainIf (by simp [hfunction])]
  refine (bind_advance_heads hreturn _ stop o).trans ?_
  have hgoes : mayEnd ctx (s.face Lexer.next o₁ ⟨o₁, back⟩)
      = some (false, s.face Lexer.next o₁ ⟨o₁, back⟩) := by
    simp [mayEnd, isSign_eq, State.face, hopen]
  refine (bind_of_eq hgoes).trans ?_
  have hwithin : within (fun ctx => { ctx with allowIn := true }) (rules (n + 9) .expression) ctx
      (s.face Lexer.next o₁ ⟨o₁, back⟩) = some (.plain, State.face
        { s with trees := tree (o₁ + 2 + Text.size before) :: s.trees }
        Lexer.next stop' ⟨o', ';' :: rest⟩) := hexpression
  rw [if_pos (by rfl)]
  refine (bind_of_eq hwithin).trans ?_
  exact (bind_of_eq (statementEnd_semicolon stop' o')).trans rfl

/-- Statements are read up to one that ends them. -/
lemma statementsUntil_one {rules : Rules} {ends : Token → Bool} (hfirst : ends s.token = false)
    (h : rules (.statement false) ctx s = some (shape, s')) (hlast : ends s'.token = true)
    (hbound : 2 ≤ s.bound) : statementsUntil rules ends ctx s = some ((), s') := by
  obtain ⟨m, hm⟩ : ∃ m, s.bound = m + 2 := ⟨s.bound - 2, by omega⟩
  rw [statementsUntil, whileTrue, hm, times, bind_bind, bind_token]
  simp only [hfirst, Bool.false_eq_true, if_false]
  rw [bind_bind, bind_of_eq h, bind_value, if_pos rfl, times, bind_bind, bind_token]
  simp only [hlast, if_true]
  rfl

/-- The body of a function that gives back one node. -/
def bodyText (before after w : Text) : Text :=
  " \x7b\n  return (".toList ++ (before ++ (w ++ (after ++ ");\n\x7d".toList)))

/-- What stands before the node in the body of a function. -/
def bodyFront (before : Text) : Text :=
  ' ' :: '\x7b' :: ("\n  return".toList ++ (' ' :: '(' :: before))

/-- The body of a function is read with the node in it. -/
lemma block_bodyText (hfunction : ctx.function = true) (hw : BeginsMarkup w)
    (hread : ReadsAs n w tree) (hbefore : ∀ c ∈ before, isGap c) (hafter : ∀ c ∈ after, isGap c)
    (hbound : w.length < s.bound) (hbound' : 2 ≤ s.bound) (rest : Text) (stop o : Nat) :
    ∃ stop' o', rules (n + 11) .block ctx (s.face Lexer.next stop
        ⟨o, bodyText before after w ++ rest⟩)
      = some (.plain, State.face
          { s with trees := tree (o + Text.size (bodyFront before)) :: s.trees }
          Lexer.next stop' ⟨o', rest⟩) := by
  let back := "\n  return".toList
    ++ (' ' :: '(' :: (before ++ (w ++ (after ++ ')' :: ';' :: ('\n' :: '\x7d' :: rest)))))
  have htext : bodyText before after w ++ rest = [' ', '\x7b'] ++ back := by
    -- The literals are split up outside of the text, where they are compared with nothing else.
    have hsplit (u v x : Text) (hu : u = [' ', '\x7b'] ++ x ++ [' ', '('])
        (hv : v = [')', ';', '\n', '\x7d']) :
        u ++ (before ++ (w ++ (after ++ v))) ++ rest = [' ', '\x7b'] ++ (x ++ (' ' :: '('
          :: (before ++ (w ++ (after ++ ')' :: ';' :: ('\n' :: '\x7d' :: rest)))))) := by
      simp [hu, hv]
    exact hsplit _ _ _ rfl rfl
  have hopen : Heads (.sign "\x7b") [' ', '\x7b'] back :=
    heads_space_loneSign (by simp [loneSigns]) _
  have hclose : Heads (.sign "\x7d") ['\n', '\x7d'] rest :=
    (lexes_loneSign (by simp [loneSigns]) _).heads_gaps (List.forall_mem_singleton.mpr (by decide))
  have hreturn : Heads (.word "return" false) "\n  return".toList
      (' ' :: '(' :: (before ++ (w ++ (after ++ ')' :: ';' :: ('\n' :: '\x7d' :: rest))))) :=
    heads_return _
  obtain ⟨stop', o', hstatement⟩ := statement_return (s := s) hfunction hw hread hbefore
    hafter hbound ('\n' :: '\x7d' :: rest) (o + 2) (o + 2)
  have hoffset : o + 2 + Text.size "\n  return".toList + 2 + Text.size before
      = o + Text.size (bodyFront before) := by
    have hone : ' '.utf8Size = 1 ∧ '('.utf8Size = 1 ∧ '\x7b'.utf8Size = 1 := ⟨rfl, rfl, rfl⟩
    simp only [bodyFront, Text.size_append, Text.size_cons, hone]
    generalize Text.size "\n  return".toList = k
    omega
  rw [hoffset] at hstatement
  refine ⟨o' + 2, o' + 2, ?_⟩
  change block (rules (n + 10)) ctx _ = _
  rw [htext, block]
  refine (bind_sign_heads hopen _ stop o).trans ?_
  have hfirst : endsBlock (s.face Lexer.next (o + 2) ⟨o + 2, back⟩).token = false := by
    have hkind : (s.face Lexer.next (o + 2) ⟨o + 2, back⟩).token.kind = .word "return" false :=
      hreturn.kind_eq _
    simp [endsBlock, isSign_eq, hkind]
  have hlast (s : State) : endsBlock (s.face Lexer.next stop'
      ⟨o', '\n' :: '\x7d' :: rest⟩).token = true := by
    have hkind : (s.face Lexer.next stop' ⟨o', '\n' :: '\x7d' :: rest⟩).token.kind
      = .sign "\x7d" := hclose.kind_eq _
    simp [endsBlock, isSign_eq, hkind]
  refine (bind_of_eq (statementsUntil_one hfirst hstatement (hlast _) hbound')).trans ?_
  exact bind_sign_heads hclose _ stop' o'

/-- A name is bound where neither `await` nor `yield` is an operator. -/
lemma bindingName_heads {name : String} (h : Heads (.word name false) w rest)
    (hname : name ∉ Token.reservedWords) (hasync : ctx.async = false)
    (hgenerator : ctx.generator = false) (stop o : Nat) :
    bindingName ctx (s.face Lexer.next stop ⟨o, w ++ rest⟩)
      = some ((), s.face Lexer.next (o + Text.size w) ⟨o + Text.size w, rest⟩) := by
  have hkind := face_kind h s stop o
  rw [bindingName, bind_token, bind_context, bind_need (by simp [Token.isName, hkind, hname]),
    bind_complainIf (by simp [hasync, hgenerator]), apply_eq_bind advance,
    bind_advance_heads h]
  rfl

/-- A list without parameters. -/
lemma parameters_none (stop o : Nat) :
    rules (n + 1) .parameters ctx (s.face Lexer.next stop ⟨o, '(' :: ')' :: rest⟩)
      = some (.plain, s.face Lexer.next (o + 1 + 1) ⟨o + 1 + 1, rest⟩) := by
  have hopen : ('(', "(") ∈ loneSigns := by simp [loneSigns]
  have hclose : (')', ")") ∈ loneSigns := by simp [loneSigns]
  have hnone : within (fun ctx => { ctx with allowIn := true, decorator := false })
      (separated ")" "," (parameter (rules n))) ctx
      (s.face Lexer.next (o + 1) ⟨o + 1, ')' :: rest⟩)
      = some ((), s.face Lexer.next (o + 1) ⟨o + 1, ')' :: rest⟩) := by
    change foldSeparated ")" "," (fun _ => parameter (rules n)) () _ _ = _
    rw [foldSeparated, bind_onSign_lone hclose]
    rfl
  change parameters (rules n) ctx _ = _
  rw [parameters, bind_sign_lone hopen, bind_of_eq hnone, bind_sign_lone hclose]
  rfl

/-- What stands behind the name of a function that gives back one node. -/
lemma functionRest_eq (hw : BeginsMarkup w) (hread : ReadsAs n w tree)
    (hbefore : ∀ c ∈ before, isGap c) (hafter : ∀ c ∈ after, isGap c) (hbound : w.length < s.bound)
    (hbound' : 2 ≤ s.bound) (rest : Text) (stop o : Nat) :
    ∃ stop' o', functionRest (rules (n + 11)) false false ctx
        (s.face Lexer.next stop ⟨o, '(' :: ')' :: (bodyText before after w ++ rest)⟩)
      = some ((), State.face
          { s with trees := tree (o + 1 + 1 + Text.size (bodyFront before)) :: s.trees }
          Lexer.next stop' ⟨o', rest⟩) := by
  let inner := inFunction false false ctx
  have hfunction : inner.function = true := rfl
  obtain ⟨stop', o', hblock⟩ := block_bodyText (s := s) hfunction hw hread
    hbefore hafter hbound hbound' rest (o + 1 + 1) (o + 1 + 1)
  refine ⟨stop', o', ?_⟩
  have hbrace : Heads (.sign "\x7b") [' ', '\x7b']
      ("\n  return (".toList ++ (before ++ (w ++ (after ++ ");\n\x7d".toList))) ++ rest) :=
    heads_space_loneSign (by simp [loneSigns]) _
  have hopen : ('(', "(") ∈ loneSigns := by simp [loneSigns]
  let s₁ := s.face Lexer.next stop ⟨o, '(' :: ')' :: (bodyText before after w ++ rest)⟩
  let s₂ := s.face Lexer.next (o + 1 + 1) ⟨o + 1 + 1, bodyText before after w ++ rest⟩
  have hkind : s₁.token.kind = .sign "(" := face_kind (heads_loneSign hopen _) s stop o
  have hkind₂ : s₂.token.kind = .sign "\x7b" := hbrace.kind_eq _
  have htypes : typeParameters? (rules (n + 11)) inner s₁ = some ((), s₁) := by
    rw [typeParameters?, onAngle, bind_bind, bind_onSign, bind_bind, bind_onSign, bind_value,
      isSign_eq, isSign_eq, hkind, if_neg (by simp)]
    rfl
  have hannotation : returnAnnotation? (rules (n + 11)) inner s₂ = some ((), s₂) := by
    rw [returnAnnotation?, bind_trySign_false (by simp [isSign_eq, hkind₂])]
    rfl
  have hbody : bodyOrEnd (rules (n + 11)) inner s₂
      = some ((), State.face
          { s with trees := tree (o + 1 + 1 + Text.size (bodyFront before)) :: s.trees }
          Lexer.next stop' ⟨o', rest⟩) := by
    have hon : s₂.token.isSign "\x7b" = true := by simp [isSign_eq, hkind₂]
    rw [bodyOrEnd, bind_onSign, if_pos hon, functionBody]
    exact (bind_of_eq hblock).trans rfl
  change (do
    typeParameters? (rules (n + 11))
    let _ ← (rules (n + 11)) .parameters
    returnAnnotation? (rules (n + 11))
    bodyOrEnd (rules (n + 11)) : Reader Unit) inner s₁ = _
  rw [bind_of_eq htypes]
  refine (bind_of_eq (parameters_none stop o)).trans ?_
  exact (bind_of_eq hannotation).trans hbody

/-- A function without parameters that gives back one node. -/
lemma functionTail_eq {name : Text} (hname : isWord name)
    (hfree : String.ofList name ∉ Token.reservedWords) (hw : BeginsMarkup w)
    (hread : ReadsAs n w tree) (hbefore : ∀ c ∈ before, isGap c) (hafter : ∀ c ∈ after, isGap c)
    (hbound : w.length < s.bound) (hbound' : 2 ≤ s.bound) (rest : Text) (stop o : Nat) :
    ∃ stop' o', rules (n + 12) (.functionTail false false) ctx
        (s.face Lexer.next stop ⟨o, " function".toList
          ++ (' ' :: name ++ ('(' :: ')' :: (bodyText before after w ++ rest)))⟩)
      = some (.plain, State.face { s with trees := tree (o + Text.size " function".toList
            + Text.size (' ' :: name) + 1 + 1 + Text.size (bodyFront before)) :: s.trees }
          Lexer.next stop' ⟨o', rest⟩) := by
  let back := '(' :: ')' :: (bodyText before after w ++ rest)
  have hfunction : Heads (.word "function" false) " function".toList (' ' :: name ++ back) :=
    (lexes_word (w := "function".toList) (by decide) (by rfl)).heads_gaps
      (List.forall_mem_singleton.mpr (by decide))
  have hnamed : Heads (.word (String.ofList name) false) (' ' :: name) back :=
    (lexes_word hname (by rfl)).heads_gaps
      (List.forall_mem_singleton.mpr (by decide))
  let o₁ := o + Text.size " function".toList
  let o₂ := o₁ + Text.size (' ' :: name)
  let s₁ := s.face Lexer.next o₁ ⟨o₁, ' ' :: name ++ back⟩
  obtain ⟨stop', o', hrest⟩ := functionRest_eq (s := s) hw hread
    hbefore hafter hbound hbound' rest o₂ o₂
  refine ⟨stop', o', ?_⟩
  have hkind : s₁.token.kind = .word (String.ofList name) false := hnamed.kind_eq _
  have hstar : s₁.token.isSign "*" = false := by simp [isSign_eq, hkind]
  have hisName : s₁.token.isName = true := by simp [Token.isName, hkind, hfree]
  change functionFrom (rules (n + 11)) false false ctx _ = _
  rw [functionFrom]
  refine (bind_word_heads hfunction _ stop o).trans ?_
  refine (bind_trySign_false hstar _).trans ?_
  rw [bind_token, if_pos hisName]
  have hbinding : within (fun ctx => if false = true then ctx else inFunction false false ctx)
      bindingName ctx s₁ = some ((), s.face Lexer.next o₂ ⟨o₂, back⟩) :=
    bindingName_heads hnamed hfree rfl rfl o₁ o₁
  exact (bind_of_eq hbinding).trans ((bind_of_eq hrest).trans rfl)

lemma decorators_none {rules : Rules} (h : s.token.isSign "@" = false) (hbound : 0 < s.bound) :
    decorators rules ctx s = some ((), s) := by
  obtain ⟨m, hm⟩ : ∃ m, s.bound = m + 1 := ⟨s.bound - 1, by omega⟩
  rw [decorators, whileTrue, hm, times, bind_bind, bind_onSign, h, if_neg (by simp), bind_value,
    if_neg (by simp)]
  rfl

lemma exportDeclaration_of_default {rules : Rules} (hexport : s.token.kind = .word "export" false)
    (hdefault : (Lexer.next s.after).1.kind = .word "default" false) :
    exportDeclaration rules ctx s
      = exportDefault rules s.token.span.start ctx
        (s.face Lexer.next s.token.span.stop s.after) := by
  obtain ⟨s₁, hs₁⟩ : ∃ s₁, s.face Lexer.next s.token.span.stop s.after = s₁ := ⟨_, rfl⟩
  have hkind : s₁.token.kind = .word "default" false := by
    rw [← hs₁]
    exact hdefault
  rw [exportDeclaration, bind_start, bind_word (by simp [isWord_eq, hexport]), hs₁, bind_token,
    bind_following]
  simp [isWord_eq, isSign_eq, hkind]

/-- A function that is exported by default; where the export stands is remembered. -/
lemma exportDefault_of_function {rules : Rules} (hdefault : s.token.kind = .word "default" false)
    (hfunction : (Lexer.next s.after).1.kind = .word "function" false)
    (h : rules (.functionTail false false) ctx (s.face Lexer.next s.token.span.stop s.after)
      = some (shape, s')) (hbound : 0 < s.bound) (start : Nat) :
    exportDefault rules start ctx s = some ((), { s' with
      defaultExport := s.defaultExport.or (some ⟨start, s'.lastStop⟩) }) := by
  obtain ⟨s₁, hs₁⟩ : ∃ s₁, s.face Lexer.next s.token.span.stop s.after = s₁ := ⟨_, rfl⟩
  have hkind : s₁.token.kind = .word "function" false := by
    rw [← hs₁]
    exact hfunction
  have hdecorators : decorators rules ctx s₁ = some ((), s₁) :=
    decorators_none (by simp [isSign_eq, hkind]) (by rwa [← hs₁])
  rw [hs₁] at h
  rw [exportDefault, bind_state, bind_word (by simp [isWord_eq, hdefault]), hs₁,
    bind_of_eq hdecorators, bind_token, bind_following]
  simp only [isWord_eq, hkind, Kind.word.injEq, String.reduceEq, false_and, decide_false,
    Bool.false_and, Bool.or_self, Bool.false_eq_true, if_false, decide_true, if_true]
  rw [bind_of_eq h, bind_change, bind_lastStop]
  rfl

/-- The export of a function that gives back one node. -/
lemma statement_export (ctx : Context) (s : State) {name : Text} (hname : isWord name)
    (hfree : String.ofList name ∉ Token.reservedWords) (hw : BeginsMarkup w)
    (hread : ReadsAs n w tree) (hbefore : ∀ c ∈ before, isGap c) (hafter : ∀ c ∈ after, isGap c)
    (hbound : w.length < s.bound) (hbound' : 2 ≤ s.bound) (rest : Text) (stop o : Nat) :
    ∃ d stop' o', rules (n + 13) (.statement false) ctx
        (s.face Lexer.next stop ⟨o, "export".toList
          ++ (" default".toList ++ (" function".toList
            ++ (' ' :: name ++ ('(' :: ')' :: (bodyText before after w ++ rest)))))⟩)
      = some (.plain, State.face { s with
            trees := tree (o + Text.size "export".toList + Text.size " default".toList
              + Text.size " function".toList + Text.size (' ' :: name) + 1 + 1
              + Text.size (bodyFront before)) :: s.trees
            defaultExport := d }
          Lexer.next stop' ⟨o', rest⟩) := by
  let tail := ' ' :: name ++ ('(' :: ')' :: (bodyText before after w ++ rest))
  have hexport : Heads (.word "export" false) "export".toList
      (" default".toList ++ (" function".toList ++ tail)) :=
    (lexes_word (w := "export".toList) (by decide) (by rfl)).heads
  have hdefault : Heads (.word "default" false) " default".toList (" function".toList ++ tail) :=
    (lexes_word (w := "default".toList) (by decide) (by rfl)).heads_gaps
      (List.forall_mem_singleton.mpr (by decide))
  have hfunction : Heads (.word "function" false) " function".toList tail :=
    (lexes_word (w := "function".toList) (by decide) (by rfl)).heads_gaps
      (List.forall_mem_singleton.mpr (by decide))
  let o₁ := o + Text.size "export".toList
  let o₂ := o₁ + Text.size " default".toList
  obtain ⟨stop', o', htail⟩ := functionTail_eq (s := s) hname hfree hw
    hread hbefore hafter hbound hbound' rest o₂ o₂
  obtain ⟨at₀, hat⟩ : ∃ at₀, o₂ + Text.size " function".toList + Text.size (' ' :: name) + 1 + 1
      + Text.size (bodyFront before) = at₀ := ⟨_, rfl⟩
  rw [hat] at htail
  let s₁ := s.face Lexer.next o₁ ⟨o₁, " default".toList ++ (" function".toList ++ tail)⟩
  let s₂ := s.face Lexer.next o₂ ⟨o₂, " function".toList ++ tail⟩
  have hkind₁ : s₁.token.kind = .word "default" false := hdefault.kind_eq _
  have hkind₂ : s₂.token.kind = .word "function" false := hfunction.kind_eq _
  have hstop : s₁.token.span.stop = o₂ := hdefault.stop_eq _
  have hafter₁ : s₁.after = ⟨o₂, " function".toList ++ tail⟩ := hdefault.after_eq _
  have hnext : (Lexer.next s₁.after).1.kind = .word "function" false := by
    rw [hafter₁]
    exact hkind₂
  let s₀ := s.face Lexer.next stop
    ⟨o, "export".toList ++ (" default".toList ++ (" function".toList ++ tail))⟩
  have hkind₀ : s₀.token.kind = .word "export" false := hexport.kind_eq _
  have hstop₀ : s₀.token.span.stop = o₁ := hexport.stop_eq _
  have hafter₀ : s₀.after = ⟨o₁, " default".toList ++ (" function".toList ++ tail)⟩ :=
    hexport.after_eq _
  have hnext₀ : (Lexer.next s₀.after).1.kind = .word "default" false := by
    rw [hafter₀]
    exact hkind₁
  let span : Option Span := s.defaultExport.or (some ⟨s₀.token.span.start, stop'⟩)
  refine ⟨span, stop', o', ?_⟩
  rw [hat]
  have hdeclaration : exportDeclaration (rules (n + 12)) ctx s₀ = some ((), State.face
      { s with trees := tree at₀ :: s.trees, defaultExport := span } Lexer.next stop' ⟨o', rest⟩) := by
    have hdone : rules (n + 12) (.functionTail false false) ctx
        (s₁.face Lexer.next s₁.token.span.stop s₁.after) = some (.plain, State.face
          { s with trees := tree at₀ :: s.trees } Lexer.next stop' ⟨o', rest⟩) := by
      rw [hstop, hafter₁]
      exact htail
    have hs₁ : s₀.face Lexer.next s₀.token.span.stop s₀.after = s₁ := by
      rw [hstop₀, hafter₀]
      rfl
    rw [exportDeclaration_of_default hkind₀ hnext₀, hs₁]
    exact exportDefault_of_function hkind₁ hnext hdone (Nat.lt_of_lt_of_le Nat.two_pos hbound') _
  refine (statement_of_export hkind₀).trans ?_
  exact (bind_of_eq hdeclaration).trans rfl

end Grammar

/-! ### Pages -/

open Grammar

/-- A module whose function, exported by default, gives back a text in parentheses. -/
def pageText (name before after w : Text) : Text :=
  "export default function ".toList ++ name ++ "()".toList ++ bodyText before after w ++ ['\n']

/-- What stands before the node in such a module. -/
def pageFront (name before : Text) : Text :=
  "export".toList ++ (" default".toList ++ (" function".toList
    ++ (' ' :: name ++ ('(' :: ')' :: bodyFront before))))

/-- What stands behind the node in such a module. -/
def pageBack (after : Text) : Text := after ++ ");\n\x7d\n".toList

lemma pageText_eq (name before after w : Text) :
    pageText name before after w = pageFront name before ++ (w ++ pageBack after) := by
  have hsplit (t u v x y a b c d : Text) (hy : y = x ++ ['\n']) (hu : u = ['(', ')'])
      (ht : t = a ++ (b ++ (c ++ [' ']))) (hv : v = ' ' :: '\x7b' :: (d ++ [' ', '('])) :
      t ++ name ++ u ++ (v ++ (before ++ (w ++ (after ++ x)))) ++ ['\n']
        = a ++ (b ++ (c ++ (' ' :: name ++ ('(' :: ')' :: ' ' :: '\x7b'
          :: (d ++ (' ' :: '(' :: before)))))) ++ (w ++ (after ++ y)) := by
    simp [hy, hu, ht, hv]
  refine hsplit _ _ _ _ _ _ _ _ _ ?_ ?_ ?_ ?_ <;> decide +kernel

/-- **A module that gives back one node is that node**, where it stands. Blanks may stand around the
node. -/
theorem parse?_pageText {name before after : Text} (hname : isWord name)
    (hfree : String.ofList name ∉ Token.reservedWords) (hw : BeginsMarkup w)
    (hbefore : ∀ c ∈ before, isGap c) (hafter : ∀ c ∈ after, isGap c)
    (hread : ∀ n, 5 * w.length ≤ n → ReadsAs n w tree) :
    ∃ span, parse? (pageText name before after w)
      = some ⟨[tree (Text.size (pageFront name before))], span⟩ := by
  let page := pageText name before after w
  have htext : page = "export".toList ++ (" default".toList ++ (" function".toList
      ++ (' ' :: name ++ ('(' :: ')' :: (bodyText before after w ++ ['\n']))))) := by
    have hsplit (u a b c v : Text) (hu : u = a ++ (b ++ (c ++ [' ']))) (hv : v = ['(', ')']) :
        u ++ name ++ v ++ bodyText before after w ++ ['\n']
          = a ++ (b ++ (c ++ (' ' :: name ++ ('(' :: ')' :: (bodyText before after w ++ ['\n']))))) := by
      simp [hu, hv]
    exact hsplit _ _ _ _ _ rfl rfl
  have hoffset : 0 + Text.size "export".toList + Text.size " default".toList
      + Text.size " function".toList + Text.size (' ' :: name) + 1 + 1
      + Text.size (bodyFront before) = Text.size (pageFront name before) := by
    have hone : '('.utf8Size = 1 ∧ ')'.utf8Size = 1 := ⟨rfl, rfl⟩
    simp only [pageFront, List.cons_append, Text.size_append, Text.size_cons, hone]
    generalize Text.size "export".toList = a, Text.size " default".toList = b,
      Text.size " function".toList = c
    omega
  have hlength : w.length ≤ page.length := by
    have hlong (u v x y : Text) :
        w.length ≤ (u ++ name ++ v ++ (x ++ (before ++ (w ++ (after ++ y)))) ++ ['\n']).length := by
      simp only [List.length_append]
      omega
    exact hlong _ _ _ _
  let s : State := ⟨default, default, default, 0, [], none, [], false, page.length + 2⟩
  have hinterpreter : afterInterpreter page = ⟨0, page⟩ := by
    rw [htext]
    rfl
  have hstart : start page = s.face Lexer.next 0 ⟨0, page⟩ := by
    rw [start, hinterpreter]
    rfl
  let n := depthBound page.length - 13
  obtain ⟨span, stop, o, hstatement⟩ := statement_export Context.module s (n := n)
    hname hfree hw (hread n (by simp only [n, depthBound]; omega)) hbefore hafter
    (Nat.lt_add_right 1 (Nat.lt_succ_of_le hlength)) (Nat.le_add_left _ _) ['\n'] 0 0
  refine ⟨span, ?_⟩
  rw [← htext, hoffset] at hstatement
  have hdepth : depthBound page.length = n + 13 := by simp only [n, depthBound]; omega
  have hmodule : module (rules (depthBound page.length)) Context.module (start page)
      = some ((), State.face
        { s with trees := [tree (Text.size (pageFront name before))], defaultExport := span }
        Lexer.next stop ⟨o, ['\n']⟩) := by
    rw [hstart, hdepth, module]
    refine statementsUntil_one ?_ hstatement rfl (Nat.le_add_left _ _)
    rw [htext]
    rfl
  change parse? page = _
  rw [parse?]
  simp only [hmodule]
  rfl

end CanvasSync.Script
