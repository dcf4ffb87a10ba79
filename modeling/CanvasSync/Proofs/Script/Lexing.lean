import CanvasSync.Script.Lexer
import CanvasSync.Proofs.Json.RoundTrip

/-!
The tokens that written texts begin with.

* `Lexes`: a text in front of another one is a token;
* `next_of_lexes`: that token is found with blanks before it;
* `lexes_word`, `lexes_quote`, `lexes_digitsOf`: words, quoted strings and whole numbers; signs are
  found by evaluation;
* `nextValue_quote`, `nextMarkup_text`: attribute values in quotes, and text between tags.
-/

namespace CanvasSync.Script

open CanvasSync.Json (escape quote)
open CanvasSync.Number (digitsOf)

variable {o : Nat} {t w rest : Text} {kind : Kind}

/-! ### Blanks -/

/-- Whether a character parts tokens. -/
def isGap (c : Char) : Bool := Character.isSpace c || Character.isLineEnd c

/-- Whether a text begins with a token, and not with a blank or a comment. -/
def beginsToken : Text → Bool
  | [] => true
  | '/' :: '/' :: _ => false
  | '/' :: '*' :: _ => false
  | c :: _ => !isGap c

lemma beginsToken_cons {c : Char} (hslash : c ≠ '/') (hgap : isGap c = false) :
    beginsToken (c :: t) := by
  unfold beginsToken
  split <;> simp_all

namespace Lexer

/-- Nothing is passed over before a token. -/
lemma skipTrivia_of_beginsToken (h : beginsToken t) (ended : Bool) (o : Nat) :
    skipTrivia .between ended o t = some (ended, ⟨o, t⟩) := by
  unfold beginsToken at h
  split at h
  · rfl
  · simp at h
  · simp at h
  · next c t hslash hstar =>
      simp only [isGap, Bool.not_or, Bool.and_eq_true, Bool.not_eq_true'] at h
      rw [skipTrivia]
      · simp [h.1, h.2]
      all_goals simp_all

/-- Blanks are passed over; a line ends before the token if it ends among them. -/
lemma skipTrivia_gaps {gaps : Text} (h : ∀ c ∈ gaps, isGap c) (ended : Bool) (o : Nat) (t : Text) :
    skipTrivia .between ended o (gaps ++ t)
      = skipTrivia .between (ended || gaps.any Character.isLineEnd) (o + Text.size gaps) t := by
  induction gaps generalizing ended o with
  | nil => simp
  | cons c gaps ih =>
      rw [List.forall_mem_cons] at h
      have hslash : c ≠ '/' := by
        rintro rfl
        exact absurd h.1 (by decide)
      rw [List.cons_append, skipTrivia]
      · cases hend : Character.isLineEnd c with
        | true => simp [ih h.2, hend, Nat.add_assoc]
        | false =>
            have hspace : Character.isSpace c = true := by simpa [isGap, hend] using h.1
            simp [ih h.2, hend, hspace, Nat.add_assoc]
      all_goals simp [hslash]

end Lexer

/-! ### Tokens -/

/-- A text is a token in front of another one. -/
structure Lexes (kind : Kind) (w rest : Text) : Prop where
  begins : beginsToken (w ++ rest)
  bare : ∀ o, Lexer.bare ⟨o, w ++ rest⟩ = some (kind, ⟨o + Text.size w, rest⟩)

namespace Lexer

/-- The next token is found with blanks before it. -/
lemma nextBy_of_gaps {read : Cursor → Option (Kind × Cursor)} {gaps : Text}
    (hgaps : ∀ c ∈ gaps, isGap c) (hbegins : beginsToken (w ++ rest)) {o : Nat}
    (hread : read ⟨o + Text.size gaps, w ++ rest⟩
      = some (kind, ⟨o + Text.size gaps + Text.size w, rest⟩)) :
    nextBy read ⟨o, gaps ++ (w ++ rest)⟩
      = (⟨kind, ⟨o + Text.size gaps, o + Text.size gaps + Text.size w⟩,
          gaps.any Character.isLineEnd⟩,
        ⟨o + Text.size gaps, w ++ rest⟩, ⟨o + Text.size gaps + Text.size w, rest⟩) := by
  rw [nextBy, skipTrivia_gaps hgaps, skipTrivia_of_beginsToken hbegins]
  simp [hread, tokenAt]

lemma next_of_gaps {gaps : Text} (hgaps : ∀ c ∈ gaps, isGap c) (h : Lexes kind w rest) (o : Nat) :
    next ⟨o, gaps ++ (w ++ rest)⟩
      = (⟨kind, ⟨o + Text.size gaps, o + Text.size gaps + Text.size w⟩,
          gaps.any Character.isLineEnd⟩,
        ⟨o + Text.size gaps, w ++ rest⟩, ⟨o + Text.size gaps + Text.size w, rest⟩) :=
  nextBy_of_gaps hgaps h.begins (h.bare _)

lemma next_of_lexes (h : Lexes kind w rest) (o : Nat) :
    next ⟨o, w ++ rest⟩
      = (⟨kind, ⟨o, o + Text.size w⟩, false⟩, ⟨o, w ++ rest⟩, ⟨o + Text.size w, rest⟩) :=
  next_of_gaps (List.forall_mem_nil _) h o

end Lexer

/-! ### Words -/

/-- Whether what follows a word does not go on with it. -/
def endsWord (rest : Text) : Bool :=
  rest.head?.all fun c => !Character.isNamePart c && c ≠ '\\'

lemma endsWord_cons (c : Char) (t : Text) :
    endsWord (c :: t) = (!Character.isNamePart c && c ≠ '\\') := rfl

/-- Whether a text is a name of a script, reserved or not. -/
def isWord : Text → Bool
  | [] => false
  | c :: t => Character.isNameStart c && t.all Character.isNamePart

lemma isNamePart_of_isNameStart {c : Char} (h : Character.isNameStart c) :
    Character.isNamePart c := by
  simp [Character.isNamePart, h]

/-- A character that begins a name is no digit. -/
lemma not_isDigit_of_isNameStart {c : Char} (h : Character.isNameStart c) : c.isDigit = false := by
  by_contra hd
  rw [Bool.not_eq_false, Char.isDigit_iff_toNat] at hd
  unfold Character.isNameStart Char.isAlpha Char.isUpper Char.isLower at h
  simp only [Bool.or_eq_true, Bool.and_eq_true, decide_eq_true_eq, UInt32.le_iff_toNat_le] at h
  obtain ⟨hlow, hhigh⟩ := hd
  change 48 ≤ c.toNat at hlow
  change c.toNat ≤ 57 at hhigh
  rcases h with ((h | rfl) | rfl) | h
  · rcases h with ⟨h, -⟩ | ⟨h, -⟩ <;> · change _ ≤ c.toNat at h; simp at h; omega
  · simp at hlow
  · simp at hhigh
  · omega

/-- The numbers of the characters that part tokens. -/
def gapNumbers : List Nat :=
  [9, 0xA, 0xB, 0xC, 0xD, 0x20, 0x85, 0xA0, 0x1680, 0x2000, 0x2001, 0x2002, 0x2003, 0x2004, 0x2005,
   0x2006, 0x2007, 0x2008, 0x2009, 0x200A, 0x200B, 0x2028, 0x2029, 0x202F, 0x205F, 0x3000, 0xFEFF]

lemma toNat_mem_gapNumbers {c : Char} (h : isGap c) : c.toNat ∈ gapNumbers := by
  simp only [isGap, Character.isSpace, Character.isLineEnd, Bool.or_eq_true, Bool.and_eq_true,
    decide_eq_true_eq] at h
  simp only [gapNumbers, List.mem_cons, List.not_mem_nil, or_false]
  rcases h with h | ((rfl | rfl) | rfl) | rfl
  · omega
  all_goals decide

/-- No name has a blank in it. -/
lemma isGap_of_isNamePart {c : Char} (h : Character.isNamePart c) : isGap c = false := by
  have hall : ∀ n ∈ gapNumbers, Character.isNamePart (Char.ofNat n) = false := by decide +kernel
  by_contra hgap
  have hpart := hall _ (toNat_mem_gapNumbers (by simpa using hgap))
  rw [Char.ofNat_toNat, h] at hpart
  exact absurd hpart (by decide)

lemma dropFrom_append {p : Char → Bool} (hw : ∀ c ∈ w, p c) (hrest : rest.head?.all fun c => !p c)
    (o : Nat) : Cursor.dropFrom p o (w ++ rest) = ⟨o + Text.size w, rest⟩ := by
  induction w generalizing o with
  | nil =>
      cases rest with
      | nil => rfl
      | cons c t => simp_all [Cursor.dropFrom]
  | cons c w ih =>
      rw [List.forall_mem_cons] at hw
      rw [List.cons_append, Cursor.dropFrom, if_pos hw.1, ih hw.2, Text.size_cons, Nat.add_assoc]

lemma takeWhile_append {p : Char → Bool} (hw : ∀ c ∈ w, p c)
    (hrest : rest.head?.all fun c => !p c) : (w ++ rest).takeWhile p = w := by
  rw [List.takeWhile_append_of_pos hw]
  cases rest with
  | nil => simp
  | cons c t => simp_all

/-- A word is a token up to where it does not go on. -/
lemma lexes_word (hw : isWord w) (hrest : endsWord rest) :
    Lexes (.word (String.ofList w) false) w rest := by
  cases w with
  | nil => simp [isWord] at hw
  | cons c w =>
      simp only [isWord, Bool.and_eq_true, List.all_eq_true] at hw
      have hpart := And.intro (isNamePart_of_isNameStart hw.1) hw.2
      have hstop : rest.head?.all fun x => !Character.isNamePart x := by
        cases rest <;> simp_all [endsWord]
      have hslash : rest.head? ≠ some '\\' := by
        cases rest <;> simp_all [endsWord]
      have hplain (x : Char) (hx : Character.isNameStart x = false) : c ≠ x := by
        rintro rfl
        simp [hw.1] at hx
      refine ⟨beginsToken_cons (hplain '/' (by decide)) (isGap_of_isNamePart hpart.1), fun o => ?_⟩
      have hword : Lexer.word? ⟨o, c :: (w ++ rest)⟩
          = some (c :: w, false, ⟨o + Text.size (c :: w), rest⟩) := by
        have hdrop := dropFrom_append (List.forall_mem_cons.mpr hpart) hstop o
        have htake := takeWhile_append (List.forall_mem_cons.mpr hpart) hstop
        rw [List.cons_append] at hdrop htake
        simp only [Lexer.word?, Cursor.dropWhile, hdrop, Cursor.head?, hslash, if_false, htake,
          hw.1, if_true]
      have hstring : ¬(c = '"' ∨ c = '\'') :=
        not_or.mpr ⟨hplain _ (by decide), hplain _ (by decide)⟩
      have hnumber : ¬(c.isDigit ∨ (c = '.' ∧ (w ++ rest).head?.any Char.isDigit)) := by
        simp [not_isDigit_of_isNameStart hw.1, hplain '.' (by decide)]
      rw [List.cons_append, Lexer.bare]
      simp only [hstring, hplain '\x60' (by decide), hnumber, hplain '#' (by decide), hw.1, hword,
        if_false, if_true, true_or, Option.map_some]

/-! ### Strings -/

/-- A digit of a number is none of the characters that mean something in a string. -/
lemma hexDigit_ne : ∀ n < 16, Json.hexDigit n ≠ '"' ∧ Json.hexDigit n ≠ '\\'
    ∧ Json.hexDigit n ≠ '\n' ∧ Json.hexDigit n ≠ '\r' := by
  decide

/-- The characters that stand for one character of a string are taken together. -/
lemma quotedRaw_escape (o : Nat) (c : Char) (t : Text) :
    Lexer.quotedRaw '"' o (escape c ++ t)
      = (Lexer.quotedRaw '"' (o + Text.size (escape c)) t).map fun (s, c') =>
        (escape c ++ s, c') := by
  have hplain (x : Char) (t : Text) (o : Nat)
      (h : x ≠ '"' ∧ x ≠ '\\' ∧ x ≠ '\n' ∧ x ≠ '\r') :
      Lexer.quotedRaw '"' o (x :: t)
        = (Lexer.quotedRaw '"' (o + x.utf8Size) t).map fun (s, c') => (x :: s, c') := by
    obtain ⟨hquote, hback, hfeed, hreturn⟩ := h
    rw [Lexer.quotedRaw]
    · simp [hquote, hfeed, hreturn]
    all_goals simp [hback]
  have hescaped (x : Char) (t : Text) (o : Nat) (h : x ≠ '\r') :
      Lexer.quotedRaw '"' o ('\\' :: x :: t)
        = (Lexer.quotedRaw '"' (o + 1 + x.utf8Size) t).map fun (s, c') =>
          ('\\' :: x :: s, c') := by
    rw [Lexer.quotedRaw]
    simp [h]
  have hback : '\\'.utf8Size = 1 := rfl
  by_cases hspecial : c = '"' ∨ c = '\\' ∨ c = '\x08' ∨ c = '\x0c' ∨ c = '\n' ∨ c = '\r' ∨ c = '\t'
  · rcases hspecial with rfl | rfl | rfl | rfl | rfl | rfl | rfl <;>
      simp [escape, hescaped, hback, Nat.add_assoc]
  · simp only [not_or] at hspecial
    obtain ⟨h1, h2, h3, h4, h5, h6, h7⟩ := hspecial
    by_cases hc : c.toNat < 0x20
    · have hhigh := hexDigit_ne (c.toNat / 16) (by omega)
      have hlow := hexDigit_ne (c.toNat % 16) (by omega)
      rw [Json.hexDigit_mod] at hlow
      simp [escape, h1, h2, h3, h4, h5, h6, h7, hc, hescaped, hplain '0', hplain _ _ _ hhigh,
        hplain _ _ _ hlow, hback, Nat.add_assoc, Function.comp_def]
    · simp [escape, h1, h2, h3, h4, h5, h6, h7, hc, hplain c t o ⟨h1, h2, h5, h6⟩]

/-- The characters of a quoted string are taken up to its closing quote. -/
lemma quotedRaw_quoted (o : Nat) (s rest : Text) :
    Lexer.quotedRaw '"' o (s.flatMap escape ++ '"' :: rest)
      = some (s.flatMap escape, ⟨o + Text.size (s.flatMap escape) + 1, rest⟩) := by
  induction s generalizing o with
  | nil => simp [Lexer.quotedRaw]
  | cons c s ih =>
      rw [List.flatMap_cons, List.append_assoc, quotedRaw_escape, ih, Text.size_append,
        Nat.add_assoc o]
      rfl

/-- The escape of a character below U+0020. -/
lemma one?_control {c : Char} (h : c.toNat < 0x20) (t : Text) :
    Escape.one? false
      ('u' :: '0' :: '0' :: Json.hexDigit (c.toNat / 16) :: Json.hexDigit c.toNat :: t)
      = some ([c], t) := by
  have hdigit : ∀ n < 16, Character.isHexDigit (Json.hexDigit n) = true
      ∧ Character.hexValue (Json.hexDigit n) = n := by decide
  have hhigh := hdigit (c.toNat / 16) (by omega)
  have hlow := hdigit (c.toNat % 16) (by omega)
  rw [Json.hexDigit_mod] at hlow
  have hzero : Character.isHexDigit '0' = true ∧ Character.hexValue '0' = 0 := by decide
  have hvalue : 16 * (c.toNat / 16) + c.toNat % 16 = c.toNat := by omega
  have hread : Escape.hex4?
      ('0' :: '0' :: Json.hexDigit (c.toNat / 16) :: Json.hexDigit c.toNat :: t)
      = some (c.toNat, t) := by
    simp [Escape.hex4?, Escape.ofHex, hzero, hhigh, hlow, hvalue]
  have hscalar : Escape.isScalar c.toNat = true := by
    simp [Escape.isScalar]
    omega
  simp only [Escape.one?, Escape.unicode?, hread, Option.bind_eq_bind, Option.bind_some]
  rw [if_neg (by omega), hscalar, if_pos rfl, Char.ofNat_toNat]
  rfl

/-- What stands for one character of a string stands for it in a script too. -/
lemma decodeWithin?_escape (fuel : Nat) (c : Char) (t : Text) :
    Escape.decodeWithin? false (fuel + 1) (escape c ++ t)
      = (Escape.decodeWithin? false fuel t).map (c :: ·) := by
  by_cases hspecial : c = '"' ∨ c = '\\' ∨ c = '\x08' ∨ c = '\x0c' ∨ c = '\n' ∨ c = '\r' ∨ c = '\t'
  · rcases hspecial with rfl | rfl | rfl | rfl | rfl | rfl | rfl <;> rfl
  · simp only [not_or] at hspecial
    obtain ⟨h1, h2, h3, h4, h5, h6, h7⟩ := hspecial
    by_cases hc : c.toNat < 0x20
    · have hone := one?_control hc t
      simp [escape, h1, h2, h3, h4, h5, h6, h7, hc, Escape.decodeWithin?, hone]
    · simp [escape, h1, h2, h3, h4, h5, h6, h7, hc, Escape.decodeWithin?]

lemma decode?_escaped (s : Text) : Escape.decode? (s.flatMap escape) = some s := by
  suffices h : ∀ fuel, s.length ≤ fuel →
      Escape.decodeWithin? false fuel (s.flatMap escape) = some s from
    h _ (Json.length_le_flatMap_escape s)
  induction s with
  | nil => intro fuel _; cases fuel <;> rfl
  | cons c s ih =>
      intro fuel hfuel
      cases fuel with
      | zero => simp at hfuel
      | succ n =>
          rw [List.flatMap_cons, decodeWithin?_escape, ih n (by simpa using hfuel)]
          rfl

/-- A quoted string is a token. -/
lemma lexes_quote (s rest : Text) : Lexes (.string s) (quote s) rest := by
  refine ⟨by simp [quote, beginsToken, isGap, Character.isSpace, Character.isLineEnd], fun o => ?_⟩
  rw [quote, List.cons_append, List.append_assoc, List.singleton_append, Lexer.bare]
  simp only [true_or, if_true, Lexer.string?, Cursor.step, quotedRaw_quoted, Option.bind_eq_bind,
    Option.bind_some, decode?_escaped, pure]
  simp [Nat.add_assoc]
  rfl

/-! ### Numbers -/

lemma utf8Size_of_isDigit {c : Char} (h : c.isDigit) : c.utf8Size = 1 := by
  rw [Char.isDigit_iff_toNat] at h
  have hle : c.val ≤ 0x7F := by
    rw [UInt32.le_iff_toNat_le]
    exact h.2.trans (by decide)
  simp [Char.utf8Size, hle]

/-- The signs that may stand behind a value. -/
def isCloser (c : Char) : Bool := c = ',' || c = ']' || c = '\x7d'

/-- Digits are taken up to the sign behind them. -/
lemma digitsFrom_append {ds : Text} {c : Char} (hds : ∀ d ∈ ds, d.isDigit) (hc : isCloser c)
    (o : Nat) (t : Text) :
    Lexer.digitsFrom Char.isDigit o (ds ++ c :: t) = some ⟨o + Text.size ds, c :: t⟩ := by
  have hcloser : c.isDigit = false ∧ c ≠ '_' := by
    simp only [isCloser, Bool.or_eq_true, decide_eq_true_eq] at hc
    rcases hc with (rfl | rfl) | rfl <;> decide
  induction ds generalizing o with
  | nil =>
      rw [List.nil_append, Lexer.digitsFrom]
      · simp [hcloser]
      · simp [hcloser.2]
  | cons d ds ih =>
      rw [List.forall_mem_cons] at hds
      have hd : d ≠ '_' := by
        rintro rfl
        exact absurd hds.1 (by decide)
      rw [List.cons_append, Lexer.digitsFrom]
      · rw [if_pos hds.1, ih hds.2, Text.size_cons, utf8Size_of_isDigit hds.1, Nat.add_assoc]
      · simp [hd]

/-- A whole number is a token in front of a sign that may stand behind a value. -/
lemma lexes_digitsOf {n : Nat} {c : Char} (hc : isCloser c) (t : Text) :
    Lexes .number (digitsOf n) (c :: t) := by
  have hcloser : c.isDigit = false ∧ Character.isNameStart c = false ∧ c ≠ '\\' ∧ c ≠ 'n'
      ∧ c ≠ '.' ∧ c ≠ 'e' ∧ c ≠ 'E' := by
    simp only [isCloser, Bool.or_eq_true, decide_eq_true_eq] at hc
    rcases hc with (rfl | rfl) | rfl <;> decide +kernel
  obtain ⟨hdigit, hname, hback, hn, hpoint, he, hE⟩ := hcloser
  have hexponent (o : Nat) : Lexer.exponent? ⟨o, c :: t⟩ = some ⟨o, c :: t⟩ := by
    simp [Lexer.exponent?, he, hE]
  obtain ⟨d, ds, hds⟩ := List.exists_cons_of_ne_nil (Nat.toDigits_ne_nil (n := n) (b := 10))
  have hall : ∀ x ∈ d :: ds, x.isDigit := fun x hx => Json.isDigit_of_mem_digitsOf (n := n) (by
    rw [digitsOf, hds]
    exact hx)
  rw [List.forall_mem_cons] at hall
  have hbody (o : Nat) : Lexer.numberBody? ⟨o, d :: (ds ++ c :: t)⟩
      = some (.number, ⟨o + Text.size (d :: ds), c :: t⟩) := by
    rcases Nat.eq_zero_or_pos n with rfl | hpos
    · rw [Nat.toDigits_zero, List.cons.injEq] at hds
      obtain ⟨rfl, rfl⟩ := hds
      simp only [isCloser, Bool.or_eq_true, decide_eq_true_eq] at hc
      rcases hc with (rfl | rfl) | rfl <;> rfl
    · obtain ⟨d', ds', hds', hd'⟩ := Json.digitsOf_eq_cons hpos
      obtain ⟨rfl, rfl⟩ : d = d' ∧ ds = ds' := by
        rw [digitsOf, hds] at hds'
        exact List.cons.inj hds'
      have hd : d ≠ '.' := by
        rintro rfl
        exact absurd hall.1 (by decide)
      have hdigits : Lexer.digits? Char.isDigit ⟨o, d :: (ds ++ c :: t)⟩
          = some ⟨o + Text.size (d :: ds), c :: t⟩ := by
        simp only [Lexer.digits?, hall.1, if_true, Cursor.step, digitsFrom_append hall.2 hc,
          Text.size_cons, Nat.add_assoc]
      rw [Lexer.numberBody?]
      dsimp only
      split
      · next heq => exact absurd (List.cons.inj heq).1 hd'
      · next heq => exact absurd (List.cons.inj heq).1 hd
      · simp [hdigits, Cursor.head?, hn, hpoint, hexponent]
  rw [digitsOf, hds]
  refine ⟨beginsToken_cons ?_ ?_, fun o => ?_⟩
  · rintro rfl
    exact absurd hall.1 (by decide)
  · exact isGap_of_isNamePart (by simp [Character.isNamePart, hall.1])
  · have hquote : ¬(d = '"' ∨ d = '\'') := by
      rintro (rfl | rfl) <;> exact absurd hall.1 (by decide)
    have htemplate : d ≠ '\x60' := by
      rintro rfl
      exact absurd hall.1 (by decide)
    rw [List.cons_append, Lexer.bare]
    simp only [hquote, htemplate, hall.1, if_false, true_or, if_true, Lexer.number?, hbody,
      Option.bind_eq_bind, Option.bind_some]
    simp [Cursor.head?, hname, hdigit, hback]

/-! ### Signs -/

/-- The signs that no longer sign begins with, by their characters. -/
def loneSigns : List (Char × String) :=
  [('\x7b', "\x7b"), ('\x7d', "\x7d"), ('(', "("), (')', ")"), ('[', "["), (']', "]"), (';', ";"),
    (',', ","), ('>', ">"), (':', ":")]

lemma lexes_loneSign {c : Char} {s : String} (h : (c, s) ∈ loneSigns) (rest : Text) :
    Lexes (.sign s) [c] rest := by
  simp only [loneSigns, List.mem_cons, Prod.mk.injEq, List.not_mem_nil, or_false] at h
  rcases h with ⟨rfl, rfl⟩ | ⟨rfl, rfl⟩ | ⟨rfl, rfl⟩ | ⟨rfl, rfl⟩ | ⟨rfl, rfl⟩ | ⟨rfl, rfl⟩
    | ⟨rfl, rfl⟩ | ⟨rfl, rfl⟩ | ⟨rfl, rfl⟩ | ⟨rfl, rfl⟩ <;> exact ⟨rfl, fun _ => rfl⟩

/-- A less-than sign is a token of its own unless a shift or a comparison stands here. -/
lemma lexes_less {c : Char} (hless : c ≠ '<') (hequals : c ≠ '=') (t : Text) :
    Lexes (.sign "<") ['<'] (c :: t) := by
  refine ⟨rfl, fun o => ?_⟩
  have hsign : Lexer.sign? ⟨o, '<' :: c :: t⟩ = some (.sign "<", ⟨o + 1, c :: t⟩) := by
    simp [Lexer.sign?, Lexer.signs, Cursor.strip?, Text.strip?, hless.symm, hequals.symm]
    rfl
  exact hsign

/-- A slash is a token of its own unless a comment or an assignment stands here. -/
lemma lexes_slash {c : Char} (hslash : c ≠ '/') (hstar : c ≠ '*') (hequals : c ≠ '=') (t : Text) :
    Lexes (.sign "/") ['/'] (c :: t) := by
  refine ⟨?_, fun o => ?_⟩
  · rw [List.singleton_append]
    unfold beginsToken
    split
    · rfl
    · simp_all
    · simp_all
    · next heq =>
        obtain ⟨rfl, -⟩ := List.cons.inj heq
        rfl
  · have hsign : Lexer.sign? ⟨o, '/' :: c :: t⟩ = some (.sign "/", ⟨o + 1, c :: t⟩) := by
      simp [Lexer.sign?, Lexer.signs, Cursor.strip?, Text.strip?, hequals.symm]
      rfl
    exact hsign

/-- A minus sign is a token of its own unless a decrement or an assignment stands here. -/
lemma lexes_minus {c : Char} (hminus : c ≠ '-') (hequals : c ≠ '=') (t : Text) :
    Lexes (.sign "-") ['-'] (c :: t) := by
  refine ⟨rfl, fun o => ?_⟩
  have hsign : Lexer.sign? ⟨o, '-' :: c :: t⟩ = some (.sign "-", ⟨o + 1, c :: t⟩) := by
    simp [Lexer.sign?, Lexer.signs, Cursor.strip?, Text.strip?, hminus.symm, hequals.symm]
    rfl
  exact hsign

/-- An equals sign in front of the value of an attribute. -/
lemma lexes_equals {c : Char} (hequals : c ≠ '=') (harrow : c ≠ '>') (t : Text) :
    Lexes (.sign "=") ['='] (c :: t) := by
  refine ⟨rfl, fun o => ?_⟩
  have hsign : Lexer.sign? ⟨o, '=' :: c :: t⟩ = some (.sign "=", ⟨o + 1, c :: t⟩) := by
    simp [Lexer.sign?, Lexer.signs, Cursor.strip?, Text.strip?, hequals.symm, harrow.symm]
    rfl
  exact hsign

namespace Lexer

/-! ### Values of attributes and text between tags -/

/-- A value of an attribute in quotes is taken as it stands. -/
lemma plainString?_append {q : Char} {s : Text} (hs : q ∉ s) (o : Nat) (rest : Text) :
    plainString? q o (s ++ q :: rest) = some (s, ⟨o + Text.size s + 1, rest⟩) := by
  induction s generalizing o with
  | nil => simp [plainString?]
  | cons c s ih =>
      rw [List.mem_cons, not_or] at hs
      rw [List.cons_append, plainString?, if_neg (Ne.symm hs.1), ih hs.2, Text.size_cons,
        Nat.add_assoc o]
      rfl

lemma nextValue_quoted {q : Char} {s : Text} (hq : q = '"' ∨ q = '\'') (hs : q ∉ s) (o : Nat)
    (rest : Text) :
    nextValue ⟨o, q :: (s ++ q :: rest)⟩
      = (⟨.string s, ⟨o, o + Text.size s + 2⟩, false⟩, ⟨o, q :: (s ++ q :: rest)⟩,
        ⟨o + Text.size s + 2, rest⟩) := by
  have hsize : q.utf8Size = 1 := by rcases hq with rfl | rfl <;> rfl
  have hbegins : beginsToken (q :: (s ++ q :: rest)) := by
    rcases hq with rfl | rfl <;> exact beginsToken_cons (by decide) (by decide)
  have hread := plainString?_append hs (o + 1) rest
  rw [nextValue, nextBy, skipTrivia_of_beginsToken hbegins]
  simp only [hq, if_true, Cursor.step, hsize, hread, Option.map_some, tokenAt]
  have hstop : o + 1 + Text.size s + 1 = o + Text.size s + 2 := by omega
  rw [hstop]

lemma nextMarkup_less {t : Text} (h : Lexes (.sign "<") ['<'] t) (o : Nat) :
    nextMarkup ⟨o, '<' :: t⟩ = next ⟨o, '<' :: t⟩ := (next_of_lexes h o).symm

/-- Text between tags goes up to the next tag or brace. -/
lemma nextMarkup_text {s : Text} {c : Char} (hs : ∀ x ∈ s, x ≠ '<' ∧ x ≠ '\x7b') (hne : s ≠ [])
    (hc : c = '<' ∨ c = '\x7b') (o : Nat) (rest : Text) :
    nextMarkup ⟨o, s ++ c :: rest⟩
      = (⟨.markupText, ⟨o, o + Text.size s⟩, false⟩, ⟨o, s ++ c :: rest⟩,
        ⟨o + Text.size s, c :: rest⟩) := by
  have hdrop : Cursor.dropWhile (fun x => x ≠ '<' && x ≠ '\x7b') ⟨o, s ++ c :: rest⟩
      = ⟨o + Text.size s, c :: rest⟩ :=
    dropFrom_append (by simpa using hs) (by rcases hc with rfl | rfl <;> simp) o
  cases s with
  | nil => exact absurd rfl hne
  | cons x s =>
      have hx := hs x (List.mem_cons_self ..)
      rw [List.cons_append] at hdrop ⊢
      rw [nextMarkup]
      dsimp only
      split
      · next heq => simp at heq
      · next heq => exact absurd (List.cons.inj heq).1 hx.1
      · next heq => exact absurd (List.cons.inj heq).1 hx.2
      · rw [hdrop]
        rfl

end Lexer

end CanvasSync.Script
