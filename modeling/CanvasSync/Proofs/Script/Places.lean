import CanvasSync.Proofs.Script.Tags
import CanvasSync.Proofs.Text.Cuts

/-!
Where tokens stand.

* `Cursor.Reaches`, `Cursor.Leads`: one place of a text stands behind another one;
* `Kind.Fits`: what the kind of a token says about its text;
* `Lexer.IsFaithful`: what a reader of characters gives stands where it reads;
* `Lexer.Moves`: a function of the lexer goes on in the text, and its token covers what it passes
  over behind blanks and comments; the three functions of the lexer do so.
-/

namespace CanvasSync.Script

open CanvasSync.Text (endsSolid)

variable {c c' c'' : Cursor} {w w' : Text} {o : Nat} {t : Text} {x : Char} {kind : Kind}

namespace Cursor

/-! ### From place to place -/

/-- The second place is reached from the first one over a text. -/
structure Reaches (c : Cursor) (w : Text) (c' : Cursor) : Prop where
  rest_eq : c.rest = w ++ c'.rest
  offset_eq : c'.offset = c.offset + Text.size w

/-- The second place stands at the first one or behind it in the same text. -/
def Leads (c c' : Cursor) : Prop := ∃ w, c.Reaches w c'

lemma Reaches.refl (c : Cursor) : c.Reaches [] c := ⟨rfl, rfl⟩

lemma Reaches.append (h : c.Reaches w c') (h' : c'.Reaches w' c'') : c.Reaches (w ++ w') c'' := by
  refine ⟨?_, ?_⟩
  · rw [h.rest_eq, h'.rest_eq, List.append_assoc]
  · rw [h'.offset_eq, h.offset_eq, Text.size_append, Nat.add_assoc]

lemma reaches_append (o : Nat) (w t : Text) :
    (⟨o, w ++ t⟩ : Cursor).Reaches w ⟨o + Text.size w, t⟩ := ⟨rfl, rfl⟩

lemma Reaches.leads (h : c.Reaches w c') : c.Leads c' := ⟨w, h⟩

lemma Leads.refl (c : Cursor) : c.Leads c := (Reaches.refl c).leads

lemma Leads.trans (h : c.Leads c') (h' : c'.Leads c'') : c.Leads c'' := by
  obtain ⟨w, h⟩ := h
  obtain ⟨w', h'⟩ := h'
  exact (h.append h').leads

lemma Leads.le (h : c.Leads c') : c.offset ≤ c'.offset := by
  obtain ⟨w, h⟩ := h
  have := h.offset_eq
  omega

/-- What a place behind a beginning leads to, the beginning leads to as well. -/
lemma Leads.behind (w : Text) (h : (⟨o + Text.size w, t⟩ : Cursor).Leads c) :
    (⟨o, w ++ t⟩ : Cursor).Leads c :=
  (reaches_append o w t).leads.trans h

/-- A text that stands at the end of what is read stays there behind a beginning. -/
lemma exists_reaches_behind (u : Text) {v : Text}
    (h : ∃ w, (⟨o + Text.size u, t⟩ : Cursor).Reaches (w ++ v) c) :
    ∃ w, (⟨o, u ++ t⟩ : Cursor).Reaches (w ++ v) c := by
  obtain ⟨w, h⟩ := h
  refine ⟨u ++ w, ?_⟩
  rw [List.append_assoc]
  exact (reaches_append o u t).append h

lemma reaches_dropFrom (p : Char → Bool) (o : Nat) (t : Text) :
    (⟨o, t⟩ : Cursor).Reaches (t.takeWhile p) (dropFrom p o t) := by
  induction t generalizing o with
  | nil => exact Reaches.refl _
  | cons x t ih =>
      by_cases hx : p x
      · rw [dropFrom, if_pos hx, List.takeWhile_cons_of_pos hx]
        exact (reaches_append o [x] t).append (ih _)
      · rw [dropFrom, if_neg hx, List.takeWhile_cons_of_neg hx]
        exact Reaches.refl _

lemma reaches_dropWhile (p : Char → Bool) (c : Cursor) :
    c.Reaches (c.rest.takeWhile p) (c.dropWhile p) := reaches_dropFrom p c.offset c.rest

lemma leads_dropWhile (p : Char → Bool) (c : Cursor) : c.Leads (c.dropWhile p) :=
  (reaches_dropWhile p c).leads

lemma reaches_step (h : c.rest = x :: t) : c.Reaches [x] c.step := by
  rw [step, h]
  exact ⟨h, rfl⟩

lemma leads_step (c : Cursor) : c.Leads c.step := by
  cases h : c.rest with
  | nil =>
      rw [step, h]
      exact Leads.refl c
  | cons x t => exact (reaches_step h).leads

lemma reaches_of_strip? (h : c.strip? w = some c') : c.Reaches w c' := by
  obtain ⟨t, ht, rfl⟩ := Option.map_eq_some_iff.mp h
  exact ⟨Text.eq_of_strip? ht, rfl⟩

end Cursor

open Cursor

namespace Lexer

lemma leads_of_skipTrivia {mode : Trivia} {ended ended' : Bool}
    (h : skipTrivia mode ended o t = some (ended', c)) : (⟨o, t⟩ : Cursor).Leads c := by
  fun_induction skipTrivia mode ended o t with
  | case1 => cases h
  | case2 => cases h; exact Leads.refl _
  | case3 _ _ t ih => exact Leads.behind ['/', '/'] (ih h)
  | case4 _ _ t ih => exact Leads.behind ['/', '*'] (ih h)
  | case5 _ _ t ih => exact Leads.behind ['*', '/'] (ih h)
  | case6 _ _ _ x t _ _ _ _ ih => exact Leads.behind [x] (ih h)
  | case7 => cases h; exact Leads.refl _
  | case8 _ _ _ x t _ _ _ _ _ ih => exact Leads.behind [x] (ih h)

/-! ### Words -/

/-- A text without blanks ends with none. -/
lemma endsSolid_of_forall (hw : ∀ x ∈ w, isBlank x = false) (hne : w ≠ []) : endsSolid w := by
  rw [endsSolid, List.getLast?_eq_getLast_of_ne_nil hne, Option.any_some,
    hw _ (List.getLast_mem hne)]
  rfl

lemma isBlank_of_isMarkupPart (h : isMarkupPart x) : isBlank x = false := by
  by_contra hx
  rw [Grammar.isMarkupPart_of_isBlank (by simpa using hx)] at h
  cases h

lemma isBlank_of_isNamePart (h : Character.isNamePart x) : isBlank x = false :=
  isBlank_of_isMarkupPart (by rw [isMarkupPart, h, Bool.true_or])

/-- A hexadecimal digit takes one byte and is not blank. -/
lemma toNat_lt_of_isHexDigit (h : Character.isHexDigit x) : 48 ≤ x.toNat ∧ x.toNat < 103 := by
  simp only [Character.isHexDigit, Char.isDigit, Bool.or_eq_true, Bool.and_eq_true,
    decide_eq_true_eq, Char.le_def, ge_iff_le, UInt32.le_iff_toNat_le] at h
  change (48 ≤ x.toNat ∧ x.toNat ≤ 57 ∨ 97 ≤ x.toNat ∧ x.toNat ≤ 102)
    ∨ 65 ≤ x.toNat ∧ x.toNat ≤ 70 at h
  omega

lemma isBlank_of_isHexDigit (h : Character.isHexDigit x) : isBlank x = false := by
  have hx := toNat_lt_of_isHexDigit h
  simp only [isBlank, Bool.or_eq_false_iff, Bool.and_eq_false_iff, decide_eq_false_iff_not]
  omega

/-- The digits of an escape stand in front of what follows it. -/
lemma exists_of_hex4? {n : Nat} (h : Escape.hex4? t = some (n, w')) :
    ∃ w, t = w ++ w' ∧ endsSolid w := by
  rw [Escape.hex4?] at h
  split at h
  · next hds =>
      cases h
      refine ⟨t.take 4, (List.take_append_drop 4 t).symm, endsSolid_of_forall ?_ ?_⟩
      · exact fun x hx => isBlank_of_isHexDigit (List.all_eq_true.mp hds.2 x hx)
      · rintro hnil
        simp [hnil] at hds
  · cases h

/-- An escape stands in front of what follows it. -/
lemma exists_of_unicode? {v rest : Text} (h : Escape.unicode? t = some (v, rest)) :
    ∃ w, t = w ++ rest ∧ endsSolid w := by
  unfold Escape.unicode? at h
  split at h
  · next digits =>
      dsimp only at h
      split at h
      · next hdrop =>
          split at h
          · cases h
            refine ⟨'\x7b' :: (digits.takeWhile Character.isHexDigit ++ ['\x7d']), ?_, ?_⟩
            · rw [List.cons_append, List.append_assoc, List.singleton_append, ← hdrop,
                List.takeWhile_append_dropWhile]
            · exact Text.endsSolid_append (_ :: _) (by decide)
          · cases h
      · cases h
  · obtain ⟨⟨hi, behind⟩, hhi, hvalue⟩ := Option.bind_eq_some_iff.mp h
    obtain ⟨w, rfl, hw⟩ := exists_of_hex4? hhi
    dsimp only at hvalue
    split at hvalue
    · split at hvalue
      · obtain ⟨⟨lo, behind⟩, hlo, hpair⟩ := Option.bind_eq_some_iff.mp hvalue
        obtain ⟨w', rfl, hw'⟩ := exists_of_hex4? hlo
        have heq : behind = rest := by
          dsimp only at hpair
          split at hpair <;> cases hpair <;> rfl
        subst heq
        refine ⟨w ++ '\\' :: 'u' :: w', by simp, ?_⟩
        exact Text.endsSolid_append w (Text.endsSolid_append ['\\', 'u'] hw')
      · cases hvalue
        exact ⟨w, rfl, hw⟩
    · cases hvalue
      exact ⟨w, rfl, hw⟩

/-- The characters of a word reach up to what follows it. -/
lemma reaches_of_wordParts {fuel : Nat} {v : Text} {escaped : Bool}
    (h : wordParts fuel c = some (v, escaped, c')) :
    ∃ w, c.Reaches w c' ∧ (v = [] ∧ w = [] ∨ endsSolid w) := by
  induction fuel generalizing c v escaped with
  | zero => cases h
  | succ fuel ih =>
      -- behind a first part that ends solid, the rest is read by itself
      have hbehind {u : Text} {mid : Cursor} {v' : Text} {e : Bool} (hu : endsSolid u)
          (hmid : c.Reaches u mid) (hparts : wordParts fuel mid = some (v', e, c')) :
          ∃ w, c.Reaches w c' ∧ (v = [] ∧ w = [] ∨ endsSolid w) := by
        obtain ⟨w, hw, hsolid⟩ := ih hparts
        refine ⟨u ++ w, hmid.append hw, .inr ?_⟩
        rcases hsolid with ⟨-, rfl⟩ | hsolid
        · rwa [List.append_nil]
        · exact Text.endsSolid_append u hsolid
      rw [wordParts] at h
      split at h
      · next t hrest =>
          split at h
          · next x rest hx =>
              split at h
              · obtain ⟨⟨v', e, c''⟩, hparts, heq⟩ := Option.map_eq_some_iff.mp h
                cases heq
                obtain ⟨u, rfl, hu⟩ := exists_of_unicode? hx
                have hmid : c.Reaches ('\\' :: 'u' :: u)
                    ⟨c.offset + 2 + (Text.size (u ++ rest) - Text.size rest), rest⟩ := by
                  refine ⟨hrest, ?_⟩
                  rw [Text.size_append, Nat.add_sub_cancel, Nat.add_assoc]
                  exact congrArg (c.offset + ·) (Nat.add_assoc 1 1 (Text.size u))
                exact hbehind (Text.endsSolid_append ['\\', 'u'] hu) hmid hparts
              · cases h
          · cases h
      · cases h
      · next x t _ _ hrest =>
          split at h
          · next hx =>
              obtain ⟨⟨v', e, c''⟩, hparts, heq⟩ := Option.map_eq_some_iff.mp h
              cases heq
              have hsolid : endsSolid [x] := by simp [endsSolid, isBlank_of_isNamePart hx]
              have hmid : c.Reaches [x] ⟨c.offset + x.utf8Size, t⟩ := ⟨hrest, rfl⟩
              exact hbehind hsolid hmid hparts
          · cases h
            exact ⟨[], Reaches.refl _, .inl ⟨rfl, rfl⟩⟩
      · cases h
        exact ⟨[], Reaches.refl _, .inl ⟨rfl, rfl⟩⟩

/-- A word reaches up to what follows it, and ends with no blank. -/
lemma reaches_of_word? {v : Text} {escaped : Bool} (h : word? c = some (v, escaped, c')) :
    ∃ w, c.Reaches w c' ∧ endsSolid w := by
  rw [word?] at h
  split at h
  · next x v' e c'' hread =>
      split at h
      · cases h
        split at hread
        · obtain ⟨w, hw, hsolid⟩ := reaches_of_wordParts hread
          exact ⟨w, hw, hsolid.resolve_left (by simp)⟩
        · obtain ⟨htake, hmid⟩ := Prod.mk.inj (Option.some.inj hread)
          obtain rfl := (Prod.mk.inj hmid).2
          refine ⟨_, reaches_dropWhile _ c, endsSolid_of_forall (fun y hy => ?_) (by simp [htake])⟩
          exact isBlank_of_isNamePart (List.mem_takeWhile_imp hy)
      · cases h
  · cases h

/-! ### Numbers -/

/-- The digits that numbers are made of take one byte each. -/
def IsNarrow (isDigit : Char → Bool) : Prop := ∀ x, isDigit x → x.utf8Size = 1

lemma utf8Size_of_toNat_lt (h : x.toNat < 128) : x.utf8Size = 1 := by
  have hle : x.val ≤ 0x7F := by
    rw [UInt32.le_iff_toNat_le]
    exact Nat.le_of_lt_succ h
  simp [Char.utf8Size, hle]

lemma isNarrow_isHexDigit : IsNarrow Character.isHexDigit := fun x hx =>
  utf8Size_of_toNat_lt (by have := toNat_lt_of_isHexDigit hx; omega)

lemma isNarrow_isDigit : IsNarrow Char.isDigit := fun _ => utf8Size_of_isDigit

lemma isNarrow_isOctalDigit : IsNarrow Character.isOctalDigit := by
  intro x hx
  apply isNarrow_isHexDigit
  simp only [Character.isOctalDigit, Bool.and_eq_true, decide_eq_true_eq] at hx
  simp only [Character.isHexDigit, Char.isDigit, Bool.or_eq_true, Bool.and_eq_true,
    decide_eq_true_eq]
  exact .inl (.inl ⟨hx.1, Char.le_trans hx.2 (by decide)⟩)

lemma isNarrow_isBinaryDigit : IsNarrow Character.isBinaryDigit := by
  intro x hx
  simp only [Character.isBinaryDigit, Bool.or_eq_true, decide_eq_true_eq] at hx
  rcases hx with rfl | rfl <;> rfl

lemma leads_of_digitsFrom {isDigit : Char → Bool} (hd : IsNarrow isDigit)
    (h : digitsFrom isDigit o t = some c) : (⟨o, t⟩ : Cursor).Leads c := by
  fun_induction digitsFrom isDigit o t with
  | case1 => cases h; exact Leads.refl _
  | case2 o d t hdigit ih =>
      refine Leads.behind ['_', d] ?_
      rw [Text.size_cons, Text.size_cons, hd d hdigit]
      exact ih h
  | case3 => cases h
  | case4 o d t _ hdigit ih =>
      refine Leads.behind [d] ?_
      rw [Text.size_cons, hd d hdigit]
      exact ih h
  | case5 => cases h
  | case6 => cases h; exact Leads.refl _

lemma leads_of_digits? {isDigit : Char → Bool} (hd : IsNarrow isDigit)
    (h : digits? isDigit c = some c') : c.Leads c' := by
  rw [digits?] at h
  split at h
  · split at h
    · exact (leads_step c).trans (leads_of_digitsFrom hd h)
    · cases h
  · cases h

lemma leads_of_exponent? (h : exponent? c = some c') : c.Leads c' := by
  rw [exponent?] at h
  split at h
  · split at h
    · have hdigits := leads_of_digits? isNarrow_isDigit h
      split at hdigits
      · exact (leads_step c).trans ((leads_step _).trans hdigits)
      · exact (leads_step c).trans hdigits
    · cases h; exact Leads.refl c
  · cases h; exact Leads.refl c

lemma leads_of_fraction? (h : fraction? c = some c') : c.Leads c' := by
  rw [fraction?] at h
  split at h
  · obtain ⟨mid, hmid, hend⟩ := Option.bind_eq_some_iff.mp h
    exact (leads_of_digits? isNarrow_isDigit hmid).trans (leads_of_exponent? hend)
  · exact leads_of_exponent? h

/-- A number reaches up to what follows it. -/
lemma leads_of_numberBody? (h : numberBody? c = some (kind, c')) :
    c.Leads c' ∧ (kind = .number ∨ kind = .bigInteger) := by
  have hradix {isDigit : Char → Bool} (hd : IsNarrow isDigit)
      (h : (do
        let c ← digits? isDigit c.step.step
        return if c.head? = some 'n' then (Kind.bigInteger, c.step) else (.number, c))
        = some (kind, c')) : c.Leads c' ∧ (kind = .number ∨ kind = .bigInteger) := by
    obtain ⟨mid, hmid, hend⟩ := Option.bind_eq_some_iff.mp h
    have hfront : c.Leads mid := (leads_step c).trans
      ((leads_step _).trans (leads_of_digits? hd hmid))
    split at hend
    · cases hend; exact ⟨hfront.trans (leads_step mid), .inr rfl⟩
    · cases hend; exact ⟨hfront, .inl rfl⟩
  rw [numberBody?] at h
  dsimp only at h
  split at h
  · split_ifs at h
    · exact hradix isNarrow_isHexDigit h
    · exact hradix isNarrow_isBinaryDigit h
    · exact hradix isNarrow_isOctalDigit h
    · cases h; exact ⟨leads_dropWhile _ c, .inl rfl⟩
    · obtain ⟨mid, hmid, hend⟩ := Option.bind_eq_some_iff.mp h
      cases hend
      exact ⟨(leads_dropWhile _ c).trans ((leads_step _).trans (leads_of_fraction? hmid)),
        .inl rfl⟩
    · obtain ⟨mid, hmid, hend⟩ := Option.bind_eq_some_iff.mp h
      cases hend
      exact ⟨(leads_dropWhile _ c).trans (leads_of_exponent? hmid), .inl rfl⟩
    · cases h; exact ⟨(leads_step c).trans (leads_step _), .inr rfl⟩
    · obtain ⟨mid, hmid, hend⟩ := Option.map_eq_some_iff.mp h
      cases hend
      exact ⟨(leads_step c).trans ((leads_step _).trans (leads_of_fraction? hmid)), .inl rfl⟩
    · obtain ⟨mid, hmid, hend⟩ := Option.map_eq_some_iff.mp h
      cases hend
      exact ⟨(leads_step c).trans (leads_of_exponent? hmid), .inl rfl⟩
  · obtain ⟨mid, hmid, hend⟩ := Option.map_eq_some_iff.mp h
    cases hend
    exact ⟨(leads_step c).trans (leads_of_fraction? hmid), .inl rfl⟩
  · obtain ⟨mid, hmid, hend⟩ := Option.bind_eq_some_iff.mp h
    have hfront := leads_of_digits? isNarrow_isDigit hmid
    split_ifs at hend
    · cases hend; exact ⟨hfront.trans (leads_step mid), .inr rfl⟩
    · obtain ⟨last, hlast, hend⟩ := Option.bind_eq_some_iff.mp hend
      cases hend
      exact ⟨hfront.trans ((leads_step mid).trans (leads_of_fraction? hlast)), .inl rfl⟩
    · obtain ⟨last, hlast, hend⟩ := Option.bind_eq_some_iff.mp hend
      cases hend
      exact ⟨hfront.trans (leads_of_exponent? hlast), .inl rfl⟩

lemma leads_of_number? (h : number? c = some (kind, c')) :
    c.Leads c' ∧ (kind = .number ∨ kind = .bigInteger) := by
  rw [number?] at h
  obtain ⟨⟨k, mid⟩, hmid, hend⟩ := Option.bind_eq_some_iff.mp h
  dsimp only at hend
  split at hend
  · cases hend
  · cases hend; exact leads_of_numberBody? hmid

/-! ### Strings, templates and regular expressions -/

/-- The characters of a string reach up to behind its closing quote. -/
lemma reaches_of_quotedRaw {quote : Char} (hq : quote.utf8Size = 1) {v : Text}
    (h : quotedRaw quote o t = some (v, c)) :
    ∃ w, (⟨o, t⟩ : Cursor).Reaches (w ++ [quote]) c := by
  fun_induction quotedRaw quote o t generalizing v with
  | case1 => cases h
  | case2 o t ih =>
      obtain ⟨⟨v', c'⟩, hraw, heq⟩ := Option.map_eq_some_iff.mp h
      cases heq
      exact exists_reaches_behind ['\\', '\r', '\n'] (ih hraw)
  | case3 o x t _ ih =>
      obtain ⟨⟨v', c'⟩, hraw, heq⟩ := Option.map_eq_some_iff.mp h
      cases heq
      exact exists_reaches_behind ['\\'] (exists_reaches_behind [x] (ih hraw))
  | case4 o t =>
      cases h
      exact ⟨[], ⟨rfl, by simp [hq]⟩⟩
  | case5 => cases h
  | case6 o x t _ _ _ _ ih =>
      obtain ⟨⟨v', c'⟩, hraw, heq⟩ := Option.map_eq_some_iff.mp h
      cases heq
      exact exists_reaches_behind [x] (ih hraw)

/-- The value of an attribute reaches up to behind its closing quote. -/
lemma reaches_of_plainString? {quote : Char} (hq : quote.utf8Size = 1) {v : Text}
    (h : plainString? quote o t = some (v, c)) :
    ∃ w, (⟨o, t⟩ : Cursor).Reaches (w ++ [quote]) c := by
  fun_induction plainString? quote o t generalizing v with
  | case1 => cases h
  | case2 o t =>
      cases h
      exact ⟨[], ⟨rfl, by simp [hq]⟩⟩
  | case3 o x t _ ih =>
      obtain ⟨⟨v', c'⟩, hraw, heq⟩ := Option.map_eq_some_iff.mp h
      cases heq
      exact exists_reaches_behind [x] (ih hraw)

lemma leads_of_templateRaw {v : Text} {done : Bool} (h : templateRaw o t = some (v, done, c)) :
    (⟨o, t⟩ : Cursor).Leads c := by
  fun_induction templateRaw o t generalizing v done with
  | case1 => cases h
  | case2 o x t ih =>
      obtain ⟨⟨v', d, c'⟩, hraw, heq⟩ := Option.map_eq_some_iff.mp h
      cases heq
      exact Leads.behind ['\\'] (Leads.behind [x] (ih hraw))
  | case3 o t => cases h; exact Leads.behind ['$', '\x7b'] (Leads.refl _)
  | case4 o t => cases h; exact Leads.behind ['\x60'] (Leads.refl _)
  | case5 o x t _ _ _ ih =>
      obtain ⟨⟨v', d, c'⟩, hraw, heq⟩ := Option.map_eq_some_iff.mp h
      cases heq
      exact Leads.behind [x] (ih hraw)

lemma leads_of_template? (h : template? c = some (kind, c')) : c.Leads c' := by
  obtain ⟨⟨v, done, c''⟩, hraw, heq⟩ := Option.map_eq_some_iff.mp h
  cases heq
  exact leads_of_templateRaw hraw

lemma leads_of_patternBody {inClass : Bool} (h : patternBody inClass o t = some c) :
    (⟨o, t⟩ : Cursor).Leads c := by
  fun_induction patternBody inClass o t with
  | case1 => cases h
  | case2 => cases h
  | case3 _ o x t _ ih => exact Leads.behind ['\\'] (Leads.behind [x] (ih h))
  | case4 => cases h
  | case5 _ o x t _ _ hx =>
      cases h
      rw [hx.1]
      exact Leads.behind ['/'] (Leads.refl _)
  | case6 _ o t _ _ _ ih => exact Leads.behind ['['] (ih h)
  | case7 _ o t _ _ _ _ ih => exact Leads.behind [']'] (ih h)
  | case8 _ o x t _ _ _ _ _ ih => exact Leads.behind [x] (ih h)

lemma leads_of_pattern? (h : pattern? c = some (kind, c')) : c.Leads c' ∧ kind = .pattern := by
  rw [pattern?] at h
  obtain ⟨mid, hbody, hflags⟩ := Option.bind_eq_some_iff.mp h
  dsimp only at hflags
  split at hflags
  · cases hflags
    exact ⟨(leads_of_patternBody hbody).trans (leads_dropWhile _ mid), rfl⟩
  · cases hflags

end Lexer

/-! ### Tokens -/

/-- What is known of the text of a token: a sign is written as it is, and words and strings end with
no blank. -/
def Kind.Fits : Kind → Text → Prop
  | .sign s, w => w = s.toList
  | .word _ _, w | .string _, w => endsSolid w
  | _, _ => True

/-- A token covers the text between two places. -/
structure Token.Covers (t : Token) (here after : Cursor) : Prop where
  text : ∃ w, here.Reaches w after ∧ t.kind.Fits w
  span_eq : t.span = ⟨here.offset, after.offset⟩

/-- What a reader of characters gives stands where it reads. -/
def Lexer.IsFaithful (read : Cursor → Option (Kind × Cursor)) : Prop :=
  ∀ c kind c', read c = some (kind, c') → ∃ w, c.Reaches w c' ∧ kind.Fits w

namespace Lexer

/-- Of a token whose kind says nothing about its text, only the place behind it matters. -/
lemma exists_reaches_of_leads (hk : ∀ w, kind.Fits w) (h : c.Leads c') :
    ∃ w, c.Reaches w c' ∧ kind.Fits w := by
  obtain ⟨w, h⟩ := h
  exact ⟨w, h, hk w⟩

/-- A text with quotes around it ends with no blank. -/
lemma exists_reaches_quoted {quote : Char} (hq : quote = '"' ∨ quote = '\'') (v : Text)
    (hrest : c.rest = quote :: t) (h : ∃ w, c.step.Reaches (w ++ [quote]) c') :
    ∃ w, c.Reaches w c' ∧ (Kind.string v).Fits w := by
  obtain ⟨w, h⟩ := h
  refine ⟨_, (reaches_step hrest).append h, ?_⟩
  refine Text.endsSolid_append [quote] (Text.endsSolid_append w ?_)
  rcases hq with rfl | rfl <;> decide

lemma utf8Size_of_quote {quote : Char} (hq : quote = '"' ∨ quote = '\'') : quote.utf8Size = 1 := by
  rcases hq with rfl | rfl <;> rfl

lemma isFaithful_sign? : IsFaithful sign? := by
  intro c kind c' h
  obtain ⟨s, -, hs⟩ := List.exists_of_findSome?_eq_some h
  split at hs
  · next mid hmid =>
      split at hs
      · cases hs
      · cases hs
        exact ⟨_, reaches_of_strip? hmid, rfl⟩
  · cases hs

lemma isFaithful_joined : IsFaithful joined := by
  intro c kind c' h
  obtain ⟨s, -, hs⟩ := List.exists_of_findSome?_eq_some h
  obtain ⟨mid, hmid, heq⟩ := Option.map_eq_some_iff.mp hs
  cases heq
  exact ⟨_, reaches_of_strip? hmid, rfl⟩

lemma isFaithful_template : IsFaithful fun c => template? c.step := by
  intro c kind c' h
  refine exists_reaches_of_leads ?_ ((leads_step c).trans (leads_of_template? h))
  obtain ⟨⟨v, done, c''⟩, -, heq⟩ := Option.map_eq_some_iff.mp h
  cases heq
  cases done <;> exact fun _ => trivial

lemma isFaithful_pattern : IsFaithful fun c => pattern? c.step := by
  intro c kind c' h
  obtain ⟨hleads, rfl⟩ := leads_of_pattern? h
  exact exists_reaches_of_leads (fun _ => trivial) ((leads_step c).trans hleads)

lemma isFaithful_bare : IsFaithful bare := by
  intro c kind c' h
  rw [bare] at h
  split at h
  · cases h
    exact ⟨[], Reaches.refl _, trivial⟩
  · next x t hrest =>
      split_ifs at h with hquote htemplate hnumber hprivate hword
      · obtain ⟨⟨v, mid⟩, hraw, hvalue⟩ := Option.bind_eq_some_iff.mp h
        obtain ⟨v', -, heq⟩ := Option.bind_eq_some_iff.mp hvalue
        cases heq
        exact exists_reaches_quoted hquote v' hrest
          (reaches_of_quotedRaw (utf8Size_of_quote hquote) hraw)
      · exact isFaithful_template c kind c' h
      · obtain ⟨hleads, rfl | rfl⟩ := leads_of_number? h <;>
          exact exists_reaches_of_leads (fun _ => trivial) hleads
      · obtain ⟨⟨v, escaped, mid⟩, hread, heq⟩ := Option.map_eq_some_iff.mp h
        cases heq
        obtain ⟨w, hw, -⟩ := reaches_of_word? hread
        exact exists_reaches_of_leads (fun _ => trivial) ((leads_step c).trans hw.leads)
      · obtain ⟨⟨v, escaped, mid⟩, hread, heq⟩ := Option.map_eq_some_iff.mp h
        cases heq
        exact reaches_of_word? hread
      · exact isFaithful_sign? c kind c' h

/-- The token found at a place covers the text up to the place behind it. -/
lemma covers_tokenAt {c : Cursor} {r : Option (Kind × Cursor)}
    (hr : ∀ kind c', r = some (kind, c') → ∃ w, c.Reaches w c' ∧ kind.Fits w) (ended : Bool) :
    (tokenAt ended c r).1.Covers c (tokenAt ended c r).2 := by
  cases h : r with
  | none => exact ⟨⟨[], Reaches.refl c, trivial⟩, rfl⟩
  | some m => exact ⟨hr m.1 m.2 h, rfl⟩

/-- A function of the lexer moves on in the text, and its token covers what it passes over behind
blanks and comments. -/
structure Moves (look : Cursor → Token × Cursor × Cursor) : Prop where
  leads (c : Cursor) : c.Leads (look c).2.1
  covers (c : Cursor) : (look c).1.Covers (look c).2.1 (look c).2.2

lemma moves_nextBy {read : Cursor → Option (Kind × Cursor)} (hread : IsFaithful read) :
    Moves (nextBy read) := by
  constructor <;> intro c <;> rw [nextBy] <;> split
  · exact Leads.refl c
  · next h => exact leads_of_skipTrivia h
  · exact ⟨⟨[], Reaches.refl c, trivial⟩, rfl⟩
  · next ended start h => exact covers_tokenAt (hread start) ended

lemma moves_next : Moves next := moves_nextBy isFaithful_bare

lemma moves_nextValue : Moves nextValue := by
  refine moves_nextBy fun c kind c' h => ?_
  split at h
  · next x t hrest =>
      split at h
      · next hquote =>
          obtain ⟨⟨v, mid⟩, hraw, heq⟩ := Option.map_eq_some_iff.mp h
          cases heq
          exact exists_reaches_quoted hquote v hrest
            (reaches_of_plainString? (utf8Size_of_quote hquote) hraw)
      · exact isFaithful_bare c kind c' h
  · exact isFaithful_bare c kind c' h

lemma moves_nextMarkup : Moves nextMarkup := by
  refine ⟨fun c => Leads.refl c, fun c => covers_tokenAt (fun kind c' h => ?_) false⟩
  split at h
  · cases h; exact ⟨[], Reaches.refl c, trivial⟩
  · next hrest => cases h; exact ⟨_, reaches_step hrest, rfl⟩
  · next hrest => cases h; exact ⟨_, reaches_step hrest, rfl⟩
  · cases h; exact exists_reaches_of_leads (fun _ => trivial) (leads_dropWhile _ c)

end Lexer

end CanvasSync.Script
