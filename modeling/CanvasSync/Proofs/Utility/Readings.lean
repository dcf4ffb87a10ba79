import CanvasSync.Proofs.Utility.Validity
import Mathlib.Data.Set.Subsingleton

/-!
The grammar of class tokens.

* `Scale.IsToken`, `Arbitrary.IsToken`: what a base looks like that is no fixed class;
* `Reading`: a token taken apart: breakpoint, mark of importance, base, opacity;
* `Reading.IsProper`: what the parts have to be like;
* `Reading.eq_of_text_eq`: a token has one proper reading at most, as the splitters find its parts;
* `resolve?_eq_some_iff`: a token has a style exactly if it has a proper reading, and then the style
  is that of its base with the modifiers of the reading;
* `resolve?_standard`: all this of the standard table, and of modifiers that stand out of place.
-/

namespace CanvasSync.Utility

open Token (front splitColons splitVariants splitOpacity? isPlain)

variable {table : Table} {t u v base digits : Text} {s : Style} {depth : Nat}
  {b : Option Breakpoint} {c : Char}

/-! ### Bases -/

/-- A token of the scale: the name of a measure, a hyphen and the digits of a step that is not too
great. Only margins have a sign. -/
def Scale.IsToken (base : Text) : Prop :=
  ∃ (negative : Bool) (name digits : Text) (property : String),
    base = (if negative then ['-'] else []) ++ (name ++ '-' :: digits)
      ∧ names.lookup (String.ofList name) = some property
      ∧ digits ≠ [] ∧ digits.all Char.isDigit ∧ Number.ofDigits digits ≤ maxStep
      ∧ (negative → isMargin property)

/-- A token with a value in brackets behind a name that takes one. -/
def Arbitrary.IsToken (base : Text) : Prop :=
  ∃ name value, base = name ++ ("-[".toList ++ (value ++ [']'])) ∧ accepts name ∧ value ≠ []

/-- A base that stands for something: a fixed class, a token of the scale or one with a value in
brackets. -/
def IsKnown (table : Table) (base : Text) : Prop :=
  (table.get? base).isSome ∨ Scale.IsToken base ∨ Arbitrary.IsToken base

/-- What a base stands for: as a fixed class, or else on the scale, or else as a value in
brackets. -/
def ruleOf? (table : Table) (base : Text) : Option Declaration :=
  (table.get? base).or ((Scale.declaration? base).or (Arbitrary.declaration? base))

lemma baseDeclaration?_eq (table : Table) (base : Text) :
    baseDeclaration? table base = ruleOf? table base := by
  rw [baseDeclaration?, ruleOf?]
  cases table.get? base with
  | some d => rfl
  | none => cases Scale.declaration? base <;> rfl

/-- The names of the measures are made of small letters. -/
lemma Scale.letters_of_lookup {name : Text} {property : String}
    (h : names.lookup (String.ofList name) = some property) :
    name ≠ [] ∧ name.all isSmallLetter := by
  have hnames : names.all fun row => row.1.toList ≠ [] ∧ row.1.toList.all isSmallLetter := by
    decide +kernel
  obtain ⟨rows, rows', hrows, -⟩ := List.lookup_eq_some_iff.mp h
  rw [hrows] at hnames
  simpa using List.all_eq_true.mp hnames (String.ofList name, property) (by simp)

lemma Scale.declaration?_isSome_iff : (Scale.declaration? base).isSome ↔ Scale.IsToken base := by
  constructor
  · intro h
    obtain ⟨d, hd⟩ := Option.isSome_iff_exists.mp h
    obtain ⟨⟨negative, name, step⟩, hsplit, hd⟩ := Option.bind_eq_some_iff.mp hd
    obtain ⟨property, hproperty, hd⟩ := Option.bind_eq_some_iff.mp hd
    obtain ⟨digits, htext, -, -, hne, hdigits, hstep, -⟩ := Scale.split?_eq_some_iff.mp hsplit
    refine ⟨negative, name, digits, property, htext, hproperty, hne, hdigits, hstep, fun hneg => ?_⟩
    by_contra hmargin
    simp [hneg, hmargin] at hd
  · rintro ⟨negative, name, digits, property, rfl, hproperty, hne, hdigits, hstep, hmargin⟩
    have hname := Scale.letters_of_lookup hproperty
    have hsplit : Scale.split? ((if negative then ['-'] else []) ++ (name ++ '-' :: digits))
        = some (negative, name, Number.ofDigits digits) :=
      Scale.split?_eq_some_iff.mpr ⟨digits, rfl, hname.1, hname.2, hne, hdigits, hstep, rfl⟩
    rw [Scale.declaration?, hsplit]
    cases negative <;> simp_all

lemma Arbitrary.isName_of_accepts (h : accepts v) : isName v := by
  have hnames : names.all fun row => isName row.1.toList := by decide +kernel
  obtain ⟨property, hproperty⟩ := Option.isSome_iff_exists.mp h
  obtain ⟨rows, rows', hrows, -⟩ := List.lookup_eq_some_iff.mp hproperty
  rw [hrows] at hnames
  simpa using List.all_eq_true.mp hnames (String.ofList v, property) (by simp)

/-- The first bracket behind a hyphen is the one behind a name. -/
lemma cut?_bracket (hname : '[' ∉ v) (u : Text) :
    Text.cut? ['-', '['] (v ++ '-' :: '[' :: u) = some (v, u) := by
  induction v with
  | nil => rfl
  | cons c v ih =>
      have hv : '[' ∉ v := fun h => hname (List.mem_cons_of_mem c h)
      have hstrip : Text.strip? ['-', '['] (c :: (v ++ '-' :: '[' :: u)) = none := by
        cases v with
        | nil => simp [Text.strip?]
        | cons d v =>
            have hd : '[' ≠ d := fun h => hv (h ▸ List.mem_cons_self)
            simp [Text.strip?, hd]
      rw [List.cons_append, Text.cut?, hstrip, ih hv]
      rfl

lemma Arbitrary.declaration?_isSome_iff :
    (Arbitrary.declaration? base).isSome ↔ Arbitrary.IsToken base := by
  constructor
  · intro h
    obtain ⟨d, hd⟩ := Option.isSome_iff_exists.mp h
    obtain ⟨name, value, hsplit, haccepts⟩ := exists_splitArbitrary? hd
    obtain ⟨htext, -, hvalue⟩ := Token.eq_of_splitArbitrary? hsplit
    exact ⟨name, value, htext, haccepts, hvalue⟩
  · rintro ⟨name, value, rfl, haccepts, hvalue⟩
    have hname := Arbitrary.isName_of_accepts haccepts
    have hne : name ≠ [] := by
      rintro rfl
      cases hname
    have hbracket : '[' ∉ name := fun h =>
      absurd (isAlphanum_or_of_isName hname h) (by decide)
    have hend : Text.stripEnd? [']'] (name ++ ("-[".toList ++ (value ++ [']'])))
        = some (name ++ '-' :: '[' :: value) := by
      simp [Text.stripEnd?, Text.strip?]
    have hsplit : Token.splitArbitrary? (name ++ ("-[".toList ++ (value ++ [']'])))
        = some (name, value) := by
      rw [Token.splitArbitrary?, hend, Option.bind_eq_bind, Option.bind_some,
        cut?_bracket hbracket]
      exact if_pos ⟨hne, hvalue⟩
    obtain ⟨property, hproperty⟩ := Option.isSome_iff_exists.mp haccepts
    rw [Arbitrary.declaration?, hsplit]
    simp [hproperty]

lemma ruleOf?_isSome_iff : (ruleOf? table base).isSome ↔ IsKnown table base := by
  rw [ruleOf?, Option.isSome_or, Option.isSome_or, Bool.or_eq_true, Bool.or_eq_true,
    Scale.declaration?_isSome_iff, Arbitrary.declaration?_isSome_iff, IsKnown]

/-- A known base does not end with a mark of importance, and a slash in it is not the one of an
opacity. -/
lemma IsKnown.ends (h : IsKnown table base) (htable : table.isNamed) :
    base.getLast? ≠ some '!'
      ∧ ∀ x digits, base = x ++ '/' :: digits → ¬(digits ≠ [] ∧ digits.all Char.isDigit) := by
  -- a base that has neither sign at all
  have hplain (hmark : '!' ∉ base) (hslash : '/' ∉ base) : base.getLast? ≠ some '!'
      ∧ ∀ x digits, base = x ++ '/' :: digits → ¬(digits ≠ [] ∧ digits.all Char.isDigit) :=
    ⟨fun heq => hmark (List.mem_of_getLast? heq),
      fun x digits heq => absurd (heq ▸ by simp) hslash⟩
  rcases h with h | ⟨negative, name, digits, property, rfl, hproperty, -, hdigits, -, -⟩
      | ⟨name, value, rfl, -, -⟩
  · obtain ⟨d, hd⟩ := Option.isSome_iff_exists.mp h
    obtain ⟨rows, rows', rfl, -⟩ := List.lookup_eq_some_iff.mp hd
    have hname : isName base := by
      simpa using List.all_eq_true.mp htable (String.ofList base, d) (by simp)
    exact hplain (fun hc => absurd (isAlphanum_or_of_isName hname hc) (by decide))
      (fun hc => absurd (isAlphanum_or_of_isName hname hc) (by decide))
  · have hnames : Scale.names.all fun row => '!' ∉ row.1.toList ∧ '/' ∉ row.1.toList := by
      decide +kernel
    obtain ⟨rows, rows', hrows, -⟩ := List.lookup_eq_some_iff.mp hproperty
    have hname : '!' ∉ name ∧ '/' ∉ name := by
      rw [hrows] at hnames
      simpa using List.all_eq_true.mp hnames (String.ofList name, property) (by simp)
    have hstep {c : Char} (hc : ¬c.isDigit) : c ∉ digits := fun h =>
      hc (List.all_eq_true.mp hdigits c h)
    refine hplain ?_ ?_
    · cases negative <;> simp [hname.1, hstep (c := '!') (by decide)]
    · cases negative <;> simp [hname.2, hstep (c := '/') (by decide)]
  · have hlast : (name ++ ("-[".toList ++ (value ++ [']']))).getLast? = some ']' := by
      rw [← List.append_assoc, ← List.append_assoc, List.getLast?_concat]
    refine ⟨by rw [hlast]; decide, ?_⟩
    rintro x digits heq ⟨hne, hdigits⟩
    rw [heq, List.getLast?_append, List.getLast?_cons, Option.some_or,
      List.getLast?_eq_some_getLast hne, Option.getD_some, Option.some_inj] at hlast
    have hdigit := List.all_eq_true.mp hdigits _ (List.getLast_mem hne)
    rw [hlast] at hdigit
    exact absurd hdigit (by decide)

/-! ### Readings -/

/-- How many brackets are open behind a text if some are open before it. A closing bracket without
an opening one changes nothing. -/
def openBrackets (depth : Nat) (t : Text) : Nat :=
  t.foldl (fun depth c => if c = '[' then depth + 1 else if c = ']' then depth - 1 else depth) depth

/-- Every colon stands in brackets, some being open before the text. -/
def HoldsColons (depth : Nat) (t : Text) : Prop :=
  ∀ before behind, t = before ++ ':' :: behind → 0 < openBrackets depth before

/-- A class token taken apart. -/
structure Reading where
  breakpoint : Option Breakpoint
  important : Bool
  base : Text
  /-- The digits behind the slash. -/
  opacity : Option Text
  deriving DecidableEq, Repr

/-- The variants of a breakpoint: its name, or none. -/
def variantsOf (b : Option Breakpoint) : List Text := b.toList.map fun b => b.name.toList

namespace Reading

/-- A token without its opacity. -/
def faceText (r : Reading) : Text :=
  front (variantsOf r.breakpoint) ++ (mark r.important ++ r.base)

/-- A token as it is written. -/
def text (r : Reading) : Text := r.faceText ++ opacityText r.opacity

/-- The base stands for something, does not begin with a mark of importance and holds its colons in
brackets. The digits of an opacity are those of a known step. -/
structure IsProper (table : Table) (r : Reading) : Prop where
  ne_nil : r.base ≠ []
  unmarked : r.base.head? ≠ some '!'
  holdsColons : HoldsColons 0 r.base
  known : IsKnown table r.base
  opacity : ∀ digits ∈ r.opacity, digits ≠ [] ∧ digits.all Char.isDigit
    ∧ Number.ofDigits digits ∈ Table.opacitySteps

/-- The style of a token: what its base stands for, with the breakpoint and the importance. -/
def style? (table : Table) (r : Reading) : Option Style :=
  (ruleOf? table r.base).map fun d => ⟨d.property, d.value, r.breakpoint, r.important⟩

end Reading

/-! ### The parts that the splitters find -/

/-- A character before a text stays alone with it exactly if the text stays whole. -/
lemma cons_parts_eq_singleton_iff {parts : List Text} : parts ≠ [] →
    ((match parts with
      | [] => [[c]]
      | part :: parts => (c :: part) :: parts) = [c :: t] ↔ parts = [t]) := by
  intro hparts
  obtain ⟨p, ps, rfl⟩ := List.exists_cons_of_ne_nil hparts
  simp

/-- A text is not split exactly if it holds its colons in brackets. -/
lemma splitColons_eq_singleton_iff : splitColons depth t = [t] ↔ HoldsColons depth t := by
  induction t generalizing depth with
  | nil => simp [splitColons, HoldsColons]
  | cons c t ih =>
      rw [splitColons]
      split
      · next hc =>
          refine iff_of_false ?_ fun h => ?_
          · obtain ⟨p, ps, hps⟩ := List.exists_cons_of_ne_nil (Token.splitColons_ne_nil depth t)
            simp [hps]
          · have hzero := h [] t (by rw [hc.1]; rfl)
            rw [openBrackets, List.foldl_nil, hc.2] at hzero
            exact absurd hzero (Nat.lt_irrefl 0)
      · next hc =>
          refine ((cons_parts_eq_singleton_iff (Token.splitColons_ne_nil _ t)).trans ih).trans ?_
          constructor
          · intro h before behind heq
            cases before with
            | nil =>
                obtain ⟨rfl, rfl⟩ := List.cons_eq_cons.mp heq
                exact Nat.pos_of_ne_zero fun hzero => hc ⟨rfl, hzero⟩
            | cons d before =>
                obtain ⟨rfl, rfl⟩ := List.cons_eq_cons.mp heq
                exact h before behind rfl
          · rintro h before behind rfl
            exact h (c :: before) behind rfl

/-- A colon behind what has neither colons nor brackets splits a text. -/
lemma splitColons_append_colon (hv : isPlain v) (u : Text) :
    splitColons 0 (v ++ ':' :: u) = v :: splitColons 0 u := by
  induction v with
  | nil => simp [splitColons]
  | cons c v ih =>
      rw [isPlain, List.all_cons, Bool.and_eq_true] at hv
      have hc : c ≠ ':' ∧ c ≠ '[' ∧ c ≠ ']' := by simpa [and_assoc] using hv.1
      rw [List.cons_append, splitColons, if_neg (by simp [hc.1])]
      simp only [hc.2.1, hc.2.2, if_false, ih hv.2]

lemma isPlain_name (b : Breakpoint) : isPlain b.name.toList := by cases b <;> decide

lemma breakpointOf?_variantsOf (b : Option Breakpoint) : breakpointOf? (variantsOf b) = some b := by
  rcases b with _ | b
  · rfl
  · cases b <;> decide

lemma eq_variantsOf {variants : List Text} (h : breakpointOf? variants = some b) :
    variants = variantsOf b := by
  unfold breakpointOf? at h
  split at h
  · obtain rfl := Option.some.inj h
    rfl
  · next v =>
      obtain ⟨b, hb, rfl⟩ := Option.map_eq_some_iff.mp h
      have hname : b.name = String.ofList v := by simpa using List.find?_some hb
      simp [variantsOf, hname]
  · cases h

/-- The variants before a base that holds its colons in brackets are found. -/
lemma splitVariants_front (b : Option Breakpoint) (h : HoldsColons 0 u) :
    splitVariants (front (variantsOf b) ++ u) = (variantsOf b, u) := by
  have hu := splitColons_eq_singleton_iff.mpr h
  cases b with
  | none => simp [variantsOf, front, splitVariants, hu]
  | some b =>
      have hfront : front (variantsOf (some b)) ++ u = b.name.toList ++ ':' :: u := by
        simp [variantsOf, front]
      rw [hfront, splitVariants, splitColons_append_colon (isPlain_name b), hu]
      rfl

/-- A base holds its colons in brackets if a breakpoint, or none, is found before it. -/
lemma holdsColons_of_breakpointOf? (h : breakpointOf? (splitVariants t).1 = some b) :
    HoldsColons 0 (splitVariants t).2 := by
  obtain ⟨p, ps, hps⟩ := List.exists_cons_of_ne_nil (Token.splitColons_ne_nil 0 t)
  have htext := Token.eq_of_splitColons 0 t
  rw [← splitColons_eq_singleton_iff]
  simp only [splitVariants, hps] at h htext ⊢
  have hvariants := eq_variantsOf h
  cases ps with
  | nil =>
      obtain rfl : p = t := by simpa [front] using htext
      exact hps
  | cons q qs =>
      cases b with
      | none => simp [variantsOf] at hvariants
      | some b =>
          obtain ⟨rfl, rfl⟩ : p = b.name.toList ∧ qs = [] := by
            cases qs <;> simp_all [variantsOf]
          have ht : t = b.name.toList ++ ':' :: q := by simpa [front] using htext.symm
          rw [ht, splitColons_append_colon (isPlain_name b), List.cons_eq_cons] at hps
          exact hps.2

/-- A mark of importance does not change how a base holds its colons. -/
lemma holdsColons_mark (important : Bool) (base : Text) :
    HoldsColons 0 (mark important ++ base) ↔ HoldsColons 0 base := by
  cases important with
  | false => rfl
  | true =>
      rw [← splitColons_eq_singleton_iff, ← splitColons_eq_singleton_iff]
      exact cons_parts_eq_singleton_iff (Token.splitColons_ne_nil 0 base)

lemma splitImportant_mark (important : Bool) (h : base.head? ≠ some '!') :
    splitImportant (mark important ++ base) = (important, base) := by
  cases important with
  | true => rfl
  | false =>
      rw [mark, if_neg Bool.false_ne_true, List.nil_append]
      unfold splitImportant
      split
      · exact absurd rfl h
      · rfl

/-- What is left of a token without its opacity. -/
lemma withoutOpacity?_eq_some_iff : withoutOpacity? t = some u
    ↔ ∃ opacity : Option Text, splitOpacity? t = opacity.map (u, ·) ∧ t = u ++ opacityText opacity
      ∧ ∀ digits ∈ opacity, Number.ofDigits digits ∈ Table.opacitySteps := by
  rw [withoutOpacity?]
  cases hsplit : splitOpacity? t with
  | none =>
      constructor
      · intro h
        obtain rfl := Option.some.inj h
        exact ⟨none, rfl, by simp [opacityText], by simp⟩
      · rintro ⟨_ | digits, hnone, htext, -⟩
        · simpa [opacityText] using htext
        · cases hnone
  | some r =>
      obtain ⟨before, digits⟩ := r
      obtain ⟨rfl, -, hparts⟩ := Token.splitOpacity?_eq_some_iff.mp hsplit
      constructor
      · intro h
        simp only at h
        split at h
        next hstep =>
          obtain rfl := Option.some.inj h
          exact ⟨some digits, rfl, rfl, by simpa using hstep⟩
        · cases h
      · rintro ⟨_ | digits', hsome, -, hstep⟩
        · cases hsome
        · obtain ⟨rfl, rfl⟩ := Prod.mk.inj (Option.some.inj hsome)
          exact if_pos (hstep digits rfl)

/-! ### The reading of a token -/

namespace Reading

variable {r r' : Reading}

/-- No opacity stands at the end of a token without its own. -/
lemma IsProper.faceText_ends (h : r.IsProper table) (htable : table.isNamed) {x : Text}
    (hface : r.faceText = x ++ '/' :: digits) : ¬(digits ≠ [] ∧ digits.all Char.isDigit) := by
  -- the slash is not in front of the base
  have hslash : '/' ∉ front (variantsOf r.breakpoint) ++ mark r.important := by
    rcases r.breakpoint with _ | b
    · cases r.important <;> decide
    · cases b <;> cases r.important <;> decide
  rw [faceText, ← List.append_assoc, List.append_eq_append_iff] at hface
  rcases hface with ⟨y, -, hbase⟩ | ⟨y, hfront, hrest⟩
  · exact (h.known.ends htable).2 y digits hbase
  · cases y with
    | nil => exact (h.known.ends htable).2 [] digits (by simpa using hrest.symm)
    | cons c y =>
        obtain ⟨rfl, -⟩ := List.cons_eq_cons.mp hrest
        exact absurd (by simp [hfront]) hslash

/-- The opacity of a proper reading is the one that is found. -/
lemma IsProper.splitOpacity?_text (h : r.IsProper table) (htable : table.isNamed) :
    splitOpacity? r.text = r.opacity.map (r.faceText, ·) := by
  rw [text]
  cases ho : r.opacity with
  | none =>
      rw [opacityText, Option.map_none, Option.getD_none, List.append_nil, Option.map_none,
        Option.eq_none_iff_forall_ne_some]
      rintro ⟨before, digits⟩ hsome
      obtain ⟨htext, -, hdigits⟩ := Token.splitOpacity?_eq_some_iff.mp hsome
      exact h.faceText_ends htable htext hdigits
  | some digits =>
      obtain ⟨hne, hdigits, -⟩ := h.opacity digits ho
      have hface : r.faceText ≠ [] := by simp [faceText, h.ne_nil]
      exact Token.splitOpacity?_eq_some_iff.mpr ⟨rfl, hface, hne, hdigits⟩

lemma IsProper.withoutOpacity?_text (h : r.IsProper table) (htable : table.isNamed) :
    withoutOpacity? r.text = some r.faceText :=
  withoutOpacity?_eq_some_iff.mpr ⟨r.opacity, h.splitOpacity?_text htable, rfl,
    fun digits hdigits => (h.opacity digits hdigits).2.2⟩

lemma IsProper.splitVariants_faceText (h : r.IsProper table) :
    splitVariants r.faceText = (variantsOf r.breakpoint, mark r.important ++ r.base) :=
  splitVariants_front r.breakpoint ((holdsColons_mark r.important r.base).mpr h.holdsColons)

/-- The opacity does not change the variants that are found. -/
lemma IsProper.splitVariants_text (h : r.IsProper table) :
    (splitVariants r.text).1 = variantsOf r.breakpoint := by
  have hplain : isPlain (opacityText r.opacity) := by
    cases ho : r.opacity with
    | none => rfl
    | some digits => exact isPlain_opacityText (h.opacity digits ho).2.1
  rw [text, Token.splitVariants_append _ hplain, h.splitVariants_faceText]

/-- **A token has one proper reading at most.** -/
theorem eq_of_text_eq (htable : table.isNamed) (h : r.IsProper table) (h' : r'.IsProper table)
    (htext : r.text = r'.text) : r = r' := by
  have hopacity : r.opacity.map (r.faceText, ·) = r'.opacity.map (r'.faceText, ·) := by
    rw [← h.splitOpacity?_text htable, htext, h'.splitOpacity?_text htable]
  have hface : r.faceText = r'.faceText := by
    have hwithout := h.withoutOpacity?_text htable
    rw [htext, h'.withoutOpacity?_text htable] at hwithout
    exact (Option.some.inj hwithout).symm
  have hvariants := h.splitVariants_faceText
  rw [hface, h'.splitVariants_faceText, Prod.mk.injEq] at hvariants
  have hbreakpoint := breakpointOf?_variantsOf r.breakpoint
  rw [← hvariants.1, breakpointOf?_variantsOf, Option.some_inj] at hbreakpoint
  have hbase := splitImportant_mark r.important h.unmarked
  rw [← hvariants.2, splitImportant_mark r'.important h'.unmarked, Prod.mk.injEq] at hbase
  have hdigits : r.opacity = r'.opacity := by
    rw [hface] at hopacity
    exact Option.map_injective (fun d d' hpair => (Prod.mk.inj hpair).2) hopacity
  cases r
  cases r'
  simp only at hbreakpoint hbase hdigits
  rw [hbreakpoint, hbase.1, hbase.2, hdigits]

end Reading

/-- **A token has a style exactly if it has a proper reading**, whose style it then is. -/
theorem resolve?_eq_some_iff (htable : table.isNamed) : resolve? table t = some s
    ↔ ∃ r : Reading, r.text = t ∧ r.IsProper table ∧ r.style? table = some s := by
  constructor
  · intro h
    obtain ⟨face, hface, h⟩ := Option.bind_eq_some_iff.mp h
    simp only at h
    obtain ⟨breakpoint, hbreakpoint, h⟩ := Option.bind_eq_some_iff.mp h
    split at h
    · cases h
    next hbase =>
    obtain ⟨hne, hhead⟩ := not_or.mp hbase
    obtain ⟨d, hd, h⟩ := Option.bind_eq_some_iff.mp h
    obtain rfl := Option.some.inj h
    obtain ⟨opacity, hsplit, htext, hstep⟩ := withoutOpacity?_eq_some_iff.mp hface
    have hmark := eq_of_splitImportant (splitVariants face).2
    have hholds := holdsColons_of_breakpointOf? hbreakpoint
    rw [hmark, holdsColons_mark] at hholds
    rw [baseDeclaration?_eq] at hd
    refine ⟨⟨breakpoint, (splitImportant (splitVariants face).2).1,
      (splitImportant (splitVariants face).2).2, opacity⟩, ?_,
      ⟨hne, hhead, hholds, ?_, fun digits hdigits => ?_⟩, ?_⟩
    · have hsplit : front (splitVariants face).1 ++ (splitVariants face).2 = face :=
        (Token.eq_of_splitVariants rfl).symm
      rw [Reading.text, Reading.faceText, ← hmark, ← eq_variantsOf hbreakpoint, hsplit, htext]
    · exact ruleOf?_isSome_iff.mp (by rw [hd]; rfl)
    · obtain rfl := Option.mem_def.mp hdigits
      obtain ⟨-, -, hdigits'⟩ := Token.splitOpacity?_eq_some_iff.mp hsplit
      exact ⟨hdigits'.1, hdigits'.2, hstep digits rfl⟩
    · rw [Reading.style?, hd]
      rfl
  · rintro ⟨r, rfl, hr, hstyle⟩
    obtain ⟨d, hd, rfl⟩ := Option.map_eq_some_iff.mp hstyle
    have hbase : ¬(r.base = [] ∨ r.base.head? = some '!') := not_or.mpr ⟨hr.ne_nil, hr.unmarked⟩
    simp only [resolve?, hr.withoutOpacity?_text htable, hr.splitVariants_faceText,
      breakpointOf?_variantsOf, splitImportant_mark _ hr.unmarked, baseDeclaration?_eq, hd,
      Option.bind_eq_bind, Option.bind_some, if_neg hbase]

/-! ### Modifiers out of place -/

lemma splitVariants_append_colon (hv : isPlain v) (u : Text) :
    (splitVariants (v ++ ':' :: u)).1 = v :: (splitVariants u).1 := by
  obtain ⟨p, ps, hps⟩ := List.exists_cons_of_ne_nil (Token.splitColons_ne_nil 0 u)
  simp [splitVariants, splitColons_append_colon hv, hps]

namespace Reading

variable {r : Reading}

/-- What a proper reading has behind its breakpoint begins with one mark of importance at most. -/
lemma IsProper.marked_ne (h : r.IsProper table) (u v : Text) :
    mark r.important ++ r.base ++ v ≠ '!' :: '!' :: u := by
  obtain ⟨c, x, hbase⟩ := List.exists_cons_of_ne_nil h.ne_nil
  have hc : c ≠ '!' := by
    rintro rfl
    exact h.unmarked (by rw [hbase]; rfl)
  cases r.important <;> simp [mark, hbase, hc]

/-- Two marks of importance are not read. -/
lemma IsProper.text_ne_marks (h : r.IsProper table) (b : Option Breakpoint) (u : Text) :
    r.text ≠ front (variantsOf b) ++ '!' :: '!' :: u := by
  intro htext
  have hmarked := h.marked_ne u (opacityText r.opacity)
  have hvariants := h.splitVariants_text
  rw [text, faceText] at htext
  cases b with
  | none =>
      cases hb : r.breakpoint with
      | none => exact hmarked (by simpa [hb, variantsOf, front] using htext)
      | some b => cases b <;> simp [hb, variantsOf, front, Breakpoint.name] at htext
  | some b =>
      have hfront : front (variantsOf (some b)) ++ '!' :: '!' :: u
          = b.name.toList ++ ':' :: '!' :: '!' :: u := by
        simp [variantsOf, front]
      rw [text, faceText, htext, hfront, splitVariants_append_colon (isPlain_name b)] at hvariants
      cases hb : r.breakpoint with
      | none => simp [hb, variantsOf] at hvariants
      | some b' =>
          have hname : b.name.toList = b'.name.toList := by
            simpa [hb, variantsOf] using congrArg List.head? hvariants
          exact hmarked (by simpa [hb, variantsOf, front, hname] using htext)

/-- A mark of importance at the end is not read. -/
lemma IsProper.text_ne_concat_mark (h : r.IsProper table) (htable : table.isNamed) (u : Text) :
    r.text ≠ u ++ ['!'] := by
  intro htext
  have hlast : r.text.getLast? = some '!' := by rw [htext, List.getLast?_concat]
  rw [text] at hlast
  cases ho : r.opacity with
  | none =>
      rw [ho, opacityText, Option.map_none, Option.getD_none, List.append_nil, faceText,
        List.getLast?_append_of_ne_nil _ (by simp [h.ne_nil]),
        List.getLast?_append_of_ne_nil _ h.ne_nil] at hlast
      exact (h.known.ends htable).1 hlast
  | some digits =>
      obtain ⟨hne, hdigits, -⟩ := h.opacity digits ho
      rw [ho, opacityText, Option.map_some, Option.getD_some, List.getLast?_append_of_ne_nil _
        (List.cons_ne_nil _ _), List.getLast?_cons, List.getLast?_eq_some_getLast hne,
        Option.getD_some, Option.some_inj] at hlast
      have hdigit := List.all_eq_true.mp hdigits _ (List.getLast_mem hne)
      rw [hlast] at hdigit
      exact absurd hdigit (by decide)

/-- Two opacities are not read. -/
lemma IsProper.text_ne_opacities (h : r.IsProper table) (htable : table.isNamed) (u : Text)
    {digits' : Text} (hdigits : digits ≠ [] ∧ digits.all Char.isDigit)
    (hdigits' : digits' ≠ [] ∧ digits'.all Char.isDigit) :
    r.text ≠ u ++ '/' :: digits ++ '/' :: digits' := by
  intro htext
  have hopacity := h.splitOpacity?_text htable
  rw [Token.splitOpacity?_eq_some_iff.mpr ⟨htext, by simp, hdigits'⟩, eq_comm,
    Option.map_eq_some_iff] at hopacity
  obtain ⟨x, -, hx⟩ := hopacity
  exact h.faceText_ends htable (Prod.mk.inj hx).1 hdigits

end Reading

/-- **The grammar of the standard classes.** A token has a style exactly if it has a proper reading,
which is then the only one and has that style. No style has a token that begins with something else
than one breakpoint and a colon, whose base is marked twice or at its end, or with two opacities. -/
theorem resolve?_standard :
    (∀ t s, resolve? .standard t = some s
      ↔ ∃ r : Reading, r.text = t ∧ r.IsProper .standard ∧ r.style? .standard = some s)
      ∧ (∀ t, {r : Reading | r.text = t ∧ r.IsProper .standard}.Subsingleton)
      ∧ (∀ v u, isPlain v → Breakpoint.ofName? (String.ofList v) = none →
        resolve? .standard (v ++ ':' :: u) = none)
      ∧ (∀ v v' u, isPlain v → isPlain v' →
        resolve? .standard (v ++ ':' :: (v' ++ ':' :: u)) = none)
      ∧ (∀ b u, resolve? .standard (front (variantsOf b) ++ '!' :: '!' :: u) = none)
      ∧ (∀ u, resolve? .standard (u ++ ['!']) = none)
      ∧ ∀ u digits digits', digits ≠ [] ∧ digits.all Char.isDigit →
        digits' ≠ [] ∧ digits'.all Char.isDigit →
        resolve? .standard (u ++ '/' :: digits ++ '/' :: digits') = none := by
  have htable := Table.isNamed_standard
  -- a text that no proper reading has, or whose variants are no breakpoint
  have hreading {t : Text} (h : ∀ r : Reading, r.IsProper .standard → r.text ≠ t) :
      resolve? .standard t = none := by
    rw [Option.eq_none_iff_forall_ne_some]
    intro s hs
    obtain ⟨r, htext, hr, -⟩ := (resolve?_eq_some_iff htable).mp hs
    exact h r hr htext
  have hvariants {t : Text} (h : breakpointOf? (splitVariants t).1 = none) :
      resolve? .standard t = none := by
    refine hreading fun r hr htext => ?_
    rw [← htext, hr.splitVariants_text, breakpointOf?_variantsOf] at h
    cases h
  refine ⟨fun t s => resolve?_eq_some_iff htable, ?_, ?_, ?_, ?_, ?_, ?_⟩
  · rintro t r ⟨htext, hr⟩ r' ⟨htext', hr'⟩
    exact Reading.eq_of_text_eq htable hr hr' (htext.trans htext'.symm)
  · intro v u hv hname
    refine hvariants ?_
    rw [splitVariants_append_colon hv]
    cases (splitVariants u).1 <;> simp [breakpointOf?, hname]
  · intro v v' u hv hv'
    refine hvariants ?_
    rw [splitVariants_append_colon hv, splitVariants_append_colon hv']
    rfl
  · exact fun b u => hreading fun r hr => hr.text_ne_marks b u
  · exact fun u => hreading fun r hr => hr.text_ne_concat_mark htable u
  · exact fun u digits digits' hdigits hdigits' =>
      hreading fun r hr => hr.text_ne_opacities htable u hdigits hdigits'

/-- A slash and a colon in brackets with all modifiers around them, and modifiers out of place. -/
theorem resolve?_standard_cardWidth :
    resolve? .standard "md:!w-[a/b:c]/050".toList = some ⟨"width", "a/b:c", some .medium, true⟩
      ∧ resolve? .standard "hover:p-4".toList = none
      ∧ resolve? .standard "md:lg:p-4".toList = none
      ∧ resolve? .standard "md:!!p-4".toList = none
      ∧ resolve? .standard "p-4/50/50".toList = none := by
  have hproper : Reading.IsProper .standard
      ⟨some .medium, true, "w-[a/b:c]".toList, some "050".toList⟩ :=
    { ne_nil := by decide
      unmarked := by decide
      holdsColons := splitColons_eq_singleton_iff.mp (by decide)
      known := .inr (.inr ⟨['w'], "a/b:c".toList, by decide, by decide, by decide⟩)
      opacity := by
        intro digits hdigits
        obtain rfl := Option.some.inj hdigits
        decide }
  obtain ⟨hreading, -, hother, htwice, hmarks, -, hopacities⟩ := resolve?_standard
  exact ⟨(hreading _ _).mpr ⟨_, by decide, hproper, by decide +kernel⟩,
    hother "hover".toList "p-4".toList (by decide) (by decide),
    htwice "md".toList "lg".toList "p-4".toList (by decide) (by decide),
    hmarks (some .medium) "p-4".toList,
    hopacities "p-4".toList "50".toList "50".toList (by decide) (by decide)⟩

end CanvasSync.Utility
