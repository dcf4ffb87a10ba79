import CanvasSync.Proofs.Utility.Names
import CanvasSync.Proofs.Utility.Parts
import CanvasSync.Proofs.Utility.Registrations

/-!
Whatever has a style is valid.

The style of a token and the verdict on it are worked out in different orders: the one takes the
opacity off first, the other last, and they try fixed classes, the scale and arbitrary values in
another order. Still they agree on what counts as known.

* `get?_ofTable_isSome_iff`, `responsive_of_get?_ofTable`: what the catalogue of a table lists;
* `trim_of_resolve?`: a token that has a style has no blanks around it;
* `check_of_resolve?`: a token that has a style is valid in the catalogue of the table;
* `check_standard_of_resolve?`: so are all tokens, and all class strings, of the standard table.
-/

namespace CanvasSync.Utility

variable {table : Table} {t base : Text} {s : Style} {n : String}

/-! ### The catalogue of a table -/

namespace Catalog

/-- Whether every class of a catalogue may stand behind a breakpoint. -/
def IsResponsive (c : Catalog) : Prop := ∀ n e, c.get? n = some e → e.responsive = true

/-- The entries of some rows, added to a catalogue one by one. -/
def addAll (rows : Table) (c : Catalog) : Catalog :=
  rows.foldl (fun c row => c.register (Entry.ofDeclaration row.1 row.2)) c

lemma get?_addAll_isSome_iff {rows : Table} {c : Catalog} :
    ((c.addAll rows).get? n).isSome ↔ (c.get? n).isSome ∨ n ∈ rows.map Prod.fst := by
  induction rows generalizing c with
  | nil => simp [addAll]
  | cons r rs ih =>
      have hstep : c.addAll (r :: rs) = (c.register (Entry.ofDeclaration r.1 r.2)).addAll rs := rfl
      have hname : (Entry.ofDeclaration r.1 r.2).name = r.1 := rfl
      rw [hstep, ih, get?_register, hname, List.map_cons, List.mem_cons]
      by_cases h : r.1 = n
      · simp [h]
      · simp [h, Ne.symm h]

lemma IsResponsive.addAll {rows : Table} {c : Catalog} (hc : c.IsResponsive) :
    (c.addAll rows).IsResponsive := by
  induction rows generalizing c with
  | nil => exact hc
  | cons r rs ih =>
      refine ih fun n e he => ?_
      rw [get?_register] at he
      split at he
      · obtain rfl := Option.some.inj he
        rfl
      · exact hc n e he

lemma ofTable_eq (table : Table) : ofTable table = empty.addAll (table ++ table.scaleEntries) := rfl

/-- A fixed class is listed in the catalogue of its table. -/
lemma get?_ofTable_isSome {d : Declaration} (h : table.get? t = some d) :
    ((ofTable table).get? (String.ofList t)).isSome := by
  rw [ofTable_eq, get?_addAll_isSome_iff, List.map_append, List.mem_append]
  obtain ⟨rows, rows', rfl, -⟩ := List.lookup_eq_some_iff.mp h
  simp

/-- Every class of the catalogue of a table may stand behind a breakpoint. -/
lemma isResponsive_ofTable (table : Table) : (ofTable table).IsResponsive := by
  rw [ofTable_eq]
  exact IsResponsive.addAll fun n e he => by simp [empty, get?] at he

/-- Breakpoints are no fault of a class that may stand behind them. -/
lemma checkVariants_of_breakpointOf? {variants : List Text} {breakpoint : Option Breakpoint}
    (h : breakpointOf? variants = some breakpoint) (name : String) {entry : Option Entry}
    (hentry : ∀ e ∈ entry, e.responsive = true) : checkVariants name entry variants = .valid := by
  unfold breakpointOf? at h
  split at h
  · rfl
  · next v =>
      obtain ⟨b, hb, -⟩ := Option.map_eq_some_iff.mp h
      have hsome : (Breakpoint.ofName? (String.ofList v)).isSome := by simp [hb]
      cases entry with
      | none => simp [checkVariants, isKnownVariant, hsome]
      | some e => simp [checkVariants, Entry.supports?, hsome, hentry e rfl]
  · cases h

end Catalog

/-! ### The ends of a token -/

lemma isBlank_of_isSmallLetter {c : Char} (h : Scale.isSmallLetter c) : isBlank c = false := by
  simp only [Scale.isSmallLetter, Bool.and_eq_true, decide_eq_true_eq, Char.le_def,
    UInt32.le_iff_toNat_le] at h
  simp only [isBlank, Char.toNat, Bool.or_eq_false_iff, Bool.and_eq_false_iff,
    decide_eq_false_iff_not]
  have ha : 'a'.val.toNat = 97 := rfl
  have hz : 'z'.val.toNat = 122 := rfl
  omega

lemma endsSolid_of_digits (t : Text) {digits : Text} (hne : digits ≠ [])
    (hdigits : digits.all Char.isDigit) : Text.endsSolid (t ++ digits) := by
  refine Text.endsSolid_append t ?_
  obtain ⟨ds, c, rfl⟩ := (List.eq_nil_or_concat digits).resolve_left hne
  have hc : c.isDigit := List.all_eq_true.mp hdigits c (by simp)
  simp [Text.endsSolid, Text.isBlank_of_isDigit hc]

namespace Table

/-- Whether the names of all fixed classes have solid ends. -/
def isSolid (table : Table) : Bool :=
  table.all fun row => Text.beginsSolid row.1.toList && Text.endsSolid row.1.toList

/-- Fixed classes that are listed under names are listed under texts with solid ends. -/
lemma isSolid_of_isNamed (h : table.isNamed) : table.isSolid := by
  refine List.all_eq_true.mpr fun row hrow => ?_
  rw [Bool.and_eq_true]
  exact solid_of_isName (List.all_eq_true.mp h row hrow)

lemma isSolid_standard : standard.isSolid := isSolid_of_isNamed isNamed_standard

end Table

/-- What stands behind the sign of a token is split into a name of small letters and the step that
its digits make. -/
lemma Scale.unsigned_eq_some_iff {sign negative : Bool} {t name : Text} {step : Nat} :
    (match t.dropWhile Scale.isSmallLetter with
      | '-' :: digits =>
        if t.takeWhile Scale.isSmallLetter ≠ [] ∧ digits ≠ [] ∧ digits.all Char.isDigit
            ∧ Number.ofDigits digits ≤ Scale.maxStep then
          some (sign, t.takeWhile Scale.isSmallLetter, Number.ofDigits digits)
        else none
      | _ => none) = some (negative, name, step)
      ↔ sign = negative ∧ ∃ digits, t = name ++ '-' :: digits
        ∧ name ≠ [] ∧ name.all Scale.isSmallLetter ∧ digits ≠ [] ∧ digits.all Char.isDigit
        ∧ Number.ofDigits digits ≤ Scale.maxStep ∧ step = Number.ofDigits digits := by
  constructor
  · intro h
    split at h
    · next digits hrest =>
        split at h
        · next hparts =>
            obtain ⟨hname, hne, hdigits, hstep⟩ := hparts
            simp only [Option.some.injEq, Prod.mk.injEq] at h
            obtain ⟨rfl, rfl, rfl⟩ := h
            refine ⟨rfl, digits, ?_, hname, List.all_takeWhile, hne, hdigits, hstep, rfl⟩
            rw [← hrest, List.takeWhile_append_dropWhile]
        · cases h
    · cases h
  · rintro ⟨rfl, digits, rfl, hname, hletters, hne, hdigits, hstep, rfl⟩
    have hletter : ∀ c ∈ name, Scale.isSmallLetter c := List.all_eq_true.mp hletters
    have hhyphen : ¬Scale.isSmallLetter '-' := by decide
    rw [List.dropWhile_append_of_pos hletter, List.takeWhile_append_of_pos hletter,
      List.dropWhile_cons_of_neg hhyphen, List.takeWhile_cons_of_neg hhyphen, List.append_nil]
    exact if_pos ⟨hname, hne, hdigits, hstep⟩

/-- A token is split into a sign, a name of small letters and the step that its digits make. -/
lemma Scale.split?_eq_some_iff {negative : Bool} {name : Text} {step : Nat} :
    Scale.split? base = some (negative, name, step)
      ↔ ∃ digits, base = (if negative then ['-'] else []) ++ (name ++ '-' :: digits)
        ∧ name ≠ [] ∧ name.all Scale.isSmallLetter ∧ digits ≠ [] ∧ digits.all Char.isDigit
        ∧ Number.ofDigits digits ≤ Scale.maxStep ∧ step = Number.ofDigits digits := by
  unfold Scale.split?
  split
  next sign t hsign =>
  refine Scale.unsigned_eq_some_iff.trans ?_
  constructor
  · rintro ⟨rfl, digits, htext, hparts⟩
    refine ⟨digits, ?_, hparts⟩
    split at hsign
    · obtain ⟨rfl, rfl⟩ := Prod.mk.inj hsign
      rw [htext]
      rfl
    · obtain ⟨rfl, rfl⟩ := Prod.mk.inj hsign
      simpa using htext
  · rintro ⟨digits, rfl, hname, hletters, hparts⟩
    have hpair : (negative, name ++ '-' :: digits) = (sign, t) := by
      rw [← hsign]
      cases negative with
      | true => rfl
      | false =>
          obtain ⟨c, name, rfl⟩ := List.exists_cons_of_ne_nil hname
          have hc : c ≠ '-' := by
            rintro rfl
            exact absurd hletters (by simp [Scale.isSmallLetter])
          rw [if_neg Bool.false_ne_true, List.nil_append, List.cons_append]
          split
          · next heq => exact absurd (List.cons_eq_cons.mp heq).1 hc
          · rfl
    obtain ⟨rfl, rfl⟩ := Prod.mk.inj hpair
    exact ⟨rfl, digits, rfl, hname, hletters, hparts⟩

/-- A token of the scale begins with a hyphen or a small letter and ends with a digit. -/
lemma solid_of_scale {d : Declaration} (h : Scale.declaration? base = some d) :
    Text.beginsSolid base ∧ Text.endsSolid base := by
  obtain ⟨⟨negative, name, step⟩, hsplit, -⟩ := Option.bind_eq_some_iff.mp h
  obtain ⟨digits, rfl, hname, hletters, hne, hdigits, -⟩ := Scale.split?_eq_some_iff.mp hsplit
  refine ⟨?_, ?_⟩
  · obtain ⟨c, name, rfl⟩ := List.exists_cons_of_ne_nil hname
    have hc : Scale.isSmallLetter c := List.all_eq_true.mp hletters c List.mem_cons_self
    cases negative
    · simp [Text.beginsSolid, isBlank_of_isSmallLetter hc]
    · rfl
  · exact Text.endsSolid_append _ (Text.endsSolid_append name (endsSolid_of_digits ['-'] hne hdigits))

/-- A value in brackets stands behind a name that takes one. -/
lemma exists_splitArbitrary? {d : Declaration} (h : Arbitrary.declaration? base = some d) :
    ∃ name value, Token.splitArbitrary? base = some (name, value) ∧ Arbitrary.accepts name := by
  obtain ⟨⟨name, value⟩, hsplit, h⟩ := Option.bind_eq_some_iff.mp h
  obtain ⟨property, hproperty, -⟩ := Option.bind_eq_some_iff.mp h
  exact ⟨name, value, hsplit, by simp [Arbitrary.accepts, hproperty]⟩

/-- A token with a value in brackets begins like its name and ends with a bracket. -/
lemma solid_of_arbitrary {d : Declaration} (h : Arbitrary.declaration? base = some d) :
    Text.beginsSolid base ∧ Text.endsSolid base := by
  obtain ⟨name, value, hsplit, haccepts⟩ := exists_splitArbitrary? h
  obtain ⟨rfl, -, -⟩ := Token.eq_of_splitArbitrary? hsplit
  refine ⟨Text.beginsSolid_append ?_ _, ?_⟩
  · obtain ⟨property, hproperty⟩ := Option.isSome_iff_exists.mp haccepts
    obtain ⟨rows, rows', hrows, -⟩ := List.lookup_eq_some_iff.mp hproperty
    have hnames : Arbitrary.names.all fun row => Text.beginsSolid row.1.toList := by decide +kernel
    rw [hrows] at hnames
    simpa using List.all_eq_true.mp hnames (String.ofList name, property) (by simp)
  · exact Text.endsSolid_append _ (Text.endsSolid_append _ (Text.endsSolid_append _ rfl))

/-- The base of a token that has a style has solid ends. -/
lemma solid_of_baseDeclaration? {d : Declaration} (htable : table.isSolid)
    (h : baseDeclaration? table base = some d) : Text.beginsSolid base ∧ Text.endsSolid base := by
  rw [baseDeclaration?] at h
  cases hfixed : table.get? base with
  | some d' =>
      obtain ⟨rows, rows', rfl, -⟩ := List.lookup_eq_some_iff.mp hfixed
      simpa using List.all_eq_true.mp htable (String.ofList base, d') (by simp)
  | none =>
      rw [hfixed] at h
      simp only at h
      cases hscale : Scale.declaration? base with
      | some d' => exact solid_of_scale hscale
      | none =>
          rw [hscale] at h
          exact solid_of_arbitrary h

/-- A token that has a style has no blanks around it. -/
lemma trim_of_resolve? (htable : table.isSolid) (h : resolve? table t = some s) :
    Text.trim t = t := by
  obtain ⟨p, rfl, hbreakpoint, -, hbase, hopacity, -⟩ := exists_parts_of_resolve? h
  obtain ⟨hbegin, hend⟩ := solid_of_baseDeclaration? htable hbase
  refine Text.trim_eq_self ?_ ?_
  · have hmarked : Text.beginsSolid (mark p.important ++ (p.base ++ opacityText p.opacity)) := by
      cases p.important
      · exact Text.beginsSolid_append hbegin _
      · rfl
    rw [Parts.text]
    unfold breakpointOf? at hbreakpoint
    split at hbreakpoint
    · next hnone => rwa [hnone]
    · next v hv =>
        obtain ⟨b, hb, -⟩ := Option.map_eq_some_iff.mp hbreakpoint
        have hname : b.name = String.ofList v := by simpa using List.find?_some hb
        have htext : v = b.name.toList := by rw [hname, String.toList_ofList]
        rw [hv, Token.front_cons, htext, List.append_assoc]
        refine Text.beginsSolid_append ?_ _
        cases b <;> decide
    · cases hbreakpoint
  · rw [Parts.text]
    refine Text.endsSolid_append _ (Text.endsSolid_append _ ?_)
    cases ho : p.opacity with
    | none => simpa [opacityText] using hend
    | some digits =>
        obtain ⟨hne, hdigits, -⟩ := hopacity digits ho
        exact Text.endsSolid_append _ (endsSolid_of_digits ['/'] hne hdigits)

/-! ### The verdict -/

/-- **A token that has a style is valid** in the catalogue of the table. -/
theorem check_of_resolve? (htable : table.isSolid) (h : resolve? table t = some s) :
    (Catalog.ofTable table).check t = .valid := by
  have htrim := trim_of_resolve? htable h
  obtain ⟨p, htext, hbreakpoint, -, hbase, -, hvariants, hfound⟩ := exists_parts_of_resolve? h
  have hsupported {name : String} {entry : Option Entry} (h : ∀ e ∈ entry, e.responsive = true) :=
    Catalog.checkVariants_of_breakpointOf? hbreakpoint name h
  have hne : t ≠ [] := by
    have hbegin := (solid_of_baseDeclaration? htable hbase).1
    rintro rfl
    rw [Parts.text, eq_comm, List.append_eq_nil_iff, List.append_eq_nil_iff,
      List.append_eq_nil_iff] at htext
    rw [htext.2.2.1] at hbegin
    cases hbegin
  rw [Catalog.check]
  simp only [htrim, if_neg hne, hvariants, hfound]
  split_ifs with hlisted harbitrary
  · rfl
  · exact hsupported (by simp)
  · cases hget : (Catalog.ofTable table).get? (String.ofList p.base) with
    | some e => exact hsupported (by simpa using Catalog.isResponsive_ofTable table _ _ hget)
    | none =>
        cases hscale : Scale.declaration? p.base with
        | some d => exact hsupported (by simp [Entry.ofDeclaration])
        | none =>
            -- a fixed class would be listed, and a value in brackets is taken care of above
            rw [baseDeclaration?, hscale] at hbase
            cases hfixed : table.get? p.base with
            | some d =>
                have hsome := Catalog.get?_ofTable_isSome hfixed
                rw [hget] at hsome
                cases hsome
            | none =>
                rw [hfixed] at hbase
                obtain ⟨name, value, hsplit, haccepts⟩ := exists_splitArbitrary? hbase
                rw [hsplit] at harbitrary
                exact absurd haccepts harbitrary

/-- **Whatever has a style is valid**: a token in the standard table, and with it every class string
of such tokens, of which nothing is refused and for which nothing is suggested. -/
theorem check_standard_of_resolve? :
    (∀ t, (resolve? Table.standard t).isSome → Catalog.standard.check t = .valid)
      ∧ ∀ classes, (∀ t ∈ Text.words classes, (resolve? Table.standard t).isSome) →
        Catalog.standard.checkAll classes = ⟨[], []⟩
          ∧ (Catalog.standard.checkAll classes).isValid = true := by
  have hvalid (t : Text) (h : (resolve? Table.standard t).isSome) :
      Catalog.standard.check t = .valid := by
    obtain ⟨s, hs⟩ := Option.isSome_iff_exists.mp h
    exact check_of_resolve? Table.isSolid_standard hs
  refine ⟨hvalid, fun classes h => ?_⟩
  have hreport : Catalog.standard.checkAll classes = ⟨[], []⟩ := by
    rw [Catalog.checkAll]
    generalize Text.words classes = tokens at h
    induction tokens with
    | nil => rfl
    | cons w ws ih =>
        rw [List.forall_mem_cons] at h
        rw [List.foldl_cons, hvalid w h.1]
        exact ih h.2
  exact ⟨hreport, by rw [hreport]; rfl⟩

/-- A slash and a colon inside brackets, a breakpoint, a mark of importance and an opacity. -/
theorem check_standard_cardClasses :
    Catalog.standard.check "md:!w-[a/b:c]/050".toList = .valid
      ∧ Catalog.standard.checkAll "p-4 md:!w-[a/b:c]/050  lg:flex".toList = ⟨[], []⟩
      ∧ (Catalog.standard.checkAll "p-4 md:!w-[a/b:c]/050  lg:flex".toList).isValid = true :=
  ⟨check_standard_of_resolve?.1 _ (by decide +kernel),
    check_standard_of_resolve?.2 _ (by decide +kernel)⟩

end CanvasSync.Utility
