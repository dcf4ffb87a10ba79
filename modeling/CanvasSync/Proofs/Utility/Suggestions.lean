import CanvasSync.Proofs.Utility.Readings

/-!
Suggestions for classes that are not known.

A suggestion is the best hit of a search, put behind the variants of the refused token. What the
search finds is listed, so nothing but the variants can be wrong with a suggestion; but they are not
checked when it is made.

* `Catalog.IsNamed`: all classes of a catalogue are listed under names;
* `splitVariants_front_append`: variants that were found in a token are found before another base;
* `Catalog.check_front_append`: the verdict on a listed class behind variants is the one on the
  variants;
* `Catalog.exists_of_suggestion`: the class and the variants of a suggestion, and the verdict on it.
-/

namespace CanvasSync.Utility

open Token (front splitColons splitVariants)

variable {t u : Text} {variants : List Text}

/-! ### The names of a catalogue -/

/-- The offered part of the spacing scale is listed under names. -/
lemma Table.isNamed_scaleEntries (table : Table) : table.scaleEntries.isNamed := by
  have hnames : Scale.names.all fun row => isName row.1.toList := by decide +kernel
  refine List.all_eq_true.mpr fun row hrow => ?_
  obtain ⟨measure, hmeasure, hrow⟩ := List.mem_flatMap.mp hrow
  obtain ⟨step, -, hrow⟩ := List.mem_filterMap.mp hrow
  simp only at hrow
  split at hrow
  · cases hrow
  · obtain rfl := Option.some.inj hrow
    exact isName_hyphen (List.all_eq_true.mp hnames measure hmeasure) (isName_toString step)

namespace Catalog

/-- Whether all classes of a catalogue are listed under names. -/
def IsNamed (c : Catalog) : Prop := ∀ e ∈ c.entries, isName e.name.toList

lemma IsNamed.addAll {rows : Table} {c : Catalog} (hc : c.IsNamed) (hrows : rows.isNamed) :
    (c.addAll rows).IsNamed := by
  induction rows generalizing c with
  | nil => exact hc
  | cons r rs ih =>
      rw [Table.isNamed, List.all_cons, Bool.and_eq_true] at hrows
      refine ih (fun e he => ?_) hrows.2
      rcases mem_place he with rfl | he
      · exact hrows.1
      · exact hc e he

/-- The classes of the standard catalogue are listed under names. -/
lemma isNamed_standard : standard.IsNamed := by
  have hrows : (Table.standard ++ Table.standard.scaleEntries).isNamed :=
    List.all_eq_true.mpr fun row hrow => (List.mem_append.mp hrow).elim
      (List.all_eq_true.mp Table.isNamed_standard row)
      (List.all_eq_true.mp (Table.isNamed_scaleEntries _) row)
  have hempty : empty.IsNamed := fun e he => by simp [empty] at he
  rw [standard, ofTable_eq]
  exact hempty.addAll hrows

variable {c : Catalog} {e : Entry}

/-- What a search finds is listed. -/
lemma exists_get?_of_mem_search {hit : Suggestion} {query : Text} {limit : Nat}
    (h : hit ∈ c.search query limit) : ∃ e, c.get? e.name = some e ∧ e.name = hit.name := by
  have hhit : hit ∈ c.hits (Text.trim query) := by
    rw [search] at h
    split at h
    · cases h
    · exact List.mem_mergeSort.mp (List.mem_of_mem_take h)
  obtain ⟨d, hd, hscore⟩ := List.mem_filterMap.mp hhit
  have hname : d.name = hit.name := by
    simp only at hscore
    split at hscore
    · cases hscore
    · obtain rfl := Option.some.inj hscore
      rfl
  have hsome : (c.get? hit.name).isSome :=
    List.find?_isSome.mpr ⟨d, hd, by simpa using hname⟩
  obtain ⟨e, he⟩ := Option.isSome_iff_exists.mp hsome
  have hsame : e.name = hit.name := (mem_of_get? he).2
  exact ⟨e, by rw [hsame, he], hsame⟩

end Catalog

/-! ### Names as bases -/

lemma not_mem_of_isName {c : Char} (h : isName t) (hc : ¬c.isAlphanum) (hhyphen : c ≠ '-') :
    c ∉ t := fun hmem =>
  (isAlphanum_or_of_isName h hmem).elim hc hhyphen

/-- Nothing is taken off a name. -/
lemma baseOf_of_isName (h : isName t) : Catalog.baseOf t = t := by
  have hmark : (splitImportant t).2 = t := by
    unfold splitImportant
    split
    · exact absurd List.mem_cons_self (not_mem_of_isName h (by decide) (by decide))
    · rfl
  have hopacity : Token.splitOpacity? t = none := by
    rw [Option.eq_none_iff_forall_ne_some]
    rintro ⟨base, digits⟩ hsome
    obtain ⟨rfl, -⟩ := Token.splitOpacity?_eq_some_iff.mp hsome
    exact not_mem_of_isName h (c := '/') (by decide) (by decide) (by simp)
  rw [baseOf_of_splitOpacity?_eq_none (by rw [hmark, hopacity]), hmark]

/-- A name has no value in brackets. -/
lemma splitArbitrary?_of_isName (h : isName t) : Token.splitArbitrary? t = none := by
  rw [Option.eq_none_iff_forall_ne_some]
  rintro ⟨name, value⟩ hsome
  obtain ⟨rfl, -⟩ := Token.eq_of_splitArbitrary? hsome
  exact not_mem_of_isName h (c := ']') (by decide) (by decide) (by simp)

lemma isPlain_of_isName (h : isName t) : Token.isPlain t := by
  refine List.all_eq_true.mpr fun c hc => ?_
  have hnot : c ≠ ':' ∧ c ≠ '[' ∧ c ≠ ']' := by
    refine ⟨?_, ?_, ?_⟩ <;> rintro rfl <;> exact not_mem_of_isName h (by decide) (by decide) hc
  simpa [and_assoc] using hnot

/-! ### Variants before another base -/

/-- The variants of a token, before a text, are found again: brackets are closed where a colon
splits. -/
lemma splitColons_front_append (depth : Nat) (t u : Text) (h : (splitColons depth t).dropLast ≠ []) :
    splitColons depth (front (splitColons depth t).dropLast ++ u)
      = (splitColons depth t).dropLast ++ splitColons 0 u := by
  induction t generalizing depth with
  | nil => exact absurd rfl h
  | cons c t ih =>
      by_cases hc : c = ':' ∧ depth = 0
      · obtain ⟨rfl, rfl⟩ := hc
        have hsplit (t : Text) : splitColons 0 (':' :: t) = [] :: splitColons 0 t := by
          rw [splitColons, if_pos ⟨rfl, rfl⟩]
        obtain ⟨p, ps, hps⟩ := List.exists_cons_of_ne_nil (Token.splitColons_ne_nil 0 t)
        rw [hsplit, hps, List.dropLast_cons_cons, Token.front_cons, List.nil_append,
          List.cons_append, hsplit, List.cons_append, ← hps]
        by_cases hrest : (splitColons 0 t).dropLast = []
        · rw [hrest]
          rfl
        · rw [ih 0 hrest]
      · -- a character that does not split belongs to the first part
        obtain ⟨inner, hsplit⟩ : ∃ inner, ∀ t, splitColons depth (c :: t)
            = (c :: (splitColons inner t).headD []) :: (splitColons inner t).tail := by
          refine ⟨if c = '[' then depth + 1 else if c = ']' then depth - 1 else depth, fun t => ?_⟩
          obtain ⟨p, ps, hps⟩ := List.exists_cons_of_ne_nil (Token.splitColons_ne_nil
            (if c = '[' then depth + 1 else if c = ']' then depth - 1 else depth) t)
          rw [splitColons, if_neg hc]
          simp only [hps, List.headD_cons, List.tail_cons]
        obtain ⟨p, ps, hps⟩ := List.exists_cons_of_ne_nil (Token.splitColons_ne_nil inner t)
        have ih := ih inner
        rw [hsplit, hps] at h ⊢
        rw [hps] at ih
        cases ps with
        | nil => exact absurd rfl h
        | cons q qs =>
            have ih := ih (by simp)
            simp only [List.headD_cons, List.tail_cons, List.dropLast_cons_cons, Token.front_cons,
              List.cons_append] at ih ⊢
            rw [hsplit, ih]
            rfl

/-- The variants of a token are found before a base without colons and brackets. -/
lemma splitVariants_front_append (t : Text) (hu : Token.isPlain u) :
    splitVariants (front (splitVariants t).1 ++ u) = ((splitVariants t).1, u) := by
  have hbase := Token.splitColons_of_isPlain hu 0
  by_cases h : (splitVariants t).1 = []
  · rw [h, front, List.flatMap_nil, List.nil_append, splitVariants, hbase]
    rfl
  · rw [splitVariants, splitVariants, splitColons_front_append 0 t u h, hbase]
    simp

/-- Variants with colons between them and one behind. -/
lemma join_append_eq_front (h : variants ≠ []) (u : Text) :
    Text.join [':'] variants ++ ':' :: u = front variants ++ u := by
  induction variants with
  | nil => exact absurd rfl h
  | cons v vs ih =>
      cases vs with
      | nil => simp [Text.join, front]
      | cons w ws =>
          have ih := ih (List.cons_ne_nil w ws)
          rw [Text.join, Token.front_cons, List.append_assoc, List.append_assoc, ih]
          · simp
          · simp

/-! ### The verdict on a suggestion -/

namespace Catalog

variable {c : Catalog} {e : Entry} {name : String} {n : Text} {fault : Fault} {s : String}

/-- Variants are no fault of a class exactly if it supports each. -/
lemma checkVariants_eq_valid_iff :
    checkVariants name (some e) variants = .valid
      ↔ ∀ v ∈ variants, e.supports? (String.ofList v) = some true := by
  induction variants with
  | nil => simp [checkVariants]
  | cons v vs ih =>
      rw [checkVariants, List.forall_mem_cons, ← ih]
      cases h : e.supports? (String.ofList v) with
      | none => simp
      | some b => cases b <;> simp

/-- Nothing is suggested for a fault of the variants. -/
lemma checkVariants_ne_suggestion {entry : Option Entry} :
    checkVariants name entry variants ≠ .invalid fault (some s) := by
  induction variants with
  | nil => simp [checkVariants]
  | cons v vs ih =>
      unfold checkVariants
      simp only
      split
      · exact ih
      · simp
      · simp

/-- **The verdict on a listed class behind variants is the one on the variants**, if they are the
variants of some token and no blank stands in front. -/
theorem check_front_append (hc : c.IsNamed) (he : c.get? e.name = some e)
    (hbegin : Text.beginsSolid (front (splitVariants t).1 ++ e.name.toList)) :
    c.check (front (splitVariants t).1 ++ e.name.toList)
      = checkVariants (String.ofList (front (splitVariants t).1 ++ e.name.toList)) (some e)
          (splitVariants t).1 := by
  have hname : isName e.name.toList := hc e (mem_of_get? he).1
  have htrim := Text.trim_eq_self hbegin (Text.endsSolid_append _ (solid_of_isName hname).2)
  have hne : front (splitVariants t).1 ++ e.name.toList ≠ [] := fun h => by
    rw [h] at hbegin
    cases hbegin
  rw [check]
  simp only [htrim, if_neg hne, splitVariants_front_append t (isPlain_of_isName hname),
    baseOf_of_isName hname, splitArbitrary?_of_isName hname, Bool.false_eq_true, if_false,
    String.ofList_toList, he]
  split_ifs with hlisted
  · -- a name that is listed has no colon, so there are no variants
    obtain ⟨d, hd⟩ := Option.isSome_iff_exists.mp hlisted
    obtain ⟨hmem, hlabel⟩ := mem_of_get? hd
    have hnone : (splitVariants t).1 = [] := by
      by_contra hsome
      obtain ⟨v, vs, hvs⟩ := List.exists_cons_of_ne_nil hsome
      have hcolon : ':' ∈ d.name.toList := by
        rw [hlabel, String.toList_ofList, hvs, Token.front_cons]
        simp
      exact not_mem_of_isName (hc d hmem) (by decide) (by decide) hcolon
    rw [hnone]
    rfl
  · rfl

/-- The verdict on a name that is not listed. -/
lemma exists_check_eq (hne : Text.trim n ≠ [])
    (hlisted : ¬(c.get? (String.ofList (Text.trim n))).isSome) : ∃ arbitrary : Bool, c.check n
      = if arbitrary then
          checkVariants (String.ofList (Text.trim n)) none (splitVariants (Text.trim n)).1
        else
          match c.get? (String.ofList (baseOf (splitVariants (Text.trim n)).2)) with
          | some e =>
            checkVariants (String.ofList (Text.trim n)) (some e) (splitVariants (Text.trim n)).1
          | none =>
            match Scale.declaration? (baseOf (splitVariants (Text.trim n)).2) with
            | some d => checkVariants (String.ofList (Text.trim n))
                (some (Entry.ofDeclaration
                  (String.ofList (baseOf (splitVariants (Text.trim n)).2)) d))
                (splitVariants (Text.trim n)).1
            | none => .invalid (.unknownClass (String.ofList (Text.trim n)))
                (c.replacement? (splitVariants (Text.trim n)).1
                  (baseOf (splitVariants (Text.trim n)).2)) := by
  rw [check]
  simp only [if_neg hne, if_neg hlisted]
  exact ⟨_, rfl⟩

/-- A suggestion is the replacement for a class that is not known. -/
lemma replacement?_of_check (h : c.check n = .invalid fault (some s)) : Text.trim n ≠ []
    ∧ c.replacement? (splitVariants (Text.trim n)).1 (baseOf (splitVariants (Text.trim n)).2)
      = some s := by
  by_cases hne : Text.trim n = []
  · rw [check] at h
    simp only [if_pos hne] at h
    cases h
  by_cases hlisted : (c.get? (String.ofList (Text.trim n))).isSome
  · rw [check] at h
    simp only [if_neg hne, if_pos hlisted] at h
    cases h
  obtain ⟨arbitrary, hcheck⟩ := exists_check_eq hne hlisted
  rw [hcheck] at h
  -- all other verdicts are about variants
  split at h
  · exact absurd h checkVariants_ne_suggestion
  split at h
  · exact absurd h checkVariants_ne_suggestion
  split at h
  · exact absurd h checkVariants_ne_suggestion
  exact ⟨hne, (Verdict.invalid.inj h).2⟩

/-- **The class and the variants of a suggestion**: the class is listed, the variants are those of
the refused name, and the verdict on the suggestion is the one on the variants. -/
theorem exists_of_suggestion (hc : c.IsNamed) (h : c.check n = .invalid fault (some s)) :
    ∃ e, c.get? e.name = some e
      ∧ s = String.ofList (front (splitVariants (Text.trim n)).1 ++ e.name.toList)
      ∧ c.check s.toList = checkVariants s (some e) (splitVariants (Text.trim n)).1 := by
  obtain ⟨hne, hs⟩ := replacement?_of_check h
  obtain ⟨hit, hhit, rfl⟩ := Option.map_eq_some_iff.mp hs
  obtain ⟨e, he, hname⟩ := exists_get?_of_mem_search (List.mem_of_mem_head? hhit)
  have htext : (if (splitVariants (Text.trim n)).1 = [] then hit.name.toList
      else Text.join [':'] (splitVariants (Text.trim n)).1 ++ ':' :: hit.name.toList)
      = front (splitVariants (Text.trim n)).1 ++ e.name.toList := by
    rw [hname]
    split
    · next hnone =>
        rw [hnone]
        rfl
    · next hsome => exact join_append_eq_front hsome _
  have hbegin : Text.beginsSolid (front (splitVariants (Text.trim n)).1 ++ e.name.toList) := by
    cases hvariants : (splitVariants (Text.trim n)).1 with
    | nil => exact (solid_of_isName (hc e (mem_of_get? he).1)).1
    | cons v vs =>
        -- the first character is the one of the refused name
        have hsolid := Text.beginsSolid_trim hne
        have hsplit : Text.trim n = front (v :: vs) ++ (splitVariants (Text.trim n)).2 := by
          rw [← hvariants]
          exact Token.eq_of_splitVariants rfl
        rw [hsplit, Token.front_cons] at hsolid
        rw [Token.front_cons]
        cases v <;> exact hsolid
  refine ⟨e, he, by rw [htext], ?_⟩
  rw [htext, String.toList_ofList]
  exact check_front_append hc he hbegin

end Catalog

end CanvasSync.Utility
