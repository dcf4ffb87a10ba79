import CanvasSync.Assist.Diagnostic
import CanvasSync.Proofs.Assist.Literals
import CanvasSync.Proofs.Utility.Suggestions

/-!
What a fix does to the warnings of a text.

* `flagged`: the classes of a text that are not valid;
* `diagnostics_eq`: each of them has one warning;
* `Replacement.apply`: the text after a fix;
* `exists_of_quickFix`: a fix puts its suggestion in the place of a flagged class, and leaves the
  other classes;
* `suggestion_valid_iff`: when the suggestion is valid, and what is flagged after a fix.
-/

namespace CanvasSync.Assist

open CanvasSync.Utility

variable {c : Catalog} {t n : Text} {d : Diagnostic} {fix : QuickFix} {fault : Fault} {s : String}

/-! ### Warnings -/

/-- The classes of a text that are not valid, in order. -/
def flagged (c : Catalog) (t : Text) : List Text :=
  ((classes t).map Word.text).filter fun w => !(c.check w).isValid

/-- The warning about a class of a text, if it is not valid. -/
def remark? (c : Catalog) (t : Text) (w : Word) : Option Diagnostic :=
  match c.check w.text with
  | .valid => none
  | .invalid fault suggestion =>
    some (.ofFault (Range.ofStretch t w.start (Text.size w.text)) fault suggestion)

lemma diagnostics_eq (c : Catalog) (t : Text) :
    diagnostics c t = (classes t).filterMap (remark? c t) := by
  rw [classes, List.filterMap_flatMap]
  rfl

/-- There are as many warnings as classes that are not valid. -/
lemma length_diagnostics (c : Catalog) (t : Text) :
    (diagnostics c t).length = (flagged c t).length := by
  rw [diagnostics_eq, flagged]
  induction classes t with
  | nil => rfl
  | cons w ws ih =>
      rw [List.filterMap_cons, List.map_cons, List.filter_cons, remark?]
      cases c.check w.text with
      | valid => simpa [Verdict.isValid] using ih
      | invalid fault suggestion => simpa [Verdict.isValid] using ih

/-! ### Fixes -/

/-- A text with the stretch replaced. -/
def Replacement.apply (r : Replacement) (t : Text) : Text :=
  Text.upTo (r.range.start.offset t) t
    ++ (r.text.toList ++ Text.fromOffset (r.range.stop.offset t) t)

lemma Replacement.apply_ofStretch (a w b : Text) (s : String) :
    Replacement.apply ⟨.ofStretch (a ++ (w ++ b)) (Text.size a) (Text.size w), s⟩ (a ++ (w ++ b))
      = a ++ (s.toList ++ b) := by
  have hstart := Position.offset_ofOffset a (w ++ b)
  have hstop := Position.offset_ofOffset (a ++ w) b
  rw [List.append_assoc, Text.size_append] at hstop
  rw [apply, Range.ofStretch]
  simp only [hstart, hstop, Text.upTo_size_append]
  rw [← List.append_assoc a w b, ← Text.size_append, Text.fromOffset_size_append]

lemma quickFix?_ofFault_some (range : Range) (fault : Fault) (s : String) :
    (Diagnostic.ofFault range fault (some s)).quickFix?
      = some ⟨.ofFault range fault (some s), ⟨range, s⟩⟩ := by
  simp [Diagnostic.ofFault, Diagnostic.quickFix?, Json.Value.get?, Json.Fields.get?]

/-- A remark has a fix if a suggestion came with its fault. -/
lemma quickFix?_ofFault {range : Range} {suggestion : Option String}
    (h : (Diagnostic.ofFault range fault suggestion).quickFix? = some fix) :
    suggestion = some fix.edit.text ∧ fix.edit.range = range := by
  cases suggestion with
  | none => simp [Diagnostic.ofFault, Diagnostic.quickFix?] at h
  | some s =>
      rw [quickFix?_ofFault_some] at h
      obtain rfl := Option.some.inj h
      exact ⟨rfl, rfl⟩

/-- **A fix puts its suggestion in the place of a flagged class.** -/
theorem exists_of_quickFix (h : fix ∈ quickFixes (diagnostics c t)) :
    ∃ x ∈ classes t, ∃ fault, c.check x.text = .invalid fault (some fix.edit.text)
      ∧ fix.edit.range = .ofStretch t x.start (Text.size x.text) := by
  obtain ⟨d, hd, hfix⟩ := List.mem_filterMap.mp h
  rw [diagnostics_eq] at hd
  obtain ⟨x, hx, hremark⟩ := List.mem_filterMap.mp hd
  rw [remark?] at hremark
  split at hremark
  · cases hremark
  · next fault suggestion hcheck =>
      obtain rfl := Option.some.inj hremark
      obtain ⟨rfl, hrange⟩ := quickFix?_ofFault hfix
      exact ⟨x, hx, fault, hcheck, hrange⟩

/-! ### Suggestions -/

lemma not_isQuote_of_isName (h : isName t) : ∀ q ∈ t, ¬isQuote q := by
  intro q hq hquote
  simp only [isQuote, Bool.or_eq_true, decide_eq_true_eq] at hquote
  rcases hquote with (rfl | rfl) | rfl <;>
    exact not_mem_of_isName h (by decide) (by decide) hq

lemma trim_of_isWord (h : IsWord n) : Text.trim n = n := by
  obtain ⟨hne, hsolid⟩ := h
  refine Text.trim_eq_self ?_ ?_
  · simp [Text.beginsSolid, List.head?_eq_some_head hne, hsolid _ (List.head_mem hne)]
  · simp [Text.endsSolid, List.getLast?_eq_some_getLast hne, hsolid _ (List.getLast_mem hne)]

/-- What is suggested for a word is a word that may stand in the same quotes. -/
lemma isWord_suggestion (hc : c.IsNamed) (hn : IsWord n)
    (h : c.check n = .invalid fault (some s)) : IsWord s.toList ∧ FitsQuotes n s.toList := by
  obtain ⟨e, he, rfl, -⟩ := Catalog.exists_of_suggestion hc h
  have hname := hc e (Catalog.mem_of_get? he).1
  have hsplit : n = Token.front (Token.splitVariants n).1 ++ (Token.splitVariants n).2 :=
    Token.eq_of_splitVariants rfl
  -- what stands in front of the class stood in front of the refused one
  have hfront {q : Char} (hq : q ∈ Token.front (Token.splitVariants n).1) : q ∈ n := by
    rw [hsplit]
    exact List.mem_append_left _ hq
  rw [String.toList_ofList, trim_of_isWord hn]
  refine ⟨⟨?_, fun q hq => ?_⟩, fun q hq hnot hmem => ?_⟩
  · intro hnil
    have hbegin := (solid_of_isName hname).1
    rw [(List.append_eq_nil_iff.mp hnil).2] at hbegin
    cases hbegin
  · rcases List.mem_append.mp hq with hq | hq
    · exact hn.2 q (hfront hq)
    · exact isBlank_of_isAlphanum_or (isAlphanum_or_of_isName hname hq)
  · rcases List.mem_append.mp hmem with hmem | hmem
    · exact hnot (hfront hmem)
    · exact not_isQuote_of_isName hname q hmem hq

/-- **What is flagged after a fix**: the flagged class has gone exactly if the suggestion is valid,
and nothing else changes. -/
theorem exists_flagged_apply (hc : c.IsNamed) (h : fix ∈ quickFixes (diagnostics c t)) :
    ∃ n fault before behind, c.check n = .invalid fault (some fix.edit.text)
      ∧ flagged c t = before ++ n :: behind
      ∧ flagged c (fix.edit.apply t) = before
        ++ ((if (c.check fix.edit.text.toList).isValid then [] else [fix.edit.text.toList])
          ++ behind) := by
  obtain ⟨x, hx, fault, hcheck, hrange⟩ := exists_of_quickFix h
  obtain ⟨a, b, ws, ws', rfl, hstart, hword, hclasses, hother⟩ :=
    exists_of_mem_classes hx fix.edit.text.toList
  obtain ⟨hnew, hfits⟩ := isWord_suggestion hc hword hcheck
  obtain ⟨ws'', hclasses', hmap⟩ := hother hnew hfits
  have happly : fix.edit.apply (a ++ (x.text ++ b)) = a ++ (fix.edit.text.toList ++ b) := by
    have hedit : fix.edit = ⟨.ofStretch (a ++ (x.text ++ b)) (Text.size a) (Text.size x.text),
        fix.edit.text⟩ := by
      rw [← hstart, ← hrange]
    rw [hedit]
    exact Replacement.apply_ofStretch a x.text b fix.edit.text
  refine ⟨x.text, fault, (ws.map Word.text).filter fun w => !(c.check w).isValid,
    (ws'.map Word.text).filter fun w => !(c.check w).isValid, hcheck, ?_, ?_⟩
  · rw [flagged, hclasses, List.map_append, List.map_cons, List.filter_append, List.filter_cons,
      hcheck]
    rfl
  · rw [happly, flagged, hclasses', List.map_append, List.map_cons, hmap, List.filter_append,
      List.filter_cons]
    simp only
    cases (c.check fix.edit.text.toList).isValid <;> rfl

/-- **When a suggestion is valid**: it is a listed class behind the variants of the refused name, and
valid exactly if the class supports each of them; otherwise nothing else is suggested for it. A fix
removes a flagged class, or puts a suggestion in its place that is flagged again, and changes nothing
else that is flagged. -/
theorem suggestion_valid_iff (n t : Text) :
    (∀ fault s, Catalog.standard.check n = .invalid fault (some s) →
      ∃ e, Catalog.standard.get? e.name = some e
        ∧ s = String.ofList (Token.front (Token.splitVariants (Text.trim n)).1 ++ e.name.toList)
        ∧ (Catalog.standard.check s.toList = .valid
          ↔ ∀ v ∈ (Token.splitVariants (Text.trim n)).1,
            e.supports? (String.ofList v) = some true)
        ∧ ∀ fault' s', Catalog.standard.check s.toList ≠ .invalid fault' (some s'))
      ∧ ∀ fix ∈ quickFixes (diagnostics .standard t),
        ∃ m fault before behind,
          Catalog.standard.check m = .invalid fault (some fix.edit.text)
          ∧ flagged .standard t = before ++ m :: behind
          ∧ flagged .standard (fix.edit.apply t) = before
            ++ ((if (Catalog.standard.check fix.edit.text.toList).isValid then []
              else [fix.edit.text.toList]) ++ behind) := by
  have hc := Catalog.isNamed_standard
  refine ⟨fun fault s h => ?_, fun fix h => exists_flagged_apply hc h⟩
  obtain ⟨e, he, hs, hcheck⟩ := Catalog.exists_of_suggestion hc h
  refine ⟨e, he, hs, ?_, fun fault' s' => ?_⟩
  · rw [hcheck]
    exact Catalog.checkVariants_eq_valid_iff
  · rw [hcheck]
    exact Catalog.checkVariants_ne_suggestion

/-! ### Misspelt classes -/

/-- A search finds something if the query holds the name of a listed class. -/
lemma search_ne_nil {e : Entry} {query : Text} {limit : Nat} (he : e ∈ c.entries)
    (hsize : 3 ≤ Text.size e.name.toList) (hholds : Text.contains (Text.trim query) e.name.toList)
    (hquery : Text.trim query ≠ []) (hlimit : 0 < limit) : c.search query limit ≠ [] := by
  have hscore (lowered : Text) : Catalog.score e (Text.trim query) lowered ≠ 0 := by
    rw [Catalog.score]
    simp only [hholds, hsize, decide_true, Bool.and_true, if_true]
    split_ifs <;> simp
  have hhit : Catalog.hits c (Text.trim query) ≠ [] := by
    intro hnil
    have hnone := List.filterMap_eq_nil_iff.mp hnil e he
    simp only [if_neg (hscore _)] at hnone
    cases hnone
  intro hnil
  rw [Catalog.search, if_neg hquery, List.take_eq_nil_iff, ← List.length_eq_zero_iff,
    List.length_mergeSort, List.length_eq_zero_iff] at hnil
  exact hnil.elim (fun hzero => by omega) hhit

/-- There is a suggestion for a token whose base is no name but holds the one of a listed class. -/
lemma exists_suggestion {e : Entry} (n base : Text) (hc : c.IsNamed) (he : e ∈ c.entries)
    (hn : Text.trim n = n) (hlisted : ¬isName n ∧ ¬isName base)
    (hbase : Catalog.baseOf (Token.splitVariants n).2 = base)
    (hother : Token.splitArbitrary? base = none ∧ Scale.declaration? base = none)
    (hsize : 3 ≤ Text.size e.name.toList) (hholds : Text.contains (Text.trim base) e.name.toList) :
    ∃ s, c.check n = .invalid (.unknownClass (String.ofList n)) (some s) := by
  have hget {t : Text} (ht : ¬isName t) : c.get? (String.ofList t) = none := by
    rw [Option.eq_none_iff_forall_ne_some]
    intro d hd
    obtain ⟨hmem, hd⟩ := Catalog.mem_of_get? hd
    have hname := hc d hmem
    rw [hd, String.toList_ofList] at hname
    exact ht hname
  have hne {t : Text} (ht : Text.contains t e.name.toList) : t ≠ [] := by
    rintro rfl
    have hname : e.name.toList ≠ [] := fun hnil => by simp [hnil] at hsize
    simp [Text.contains, Text.cut?, hname] at ht
  have hfound : c.search base 3 ≠ [] := search_ne_nil he hsize hholds (hne hholds) (by decide)
  obtain ⟨hit, hits, hsearch⟩ := List.exists_cons_of_ne_nil hfound
  obtain ⟨s, hs⟩ : ∃ s, c.replacement? (Token.splitVariants n).1 base = some s := by
    rw [Catalog.replacement?, hsearch]
    exact ⟨_, rfl⟩
  have hnonempty : n ≠ [] := by
    rintro rfl
    have hnil : base = [] := hbase.symm
    exact hne hholds (by rw [hnil]; rfl)
  refine ⟨s, ?_⟩
  rw [Catalog.check]
  simp only [hn, if_neg hnonempty, hget hlisted.1, hbase, hother.1, hother.2, hget hlisted.2,
    Option.isSome_none, Bool.false_eq_true, if_false, hs]

/-- `flex` is listed. -/
lemma exists_flex : ∃ e ∈ Catalog.standard.entries, e.name = "flex" := by
  have hfixed : (Table.standard.get? "flex".toList).isSome := by decide +kernel
  obtain ⟨d, hd⟩ := Option.isSome_iff_exists.mp hfixed
  obtain ⟨e, he⟩ := Option.isSome_iff_exists.mp (Catalog.get?_ofTable_isSome hd)
  exact ⟨e, (Catalog.mem_of_get? he).1, (Catalog.mem_of_get? he).2⟩

/-- A misspelt class is replaced by one that is not flagged. -/
theorem suggestion_valid_iff_flex :
    (∃ s, Catalog.standard.check "flex_".toList = .invalid (.unknownClass "flex_") (some s)
      ∧ Catalog.standard.check s.toList = .valid)
      ∧ ∃ fix ∈ quickFixes (diagnostics .standard "<p className=\"flex_\"/>".toList),
        flagged .standard "<p className=\"flex_\"/>".toList = ["flex_".toList]
          ∧ flagged .standard (fix.edit.apply "<p className=\"flex_\"/>".toList) = [] := by
  obtain ⟨hsuggestion, hfixes⟩ :=
    suggestion_valid_iff "flex_".toList "<p className=\"flex_\"/>".toList
  obtain ⟨e, he, hname⟩ := exists_flex
  obtain ⟨s, hs⟩ := exists_suggestion "flex_".toList "flex_".toList
    Catalog.isNamed_standard he (by decide) (by decide) (by decide) (by decide)
    (by rw [hname]; decide) (by rw [hname]; decide)
  rw [String.ofList_toList] at hs
  obtain ⟨d, -, -, hvalid, -⟩ := hsuggestion _ _ hs
  have hvariants : (Token.splitVariants (Text.trim "flex_".toList)).1 = [] := by decide
  have hvalid := hvalid.mpr fun v hv => by
    rw [hvariants] at hv
    cases hv
  have hclasses : classes "<p className=\"flex_\"/>".toList = [⟨14, "flex_".toList⟩] := by decide
  have hflagged : flagged .standard "<p className=\"flex_\"/>".toList = ["flex_".toList] := by
    rw [flagged, hclasses, List.map_singleton, List.filter_singleton, hs]
    rfl
  have hdiagnostics : diagnostics .standard "<p className=\"flex_\"/>".toList
      = [.ofFault (Range.ofStretch "<p className=\"flex_\"/>".toList 14 5)
          (.unknownClass "flex_") (some s)] := by
    rw [diagnostics_eq, hclasses, List.filterMap_cons, remark?, hs]
    rfl
  obtain ⟨fix, hfix⟩ : ∃ fix, quickFixes (diagnostics .standard "<p className=\"flex_\"/>".toList)
      = [fix] := by
    rw [hdiagnostics, quickFixes, List.filterMap_cons, quickFix?_ofFault_some]
    exact ⟨_, rfl⟩
  have hmem : fix ∈ quickFixes (diagnostics .standard "<p className=\"flex_\"/>".toList) := by
    rw [hfix]
    exact List.mem_singleton_self fix
  obtain ⟨n, fault, before, behind, hn, hbefore, hafter⟩ := hfixes fix hmem
  refine ⟨⟨s, hs, hvalid⟩, fix, hmem, hflagged, ?_⟩
  rw [hflagged, eq_comm, List.append_eq_singleton_iff] at hbefore
  rcases hbefore with ⟨rfl, hcons⟩ | ⟨-, hcons⟩
  · obtain ⟨rfl, rfl⟩ := List.cons_eq_cons.mp hcons
    rw [hs] at hn
    obtain ⟨-, htext⟩ := Verdict.invalid.inj hn
    rw [hafter, ← Option.some.inj htext, hvalid]
    rfl
  · cases hcons

/-- A misspelt class behind a variant that is not known. -/
theorem suggestion_not_valid : ∃ s,
    Catalog.standard.check "foo:flex_".toList = .invalid (.unknownClass "foo:flex_") (some s)
      ∧ Catalog.standard.check s.toList ≠ .valid := by
  obtain ⟨e, he, hname⟩ := exists_flex
  obtain ⟨s, hs⟩ := exists_suggestion "foo:flex_".toList "flex_".toList
    Catalog.isNamed_standard he (by decide) (by decide) (by decide) (by decide)
    (by rw [hname]; decide) (by rw [hname]; decide)
  rw [String.ofList_toList] at hs
  obtain ⟨d, -, -, hcheck⟩ := Catalog.exists_of_suggestion Catalog.isNamed_standard hs
  refine ⟨s, hs, fun hvalid => ?_⟩
  have hvariants : (Token.splitVariants (Text.trim "foo:flex_".toList)).1 = ["foo".toList] := by
    decide
  rw [hcheck, Catalog.checkVariants_eq_valid_iff, hvariants] at hvalid
  have hfoo := hvalid "foo".toList (by simp)
  rw [String.ofList_toList] at hfoo
  have hnone : d.supports? "foo" = none := by
    have hunknown : Breakpoint.ofName? "foo" = none := by decide
    simp [Entry.supports?, hunknown]
  rw [hnone] at hfoo
  cases hfoo

end CanvasSync.Assist
