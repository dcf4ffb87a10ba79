import CanvasSync.Line.Edit
import CanvasSync.Proofs.Line.Scanning

/-!
The class attribute of an element on one line, set once and once more.

The value that is replaced is looked for on the line alone, whatever tag it stands in; the attribute
that is added stands in the first opening tag. The second time the added attribute is what is
looked for, so no other one may begin before it.

* `IsClassValue`: a line around its first class value, and `hasClassValue_iff`;
* `setClassName_of_isClassValue`: the value is replaced;
* `exists_inject`: a line around the place where an attribute is added;
* `IsUnclassed`: the same of a line without a class attribute, which gets one;
* `setClassName_lawful`: what is set is what is found, the last value counts, and nothing else
  changes.
-/

namespace CanvasSync.Line

open CanvasSync.Text (allBlank contains cut? trim trimEnd)
open Tag (inject split?)

variable {line before value after c : Text} {t : Tag}

/-! ### The value of a class attribute -/

/-- A line around the value of its first class attribute in double quotes, which ends on it. -/
structure IsClassValue (line before value after : Text) : Prop where
  text : line = before ++ (classStart ++ (value ++ '"' :: after))
  first : ∀ x y, line = x ++ (classStart ++ y) → before.length ≤ x.length
  free : '"' ∉ value

lemma classStart_eq : classStart = classMark ++ ['"'] := by decide +kernel

lemma isClassValue_iff : IsClassValue line before value after
    ↔ cut? classStart line = some (before, value ++ '"' :: after) ∧ '"' ∉ value :=
  ⟨fun h => ⟨Text.cut?_eq_some_iff.mpr ⟨h.text, h.first⟩, h.free⟩,
    fun h => ⟨(Text.cut?_eq_some_iff.mp h.1).1, (Text.cut?_eq_some_iff.mp h.1).2, h.2⟩⟩

/-- Whether a class attribute in double quotes ends on the line. -/
def HasClassValue (line : Text) : Prop :=
  ∃ x y z, line = x ++ (classStart ++ (y ++ '"' :: z))

lemma HasClassValue.contains_classStart (h : HasClassValue line) : contains line classStart := by
  obtain ⟨x, y, z, hline⟩ := h
  exact Text.contains_iff.mpr ⟨x, y ++ '"' :: z, by simp [hline]⟩

/-- If any class attribute of a line in double quotes ends on it, the first one does. -/
lemma hasClassValue_iff :
    HasClassValue line ↔ ∃ before value after, IsClassValue line before value after := by
  refine ⟨fun h => ?_, fun ⟨before, value, after, h⟩ => ⟨before, value, after, h.text⟩⟩
  obtain ⟨⟨before, rest⟩, hcut⟩ := Option.isSome_iff_exists.mp h.contains_classStart
  obtain ⟨x, y, z, hline⟩ := h
  obtain ⟨htext, hfirst⟩ := Text.cut?_eq_some_iff.mp hcut
  rw [← List.append_assoc] at htext hline
  -- what follows the first one goes on over the one that ends
  obtain ⟨m, hm⟩ : before ++ classStart <+: x ++ classStart := by
    refine List.prefix_of_prefix_length_le ⟨rest, htext.symm⟩ ⟨y ++ '"' :: z, hline.symm⟩ ?_
    simpa using hfirst x (y ++ '"' :: z) (by rw [hline, List.append_assoc])
  have hrest : rest = m ++ (y ++ '"' :: z) := by
    rw [htext, ← hm, List.append_assoc (before ++ classStart)] at hline
    exact List.append_cancel_left hline
  obtain ⟨value, after, hvalue, hfree⟩ :=
    List.eq_append_cons_of_mem (show '"' ∈ rest by rw [hrest]; simp)
  exact ⟨before, value, after, isClassValue_iff.mpr ⟨by rw [hcut, hvalue], hfree⟩⟩

lemma notMem_trim (hc : '"' ∉ c) : '"' ∉ trim c := fun h => hc ((Text.trim_isInfix c).subset h)

/-- The value of the first class attribute is replaced. -/
lemma setClassName_of_isClassValue (h : IsClassValue line before value after) (c : Text) :
    setClassName line c = before ++ (classStart ++ (trim c ++ '"' :: after)) := by
  obtain ⟨hcut, hvalue⟩ := isClassValue_iff.mp h
  simp [setClassName, hcut, Text.cut?_singleton_eq_some_iff.mpr ⟨rfl, hvalue⟩]

/-- What is set is the first value again. -/
lemma IsClassValue.setClassName (h : IsClassValue line before value after) (hc : '"' ∉ c) :
    IsClassValue (setClassName line c) before (trim c) after := by
  rw [setClassName_of_isClassValue h]
  have hcut := (isClassValue_iff.mp h).1
  rw [h.text] at hcut
  exact isClassValue_iff.mpr ⟨Text.cut?_append_of_cut? (by decide) hcut _, notMem_trim hc⟩

/-- Without a class value that ends on the line, the line is left or an attribute is added. -/
lemma setClassName_of_not_hasClassValue (h : ¬HasClassValue line) (c : Text) :
    setClassName line c = if contains line classMark then line
      else inject line (classStart ++ (trim c ++ ['"'])) := by
  cases hcut : cut? classStart line with
  | none => simp [Line.setClassName, hcut]
  | some parts =>
      obtain ⟨before, rest⟩ := parts
      cases hquote : cut? ['"'] rest with
      | none => simp [Line.setClassName, hcut, hquote]
      | some parts =>
          obtain ⟨value, after⟩ := parts
          obtain ⟨rfl, hvalue⟩ := Text.cut?_singleton_eq_some_iff.mp hquote
          exact absurd (hasClassValue_iff.mpr ⟨_, _, _, isClassValue_iff.mpr ⟨hcut, hvalue⟩⟩) h

/-! ### An attribute that is added -/

/-- The place of an added attribute is the same for all attributes: within the first opening tag,
with only blanks and the slash of a tag that closes itself behind it. -/
lemma exists_inject (h : split? line = some t) : ∃ kept gap slash,
    t.body = kept ++ (gap ++ slash) ∧ allBlank gap ∧ (slash = [] ∨ slash = ['/'])
      ∧ ∀ added, inject line added
        = t.before ++ (kept ++ ' ' :: (added ++ (gap ++ (slash ++ t.after)))) := by
  obtain ⟨hline, -, ⟨d, u, hbody, -, -⟩, -⟩ := Tag.split?_eq_some_iff.mp h
  obtain ⟨w, slash, hw, hslash, hhead⟩ : ∃ w slash, d :: u = w ++ slash
      ∧ (slash = [] ∨ slash = ['/'])
      ∧ (if t.closesItself then t.head.dropLast else t.head) = t.before ++ '<' :: w := by
    by_cases hcloses : t.closesItself
    · have hlast : (d :: u).getLast? = some '/' := by
        simpa [Tag.closesItself, Tag.head, hbody] using hcloses
      obtain ⟨w, hw⟩ := List.getLast?_eq_some_iff.mp hlast
      refine ⟨w, ['/'], hw, .inr rfl, ?_⟩
      rw [if_pos hcloses, Tag.head, hbody, hw, ← List.cons_append, ← List.append_assoc,
        List.dropLast_concat]
    · exact ⟨d :: u, [], by simp, .inl rfl, by rw [if_neg hcloses, Tag.head, hbody]⟩
  obtain ⟨gap, hgap, hblank⟩ := Text.exists_eq_trimEnd_append w
  have hparts : t.body = ('<' :: trimEnd w) ++ (gap ++ slash) := by
    rw [hbody, hw, List.cons_append, ← List.append_assoc, ← hgap]
  refine ⟨'<' :: trimEnd w, gap, slash, hparts, hblank, hslash, fun added => ?_⟩
  have htrim : trimEnd (t.before ++ '<' :: w) = t.before ++ '<' :: trimEnd w := by
    have hsolid : Text.endsSolid (t.before ++ ['<']) := Text.endsSolid_append _ (by decide)
    simpa using Text.trimEnd_append_of_endsSolid hsolid w
  have hrest : line = (t.before ++ '<' :: trimEnd w) ++ (gap ++ (slash ++ t.after)) := by
    rw [hline, hparts]
    simp
  rw [inject, h]
  simp only [hhead, htrim]
  rw [hrest, List.drop_left]
  simp

/-- No class attribute begins before the one that is added to a line without any. -/
lemma isClassValue_inject {x rest : Text} (hx : ¬classMark <:+: x) (hvalue : '"' ∉ value) :
    IsClassValue (x ++ ' ' :: (classStart ++ (value ++ '"' :: rest))) (x ++ [' ']) value rest := by
  have hfree : contains (x ++ [' ']) classStart = false := by
    rw [← Bool.not_eq_true, Text.contains_iff, List.infix_concat_iff, List.suffix_concat_iff,
      classStart_eq]
    rintro ((hnil | ⟨u, hu, -⟩) | hinfix)
    · simp at hnil
    · simpa using congrArg List.getLast? hu
    · exact hx ((List.prefix_append _ _).isInfix.trans hinfix)
  rw [classStart_eq] at hfree
  have hcut := Text.cut?_of_contains_eq_false hfree (by decide) (value ++ '"' :: rest)
  rw [← classStart_eq] at hcut
  exact isClassValue_iff.mpr ⟨by simpa using hcut, hvalue⟩

/-- A line without any class attribute, around the place in its first opening tag where one is
added. -/
structure IsUnclassed (line : Text) (t : Tag) (kept gap slash : Text) : Prop where
  text : line = t.before ++ (kept ++ (gap ++ (slash ++ t.after)))
  blank : allBlank gap
  closing : slash = [] ∨ slash = ['/']
  unmarked : ¬classMark <:+: line
  added : ∀ added, inject line added
    = t.before ++ (kept ++ ' ' :: (added ++ (gap ++ (slash ++ t.after))))

lemma exists_isUnclassed (hmark : ¬classMark <:+: line) (h : split? line = some t) :
    ∃ kept gap slash, IsUnclassed line t kept gap slash := by
  obtain ⟨kept, gap, slash, hbody, hgap, hslash, hinject⟩ := exists_inject h
  refine ⟨kept, gap, slash, ?_, hgap, hslash, hmark, hinject⟩
  rw [(Tag.split?_eq_some_iff.mp h).1, hbody]
  simp

namespace IsUnclassed

variable {kept gap slash : Text}

/-- A class attribute is added. -/
lemma setClassName_eq (h : IsUnclassed line t kept gap slash) (c : Text) :
    setClassName line c = (t.before ++ kept)
      ++ ' ' :: (classStart ++ (trim c ++ '"' :: (gap ++ (slash ++ t.after)))) := by
  have hnot : ¬HasClassValue line := by
    rintro ⟨x, y, z, hline⟩
    refine h.unmarked ⟨x, '"' :: (y ++ '"' :: z), ?_⟩
    rw [hline, classStart_eq]
    simp
  have hmark : ¬contains line classMark := by
    rw [Text.contains_iff]
    exact h.unmarked
  rw [setClassName_of_not_hasClassValue hnot, if_neg hmark, h.added]
  simp

/-- The attribute that is added is the first one. -/
lemma isClassValue (h : IsUnclassed line t kept gap slash) (hc : '"' ∉ c) :
    IsClassValue (setClassName line c) (t.before ++ kept ++ [' ']) (trim c)
      (gap ++ (slash ++ t.after)) := by
  have hinfix : t.before ++ kept <:+: line := ⟨[], gap ++ (slash ++ t.after), by simp [h.text]⟩
  rw [h.setClassName_eq]
  exact isClassValue_inject (fun hmark => h.unmarked (hmark.trans hinfix)) (notMem_trim hc)

end IsUnclassed

/-! ### The laws -/

/-- **The class attribute of a line is set lawfully**, to a text without a double quote: what is set
last counts; a line with a value has the trimmed text in its place; a line without any class
attribute has one in its first opening tag, with only blanks and the slash of the tag behind it; any
other line stays as it is. -/
theorem setClassName_lawful (line : Text) (hc : '"' ∉ c) :
    (∀ d, setClassName (setClassName line c) d = setClassName line d)
    ∧ (HasClassValue line → ∃ before value after, IsClassValue line before value after
        ∧ IsClassValue (setClassName line c) before (trim c) after)
    ∧ (∀ t, ¬classMark <:+: line → split? line = some t → ∃ kept gap slash,
        line = t.before ++ (kept ++ (gap ++ (slash ++ t.after))) ∧ allBlank gap
        ∧ (slash = [] ∨ slash = ['/'])
        ∧ IsClassValue (setClassName line c) (t.before ++ kept ++ [' ']) (trim c)
          (gap ++ (slash ++ t.after)))
    ∧ (¬HasClassValue line → (classMark <:+: line ∨ split? line = none) →
        setClassName line c = line) := by
  have hkept (hvalue : ¬HasClassValue line) (hstays : classMark <:+: line ∨ split? line = none)
      (d : Text) : setClassName line d = line := by
    rw [setClassName_of_not_hasClassValue hvalue]
    split
    · rfl
    · next hmark =>
        rw [Text.contains_iff] at hmark
        rw [inject, hstays.resolve_left hmark]
  refine ⟨fun d => ?_, fun hvalue => ?_, fun t hmark ht => ?_, fun hvalue hstays =>
    hkept hvalue hstays c⟩
  · by_cases hvalue : HasClassValue line
    · obtain ⟨before, value, after, h⟩ := hasClassValue_iff.mp hvalue
      rw [setClassName_of_isClassValue (h.setClassName hc), setClassName_of_isClassValue h]
    · by_cases hmark : classMark <:+: line
      · rw [hkept hvalue (.inl hmark)]
      · cases ht : split? line with
        | none => rw [hkept hvalue (.inr ht)]
        | some t =>
            obtain ⟨kept, gap, slash, h⟩ := exists_isUnclassed hmark ht
            rw [setClassName_of_isClassValue (h.isClassValue hc), h.setClassName_eq]
            simp
  · obtain ⟨before, value, after, h⟩ := hasClassValue_iff.mp hvalue
    exact ⟨before, value, after, h, h.setClassName hc⟩
  · obtain ⟨kept, gap, slash, h⟩ := exists_isUnclassed hmark ht
    exact ⟨kept, gap, slash, h.text, h.blank, h.closing, h.isClassValue hc⟩

/-- A value replaced, an attribute added, and a line that stays. -/
theorem setClassName_lawful_small :
    setClassName (setClassName "<br />".toList " p-2 ".toList) "m-1".toList
        = "<br className=\"m-1\" />".toList
      ∧ (∃ before value after, IsClassValue "<p className=\"a\">".toList before value after
        ∧ IsClassValue (setClassName "<p className=\"a\">".toList "p-2".toList) before "p-2".toList
          after)
      ∧ (∃ kept gap slash, allBlank gap ∧ (slash = [] ∨ slash = ['/'])
        ∧ IsClassValue (setClassName "<br />".toList "p-2".toList) (kept ++ [' ']) "p-2".toList
          (gap ++ (slash ++ ['>'])))
      ∧ setClassName "<p className=\x7bx\x7d>".toList "p-2".toList
        = "<p className=\x7bx\x7d>".toList := by
  have hfree : '"' ∉ "p-2".toList := by decide +kernel
  have htrim : trim "p-2".toList = "p-2".toList := by decide +kernel
  refine ⟨?_, ?_, ?_, ?_⟩
  · rw [(setClassName_lawful "<br />".toList (by decide +kernel)).1]
    decide +kernel
  · have h := (setClassName_lawful "<p className=\"a\">".toList hfree).2.1
      ⟨"<p ".toList, ['a'], ['>'], by decide +kernel⟩
    rwa [htrim] at h
  · obtain ⟨kept, gap, slash, -, hgap, hslash, h⟩ :=
      (setClassName_lawful "<br />".toList hfree).2.2.1
        ⟨[], "<br /".toList, ['>']⟩ (by decide +kernel) (by decide +kernel)
    rw [htrim] at h
    exact ⟨kept, gap, slash, hgap, hslash, h⟩
  · refine (setClassName_lawful _ hfree).2.2.2 (fun h => ?_) (.inl (by decide +kernel))
    exact absurd h.contains_classStart (by decide +kernel)

end CanvasSync.Line
