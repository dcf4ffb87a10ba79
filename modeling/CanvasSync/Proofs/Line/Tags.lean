import CanvasSync.Line.Edit
import CanvasSync.Proofs.Edit.Sites
import CanvasSync.Proofs.Line.Scanning

/-!
Attributes of a written tag, set by its line.

* `IsDelimitedTag`: a tag that the scan for its end reads as it is written;
* `Finds`: whether the search for an attribute of this tag comes to where it is written;
* `attributeFrom?_here`: the search ends at the attribute of its name;
* `split?_opening`, `findAttribute?_eq_none`, `findAttribute?_eq_some`: what the scans find in a
  line with this tag;
* `Shell.set`: a tag with values set under the names of its attributes, or added to them;
* `setProp_eq_set`: what a prop does to the line of a tag;
* `Scans`, `IsScannedTag`: a tag in which several names are searched for, and `setProp_opening`.
-/

namespace CanvasSync

open CanvasSync.Json (Fields Value)
open CanvasSync.Markup (Part Shell addedParts partsText setParts)
open CanvasSync.Script (isAttributeName isAttributeName_cases isMarkupName isMarkupPart)
open CanvasSync.Script.Grammar (isBlank_of_mem_attributeName isBlank_of_mem_markupName
  isMarkupPart_of_isBlank valueText valueText_cases)

namespace Markup

/-- The blanks behind the last attribute of a tag. -/
def Shell.gap : Shell → Text
  | fragment => []
  | element t | closed t => t.gap

/-- The sign of a tag that closes itself. -/
def Shell.slash : Shell → Text
  | closed _ => ['/']
  | _ => []

/-- An opening tag in its parts. -/
lemma Shell.opening_eq {s : Shell} (h : s.isFragment = false) :
    s.opening = '<' :: (s.name ++ (partsText s.parts ++ (s.gap ++ (s.slash ++ ['>'])))) := by
  cases s with
  | fragment => cases h
  | element t => simp [opening, Tag.text, name, parts, gap, slash]
  | closed t => simp [opening, Tag.text, name, parts, gap, slash]

/-- A tag with values set under the names of its attributes. -/
def Tag.set (changes : Fields) (t : Tag) : Tag :=
  { t with parts := setParts changes t.parts ++ addedParts changes t.parts }

/-- The tags of an element with values set under the names of its attributes. -/
def Shell.set (changes : Fields) : Shell → Shell
  | fragment => fragment
  | element t => element (t.set changes)
  | closed t => closed (t.set changes)

namespace Shell

variable {s : Shell}

@[simp] lemma name_set (changes : Fields) : (s.set changes).name = s.name := by cases s <;> rfl

@[simp] lemma gap_set (changes : Fields) : (s.set changes).gap = s.gap := by cases s <;> rfl

@[simp] lemma slash_set (changes : Fields) : (s.set changes).slash = s.slash := by cases s <;> rfl

@[simp] lemma isFragment_set (changes : Fields) : (s.set changes).isFragment = s.isFragment := by
  cases s <;> rfl

lemma parts_set (h : s.isFragment = false) (changes : Fields) :
    (s.set changes).parts = setParts changes s.parts ++ addedParts changes s.parts := by
  cases s with
  | fragment => cases h
  | element t => rfl
  | closed t => rfl

end Shell

/-- The opening tag with values set under the names of its attributes. -/
lemma Shell.opening_set {s : Shell} (h : s.isFragment = false) (changes : Fields) :
    (s.set changes).opening = '<' :: (s.name
      ++ (partsText (setParts changes s.parts ++ addedParts changes s.parts)
        ++ (s.gap ++ (s.slash ++ ['>'])))) := by
  rw [opening_eq (by rw [isFragment_set, h]), parts_set h, name_set, gap_set, slash_set]

end Markup

namespace Line

open Tag (IsLevel afterBraces? afterChar? afterValue? attributeFrom? endsName isLevel_append
  isLevel_of_forall isSilent isTelling judge scan splitEnd? splitStart?)

variable {names : List String} {s : Shell} {p : Part} {ps : List Part} {w y pre post : Text}
  {v : Value} {key : String} {c : Char}

/-! ### Names -/

/-- Whether a character may stand in the name of an attribute. -/
def isNameChar (c : Char) : Bool := isMarkupPart c || c = ':'

lemma isNameChar_of_mem_markupName (h : isMarkupName w) : ∀ c ∈ w, isNameChar c := by
  cases w with
  | nil => cases h
  | cons c t =>
      simp only [isMarkupName, Bool.and_eq_true, List.all_eq_true] at h
      refine List.forall_mem_cons.mpr ⟨?_, fun x hx => by simp [isNameChar, h.2 x hx]⟩
      simp [isNameChar, isMarkupPart, Script.isNamePart_of_isNameStart h.1]

lemma isNameChar_of_mem (h : isAttributeName w) : ∀ c ∈ w, isNameChar c := by
  rcases isAttributeName_cases h with h | ⟨a, b, rfl, ha, hb⟩
  · exact isNameChar_of_mem_markupName h
  · exact List.forall_mem_append.mpr ⟨isNameChar_of_mem_markupName ha,
      List.forall_mem_cons.mpr ⟨rfl, isNameChar_of_mem_markupName hb⟩⟩

/-- What means something to a scan is no part of a name. -/
lemma not_isNameChar (h : isTelling c || endsName c) : isNameChar c = false := by
  have hblank (h : isBlank c) : isNameChar c = false := by
    have hcolon : c ≠ ':' := by
      rintro rfl
      exact absurd h (by decide)
    simp [isNameChar, isMarkupPart_of_isBlank h, hcolon]
  simp only [isTelling, endsName, Bool.or_eq_true, decide_eq_true_eq] at h
  rcases h with (((((rfl | rfl) | rfl) | rfl) | rfl) | rfl) | (((rfl | h) | rfl) | rfl)
  case inr.inl.inl.inr => exact hblank h
  all_goals decide +kernel

lemma isLevel_of_isNameChar (h : ∀ c ∈ w, isNameChar c) : IsLevel w := by
  refine isLevel_of_forall fun c hc => ?_
  by_contra htelling
  have hnot : isNameChar c = false := not_isNameChar (by simp [htelling])
  rw [h c hc] at hnot
  cases hnot

lemma isLevel_of_allBlank (h : Text.allBlank w) : IsLevel w := by
  refine isLevel_of_forall fun c hc => ?_
  have hblank := List.all_eq_true.mp h c hc
  by_contra htelling
  rw [Bool.not_eq_false, isTelling] at htelling
  simp only [Bool.or_eq_true, decide_eq_true_eq] at htelling
  rcases htelling with ((((rfl | rfl) | rfl) | rfl) | rfl) | rfl <;> exact absurd hblank (by decide)

lemma ne_nil_of_isAttributeName (h : isAttributeName w) : w ≠ [] := by
  rintro rfl
  cases h

/-! ### Values -/

lemma afterChar?_append {q : Char} {r : Text} (h : afterChar? q w = some r) (y : Text) :
    afterChar? q (w ++ y) = some (r ++ y) := by
  induction w with
  | nil => cases h
  | cons c w ih =>
      rw [afterChar?] at h
      rw [List.cons_append, afterChar?]
      split at h
      · next hc => rw [if_pos hc, Option.some.inj h]
      · next hc => rw [if_neg hc, ih h]

lemma afterBraces?_append {depth : Nat} {r : Text} (h : afterBraces? depth w = some r) (y : Text) :
    afterBraces? depth (w ++ y) = some (r ++ y) := by
  induction w generalizing depth with
  | nil => cases h
  | cons c w ih =>
      rw [afterBraces?] at h
      rw [List.cons_append, afterBraces?]
      split_ifs at h ⊢ with hopen hclose hdepth
      · exact ih h
      · rw [Option.some.inj h]
      · exact ih h
      · exact ih h

/-- A value ends where it ends, whatever follows. -/
lemma afterValue?_append {r : Text} (h : afterValue? w = some r) (y : Text) :
    afterValue? (w ++ y) = some (r ++ y) := by
  cases w with
  | nil => cases h
  | cons c w =>
      rw [afterValue?] at h
      rw [List.cons_append, afterValue?]
      split_ifs at h ⊢ with hquote hopen
      · exact afterChar?_append h y
      · rw [← List.cons_append]
        exact afterBraces?_append h y

/-- The last sign of a value that nothing follows. -/
lemma getLast?_of_afterValue? (h : afterValue? w = some []) :
    ∃ c, w.getLast? = some c ∧ (c = '"' ∨ c = '\'' ∨ c = '\x7d') := by
  have hchar {q : Char} {t : Text} (h : afterChar? q t = some []) : t.getLast? = some q := by
    induction t with
    | nil => cases h
    | cons c t ih =>
        rw [afterChar?] at h
        split at h
        · next hc =>
            obtain rfl := Option.some.inj h
            rw [hc]
            rfl
        · rw [List.getLast?_cons, ih h]
          rfl
  have hbraces {depth : Nat} {t : Text} (h : afterBraces? depth t = some []) :
      t.getLast? = some '\x7d' := by
    induction t generalizing depth with
    | nil => cases h
    | cons c t ih =>
        rw [afterBraces?] at h
        split_ifs at h with hopen hclose hdepth
        · rw [List.getLast?_cons, ih h]
          rfl
        · obtain rfl := Option.some.inj h
          rw [hclose]
          rfl
        · rw [List.getLast?_cons, ih h]
          rfl
        · rw [List.getLast?_cons, ih h]
          rfl
  cases w with
  | nil => cases h
  | cons c w =>
      rw [afterValue?] at h
      split_ifs at h with hquote hopen
      · refine ⟨c, ?_, ?_⟩
        · rw [List.getLast?_cons, hchar h]
          rfl
        · rcases hquote with rfl | rfl <;> simp
      · exact ⟨_, hbraces h, .inr (.inr rfl)⟩

/-- Whether a value ends where it is written, by the scan for its end. -/
def EndsThere (behind : Text) : Prop := behind = [] ∨ ∃ w, behind = '=' :: w ∧ afterValue? w = some []

/-- An attribute behind which the scan for the end of its tag has nothing open, and which ends with
its name, a quote or a brace. -/
structure IsDelimited (p : Part) : Prop where
  gap_ne : p.gap ≠ []
  gap : Text.allBlank p.gap
  name : isAttributeName p.name.toList
  level : IsLevel p.behind
  ends : p.behind = [] ∨ ∃ w c, p.behind = '=' :: (w ++ [c]) ∧ (c = '"' ∨ c = '\'' ∨ c = '\x7d')

/-- What stands behind the name of an attribute, if the scans of a line read it as it is written and
none of some names is found in it. -/
structure Scans (names : List String) (behind : Text) : Prop where
  level : IsLevel behind
  ends : behind = [] ∨ ∃ w, behind = '=' :: w ∧ afterValue? w = some []
  silent : ∀ n ∈ names, isSilent n.toList false behind

lemma scans_iff : Scans names w ↔ IsLevel w
    ∧ (w = [] ∨ (w.head? = some '=' ∧ afterValue? w.tail = some []))
    ∧ ∀ n ∈ names, isSilent n.toList false w := by
  have hends : (w = [] ∨ (w.head? = some '=' ∧ afterValue? w.tail = some []))
      ↔ (w = [] ∨ ∃ y, w = '=' :: y ∧ afterValue? y = some []) := by
    cases w <;> simp
  rw [hends]
  exact ⟨fun h => ⟨h.level, h.ends, h.silent⟩,
    fun ⟨hlevel, hends, hsilent⟩ => ⟨hlevel, hends, hsilent⟩⟩

instance : Decidable (Scans names w) := decidable_of_iff' _ scans_iff

/-- A string in quotes is read as it is written if no name is found in it. -/
lemma scans_quoted {q : Char} (hq : q = '"' ∨ q = '\'') (hw : q ∉ w)
    (hsilent : ∀ n ∈ names, isSilent n.toList false ('=' :: q :: (w ++ [q]))) :
    Scans names ('=' :: q :: (w ++ [q])) := by
  refine ⟨?_, .inr ⟨_, rfl, ?_⟩, hsilent⟩
  · exact isLevel_append (t := ['=']) (by decide) (Tag.isLevel_quoted hq hw)
  · have hchar : afterChar? q (w ++ [q]) = some [] := by
      clear hsilent
      induction w with
      | nil => simp [afterChar?]
      | cons c w ih =>
          rw [List.mem_cons, not_or] at hw
          rw [List.cons_append, afterChar?, if_neg (Ne.symm hw.1), ih hw.2]
    rw [afterValue?, if_pos hq, hchar]

/-- An attribute that the scans of its line read as it is written. -/
structure IsScanned (names : List String) (p : Part) : Prop where
  gap_ne : p.gap ≠ []
  gap : Text.allBlank p.gap
  name : isAttributeName p.name.toList
  scans : Scans names p.behind

instance : Decidable (IsScanned names p) :=
  decidable_of_iff (p.gap ≠ [] ∧ Text.allBlank p.gap ∧ isAttributeName p.name.toList
      ∧ Scans names p.behind)
    ⟨fun ⟨hne, hgap, hname, hscans⟩ => ⟨hne, hgap, hname, hscans⟩,
      fun h => ⟨h.gap_ne, h.gap, h.name, h.scans⟩⟩

/-- A value that ends where it is written has a last sign. -/
lemma exists_of_endsThere (h : EndsThere w) :
    w = [] ∨ ∃ y c, w = '=' :: (y ++ [c]) ∧ (c = '"' ∨ c = '\'' ∨ c = '\x7d') := by
  refine h.imp id fun ⟨y, hw, hends⟩ => ?_
  obtain ⟨c, hc, hcases⟩ := getLast?_of_afterValue? hends
  obtain ⟨z, rfl⟩ := List.getLast?_eq_some_iff.mp hc
  exact ⟨z, c, hw, hcases⟩

lemma IsScanned.isDelimited (hp : IsScanned names p) : IsDelimited p :=
  ⟨hp.gap_ne, hp.gap, hp.name, hp.scans.level, exists_of_endsThere hp.scans.ends⟩

/-- An attribute ends with its name, a quote or a brace. -/
lemma IsDelimited.getLast? (hp : IsDelimited p) : ∃ c, p.whole.getLast? = some c
    ∧ isBlank c = false ∧ c ≠ '/' := by
  have hwhole : p.whole = (p.gap ++ p.name.toList) ++ p.behind := by
    rw [Part.whole, Part.text, List.append_assoc]
  rcases hp.ends with hnil | ⟨w, c, hw, hcases⟩
  · have hne := ne_nil_of_isAttributeName hp.name
    have hlast := List.getLast_mem hne
    refine ⟨_, ?_, isBlank_of_mem_attributeName hp.name _ hlast, fun hslash => ?_⟩
    · rw [hwhole, hnil, List.append_nil, List.getLast?_append_of_ne_nil _ hne,
        List.getLast?_eq_some_getLast hne]
    · have hchar := isNameChar_of_mem hp.name _ hlast
      rw [hslash] at hchar
      exact absurd hchar (by decide +kernel)
  · refine ⟨c, ?_, ?_, ?_⟩
    · rw [hwhole, hw, ← List.cons_append, ← List.append_assoc, List.getLast?_concat]
    · rcases hcases with rfl | rfl | rfl <;> decide
    · rcases hcases with rfl | rfl | rfl <;> decide

lemma isLevel_partsText (hps : ∀ p ∈ ps, IsDelimited p) : IsLevel (partsText ps) := by
  induction ps with
  | nil => rfl
  | cons p ps ih =>
      rw [List.forall_mem_cons] at hps
      have hname := isLevel_of_isNameChar (isNameChar_of_mem hps.1.name)
      rw [Markup.partsText_cons, Part.text]
      exact isLevel_append (isLevel_of_allBlank hps.1.gap)
        (isLevel_append (isLevel_append hname hps.1.level) (ih hps.2))

/-! ### What the scans find -/

/-- A tag that the scans of its line read as it is written. -/
structure IsScannedTag (names : List String) (s : Shell) : Prop where
  fragment : s.isFragment = false
  name : isMarkupName s.name
  letter : s.name.head?.any Char.isAlpha
  parts : ∀ p ∈ s.parts, IsScanned names p
  gap : Text.allBlank s.gap

instance : Decidable (IsScannedTag names s) :=
  decidable_of_iff (s.isFragment = false ∧ isMarkupName s.name ∧ s.name.head?.any Char.isAlpha
      ∧ (∀ p ∈ s.parts, IsScanned names p) ∧ Text.allBlank s.gap)
    ⟨fun ⟨hfragment, hname, hletter, hparts, hgap⟩ => ⟨hfragment, hname, hletter, hparts, hgap⟩,
      fun h => ⟨h.fragment, h.name, h.letter, h.parts, h.gap⟩⟩

/-- Whether a character may stand in the name of a tag. -/
def isTagChar (c : Char) : Bool := isNameChar c || c = '.'

lemma isTagChar_of_isNameChar (h : isNameChar c) : isTagChar c := by
  rw [isTagChar, h, Bool.true_or]

/-- What is part of the name of a tag means nothing to a scan. -/
lemma not_isTelling_of_isTagChar (h : isTagChar c) : isTelling c = false ∧ endsName c = false := by
  rw [← Bool.or_eq_false_iff]
  by_contra htelling
  rw [Bool.not_eq_false] at htelling
  rw [isTagChar, not_isNameChar htelling, Bool.false_or, decide_eq_true_eq] at h
  subst h
  exact absurd htelling (by decide)

/-- A tag that the scan for its end reads as it is written. -/
structure IsDelimitedTag (s : Shell) : Prop where
  fragment : s.isFragment = false
  name : ∀ c ∈ s.name, isTagChar c
  letter : s.name.head?.any Char.isAlpha
  parts : ∀ p ∈ s.parts, IsDelimited p
  gap : Text.allBlank s.gap

lemma IsScannedTag.isDelimited (hs : IsScannedTag names s) : IsDelimitedTag s :=
  ⟨hs.fragment, fun c hc => isTagChar_of_isNameChar (isNameChar_of_mem_markupName hs.name c hc),
    hs.letter, fun p hp => (hs.parts p hp).isDelimited, hs.gap⟩

/-- The name of a tag begins with a letter. -/
lemma IsDelimitedTag.exists_letter (hs : IsDelimitedTag s) :
    ∃ c w, s.name = c :: w ∧ c.isAlpha := by
  obtain ⟨c, hc, hletter⟩ := Option.any_eq_true _ _ |>.mp hs.letter
  obtain ⟨w, hw⟩ := List.head?_eq_some_iff.mp hc
  exact ⟨c, w, hw, hletter⟩

lemma IsDelimitedTag.not_isBlank (hs : IsDelimitedTag s) : ∀ c ∈ s.name, isBlank c = false := by
  intro c hc
  have hends := (not_isTelling_of_isTagChar (hs.name c hc)).2
  simp only [endsName, Bool.or_eq_false_iff] at hends
  exact hends.1.1.2

/-- Whether the search for an attribute comes to where it is written, and to where it ends: its name
is found in no value before it. -/
def Finds (key : String) : List Part → Prop
  | [] => True
  | p :: ps =>
    if p.name = key then EndsThere p.behind else isSilent key.toList false p.behind ∧ Finds key ps

/-- The search for an attribute goes on behind blanks. -/
lemma attributeFrom?_of_allBlank {name after head gap : Text} (hname : isAttributeName name)
    (hgap : Text.allBlank gap) (y : Text) :
    attributeFrom? name after head (gap ++ y) = attributeFrom? name after (head ++ gap) y := by
  induction gap generalizing head with
  | nil => simp
  | cons c gap ih =>
      simp only [Text.allBlank, List.all_cons, Bool.and_eq_true] at hgap
      have hnone : ∀ rest, Text.strip? name (c :: (gap ++ y)) = some rest →
          judge head (rest ++ after) = .further := fun rest hrest => by
        have htext := Text.eq_of_strip? hrest
        obtain ⟨d, name', rfl⟩ := List.exists_cons_of_ne_nil (ne_nil_of_isAttributeName hname)
        obtain ⟨rfl, -⟩ := List.cons.inj htext
        rw [isBlank_of_mem_attributeName hname c List.mem_cons_self] at hgap
        cases hgap.1
      rw [List.cons_append, Tag.attributeFrom?_of_further hnone,
        ih (by simpa [Text.allBlank] using hgap.2)]
      simp

/-- The name of an attribute is no occurrence of another one. -/
lemma judge_of_ne {head after rest : Text} (hkey : isAttributeName key.toList)
    (hname : isAttributeName p.name.toList) (hne : p.name ≠ key)
    (hy : ∀ c ∈ y.head?, isNameChar c = false)
    (hrest : Text.strip? key.toList (p.name.toList ++ y) = some rest) :
    judge head (rest ++ after) = .further := by
  refine Tag.judge_eq_further (.inr ?_)
  rcases List.append_eq_append_iff.mp (Text.eq_of_strip? hrest) with ⟨z, hz, hz'⟩ | ⟨z, hz, hz'⟩
  · -- the key would go on behind the name
    cases z with
    | nil => exact absurd (String.toList_inj.mp (by simpa using hz.symm)) hne
    | cons d z =>
        have hd := hy d (by rw [hz']; rfl)
        rw [isNameChar_of_mem hkey d (by rw [hz]; simp)] at hd
        cases hd
  · -- the name goes on behind the key
    cases z with
    | nil => exact absurd (String.toList_inj.mp (by simpa using hz)) hne
    | cons d z =>
        have hd : isNameChar d := isNameChar_of_mem hname d (by rw [hz]; simp)
        by_contra hends
        rw [hz'] at hends
        have hends : endsName d := by simpa using hends
        have hnot : isNameChar d = false := not_isNameChar (by rw [hends, Bool.or_true])
        rw [hd] at hnot
        cases hnot

/-- The search goes on behind an attribute of another name. -/
lemma attributeFrom?_of_ne {after head : Text} (hkey : isAttributeName key.toList)
    (hp : IsDelimited p) (hsilent : isSilent key.toList false p.behind) (hne : p.name ≠ key)
    (hy : ∀ c ∈ y.head?, isNameChar c = false) :
    attributeFrom? key.toList after head (p.whole ++ y)
      = attributeFrom? key.toList after (head ++ p.whole) y := by
  have hbehind : ∀ c ∈ (p.behind ++ y).head?, isNameChar c = false := by
    rcases hp.ends with hnil | ⟨w, d, hw, -⟩
    · rwa [hnil]
    · rw [hw]
      rintro c hc
      obtain rfl := Option.some.inj hc
      decide +kernel
  have hfirst (rest : Text)
      (hrest : Text.strip? key.toList (p.name.toList ++ (p.behind ++ y)) = some rest) :
      judge (head ++ p.gap) (rest ++ after) = .further :=
    judge_of_ne hkey hp.name hne hbehind hrest
  obtain ⟨c, w, hw⟩ := List.exists_cons_of_ne_nil (ne_nil_of_isAttributeName hp.name)
  have hsolid := isBlank_of_mem_attributeName hp.name
  rw [hw, List.cons_append] at hfirst
  rw [hw] at hsolid
  have hlast (x : Text) : (x ++ [c] ++ w).getLast?.any isBlank = false := by
    have hne : c :: w ≠ [] := List.cons_ne_nil c w
    rw [List.append_assoc, List.singleton_append, List.getLast?_append_of_ne_nil _ hne,
      List.getLast?_eq_some_getLast hne]
    exact hsolid _ (List.getLast_mem hne)
  rw [List.forall_mem_cons] at hsolid
  have hwhole : p.whole ++ y = p.gap ++ (c :: (w ++ (p.behind ++ y))) := by
    simp [Part.whole, Part.text, hw]
  rw [hwhole, attributeFrom?_of_allBlank hkey hp.gap, Tag.attributeFrom?_of_further hfirst,
    Tag.attributeFrom?_solid (by simpa using hsolid.1) hsolid.2, Tag.attributeFrom?_append]
  · simp [Part.whole, Part.text, hw]
  · rw [hlast]
    exact hsilent
  · intro c hc hmem
    have hnot := hy c hc
    rw [isNameChar_of_mem hkey c hmem] at hnot
    cases hnot

/-- The search ends at the attribute of the name. -/
lemma attributeFrom?_here {after head : Text} (hp : IsDelimited p) (hends : EndsThere p.behind)
    (hy : ∀ c ∈ (y ++ after).head?, c ≠ '=' ∧ endsName c) (hne : y ++ after ≠ []) :
    attributeFrom? p.name.toList after head (p.whole ++ y) = some (head ++ p.gap, y ++ after) := by
  have hwhole : p.whole ++ y = p.gap ++ (p.name.toList ++ (p.behind ++ y)) := by
    simp [Part.whole, Part.text]
  have hjudge : judge (head ++ p.gap) (p.behind ++ y ++ after)
      = .here (some (head ++ p.gap, y ++ after)) := by
    have hblank : (head ++ p.gap).getLast?.any isBlank := by
      rw [List.getLast?_append_of_ne_nil _ hp.gap_ne, List.getLast?_eq_some_getLast hp.gap_ne]
      exact List.all_eq_true.mp hp.gap _ (List.getLast_mem hp.gap_ne)
    unfold judge
    rw [if_pos hblank]
    rcases hends with hnil | ⟨w, hw, hends⟩
    · obtain ⟨c, z, hz⟩ := List.exists_cons_of_ne_nil hne
      obtain ⟨hequals, hc⟩ := hy c (by rw [hz]; rfl)
      simp only [endsName, Bool.or_eq_true, decide_eq_true_eq] at hc
      have hends : (isBlank c || c = '/' || c = '>') = true := by
        simpa [hequals] using hc
      rw [hnil, List.nil_append, hz]
      simp only [hends, if_true]
    · rw [hw, List.cons_append, List.cons_append]
      simp [afterValue?_append hends]
  obtain ⟨c, w, hw⟩ := List.exists_cons_of_ne_nil (ne_nil_of_isAttributeName hp.name)
  have hstrip : Text.strip? p.name.toList (c :: (w ++ (p.behind ++ y))) = some (p.behind ++ y) := by
    rw [← List.cons_append, ← hw]
    exact Text.strip?_append _ _
  rw [hwhole, attributeFrom?_of_allBlank hp.name hp.gap, hw, List.cons_append, attributeFrom?, ← hw,
    hstrip]
  simp only
  rw [hjudge]

/-- Whether a text begins with what may stand behind an attribute. -/
def EndsHere (y : Text) : Prop := ∀ c ∈ y.head?, c ≠ '=' ∧ endsName c

lemma EndsHere.isNameChar (h : EndsHere y) : ∀ c ∈ y.head?, isNameChar c = false := fun c hc =>
  not_isNameChar (by rw [(h c hc).2, Bool.or_true])

lemma endsHere_of_ne_nil {gap : Text} (hne : gap ≠ []) (hgap : Text.allBlank gap) (y : Text) :
    EndsHere (gap ++ y) := by
  obtain ⟨c, gap, rfl⟩ := List.exists_cons_of_ne_nil hne
  intro d hd
  obtain rfl := Option.some.inj hd
  have hblank := List.all_eq_true.mp hgap c List.mem_cons_self
  refine ⟨?_, by simp [endsName, hblank]⟩
  rintro rfl
  exact absurd hblank (by decide)

lemma endsHere_append {gap : Text} (hgap : Text.allBlank gap) (hy : EndsHere y) :
    EndsHere (gap ++ y) := by
  by_cases hne : gap = []
  · rwa [hne]
  · exact endsHere_of_ne_nil hne hgap y

lemma endsHere_partsText (hps : ∀ p ∈ ps, IsDelimited p) (hy : EndsHere y) :
    EndsHere (partsText ps ++ y) := by
  cases ps with
  | nil => exact hy
  | cons p ps =>
      have hp := hps p List.mem_cons_self
      rw [Markup.partsText_cons, List.append_assoc]
      exact endsHere_of_ne_nil hp.gap_ne hp.gap _

lemma endsHere_slash (s : Shell) : EndsHere s.slash := by
  cases s with
  | closed t =>
      intro c hc
      obtain rfl := Option.some.inj hc
      decide
  | _ => exact fun _ h => by cases h

lemma endsHere_slash_append (s : Shell) (post : Text) : EndsHere (s.slash ++ '>' :: post) := by
  have hend : '>' ≠ '=' ∧ endsName '>' := by decide
  have hslash : '/' ≠ '=' ∧ endsName '/' := by decide
  intro c hc
  cases s <;> obtain rfl := Option.some.inj hc
  · exact hend
  · exact hend
  · exact hslash

/-- A line with a written tag, around this tag up to its last sign. -/
def tagOf (pre post : Text) (s : Shell) : Tag :=
  ⟨pre, '<' :: (s.name ++ (partsText s.parts ++ (s.gap ++ s.slash))), '>' :: post⟩

/-- The first opening tag of a line is found where it is written. -/
theorem split?_opening (hs : IsDelimitedTag s) (hpre : splitStart? pre = none) (post : Text) :
    Tag.split? (pre ++ (s.opening ++ post)) = some (tagOf pre post s) := by
  have hname : IsLevel s.name :=
    isLevel_of_forall fun c hc => (not_isTelling_of_isTagChar (hs.name c hc)).1
  have hslash : IsLevel s.slash := by cases s <;> rfl
  have hlevel : IsLevel (s.name ++ (partsText s.parts ++ (s.gap ++ s.slash))) :=
    isLevel_append hname (isLevel_append (isLevel_partsText hs.parts)
      (isLevel_append (isLevel_of_allBlank hs.gap) hslash))
  obtain ⟨c, w, hw, hletter⟩ := hs.exists_letter
  have hopening : s.opening ++ post
      = '<' :: (s.name ++ (partsText s.parts ++ (s.gap ++ s.slash)) ++ '>' :: post) := by
    rw [Shell.opening_eq hs.fragment]
    simp
  have hend := Tag.splitEnd?_of_isLevel hlevel post
  rw [hopening, Tag.split?, hw, List.cons_append, List.cons_append,
    Tag.splitStart?_append hpre hletter]
  simp only [Option.bind_eq_bind, Option.bind_some, List.drop_succ_cons, List.drop_zero]
  rw [← List.cons_append, ← List.cons_append, ← hw, hend]
  rfl

/-- The search goes on behind attributes of other names. -/
lemma attributeFrom?_of_notMem {after head : Text} (hkey : isAttributeName key.toList)
    (hps : ∀ p ∈ ps, IsDelimited p)
    (hnot : ∀ p ∈ ps, p.name ≠ key ∧ isSilent key.toList false p.behind) (hy : EndsHere y) :
    attributeFrom? key.toList after head (partsText ps ++ y)
      = attributeFrom? key.toList after (head ++ partsText ps) y := by
  induction ps generalizing head with
  | nil => simp
  | cons p ps ih =>
      rw [List.forall_mem_cons] at hps hnot
      have hcons : partsText (p :: ps) = p.whole ++ partsText ps := by simp [Part.whole]
      rw [hcons, List.append_assoc, attributeFrom?_of_ne hkey hps.1 hnot.1.2 hnot.1.1
        (endsHere_partsText hps.2 hy).isNameChar, ih hps.2 hnot.2, List.append_assoc]

/-- The search for an attribute goes through the attributes of the tag. -/
lemma findAttribute?_tagOf (hs : IsDelimitedTag s) (hkey : isAttributeName key.toList)
    (pre post : Text) : (tagOf pre post s).findAttribute? key.toList
      = some (attributeFrom? key.toList ('>' :: post) (pre ++ '<' :: s.name)
          (partsText s.parts ++ (s.gap ++ s.slash))) := by
  have hless : ∀ rest, Text.strip? key.toList ('<' :: (s.name
      ++ (partsText s.parts ++ (s.gap ++ s.slash)))) = some rest →
        judge pre (rest ++ '>' :: post) = .further := fun rest hrest => by
    have hnot : isNameChar '<' = false := by decide +kernel
    obtain ⟨c, w, hw⟩ := List.exists_cons_of_ne_nil (ne_nil_of_isAttributeName hkey)
    have htext := Text.eq_of_strip? hrest
    rw [hw, List.cons_append] at htext
    have hchar := isNameChar_of_mem hkey c (by rw [hw]; exact List.mem_cons_self)
    rw [← (List.cons.inj htext).1, hnot] at hchar
    cases hchar
  rw [Tag.findAttribute?_eq (isBlank_of_mem_attributeName hkey) (ne_nil_of_isAttributeName hkey)]
  simp only [tagOf]
  rw [Tag.attributeFrom?_of_further hless, Tag.attributeFrom?_solid (by simp; decide)
    hs.not_isBlank]
  simp

/-- An attribute that the tag does not have is not found. -/
lemma findAttribute?_eq_none (hs : IsDelimitedTag s) (hkey : isAttributeName key.toList)
    (hnot : ∀ p ∈ s.parts, p.name ≠ key ∧ isSilent key.toList false p.behind) (pre post : Text) :
    (tagOf pre post s).findAttribute? key.toList = some none := by
  have hslash (head : Text) : attributeFrom? key.toList ('>' :: post) head s.slash = none := by
    cases s with
    | closed t =>
        obtain ⟨c, w, hw⟩ := List.exists_cons_of_ne_nil (ne_nil_of_isAttributeName hkey)
        have hc : c ≠ '/' := by
          rintro rfl
          have hchar := isNameChar_of_mem hkey '/' (by rw [hw]; exact List.mem_cons_self)
          exact absurd hchar (by decide +kernel)
        rw [Shell.slash, attributeFrom?, hw, Text.strip?, if_neg hc]
        rfl
    | _ => rfl
  rw [findAttribute?_tagOf hs hkey, attributeFrom?_of_notMem hkey hs.parts hnot
    (endsHere_append hs.gap (endsHere_slash s)), attributeFrom?_of_allBlank hkey hs.gap, hslash]

/-- An attribute is found where it first stands. -/
lemma findAttribute?_eq_some {qs : List Part} (hs : IsDelimitedTag s)
    (hparts : s.parts = ps ++ p :: qs) (hends : EndsThere p.behind)
    (hnot : ∀ q ∈ ps, q.name ≠ p.name ∧ isSilent p.name.toList false q.behind) (pre post : Text) :
    (tagOf pre post s).findAttribute? p.name.toList
      = some (some (pre ++ '<' :: (s.name ++ partsText ps) ++ p.gap,
          partsText qs ++ (s.gap ++ (s.slash ++ '>' :: post)))) := by
  have hall := hs.parts
  rw [hparts, List.forall_mem_append, List.forall_mem_cons] at hall
  obtain ⟨hps, hp, hqs⟩ := hall
  have hsplit : partsText s.parts ++ (s.gap ++ s.slash)
      = partsText ps ++ (p.whole ++ (partsText qs ++ (s.gap ++ s.slash))) := by
    rw [hparts]
    simp [Part.whole]
  have hbehind : EndsHere (p.whole ++ (partsText qs ++ (s.gap ++ s.slash))) := by
    rw [Part.whole, List.append_assoc]
    exact endsHere_of_ne_nil hp.gap_ne hp.gap _
  have hend := endsHere_partsText hqs (endsHere_append hs.gap (endsHere_slash_append s post))
  have hafter : partsText qs ++ (s.gap ++ s.slash) ++ '>' :: post
      = partsText qs ++ (s.gap ++ (s.slash ++ '>' :: post)) := by simp
  rw [← hafter] at hend
  rw [findAttribute?_tagOf hs hp.name, hsplit,
    attributeFrom?_of_notMem hp.name hps hnot hbehind,
    attributeFrom?_here hp hends hend (by simp), hafter]
  simp

/-! ### A prop set -/

/-- A tag without its last blanks ends with what is neither blank nor a slash. -/
lemma getLast?_tag (hs : IsDelimitedTag s) (hps : ∀ p ∈ ps, IsDelimited p) (pre : Text) :
    ∃ c, (pre ++ '<' :: (s.name ++ partsText ps)).getLast? = some c ∧ isBlank c = false
      ∧ c ≠ '/' := by
  rcases List.eq_nil_or_concat ps with rfl | ⟨qs, p, rfl⟩
  · have hne : s.name ≠ [] := by
      obtain ⟨c, w, hw, -⟩ := hs.exists_letter
      rw [hw]
      exact List.cons_ne_nil c w
    have hlast := List.getLast_mem hne
    refine ⟨_, ?_, hs.not_isBlank _ hlast, fun hslash => ?_⟩
    · rw [Markup.partsText_nil, List.append_nil, List.getLast?_append, List.getLast?_cons,
        List.getLast?_eq_some_getLast hne]
      rfl
    · have hends := (not_isTelling_of_isTagChar (hs.name _ hlast)).2
      rw [hslash] at hends
      exact absurd hends (by decide)
  · rw [List.concat_eq_append] at hps ⊢
    obtain ⟨c, hc, hcases⟩ := (hps p (by simp)).getLast?
    have hsplit : pre ++ '<' :: (s.name ++ partsText (qs ++ [p]))
        = pre ++ '<' :: (s.name ++ partsText qs) ++ p.whole := by
      simp [Part.whole]
    exact ⟨c, by rw [hsplit, List.getLast?_append, hc]; rfl, hcases⟩

lemma endsSolid_tag (hs : IsDelimitedTag s) (hps : ∀ p ∈ ps, IsDelimited p) (pre : Text) :
    Text.endsSolid (pre ++ '<' :: (s.name ++ partsText ps)) := by
  obtain ⟨c, hc, hblank, -⟩ := getLast?_tag hs hps pre
  rw [Text.endsSolid, hc, Option.any_some, hblank]
  rfl

/-- A tag closes itself if there is a slash before its last sign. -/
lemma closesItself_tagOf (hs : IsDelimitedTag s) (pre post : Text) :
    (tagOf pre post s).closesItself = s.isClosed := by
  have hhead : (tagOf pre post s).head
      = pre ++ '<' :: (s.name ++ partsText s.parts) ++ s.gap ++ s.slash := by
    simp [Tag.head, tagOf]
  have hopen : (pre ++ '<' :: (s.name ++ partsText s.parts) ++ s.gap).getLast? ≠ some '/' := by
    by_cases hgap : s.gap = []
    · obtain ⟨c, hc, -, hne⟩ := getLast?_tag hs hs.parts pre
      rw [hgap, List.append_nil, hc]
      exact fun heq => hne (Option.some.inj heq)
    · rw [List.getLast?_append_of_ne_nil _ hgap, List.getLast?_eq_some_getLast hgap]
      intro heq
      have hblank := List.all_eq_true.mp hs.gap _ (List.getLast_mem hgap)
      rw [Option.some.inj heq] at hblank
      exact absurd hblank (by decide)
  rw [Tag.closesItself, hhead]
  cases s with
  | closed t =>
      rw [Shell.slash, List.getLast?_append]
      rfl
  | _ =>
      rw [Shell.slash, List.append_nil, decide_eq_false hopen, Shell.isClosed]
      all_goals intro t h; cases h

/-- An attribute is added behind the last one of the tag. -/
lemma inject_opening (hs : IsDelimitedTag s) (hpre : splitStart? pre = none)
    (post added : Text) : Tag.inject (pre ++ (s.opening ++ post)) added
      = pre ++ '<' :: (s.name ++ (partsText s.parts
        ++ ' ' :: (added ++ (s.gap ++ (s.slash ++ '>' :: post))))) := by
  set tag := pre ++ '<' :: (s.name ++ partsText s.parts) with htag
  have hhead : (tagOf pre post s).head = tag ++ s.gap ++ s.slash := by
    simp [Tag.head, tagOf, htag]
  have hslash : (if (tagOf pre post s).closesItself then (tagOf pre post s).head.dropLast
      else (tagOf pre post s).head) = tag ++ s.gap := by
    rw [closesItself_tagOf hs, hhead]
    cases s with
    | closed t => simp [Shell.slash, Shell.isClosed]
    | _ => exact List.append_nil _
  have hline : pre ++ (s.opening ++ post) = tag ++ (s.gap ++ (s.slash ++ '>' :: post)) := by
    rw [Shell.opening_eq hs.fragment, htag]
    simp
  rw [Tag.inject, split?_opening hs hpre]
  simp only
  rw [hslash, Text.trimEnd_append (endsSolid_tag hs hs.parts pre) hs.gap, hline, List.drop_left]
  simp

lemma setParts_nil (ps : List Part) : setParts [] ps = ps := by
  induction ps with
  | nil => rfl
  | cons p ps ih => rw [setParts, Fields.get?, ih]

lemma setParts_singleton_cons_self (v : Value) (p : Part) (ps : List Part) :
    setParts [(p.name, v)] (p :: ps) = (p.set? v).toList ++ ps := by
  simp [setParts, Fields.get?, Fields.erase, setParts_nil]

lemma setParts_singleton_cons_of_ne (h : key ≠ p.name) (v : Value) (ps : List Part) :
    setParts [(key, v)] (p :: ps) = p :: setParts [(key, v)] ps := by
  rw [setParts, Fields.get?, if_neg h, Fields.get?]

/-- A value without an attribute of its name sets none. -/
lemma setParts_of_notMem (hnot : ∀ p ∈ ps, p.name ≠ key) (v : Value) :
    setParts [(key, v)] ps = ps := by
  induction ps with
  | nil => rfl
  | cons p ps ih =>
      rw [List.forall_mem_cons] at hnot
      rw [setParts_singleton_cons_of_ne (Ne.symm hnot.1), ih hnot.2]

/-- A value sets the first attribute of its name. -/
lemma setParts_singleton {qs : List Part} (hnot : ∀ q ∈ ps, q.name ≠ p.name) (v : Value) :
    setParts [(p.name, v)] (ps ++ p :: qs) = ps ++ ((p.set? v).toList ++ qs) := by
  induction ps with
  | nil => exact setParts_singleton_cons_self v p qs
  | cons q ps ih =>
      rw [List.forall_mem_cons] at hnot
      rw [List.cons_append, setParts_singleton_cons_of_ne (Ne.symm hnot.1), ih hnot.2,
        List.cons_append]

/-- A value set under the name of an attribute. -/
lemma setParts_addedParts_of_mem {qs : List Part} (hnot : ∀ q ∈ ps, q.name ≠ p.name) (v : Value) :
    setParts [(p.name, v)] (ps ++ p :: qs) ++ addedParts [(p.name, v)] (ps ++ p :: qs)
      = ps ++ ((p.set? v).toList ++ qs) := by
  have hadded : addedParts [(p.name, v)] (ps ++ p :: qs) = [] := by simp [addedParts]
  rw [setParts_singleton hnot, hadded, List.append_nil]

/-- A value set under a name that no attribute has. -/
lemma setParts_addedParts_of_notMem (hnot : ∀ p ∈ ps, p.name ≠ key) (v : Value) :
    setParts [(key, v)] ps ++ addedParts [(key, v)] ps
      = ps ++ if v.isNull then [] else [.ofProp (key, v)] := by
  have hkey : key ∉ ps.map Part.name := by simpa using hnot
  rw [setParts_of_notMem hnot, addedParts]
  cases hnull : v.isNull with
  | true => simp [hnull]
  | false =>
      rw [List.filter_cons_of_pos (by simp [hkey, hnull])]
      rfl

/-- Attributes with one of a name have a first one of it. -/
lemma notMem_or_exists_first (key : String) (ps : List Part) : (∀ p ∈ ps, p.name ≠ key)
    ∨ ∃ as p bs, ps = as ++ p :: bs ∧ p.name = key ∧ ∀ q ∈ as, q.name ≠ key := by
  cases hfind : ps.find? fun p => p.name = key with
  | some p =>
      obtain ⟨hname, as, bs, hparts, hnot⟩ := List.find?_eq_some_iff_append.mp hfind
      simp only [decide_eq_true_eq, Bool.not_eq_true', decide_eq_false_iff_not] at hname hnot
      exact .inr ⟨as, p, bs, hparts, hname, hnot⟩
  | none => exact .inl (by simpa using hfind)

/-- Behind attributes of other names, the search finds what it finds in those that follow. -/
lemma finds_append {qs : List Part} (hnot : ∀ q ∈ ps, q.name ≠ key) :
    Finds key (ps ++ qs) ↔ (∀ q ∈ ps, isSilent key.toList false q.behind) ∧ Finds key qs := by
  induction ps with
  | nil => simp
  | cons p ps ih =>
      rw [List.forall_mem_cons] at hnot
      rw [List.cons_append, Finds, if_neg hnot.1, ih hnot.2, List.forall_mem_cons, and_assoc]

/-- An attribute is found if the values before it are silent and its own value ends there. -/
lemma finds_append_cons {qs : List Part} (hnot : ∀ q ∈ ps, q.name ≠ p.name) :
    Finds p.name (ps ++ p :: qs)
      ↔ (∀ q ∈ ps, isSilent p.name.toList false q.behind) ∧ EndsThere p.behind := by
  rw [finds_append hnot, Finds, if_pos rfl]

/-- An attribute that is not there is not found if all values are silent. -/
lemma finds_of_notMem (hnot : ∀ q ∈ ps, q.name ≠ key) :
    Finds key ps ↔ ∀ q ∈ ps, isSilent key.toList false q.behind := by
  have h : Finds key (ps ++ []) ↔ _ := finds_append hnot
  rwa [List.append_nil, Finds, and_true] at h

/-- A prop under a name without blanks, by the search character by character. -/
lemma setProp_eq (key : String) (hsolid : key.toList.all fun c => !isBlank c)
    (hkey : key.toList ≠ []) (line : Text) (v : Value) :
    setProp line key v = match Tag.split? line with
      | none => line
      | some t =>
        match attributeFrom? key.toList t.after t.before t.body with
        | some (before, after) =>
          if v.isNull then Text.trimEnd before ++ after
          else before ++ Markup.attributeText key v ++ after
        | none => if v.isNull then line else Tag.inject line (Markup.attributeText key v) := by
  rw [setProp, setProp?]
  cases Tag.split? line with
  | none => rfl
  | some t =>
      have hfound : t.findAttribute? key.toList
          = some (attributeFrom? key.toList t.after t.before t.body) :=
        Tag.findAttribute?_eq (fun c hc => by simpa using List.all_eq_true.mp hsolid c hc) hkey t
      exact congrArg (fun found => (Option.map _ found).getD line) hfound

/-- **A prop sets an attribute of the first tag of its line** where it stands, adds it behind the
last one, or takes it away with the blanks before it, if the search comes to where it is written. -/
theorem setProp_eq_set (hs : IsDelimitedTag s) (hkey : isAttributeName key.toList)
    (hfinds : Finds key s.parts) (hpre : splitStart? pre = none) (v : Value) (post : Text) :
    setProp (pre ++ (s.opening ++ post)) key v
      = pre ++ ((s.set [(key, v)]).opening ++ post) := by
  rw [setProp, setProp?, split?_opening hs hpre, Shell.opening_set hs.fragment]
  simp only
  rcases notMem_or_exists_first key s.parts with hnot | ⟨ps, p, qs, hparts, rfl, hnot⟩
  · rw [finds_of_notMem hnot] at hfinds
    rw [findAttribute?_eq_none hs hkey fun p hp => ⟨hnot p hp, hfinds p hp⟩, Option.map_some,
      Option.getD_some, setParts_addedParts_of_notMem hnot]
    cases hnull : v.isNull with
    | true => simp [Shell.opening_eq hs.fragment]
    | false =>
        simp [inject_opening hs hpre, Part.ofProp, Part.text, Script.Grammar.attributeText_eq]
  · have hall := hs.parts
    rw [hparts, List.forall_mem_append] at hall
    rw [hparts, finds_append_cons hnot] at hfinds
    rw [findAttribute?_eq_some hs hparts hfinds.2 fun q hq => ⟨hnot q hq, hfinds.1 q hq⟩, hparts,
      setParts_addedParts_of_mem hnot, Option.map_some, Option.getD_some]
    simp only
    rw [Text.trimEnd_append (endsSolid_tag hs hall.1 pre) (hs.parts p (by simp [hparts])).gap]
    cases hnull : v.isNull with
    | true => simp [Part.set?, hnull]
    | false => simp [Part.set?, Part.text, hnull, Script.Grammar.attributeText_eq]

/-- The search comes to each of the names that are found in no value. -/
lemma finds_of_isScanned (hmem : key ∈ names) (hps : ∀ p ∈ ps, IsScanned names p) :
    Finds key ps := by
  induction ps with
  | nil => trivial
  | cons p ps ih =>
      rw [List.forall_mem_cons] at hps
      rw [Finds]
      split
      · exact hps.1.scans.ends
      · exact ⟨hps.1.scans.silent key hmem, ih hps.2⟩

/-- A prop sets an attribute of a tag that is found in no value of it. -/
theorem setProp_opening (hs : IsScannedTag names s) (hkey : isAttributeName key.toList)
    (hmem : key ∈ names) (hpre : splitStart? pre = none) (v : Value) (post : Text) :
    setProp (pre ++ (s.opening ++ post)) key v
      = pre ++ ((s.set [(key, v)]).opening ++ post) :=
  setProp_eq_set hs.isDelimited hkey (finds_of_isScanned hmem hs.parts) hpre v post

end Line

end CanvasSync
