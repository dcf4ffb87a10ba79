import CanvasSync.Proofs.Line.Updates
import CanvasSync.Proofs.Line.Values

/-!
One attribute of a tag, set by its line.

The search for the name of an attribute knows of neither quotes nor braces, so it matters what stands
in the values before it.

* `IsWritten`: tags with attributes of different names, and with literals of a kind;
* `StandsIn`, `isSilent_iff`: a value in which the search finds no attribute of a name;
* `IsReached`: what the search for an attribute needs;
* `setProp_written`: an attribute is set where it stands, and nothing else is touched;
* `setProp_misread`: lines on which this is not so.
-/

namespace CanvasSync.Line

open CanvasSync.Json (Value)
open CanvasSync.Markup (Part Shell addedParts attributeText partsText setParts)
open CanvasSync.Script (isAttributeName)
open CanvasSync.Script.Grammar (attributeText_eq)
open Tag (endsName isSilent splitStart?)

variable {inside : Char → Text → Prop} {s : Shell} {p : Part} {ps qs : List Part}
  {w t pre post : Text} {v : Value} {key : String}

/-! ### Tags as they are written -/

/-- Opening tags with attributes of different names, blanks before each of them. -/
structure IsWritten (inside : Char → Text → Prop) (s : Shell) : Prop where
  fragment : s.isFragment = false
  name : ∀ c ∈ s.name, isTagChar c
  gaps : ∀ p ∈ s.parts, p.gap ≠ [] ∧ Text.allBlank p.gap
  names : ∀ p ∈ s.parts, isAttributeName p.name.toList
  values : ∀ p ∈ s.parts, IsValue inside p.behind
  distinct : (s.parts.map Part.name).Nodup
  gap : Text.allBlank s.gap

/-- A tag is read as it is written if no literal has its quote in it. -/
lemma IsWritten.isDelimited (hs : IsWritten IsPlain s) (hletter : s.name.head?.any Char.isAlpha) :
    IsDelimitedTag s where
  fragment := hs.fragment
  name := hs.name
  letter := hletter
  parts p hp := ⟨(hs.gaps p hp).1, (hs.gaps p hp).2, hs.names p hp,
    (hs.values p hp).isLevel fun _ _ h => h, (hs.values p hp).exists_last⟩
  gap := hs.gap

/-! ### What the search finds -/

/-- Whether a name stands in a text as an attribute would: a blank before it, and an equals sign, a
blank or the end of a tag behind it, or nothing. -/
def StandsIn (name t : Text) : Prop :=
  ∃ before c behind, t = before ++ c :: (name ++ behind) ∧ isBlank c ∧ behind.head?.all endsName

lemma standsIn_cons {name : Text} {c : Char} : StandsIn name (c :: t) ↔
    (isBlank c ∧ ∃ behind, t = name ++ behind ∧ behind.head?.all endsName) ∨ StandsIn name t := by
  constructor
  · rintro ⟨before, d, behind, heq, hblank, hends⟩
    cases before with
    | nil =>
        obtain ⟨rfl, rfl⟩ := List.cons.inj heq
        exact .inl ⟨hblank, behind, rfl, hends⟩
    | cons x before => exact .inr ⟨before, d, behind, (List.cons.inj heq).2, hblank, hends⟩
  · rintro (⟨hblank, behind, rfl, hends⟩ | ⟨before, d, behind, rfl, hblank, hends⟩)
    · exact ⟨[], c, behind, rfl, hblank, hends⟩
    · exact ⟨c :: before, d, behind, rfl, hblank, hends⟩

/-- No attribute of a name is found in a text if the name does not stand in it. -/
lemma isSilent_iff {name : Text} (hname : name ≠ []) : isSilent name false t ↔ ¬StandsIn name t := by
  -- behind a blank, the name must not stand at the beginning either
  have hall (blank : Bool) : isSilent name blank t ↔ ¬StandsIn name t
      ∧ ¬(blank ∧ ∃ behind, t = name ++ behind ∧ behind.head?.all endsName) := by
    induction t generalizing blank with
    | nil => simp [isSilent, StandsIn, hname]
    | cons c t ih =>
        have hstrip : (Text.strip? name (c :: t)).any (fun rest => rest.head?.all endsName)
            ↔ ∃ behind, c :: t = name ++ behind ∧ behind.head?.all endsName := by
          simp only [Option.any_eq_true, Text.strip?_eq_some_iff]
        rw [isSilent, Bool.and_eq_true, ih, Bool.not_eq_true', Bool.and_eq_false_iff,
          ← Bool.not_eq_true, ← Bool.not_eq_true, hstrip, standsIn_cons, ← not_and_or, not_or,
          and_comm, and_comm (a := ¬StandsIn name t)]
  simpa using hall false

/-- Whether the search for an attribute comes to it and to its end: its name does not stand in the
values before it, and there are no quotes and no braces in the literals of its own value. -/
def IsReached (name : String) : List Part → Prop
  | [] => True
  | p :: ps =>
    if p.name = name then IsValue IsClear p.behind
    else ¬StandsIn name.toList p.behind ∧ IsReached name ps

lemma IsReached.finds (hkey : isAttributeName key.toList) (h : IsReached key ps) :
    Finds key ps := by
  induction ps with
  | nil => trivial
  | cons p ps ih =>
      rw [IsReached] at h
      rw [Finds]
      split_ifs at h ⊢
      · exact h.endsThere
      · exact ⟨(isSilent_iff (ne_nil_of_isAttributeName hkey)).mpr h.1, ih h.2⟩

/-! ### A prop set -/

/-- A line with a tag, up to some attributes of it. -/
def upTo (pre : Text) (s : Shell) (ps : List Part) : Text := pre ++ '<' :: (s.name ++ partsText ps)

/-- A line with a tag, from some attributes of it on. -/
def onFrom (s : Shell) (qs : List Part) (post : Text) : Text :=
  partsText qs ++ (s.gap ++ (s.slash ++ '>' :: post))

lemma opening_set_of_mem (hs : s.isFragment = false) (hparts : s.parts = ps ++ p :: qs)
    (hnot : ∀ q ∈ ps, q.name ≠ p.name) (v : Value) (pre post : Text) :
    pre ++ ((s.set [(p.name, v)]).opening ++ post)
      = upTo pre s ps ++ ((if v.isNull then [] else p.gap ++ attributeText p.name v)
        ++ onFrom s qs post) := by
  rw [Shell.opening_set hs, hparts, setParts_addedParts_of_mem hnot]
  cases hnull : v.isNull <;>
    simp [upTo, onFrom, Part.set?, Part.text, attributeText_eq, hnull]

lemma opening_set_of_notMem (hs : s.isFragment = false) (hnot : ∀ p ∈ s.parts, p.name ≠ key)
    (v : Value) (pre post : Text) :
    pre ++ ((s.set [(key, v)]).opening ++ post)
      = upTo pre s s.parts ++ ((if v.isNull then [] else ' ' :: attributeText key v)
        ++ onFrom s [] post) := by
  rw [Shell.opening_set hs, setParts_addedParts_of_notMem hnot]
  cases v.isNull <;> simp [upTo, onFrom, Part.ofProp, Part.text, attributeText_eq]

/-- **A prop sets one attribute of the first tag of its line.** An attribute of the name is replaced,
or deleted with the blanks before it by `null`; if there is none, it is added behind the last one.
All else stays as it is. Of two props of a name the last one counts, if the first one can be set
again; an attribute that has been deleted is added at the end. -/
theorem setProp_written (hs : IsWritten IsPlain s) (hletter : s.name.head?.any Char.isAlpha)
    (hpre : splitStart? pre = none) (hkey : isAttributeName key.toList)
    (hreach : IsReached key s.parts) (post : Text) :
    (∀ ps p qs, s.parts = ps ++ p :: qs → p.name = key → ∀ v,
      setProp (pre ++ (s.opening ++ post)) key v
        = upTo pre s ps ++ ((if v.isNull then [] else p.gap ++ attributeText key v)
          ++ onFrom s qs post))
    ∧ ((∀ p ∈ s.parts, p.name ≠ key) → ∀ v,
      setProp (pre ++ (s.opening ++ post)) key v
        = upTo pre s s.parts ++ ((if v.isNull then [] else ' ' :: attributeText key v)
          ++ onFrom s [] post))
    ∧ (∀ v, v.isNull = false → isSettable v → ∀ w,
      setProp (setProp (pre ++ (s.opening ++ post)) key v) key w
        = setProp (pre ++ (s.opening ++ post)) key w)
    ∧ ∀ ps p qs, s.parts = ps ++ p :: qs → p.name = key → IsReached key (ps ++ qs) → ∀ w,
      setProp (setProp (pre ++ (s.opening ++ post)) key .null) key w
        = upTo pre s (ps ++ qs) ++ ((if w.isNull then [] else ' ' :: attributeText key w)
          ++ onFrom s [] post) := by
  have htag := hs.isDelimited hletter
  have hfinds := hreach.finds hkey
  have hnotMem {ps qs : List Part} {p : Part} (hparts : s.parts = ps ++ p :: qs)
      (hname : p.name = key) : ∀ q ∈ ps ++ qs, q.name ≠ key := by
    have hdistinct := hs.distinct
    rw [hparts, List.map_append, List.map_cons, List.nodup_middle, List.nodup_cons,
      ← List.map_append, hname] at hdistinct
    exact fun q hq hq' => hdistinct.1 (List.mem_map.mpr ⟨q, hq, hq'⟩)
  refine ⟨fun ps p qs hparts hname v => ?_, fun hnot v => ?_, fun v hv hsettable w => ?_,
    fun ps p qs hparts hname hrest w => ?_⟩
  · have hnot := (List.forall_mem_append.mp (hnotMem hparts hname)).1
    subst hname
    rw [setProp_eq_set htag hkey hfinds hpre, opening_set_of_mem hs.fragment hparts hnot]
  · rw [setProp_eq_set htag hkey hfinds hpre, opening_set_of_notMem hs.fragment hnot]
  · have hclear := isValue_valueText hsettable
    have hset := isDelimitedTag_set htag hkey (hclear.isLevel fun _ _ h => h.1)
    have hfound : Finds key (s.set [(key, v)]).parts := by
      rw [Shell.parts_set hs.fragment]
      exact finds_set hfinds hv hclear.endsThere
    rw [setProp_eq_set htag hkey hfinds hpre, setProp_eq_set htag hkey hfinds hpre,
      setProp_eq_set hset hkey hfound hpre, set_set hv]
  · have hnot := hnotMem hparts hname
    subst hname
    have hset : IsDelimitedTag (s.set [(p.name, .null)]) := isDelimitedTag_set htag hkey (by decide)
    have hrests : (s.set [(p.name, .null)]).parts = ps ++ qs := by
      rw [Shell.parts_set hs.fragment, hparts,
        setParts_addedParts_of_mem (List.forall_mem_append.mp hnot).1]
      rfl
    rw [setProp_eq_set htag hkey hfinds hpre,
      setProp_eq_set hset hkey (by rw [hrests]; exact hrest.finds hkey) hpre,
      opening_set_of_notMem hset.fragment (by rwa [hrests]), hrests]
    simp [upTo, onFrom]

/-- A tag with a greater-than sign in a literal, and an attribute without a value. -/
def inputTag : Shell := .closed ⟨"input".toList,
  [⟨[' '], "list", '=' :: '\x7b' :: ('[' :: '"' :: (['>'] ++ '"' :: ", x]".toList) ++ ['\x7d']),
    .expression "[\">\", x]"⟩, ⟨[' ', ' '], "disabled", [], .bare⟩], [' ']⟩

theorem setProp_written_inputTag :
    inputTag.opening = "<input list=\x7b[\">\", x]\x7d  disabled />".toList
      ∧ IsWritten IsPlain inputTag ∧ IsReached "list" inputTag.parts
      ∧ setProp ("a < ".toList ++ (inputTag.opening ++ " > b".toList)) "list" .null
        = "a < <input  disabled /> > b".toList
      ∧ setProp (setProp ("a < ".toList ++ (inputTag.opening ++ " > b".toList)) "list" (.bool true))
          "list" (.string "y") = "a < <input list=\"y\"  disabled /> > b".toList := by
  have hvalue {inside : Char → Text → Prop} (hinside : inside '"' ['>']) : IsValue inside
      ('=' :: '\x7b' :: ('[' :: '"' :: (['>'] ++ '"' :: ", x]".toList) ++ ['\x7d'])) :=
    .braced (.code (by decide) (.literal (by decide) hinside (isBalanced_of_all (by decide))))
  have hwritten : IsWritten IsPlain inputTag := by
    refine ⟨rfl, List.all_eq_true.mp (by decide +kernel), by decide, by decide +kernel, ?_,
      by decide, by decide⟩
    exact List.forall_mem_cons.mpr
      ⟨hvalue (show '"' ∉ ['>'] by decide), List.forall_mem_singleton.mpr .bare⟩
  have hreach : IsReached "list" inputTag.parts := by
    rw [inputTag, Shell.parts, IsReached, if_pos rfl]
    exact hvalue ⟨by decide, by decide, by decide⟩
  have hpre : splitStart? "a < ".toList = none := by decide
  have hset := setProp_written hwritten (by decide) hpre (by decide +kernel) hreach " > b".toList
  refine ⟨by decide, hwritten, hreach, ?_, ?_⟩
  · exact (hset.1 [] _ _ rfl rfl .null).trans (by decide)
  · exact (hset.2.2.1 (.bool true) rfl rfl (.string "y")).trans
      ((hset.1 [] _ _ rfl rfl (.string "y")).trans (by decide))

/-- A tag with a title in which the name of its other attribute stands. -/
def titledTag : Shell := .element ⟨['a'],
  [⟨[' '], "title", '=' :: '"' :: ("old id ".toList ++ ['"']), .quoted "old id "⟩,
    ⟨[' '], "id", '=' :: '"' :: (['1'] ++ ['"']), .quoted "1"⟩], []⟩

/-- A tag with a literal in braces, and an attribute behind it. -/
def literalTag (w : Text) : Shell := .element ⟨['a'],
  [⟨[' '], "t", '=' :: '\x7b' :: ('"' :: (w ++ ['"']) ++ ['\x7d']),
    .expression (String.ofList ('"' :: (w ++ ['"'])))⟩,
    ⟨[' '], "id", '=' :: '"' :: (['1'] ++ ['"']), .quoted "1"⟩], []⟩

lemma isWritten_literalTag (hw : inside '"' w) : IsWritten inside (literalTag w) := by
  have hname : isAttributeName "t".toList ∧ isAttributeName "id".toList := by decide +kernel
  have hgap : ([' '] : Text) ≠ [] ∧ Text.allBlank [' '] := by decide
  have htag : ∀ c ∈ ['a'], isTagChar c := List.all_eq_true.mp (by decide +kernel)
  refine ⟨rfl, htag, ?_, ?_, ?_, show ["t", "id"].Nodup by decide, rfl⟩
  · exact List.forall_mem_cons.mpr ⟨hgap, List.forall_mem_singleton.mpr hgap⟩
  · exact List.forall_mem_cons.mpr ⟨hname.1, List.forall_mem_singleton.mpr hname.2⟩
  · refine List.forall_mem_cons.mpr ⟨.braced (.literal (by decide) hw .nil), ?_⟩
    exact List.forall_mem_singleton.mpr (.quoted (.inl rfl) (by decide))

/-- Lines that are misread: a name is found in a string, a value ends at a brace in its literal, and
an escaped quote hides the end of the tag, so that a value with a quote cannot be set again. -/
theorem setProp_misread :
    (IsWritten (fun q w => isEscaped q w) titledTag
      ∧ setProp (titledTag.opening ++ "x</a>".toList) "id" (.string "2")
        = "<a title=\"old id=\"2\" \" id=\"1\">x</a>".toList
      ∧ upTo [] titledTag (titledTag.parts.take 1) ++ (' ' :: attributeText "id" (.string "2")
        ++ onFrom titledTag [] "x</a>".toList) = "<a title=\"old id \" id=\"2\">x</a>".toList)
    ∧ (IsWritten (fun q w => isEscaped q w) (literalTag ['\x7d'])
      ∧ setProp ((literalTag ['\x7d']).opening ++ "x</a>".toList) "t" (.string "y")
        = "<a t=\"y\"\"\x7d id=\"1\">x</a>".toList
      ∧ upTo [] (literalTag ['\x7d']) [] ++ (' ' :: attributeText "t" (.string "y")
        ++ onFrom (literalTag ['\x7d']) ((literalTag ['\x7d']).parts.drop 1) "x</a>".toList)
        = "<a t=\"y\" id=\"1\">x</a>".toList)
    ∧ (IsWritten (fun q w => isEscaped q w) (literalTag ['\\', '"'])
      ∧ setProp ((literalTag ['\\', '"']).opening ++ "x</a>".toList) "id" (.string "2")
        = "<a t=\x7b\"\\\"\"\x7d id=\"1\">x</a>".toList
      ∧ upTo [] (literalTag ['\\', '"']) ((literalTag ['\\', '"']).parts.take 1)
        ++ (' ' :: attributeText "id" (.string "2") ++ onFrom (literalTag []) [] "x</a>".toList)
        = "<a t=\x7b\"\\\"\"\x7d id=\"2\">x</a>".toList)
    ∧ setProp (setProp "<a>x</a>".toList "t" (.string "\"")) "t" (.string "y")
        = "<a t=\x7b\"\\\"\"\x7d>x</a>".toList
      ∧ setProp "<a>x</a>".toList "t" (.string "y") = "<a t=\"y\">x</a>".toList := by
  have hid := setProp_eq "id" (by decide) (by decide)
  have ht := setProp_eq "t" (by decide) (by decide)
  have hagain : setProp (setProp "<a>x</a>".toList "t" (.string "\"")) "t" (.string "y")
      = "<a t=\x7b\"\\\"\"\x7d>x</a>".toList := by
    rw [ht, ht]
    decide +kernel
  refine ⟨⟨?_, (hid _ _).trans (by decide +kernel), by decide +kernel⟩,
    ⟨isWritten_literalTag (by decide), (ht _ _).trans (by decide +kernel), by decide +kernel⟩,
    ⟨isWritten_literalTag (by decide), (hid _ _).trans (by decide +kernel), by decide +kernel⟩,
    hagain, (ht _ _).trans (by decide +kernel)⟩
  refine ⟨rfl, List.all_eq_true.mp (by decide +kernel), by decide, by decide +kernel, ?_, by decide,
    by decide⟩
  exact List.forall_mem_cons.mpr ⟨.quoted (.inl rfl) (by decide),
    List.forall_mem_singleton.mpr (.quoted (.inl rfl) (by decide))⟩

end CanvasSync.Line
