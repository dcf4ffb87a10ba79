import CanvasSync.Proofs.Text.Solid
import CanvasSync.Utility.Resolve

/-!
The names of the fixed classes.

Each is a word of letters, digits and hyphens (`isNamed_standard`), so no sign that modifies a token
stands in it, and it has solid ends (`solid_of_isName`).
-/

namespace CanvasSync.Utility

/-- Whether a text is the name of a class: letters, digits and hyphens. -/
def isName (t : Text) : Bool := !t.isEmpty && t.all fun c => c.isAlphanum || c = '-'

variable {t u : Text} {c : Char}

lemma isName_append (ht : isName t) (hu : isName u) : isName (t ++ u) := by
  simp only [isName, Bool.and_eq_true, List.all_append] at ht hu ⊢
  exact ⟨by simp_all, ht.2, hu.2⟩

lemma isAlphanum_or_of_isName (h : isName t) (hc : c ∈ t) : c.isAlphanum ∨ c = '-' := by
  rw [isName, Bool.and_eq_true] at h
  simpa using List.all_eq_true.mp h.2 c hc

lemma isBlank_of_isAlphanum_or (h : c.isAlphanum ∨ c = '-') : isBlank c = false := by
  rcases h with h | rfl
  · have hrange : 48 ≤ c.toNat ∧ c.toNat ≤ 122 := by
      unfold Char.isAlphanum Char.isAlpha Char.isUpper Char.isLower Char.isDigit at h
      simp only [Bool.or_eq_true, Bool.and_eq_true, decide_eq_true_eq, ge_iff_le,
        UInt32.le_iff_toNat_le, Char.toNat_val] at h
      have hends : 'A'.toNat = 65 ∧ 'Z'.toNat = 90 ∧ 'a'.toNat = 97 ∧ 'z'.toNat = 122
          ∧ '0'.toNat = 48 ∧ '9'.toNat = 57 := by decide
      omega
    simp only [isBlank, Bool.or_eq_false_iff, Bool.and_eq_false_iff, decide_eq_false_iff_not]
    omega
  · decide

/-- A name has solid ends. -/
lemma solid_of_isName (h : isName t) : Text.beginsSolid t ∧ Text.endsSolid t := by
  have hne : t ≠ [] := by
    rintro rfl
    cases h
  have hsolid {c : Char} (hc : c ∈ t) : isBlank c = false :=
    isBlank_of_isAlphanum_or (isAlphanum_or_of_isName h hc)
  rw [Text.beginsSolid, Text.endsSolid, List.head?_eq_some_head hne,
    List.getLast?_eq_some_getLast hne, Option.any_some, Option.any_some,
    hsolid (List.head_mem hne), hsolid (List.getLast_mem hne)]
  exact ⟨rfl, rfl⟩

namespace Table

/-- Whether every fixed class of a table is listed under a name. -/
def isNamed (table : Table) : Bool := table.all fun row => isName row.1.toList

lemma isNamed_ofRows_append (rows rows' : List (String × String × String)) :
    (ofRows (rows ++ rows')).isNamed = ((ofRows rows).isNamed && (ofRows rows').isNamed) := by
  simp [isNamed, ofRows]

/-- A name with a hyphen and another one behind it is a name. -/
lemma isName_hyphen {name name' : String} (h : isName name.toList) (h' : isName name'.toList) :
    isName (name ++ "-" ++ name').toList := by
  rw [String.toList_append, String.toList_append]
  exact isName_append (isName_append h (by decide)) h'

lemma isName_toString (n : Nat) : isName (toString n).toList := by
  have hdigits : (toString n).toList = Nat.toDigits 10 n := by simp [Nat.repr]
  rw [hdigits, isName, Bool.and_eq_true, List.all_eq_true]
  refine ⟨by simp, fun c hc => ?_⟩
  simp [Char.isAlphanum, Nat.isDigit_of_mem_toDigits (by decide) (by decide) hc]

lemma isNamed_family {name : String} (h : isName name.toList) (property : String)
    (steps : List Nat) (value : Nat → String) :
    (ofRows (family name property steps value)).isNamed := by
  simpa [isNamed, ofRows, family] using fun n _ => isName_hyphen h (isName_toString n)

lemma isNamed_colorRows {name : String} (h : isName name.toList) (property : String) :
    (ofRows (colorRows name property)).isNamed := by
  have hspecial : specialColors.all fun row => isName row.1.toList := by decide +kernel
  have hpalette : palette.all fun row => isName row.1.toList := by decide +kernel
  rw [colorRows, isNamed_ofRows_append, Bool.and_eq_true]
  refine ⟨List.all_eq_true.mpr fun row hrow => ?_, List.all_eq_true.mpr fun row hrow => ?_⟩
  · simp only [ofRows, List.mem_map] at hrow
    obtain ⟨row', ⟨color, hcolor, rfl⟩, rfl⟩ := hrow
    exact isName_hyphen h (List.all_eq_true.mp hspecial color hcolor)
  · simp only [ofRows, List.mem_map, List.mem_flatMap] at hrow
    obtain ⟨row', ⟨color, hcolor, shade, -, rfl⟩, rfl⟩ := hrow
    exact isName_hyphen (isName_hyphen h (List.all_eq_true.mp hpalette color hcolor))
      (isName_toString shade.1)

/-- The names of all fixed classes are words of letters, digits and hyphens. -/
lemma isNamed_standard : standard.isNamed := by
  have hrows : (ofRows (typography ++ layout ++ sizing ++ spacing ++ gridRows)).isNamed
      ∧ (ofRows effects).isNamed ∧ (ofRows transitions).isNamed ∧ (ofRows placement).isNamed := by
    decide +kernel
  have hname : isName "text".toList ∧ isName "bg".toList ∧ isName "border".toList
      ∧ isName "opacity".toList ∧ isName "scale".toList ∧ isName "rotate".toList
      ∧ isName "duration".toList := by
    decide +kernel
  simp only [standard, isNamed_ofRows_append _ (colorRows _ _),
    isNamed_ofRows_append _ (family _ _ _ _), isNamed_ofRows_append _ effects,
    isNamed_ofRows_append _ transitions, isNamed_ofRows_append _ placement, hrows,
    isNamed_colorRows, isNamed_family, hname, Bool.and_true]

end Table

end CanvasSync.Utility
