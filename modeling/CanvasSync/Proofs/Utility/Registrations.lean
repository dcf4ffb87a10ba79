import CanvasSync.Utility.Catalog
import Mathlib.Data.List.Basic
import Mathlib.Data.List.Induction
import Mathlib.Data.List.Nodup
import Mathlib.Tactic.Common

/-!
What a catalogue lists after any number of registrations.

A class that is registered again takes the place of the one with its name. Its category is noted as
well, but the category of the class that it replaces stays noted, be there another class of it or
not.

* `names_ofEntries`, `get?_ofEntries`: the names in the order in which they were first registered,
  and under each what was registered last;
* `mem_entries_ofEntries_iff`: the entries are those that were registered last under their names;
* `categories_ofEntries`: the categories are all that were ever registered, in order;
* `categories_ofEntries_iff`: the categories are those of the entries exactly if every category that
  was registered has an entry left;
* `categories_not_exact`: a category without entries that stays listed.
-/

namespace CanvasSync.Utility

/-! ### Lists without repetitions -/

section EraseDups

variable {α : Type} [DecidableEq α] {l : List α} {a : α}

/-- An element behind a list is put behind it without repetitions, unless it was there before. -/
lemma eraseDups_concat (l : List α) (a : α) :
    (l ++ [a]).eraseDups = if a ∈ l then l.eraseDups else l.eraseDups ++ [a] := by
  rw [List.eraseDups_append]
  split
  · next h => simp [List.removeAll, h]
  · next h => simp [List.removeAll, List.eraseDups_cons, h]

lemma nodup_eraseDups (l : List α) : l.eraseDups.Nodup := by
  induction l using List.reverseRecOn with
  | nil => exact List.nodup_nil
  | append_singleton l a ih =>
      rw [eraseDups_concat]
      split
      · exact ih
      · next h =>
          rw [List.nodup_append]
          refine ⟨ih, List.nodup_singleton a, ?_⟩
          intro x hx y hy
          obtain rfl := List.mem_singleton.mp hy
          rintro rfl
          exact h (List.mem_eraseDups.mp hx)

/-- Without repetitions the elements stand in the order in which they first occur. -/
lemma pairwise_idxOf_eraseDups (l : List α) :
    l.eraseDups.Pairwise fun x y => l.idxOf x < l.idxOf y := by
  induction l using List.reverseRecOn with
  | nil => exact List.Pairwise.nil
  | append_singleton l a ih =>
      -- what occurs before the last element first occurs where it did
      have hfirst : ∀ x ∈ l, (l ++ [a]).idxOf x = l.idxOf x := fun x hx =>
        List.idxOf_append_of_mem hx
      have hkept : l.eraseDups.Pairwise fun x y => (l ++ [a]).idxOf x < (l ++ [a]).idxOf y := by
        refine ih.imp_of_mem ?_
        intro x y hx hy hlt
        rw [hfirst x (List.mem_eraseDups.mp hx), hfirst y (List.mem_eraseDups.mp hy)]
        exact hlt
      rw [eraseDups_concat]
      split
      · exact hkept
      · next h =>
          refine List.pairwise_append.mpr ⟨hkept, List.pairwise_singleton _ a, ?_⟩
          intro x hx y hy
          obtain rfl := List.mem_singleton.mp hy
          have hx := List.mem_eraseDups.mp hx
          rw [hfirst x hx, List.idxOf_append_of_notMem h]
          have hlt := List.idxOf_lt_length_iff.mpr hx
          omega

end EraseDups

namespace Catalog

variable {c : Catalog} {d e : Entry} {es : List Entry} {n : String}

/-! ### One registration -/

lemma mem_place (h : d ∈ place e es) : d = e ∨ d ∈ es := by
  induction es with
  | nil => exact .inl (List.mem_singleton.mp h)
  | cons x es ih =>
      rw [place] at h
      split at h
      · rcases List.mem_cons.mp h with h | h
        · exact .inl h
        · exact .inr (List.mem_cons_of_mem x h)
      · rcases List.mem_cons.mp h with rfl | h
        · exact .inr List.mem_cons_self
        · exact (ih h).imp_right (List.mem_cons_of_mem x)

lemma find?_place (e : Entry) (es : List Entry) (n : String) :
    ((place e es).find? fun d => d.name = n)
      = if e.name = n then some e else es.find? fun d => d.name = n := by
  induction es with
  | nil => by_cases h : e.name = n <;> simp [place, h]
  | cons d ds ih =>
      rw [place]
      by_cases hd : d.name = e.name
      · rw [if_pos hd]
        by_cases h : e.name = n
        · simp [h]
        · simp [h, hd]
      · rw [if_neg hd, List.find?_cons, List.find?_cons, ih]
        by_cases h : e.name = n
        · have hne : d.name ≠ n := fun hn => hd (hn.trans h.symm)
          simp [h, hne]
        · simp [h]

/-- A name that is there keeps its place, and a new one is put at the end. -/
lemma names_place (e : Entry) (es : List Entry) : (place e es).map Entry.name
    = if e.name ∈ es.map Entry.name then es.map Entry.name else es.map Entry.name ++ [e.name] := by
  induction es with
  | nil => rfl
  | cons d ds ih =>
      rw [place]
      by_cases hd : d.name = e.name
      · simp [hd]
      · rw [if_neg hd, List.map_cons, ih, List.map_cons]
        simp only [List.mem_cons, Ne.symm hd, false_or]
        split <;> rfl

lemma get?_register (c : Catalog) (e : Entry) (n : String) :
    (c.register e).get? n = if e.name = n then some e else c.get? n :=
  find?_place e c.entries n

lemma mem_of_get? (h : c.get? n = some e) : e ∈ c.entries ∧ e.name = n :=
  ⟨List.mem_of_find?_eq_some h, by simpa using List.find?_some h⟩

/-- Under distinct names every entry is found. -/
lemma mem_entries_iff (hc : (c.entries.map Entry.name).Nodup) :
    e ∈ c.entries ↔ c.get? e.name = some e := by
  refine ⟨fun he => ?_, fun h => (mem_of_get? h).1⟩
  have hsome : (c.get? e.name).isSome := List.find?_isSome.mpr ⟨e, he, by simp⟩
  obtain ⟨d, hd⟩ := Option.isSome_iff_exists.mp hsome
  have hname : d.name = e.name := (mem_of_get? hd).2
  rw [hd, List.inj_on_of_nodup_map hc (mem_of_get? hd).1 he hname]

lemma inCategory_ne_nil_iff {k : String} :
    c.inCategory k ≠ [] ↔ ∃ e ∈ c.entries, e.category = k := by
  rw [inCategory, Ne, List.filter_eq_nil_iff]
  simp

/-! ### Any number of registrations -/

/-- The catalogue that registrations make, one after the other. -/
def ofEntries (es : List Entry) : Catalog := es.foldl register empty

/-- What was registered last under a name. -/
def latest? (es : List Entry) (n : String) : Option Entry := es.reverse.find? fun e => e.name = n

lemma ofEntries_concat (es : List Entry) (e : Entry) :
    ofEntries (es ++ [e]) = (ofEntries es).register e := by
  rw [ofEntries, List.foldl_append]
  rfl

lemma latest?_concat (es : List Entry) (e : Entry) (n : String) :
    latest? (es ++ [e]) n = if e.name = n then some e else latest? es n := by
  rw [latest?, List.reverse_append, List.reverse_singleton, List.singleton_append, List.find?_cons]
  by_cases h : e.name = n <;> simp [h, latest?]

lemma mem_of_latest? (h : latest? es n = some e) : e ∈ es ∧ e.name = n :=
  ⟨List.mem_reverse.mp (List.mem_of_find?_eq_some h), by simpa using List.find?_some h⟩

/-- **The names stand in the order in which they were first registered.** -/
theorem names_ofEntries (es : List Entry) :
    (ofEntries es).entries.map Entry.name = (es.map Entry.name).eraseDups := by
  induction es using List.reverseRecOn with
  | nil => rfl
  | append_singleton es e ih =>
      rw [ofEntries_concat, List.map_append, List.map_singleton, eraseDups_concat]
      show (place e (ofEntries es).entries).map Entry.name = _
      rw [names_place, ih]
      simp only [List.mem_eraseDups]

/-- **Under a name stands what was registered last.** -/
theorem get?_ofEntries (es : List Entry) (n : String) : (ofEntries es).get? n = latest? es n := by
  induction es using List.reverseRecOn with
  | nil => rfl
  | append_singleton es e ih => rw [ofEntries_concat, get?_register, latest?_concat, ih]

lemma nodup_names_ofEntries (es : List Entry) : ((ofEntries es).entries.map Entry.name).Nodup := by
  rw [names_ofEntries]
  exact nodup_eraseDups _

/-- The entries are those that were registered last under their names. -/
lemma mem_entries_ofEntries_iff : e ∈ (ofEntries es).entries ↔ latest? es e.name = some e := by
  rw [mem_entries_iff (nodup_names_ofEntries es), get?_ofEntries]

/-- **The categories are all that were ever registered, in the order in which they were first
met.** -/
theorem categories_ofEntries (es : List Entry) :
    (ofEntries es).categories = (es.map Entry.category).eraseDups := by
  induction es using List.reverseRecOn with
  | nil => rfl
  | append_singleton es e ih =>
      rw [ofEntries_concat, List.map_append, List.map_singleton, eraseDups_concat]
      show (if e.category ∈ (ofEntries es).categories then (ofEntries es).categories
        else (ofEntries es).categories ++ [e.category]) = _
      rw [ih]
      simp only [List.mem_eraseDups]

lemma mem_categories_ofEntries_iff {k : String} :
    k ∈ (ofEntries es).categories ↔ ∃ e ∈ es, e.category = k := by
  rw [categories_ofEntries, List.mem_eraseDups, List.mem_map]

/-- **The categories that a catalogue lists after any registrations** are distinct, and those of all
its entries are among them. They are no others exactly if of every category that was registered
something was registered last under its name. -/
theorem categories_ofEntries_iff (es : List Entry) :
    (ofEntries es).categories.Nodup
      ∧ (ofEntries es).entries.map Entry.category ⊆ (ofEntries es).categories
      ∧ ((∀ k, k ∈ (ofEntries es).categories ↔ (ofEntries es).inCategory k ≠ [])
          ↔ ∀ e ∈ es, ∃ d, latest? es d.name = some d ∧ d.category = e.category) := by
  have hlisted : ∀ e ∈ (ofEntries es).entries, e.category ∈ (ofEntries es).categories := by
    intro e he
    have hes := (mem_of_latest? (mem_entries_ofEntries_iff.mp he)).1
    exact mem_categories_ofEntries_iff.mpr ⟨e, hes, rfl⟩
  refine ⟨?_, ?_, ?_, ?_⟩
  · rw [categories_ofEntries]
    exact nodup_eraseDups _
  · intro k hk
    obtain ⟨e, he, rfl⟩ := List.mem_map.mp hk
    exact hlisted e he
  · intro h e he
    have hk := (h e.category).mp (mem_categories_ofEntries_iff.mpr ⟨e, he, rfl⟩)
    obtain ⟨d, hd, hcategory⟩ := inCategory_ne_nil_iff.mp hk
    exact ⟨d, mem_entries_ofEntries_iff.mp hd, hcategory⟩
  · intro h k
    rw [inCategory_ne_nil_iff]
    constructor
    · intro hk
      obtain ⟨e, he, rfl⟩ := mem_categories_ofEntries_iff.mp hk
      obtain ⟨d, hd, hcategory⟩ := h e he
      exact ⟨d, mem_entries_ofEntries_iff.mpr hd, hcategory⟩
    · rintro ⟨e, he, rfl⟩
      exact hlisted e he

/-- A class moves into a new category while another class stays in the old one. -/
theorem categories_ofEntries_boxAndRow :
    let es := [Entry.ofDeclaration "box" ⟨"display", "block"⟩,
      Entry.ofDeclaration "row" ⟨"display", "flex"⟩, Entry.ofDeclaration "box" ⟨"padding", "1rem"⟩]
    (∀ e ∈ es, ∃ d, latest? es d.name = some d ∧ d.category = e.category)
      ∧ ∀ k, k ∈ (ofEntries es).categories ↔ (ofEntries es).inCategory k ≠ [] := by
  intro es
  have hleft : ∀ e ∈ es, ∃ d, latest? es d.name = some d ∧ d.category = e.category := by
    have hrow : latest? es "row" = some es[1] := by decide
    have hbox : latest? es "box" = some es[2] := by decide
    intro e he
    obtain rfl | rfl | rfl : e = es[0] ∨ e = es[1] ∨ e = es[2] := by simpa [es] using he
    · exact ⟨es[1], hrow, by decide⟩
    · exact ⟨es[1], hrow, rfl⟩
    · exact ⟨es[2], hbox, rfl⟩
  exact ⟨hleft, (categories_ofEntries_iff es).2.2.mpr hleft⟩

/-- The only class of a category moves into another one: the category stays listed, and has no
entry. -/
theorem categories_not_exact :
    let c := ofEntries [Entry.ofDeclaration "box" ⟨"display", "block"⟩,
      Entry.ofDeclaration "box" ⟨"padding", "1rem"⟩]
    c.categories = ["layout", "spacing"] ∧ c.entries.map Entry.category = ["spacing"]
      ∧ ¬∀ k, k ∈ c.categories ↔ c.inCategory k ≠ [] := by
  refine ⟨by decide, by decide, fun h => ?_⟩
  exact (h "layout").mp (by decide) (by decide)

end Catalog

end CanvasSync.Utility
