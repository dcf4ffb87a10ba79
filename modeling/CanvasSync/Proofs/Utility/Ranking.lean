import CanvasSync.Proofs.Text.Cuts
import CanvasSync.Proofs.Utility.Registrations
import CanvasSync.Proofs.Utility.Sorting
import CanvasSync.Utility.Search

/-!
The order of what a search finds.

A search ranks the classes of a catalogue by their scores, and those of one score by when their
names were first registered. It gives the beginning of that one ranking, up to its limit.

* `Entry.rating`, `Entry.hit`: the score of a class for a trimmed query, and what is told of it;
* `rating_eq_iff`, `le_rating_iff_startsWith`, `le_rating_iff_contains`: what the three highest
  scores say about the name;
* `Outranks`, `IsRanking`: which class stands before which, and the classes that score in this
  order;
* `isRanking_ranked`, `search_eq`: the classes sorted by score are the ranking, and a search gives its
  beginnings;
* `search_ofEntries`: so a search with a smaller limit gives a beginning of one with a larger limit,
  the class named like the query comes first, and names that begin with the query come before those
  that only hold it, which come before all others.
-/

namespace CanvasSync.Utility

variable {d e : Entry} {es : List Entry} {query : Text} {limit : Nat}

/-! ### Scores -/

/-- The score of a class for a trimmed query. -/
def Entry.rating (e : Entry) (query : Text) : Nat := Catalog.score e query (Text.toLower query)

/-- What a search tells of a class. -/
def Entry.hit (e : Entry) (query : Text) : Suggestion :=
  ⟨e.name, e.category, e.description, e.rating query⟩

lemma startsWith_iff {t p : Text} : Text.startsWith t p ↔ p <+: t := by
  rw [Text.startsWith, Option.isSome_iff_exists]
  constructor
  · rintro ⟨rest, hrest⟩
    exact ⟨rest, (Text.eq_of_strip? hrest).symm⟩
  · rintro ⟨rest, rfl⟩
    exact ⟨rest, Text.strip?_append p rest⟩

/-- A text that begins with another one holds it. -/
lemma contains_of_startsWith {t p : Text} (h : Text.startsWith t p) : Text.contains t p :=
  Text.contains_iff.mpr (startsWith_iff.mp h).isInfix

namespace Entry

/-- The highest score is that of the class named like the query. -/
lemma rating_eq_iff : e.rating query = 100 ↔ e.name.toList = query := by
  rw [rating, Catalog.score]
  split_ifs with hname <;> simp [hname]

lemma rating_le (e : Entry) (query : Text) : e.rating query ≤ 100 := by
  rw [rating, Catalog.score]
  split_ifs <;> omega

/-- A class scores 80 or more exactly if its name begins with the query. -/
lemma le_rating_iff_startsWith : 80 ≤ e.rating query ↔ Text.startsWith e.name.toList query := by
  rw [rating, Catalog.score]
  split_ifs with hname hstart
  · have hself : Text.startsWith query query := startsWith_iff.mpr (List.prefix_refl query)
    rw [hname]
    exact iff_of_true (by omega) hself
  all_goals simp [hstart]

/-- A class scores 60 or more exactly if its name holds the query. -/
lemma le_rating_iff_contains : 60 ≤ e.rating query ↔ Text.contains e.name.toList query := by
  by_cases hstart : Text.startsWith e.name.toList query
  · have hrating := le_rating_iff_startsWith.mpr hstart
    exact iff_of_true (by omega) (contains_of_startsWith hstart)
  · have hname : e.name.toList ≠ query := by
      rintro rfl
      exact hstart (startsWith_iff.mpr (List.prefix_refl _))
    rw [rating, Catalog.score, if_neg hname, if_neg hstart]
    split_ifs with hcontains <;> simp [hcontains]

end Entry

namespace Catalog

/-! ### The ranking -/

/-- Whether a class stands before another one for a query: it scores more, or it scores the same and
its name was registered first. -/
def Outranks (es : List Entry) (query : Text) (d e : Entry) : Prop :=
  e.rating query < d.rating query
    ∨ d.rating query = e.rating query
      ∧ (es.map Entry.name).idxOf d.name < (es.map Entry.name).idxOf e.name

/-- Whether a list ranks the classes that registrations leave: it has those that score, each as it
was registered last, and each before those that it outranks. -/
structure IsRanking (es : List Entry) (query : Text) (ranking : List Entry) : Prop where
  mem_iff : ∀ e, e ∈ ranking ↔ latest? es e.name = some e ∧ e.rating query ≠ 0
  pairwise : ranking.Pairwise (Outranks es query)

/-- The classes that registrations leave stand in the order in which their names were first
registered. -/
lemma pairwise_entries_ofEntries (es : List Entry) :
    (ofEntries es).entries.Pairwise fun d e =>
      (es.map Entry.name).idxOf d.name < (es.map Entry.name).idxOf e.name := by
  have hnames := pairwise_idxOf_eraseDups (es.map Entry.name)
  rw [← names_ofEntries, List.pairwise_map] at hnames
  exact hnames

/-- The hits of a query are the classes that score. -/
lemma hits_eq (c : Catalog) (query : Text) :
    c.hits query = (c.entries.filter fun e => e.rating query ≠ 0).map fun e => e.hit query := by
  rw [hits]
  simp only
  induction c.entries with
  | nil => rfl
  | cons e es ih =>
      rw [List.filterMap_cons, List.filter_cons, ih]
      by_cases h : e.rating query = 0
      · have hscore : score e query (Text.toLower query) = 0 := h
        simp [h, hscore]
      · have hscore : score e query (Text.toLower query) ≠ 0 := h
        simp only [hscore, if_false, ne_eq, h, not_false_eq_true, decide_true, if_true,
          List.map_cons]
        rfl

/-- The classes of a catalogue that score, ranked. -/
def ranked (c : Catalog) (query : Text) : List Entry :=
  (c.entries.filter fun e => e.rating query ≠ 0).mergeSort fun d e => e.rating query ≤ d.rating query

/-- A search gives the beginning of the ranking. -/
lemma search_eq (c : Catalog) (h : Text.trim query ≠ []) (limit : Nat) :
    c.search query limit
      = ((c.ranked (Text.trim query)).take limit).map fun e => e.hit (Text.trim query) := by
  have hsorted : (c.ranked (Text.trim query)).map (fun e => e.hit (Text.trim query))
      = (c.hits (Text.trim query)).mergeSort fun a b => b.score ≤ a.score := by
    rw [hits_eq]
    exact List.map_mergeSort fun d _ e _ => rfl
  rw [List.map_take, hsorted, search]
  simp only [h, if_false]

lemma isRanking_ranked (es : List Entry) (query : Text) :
    IsRanking es query ((ofEntries es).ranked query) := by
  constructor
  · intro e
    rw [ranked, List.mem_mergeSort, List.mem_filter, mem_entries_ofEntries_iff, decide_eq_true_eq]
  · have htrans : ∀ a b c : Entry, decide (b.rating query ≤ a.rating query) →
        decide (c.rating query ≤ b.rating query) → decide (c.rating query ≤ a.rating query) := by
      intro a b c hab hbc
      rw [decide_eq_true_eq] at hab hbc ⊢
      omega
    have htotal : ∀ a b : Entry, decide (b.rating query ≤ a.rating query)
        || decide (a.rating query ≤ b.rating query) := by
      intro a b
      rw [Bool.or_eq_true, decide_eq_true_eq, decide_eq_true_eq]
      omega
    have hplaces := (pairwise_entries_ofEntries es).filter fun e => e.rating query ≠ 0
    refine (pairwise_mergeSort_of_ties htrans htotal hplaces).imp ?_
    intro d e h
    rw [decide_eq_true_eq, decide_eq_true_eq] at h
    by_cases htie : d.rating query = e.rating query
    · exact .inr ⟨htie, h.2 (by omega)⟩
    · exact .inl (by omega)

namespace IsRanking

variable {ranking : List Entry}

/-- No name is ranked twice. -/
lemma nodup (h : IsRanking es query ranking) : (ranking.map Entry.name).Nodup := by
  rw [List.Nodup, List.pairwise_map]
  refine h.pairwise.imp_of_mem ?_
  intro d e hd he hlt hname
  have hsame : d = e := by
    have hd := ((h.mem_iff d).mp hd).1
    have he := ((h.mem_iff e).mp he).1
    rw [hname, he] at hd
    exact (Option.some.inj hd).symm
  subst hsame
  rcases hlt with hlt | ⟨-, hlt⟩ <;> omega

/-- Scores fall along a ranking. -/
lemma pairwise_rating (h : IsRanking es query ranking) :
    ranking.Pairwise fun d e => e.rating query ≤ d.rating query := by
  refine h.pairwise.imp ?_
  rintro d e (hlt | ⟨heq, -⟩) <;> omega

/-- The class named like the query comes first. -/
lemma head?_eq (h : IsRanking es query ranking) (he : latest? es (String.ofList query) = some e) :
    ranking.head? = some e := by
  have hname : e.name = String.ofList query := (mem_of_latest? he).2
  have hrating : e.rating query = 100 := by
    rw [Entry.rating_eq_iff, hname, String.toList_ofList]
  have hmem : e ∈ ranking := by
    rw [h.mem_iff, hname, hrating]
    exact ⟨he, by omega⟩
  cases ranking with
  | nil => cases hmem
  | cons d ranking =>
      rcases List.mem_cons.mp hmem with rfl | htail
      · rfl
      · -- what stands before it scores as much, so it has the same name
        have hle := List.rel_of_pairwise_cons h.pairwise_rating htail
        have hmax := d.rating_le query
        have hsame : d.name.toList = query := Entry.rating_eq_iff.mp (by omega)
        have hnodup := h.nodup
        rw [List.map_cons, List.nodup_cons] at hnodup
        refine absurd (List.mem_map.mpr ⟨e, htail, ?_⟩) hnodup.1
        rw [hname, ← hsame, String.ofList_toList]

/-- Names that begin with the query come before those that only hold it, and those before all
others. -/
lemma pairwise_relation (h : IsRanking es query ranking) : ranking.Pairwise fun d e =>
    (Text.startsWith e.name.toList query → Text.startsWith d.name.toList query)
      ∧ (Text.contains e.name.toList query → Text.contains d.name.toList query) := by
  refine h.pairwise_rating.imp ?_
  intro d e hle
  rw [← Entry.le_rating_iff_startsWith, ← Entry.le_rating_iff_startsWith,
    ← Entry.le_rating_iff_contains, ← Entry.le_rating_iff_contains]
  omega

end IsRanking

/-! ### Searches -/

/-- **What a search finds** after any registrations, for a query that is not blank: the beginning of
the one ranking of the classes that score, with no name twice. A smaller limit gives a beginning of
what a larger one gives. The class named like the query comes first, names that begin with the
query come before those that only hold it, and these before all others. -/
theorem search_ofEntries (es : List Entry) (h : Text.trim query ≠ []) :
    (∃ ranking, IsRanking es (Text.trim query) ranking ∧ ∀ limit,
        (ofEntries es).search query limit
          = (ranking.take limit).map fun e => e.hit (Text.trim query))
      ∧ (∀ limit, (((ofEntries es).search query limit).map Suggestion.name).Nodup)
      ∧ (∀ k l, k ≤ l → (ofEntries es).search query k <+: (ofEntries es).search query l)
      ∧ (∀ e limit, latest? es (String.ofList (Text.trim query)) = some e → 0 < limit →
          ((ofEntries es).search query limit).head? = some (e.hit (Text.trim query)))
      ∧ ∀ limit, ((ofEntries es).search query limit).Pairwise fun a b =>
          (Text.startsWith b.name.toList (Text.trim query) →
            Text.startsWith a.name.toList (Text.trim query))
          ∧ (Text.contains b.name.toList (Text.trim query) →
            Text.contains a.name.toList (Text.trim query)) := by
  have hranking := isRanking_ranked es (Text.trim query)
  have hsearch := search_eq (ofEntries es) h
  refine ⟨⟨_, hranking, hsearch⟩, ?_, ?_, ?_, ?_⟩
  · intro limit
    have hnames : ((ofEntries es).search query limit).map Suggestion.name
        = (((ofEntries es).ranked (Text.trim query)).take limit).map Entry.name := by
      rw [hsearch, List.map_map]
      rfl
    rw [hnames, List.map_take]
    exact hranking.nodup.sublist (List.take_sublist limit _)
  · intro k l hkl
    rw [hsearch, hsearch]
    exact (List.take_prefix_take_left hkl).map _
  · intro e limit he hlimit
    obtain ⟨limit, rfl⟩ := Nat.exists_eq_succ_of_ne_zero (Nat.ne_of_gt hlimit)
    rw [hsearch, List.head?_map, List.head?_take, if_neg (Nat.succ_ne_zero limit),
      hranking.head?_eq he]
    rfl
  · intro limit
    rw [hsearch, List.pairwise_map]
    exact hranking.pairwise_relation.sublist (List.take_sublist limit _)

/-- A class that was registered again, and one whose name holds the query. -/
theorem search_ofEntries_flex :
    let es := [Entry.ofDeclaration "inline-flex" ⟨"display", "inline-flex"⟩,
      Entry.ofDeclaration "flex" ⟨"display", "block"⟩,
      Entry.ofDeclaration "flex" ⟨"display", "flex"⟩]
    Text.trim " flex".toList ≠ [] ∧ latest? es "flex" = some es[2]
      ∧ ((ofEntries es).search " flex".toList 1).head?
        = some ⟨"flex", "layout", some "display: flex", 100⟩
      ∧ (ofEntries es).search " flex".toList 1 <+: (ofEntries es).search " flex".toList 2 := by
  intro es
  have hquery : Text.trim " flex".toList ≠ [] := by decide
  have hlatest : latest? es "flex" = some es[2] := by decide
  have hhit : es[2].hit (Text.trim " flex".toList)
      = ⟨"flex", "layout", some "display: flex", 100⟩ := by decide +kernel
  obtain ⟨-, -, hprefix, hfirst, -⟩ := search_ofEntries es hquery
  refine ⟨hquery, hlatest, ?_, hprefix 1 2 (by omega)⟩
  rw [← hhit]
  exact hfirst es[2] 1 hlatest (by omega)

end Catalog

end CanvasSync.Utility
