import CanvasSync.Proofs.Project.Rereading

/-!
Components forgotten in any order.

The files that components stand in are a map, and its entries come in no order that can be told. So
the components that are no longer in a file are forgotten in any order, a tree before those within it
or after them.

* `stale_perm`: the same components are forgotten, whatever the order;
* `dropOwned_of_perm`: the same forest and the same map are left;
* without distinct ids the order is seen in what is left.
-/

namespace CanvasSync.Project

open CanvasSync.Component
open CanvasSync.Storage (Path)

/-- In a map, what is found does not depend on the order of the entries. -/
lemma Owners.lookup_of_perm {owners owners' : Owners} (h : owners'.Perm owners)
    (hnodup : (owners.map Prod.fst).Nodup) (i : String) : owners'.lookup i = owners.lookup i := by
  have hnodup' : (owners'.map Prod.fst).Nodup := (h.map Prod.fst).nodup_iff.mpr hnodup
  refine Option.ext fun p => ?_
  rw [← mem_iff_lookup hnodup', ← mem_iff_lookup hnodup, h.mem_iff]

namespace State

variable {s : State} {owners : Owners} {p : Path} {keep : List String}

lemma stale_perm (h : owners.Perm s.owners) (p : Path) (keep : List String) :
    ({ s with owners := owners }.stale p keep).Perm (s.stale p keep) :=
  (h.filter _).map _

/-- Components that are not forgotten keep their order, and what is in them. -/
lemma labelsAll_foldl_forget_sublist (s : State) (ids : List String) :
    (labelsAll (ids.foldl forget s).components).Sublist (labelsAll s.components) := by
  induction ids generalizing s with
  | nil => exact .refl _
  | cons id ids ih => exact (ih (s.forget id)).trans (labelsAll_without_sublist s id)

/-- **What is left when components of a file are forgotten does not depend on the order of the
owners**: where ids are distinct, it is the forest without the trees of the ids that go, in its order,
and the owners without these ids. -/
theorem dropOwned_of_perm (hs : s.IdsDistinct) (h : owners.Perm s.owners) (p : Path)
    (keep : List String) :
    { s with owners := owners }.dropOwned p keep
        = { s with
            components := prunedAll (· ∈ s.stale p keep) s.components
            owners := owners.eraseAll (s.stale p keep) }
      ∧ (labelsAll (prunedAll (· ∈ s.stale p keep) s.components)).Sublist (labelsAll s.components)
      ∧ (∀ i, i ∈ idsAll (prunedAll (· ∈ s.stale p keep) s.components) ↔ i ∈ idsAll s.components
        ∧ ∀ c ∈ nodesAll s.components, c.id ∈ s.stale p keep → i ∉ c.ids)
      ∧ ((s.owners.map Prod.fst).Nodup → ∀ i, (i ∈ s.stale p keep ↔ s.standsIn p i ∧ i ∉ keep)
        ∧ (owners.eraseAll (s.stale p keep)).lookup i
          = if i ∈ s.stale p keep then none else s.owners.lookup i) := by
  have hmem (i : String) : i ∈ { s with owners := owners }.stale p keep ↔ i ∈ s.stale p keep :=
    (stale_perm h p keep).mem_iff
  refine ⟨?_, ?_, fun i => mem_idsAll_prunedAll_mem_iff hs,
    fun hnodup i => ⟨mem_stale_iff hnodup, ?_⟩⟩
  · have hdistinct : { s with owners := owners }.IdsDistinct := hs
    rw [dropOwned_eq hdistinct]
    simp only [Owners.eraseAll, hmem]
  · rw [← dropOwned_components hs]
    exact labelsAll_foldl_forget_sublist s _
  · rw [Owners.lookup_eraseAll, Owners.lookup_of_perm h hnodup]

/-- A list with an item in it that has an icon of another file, and a list of which one item stays. -/
def twoLists : State :=
  let page : Path := ⟨"/p/page.tsx"⟩
  let item := { ofTag "item" "li" with children := [ofTag "icon" "i"] }
  { ofRoot ⟨"/p"⟩ with
    components :=
      [{ ofTag "list" "ul" with children := [item] },
        { ofTag "steps" "ol" with children := [ofTag "first" "li", ofTag "second" "li"] }]
    owners := [("list", page), ("item", page), ("icon", ⟨"/p/icon.tsx"⟩), ("steps", page),
      ("first", page), ("second", page), ("gone", page)] }

theorem dropOwned_of_perm_twoLists :
    twoLists.IdsDistinct ∧ twoLists.owners.reverse.Perm twoLists.owners
      ∧ (twoLists.owners.map Prod.fst).Nodup
      ∧ twoLists.stale ⟨"/p/page.tsx"⟩ ["steps", "second"] = ["list", "item", "first", "gone"]
      ∧ ∃ t, { twoLists with owners := twoLists.owners.reverse }.dropOwned ⟨"/p/page.tsx"⟩
          ["steps", "second"] = t
        ∧ t.components = [{ ofTag "steps" "ol" with children := [ofTag "second" "li"] }]
        ∧ t.owners.lookup "icon" = some ⟨"/p/icon.tsx"⟩ ∧ t.owners.lookup "item" = none := by
  have hdistinct : twoLists.IdsDistinct := by decide +kernel
  have hperm : twoLists.owners.reverse.Perm twoLists.owners := List.reverse_perm _
  have hnodup : (twoLists.owners.map Prod.fst).Nodup := by decide +kernel
  obtain ⟨heq, -, -, hmap⟩ :=
    dropOwned_of_perm hdistinct hperm ⟨"/p/page.tsx"⟩ ["steps", "second"]
  refine ⟨hdistinct, hperm, hnodup, by decide +kernel, _, heq, ?_, ?_, ?_⟩
  · rfl
  · rw [(hmap hnodup "icon").2]
    decide +kernel
  · rw [(hmap hnodup "item").2]
    decide +kernel

/-- Two trees with a component of the same id within them, and the owners of some ids. -/
def twins (ids : List String) : State :=
  let within (id : String) := { ofTag id "div" with children := [ofTag "twin" "i"] }
  { ofRoot ⟨"/p"⟩ with
    components := [within "left", within "right"]
    owners := ids.map fun id => (id, ⟨"/p/page.tsx"⟩) }

/-- If an id stands twice, either of the two goes, by which of the other ids went before. -/
example : idsAll ((twins ["left", "twin"]).dropOwned ⟨"/p/page.tsx"⟩ []).components = ["right"]
    ∧ idsAll ((twins ["twin", "left"]).dropOwned ⟨"/p/page.tsx"⟩ []).components
      = ["right", "twin"] := by decide +kernel

end State

end CanvasSync.Project
