import CanvasSync.Proofs.Component.Forest

/-!
A component taken out from within a tree.

* `removeDescendant?_eq`: what a tree loses is what the forest within it loses;
* `removeFrom`: the removal in place, which goes on with the trees as the failed looks left them;
* `Detaches.exists_labelsAll`: the trees of the component that goes stand in a row among those of the
  forest, and the others stay as they are;
* `removeDescendant?_exact`: what is taken out, what stays, and when nothing is.
-/

namespace CanvasSync.Component

variable {id : String} {c gone rest : Component} {cs ds : List Component}

/-- The removal looks at what is within the root. -/
lemma removeDescendant?_eq (id : String) (c : Component) : c.removeDescendant? id
    = (detach? id c.children).map fun r => (r.1, { c with children := r.2 }) := by
  obtain ⟨i, tag, name, props, children, position⟩ := c
  cases h : takeOut? id children <;> simp [removeDescendant?, detach?, h]

lemma find?_eq (id : String) (c : Component) :
    c.find? id = if c.id = id then some c else findAll? id c.children := by
  cases c; rfl

/-! ### In place -/

mutual
/-- The removal in place: what is taken out from within a tree, and the tree as it is then. -/
def removeFrom (id : String) : Component → Option Component × Component
  | ⟨i, tag, name, props, children, position⟩ =>
    match takeOut? id children with
    | some (found, cs) => (some found, ⟨i, tag, name, props, cs, position⟩)
    | none =>
      let (found, cs) := removeFromAll id children
      (found, ⟨i, tag, name, props, cs, position⟩)

/-- The same with the first of several trees that has something to give. -/
def removeFromAll (id : String) : List Component → Option Component × List Component
  | [] => (none, [])
  | c :: cs =>
    match removeFrom id c with
    | (some found, c) => (some found, c :: cs)
    | (none, c) =>
      let (found, cs) := removeFromAll id cs
      (found, c :: cs)
end

lemma removeFrom_eq_of_removeFromAll (h : removeFromAll id c.children
      = ((removeWithin? id c.children).map Prod.fst,
        ((removeWithin? id c.children).map Prod.snd).getD c.children)) :
    c.removeFrom id
      = ((c.removeDescendant? id).map Prod.fst, ((c.removeDescendant? id).map Prod.snd).getD c) := by
  obtain ⟨i, tag, name, props, children, position⟩ := c
  rw [removeFrom, removeDescendant?]
  cases takeOut? id children with
  | some r => rfl
  | none =>
      simp only at h
      cases hw : removeWithin? id children <;> simp [h, hw]

/-- A removal in place that finds nothing leaves every tree as it was. -/
lemma removeFromAll_eq (id : String) (cs : List Component) : removeFromAll id cs
    = ((removeWithin? id cs).map Prod.fst, ((removeWithin? id cs).map Prod.snd).getD cs) := by
  induction cs using forestInduction with
  | nil => rfl
  | cons c cs ihc ihcs =>
      rw [removeFromAll, removeFrom_eq_of_removeFromAll ihc, removeWithin?]
      cases hc : c.removeDescendant? id with
      | some r => rfl
      | none => cases hcs : removeWithin? id cs <;> simp [ihcs, hcs]

lemma removeFrom_eq (id : String) (c : Component) : c.removeFrom id
    = ((c.removeDescendant? id).map Prod.fst, ((c.removeDescendant? id).map Prod.snd).getD c) :=
  removeFrom_eq_of_removeFromAll (removeFromAll_eq id c.children)

/-! ### What goes and what stays -/

lemma Detaches.id_eq (h : Detaches id gone cs ds) : gone.id = id := by
  induction h with
  | here cs hid => exact hid
  | within c cs h ih => exact ih
  | behind c h ih => exact ih

/-- The trees of the component that goes stand in a row among those of the forest; the others stay. -/
lemma Detaches.exists_labelsAll (h : Detaches id gone cs ds) : ∃ before behind,
    labelsAll cs = before ++ (labelsAll [gone] ++ behind) ∧ labelsAll ds = before ++ behind := by
  induction h with
  | here cs hid => exact ⟨[], labelsAll cs, by simp, rfl⟩
  | within c cs h ih =>
      obtain ⟨before, behind, hcs, hds⟩ := ih
      exact ⟨{ c with children := [] } :: before, behind ++ labelsAll cs, by simp [hcs], by simp [hds]⟩
  | behind c h ih =>
      obtain ⟨before, behind, hcs, hds⟩ := ih
      exact ⟨labelsAll [c] ++ before, behind, by simp [hcs], by simp [hds]⟩

/-- Something is taken out of every forest in which the id stands, however often. -/
lemma detach?_isSome (hid : id ∈ idsAll cs) : (detach? id cs).isSome := by
  induction cs using forestInduction with
  | nil => cases hid
  | cons c cs ihc ihcs =>
      cases htop : takeOut? id (c :: cs) with
      | some r => rw [detach?, htop, Option.some_or, Option.isSome_some]
      | none =>
          rw [takeOut?] at htop
          split_ifs at htop with hc
          have hbehind : takeOut? id cs = none := by simpa using htop
          rw [idsAll_cons, ids_eq, List.mem_append, List.mem_cons, or_iff_right (Ne.symm hc)] at hid
          rw [detach?, takeOut?, if_neg hc, hbehind, Option.map_none, Option.none_or,
            removeWithin?_cons]
          cases hin : detach? id c.children with
          | some r => rfl
          | none =>
              have hcs : id ∈ idsAll cs := hid.resolve_left fun h => by simpa [hin] using ihc h
              have hsome := ihcs hcs
              rw [detach?, hbehind, Option.none_or] at hsome
              simpa using hsome

lemma detach?_eq_none_iff : detach? id cs = none ↔ id ∉ idsAll cs := by
  refine ⟨fun h hid => ?_, detach?_eq_none⟩
  have hsome := detach?_isSome hid
  rw [h] at hsome
  cases hsome

/-- Where ids are distinct, what is taken out of a forest is what a look-up finds. -/
lemma map_fst_detach? (h : (idsAll cs).Nodup) (id : String) :
    (detach? id cs).map Prod.fst = findAll? id cs := by
  by_cases hid : id ∈ idsAll cs
  · obtain ⟨found, hdetach, hfind⟩ := detach?_of_mem hid (List.nodup_iff_count_le_one.mp h id)
    rw [hdetach, hfind]
    rfl
  · rw [detach?_eq_none hid, findAll?_eq_none_iff.mpr hid]
    rfl

/-- Where ids are distinct, the id does not stand in what is left of a forest. -/
lemma Detaches.notMem_idsAll (h : Detaches id gone cs ds) (hcs : (idsAll cs).Nodup) :
    id ∉ idsAll ds := by
  obtain ⟨before, behind, hbefore, hbehind⟩ := h.exists_labelsAll
  rw [idsAll_eq_map_labelsAll, hbefore, List.map_append, List.map_append, ← idsAll_eq_map_labelsAll,
    List.nodup_append, List.nodup_append] at hcs
  obtain ⟨-, ⟨-, -, hgone⟩, hfront⟩ := hcs
  have hid : id ∈ idsAll [gone] := by simp [ids_eq, h.id_eq]
  rw [idsAll_eq_map_labelsAll, hbehind, List.map_append, List.mem_append]
  rintro (hmem | hmem)
  · exact hfront id hmem id (List.mem_append_left _ hid) rfl
  · exact hgone id hid id hmem rfl

/-- **Taking a component out from within a tree.** It has the id; its trees stood in a row among those
of the tree, of which the others stay as they are, the root with its own fields. Nothing is taken out
exactly if the id does not stand within the root; in place, the tree stays then. Where ids are distinct
it is the component that a look-up finds, and finds no more. -/
theorem removeDescendant?_exact (id : String) (c : Component) :
    (∀ gone rest, c.removeDescendant? id = some (gone, rest) →
      gone.id = id ∧ rest = { c with children := rest.children }
        ∧ Detaches id gone c.children rest.children
        ∧ ∃ before behind, labelsAll [c] = before ++ (labelsAll [gone] ++ behind)
          ∧ labelsAll [rest] = before ++ behind
          ∧ c.ids = before.map Component.id ++ (gone.ids ++ behind.map Component.id)
          ∧ rest.ids = before.map Component.id ++ behind.map Component.id)
      ∧ (c.removeDescendant? id = none ↔ id ∉ idsAll c.children)
      ∧ c.removeFrom id
        = ((c.removeDescendant? id).map Prod.fst, ((c.removeDescendant? id).map Prod.snd).getD c)
      ∧ (c.ids.Nodup → c.id ≠ id → (c.removeDescendant? id).map Prod.fst = c.find? id
        ∧ (c.removeFrom id).2.find? id = none) := by
  have hids (c : Component) : c.ids = (labelsAll [c]).map Component.id := by
    rw [← idsAll_eq_map_labelsAll, idsAll_cons, idsAll_nil, List.append_nil]
  refine ⟨fun gone rest h => ?_, ?_, removeFrom_eq id c, fun hnodup hroot => ⟨?_, ?_⟩⟩
  · rw [removeDescendant?_eq, Option.map_eq_some_iff] at h
    obtain ⟨⟨found, ds⟩, hdetach, heq⟩ := h
    obtain ⟨rfl, rfl⟩ := Prod.mk.inj heq
    have hgone := detaches_of_detach? hdetach
    obtain ⟨before, behind, hc, hrest⟩ := (hgone.within c []).exists_labelsAll
    exact ⟨hgone.id_eq, rfl, hgone, before, behind, hc, hrest,
      by rw [hids c, hc, hids found, List.map_append, List.map_append],
      by rw [hids, hrest, List.map_append]⟩
  · rw [removeDescendant?_eq, Option.map_eq_none_iff, detach?_eq_none_iff]
  · rw [ids_eq, List.nodup_cons] at hnodup
    rw [removeDescendant?_eq, find?_eq, if_neg hroot, ← map_fst_detach? hnodup.2, Option.map_map]
    rfl
  · rw [ids_eq, List.nodup_cons] at hnodup
    rw [removeFrom_eq, removeDescendant?_eq, find?_eq]
    cases hdetach : detach? id c.children with
    | none =>
        simp only [Option.map_none, Option.getD_none, if_neg hroot]
        exact findAll?_eq_none_iff.mpr (detach?_eq_none_iff.mp hdetach)
    | some r =>
        simp only [Option.map_some, Option.getD_some, if_neg hroot]
        exact findAll?_eq_none_iff.mpr ((detaches_of_detach? hdetach).notMem_idsAll hnodup.2)

/-- An item with a link within it. -/
def linkItem : Component :=
  { Component.ofTag "second" "li" with children := [Component.ofTag "link" "a"] }

/-- A list with some items between its first and its last one. -/
def itemList (items : List Component) : Component :=
  { Component.ofTag "list" "ul" with
    children := Component.ofTag "first" "li" :: (items ++ [Component.ofTag "third" "li"]) }

theorem removeDescendant?_exact_itemList :
    (itemList [linkItem]).removeDescendant? "second" = some (linkItem, itemList [])
      ∧ Detaches "second" linkItem (itemList [linkItem]).children (itemList []).children
      ∧ (itemList [linkItem]).ids.Nodup ∧ (itemList [linkItem]).id ≠ "second"
      ∧ (itemList [linkItem]).find? "second" = some linkItem
      ∧ ((itemList [linkItem]).removeFrom "second").2.find? "second" = none := by
  have hremove :
      (itemList [linkItem]).removeDescendant? "second" = some (linkItem, itemList []) := rfl
  have hnodup : (itemList [linkItem]).ids.Nodup := by decide +kernel
  have hroot : (itemList [linkItem]).id ≠ "second" := by decide
  obtain ⟨htaken, -, -, hdistinct⟩ := removeDescendant?_exact "second" (itemList [linkItem])
  obtain ⟨-, -, hdetaches, -⟩ := htaken _ _ hremove
  obtain ⟨hfind, hnone⟩ := hdistinct hnodup hroot
  exact ⟨hremove, hdetaches, hnodup, hroot, by rw [← hfind, hremove]; rfl, hnone⟩

end CanvasSync.Component
