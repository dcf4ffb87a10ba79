import CanvasSync.Proofs.Component.Forest
import CanvasSync.Proofs.Markup.Enclosure

/-!
The components of an index, node by node.

An index need not come from a script for its components to be those of its marked nodes: it is enough
that its nodes are those of some trees, in the order in which they begin.

* `flatMap_linkedTo`: the marked nodes within a node are those linked to it, each with the marked
  nodes within that;
* `nodes_componentAt`: the same of components;
* `components_of_isForest`: every marked node becomes one component, in order, within that of the
  nearest marked node around it.
-/

namespace CanvasSync.Markup.Document

variable {d : Document} {marker : String} {p : Entry → Bool} {i k depth depth' : Nat}
  {parent : Option Nat}

/-! ### Marked nodes -/

/-- What is read off the nodes with a property is read off them in order. -/
lemma map_indicesWhere {α : Type} (f : Option Entry → α) :
    (d.indicesWhere p).map (fun i => f d.entries[i]?) = (d.entries.filter p).map fun e => f (some e) := by
  have hread : ∀ r ∈ d.entries.zipIdx.filter fun r => p r.1, f d.entries[r.2]? = f (some r.1) := by
    intro r hr
    rw [List.mem_zipIdx_iff_getElem?.mp (List.mem_filter.mp hr).1]
  rw [indicesWhere, List.map_map]
  refine (List.map_congr_left hread).trans ?_
  conv_rhs => rw [← List.zipIdx_map_fst 0 d.entries, List.filter_map, List.map_map]
  rfl

lemma linkedTo_links (d : Document) (marker : String) (parent : Option Nat) :
    linkedTo (d.links marker) parent
      = (d.indicesWhere (isMarked marker)).filter fun i =>
        d.ancestorWhere? i (isMarked marker) = parent := by
  rw [linkedTo, links, List.filter_map, List.map_map]
  exact List.map_id _

/-- A node stands within a given one; all nodes do so if none is given. -/
def IsInside (d : Document) (parent : Option Nat) (i : Nat) : Prop :=
  ∀ j, parent = some j → d.Encloses j i

/-- A marked node that is linked to a given one stands within it. -/
lemma isInside_of_linked (hd : d.IsNested) (hi : i < d.entries.length)
    (h : d.ancestorWhere? i (isMarked marker) = parent) : d.IsInside parent i := by
  rintro j rfl
  exact ((ancestorWhere?_eq_some_iff hd hi).mp h).encloses

lemma IsInside.of_encloses (h : d.IsInside parent k) (hk : d.Encloses k i) :
    d.IsInside parent i :=
  fun j hj => .trans (h j hj) hk

lemma lt_of_mem_linkedTo (hd : d.IsNested) (h : k ∈ linkedTo (d.links marker) (some i)) :
    i < k ∧ k < d.entries.length := by
  rw [linkedTo_links, List.mem_filter, decide_eq_true_eq] at h
  have hk := lt_of_mem_indicesWhere h.1
  exact ⟨(isInside_of_linked hd hk h.2 i rfl).lt hd, hk⟩

/-- A marked node within a marked one, or any one, is linked to it or stands within one that is. -/
lemma exists_linked (hd : d.IsNested) (hparent : ∀ i, parent = some i →
      i ∈ d.indicesWhere (isMarked marker)) (hi : i ∈ d.indicesWhere (isMarked marker))
    (hinside : d.IsInside parent i) :
    ∃ k ∈ linkedTo (d.links marker) parent, i = k ∨ d.Encloses k i := by
  induction i using Nat.strongRecOn with
  | _ i ih =>
      have hlt := lt_of_mem_indicesWhere hi
      by_cases hlink : d.ancestorWhere? i (isMarked marker) = parent
      · refine ⟨i, ?_, .inl rfl⟩
        rw [linkedTo_links]
        exact List.mem_filter.mpr ⟨hi, by simpa using hlink⟩
      -- the nearest marked node around lies within the given one
      · have hnear : ∃ j, d.ancestorWhere? i (isMarked marker) = some j ∧ d.IsInside parent j := by
          cases hj : d.ancestorWhere? i (isMarked marker) with
          | none =>
              cases hp : parent with
              | none => exact absurd (hj.trans hp.symm) hlink
              | some a =>
                  exact absurd (mem_indicesWhere_iff.mp (hparent a hp))
                    ((ancestorWhere?_eq_none_iff hd hlt).mp hj a (hinside a hp))
          | some j =>
              refine ⟨j, rfl, fun a ha => ?_⟩
              have hnearest := (ancestorWhere?_eq_some_iff hd hlt).mp hj
              rcases hnearest.outermost a (hinside a ha) (mem_indicesWhere_iff.mp (hparent a ha))
                with rfl | h
              · exact absurd (hj.trans ha.symm) hlink
              · exact h
        obtain ⟨j, hj, hinside'⟩ := hnear
        have hnearest := (ancestorWhere?_eq_some_iff hd hlt).mp hj
        obtain ⟨k, hk, hkj⟩ := ih j (hnearest.encloses.lt hd)
          (mem_indicesWhere_iff.mpr hnearest.holds) hinside'
        refine ⟨k, hk, .inr ?_⟩
        rcases hkj with rfl | hkj
        · exact hnearest.encloses
        · exact hkj.trans hnearest.encloses

/-- Of the marked nodes that are linked to one, none stands within another. -/
lemma not_encloses_of_linked (hd : d.IsNested) (hi : i ∈ linkedTo (d.links marker) parent)
    (hk : k ∈ linkedTo (d.links marker) parent) : ¬d.Encloses i k := by
  intro henc
  rw [linkedTo_links, List.mem_filter, decide_eq_true_eq] at hi hk
  have hlt := lt_of_mem_indicesWhere hk.1
  have hmarked := mem_indicesWhere_iff.mp hi.1
  cases parent with
  | none => exact (ancestorWhere?_eq_none_iff hd hlt).mp hk.2 i henc hmarked
  | some a =>
      have ha := (isInside_of_linked hd (lt_of_mem_indicesWhere hi.1) hi.2 a rfl).lt hd
      rcases ((ancestorWhere?_eq_some_iff hd hlt).mp hk.2).outermost i henc hmarked with rfl | hia
      · exact absurd ha (Nat.lt_irrefl i)
      · exact absurd (Nat.lt_trans ha (hia.lt hd)) (Nat.lt_irrefl a)

open Classical in
/-- **The marked nodes within a node** are those linked to it, each with the marked nodes within that
behind it. -/
lemma flatMap_linkedTo (hd : d.IsForest)
    (hparent : ∀ i, parent = some i → i ∈ d.indicesWhere (isMarked marker)) :
    ((linkedTo (d.links marker) parent).flatMap fun k =>
      (d.indicesWhere (isMarked marker)).filter fun i => i = k ∨ d.Encloses k i)
      = (d.indicesWhere (isMarked marker)).filter fun i => d.IsInside parent i := by
  have hsorted := pairwise_indicesWhere d (isMarked marker)
  refine List.Pairwise.eq_of_mem_iff (r := (· < ·)) ?_ (hsorted.sublist List.filter_sublist) ?_
  · rw [List.pairwise_flatMap]
    refine ⟨fun k _ => hsorted.sublist List.filter_sublist, ?_⟩
    have hlinked : (linkedTo (d.links marker) parent).Pairwise (· < ·) := by
      rw [linkedTo_links]
      exact hsorted.sublist List.filter_sublist
    refine hlinked.imp_of_mem fun {k k'} hk hk' hlt i hi i' hi' => ?_
    -- what stands within the first of two linked nodes ends before the second begins
    have hmem {m : Nat} (hm : m ∈ linkedTo (d.links marker) parent) : m < d.entries.length := by
      rw [linkedTo_links] at hm
      exact lt_of_mem_indicesWhere (List.mem_filter.mp hm).1
    rw [List.mem_filter, decide_eq_true_eq] at hi hi'
    obtain ⟨stop, hstop⟩ := hd.contiguous k (hmem hk)
    have hend : stop ≤ k' := by
      by_contra hin
      rcases (hstop k').mpr ⟨Nat.le_of_lt hlt, Nat.lt_of_not_le hin⟩ with rfl | henc
      · exact Nat.lt_irrefl k' hlt
      · exact not_encloses_of_linked hd.nested hk hk' henc
    have hbegin : k' ≤ i' := by
      rcases hi'.2 with rfl | h
      · exact Nat.le_refl i'
      · exact Nat.le_of_lt (h.lt hd.nested)
    exact Nat.lt_of_lt_of_le ((hstop i).mp hi.2).2 (Nat.le_trans hend hbegin)
  · intro i
    simp only [List.mem_flatMap, List.mem_filter, decide_eq_true_eq]
    constructor
    · rintro ⟨k, hk, hi, hki⟩
      rw [linkedTo_links, List.mem_filter, decide_eq_true_eq] at hk
      have hinside := isInside_of_linked hd.nested (lt_of_mem_indicesWhere hk.1) hk.2
      refine ⟨hi, ?_⟩
      rcases hki with rfl | hki
      · exact hinside
      · exact hinside.of_encloses hki
    · rintro ⟨hi, hinside⟩
      obtain ⟨k, hk, hki⟩ := exists_linked hd.nested hparent hi hinside
      exact ⟨k, hk, hi, hki⟩

/-! ### Components -/

/-- The component of a marked node. -/
def componentAt (d : Document) (marker : String) (i : Nat) : Component :=
  d.component marker (d.links marker) d.entries.length i

/-- A component has all components within it if it may have as many levels as nodes come behind. -/
lemma component_congr (hd : d.IsNested) (hi : i < d.entries.length)
    (hdepth : d.entries.length - i ≤ depth) (hdepth' : d.entries.length - i ≤ depth') :
    d.component marker (d.links marker) depth i = d.component marker (d.links marker) depth' i := by
  induction depth generalizing i depth' with
  | zero => omega
  | succ depth ih =>
      obtain ⟨n, rfl⟩ : ∃ n, depth' = n + 1 := ⟨depth' - 1, by omega⟩
      have hchildren : (linkedTo (d.links marker) (some i)).map
            (d.component marker (d.links marker) depth)
          = (linkedTo (d.links marker) (some i)).map (d.component marker (d.links marker) n) := by
        refine List.map_congr_left fun k hk => ?_
        obtain ⟨hlt, hlength⟩ := lt_of_mem_linkedTo hd hk
        exact ih hlength (by omega) (by omega)
      rw [component, component, hchildren]

lemma children_componentAt (hd : d.IsNested) (hi : i < d.entries.length) :
    (d.componentAt marker i).children
      = (linkedTo (d.links marker) (some i)).map (d.componentAt marker) := by
  obtain ⟨n, hn⟩ : ∃ n, d.entries.length = n + 1 := ⟨d.entries.length - 1, by omega⟩
  rw [componentAt, hn, component]
  refine List.map_congr_left fun k hk => ?_
  obtain ⟨hlt, hlength⟩ := lt_of_mem_linkedTo hd hk
  exact component_congr hd hlength (by omega) (by omega)

lemma id_component (d : Document) (marker : String) (depth i : Nat) :
    (d.component marker (d.links marker) depth i).id
      = ((((d.entries[i]?).map Entry.node).getD default).quoted? marker).getD "" := by
  cases depth <;> rfl

/-- The ids of the components of all marked nodes are their marks, in order. -/
lemma map_indicesWhere_isMarked (d : Document) (marker : String) :
    (d.indicesWhere (isMarked marker)).map (Component.id ∘ d.componentAt marker)
      = d.entries.filterMap fun e => e.node.quoted? marker := by
  have hids : (Component.id ∘ d.componentAt marker) = fun i =>
      ((((d.entries[i]?).map Entry.node).getD default).quoted? marker).getD "" :=
    funext fun i => id_component d marker d.entries.length i
  rw [hids, map_indicesWhere fun e => (((e.map Entry.node).getD default).quoted? marker).getD ""]
  induction d.entries with
  | nil => rfl
  | cons e es ih =>
      rw [List.filter_cons, List.filterMap_cons]
      cases h : e.node.quoted? marker with
      | none => simpa [isMarked, h] using ih
      | some id => simpa [isMarked, h] using ih

open Classical in
/-- The components of a marked node and of the marked nodes within it, in order. -/
lemma nodes_componentAt (hd : d.IsForest) (hi : i ∈ d.indicesWhere (isMarked marker)) :
    (d.componentAt marker i).nodes
      = ((d.indicesWhere (isMarked marker)).filter fun k => k = i ∨ d.Encloses i k).map
        (d.componentAt marker) := by
  have hrange := lt_of_mem_indicesWhere hi
  induction hn : d.entries.length - i using Nat.strongRecOn generalizing i with
  | _ n ih =>
      have hwithin : ((linkedTo (d.links marker) (some i)).map (d.componentAt marker)).flatMap
            Component.nodes
          = ((d.indicesWhere (isMarked marker)).filter fun k => d.IsInside (some i) k).map
            (d.componentAt marker) := by
        rw [← flatMap_linkedTo hd (by simpa using hi), List.flatMap_map, List.map_flatMap]
        refine List.flatMap_congr fun k hk => ?_
        obtain ⟨hlt, hlength⟩ := lt_of_mem_linkedTo hd.nested hk
        rw [linkedTo_links] at hk
        exact ih _ (by omega) (List.mem_filter.mp hk).1 hlength rfl
      -- the node itself comes before all marked nodes within it
      have hcons : i :: ((d.indicesWhere (isMarked marker)).filter fun k => d.IsInside (some i) k)
          = (d.indicesWhere (isMarked marker)).filter fun k => k = i ∨ d.Encloses i k := by
        have hsorted := pairwise_indicesWhere d (isMarked marker)
        refine List.Pairwise.eq_of_mem_iff (r := (· < ·)) (List.pairwise_cons.mpr ⟨fun k hk => ?_,
          hsorted.sublist List.filter_sublist⟩) (hsorted.sublist List.filter_sublist) fun k => ?_
        · rw [List.mem_filter, decide_eq_true_eq] at hk
          exact (hk.2 i rfl).lt hd.nested
        · simp only [List.mem_cons, List.mem_filter, decide_eq_true_eq, IsInside, Option.some_inj,
            forall_eq']
          constructor
          · rintro (rfl | ⟨hk, henc⟩)
            · exact ⟨hi, .inl rfl⟩
            · exact ⟨hk, .inr henc⟩
          · rintro ⟨hk, rfl | henc⟩
            · exact .inl rfl
            · exact .inr ⟨hk, henc⟩
      rw [Component.nodes_eq, children_componentAt hd.nested hrange, Component.nodesAll_eq_flatMap,
        hwithin, ← hcons, List.map_cons]

open Classical in
/-- **The components of an index that is a forest** are those of its marked nodes, each once and in
order, with their ids. Those with no marked node around are outermost; within the others stand those
of which they are the nearest marked node around. -/
theorem components_of_isForest (hd : d.IsForest) (marker : String) :
    Component.nodesAll (d.components marker)
        = (d.indicesWhere (isMarked marker)).map (d.componentAt marker)
      ∧ Component.idsAll (d.components marker)
        = d.entries.filterMap (fun e => e.node.quoted? marker)
      ∧ d.components marker
        = ((d.indicesWhere (isMarked marker)).filter fun i =>
          ∀ k, d.Encloses k i → k ∉ d.indicesWhere (isMarked marker)).map (d.componentAt marker)
      ∧ ∀ i ∈ d.indicesWhere (isMarked marker), (d.componentAt marker i).children
        = ((d.indicesWhere (isMarked marker)).filter fun k =>
          d.IsNearest (isMarked marker) i k).map (d.componentAt marker) := by
  have hnodes : Component.nodesAll (d.components marker)
      = (d.indicesWhere (isMarked marker)).map (d.componentAt marker) := by
    have hall : (d.indicesWhere (isMarked marker)).filter (fun i => d.IsInside none i)
        = d.indicesWhere (isMarked marker) :=
      List.filter_eq_self.mpr fun i _ => by simp [IsInside]
    rw [Component.nodesAll_eq_flatMap, components, List.flatMap_map]
    conv_rhs => rw [← hall, ← flatMap_linkedTo hd (by simp), List.map_flatMap]
    refine List.flatMap_congr fun k hk => ?_
    rw [linkedTo_links] at hk
    exact nodes_componentAt hd (List.mem_filter.mp hk).1
  refine ⟨hnodes, ?_, ?_, fun i hi => ?_⟩
  · rw [Component.idsAll_eq_map_nodesAll, hnodes, List.map_map]
    exact map_indicesWhere_isMarked d marker
  · rw [components, linkedTo_links]
    refine congrArg (List.map (d.componentAt marker)) (List.filter_congr fun i hi => ?_)
    simp only [ancestorWhere?_eq_none_iff hd.nested (lt_of_mem_indicesWhere hi),
      mem_indicesWhere_iff]
  · rw [children_componentAt hd.nested (lt_of_mem_indicesWhere hi), linkedTo_links]
    refine congrArg (List.map (d.componentAt marker)) (List.filter_congr fun k hk => ?_)
    simp only [ancestorWhere?_eq_some_iff hd.nested (lt_of_mem_indicesWhere hk)]

/-- A list in a fragment: two items of one id, the second one in an element without an id, and a note
behind the list. -/
def listScript : Script :=
  let node (tag : String) (attributes : List Attribute) : Node :=
    ⟨tag = "", tag, ⟨0, 0⟩, ⟨0, 0⟩, none, attributes, none⟩
  let marked (tag id : String) (children : List (Place × Tree)) : Tree :=
    .node (node tag [⟨"data-id", ⟨0, 0⟩, .quoted id⟩]) children
  let item : Tree := marked "li" "item" []
  ⟨[.node (node "" [])
    [(.content, marked "ul" "list"
      [(.content, item), (.expression, .node (node "div" []) [(.content, item)])]),
     (.content, marked "p" "note" [])]], none⟩

theorem components_of_isForest_listScript :
    (ofScript listScript).IsForest
      ∧ Component.idsAll ((ofScript listScript).components "data-id")
        = ["list", "item", "item", "note"]
      ∧ ((ofScript listScript).componentAt "data-id" 1).children
        = [2, 4].map ((ofScript listScript).componentAt "data-id") := by
  have hforest := isForest_ofScript listScript
  obtain ⟨-, hids, -, -⟩ := components_of_isForest hforest "data-id"
  refine ⟨hforest, hids.trans (by decide), ?_⟩
  rw [children_componentAt hforest.nested (by decide)]
  exact congrArg _ (by decide)

end CanvasSync.Markup.Document
