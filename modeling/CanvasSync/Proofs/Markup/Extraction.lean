import CanvasSync.Markup.Extraction
import Mathlib.Tactic.Common

/-!
The components of a script, straight from its trees.

The index of a script lists its nodes flat; the trees of components are built again from the numbers
of the nodes around each. What comes out is what a walk over the trees gives.

* `Tree.componentsOf`: the components of trees, those of an unmarked node left to what is around it;
* `walkChildren_eq`: the nodes that the index lists, with the numbers of those around them (`rowsOf`);
* `links_eq`: the marked nodes of the index with the nearest marked ones around them (`linksOf`);
* `components_ofScript`: the components of the index are those of the trees.
-/

namespace CanvasSync.Markup

/-- A property of trees in a row holds if it passes from the trees nested in the first node and from
the trees behind it to the whole. -/
@[elab_as_elim]
theorem treesInduction {P : List (Place × Tree) → Prop} (nil : P [])
    (cons : ∀ place node children ts, P children → P ts → P ((place, .node node children) :: ts))
    (ts : List (Place × Tree)) : P ts :=
  @Tree.rec_1 (fun t => ∀ place ts, P ts → P ((place, t) :: ts)) P
    (fun t => ∀ ts, P ts → P (t :: ts))
    (fun node children ih place ts hts => cons place node children ts ih hts) nil
    (fun _ ts ih hts => ih ts hts) (fun place _ ih ts hts => ih place ts hts) ts

namespace Tree

mutual
/-- The components of a tree: one if its node is marked, else those within. -/
def components (marker : String) : Tree → List Component
  | .node n children =>
    match n.quoted? marker with
    | some id =>
      [{ Component.ofTag id n.tag with
          props := propsOf marker n
          children := componentsOf marker children }]
    | none => componentsOf marker children

/-- The components of trees in a row. -/
def componentsOf (marker : String) : List (Place × Tree) → List Component
  | [] => []
  | (_, t) :: ts => components marker t ++ componentsOf marker ts
end

mutual
/-- How many nodes a tree has. -/
def count : Tree → Nat
  | .node _ children => countOf children + 1

/-- How many nodes trees in a row have. -/
def countOf : List (Place × Tree) → Nat
  | [] => 0
  | (_, t) :: ts => count t + countOf ts
end

mutual
/-- The nodes of a tree in the order in which they begin, each with the number of the node around
it; `here` is the number of the first one. -/
def rows (around : Option Nat) (here : Nat) : Tree → List (Node × Option Nat)
  | .node n children => (n, around) :: rowsOf (some here) (here + 1) children

/-- The nodes of trees in a row. -/
def rowsOf (around : Option Nat) (here : Nat) : List (Place × Tree) → List (Node × Option Nat)
  | [] => []
  | (_, t) :: ts => rows around here t ++ rowsOf around (here + t.count) ts
end

mutual
/-- The numbers of the marked nodes of a tree, each with the number of the nearest marked node around
it; `near` is that of the tree itself. -/
def linksFrom (marker : String) (near : Option Nat) (here : Nat) : Tree → List (Nat × Option Nat)
  | .node n children =>
    if (n.quoted? marker).isSome then
      (here, near) :: linksOf marker (some here) (here + 1) children
    else linksOf marker near (here + 1) children

/-- The marked nodes of trees in a row. -/
def linksOf (marker : String) (near : Option Nat) (here : Nat) :
    List (Place × Tree) → List (Nat × Option Nat)
  | [] => []
  | (_, t) :: ts => linksFrom marker near here t ++ linksOf marker near (here + t.count) ts
end

variable {marker : String} {around near : Option Nat} {here : Nat} {ts : List (Place × Tree)}

lemma countOf_cons (place : Place) (n : Node) (children ts : List (Place × Tree)) :
    countOf ((place, .node n children) :: ts) = countOf children + 1 + countOf ts := rfl

lemma rowsOf_cons (around : Option Nat) (here : Nat) (place : Place) (n : Node)
    (children ts : List (Place × Tree)) :
    rowsOf around here ((place, .node n children) :: ts)
      = (n, around) :: (rowsOf (some here) (here + 1) children
          ++ rowsOf around (here + (countOf children + 1)) ts) := rfl

lemma linksOf_cons (marker : String) (near : Option Nat) (here : Nat) (place : Place) (n : Node)
    (children ts : List (Place × Tree)) :
    linksOf marker near here ((place, .node n children) :: ts)
      = (if (n.quoted? marker).isSome then
          (here, near) :: linksOf marker (some here) (here + 1) children
        else linksOf marker near (here + 1) children)
        ++ linksOf marker near (here + (countOf children + 1)) ts := rfl

lemma length_rowsOf (around : Option Nat) (here : Nat) (ts : List (Place × Tree)) :
    (rowsOf around here ts).length = countOf ts := by
  induction ts using treesInduction generalizing around here with
  | nil => rfl
  | cons place n children ts ihc ihts =>
      rw [rowsOf_cons, List.length_cons, List.length_append, ihc, ihts, countOf_cons]
      omega

lemma componentsOf_cons (marker : String) (place : Place) (n : Node)
    (children ts : List (Place × Tree)) :
    componentsOf marker ((place, .node n children) :: ts)
      = (match n.quoted? marker with
        | some id =>
          [{ Component.ofTag id n.tag with
              props := propsOf marker n
              children := componentsOf marker children }]
        | none => componentsOf marker children) ++ componentsOf marker ts := by
  rw [componentsOf, components]

end Tree

/-! ### The walk -/

namespace Collector

/-- What extraction reads of an entry: its node, and the number of the node around it. -/
def row (e : Entry) : Node × Option Nat := (e.node, e.parent)

lemma map_row_modify (p : Nat) (cs : List Nat) (entries : List Entry) :
    (entries.modify p fun e => { e with children := e.children ++ cs }).map row
      = entries.map row := by
  induction entries generalizing p with
  | nil => simp
  | cons e es ih => cases p <;> simp [row, ih]

lemma enter_rows (c : Collector) (n : Node) :
    (c.enter n).entries.map row = c.entries.map row ++ [(n, c.stack.head?)]
      ∧ (c.enter n).entries.length = c.entries.length + 1
      ∧ (c.enter n).stack = c.entries.length :: c.stack := by
  cases h : c.stack.head? <;> simp [enter, h, map_row_modify, row]

/-- A walk over trees appends their nodes, and leaves the open nodes as they were. -/
lemma walkChildren_eq (c : Collector) (ts : List (Place × Tree)) :
    (walkChildren c ts).entries.map row
        = c.entries.map row ++ Tree.rowsOf c.stack.head? c.entries.length ts
      ∧ (walkChildren c ts).stack = c.stack := by
  induction ts using treesInduction generalizing c with
  | nil => simp [walkChildren, Tree.rowsOf]
  | cons place n children ts ihc ihts =>
      obtain ⟨hrows, hlength, hstack⟩ := enter_rows c n
      obtain ⟨hin, hopen⟩ := ihc (c.enter n)
      rw [walkChildren, walk]
      obtain ⟨hts, hback⟩ := ihts ((walkChildren (c.enter n) children).leave)
      have hleft : ((walkChildren (c.enter n) children).leave).stack = c.stack := by
        rw [leave, hopen, hstack, List.tail_cons]
      have hcount : (walkChildren (c.enter n) children).entries.length
          = c.entries.length + (Tree.countOf children + 1) := by
        rw [← List.length_map row, hin, List.length_append, List.length_map, hlength,
          Tree.length_rowsOf]
        omega
      rw [hleft] at hts hback
      refine ⟨?_, hback⟩
      rw [hts]
      change (walkChildren (c.enter n) children).entries.map row
        ++ Tree.rowsOf _ (walkChildren (c.enter n) children).entries.length ts = _
      rw [hin, hrows, hlength, hstack, hcount, Tree.rowsOf_cons, List.head?_cons]
      simp

end Collector

/-! ### The nearest marked node around a node -/

namespace Tree

/-- A node stands within one that begins before it. -/
lemma lt_of_getElem?_rowsOf {around : Option Nat} {here k j : Nat} {r : Node × Option Nat}
    {ts : List (Place × Tree)} (haround : ∀ a, around = some a → a < here)
    (hr : (rowsOf around here ts)[k]? = some r) (hj : r.2 = some j) : j < here + k := by
  induction ts using treesInduction generalizing around here k with
  | nil => simp [rowsOf] at hr
  | cons place n children ts ihc ihts =>
      rw [rowsOf_cons] at hr
      cases k with
      | zero =>
          simp only [List.getElem?_cons_zero, Option.some.injEq] at hr
          subst hr
          exact haround j hj
      | succ k =>
          rw [List.getElem?_cons_succ] at hr
          rcases Nat.lt_or_ge k (countOf children) with hlt | hge
          · rw [List.getElem?_append_left (by rwa [length_rowsOf])] at hr
            have := ihc (fun a ha => by simp only [Option.some.injEq] at ha; omega) hr
            omega
          · rw [List.getElem?_append_right (by rwa [length_rowsOf]), length_rowsOf] at hr
            have := ihts (fun a ha => Nat.lt_of_lt_of_le (haround a ha) (by omega)) hr
            omega

end Tree

namespace Document

open Collector (row)

variable {d : Document} {marker : String}

/-- Every node stands within one that begins before it. -/
def IsNested (d : Document) : Prop :=
  ∀ (i : Nat) (e : Entry) (j : Nat), d.entries[i]? = some e → e.parent = some j → j < i

/-- A look further out than to the first node finds nothing more. -/
lemma ancestorWithin?_eq (hd : d.IsNested) (p : Entry → Bool) {i fuel : Nat} (h : i ≤ fuel) :
    d.ancestorWithin? p fuel i = d.ancestorWithin? p i i := by
  induction i using Nat.strongRecOn generalizing fuel with
  | _ i ih =>
      cases hp : (d.entries[i]?).bind Entry.parent with
      | none => cases fuel <;> cases i <;> simp [ancestorWithin?, hp]
      | some j =>
          obtain ⟨e, he, hj⟩ := Option.bind_eq_some_iff.mp hp
          have hji := hd i e j he hj
          cases i with
          | zero => omega
          | succ n =>
              obtain ⟨m, rfl⟩ := Nat.exists_eq_add_of_le' (Nat.one_le_of_lt (Nat.lt_of_lt_of_le hji h))
              have hm : j ≤ m := by omega
              have hn : j ≤ n := by omega
              simp only [ancestorWithin?, hp]
              rw [ih j hji hm, ih j hji hn]

/-- The first node with a property from a node on outwards. -/
def nearestFrom (d : Document) (p : Entry → Bool) (j : Nat) : Option Nat :=
  if (d.entries[j]?).any p then some j else d.ancestorWhere? j p

/-- The nearest node around one is the first one from the node right around it on outwards. -/
lemma ancestorWhere?_eq (hd : d.IsNested) (p : Entry → Bool) {i : Nat} (hi : i < d.entries.length) :
    d.ancestorWhere? i p = ((d.entries[i]?).bind Entry.parent).bind (d.nearestFrom p) := by
  obtain ⟨n, hn⟩ := Nat.exists_eq_add_of_lt hi
  rw [ancestorWhere?, hn, ancestorWithin?]
  cases hp : (d.entries[i]?).bind Entry.parent with
  | none => rfl
  | some j =>
      obtain ⟨e, he, hj⟩ := Option.bind_eq_some_iff.mp hp
      have hji := hd i e j he hj
      have hshort : j ≤ i + n := by omega
      have hlong : j ≤ d.entries.length := by omega
      simp only [Option.bind_some, nearestFrom, ancestorWhere?]
      rw [ancestorWithin?_eq hd p hshort, ancestorWithin?_eq hd p hlong]

/-- The part of an index that lists trees in a row: their nodes from a number on, with other nodes
before and behind. -/
def Holds (d : Document) (around : Option Nat) (here : Nat) (ts : List (Place × Tree)) : Prop :=
  ∃ before behind, d.entries.map row = before ++ Tree.rowsOf around here ts ++ behind
    ∧ before.length = here

variable {around near : Option Nat} {here : Nat} {place : Place} {n : Node}
  {children ts : List (Place × Tree)}

/-- An index that lists trees in a row lists the first node, the trees nested in it and the trees
behind it. -/
lemma Holds.cons (h : d.Holds around here ((place, .node n children) :: ts)) :
    (d.entries[here]?).map row = some (n, around)
      ∧ d.Holds (some here) (here + 1) children
      ∧ d.Holds around (here + (Tree.countOf children + 1)) ts := by
  obtain ⟨before, behind, heq, rfl⟩ := h
  rw [Tree.rowsOf_cons] at heq
  refine ⟨?_, ⟨before ++ [(n, around)],
      Tree.rowsOf around (before.length + (Tree.countOf children + 1)) ts ++ behind, ?_, by simp⟩,
    ⟨before ++ (n, around) :: Tree.rowsOf (some before.length) (before.length + 1) children,
      behind, ?_, ?_⟩⟩
  · rw [← List.getElem?_map, heq]
    simp
  · rw [heq]
    simp
  · rw [heq]
    simp
  · rw [List.length_append, List.length_cons, Tree.length_rowsOf]

/-- The marked nodes of a part of an index, with the nearest marked ones around them. -/
lemma links_segment (hd : d.IsNested) (h : d.Holds around here ts)
    (hnear : around.bind (d.nearestFrom (isMarked marker)) = near) :
    ((((Tree.rowsOf around here ts).zipIdx here).filter fun r =>
      (r.1.1.quoted? marker).isSome).map fun r => (r.2, d.ancestorWhere? r.2 (isMarked marker)))
      = Tree.linksOf marker near here ts := by
  induction ts using treesInduction generalizing around near here with
  | nil => simp [Tree.rowsOf, Tree.linksOf]
  | cons place n children ts ihc ihts =>
      obtain ⟨hhere, hchildren, hts⟩ := h.cons
      obtain ⟨e, he, hrow⟩ := Option.map_eq_some_iff.mp hhere
      obtain ⟨rfl, rfl⟩ := Prod.mk.inj hrow
      have hlt : here < d.entries.length := (List.getElem?_eq_some_iff.mp he).1
      have hwhere : d.ancestorWhere? here (isMarked marker) = near := by
        rw [ancestorWhere?_eq hd _ hlt, he, Option.bind_some, hnear]
      have hin := ihc hchildren rfl
      have hbehind := ihts hts hnear
      have hmarked : isMarked marker e = (e.node.quoted? marker).isSome := rfl
      have hnext : here + 1 + Tree.countOf children = here + (Tree.countOf children + 1) := by omega
      rw [Tree.rowsOf_cons, Tree.linksOf_cons, List.zipIdx_cons, List.zipIdx_append,
        Tree.length_rowsOf, hnext, List.filter_cons]
      by_cases h : (e.node.quoted? marker).isSome
      · have hinner : (some here).bind (d.nearestFrom (isMarked marker)) = some here := by
          rw [Option.bind_some, nearestFrom, he, if_pos (by simpa [isMarked] using h)]
        rw [hinner] at hin
        rw [if_pos h, if_pos h, List.map_cons, List.filter_append, List.map_append, hin, hbehind,
          hwhere]
        rfl
      · have hinner : (some here).bind (d.nearestFrom (isMarked marker)) = near := by
          rw [Option.bind_some, nearestFrom, he, if_neg (by simpa [isMarked] using h), hwhere]
        rw [hinner] at hin
        rw [if_neg h, if_neg h, List.filter_append, List.map_append, hin, hbehind]

/-- Trees in a row as the walk goes over them. -/
def placed (forest : List Tree) : List (Place × Tree) := forest.map fun t => (.content, t)

lemma walkForest_eq (c : Collector) (forest : List Tree) :
    c.walkForest forest = c.walkChildren (placed forest) := by
  induction forest generalizing c with
  | nil => rfl
  | cons t ts ih => exact ih (c.walk t)

/-- The index of a script lists the nodes of its trees. -/
lemma rows_ofScript (s : Script) :
    (ofScript s).entries.map row = Tree.rowsOf none 0 (placed s.forest) := by
  rw [ofScript, walkForest_eq, (Collector.walkChildren_eq _ _).1]
  rfl

lemma holds_ofScript (s : Script) : (ofScript s).Holds none 0 (placed s.forest) :=
  ⟨[], [], by simp [rows_ofScript], rfl⟩

lemma isNested_ofScript (s : Script) : (ofScript s).IsNested := by
  intro i e j he hj
  have hrow : (Tree.rowsOf none 0 (placed s.forest))[i]? = some (row e) := by
    rw [← rows_ofScript, List.getElem?_map, he, Option.map_some]
  have hlt := Tree.lt_of_getElem?_rowsOf (by simp) hrow hj
  omega

/-- The links of an index are those of the trees. -/
lemma links_eq (s : Script) (marker : String) :
    (ofScript s).links marker = Tree.linksOf marker none 0 (placed s.forest) := by
  have hlinks : _ = Tree.linksOf marker _ 0 _ :=
    links_segment (isNested_ofScript s) (holds_ofScript s) rfl
  rw [Option.bind_none, ← rows_ofScript, List.zipIdx_map, List.filter_map, List.map_map] at hlinks
  rw [← hlinks, links, indicesWhere, List.map_map]
  rfl

/-! ### Components -/

variable {links links' : List (Nat × Option Nat)} {parent : Option Nat}

lemma linkedTo_append : linkedTo (links ++ links') parent
    = linkedTo links parent ++ linkedTo links' parent := by
  rw [linkedTo, List.filter_append, List.map_append]
  rfl

lemma linkedTo_cons (i : Nat) (q : Option Nat) : linkedTo ((i, q) :: links) parent
    = if q = parent then i :: linkedTo links parent else linkedTo links parent := by
  by_cases h : q = parent <;> simp [linkedTo, h]

/-- The nearest marked node around one in a row of trees is the one around them all, or one of
theirs. -/
lemma near_of_mem_linksOf {l : Nat × Option Nat} (h : l ∈ Tree.linksOf marker near here ts) :
    l.2 = near ∨ ∃ j, l.2 = some j ∧ here ≤ j ∧ j < here + Tree.countOf ts := by
  induction ts using treesInduction generalizing near here with
  | nil => simp [Tree.linksOf] at h
  | cons place n children ts ihc ihts =>
      rw [Tree.linksOf_cons, List.mem_append] at h
      rw [Tree.countOf_cons]
      rcases h with h | h
      · split_ifs at h
        · rcases List.mem_cons.mp h with rfl | h
          · exact Or.inl rfl
          · rcases ihc h with hl | ⟨j, hl, hlow, hhigh⟩
            · exact Or.inr ⟨here, hl, by omega, by omega⟩
            · exact Or.inr ⟨j, hl, by omega, by omega⟩
        · rcases ihc h with hl | ⟨j, hl, hlow, hhigh⟩
          · exact Or.inl hl
          · exact Or.inr ⟨j, hl, by omega, by omega⟩
      · rcases ihts h with hl | ⟨j, hl, hlow, hhigh⟩
        · exact Or.inl hl
        · exact Or.inr ⟨j, hl, by omega, by omega⟩

/-- No marked node of a row of trees has a node around that is not near to it. -/
lemma linkedTo_linksOf_eq_nil (hparent : parent ≠ near)
    (hrange : ∀ j, parent = some j → ¬(here ≤ j ∧ j < here + Tree.countOf ts)) :
    linkedTo (Tree.linksOf marker near here ts) parent = [] := by
  rw [linkedTo, List.filter_eq_nil_iff.mpr, List.map_nil]
  intro l hl
  simp only [decide_eq_true_eq]
  rintro rfl
  rcases near_of_mem_linksOf hl with h | ⟨j, hj, hlow, hhigh⟩
  · exact hparent h
  · exact hrange j hj ⟨hlow, hhigh⟩

/-- The components of the part of an index that lists trees in a row: all links to their nodes are
their own. -/
lemma map_component (hd : d.Holds around here ts) (hnear : ∀ j, near = some j → j < here)
    (hlinks : ∀ j, here ≤ j → j < here + Tree.countOf ts →
      linkedTo links (some j) = linkedTo (Tree.linksOf marker near here ts) (some j))
    {depth : Nat} (hdepth : Tree.countOf ts ≤ depth) :
    (linkedTo (Tree.linksOf marker near here ts) near).map (d.component marker links depth)
      = Tree.componentsOf marker ts := by
  induction ts using treesInduction generalizing around near here depth with
  | nil => rfl
  | cons place n children ts ihc ihts =>
      obtain ⟨hhere, hchildren, hts⟩ := hd.cons
      obtain ⟨e, he, hrow⟩ := Option.map_eq_some_iff.mp hhere
      obtain ⟨rfl, rfl⟩ := Prod.mk.inj hrow
      rw [Tree.countOf_cons] at hlinks hdepth
      have hsplit : Tree.linksOf marker near here ((place, .node e.node children) :: ts)
          = Tree.linksFrom marker near here (.node e.node children)
            ++ Tree.linksOf marker near (here + (Tree.countOf children + 1)) ts := rfl
      rw [hsplit, linkedTo_append, List.map_append, Tree.componentsOf_cons]
      simp only [hsplit, linkedTo_append] at hlinks
      have hne (j : Nat) (hj : here ≤ j) : some j ≠ near := fun h => by
        have := hnear j h.symm
        omega
      -- no node of the first tree is near to one of the trees behind, nor the other way round
      have hin (j : Nat) (hlow : here ≤ j) (hhigh : j < here + (Tree.countOf children + 1)) :
          linkedTo links (some j)
            = linkedTo (Tree.linksFrom marker near here (.node e.node children)) (some j) := by
        have hnil : linkedTo (Tree.linksOf marker near (here + (Tree.countOf children + 1)) ts)
            (some j) = [] :=
          linkedTo_linksOf_eq_nil (hne j hlow) (by simp only [Option.some.injEq]; omega)
        rw [hlinks j hlow (by omega), hnil, List.append_nil]
      have hbehind (j : Nat) (hlow : here + (Tree.countOf children + 1) ≤ j)
          (hhigh : j < here + (Tree.countOf children + 1) + Tree.countOf ts) :
          linkedTo links (some j)
            = linkedTo (Tree.linksOf marker near (here + (Tree.countOf children + 1)) ts)
              (some j) := by
        have hnil : linkedTo (Tree.linksOf marker near here [(place, .node e.node children)])
            (some j) = [] :=
          linkedTo_linksOf_eq_nil (hne j (by omega))
            (by simp only [Option.some.injEq, Tree.countOf, Tree.count]; omega)
        rw [Tree.linksOf, Tree.linksOf, List.append_nil] at hnil
        rw [hlinks j (by omega) (by omega), hnil, List.nil_append]
      rw [ihts hts (fun j hj => Nat.lt_of_lt_of_le (hnear j hj) (by omega)) hbehind (by omega)]
      congr 1
      rw [Tree.linksFrom] at hin ⊢
      cases hid : e.node.quoted? marker with
      | none =>
          rw [hid, if_neg (by simp)] at hin
          rw [if_neg (by simp)]
          exact ihc hchildren (fun j hj => Nat.lt_succ_of_lt (hnear j hj))
            (fun j hlow hhigh => hin j (by omega) (by omega)) (by omega)
      | some id =>
          rw [hid, if_pos (by simp)] at hin
          rw [if_pos (by simp), linkedTo_cons, if_pos rfl]
          have hnone : linkedTo (Tree.linksOf marker (some here) (here + 1) children) near = [] :=
            linkedTo_linksOf_eq_nil (hne here (Nat.le_refl _)).symm
              (fun j hj => by have := hnear j hj; omega)
          have hwithin (j : Nat) (hlow : here ≤ j) (hhigh : j < here + 1 + Tree.countOf children) :
              linkedTo links (some j)
                = linkedTo (Tree.linksOf marker (some here) (here + 1) children) (some j) := by
            rw [hin j hlow (by omega), linkedTo_cons, if_neg (hne j hlow).symm]
          obtain ⟨k, rfl⟩ : ∃ k, depth = k + 1 := ⟨depth - 1, by omega⟩
          have hchild : _ = Tree.componentsOf marker children :=
            ihc hchildren (by simp) (fun j hlow hhigh => hwithin j (by omega) hhigh)
              (Nat.le_of_succ_le_succ (Nat.le_trans (by omega) hdepth))
          rw [← hwithin here (Nat.le_refl _) (by omega)] at hchild
          rw [hnone, List.map_cons, List.map_nil, component, he]
          simp [hid, hchild]

/-- **The components of an index are those of the trees**: every marked node becomes a component
within the nearest marked node around it. -/
theorem components_ofScript (s : Script) (marker : String) :
    (ofScript s).components marker = Tree.componentsOf marker (placed s.forest) := by
  have hlength : (ofScript s).entries.length = Tree.countOf (placed s.forest) := by
    rw [← List.length_map row, rows_ofScript, Tree.length_rowsOf]
  rw [components, links_eq]
  exact map_component (holds_ofScript s) (by simp) (fun _ _ _ => rfl) (Nat.le_of_eq hlength.symm)

end Document

end CanvasSync.Markup
