import CanvasSync.Proofs.Markup.Enclosure

/-!
Indices gathered on walks over syntax trees.

A syntax tree holds markup at any depth, between nodes of other kinds. A walk over it comes to every
node and leaves it again, and whatever stands within the node is visited in between. Markup that is
come to enters the index and markup that is left is closed; other visits change nothing.

* `SourceTree`, `SourceTree.visits`: syntax trees, and the visits of a walk over one;
* `Collector.IsSound.run`: what holds of an index while it is gathered, after any visits;
* `run_visitsAll`: a walk over syntax trees gathers the trees of their markup;
* `climbs_iff`: the loop that looks outwards from a node ends, where `ancestorWhere?` does;
* `exists_resolvePath?_iff`: paths lead from a node to itself and to what stands within it;
* `ofWalk_preorder`: the index of a walk is a forest in preorder, and so the queries find what they
  should.
-/

namespace CanvasSync.Markup

/-- A syntax tree, of which only the nodes that are markup matter. -/
inductive SourceTree where
  | markup (node : Node) (within : List SourceTree)
  | other (within : List SourceTree)

/-- What a walk over a syntax tree does at a node. -/
inductive Visit where
  /-- It comes to a node, which may be markup. -/
  | enter (node : Option Node)
  /-- It leaves a node. -/
  | leave (isMarkup : Bool)

/-- A property of syntax trees in a row holds if it passes from what stands within the first one and
from those behind it to the whole. -/
@[elab_as_elim]
theorem sourceTreesInduction {P : List SourceTree → Prop} (nil : P [])
    (markup : ∀ node within ts, P within → P ts → P (.markup node within :: ts))
    (other : ∀ within ts, P within → P ts → P (.other within :: ts))
    (ts : List SourceTree) : P ts :=
  @SourceTree.rec_1 (fun t => ∀ ts, P ts → P (t :: ts)) P
    (fun node within ih ts hts => markup node within ts ih hts)
    (fun within ih ts hts => other within ts ih hts) nil (fun _ ts ih hts => ih ts hts) ts

namespace SourceTree

mutual
/-- The visits of a walk over a syntax tree. -/
def visits : SourceTree → List Visit
  | .markup n within => .enter (some n) :: (visitsAll within ++ [.leave true])
  | .other within => .enter none :: (visitsAll within ++ [.leave false])

/-- The visits of a walk over syntax trees in a row. -/
def visitsAll : List SourceTree → List Visit
  | [] => []
  | t :: ts => visits t ++ visitsAll ts
end

mutual
/-- The trees of the markup in a syntax tree; a walk does not tell their places apart. -/
def trees : SourceTree → List (Place × Tree)
  | .markup n within => [(.content, .node n (treesAll within))]
  | .other within => treesAll within

/-- The trees of the markup in syntax trees in a row. -/
def treesAll : List SourceTree → List (Place × Tree)
  | [] => []
  | t :: ts => trees t ++ treesAll ts
end

mutual
/-- A tree of markup as a syntax tree. -/
def ofTree : Tree → SourceTree
  | .node n children => .markup n (ofTrees children)

/-- Trees of markup as syntax trees. -/
def ofTrees : List (Place × Tree) → List SourceTree
  | [] => []
  | (_, t) :: ts => ofTree t :: ofTrees ts
end

end SourceTree

/-! ### A walk, visit by visit -/

namespace Collector

variable {c : Collector}

/-- What a visit does to an index that is gathered. -/
def visit (c : Collector) : Visit → Collector
  | .enter (some n) => c.enter n
  | .enter none => c
  | .leave true => c.leave
  | .leave false => c

/-- What visits do one after another. -/
def run (c : Collector) (vs : List Visit) : Collector := vs.foldl visit c

/-- What holds of an index while it is gathered: the nodes within a node are those listed in it, and
come behind it, and the open nodes are listed. -/
structure IsSound (c : Collector) : Prop where
  recorded : c.Recorded
  mirrored : c.IsMirrored
  nested : (Document.mk c.entries none).IsNested

lemma isSound_empty : empty.IsSound where
  recorded := recorded_empty
  mirrored := isMirrored_empty
  nested := fun i e j he => by simp [empty] at he

/-- A node that is entered comes behind the open ones. -/
lemma IsSound.enter (h : c.IsSound) (n : Node) : (c.enter n).IsSound where
  recorded := h.recorded.enter n
  mirrored := h.mirrored.enter h.recorded n
  nested := by
    intro i e j he hj
    change (c.enter n).entries[i]? = some e at he
    rcases Nat.lt_or_ge i c.entries.length with hlt | hge
    · rw [getElem?_enter n hlt] at he
      obtain ⟨e', he', rfl⟩ := Option.map_eq_some_iff.mp he
      exact h.nested i e' j he' hj
    · have hlength : i < (c.enter n).entries.length := (List.getElem?_eq_some_iff.mp he).1
      rw [(enter_rows c n).2.1] at hlength
      obtain rfl : i = c.entries.length := by omega
      rw [getElem?_enter_length] at he
      obtain rfl := Option.some.inj he
      exact h.recorded.stack j (List.mem_of_mem_head? hj)

lemma IsSound.leave (h : c.IsSound) : c.leave.IsSound where
  recorded := ⟨h.recorded.nested, h.recorded.children, fun i hi =>
    h.recorded.stack i (List.mem_of_mem_tail hi)⟩
  mirrored := h.mirrored
  nested := h.nested

lemma IsSound.visit (h : c.IsSound) (v : Visit) : (c.visit v).IsSound := by
  match v with
  | .enter (some n) => exact h.enter n
  | .enter none => exact h
  | .leave true => exact h.leave
  | .leave false => exact h

/-- **An index is sound after any visits**, and so at every point of a walk. -/
theorem IsSound.run (h : c.IsSound) (vs : List Visit) : (c.run vs).IsSound := by
  induction vs generalizing c with
  | nil => exact h
  | cons v vs ih => exact ih (h.visit v)

/-! ### Walks over trees -/

lemma run_append (c : Collector) (vs ws : List Visit) : c.run (vs ++ ws) = (c.run vs).run ws :=
  List.foldl_append

lemma walkChildren_append (c : Collector) (ts us : List (Place × Tree)) :
    c.walkChildren (ts ++ us) = (c.walkChildren ts).walkChildren us := by
  induction ts generalizing c with
  | nil => rfl
  | cons t ts ih => exact ih (c.walk t.2)

/-- **A walk over syntax trees** gathers the trees of their markup. -/
lemma run_visitsAll (c : Collector) (ts : List SourceTree) :
    c.run (SourceTree.visitsAll ts) = c.walkChildren (SourceTree.treesAll ts) := by
  induction ts using sourceTreesInduction generalizing c with
  | nil => rfl
  | markup node within ts ihwithin ihts =>
      rw [SourceTree.visitsAll, SourceTree.visits, SourceTree.treesAll, SourceTree.trees, run_append,
        walkChildren_append, ihts]
      have henter : c.run (.enter (some node) :: (SourceTree.visitsAll within ++ [.leave true]))
          = ((c.enter node).run (SourceTree.visitsAll within)).leave := run_append (c.enter node) _ _
      rw [henter, ihwithin]
      rfl
  | other within ts ihwithin ihts =>
      rw [SourceTree.visitsAll, SourceTree.visits, SourceTree.treesAll, SourceTree.trees, run_append,
        walkChildren_append, ihts]
      have hpass : c.run (.enter none :: (SourceTree.visitsAll within ++ [.leave false]))
          = c.run (SourceTree.visitsAll within) := run_append c _ _
      rw [hpass, ihwithin]

/-- Trees of markup alone are walked over as they are. -/
lemma run_visitsAll_ofTrees (c : Collector) (ts : List (Place × Tree)) :
    c.run (SourceTree.visitsAll (SourceTree.ofTrees ts)) = c.walkChildren ts := by
  rw [run_visitsAll]
  induction ts using treesInduction generalizing c with
  | nil => rfl
  | cons place node children ts ihchildren ihts =>
      rw [SourceTree.ofTrees, SourceTree.ofTree, SourceTree.treesAll, SourceTree.trees,
        walkChildren_append, ihts]
      change ((c.enter node).walkChildren _).leave.walkChildren ts = _
      rw [ihchildren, walkChildren, walk]

end Collector

namespace Document

open Collector (row)

variable {d : Document} {p : Entry → Bool} {i j k : Nat} {a r : Option Nat} {path : List Nat}

/-! ### Looks outwards and inwards -/

/-- The loop that looks outwards from a node, which may be none: it ends outside of everything or at
a node with a property, and goes on to the node around from any other. -/
inductive Climbs (d : Document) (p : Entry → Bool) : Option Nat → Option Nat → Prop
  | out : Climbs d p none none
  | found {j : Nat} (h : (d.entries[j]?).any p) : Climbs d p (some j) (some j)
  | on {j : Nat} {r : Option Nat} (h : ¬(d.entries[j]?).any p)
      (rest : Climbs d p ((d.entries[j]?).bind Entry.parent) r) : Climbs d p (some j) r

/-- The node around a node of an index is one of the index. -/
lemma IsAround.left_lt_length (hd : d.IsNested) (h : d.IsAround j i) : j < d.entries.length :=
  Nat.lt_trans (h.lt hd) h.lt_length

lemma nearestFrom_of_not (hd : d.IsNested) (hj : j < d.entries.length)
    (hp : ¬(d.entries[j]?).any p) :
    d.nearestFrom p j = ((d.entries[j]?).bind Entry.parent).bind (d.nearestFrom p) := by
  rw [nearestFrom, if_neg hp, ancestorWhere?_eq hd p hj]

/-- The loop ends from every node of an index, since the node around begins earlier. -/
lemma climbs_nearestFrom (hd : d.IsNested) (p : Entry → Bool) (hj : j < d.entries.length) :
    d.Climbs p (some j) (d.nearestFrom p j) := by
  induction j using Nat.strongRecOn with
  | _ j ih =>
      by_cases hp : (d.entries[j]?).any p
      · rw [nearestFrom, if_pos hp]
        exact .found hp
      · refine .on hp ?_
        rw [nearestFrom_of_not hd hj hp]
        cases haround : (d.entries[j]?).bind Entry.parent with
        | none => exact .out
        | some k => exact ih k (IsAround.lt hd haround) (IsAround.left_lt_length hd haround)

/-- **The loop that looks outwards ends** at the first node with a property from the node on. -/
lemma climbs_iff (hd : d.IsNested) (ha : ∀ j, a = some j → j < d.entries.length) :
    d.Climbs p a r ↔ r = a.bind (d.nearestFrom p) := by
  constructor
  · intro h
    induction h with
    | out => rfl
    | found h => rw [Option.bind_some, nearestFrom, if_pos h]
    | @on j r hp rest ih =>
        have haround : ∀ k, (d.entries[j]?).bind Entry.parent = some k → k < d.entries.length :=
          fun k hk => IsAround.left_lt_length hd hk
        rw [Option.bind_some, nearestFrom_of_not hd (ha j rfl) hp]
        exact ih haround
  · rintro rfl
    cases a with
    | none => exact .out
    | some j => exact climbs_nearestFrom hd p (ha j rfl)

/-- A node lists what stands right in it. -/
lemma IsForest.mem_children_iff (hd : d.IsForest) {e : Entry} (he : d.entries[i]? = some e) :
    j ∈ e.children ↔ d.IsAround i j := by
  rw [hd.children i e he, mem_indicesWhere_iff, IsAround, Option.any_eq_true,
    Option.bind_eq_some_iff]
  simp only [decide_eq_true_eq]

/-- Some first child number leads from a node to a given one right in it. -/
lemma IsForest.exists_resolvePath?_cons (hd : d.IsForest) (h : d.IsAround i j) :
    ∃ n, ∀ path, d.resolvePath? i (n :: path) = d.resolvePath? j path := by
  have he := List.getElem?_eq_getElem (h.left_lt_length hd.nested)
  obtain ⟨n, hn⟩ := List.mem_iff_getElem?.mp ((hd.mem_children_iff he).mpr h)
  refine ⟨n, fun path => ?_⟩
  rw [resolvePath?, he]
  simp only [hn]

/-- A path leads to the node where it starts, if it is empty, or to a node within that one. -/
lemma IsForest.encloses_of_resolvePath? (hd : d.IsForest) (h : d.resolvePath? i path = some k) :
    path = [] ∧ k = i ∨ path ≠ [] ∧ d.Encloses i k := by
  induction path generalizing i with
  | nil => exact .inl ⟨rfl, (Option.some.inj h).symm⟩
  | cons n path ih =>
      rw [resolvePath?] at h
      split at h
      · next e he =>
          split at h
          · next j hj =>
              have haround := (hd.mem_children_iff he).mp (List.mem_of_getElem? hj)
              refine .inr ⟨List.cons_ne_nil n path, ?_⟩
              rcases ih h with ⟨-, rfl⟩ | ⟨-, hk⟩
              · exact .single haround
              · exact .head haround hk
          · cases h
      · cases h

/-- **Paths lead from a node** to itself and to all that stands within it, and to nothing else. -/
lemma IsForest.exists_resolvePath?_iff (hd : d.IsForest) :
    (∃ path, d.resolvePath? i path = some k) ↔ k = i ∨ d.Encloses i k := by
  constructor
  · rintro ⟨path, h⟩
    exact (hd.encloses_of_resolvePath? h).imp And.right And.right
  · rintro (rfl | h)
    · exact ⟨[], rfl⟩
    · induction h using Relation.TransGen.head_induction_on with
      | single h =>
          obtain ⟨n, hn⟩ := hd.exists_resolvePath?_cons h
          exact ⟨[n], hn []⟩
      | head h _ ih =>
          obtain ⟨n, hn⟩ := hd.exists_resolvePath?_cons h
          obtain ⟨path, hpath⟩ := ih
          exact ⟨n :: path, (hn path).trans hpath⟩

/-- The outermost nodes are those with no node around. -/
lemma mem_roots_iff : i ∈ d.roots ↔ i < d.entries.length ∧ ∀ j, ¬d.IsAround j i := by
  rw [roots, mem_indicesWhere_iff]
  rcases Nat.lt_or_ge i d.entries.length with hlt | hge
  · simp [IsAround, hlt, Option.eq_none_iff_forall_ne_some]
  · simp [hge]

/-! ### The index of a walk -/

/-- The index that is gathered on a walk over syntax trees. -/
def ofWalk (ts : List SourceTree) (defaultExport : Option Span) : Document :=
  ⟨(Collector.empty.run (SourceTree.visitsAll ts)).entries, defaultExport⟩

variable {ts : List SourceTree} {defaultExport : Option Span}

lemma rows_ofWalk : (ofWalk ts defaultExport).entries.map row
    = Tree.rowsOf none 0 (SourceTree.treesAll ts) := by
  rw [ofWalk, Collector.run_visitsAll, (Collector.walkChildren_eq _ _).1]
  rfl

/-- The index of a walk is a forest. -/
lemma isForest_ofWalk : (ofWalk ts defaultExport).IsForest := by
  have hsound := Collector.isSound_empty.run (SourceTree.visitsAll ts)
  exact isForest_of_rows hsound.nested hsound.mirrored rows_ofWalk

/-- The index of a script is that of a walk over its markup. -/
lemma ofScript_eq_ofWalk (s : Script) :
    ofScript s = ofWalk (SourceTree.ofTrees (placed s.forest)) s.defaultExport := by
  rw [ofScript, ofWalk, walkForest_eq, Collector.run_visitsAll_ofTrees]

/-- **The index of a walk lists the markup in preorder**: the index of every script is one, and each
lists the markup of the trees walked over with the nodes around. At every point of the walk the open
nodes are listed, and none is open at its end. What stands around a node comes before it, a node lists
in order what stands right in it, what stands in it at any depth comes right behind it, and the
outermost nodes are those with nothing around.

So a path leads from a node to itself, if it is empty, or to a node within, and to each of those; and
the loop that looks outwards from a node ends, at the nearest node around with a property if there is
one. -/
theorem ofWalk_preorder :
    (∀ s : Script, ∃ ts, ofScript s = ofWalk ts s.defaultExport)
      ∧ ∀ (ts : List SourceTree) (defaultExport : Option Span),
        let d := ofWalk ts defaultExport
        (∀ vs, vs <+: SourceTree.visitsAll ts → ∀ i ∈ (Collector.empty.run vs).stack,
            i < (Collector.empty.run vs).entries.length)
          ∧ (Collector.empty.run (SourceTree.visitsAll ts)).stack = []
          ∧ d.entries.map row = Tree.rowsOf none 0 (SourceTree.treesAll ts)
          ∧ (∀ i j, d.IsAround j i → j < i)
          ∧ (∀ i e, d.entries[i]? = some e →
            e.children.Pairwise (· < ·) ∧ ∀ j, j ∈ e.children ↔ d.IsAround i j)
          ∧ (∀ i < d.entries.length, ∃ stop, ∀ k, k = i ∨ d.Encloses i k ↔ i ≤ k ∧ k < stop)
          ∧ d.roots.Pairwise (· < ·)
          ∧ (∀ i, i ∈ d.roots ↔ i < d.entries.length ∧ ∀ j, ¬d.IsAround j i)
          ∧ (∀ i path k, d.resolvePath? i path = some k →
            path = [] ∧ k = i ∨ path ≠ [] ∧ d.Encloses i k)
          ∧ (∀ i k, d.Encloses i k → ∃ path, d.resolvePath? i path = some k)
          ∧ ∀ i < d.entries.length, ∀ p : Entry → Bool,
            (∀ r, d.Climbs p ((d.entries[i]?).bind Entry.parent) r ↔ r = d.ancestorWhere? i p)
              ∧ (∀ j, d.ancestorWhere? i p = some j ↔ d.IsNearest p j i)
              ∧ (d.ancestorWhere? i p = none ↔ ∀ k, d.Encloses k i → ¬(d.entries[k]?).any p) := by
  refine ⟨fun s => ⟨_, ofScript_eq_ofWalk s⟩, ?_⟩
  intro ts defaultExport d
  have hforest : d.IsForest := isForest_ofWalk
  have hd := hforest.nested
  refine ⟨fun vs _ => (Collector.isSound_empty.run vs).recorded.stack, ?_, rows_ofWalk,
    fun i j h => h.lt hd, fun i e he => ⟨?_, fun j => hforest.mem_children_iff he⟩,
    hforest.contiguous, pairwise_indicesWhere _ _, fun i => mem_roots_iff,
    fun i path k h => hforest.encloses_of_resolvePath? h,
    fun i k h => hforest.exists_resolvePath?_iff.mpr (.inr h), fun i hi p => ⟨fun r => ?_,
      fun j => ancestorWhere?_eq_some_iff hd hi, ancestorWhere?_eq_none_iff hd hi⟩⟩
  · rw [Collector.run_visitsAll]
    exact (Collector.walkChildren_eq _ _).2
  · rw [hforest.children i e he]
    exact pairwise_indicesWhere _ _
  · rw [ancestorWhere?_eq hd p hi]
    exact climbs_iff hd fun j hj => IsAround.left_lt_length hd hj

/-- A page as a syntax tree: a badge in one function, and in another one a title and, within a
fragment in an expression, an image. -/
def pageTrees : List SourceTree :=
  let node (tag : String) : Node := ⟨tag = "", tag, ⟨0, 0⟩, ⟨0, 0⟩, none, [], none⟩
  [.other [.other [.markup (node "span") []]],
   .other [.markup (node "main")
     [.markup (node "h1") [],
      .other [.markup (node "") [.other [.markup (node "Image") []]]]]]]

theorem ofWalk_preorder_pageTrees :
    (ofWalk pageTrees none).roots = [0, 1]
      ∧ (ofWalk pageTrees none).resolvePath? 1 [1, 0] = some 4
      ∧ (ofWalk pageTrees none).Encloses 1 4
      ∧ (ofWalk pageTrees none).IsNearest (fun e => e.node.tag = "main") 1 4 := by
  obtain ⟨-, -, -, -, -, -, -, -, hpaths, -, hlooks⟩ := ofWalk_preorder.2 pageTrees none
  have hpath : (ofWalk pageTrees none).resolvePath? 1 [1, 0] = some 4 := by decide
  refine ⟨by decide, hpath, ?_, ?_⟩
  · exact ((hpaths 1 [1, 0] 4 hpath).resolve_left fun h => List.cons_ne_nil 1 [0] h.1).2
  · exact ((hlooks 4 (by decide) _).2.1 1).mp (by decide)

end Document

end CanvasSync.Markup
