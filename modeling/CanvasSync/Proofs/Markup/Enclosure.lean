import CanvasSync.Proofs.Markup.Index
import Mathlib.Data.List.Sort
import Mathlib.Logic.Relation

/-!
How the nodes of an index nest.

* `Encloses`: a node stands within another one, at any depth;
* `IsForest`: the nodes of an index are those of some trees, in the order in which they begin;
* `ancestorWhere?_eq_some_iff`: a look outwards finds the nearest node around with a property
  (`IsNearest`);
* `isForest_ofScript`: the index of a script is a forest.
-/

namespace CanvasSync.Markup

namespace Document

variable {d : Document} {p : Entry → Bool} {i j k : Nat}

/-! ### Nodes within nodes -/

/-- The first node stands right around the second. -/
def IsAround (d : Document) (j i : Nat) : Prop := (d.entries[i]?).bind Entry.parent = some j

/-- The first node stands around the second, with any number of nodes between. -/
def Encloses (d : Document) : Nat → Nat → Prop := Relation.TransGen d.IsAround

/-- The nodes of some trees in the order in which they begin: a node comes behind the one around it,
which lists it, and the nodes within it come right behind it. -/
structure IsForest (d : Document) : Prop where
  nested : d.IsNested
  children : ∀ i e, d.entries[i]? = some e →
    e.children = d.indicesWhere fun e' => e'.parent = some i
  contiguous : ∀ i < d.entries.length, ∃ stop, ∀ k, k = i ∨ d.Encloses i k ↔ i ≤ k ∧ k < stop

/-- The nearest node around another one that has a property: no other node around that has it stands
further in. -/
structure IsNearest (d : Document) (p : Entry → Bool) (j i : Nat) : Prop where
  holds : (d.entries[j]?).any p
  encloses : d.Encloses j i
  outermost : ∀ k, d.Encloses k i → (d.entries[k]?).any p → k = j ∨ d.Encloses k j

lemma IsAround.lt (hd : d.IsNested) (h : d.IsAround j i) : j < i := by
  obtain ⟨e, he, hj⟩ := Option.bind_eq_some_iff.mp h
  exact hd i e j he hj

lemma IsAround.lt_length (h : d.IsAround j i) : i < d.entries.length := by
  obtain ⟨e, he, -⟩ := Option.bind_eq_some_iff.mp h
  exact (List.getElem?_eq_some_iff.mp he).1

lemma Encloses.lt (hd : d.IsNested) (h : d.Encloses j i) : j < i := by
  induction h with
  | single h => exact h.lt hd
  | tail _ h ih => exact Nat.lt_trans ih (h.lt hd)

/-- What stands around a node is right around it, or around what is. -/
lemma encloses_iff (h : d.IsAround j i) : d.Encloses k i ↔ k = j ∨ d.Encloses k j := by
  rw [Encloses, Relation.TransGen.tail'_iff]
  constructor
  · rintro ⟨j', hk, hj'⟩
    obtain rfl : j = j' := Option.some.inj (h.symm.trans hj')
    rcases Relation.reflTransGen_iff_eq_or_transGen.mp hk with rfl | hk
    · exact .inl rfl
    · exact .inr hk
  · rintro (rfl | hk)
    · exact ⟨k, .refl, h⟩
    · exact ⟨j, hk.to_reflTransGen, h⟩

/-- A look outwards from a node finds the nearest node around with a property, if there is one. -/
lemma ancestorWhere?_spec (hd : d.IsNested) (p : Entry → Bool) (hi : i < d.entries.length) :
    (∀ j, d.ancestorWhere? i p = some j → d.IsNearest p j i)
      ∧ (d.ancestorWhere? i p = none → ∀ k, d.Encloses k i → ¬(d.entries[k]?).any p) := by
  induction i using Nat.strongRecOn with
  | _ i ih =>
      rw [ancestorWhere?_eq hd p hi]
      cases haround : (d.entries[i]?).bind Entry.parent with
      | none =>
          refine ⟨by simp, fun _ k hk => ?_⟩
          obtain ⟨j, -, hj⟩ := Relation.TransGen.tail'_iff.mp hk
          rw [IsAround, haround] at hj
          cases hj
      | some j =>
          have hji := IsAround.lt hd haround
          have hj := Nat.lt_trans hji hi
          rw [Option.bind_some, nearestFrom]
          by_cases hp : (d.entries[j]?).any p
          · rw [if_pos hp]
            refine ⟨fun j' hj' => ?_, by simp⟩
            obtain rfl := Option.some.inj hj'
            exact ⟨hp, .single haround, fun k hk _ => (encloses_iff haround).mp hk⟩
          · rw [if_neg hp]
            obtain ⟨hsome, hnone⟩ := ih j hji hj
            refine ⟨fun j' hj' => ?_, fun h k hk hpk => ?_⟩
            · have hnear := hsome j' hj'
              refine ⟨hnear.holds, .tail hnear.encloses haround, fun k hk hpk => ?_⟩
              rcases (encloses_iff haround).mp hk with rfl | hk
              · exact absurd hpk hp
              · exact hnear.outermost k hk hpk
            · rcases (encloses_iff haround).mp hk with rfl | hk
              · exact hp hpk
              · exact hnone h k hk hpk

/-- **The nearest node around one with a property** is the one that a look outwards finds. -/
theorem ancestorWhere?_eq_some_iff (hd : d.IsNested) (hi : i < d.entries.length) :
    d.ancestorWhere? i p = some j ↔ d.IsNearest p j i := by
  obtain ⟨hsome, hnone⟩ := ancestorWhere?_spec hd p hi
  refine ⟨hsome j, fun h => ?_⟩
  cases hj : d.ancestorWhere? i p with
  | none => exact absurd h.holds (hnone hj j h.encloses)
  | some j' =>
      -- of two nearest nodes, neither stands around the other
      have h' := hsome j' hj
      rcases h.outermost j' h'.encloses h'.holds with rfl | hlt
      · rfl
      · rcases h'.outermost j h.encloses h.holds with rfl | hlt'
        · rfl
        · exact absurd (Nat.lt_trans (hlt.lt hd) (hlt'.lt hd)) (Nat.lt_irrefl j')

theorem ancestorWhere?_eq_none_iff (hd : d.IsNested) (hi : i < d.entries.length) :
    d.ancestorWhere? i p = none ↔ ∀ k, d.Encloses k i → ¬(d.entries[k]?).any p := by
  obtain ⟨hsome, hnone⟩ := ancestorWhere?_spec hd p hi
  refine ⟨hnone, fun h => ?_⟩
  rw [Option.eq_none_iff_forall_ne_some]
  exact fun j hj => h j (hsome j hj).encloses (hsome j hj).holds

/-! ### The nodes with a property -/

lemma mem_indicesWhere_iff : i ∈ d.indicesWhere p ↔ (d.entries[i]?).any p := by
  rw [indicesWhere, List.mem_map, Option.any_eq_true]
  constructor
  · rintro ⟨⟨e, j⟩, he, rfl⟩
    obtain ⟨he, hp⟩ := List.mem_filter.mp he
    exact ⟨e, List.mem_zipIdx_iff_getElem?.mp he, hp⟩
  · rintro ⟨e, he, hp⟩
    exact ⟨(e, i), List.mem_filter.mpr ⟨List.mem_zipIdx_iff_getElem?.mpr he, hp⟩, rfl⟩

/-- The numbers of nodes with a property stand in order. -/
lemma pairwise_indicesWhere (d : Document) (p : Entry → Bool) :
    (d.indicesWhere p).Pairwise (· < ·) := by
  have hzip : (d.entries.zipIdx.map Prod.snd).Pairwise (· < ·) := by
    rw [List.zipIdx_map_snd]
    exact List.pairwise_lt_range'
  exact hzip.sublist (List.filter_sublist.map _)

/-! ### The index of a script -/

open Collector (row)

/-- Which nodes stand right in another one can be read off the rows. -/
lemma indicesWhere_parent (d : Document) (i : Nat) :
    (d.indicesWhere fun e => e.parent = some i)
      = (((d.entries.map row).zipIdx.filter fun r => r.1.2 = some i).map Prod.snd) := by
  rw [List.zipIdx_map, List.filter_map, List.map_map]
  rfl

end Document

namespace Collector

variable {c : Collector} {i : Nat}

/-- Every node lists the nodes that stand right in it. -/
def IsMirrored (c : Collector) : Prop :=
  ∀ i e, c.entries[i]? = some e →
    e.children = (Document.mk c.entries none).indicesWhere fun e' => e'.parent = some i

lemma getElem?_enter_length (c : Collector) (n : Node) :
    (c.enter n).entries[c.entries.length]? = some ⟨n, c.stack.head?, []⟩ := by
  rw [enter]
  cases c.stack.head? <;> simp

lemma IsMirrored.enter (hc : c.Recorded) (h : c.IsMirrored) (n : Node) :
    (c.enter n).IsMirrored := by
  intro i e he
  have hindices : ((Document.mk (c.enter n).entries none).indicesWhere fun e' => e'.parent = some i)
      = ((Document.mk c.entries none).indicesWhere fun e' => e'.parent = some i)
        ++ if c.stack.head? = some i then [c.entries.length] else [] := by
    rw [Document.indicesWhere_parent, Document.indicesWhere_parent, (enter_rows c n).1,
      List.zipIdx_append, List.filter_append, List.map_append]
    by_cases hi : c.stack.head? = some i <;> simp [hi]
  rw [hindices]
  rcases Nat.lt_or_ge i c.entries.length with hlt | hge
  · rw [getElem?_enter n hlt] at he
    obtain ⟨e', he', rfl⟩ := Option.map_eq_some_iff.mp he
    rw [h i e' he']
  · -- the node just entered has nothing in it
    have hlength : i < (c.enter n).entries.length := (List.getElem?_eq_some_iff.mp he).1
    rw [(enter_rows c n).2.1] at hlength
    obtain rfl : i = c.entries.length := by omega
    have hnone : ((Document.mk c.entries none).indicesWhere fun e' =>
        e'.parent = some c.entries.length) = [] := by
      rw [List.eq_nil_iff_forall_not_mem]
      intro j hj
      obtain ⟨e', he', hparent⟩ := (Option.any_eq_true _ _).mp (Document.mem_indicesWhere_iff.mp hj)
      have hnested := hc.nested e' _ (List.mem_of_getElem? he') (by simpa using hparent)
      simp [hasNested] at hnested
    have hhead : c.stack.head? ≠ some c.entries.length := fun hhead =>
      Nat.lt_irrefl _ (hc.stack _ (List.mem_of_mem_head? hhead))
    rw [getElem?_enter_length] at he
    obtain rfl := Option.some.inj he
    rw [hnone, if_neg hhead, List.append_nil]

lemma isMirrored_empty : empty.IsMirrored := fun i e he => by simp [empty] at he

lemma IsMirrored.walkChildren (hc : c.Recorded) (h : c.IsMirrored) (ts : List (Place × Tree)) :
    (c.walkChildren ts).IsMirrored := by
  induction ts using treesInduction generalizing c with
  | nil => exact h
  | cons place n children ts ihc ihts =>
      have hin := (hc.enter n).walkChildren children
      exact ihts ⟨hin.nested, hin.children, fun i hi => hin.stack i (List.mem_of_mem_tail hi)⟩
        (ihc (hc.enter n) (h.enter hc n))

end Collector

namespace Document

open Collector (row)

variable {d : Document} {around : Option Nat} {here i j k : Nat} {ts : List (Place × Tree)}

/-- The node right around one in a row of trees is the one around them all, or one of theirs. -/
lemma around_of_getElem?_rowsOf {r : Node × Option Nat}
    (hr : (Tree.rowsOf around here ts)[k]? = some r) :
    r.2 = around ∨ ∃ j, r.2 = some j ∧ here ≤ j ∧ j < here + Tree.countOf ts := by
  induction ts using treesInduction generalizing around here k with
  | nil => simp [Tree.rowsOf] at hr
  | cons place n children ts ihc ihts =>
      rw [Tree.rowsOf_cons] at hr
      rw [Tree.countOf_cons]
      cases k with
      | zero =>
          obtain rfl := Option.some.inj hr
          exact .inl rfl
      | succ k =>
          rw [List.getElem?_cons_succ] at hr
          rcases Nat.lt_or_ge k (Tree.countOf children) with hlt | hge
          · rw [List.getElem?_append_left (by rwa [Tree.length_rowsOf])] at hr
            rcases ihc hr with h | ⟨j, hj, hlow, hhigh⟩
            · exact .inr ⟨here, h, by omega, by omega⟩
            · exact .inr ⟨j, hj, by omega, by omega⟩
          · rw [List.getElem?_append_right (by rwa [Tree.length_rowsOf])] at hr
            rcases ihts hr with h | ⟨j, hj, hlow, hhigh⟩
            · exact .inl h
            · exact .inr ⟨j, hj, by omega, by omega⟩

/-- The nodes of a part of an index that lists trees in a row stand right in the node around them
all, or in one of theirs. -/
lemma Holds.isAround (h : d.Holds around here ts) (hlow : here ≤ k)
    (hhigh : k < here + Tree.countOf ts) : (d.entries[k]?).bind Entry.parent = around
      ∨ ∃ j, d.IsAround j k ∧ here ≤ j ∧ j < here + Tree.countOf ts := by
  obtain ⟨before, behind, heq, rfl⟩ := h
  have hk : k - before.length < (Tree.rowsOf around before.length ts).length := by
    rw [Tree.length_rowsOf]
    omega
  have hrow : (d.entries[k]?).map row
      = some (Tree.rowsOf around before.length ts)[k - before.length] := by
    rw [← List.getElem?_map, heq, List.append_assoc, List.getElem?_append_right hlow,
      List.getElem?_append_left hk, List.getElem?_eq_getElem hk]
  obtain ⟨e, he, hrow⟩ := Option.map_eq_some_iff.mp hrow
  rcases around_of_getElem?_rowsOf (hrow ▸ List.getElem?_eq_getElem hk) with h | ⟨j, hj, hrange⟩
  · exact .inl (by rw [he]; exact h)
  · exact .inr ⟨j, by rw [IsAround, he]; exact hj, hrange⟩

/-- The nodes within a node come right behind it if whatever does so stands in it or in a node of
theirs, and nothing else does. -/
lemma encloses_iff_of_range {stop : Nat} (hd : d.IsNested)
    (hin : ∀ k, i < k → k < stop → ∃ j, d.IsAround j k ∧ i ≤ j ∧ j < stop)
    (hout : ∀ j k, d.IsAround j k → stop ≤ k → ¬(i ≤ j ∧ j < stop)) (hi : i < stop) :
    k = i ∨ d.Encloses i k ↔ i ≤ k ∧ k < stop := by
  induction k using Nat.strongRecOn with
  | _ k ih =>
      constructor
      · rintro (rfl | henc)
        · exact ⟨Nat.le_refl k, hi⟩
        · have hlt := henc.lt hd
          obtain ⟨j, hij, haround⟩ := Relation.TransGen.tail'_iff.mp henc
          have hrange : i ≤ j ∧ j < stop := by
            refine (ih j (haround.lt hd)).mp ?_
            rcases Relation.reflTransGen_iff_eq_or_transGen.mp hij with h | h
            · exact .inl h
            · exact .inr h
          refine ⟨Nat.le_of_lt hlt, ?_⟩
          by_contra hstop
          exact hout j k haround (Nat.le_of_not_lt hstop) hrange
      · rintro ⟨hlow, hhigh⟩
        rcases Nat.eq_or_lt_of_le hlow with rfl | hlt
        · exact .inl rfl
        · obtain ⟨j, haround, hrange⟩ := hin k hlt hhigh
          refine .inr ((encloses_iff haround).mpr ?_)
          rcases (ih j (haround.lt hd)).mpr hrange with rfl | h
          · exact .inl rfl
          · exact .inr h

/-- In a part of an index that lists trees in a row, what stands within a node comes right behind it,
if nothing else stands within a node of the part. -/
lemma Holds.contiguous (hd : d.IsNested) (h : d.Holds around here ts)
    (haround : ∀ a, around = some a → a < here)
    (hout : ∀ j k, d.IsAround j k → here + Tree.countOf ts ≤ k →
      ¬(here ≤ j ∧ j < here + Tree.countOf ts))
    (hlow : here ≤ i) (hhigh : i < here + Tree.countOf ts) :
    ∃ stop, ∀ k, k = i ∨ d.Encloses i k ↔ i ≤ k ∧ k < stop := by
  induction ts using treesInduction generalizing around here with
  | nil => simp [Tree.countOf] at hhigh; omega
  | cons place n children ts ihc ihts =>
      obtain ⟨-, hchildren, hts⟩ := h.cons
      rw [Tree.countOf_cons] at hout hhigh
      -- what comes behind the first tree does not stand within it
      have hbehind (j k : Nat) (hjk : d.IsAround j k)
          (hk : here + (Tree.countOf children + 1) ≤ k) :
          ¬(here ≤ j ∧ j < here + (Tree.countOf children + 1)) := by
        rintro ⟨hj, hj'⟩
        rcases Nat.lt_or_ge k (here + (Tree.countOf children + 1) + Tree.countOf ts) with hlt | hge
        · rcases hts.isAround hk hlt with heq | ⟨j', hj'', hrange, -⟩
          · have := haround j (heq ▸ hjk)
            omega
          · obtain rfl : j = j' := Option.some.inj (hjk.symm.trans hj'')
            omega
        · exact hout j k hjk (by omega) ⟨hj, by omega⟩
      rcases Nat.lt_or_ge i (here + (Tree.countOf children + 1)) with hfirst | hrest
      · rcases Nat.eq_or_lt_of_le hlow with rfl | hlt
        · refine ⟨here + (Tree.countOf children + 1), fun k => ?_⟩
          refine encloses_iff_of_range hd (fun k hk hk' => ?_) hbehind (by omega)
          rcases hchildren.isAround hk (by omega) with heq | ⟨j, hj, hrange, hrange'⟩
          · exact ⟨here, heq, by omega, by omega⟩
          · exact ⟨j, hj, by omega, by omega⟩
        · exact ihc hchildren (by simp) (fun j k hjk hk hj => hbehind j k hjk (by omega) (by omega))
            hlt (by omega)
      · exact ihts hts (fun a ha => Nat.lt_of_lt_of_le (haround a ha) (by omega))
          (fun j k hjk hk hj => hout j k hjk (by omega) (by omega)) hrest (by omega)

/-- An index that lists trees in a row, with nothing around them, is a forest if every node comes
behind the one around it and lists what stands right in it. -/
lemma isForest_of_rows (hd : d.IsNested)
    (hchildren : ∀ i e, d.entries[i]? = some e →
      e.children = d.indicesWhere fun e' => e'.parent = some i)
    (hrows : d.entries.map row = Tree.rowsOf none 0 ts) : d.IsForest where
  nested := hd
  children := hchildren
  contiguous i hi := by
    have hholds : d.Holds none 0 ts := ⟨[], [], by simp [hrows], rfl⟩
    have hlength : d.entries.length = Tree.countOf ts := by
      rw [← List.length_map row, hrows, Tree.length_rowsOf]
    refine hholds.contiguous hd (by simp) (fun j k hjk hk => ?_) (Nat.zero_le i) (by omega)
    have hlt := hjk.lt_length
    omega

/-- **The index of a script is a forest.** -/
theorem isForest_ofScript (s : Script) : (ofScript s).IsForest := by
  refine isForest_of_rows (isNested_ofScript s) (fun i e he => ?_) (rows_ofScript s)
  have hmirrored : (Collector.empty.walkForest s.forest).IsMirrored := by
    rw [walkForest_eq]
    exact Collector.isMirrored_empty.walkChildren Collector.recorded_empty _
  exact hmirrored i e he

end Document

end CanvasSync.Markup
