import CanvasSync.Component.Update
import Mathlib.Data.List.Flatten
import Mathlib.Data.List.Nodup
import Mathlib.Tactic.Common

/-!
Forests of components.

* `forestInduction`: the one induction that trees within trees need;
* `nodesAll`: all trees of a forest, of which `idsAll` lists the ids and `findAll?` finds the first
  of an id;
* `Modifies`: the first tree of an id changed, which `modifyAll?` computes;
* `outlineAll`: how the ids of a forest nest;
* `prunedAll`: a forest without the trees of some ids, wherever they stand;
* `detach?`: a tree taken out, which prunes the forest if its id stands there once
  (`detach?_of_mem`);
* `Detaches`: what stays of a forest when a tree is taken out, also if its id stands there more often.
-/

namespace CanvasSync.Component

variable {id i : String} {c d : Component} {cs ds : List Component}

/-- A property of forests holds if it passes from the components within a first tree and from the
trees behind it to the whole. -/
@[elab_as_elim]
theorem forestInduction {P : List Component → Prop} (nil : P [])
    (cons : ∀ c cs, P c.children → P cs → P (c :: cs)) (cs : List Component) : P cs :=
  @Component.rec_1 (fun c => P c.children) P
    (fun _ _ _ _ _ _ ih => ih) nil (fun c cs ihc ihcs => cons c cs ihc ihcs) cs

/-! ### Ids -/

lemma ids_eq (c : Component) : c.ids = c.id :: idsAll c.children := by
  cases c; rfl

@[simp] lemma idsAll_nil : idsAll [] = [] := rfl

@[simp] lemma idsAll_cons (c : Component) (cs : List Component) :
    idsAll (c :: cs) = c.ids ++ idsAll cs := rfl

@[simp] lemma idsAll_append (cs ds : List Component) :
    idsAll (cs ++ ds) = idsAll cs ++ idsAll ds := by
  induction cs with
  | nil => rfl
  | cons c cs ih => simp [ih]

lemma idsAll_eq_flatMap (cs : List Component) : idsAll cs = cs.flatMap ids := by
  induction cs with
  | nil => rfl
  | cons c cs ih => rw [idsAll_cons, ih, List.flatMap_cons]

/-- The ids of a forest are those of its outermost trees. -/
lemma mem_idsAll_iff_exists : i ∈ idsAll cs ↔ ∃ c ∈ cs, i ∈ c.ids := by
  rw [idsAll_eq_flatMap, List.mem_flatMap]

lemma idsAll_sublist (h : cs.Sublist ds) : (idsAll cs).Sublist (idsAll ds) := by
  rw [idsAll_eq_flatMap, idsAll_eq_flatMap]
  exact h.flatMap _

lemma idsAll_perm (h : cs.Perm ds) : (idsAll cs).Perm (idsAll ds) := by
  rw [idsAll_eq_flatMap, idsAll_eq_flatMap]
  exact h.flatMap_right _

/-- If all ids of a tree are kept or none is, those of the outermost trees that are kept are those
that are. -/
lemma mem_idsAll_filter_iff (keep : String → Bool)
    (h : ∀ c ∈ cs, ∀ i ∈ c.ids, keep i = keep c.id) :
    i ∈ idsAll (cs.filter fun c => keep c.id) ↔ i ∈ idsAll cs ∧ keep i := by
  simp only [mem_idsAll_iff_exists, List.mem_filter]
  constructor
  · rintro ⟨c, ⟨hc, hkeep⟩, hi⟩
    exact ⟨⟨c, hc, hi⟩, (h c hc i hi).trans hkeep⟩
  · rintro ⟨⟨c, hc, hi⟩, hkeep⟩
    exact ⟨c, ⟨hc, (h c hc i hi).symm.trans hkeep⟩, hi⟩

lemma id_mem_ids (c : Component) : c.id ∈ c.ids := by simp [ids_eq]

/-- The ids of the components that stand within others. -/
def nestedIds (cs : List Component) : List String := cs.flatMap fun c => idsAll c.children

/-- An id of a forest is that of an outermost component or of one within another. -/
lemma mem_idsAll_iff : i ∈ idsAll cs ↔ i ∈ cs.map Component.id ∨ i ∈ nestedIds cs := by
  induction cs with
  | nil => simp [nestedIds]
  | cons c cs ih =>
      simp only [nestedIds, List.flatMap_cons, List.mem_append] at ih ⊢
      rw [idsAll_cons, List.mem_append, ids_eq, List.mem_cons, ih, List.map_cons, List.mem_cons]
      tauto

/-- The outermost ids are among all ids. -/
lemma roots_subset_idsAll (cs : List Component) : cs.map Component.id ⊆ idsAll cs :=
  fun _ hi => mem_idsAll_iff.mpr (Or.inl hi)

lemma roots_sublist_idsAll (cs : List Component) : (cs.map Component.id).Sublist (idsAll cs) := by
  induction cs with
  | nil => exact .refl _
  | cons c cs ih =>
      rw [List.map_cons, idsAll_cons, ids_eq, List.cons_append]
      exact (ih.trans (List.sublist_append_right _ _)).cons_cons _

lemma nestedIds_subset_idsAll (cs : List Component) : nestedIds cs ⊆ idsAll cs :=
  fun _ hi => mem_idsAll_iff.mpr (Or.inr hi)

/-! ### All trees of a forest -/

mutual
/-- A tree and the trees within it, each before those within. -/
def nodes : Component → List Component
  | ⟨id, tag, name, props, children, position⟩ =>
    ⟨id, tag, name, props, children, position⟩ :: nodesAll children

/-- The trees of a forest and those within them, in order. -/
def nodesAll : List Component → List Component
  | [] => []
  | c :: cs => nodes c ++ nodesAll cs
end

lemma nodes_eq (c : Component) : c.nodes = c :: nodesAll c.children := by
  cases c; rfl

@[simp] lemma nodesAll_nil : nodesAll [] = [] := rfl

@[simp] lemma nodesAll_cons (c : Component) (cs : List Component) :
    nodesAll (c :: cs) = c :: (nodesAll c.children ++ nodesAll cs) := by
  simp [nodesAll, nodes_eq]

lemma nodesAll_eq_flatMap (cs : List Component) : nodesAll cs = cs.flatMap nodes := by
  induction cs with
  | nil => rfl
  | cons c cs ih => rw [List.flatMap_cons, ← ih, nodesAll]

lemma nodesAll_append (cs ds : List Component) :
    nodesAll (cs ++ ds) = nodesAll cs ++ nodesAll ds := by
  rw [nodesAll_eq_flatMap, nodesAll_eq_flatMap, nodesAll_eq_flatMap, List.flatMap_append]

lemma mem_nodesAll_of_mem (h : c ∈ cs) : c ∈ nodesAll cs := by
  rw [nodesAll_eq_flatMap]
  exact List.mem_flatMap.mpr ⟨c, h, by simp [nodes_eq]⟩

/-- The ids of a forest are those of its trees. -/
lemma idsAll_eq_map_nodesAll (cs : List Component) :
    idsAll cs = (nodesAll cs).map Component.id := by
  induction cs using forestInduction with
  | nil => rfl
  | cons c cs ihc ihcs => simp [ids_eq, ihc, ihcs]

/-- If ids are distinct, a tree of a forest is known by its id. -/
lemma eq_of_mem_nodesAll (h : (idsAll cs).Nodup) (hc : c ∈ nodesAll cs) (hd : d ∈ nodesAll cs)
    (hid : c.id = d.id) : c = d := by
  rw [idsAll_eq_map_nodesAll] at h
  exact List.inj_on_of_nodup_map h hc hd hid

/-- The ids within a tree of a forest are ids of the forest. -/
lemma ids_subset_of_mem_nodesAll (h : c ∈ nodesAll cs) : c.ids ⊆ idsAll cs := by
  induction cs using forestInduction with
  | nil => simp at h
  | cons d cs ihc ihcs =>
      rw [nodesAll_cons, List.mem_cons, List.mem_append] at h
      rcases h with rfl | h | h
      · simp
      · intro i hi
        simp [ids_eq, ihc h hi]
      · intro i hi
        simp [ihcs h hi]

lemma id_mem_idsAll_of_mem_nodesAll (h : c ∈ nodesAll cs) : c.id ∈ idsAll cs :=
  ids_subset_of_mem_nodesAll h (id_mem_ids c)

/-- A tree of a forest has no more ids than the forest. -/
lemma length_ids_le_of_mem_nodesAll (h : c ∈ nodesAll cs) : c.ids.length ≤ (idsAll cs).length := by
  induction cs using forestInduction with
  | nil => simp at h
  | cons d cs ihc ihcs =>
      rw [nodesAll_cons, List.mem_cons, List.mem_append] at h
      rw [idsAll_cons, List.length_append]
      rcases h with rfl | h | h
      · exact Nat.le_add_right _ _
      · have hle := ihc h
        rw [ids_eq d, List.length_cons]
        omega
      · have hle := ihcs h
        omega

/-- A look-up goes into the first tree before it goes on. -/
lemma findAll?_cons (id : String) (c : Component) (cs : List Component) :
    findAll? id (c :: cs)
      = if c.id = id then some c else (findAll? id c.children).or (findAll? id cs) := by
  obtain ⟨i, tag, name, props, children, position⟩ := c
  by_cases h : i = id
  · simp [findAll?, find?, h]
  · cases hf : findAll? id children <;> simp [findAll?, find?, h, hf]

/-- A look-up finds the first tree of an id. -/
lemma findAll?_eq_find?_nodesAll (id : String) (cs : List Component) :
    findAll? id cs = (nodesAll cs).find? fun c => c.id = id := by
  induction cs using forestInduction with
  | nil => rfl
  | cons c cs ihc ihcs =>
      by_cases h : c.id = id <;> simp [findAll?_cons, h, ihc, ihcs]

lemma findAll?_isSome_iff : (findAll? id cs).isSome ↔ id ∈ idsAll cs := by
  rw [findAll?_eq_find?_nodesAll, idsAll_eq_map_nodesAll]
  simp

lemma findAll?_eq_none_iff : findAll? id cs = none ↔ id ∉ idsAll cs := by
  rw [← findAll?_isSome_iff]
  simp

/-- A look-up ends within the first tree if the id stands there. -/
lemma findAll?_cons_of_mem (hc : c.id ≠ id) (hid : id ∈ idsAll c.children) (cs : List Component) :
    findAll? id (c :: cs) = findAll? id c.children := by
  obtain ⟨d, hd⟩ := Option.isSome_iff_exists.mp (findAll?_isSome_iff.mpr hid)
  rw [findAll?_cons, if_neg hc, hd, Option.some_or]

/-- A look-up goes on behind a tree in which the id does not stand. -/
lemma findAll?_cons_of_notMem (hid : id ∉ c.ids) (cs : List Component) :
    findAll? id (c :: cs) = findAll? id cs := by
  rw [ids_eq, List.mem_cons, not_or] at hid
  rw [findAll?_cons, if_neg (Ne.symm hid.1), findAll?_eq_none_iff.mpr hid.2, Option.none_or]

lemma id_of_findAll? (h : findAll? id cs = some c) : c.id = id := by
  rw [findAll?_eq_find?_nodesAll] at h
  simpa using List.find?_some h

lemma mem_nodesAll_of_findAll? (h : findAll? id cs = some c) : c ∈ nodesAll cs := by
  rw [findAll?_eq_find?_nodesAll] at h
  exact List.mem_of_find?_eq_some h

/-! ### A tree changed -/

variable {f : Component → Component}

lemma modifyAll?_cons (id : String) (f : Component → Component) (c : Component)
    (cs : List Component) :
    modifyAll? id f (c :: cs) = if c.id = id then some (f c :: cs)
      else match modifyAll? id f c.children with
        | some ds => some ({ c with children := ds } :: cs)
        | none => (modifyAll? id f cs).map (c :: ·) := by
  obtain ⟨i, tag, name, props, children, position⟩ := c
  by_cases hi : i = id
  · simp [modifyAll?, modify?, hi]
  · cases h : modifyAll? id f children <;> simp [modifyAll?, modify?, hi, h]

lemma modifyAll?_append (cs ds : List Component) :
    modifyAll? id f (cs ++ ds) = match modifyAll? id f cs with
      | some es => some (es ++ ds)
      | none => (modifyAll? id f ds).map (cs ++ ·) := by
  induction cs with
  | nil => simp [modifyAll?]
  | cons c cs ih =>
      rw [List.cons_append, modifyAll?_cons, modifyAll?_cons, ih]
      split
      · rfl
      · cases modifyAll? id f c.children with
        | some es => rfl
        | none => cases modifyAll? id f cs <;> cases modifyAll? id f ds <;> rfl

/-- A tree can be changed if it is there. -/
lemma modifyAll?_isSome_iff : (modifyAll? id f cs).isSome ↔ id ∈ idsAll cs := by
  induction cs using forestInduction with
  | nil => simp [modifyAll?]
  | cons c cs ihc ihcs =>
      rw [modifyAll?_cons, idsAll_cons, ids_eq, List.cons_append, List.mem_cons, List.mem_append,
        ← ihc, ← ihcs]
      by_cases hi : c.id = id
      · simp [hi]
      · cases modifyAll? id f c.children <;> cases modifyAll? id f cs <;> simp [hi, Ne.symm hi]

lemma modifyAll?_eq_none_iff : modifyAll? id f cs = none ↔ id ∉ idsAll cs := by
  rw [← @modifyAll?_isSome_iff id cs f]
  simp

/-- The first tree of an id changed, from one forest to another. -/
inductive Modifies (id : String) (f : Component → Component) :
    List Component → List Component → Prop
  | here (c : Component) (cs : List Component) (hc : c.id = id) :
    Modifies id f (c :: cs) (f c :: cs)
  | within (c : Component) (cs : List Component) {ds : List Component} (hc : c.id ≠ id)
      (h : Modifies id f c.children ds) : Modifies id f (c :: cs) ({ c with children := ds } :: cs)
  | behind (c : Component) {cs ds : List Component} (hc : id ∉ c.ids) (h : Modifies id f cs ds) :
    Modifies id f (c :: cs) (c :: ds)

lemma modifies_of_modifyAll? (h : modifyAll? id f cs = some ds) : Modifies id f cs ds := by
  induction cs using forestInduction generalizing ds with
  | nil => cases h
  | cons c cs ihc ihcs =>
      rw [modifyAll?_cons] at h
      by_cases hc : c.id = id
      · rw [if_pos hc] at h
        obtain rfl := Option.some.inj h
        exact .here c cs hc
      · rw [if_neg hc] at h
        cases hin : modifyAll? id f c.children with
        | some within =>
            rw [hin] at h
            obtain rfl := Option.some.inj h
            exact .within c cs hc (ihc hin)
        | none =>
            rw [hin] at h
            obtain ⟨rest, hrest, rfl⟩ := Option.map_eq_some_iff.mp h
            have hnot : id ∉ c.ids := by
              rw [ids_eq, List.mem_cons, not_or]
              exact ⟨Ne.symm hc, modifyAll?_eq_none_iff.mp hin⟩
            exact .behind c hnot (ihcs hrest)

namespace Modifies

/-- As many trees stand in the one forest as in the other. -/
lemma length_eq (h : Modifies id f cs ds) : ds.length = cs.length := by
  induction h with
  | here c cs hc => rfl
  | within c cs hc h ih => rfl
  | behind c hc h ih => rw [List.length_cons, List.length_cons, ih]

/-- There are trees in both forests. -/
lemma ne_nil (h : Modifies id f cs ds) : cs ≠ [] ∧ ds ≠ [] := by
  cases h <;> simp

lemma mem_idsAll (h : Modifies id f cs ds) : id ∈ idsAll cs := by
  induction h with
  | here c cs hc => simp [ids_eq, hc]
  | within c cs hc h ih => simp [ids_eq, ih]
  | behind c hc h ih => simp [ih]

/-- What is found then is the changed tree, if its id stays. -/
lemma findAll?_eq (hf : ∀ c, (f c).id = c.id) (h : Modifies id f cs ds) :
    findAll? id ds = (findAll? id cs).map f := by
  induction h with
  | here c cs hc => rw [findAll?_cons, findAll?_cons, if_pos hc, if_pos ((hf c).trans hc),
      Option.map_some]
  | within c cs hc h ih =>
      obtain ⟨d, hd⟩ := Option.isSome_iff_exists.mp (findAll?_isSome_iff.mpr h.mem_idsAll)
      rw [findAll?_cons_of_mem hc h.mem_idsAll, findAll?_cons, if_neg hc, ih, hd]
      rfl
  | behind c hc h ih => rw [findAll?_cons_of_notMem hc, findAll?_cons_of_notMem hc, ih]

end Modifies

/-! ### Outlines -/

mutual
/-- How the ids of a tree nest: the tree with nothing else in it. -/
def outline : Component → Component
  | ⟨id, _, _, _, children, _⟩ => { ofTag id "" with children := outlineAll children }

/-- How the ids of a forest nest. -/
def outlineAll : List Component → List Component
  | [] => []
  | c :: cs => outline c :: outlineAll cs
end

lemma outline_eq (c : Component) :
    c.outline = { ofTag c.id "" with children := outlineAll c.children } := by
  cases c; rfl

@[simp] lemma outlineAll_nil : outlineAll [] = [] := rfl

@[simp] lemma outlineAll_cons (c : Component) (cs : List Component) :
    outlineAll (c :: cs) = c.outline :: outlineAll cs := rfl

@[simp] lemma outlineAll_append (cs ds : List Component) :
    outlineAll (cs ++ ds) = outlineAll cs ++ outlineAll ds := by
  induction cs with
  | nil => rfl
  | cons c cs ih => simp [ih]

@[simp] lemma idsAll_outlineAll (cs : List Component) : idsAll (outlineAll cs) = idsAll cs := by
  induction cs using forestInduction with
  | nil => rfl
  | cons c cs ihc ihcs =>
      rw [outlineAll_cons, idsAll_cons, idsAll_cons, ids_eq, ids_eq, outline_eq, ihcs]
      exact congrArg (c.id :: · ++ _) ihc

lemma outlineAll_eq_map (cs : List Component) : outlineAll cs = cs.map outline := by
  induction cs with
  | nil => rfl
  | cons c cs ih => rw [outlineAll_cons, ih, List.map_cons]

@[simp] lemma id_outline (c : Component) : c.outline.id = c.id := by rw [outline_eq]; rfl

@[simp] lemma ids_outline (c : Component) : c.outline.ids = c.ids := by
  simpa using idsAll_outlineAll [c]

/-- The outermost trees of some ids nest as they do in the forest. -/
lemma outlineAll_filter (keep : String → Bool) (cs : List Component) :
    outlineAll (cs.filter fun c => keep c.id) = (outlineAll cs).filter fun c => keep c.id := by
  rw [outlineAll_eq_map, outlineAll_eq_map, List.filter_map]
  congr 2
  funext c
  exact congrArg keep (id_outline c).symm

/-- A change of a tree that leaves its id and what is within it alone keeps how ids nest. -/
lemma Modifies.outlineAll_eq (hf : ∀ c, (f c).id = c.id ∧ (f c).children = c.children)
    (h : Modifies id f cs ds) : outlineAll ds = outlineAll cs := by
  induction h with
  | here c cs hc =>
      rw [outlineAll_cons, outlineAll_cons, outline_eq, outline_eq c, (hf c).1, (hf c).2]
  | within c cs hc h ih => rw [outlineAll_cons, outlineAll_cons, outline_eq, outline_eq c, ih]
  | behind c hc h ih => rw [outlineAll_cons, outlineAll_cons, ih]

lemma Modifies.idsAll_eq (hf : ∀ c, (f c).id = c.id ∧ (f c).children = c.children)
    (h : Modifies id f cs ds) : idsAll ds = idsAll cs := by
  rw [← idsAll_outlineAll, h.outlineAll_eq hf, idsAll_outlineAll]

/-- A change of a tree that leaves its id alone changes the ids within it only. -/
lemma Modifies.exists_idsAll (hf : ∀ c, (f c).id = c.id) (h : Modifies id f cs ds) :
    ∃ c xs ys, findAll? id cs = some c ∧ idsAll cs = xs ++ idsAll c.children ++ ys
      ∧ idsAll ds = xs ++ idsAll (f c).children ++ ys := by
  induction h with
  | here c cs hc =>
      exact ⟨c, [c.id], idsAll cs, by rw [findAll?_cons, if_pos hc], by simp [ids_eq],
        by simp [ids_eq, hf]⟩
  | within c cs hc h ih =>
      obtain ⟨d, xs, ys, hfind, hold, hnew⟩ := ih
      exact ⟨d, c.id :: xs, ys ++ idsAll cs,
        by rw [findAll?_cons_of_mem hc h.mem_idsAll, hfind],
        by simp [ids_eq, hold], by simp [ids_eq, hnew]⟩
  | behind c hc h ih =>
      obtain ⟨d, xs, ys, hfind, hold, hnew⟩ := ih
      exact ⟨d, c.ids ++ xs, ys, by rw [findAll?_cons_of_notMem hc, hfind],
        by simp [hold], by simp [hnew]⟩

/-! ### Pruning -/

mutual
/-- A tree without the trees within it whose ids are dropped. -/
def pruned (drop : String → Bool) : Component → Component
  | ⟨id, tag, name, props, children, position⟩ =>
    ⟨id, tag, name, props, prunedAll drop children, position⟩

/-- A forest without the trees whose ids are dropped. -/
def prunedAll (drop : String → Bool) : List Component → List Component
  | [] => []
  | c :: cs => if drop c.id then prunedAll drop cs else pruned drop c :: prunedAll drop cs
end

variable {drop drop' : String → Bool}

@[simp] lemma id_pruned (drop : String → Bool) (c : Component) : (c.pruned drop).id = c.id := by
  cases c; rfl

@[simp] lemma children_pruned (drop : String → Bool) (c : Component) :
    (c.pruned drop).children = prunedAll drop c.children := by
  cases c; rfl

lemma pruned_eq (drop : String → Bool) (c : Component) :
    c.pruned drop = { c with children := prunedAll drop c.children } := by
  cases c; rfl

/-- A tree stays as it is if the forest within it does. -/
lemma pruned_eq_self (h : prunedAll drop c.children = c.children) : c.pruned drop = c := by
  cases c; rw [pruned_eq, h]

@[simp] lemma prunedAll_nil (drop : String → Bool) : prunedAll drop [] = [] := rfl

lemma prunedAll_cons (drop : String → Bool) (c : Component) (cs : List Component) :
    prunedAll drop (c :: cs)
      = if drop c.id then prunedAll drop cs else c.pruned drop :: prunedAll drop cs := rfl

@[simp] lemma prunedAll_append (drop : String → Bool) (cs ds : List Component) :
    prunedAll drop (cs ++ ds) = prunedAll drop cs ++ prunedAll drop ds := by
  induction cs with
  | nil => rfl
  | cons c cs ih => by_cases h : drop c.id <;> simp [prunedAll_cons, h, ih]

lemma prunedAll_eq_map_filter (drop : String → Bool) (cs : List Component) :
    prunedAll drop cs = (cs.filter fun c => !drop c.id).map (pruned drop) := by
  induction cs with
  | nil => rfl
  | cons c cs ih => by_cases h : drop c.id <;> simp [prunedAll_cons, h, ih]

/-- Pruning does not care for the order of a forest. -/
lemma prunedAll_perm (drop : String → Bool) (h : cs.Perm ds) :
    (prunedAll drop cs).Perm (prunedAll drop ds) := by
  rw [prunedAll_eq_map_filter, prunedAll_eq_map_filter]
  exact (h.filter _).map _

/-- The outermost trees of some ids in a pruned forest are pruned ones. -/
lemma filter_prunedAll (keep drop : String → Bool) (cs : List Component) :
    (prunedAll drop cs).filter (fun c => keep c.id)
      = prunedAll drop (cs.filter fun c => keep c.id) := by
  induction cs with
  | nil => rfl
  | cons c cs ih =>
      by_cases h : drop c.id <;> by_cases h' : keep c.id <;> simp [prunedAll_cons, h, h', ih]

/-- How the ids of a pruned forest nest. -/
lemma outlineAll_prunedAll (drop : String → Bool) (cs : List Component) :
    outlineAll (prunedAll drop cs) = prunedAll drop (outlineAll cs) := by
  induction cs using forestInduction with
  | nil => rfl
  | cons c cs ihc ihcs =>
      by_cases h : drop c.id
      · simp [prunedAll_cons, h, ihcs]
      · have hc : (c.pruned drop).outline = c.outline.pruned drop := by
          rw [outline_eq, outline_eq c, id_pruned, children_pruned, ihc, pruned_eq]
        simp [prunedAll_cons, h, ihcs, hc]

/-- Pruning leaves a forest alone in which no id is dropped. -/
lemma prunedAll_eq_self (h : ∀ i ∈ idsAll cs, drop i = false) : prunedAll drop cs = cs := by
  induction cs using forestInduction with
  | nil => rfl
  | cons c cs ihc ihcs =>
      simp only [idsAll_cons, ids_eq, List.cons_append, List.mem_cons, List.mem_append] at h
      have hc : drop c.id = false := h _ (Or.inl rfl)
      have hin := ihc fun i hi => h i (Or.inr (Or.inl hi))
      have hrest := ihcs fun i hi => h i (Or.inr (Or.inr hi))
      rw [prunedAll_cons, if_neg (by simp [hc]), pruned_eq_self hin, hrest]

/-- Pruning of an id that stands nowhere leaves a forest alone. -/
lemma prunedAll_of_notMem (h : id ∉ idsAll cs) : prunedAll (· = id) cs = cs :=
  prunedAll_eq_self fun _ hi => decide_eq_false fun hid => h (hid ▸ hi)

/-- Pruning twice drops the ids of either time. -/
lemma prunedAll_prunedAll (drop drop' : String → Bool) (cs : List Component) :
    prunedAll drop' (prunedAll drop cs) = prunedAll (fun i => drop i || drop' i) cs := by
  induction cs using forestInduction with
  | nil => rfl
  | cons c cs ihc ihcs =>
      by_cases h : drop c.id
      · simp [prunedAll_cons, h, ihcs]
      · by_cases h' : drop' c.id <;> simp [prunedAll_cons, h, h', ihc, ihcs, pruned_eq]

/-- Pruning keeps ids in order. -/
lemma idsAll_prunedAll_sublist (drop : String → Bool) (cs : List Component) :
    (idsAll (prunedAll drop cs)).Sublist (idsAll cs) := by
  induction cs using forestInduction with
  | nil => simp
  | cons c cs ihc ihcs =>
      by_cases h : drop c.id
      · rw [prunedAll_cons, if_pos h, idsAll_cons]
        exact ihcs.trans (List.sublist_append_right _ _)
      · rw [prunedAll_cons, if_neg h, idsAll_cons, idsAll_cons, ids_eq, ids_eq, id_pruned,
          children_pruned]
        exact (ihc.cons_cons _).append ihcs

lemma ids_pruned_sublist (drop : String → Bool) (c : Component) :
    (c.pruned drop).ids.Sublist c.ids := by
  rw [ids_eq, ids_eq, id_pruned, children_pruned]
  exact (idsAll_prunedAll_sublist drop c.children).cons_cons _

lemma not_drop_of_mem_prunedAll (h : i ∈ idsAll (prunedAll drop cs)) : drop i = false := by
  induction cs using forestInduction with
  | nil => simp at h
  | cons c cs ihc ihcs =>
      by_cases hc : drop c.id
      · exact ihcs (by simpa [prunedAll_cons, hc] using h)
      · simp only [prunedAll_cons, if_neg hc, idsAll_cons, ids_eq, id_pruned, children_pruned,
          List.mem_append, List.mem_cons] at h
        rcases h with (rfl | h) | h
        · simpa using hc
        · exact ihc h
        · exact ihcs h

/-- In a forest of distinct ids, those stay that stand in no tree whose id is dropped. -/
lemma mem_idsAll_prunedAll_iff (hcs : (idsAll cs).Nodup) :
    i ∈ idsAll (prunedAll drop cs)
      ↔ i ∈ idsAll cs ∧ ∀ c ∈ nodesAll cs, drop c.id → i ∉ c.ids := by
  induction cs using forestInduction with
  | nil => simp
  | cons c cs ihc ihcs =>
      rw [idsAll_cons, List.nodup_append, ids_eq, List.nodup_cons] at hcs
      obtain ⟨⟨hid, hin⟩, hrest, hdis⟩ := hcs
      have hdis' : ∀ j, j ∈ c.ids → j ∉ idsAll cs := fun j hj hj' =>
        hdis j (by simpa [ids_eq] using hj) j hj' rfl
      have ihc := ihc hin
      have ihcs := ihcs hrest
      rw [nodesAll_cons, List.forall_mem_cons, List.forall_mem_append, idsAll_cons,
        List.mem_append]
      by_cases h : drop c.id
      · rw [prunedAll_cons, if_pos h, ihcs]
        constructor
        · rintro ⟨hi, hall⟩
          have hic : i ∉ c.ids := fun hi' => hdis' i hi' hi
          refine ⟨Or.inr hi, fun _ => hic, fun d hd _ hid' => hic ?_, hall⟩
          simp [ids_eq, ids_subset_of_mem_nodesAll hd hid']
        · rintro ⟨hi, hc, -, hall⟩
          exact ⟨hi.resolve_left (hc h), hall⟩
      · rw [prunedAll_cons, if_neg h, idsAll_cons, List.mem_append, ids_eq, id_pruned,
          children_pruned, List.mem_cons, ihc, ihcs, ids_eq, List.mem_cons]
        constructor
        · rintro ((rfl | ⟨hi, hall⟩) | ⟨hi, hall⟩)
          · refine ⟨Or.inl (Or.inl rfl), fun hd => absurd hd h, fun d hd _ hm => ?_,
              fun d hd _ hm => ?_⟩
            · exact hid (ids_subset_of_mem_nodesAll hd hm)
            · exact hdis' c.id (id_mem_ids c) (ids_subset_of_mem_nodesAll hd hm)
          · refine ⟨Or.inl (Or.inr hi), fun hd => absurd hd h, hall, fun d hd _ hm => ?_⟩
            exact hdis' i (by simp [ids_eq, hi]) (ids_subset_of_mem_nodesAll hd hm)
          · refine ⟨Or.inr hi, fun hd => absurd hd h, fun d hd _ hm => ?_, hall⟩
            exact hdis' i (by simp [ids_eq, ids_subset_of_mem_nodesAll hd hm]) hi
        · rintro ⟨(rfl | hi) | hi, -, hin', hall⟩
          · exact Or.inl (Or.inl rfl)
          · exact Or.inl (Or.inr ⟨hi, hin'⟩)
          · exact Or.inr ⟨hi, hall⟩

/-- In a forest of distinct ids, pruning of some drops the trees of these. -/
lemma mem_idsAll_prunedAll_mem_iff {gone : List String} (hcs : (idsAll cs).Nodup) :
    i ∈ idsAll (prunedAll (· ∈ gone) cs)
      ↔ i ∈ idsAll cs ∧ ∀ c ∈ nodesAll cs, c.id ∈ gone → i ∉ c.ids := by
  have hmem : i ∈ idsAll (prunedAll (· ∈ gone) cs) ↔ _ := mem_idsAll_prunedAll_iff hcs
  simpa using hmem

/-- In a forest of distinct ids, pruning of one drops the tree that is found for it. -/
lemma mem_idsAll_prunedAll_of_findAll? (hcs : (idsAll cs).Nodup) (hfind : findAll? id cs = some c) :
    i ∈ idsAll (prunedAll (· = id) cs) ↔ i ∈ idsAll cs ∧ i ∉ c.ids := by
  rw [mem_idsAll_prunedAll_iff hcs]
  have hc := mem_nodesAll_of_findAll? hfind
  have hid := id_of_findAll? hfind
  refine and_congr_right fun _ => ⟨fun hall => hall c hc (by simpa using hid),
    fun hgone d hd hdid => ?_⟩
  obtain rfl := eq_of_mem_nodesAll hcs hd hc ((of_decide_eq_true hdid).trans hid.symm)
  exact hgone

/-! ### Taking out -/

/-- Takes the component of an id out of a forest: an outermost one, or else one within another. -/
def detach? (id : String) (cs : List Component) : Option (Component × List Component) :=
  (takeOut? id cs).or (removeWithin? id cs)

lemma removeWithin?_cons (id : String) (c : Component) (cs : List Component) :
    removeWithin? id (c :: cs)
      = match detach? id c.children with
        | some (found, ds) => some (found, { c with children := ds } :: cs)
        | none => (removeWithin? id cs).map fun (found, cs) => (found, c :: cs) := by
  obtain ⟨i, tag, name, props, children, position⟩ := c
  cases ht : takeOut? id children with
  | some r => simp [removeWithin?, removeDescendant?, detach?, ht]
  | none =>
      cases hr : removeWithin? id children <;>
        simp [removeWithin?, removeDescendant?, detach?, ht, hr]

lemma takeOut?_eq_none (h : id ∉ cs.map Component.id) : takeOut? id cs = none := by
  induction cs with
  | nil => rfl
  | cons c cs ih =>
      simp only [List.map_cons, List.mem_cons, not_or] at h
      simp [takeOut?, Ne.symm h.1, ih h.2]

/-- Nothing is taken out of a forest in which the id does not stand. -/
lemma detach?_eq_none (h : id ∉ idsAll cs) : detach? id cs = none := by
  have htop : takeOut? id cs = none :=
    takeOut?_eq_none fun hid => h (roots_subset_idsAll cs hid)
  rw [detach?, htop, Option.none_or]
  clear htop
  induction cs using forestInduction with
  | nil => rfl
  | cons c cs ihc ihcs =>
      simp only [idsAll_cons, ids_eq, List.cons_append, List.mem_cons, List.mem_append,
        not_or] at h
      have htop : takeOut? id c.children = none :=
        takeOut?_eq_none fun hid => h.2.1 (roots_subset_idsAll _ hid)
      simp [removeWithin?_cons, detach?, htop, ihc h.2.1, ihcs h.2.2]

/-- A component whose id stands once in a forest is taken out whole: what is left is the forest
pruned of its id. -/
lemma detach?_of_mem (hid : id ∈ idsAll cs) (honce : (idsAll cs).count id ≤ 1) :
    ∃ c, detach? id cs = some (c, prunedAll (· = id) cs) ∧ findAll? id cs = some c := by
  induction cs using forestInduction with
  | nil => simp at hid
  | cons c cs ihc ihcs =>
      have hcount : (if c.id = id then 1 else 0) + (idsAll c.children).count id
          + (idsAll cs).count id ≤ 1 := by
        rw [idsAll_cons, ids_eq, List.count_append, List.count_cons] at honce
        simp only [beq_iff_eq] at honce
        omega
      by_cases hc : c.id = id
      · -- the first tree itself goes; the id stands nowhere behind it
        have hrest : id ∉ idsAll cs := by
          rw [← List.count_eq_zero]
          rw [if_pos hc] at hcount
          omega
        have hkept : prunedAll (· = id) cs = cs :=
          prunedAll_of_notMem hrest
        exact ⟨c, by simp [detach?, takeOut?, hc, prunedAll_cons, hkept],
          by simp [findAll?_cons, hc]⟩
      · rw [if_neg hc, Nat.zero_add] at hcount
        rw [idsAll_cons, ids_eq, List.mem_append, List.mem_cons, or_iff_right (Ne.symm hc)] at hid
        have htop : takeOut? id (c :: cs) = (takeOut? id cs).map fun r => (r.1, c :: r.2) := by
          simp [takeOut?, hc]
        by_cases hin : id ∈ idsAll c.children
        · -- it goes from within the first tree
          have hrest : id ∉ idsAll cs := by
            have hpos := List.count_pos_iff.mpr hin
            rw [← List.count_eq_zero]
            omega
          have hkept : prunedAll (· = id) cs = cs :=
            prunedAll_of_notMem hrest
          obtain ⟨found, hd, hf⟩ := ihc hin (by omega)
          have hnone : takeOut? id cs = none :=
            takeOut?_eq_none fun h => hrest (roots_subset_idsAll cs h)
          refine ⟨found, ?_, by simp [findAll?_cons, hc, hf]⟩
          rw [detach?, htop, hnone, Option.map_none, Option.none_or, removeWithin?_cons, hd,
            prunedAll_cons, if_neg (by simpa using hc), pruned_eq, hkept]
        · -- it goes from behind the first tree
          have hrest : id ∈ idsAll cs := hid.resolve_left hin
          have hkept : prunedAll (· = id) c.children = c.children :=
            prunedAll_of_notMem hin
          obtain ⟨found, hd, hf⟩ := ihcs hrest (by omega)
          have hnone := findAll?_eq_none_iff.mpr hin
          have hwithin := detach?_eq_none hin
          refine ⟨found, ?_, by simp [findAll?_cons, hc, hnone, hf]⟩
          have hpruned : prunedAll (· = id) (c :: cs) = c :: prunedAll (· = id) cs := by
            rw [prunedAll_cons, if_neg (by simpa using hc), pruned_eq_self hkept]
          rw [hpruned, detach?, htop, removeWithin?_cons, hwithin]
          cases ht : takeOut? id cs with
          | some r =>
              rw [detach?, ht, Option.some_or, Option.some.injEq] at hd
              simp [hd]
          | none =>
              rw [detach?, ht, Option.none_or] at hd
              simp [hd]

/-- One tree of an id taken out of a forest, whether or not there are more. -/
inductive Detaches (id : String) (gone : Component) : List Component → List Component → Prop
  | here (cs : List Component) (hid : gone.id = id) : Detaches id gone (gone :: cs) cs
  | within (c : Component) (cs : List Component) {ds : List Component}
      (h : Detaches id gone c.children ds) :
      Detaches id gone (c :: cs) ({ c with children := ds } :: cs)
  | behind (c : Component) {cs ds : List Component} (h : Detaches id gone cs ds) :
    Detaches id gone (c :: cs) (c :: ds)

lemma detaches_of_takeOut? {gone : Component} (h : takeOut? id cs = some (gone, ds)) :
    Detaches id gone cs ds := by
  induction cs generalizing ds with
  | nil => cases h
  | cons c cs ih =>
      rw [takeOut?] at h
      split_ifs at h with hc
      · cases h
        exact .here cs hc
      · obtain ⟨⟨found, rest⟩, hrest, heq⟩ := Option.map_eq_some_iff.mp h
        cases heq
        exact .behind c (ih hrest)

lemma detaches_of_detach? {gone : Component} (h : detach? id cs = some (gone, ds)) :
    Detaches id gone cs ds := by
  induction cs using forestInduction generalizing ds with
  | nil => cases h
  | cons c cs ihc ihcs =>
      cases htop : takeOut? id (c :: cs) with
      | some r =>
          rw [detach?, htop, Option.some_or] at h
          obtain rfl := Option.some.inj h
          exact detaches_of_takeOut? htop
      | none =>
          rw [detach?, htop, Option.none_or, removeWithin?_cons] at h
          cases hin : detach? id c.children with
          | some r =>
              rw [hin] at h
              cases h
              exact .within c cs (ihc hin)
          | none =>
              rw [hin] at h
              obtain ⟨⟨found, rest⟩, hrest, heq⟩ := Option.map_eq_some_iff.mp h
              cases heq
              have hbehind : takeOut? id cs = none := by
                rw [takeOut?] at htop
                split_ifs at htop
                simpa using htop
              exact .behind c (ihcs (by rw [detach?, hbehind, Option.none_or, hrest]))

/-- The trees of a forest and those within them, without what is within them. -/
def labelsAll (cs : List Component) : List Component :=
  (nodesAll cs).map fun c => { c with children := [] }

@[simp] lemma labelsAll_cons (c : Component) (cs : List Component) : labelsAll (c :: cs)
    = { c with children := [] } :: (labelsAll c.children ++ labelsAll cs) := by
  simp [labelsAll]

@[simp] lemma labelsAll_nil : labelsAll [] = [] := rfl

@[simp] lemma labelsAll_append (cs ds : List Component) :
    labelsAll (cs ++ ds) = labelsAll cs ++ labelsAll ds := by
  simp [labelsAll, nodesAll_eq_flatMap]

lemma idsAll_eq_map_labelsAll (cs : List Component) :
    idsAll cs = (labelsAll cs).map Component.id := by
  rw [idsAll_eq_map_nodesAll, labelsAll, List.map_map]
  rfl

/-- What is left of a forest is as it was. -/
lemma Detaches.labelsAll_sublist {gone : Component} (h : Detaches id gone cs ds) :
    (labelsAll ds).Sublist (labelsAll cs) := by
  induction h with
  | here cs hid =>
      rw [labelsAll_cons]
      exact (List.sublist_append_right _ _).cons _
  | within c cs h ih =>
      rw [labelsAll_cons, labelsAll_cons]
      exact (ih.append_right _).cons_cons _
  | behind c h ih =>
      rw [labelsAll_cons, labelsAll_cons]
      exact (ih.append_left _).cons_cons _

lemma Detaches.mem_idsAll {gone : Component} (h : Detaches id gone cs ds) : id ∈ idsAll cs := by
  induction h with
  | here cs hid => simp [ids_eq, hid]
  | within c cs h ih => simp [ids_eq, ih]
  | behind c h ih => simp [ih]

/-- A tree without the id stays whole. -/
lemma Detaches.mem {gone : Component} (h : Detaches id gone cs ds) (hc : c ∈ cs)
    (hid : id ∉ c.ids) : c ∈ ds := by
  induction h with
  | here cs hgone =>
      rcases List.mem_cons.mp hc with rfl | hc
      · exact absurd (hgone ▸ id_mem_ids c) hid
      · exact hc
  | within d cs h ih =>
      rcases List.mem_cons.mp hc with rfl | hc
      · exact absurd (by simp [ids_eq, h.mem_idsAll]) hid
      · exact List.mem_cons_of_mem _ hc
  | behind d h ih =>
      rcases List.mem_cons.mp hc with rfl | hc
      · exact List.mem_cons_self
      · exact List.mem_cons_of_mem _ (ih hc)

/-- Outermost trees that do not have the id stay where they are. -/
lemma Detaches.filter_eq {gone : Component} {p : String → Bool} (h : Detaches id gone cs ds)
    (hp : ∀ c ∈ cs, p c.id → id ∉ c.ids) :
    ds.filter (fun c => p c.id) = cs.filter fun c => p c.id := by
  induction h with
  | here cs hgone =>
      have hneg : ¬p gone.id := fun h => hp gone List.mem_cons_self h (hgone ▸ id_mem_ids gone)
      rw [List.filter_cons, if_neg hneg]
  | within c cs h ih =>
      have hneg : ¬p c.id := fun hc =>
        hp c List.mem_cons_self hc (by simp [ids_eq, h.mem_idsAll])
      rw [List.filter_cons, List.filter_cons, if_neg hneg, if_neg hneg]
  | behind c h ih =>
      rw [List.filter_cons, List.filter_cons, ih fun d hd => hp d (List.mem_cons_of_mem c hd)]

end CanvasSync.Component
