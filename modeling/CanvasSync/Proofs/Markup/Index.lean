import CanvasSync.Edit.Source
import CanvasSync.Proofs.Markup.Extraction

/-!
What the index of a script lists.

* `Collector.Recorded`: a node is listed as nested in the node around it, and only nodes are;
* `resolvePath?_lt`, `root?_lt`: the queries give numbers of nodes;
* `exists_of_marked`: the node that is found for an id is marked with it.
-/

namespace CanvasSync.Markup

namespace Collector

/-- Whether something is listed as nested right in a node. -/
def hasNested (c : Collector) (i : Nat) : Bool := (c.entries[i]?).any fun e => !e.children.isEmpty

/-- Every node that has a node around it is listed as nested in that one, and only nodes are listed
as nested. -/
structure Recorded (c : Collector) : Prop where
  nested : ∀ (e : Entry) (i : Nat), e ∈ c.entries → e.parent = some i → c.hasNested i
  children : ∀ e ∈ c.entries, ∀ i ∈ e.children, i < c.entries.length
  stack : ∀ i ∈ c.stack, i < c.entries.length

variable {c : Collector} {i : Nat}

/-- A node entered is listed in the innermost open node; the entries before it stay otherwise. -/
lemma getElem?_enter (n : Node) (hi : i < c.entries.length) :
    (c.enter n).entries[i]? = (c.entries[i]?).map fun e =>
      { e with children := e.children
                 ++ if c.stack.head? = some i then [c.entries.length] else [] } := by
  rw [enter]
  cases h : c.stack.head? with
  | none => simp [List.getElem?_append_left hi]
  | some p =>
      rw [List.getElem?_append_left (by simpa using hi), List.getElem?_modify]
      by_cases hp : p = i <;> simp [hp, hi]

/-- An entry behind a node entered is one from before, or that of the node. -/
lemma mem_enter {n : Node} {e : Entry} (h : e ∈ (c.enter n).entries) :
    (∃ e' ∈ c.entries, e.parent = e'.parent
        ∧ ∀ i ∈ e.children, i ∈ e'.children ∨ i = c.entries.length)
      ∨ e = ⟨n, c.stack.head?, []⟩ := by
  obtain ⟨j, hj⟩ := List.mem_iff_getElem?.mp h
  rcases Nat.lt_or_ge j c.entries.length with hlt | hge
  · rw [getElem?_enter n hlt] at hj
    obtain ⟨e', he', rfl⟩ := Option.map_eq_some_iff.mp hj
    refine .inl ⟨e', List.mem_of_getElem? he', rfl, fun i hi => ?_⟩
    refine (List.mem_append.mp hi).imp_right fun hi => ?_
    split at hi
    · exact List.mem_singleton.mp hi
    · cases hi
  · right
    have hold : j < (c.enter n).entries.length := (List.getElem?_eq_some_iff.mp hj).1
    rw [(enter_rows c n).2.1] at hold
    obtain rfl : j = c.entries.length := by omega
    rw [enter] at hj
    cases hstack : c.stack.head? <;> simp_all

lemma hasNested_enter (n : Node) (h : c.hasNested i) : (c.enter n).hasNested i := by
  obtain ⟨e, he, hne⟩ := (Option.any_eq_true _ _).mp h
  have hi : i < c.entries.length := (List.getElem?_eq_some_iff.mp he).1
  rw [hasNested, getElem?_enter n hi, he]
  simp_all

lemma Recorded.enter (h : c.Recorded) (n : Node) : (c.enter n).Recorded := by
  obtain ⟨-, hlength, hstack⟩ := enter_rows c n
  refine ⟨fun e i he hparent => ?_, fun e he i hi => ?_, fun i hi => ?_⟩
  · rcases mem_enter he with ⟨e', he', heq, -⟩ | rfl
    · exact hasNested_enter n (h.nested e' i he' (heq ▸ hparent))
    · -- the node just entered
      have hi := h.stack i (List.mem_of_mem_head? hparent)
      rw [hasNested, getElem?_enter n hi, List.getElem?_eq_getElem hi]
      simp [show c.stack.head? = some i from hparent]
  · rw [hlength]
    rcases mem_enter he with ⟨e', he', -, hchildren⟩ | rfl
    · rcases hchildren i hi with hi | rfl
      · exact Nat.lt_succ_of_lt (h.children e' he' i hi)
      · exact Nat.lt_succ_self _
    · cases hi
  · rw [hstack] at hi
    rw [hlength]
    rcases List.mem_cons.mp hi with rfl | hi
    · exact Nat.lt_succ_self _
    · exact Nat.lt_succ_of_lt (h.stack i hi)

lemma recorded_empty : empty.Recorded :=
  ⟨by simp [empty], by simp [empty], by simp [empty]⟩

lemma Recorded.walkChildren (h : c.Recorded) (ts : List (Place × Tree)) :
    (c.walkChildren ts).Recorded := by
  induction ts using treesInduction generalizing c with
  | nil => exact h
  | cons place n children ts ihc ihts =>
      have hin := ihc (h.enter n)
      exact ihts ⟨hin.nested, hin.children, fun i hi => hin.stack i (List.mem_of_mem_tail hi)⟩

end Collector

namespace Document

open Collector (row)

variable {s : Script} {i : Nat} {node : Node} {nested : List (Place × Tree)}

lemma recorded_ofScript (s : Script) : (Collector.empty.walkForest s.forest).Recorded := by
  rw [walkForest_eq]
  exact Collector.recorded_empty.walkChildren _

lemma length_ofScript (s : Script) :
    (ofScript s).entries.length = Tree.countOf (placed s.forest) := by
  rw [← List.length_map row, rows_ofScript, Tree.length_rowsOf]

/-- A node with something nested in it lists it. -/
lemma hasNested_of_holds (h : (ofScript s).Holds (some i) (i + 1) nested) (hne : nested ≠ []) :
    (((ofScript s).entries[i]?).any fun e => !e.children.isEmpty) = true := by
  obtain ⟨⟨place, ⟨n, children⟩⟩, ts, rfl⟩ := List.exists_cons_of_ne_nil hne
  obtain ⟨e, he, hrow⟩ := Option.map_eq_some_iff.mp h.cons.1
  exact (recorded_ofScript s).nested e i (List.mem_of_getElem? he) (congrArg Prod.snd hrow)

/-- A node reached by child numbers is one that is listed. -/
lemma resolvePath?_lt {path : List Nat} {start : Nat} (hstart : start < (ofScript s).entries.length)
    (h : (ofScript s).resolvePath? start path = some i) : i < (ofScript s).entries.length := by
  induction path generalizing start with
  | nil =>
      obtain rfl := Option.some.inj h
      exact hstart
  | cons k path ih =>
      rw [resolvePath?, List.getElem?_eq_getElem hstart] at h
      cases hk : ((ofScript s).entries[start]).children[k]? with
      | none => simp [hk] at h
      | some j =>
          simp only [hk] at h
          exact ih ((recorded_ofScript s).children _ (List.getElem_mem hstart) j
            (List.mem_of_getElem? hk)) h

lemma lt_of_mem_indicesWhere {d : Document} {p : Entry → Bool} (h : i ∈ d.indicesWhere p) :
    i < d.entries.length := by
  obtain ⟨⟨e, j⟩, he, rfl⟩ := List.mem_map.mp h
  have hlt := (List.mem_zipIdx (List.mem_filter.mp he).1).2.1
  rwa [Nat.zero_add] at hlt

lemma root?_lt {d : Document} (h : d.root? = some i) : i < d.entries.length := by
  refine lt_of_mem_indicesWhere (p := fun e => e.parent.isNone) ?_
  change i ∈ d.roots
  rw [root?] at h
  split at h
  · next j hj =>
      obtain rfl := Option.some.inj h
      split at hj
      · exact List.mem_of_find?_eq_some hj
      · cases hj
  · exact List.mem_of_head? h

/-- The node that is found for an id is marked with it. -/
lemma exists_of_marked {d : Document} {id : String} {style : Style}
    (h : Edit.marked d id style = .ok i) :
    ∃ e, d.entries[i]? = some e ∧ e.node.quoted? style.marker = some id := by
  rw [Edit.marked] at h
  cases hfind : d.findByAttribute? style.marker id with
  | none => simp [hfind] at h
  | some j =>
      rw [hfind] at h
      obtain rfl := Except.ok.inj h
      obtain ⟨hlt, hquoted, -⟩ := List.findIdx?_eq_some_iff_getElem.mp hfind
      exact ⟨_, List.getElem?_eq_getElem hlt, by simpa using hquoted⟩

end Document

end CanvasSync.Markup
