import CanvasSync.Edit.Source
import CanvasSync.Proofs.Markup.Index
import CanvasSync.Proofs.Script.Layout

/-!
Where the nodes of the index of a source stand in it.

* `isLaid_of_document`: the index of a source is laid out in it;
* `isLaid_nodeAt`, `isLaid_insertionTarget`: so is every node of it, and the one that a component is
  inserted into;
* `apart_of_not_within`, `exists_parts_of_le`: two nodes of which neither is within the other, and
  the source around them;
* `indexOf`: the index of a source, as it is computed.
-/

namespace CanvasSync.Edit

open CanvasSync.Markup (Document Node Style)

variable {source : Text} {d : Document} {i j : Nat} {path : Option (List Nat)} {target : Node}

/-- The index of a source is laid out in it. -/
lemma isLaid_of_document (h : document source = .ok d) : d.IsLaid source := by
  rw [document] at h
  split at h
  · next hparse =>
      obtain rfl := Except.ok.inj h
      exact Script.isLaid_of_parse? hparse
  · cases h

lemma nodeAt_eq {e : Markup.Entry} (h : d.entries[i]? = some e) : nodeAt d i = e.node := by
  rw [nodeAt, h]
  rfl

lemma isLaid_nodeAt (h : d.IsLaid source) (hi : i < d.entries.length) :
    (nodeAt d i).IsLaid source := by
  rw [nodeAt_eq (List.getElem?_eq_getElem hi)]
  exact h.nodes _ (List.getElem_mem hi)

/-- The node that a component is inserted into is laid out, if it has a closing tag: there is always
one under a number, but none is listed under those beyond the last. -/
lemma isLaid_insertionTarget {closing : Span} (h : d.IsLaid source)
    (htarget : insertionTarget d path = .ok target) (hclosing : target.closing = some closing) :
    target.IsLaid source := by
  obtain ⟨i, rfl⟩ : ∃ i, target = nodeAt d i := by
    rw [insertionTarget] at htarget
    split at htarget
    · cases htarget
    · split at htarget
      · exact ⟨_, (Except.ok.inj htarget).symm⟩
      · split at htarget
        · exact ⟨_, (Except.ok.inj htarget).symm⟩
        · cases htarget
  refine isLaid_nodeAt h (Nat.lt_of_not_le fun hle => ?_)
  rw [nodeAt, List.getElem?_eq_none hle] at hclosing
  cases hclosing

lemma lt_of_marked {id : String} {style : Style} (h : marked d id style = .ok i) :
    i < d.entries.length := by
  obtain ⟨e, he, -⟩ := Document.exists_of_marked h
  exact (List.getElem?_eq_some_iff.mp he).1

/-! ### Two nodes -/

/-- Two nodes of which neither is within the other stand one behind the other. -/
lemma apart_of_not_within (h : d.IsLaid source) (hi : i < d.entries.length)
    (hj : j < d.entries.length) (hij : ¬(nodeAt d i).span.within (nodeAt d j).span)
    (hji : ¬(nodeAt d j).span.within (nodeAt d i).span) :
    (nodeAt d i).span.stop ≤ (nodeAt d j).span.start
      ∨ (nodeAt d j).span.stop ≤ (nodeAt d i).span.start := by
  have hpair := List.pairwise_iff_getElem.mp h.apart
  rw [nodeAt_eq (List.getElem?_eq_getElem hi), nodeAt_eq (List.getElem?_eq_getElem hj)] at *
  rcases Nat.lt_trichotomy i j with hlt | rfl | hlt
  · exact .inl ((hpair i j hi hj hlt).resolve_left hji)
  · exact absurd (by simp [Span.within]) hij
  · exact .inr ((hpair j i hj hi hlt).resolve_left hij)

/-- The source around two nodes of which one stands behind the other. -/
lemma exists_parts_of_le (h : d.IsLaid source) (hi : i < d.entries.length)
    (hj : j < d.entries.length) (hle : (nodeAt d i).span.stop ≤ (nodeAt d j).span.start) :
    ∃ p u m v q, source = p ++ (u ++ (m ++ (v ++ q)))
      ∧ (nodeAt d i).span = ⟨Text.size p, Text.size (p ++ u)⟩
      ∧ (nodeAt d j).span = ⟨Text.size (p ++ (u ++ m)), Text.size (p ++ (u ++ (m ++ v)))⟩
      ∧ Text.endsSolid u ∧ Text.beginsSolid v := by
  obtain ⟨u, ⟨p, y, hsource, hs⟩, hu⟩ := (isLaid_nodeAt h hi).span
  obtain ⟨v, ⟨x, q, hsource', hs'⟩, hv⟩ := (isLaid_nodeAt h hj).span
  rw [hs, hs'] at hle
  rw [List.append_assoc x] at hsource'
  obtain ⟨m, rfl, hy⟩ :=
    Text.exists_eq_append_of_size_le (hsource.symm.trans hsource') (by simpa using hle)
  refine ⟨p, u, m, v, q, ?_, ?_, ?_, hu.endsSolid, hv.beginsSolid⟩
  · rw [hsource, hy, List.append_assoc]
  · rw [hs, Text.size_append]
  · rw [hs']
    simp [Nat.add_assoc]

/-! ### Computed results -/

/-- The index of a source that is a module. -/
def indexOf (source : Text) : Document := (document source).toOption.getD default

lemma eq_ok_of_toOption {α : Type} {r : Except Fault α} {a : α} (h : r.toOption = some a) :
    r = .ok a := by
  cases r with
  | error f => cases h
  | ok b =>
      obtain rfl : b = a := Option.some.inj h
      rfl

lemma document_eq_ok (h : (document source).toOption.isSome) :
    document source = .ok (indexOf source) := by
  obtain ⟨d, hd⟩ := Option.isSome_iff_exists.mp h
  rw [indexOf, hd]
  exact eq_ok_of_toOption hd

end CanvasSync.Edit
