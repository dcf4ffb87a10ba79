import CanvasSync.Proofs.Component.Forest
import CanvasSync.Proofs.Markup.Frames

/-!
The components around a place in a content.

* `Frame.nest`: components with those around a hole about them and beside them;
* `components_fill_node`: the components of a content with a node in its hole are those of the node,
  nested so;
* `outlineAll_components_fill`: how ids nest does not depend on the texts in the hole;
* `exists_idsAll_nest`: the ids around a hole stand before and behind those in it;
* `modifyAll?_nest`, `prunedAll_nest`: a change of a tree, or the loss of one, stays within the hole
  that it stands in;
* `mem_nodesAll_of_nest`: a tree whose id does not stand around a hole is one in it.
-/

namespace CanvasSync.Markup

open CanvasSync.Component (idsAll modifyAll? nodesAll outlineAll prunedAll)
open CanvasSync.Script.Grammar (Piece)

/-- What is neither text nor an expression leaves a content without a text. -/
lemma contentText_of_other {pieces : List Piece} (h : .other ∈ pieces) :
    Script.Grammar.contentText pieces = none := by
  have hnone (f : Piece → Option Text) (hf : f .other = none) : pieces.mapM f = none := by
    induction pieces with
    | nil => simp at h
    | cons p ps ih =>
        rw [List.mapM_cons]
        rcases List.mem_cons.mp h with rfl | h
        · rw [hf]
          rfl
        · rw [ih h]
          cases f p <;> rfl
  rw [Script.Grammar.contentText, hnone _ rfl]

namespace Frame

/-- Components in a hole with those around it: an element around it that is marked has them within,
and what stands beside it has them beside. -/
def nest (marker : String) : Frame → List Component → List Component
  | hole, cs => cs
  | behindBraces _ _ _ f, cs => f.nest marker cs
  | behind _ shell inner f, cs =>
    (Passage.node [] shell inner (.text [])).components marker ++ f.nest marker cs
  | within _ shell f rest, cs =>
    (match shell.marker? marker with
      | some id =>
        let tag := String.ofList shell.name
        [⟨id, tag, tag, Json.Fields.ofList (shell.fields marker), f.nest marker cs, .origin⟩]
      | none => f.nest marker cs) ++ rest.components marker

variable {f : Frame} {marker id : String} {cs ds : List Component} {c : Passage}

/-- A node in a hole leaves the content around it without a text. -/
lemma contentText_fill_node (f : Frame) (t : Text) (shell : Shell) (inner rest : Passage) :
    Script.Grammar.contentText (f.fill (.node t shell inner rest)).pieces = none := by
  refine contentText_of_other ?_
  induction f with
  | hole => simp [fill, Passage.pieces]
  | behindBraces u e piece f ih => simp [fill, Passage.pieces, ih]
  | behind u sh inn f ih => simp [fill, Passage.pieces]
  | within u sh f rest' ih => simp [fill, Passage.pieces]

/-- **The components of a content with a node in its hole are those of the node with those around the
hole.** -/
theorem components_fill_node (f : Frame) (marker : String) (t : Text) (shell : Shell)
    (inner rest : Passage) : (f.fill (.node t shell inner rest)).components marker
      = f.nest marker ((Passage.node t shell inner rest).components marker) := by
  induction f with
  | hole => rfl
  | behindBraces u e piece f ih => exact ih
  | behind u sh inn f ih =>
      rw [fill, nest, Passage.components, ih]
      simp [Passage.components]
  | within u sh f rest' ih =>
      rw [fill, nest, Passage.components, ih, Shell.props, contentText_fill_node]
      cases sh.marker? marker with
      | none => rfl
      | some id => simp [Component.ofTag]

/-- How the ids around a hole nest depends on how those in it do. -/
lemma outlineAll_nest (h : outlineAll cs = outlineAll ds) :
    outlineAll (f.nest marker cs) = outlineAll (f.nest marker ds) := by
  induction f with
  | hole => exact h
  | behindBraces u e piece f ih => exact ih
  | behind u sh inn f ih => rw [nest, nest, Component.outlineAll_append, ih, Component.outlineAll_append]
  | within u sh f rest ih =>
      rw [nest, nest, Component.outlineAll_append, Component.outlineAll_append]
      cases sh.marker? marker with
      | none => rw [ih]
      | some id => simp [Component.outline_eq, ih]

/-- How the ids of a content with another one in its hole nest. -/
lemma outlineAll_components_fill (f : Frame) (marker : String) (c : Passage) :
    outlineAll ((f.fill c).components marker)
      = outlineAll (f.nest marker (c.components marker)) := by
  induction f with
  | hole => rfl
  | behindBraces u e piece f ih => exact ih
  | behind u sh inn f ih =>
      rw [fill, nest, Passage.components, Component.outlineAll_append, ih,
        Component.outlineAll_append]
      simp [Passage.components]
  | within u sh f rest ih =>
      rw [fill, nest, Passage.components, Component.outlineAll_append, Component.outlineAll_append]
      cases sh.marker? marker with
      | none => rw [ih]
      | some id => simp [Component.outline_eq, Component.ofTag, ih]

/-- The ids around a hole stand there whatever is in it. -/
lemma count_idsAll_nest (f : Frame) (marker id : String) (cs : List Component) :
    (idsAll (f.nest marker cs)).count id
      = (idsAll (f.nest marker [])).count id + (idsAll cs).count id := by
  induction f with
  | hole => simp [nest]
  | behindBraces u e piece f ih => exact ih
  | behind u sh inn f ih =>
      simp only [nest, Component.idsAll_append, List.count_append, ih, Nat.add_assoc]
  | within u sh f rest ih =>
      simp only [nest, Component.idsAll_append, List.count_append]
      cases sh.marker? marker with
      | none =>
          simp only [ih]
          omega
      | some i =>
          simp only [Component.idsAll_cons, Component.idsAll_nil, Component.ids_eq, List.append_nil,
            List.count_cons, ih]
          omega

/-- The ids around a hole stand before those in it, or behind them. -/
lemma exists_idsAll_nest (f : Frame) (marker : String) :
    ∃ xs ys, ∀ cs, idsAll (f.nest marker cs) = xs ++ (idsAll cs ++ ys) := by
  induction f with
  | hole => exact ⟨[], [], fun cs => (List.append_nil _).symm⟩
  | behindBraces u e piece f ih => exact ih
  | behind u sh inn f ih =>
      obtain ⟨xs, ys, heq⟩ := ih
      exact ⟨idsAll ((Passage.node [] sh inn (.text [])).components marker) ++ xs, ys, fun cs => by
        rw [nest, Component.idsAll_append, heq, List.append_assoc]⟩
  | within u sh f rest ih =>
      obtain ⟨xs, ys, heq⟩ := ih
      cases hm : sh.marker? marker with
      | none =>
          exact ⟨xs, ys ++ idsAll (rest.components marker), fun cs => by simp [nest, hm, heq]⟩
      | some i =>
          exact ⟨i :: xs, ys ++ idsAll (rest.components marker), fun cs => by
            simp [nest, hm, heq, Component.ids_eq]⟩

/-- A hole with another one in it. -/
def inside : Frame → Frame → Frame
  | hole, g => g
  | behindBraces u e piece f, g => behindBraces u e piece (f.inside g)
  | behind u shell inner f, g => behind u shell inner (f.inside g)
  | within u shell f rest, g => within u shell (f.inside g) rest

lemma nest_inside (f g : Frame) (marker : String) (cs : List Component) :
    (f.inside g).nest marker cs = f.nest marker (g.nest marker cs) := by
  induction f with
  | hole => rfl
  | behindBraces u e piece f ih => exact ih
  | behind u sh inn f ih => rw [inside, nest, ih, nest]
  | within u sh f rest ih => rw [inside, nest, ih, nest]

/-- A tree in a hole is the one that is changed if its id does not stand around the hole. -/
lemma modifyAll?_nest {g : Component → Component} (hid : id ∉ idsAll (f.nest marker []))
    (h : modifyAll? id g cs = some ds) :
    modifyAll? id g (f.nest marker cs) = some (f.nest marker ds) := by
  induction f with
  | hole => exact h
  | behindBraces u e piece f ih => exact ih hid
  | behind u sh inn f ih =>
      rw [nest, Component.idsAll_append, List.mem_append, not_or] at hid
      rw [nest, Component.modifyAll?_append, Component.modifyAll?_eq_none_iff.mpr hid.1, ih hid.2]
      rfl
  | within u sh f rest ih =>
      rw [nest, Component.idsAll_append, List.mem_append, not_or] at hid
      rw [nest, nest, Component.modifyAll?_append]
      cases hm : sh.marker? marker with
      | none =>
          rw [hm] at hid
          simp only [ih hid.1]
      | some i =>
          rw [hm] at hid
          simp only [Component.idsAll_cons, Component.idsAll_nil, Component.ids_eq, List.append_nil,
            List.mem_cons, not_or] at hid
          have hne : i ≠ id := fun h => hid.1.1 h.symm
          simp [Component.modifyAll?_cons, hne, ih hid.1.2]

/-- A tree in a hole is the one that is lost if its id does not stand around the hole. -/
lemma prunedAll_nest (hid : id ∉ idsAll (f.nest marker [])) (cs : List Component) :
    prunedAll (· = id) (f.nest marker cs) = f.nest marker (prunedAll (· = id) cs) := by
  induction f with
  | hole => rfl
  | behindBraces u e piece f ih => exact ih hid
  | behind u sh inn f ih =>
      rw [nest, Component.idsAll_append, List.mem_append, not_or] at hid
      rw [nest, Component.prunedAll_append, Component.prunedAll_of_notMem hid.1, ih hid.2, nest]
  | within u sh f rest ih =>
      rw [nest, Component.idsAll_append, List.mem_append, not_or] at hid
      rw [nest, nest, Component.prunedAll_append, Component.prunedAll_of_notMem hid.2]
      cases hm : sh.marker? marker with
      | none =>
          rw [hm] at hid
          simp only [ih hid.1]
      | some i =>
          rw [hm] at hid
          simp only [Component.idsAll_cons, Component.idsAll_nil, Component.ids_eq, List.append_nil,
            List.mem_cons, not_or] at hid
          have hne : i ≠ id := fun h => hid.1.1 h.symm
          simp [Component.prunedAll_cons, hne, Component.pruned_eq, ih hid.1.2]

/-- The trees in a hole are among those around it. -/
lemma nodesAll_subset_nest (f : Frame) (marker : String) (cs : List Component) :
    nodesAll cs ⊆ nodesAll (f.nest marker cs) := by
  induction f with
  | hole => exact fun _ h => h
  | behindBraces u e piece f ih => exact ih
  | behind u sh inn f ih =>
      intro d hd
      rw [nest, Component.nodesAll_append]
      exact List.mem_append_right _ (ih hd)
  | within u sh f rest ih =>
      intro d hd
      rw [nest, Component.nodesAll_append]
      refine List.mem_append_left _ ?_
      cases sh.marker? marker with
      | none => exact ih hd
      | some i =>
          rw [Component.nodesAll_cons]
          exact List.mem_cons_of_mem _ (List.mem_append_left _ (ih hd))

/-- A tree with an id that does not stand around a hole is one in it. -/
lemma mem_nodesAll_of_nest {d : Component} (hid : d.id ∉ idsAll (f.nest marker []))
    (h : d ∈ nodesAll (f.nest marker cs)) : d ∈ nodesAll cs := by
  induction f with
  | hole => exact h
  | behindBraces u e piece f ih => exact ih hid h
  | behind u sh inn f ih =>
      rw [nest, Component.idsAll_append, List.mem_append, not_or] at hid
      rw [nest, Component.nodesAll_append, List.mem_append] at h
      exact ih hid.2 (h.resolve_left fun h => hid.1 (Component.id_mem_idsAll_of_mem_nodesAll h))
  | within u sh f rest ih =>
      rw [nest, Component.idsAll_append, List.mem_append, not_or] at hid
      rw [nest, Component.nodesAll_append, List.mem_append] at h
      have h := h.resolve_right fun h => hid.2 (Component.id_mem_idsAll_of_mem_nodesAll h)
      cases hm : sh.marker? marker with
      | none =>
          rw [hm] at hid h
          exact ih hid.1 h
      | some i =>
          rw [hm] at hid h
          simp only [Component.idsAll_cons, Component.idsAll_nil, Component.ids_eq, List.append_nil,
            List.mem_cons, not_or] at hid
          simp only [Component.nodesAll_cons, Component.nodesAll_nil, List.append_nil,
            List.mem_cons] at h
          exact ih hid.1.2 (h.resolve_left fun h => hid.1.1 (congrArg Component.id h))

/-- Around a hole without marked tags about it the components stand side by side. -/
lemma exists_nest_eq (h : ∀ s ∈ f.shells, s.marker? marker = none) :
    ∃ xs ys, ∀ cs, f.nest marker cs = xs ++ (cs ++ ys) := by
  induction f with
  | hole => exact ⟨[], [], fun cs => (List.append_nil cs).symm⟩
  | behindBraces u e piece f ih => exact ih h
  | behind u sh inn f ih =>
      obtain ⟨xs, ys, heq⟩ := ih h
      exact ⟨(Passage.node [] sh inn (.text [])).components marker ++ xs, ys, fun cs => by
        rw [nest, heq, List.append_assoc]⟩
  | within u sh f rest ih =>
      rw [shells, List.forall_mem_cons] at h
      obtain ⟨xs, ys, heq⟩ := ih h.2
      exact ⟨xs, ys ++ rest.components marker, fun cs => by simp [nest, h.1, heq]⟩

end Frame

end CanvasSync.Markup
