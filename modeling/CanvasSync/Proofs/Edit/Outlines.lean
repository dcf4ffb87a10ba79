import CanvasSync.Proofs.Edit.Changes
import CanvasSync.Proofs.Edit.Props

/-!
How the components of a page nest once it is edited.

* `isApart`: whether a component that is inserted has nothing marked around it;
* `rootMarker?`: the id of the root of a page (`rootMarker?_text`), which stays when others are
  removed;
* `exists_nest_insert`: a component that is inserted stands in one place, and all else nests as
  before;
* `outline_insert`: one that is apart comes to stand beside the outermost ones;
* `outline_setProps`, `exists_modifyAll?_setProps`: props that are set leave the nesting alone, and
  all components but one;
* `outline_remove`: a component that is removed takes those within it along, and no others.
-/

namespace CanvasSync.Edit

open CanvasSync.Component (idsAll modifyAll? outlineAll prunedAll)
open CanvasSync.Markup (Document Frame Page Passage Shell Style)

variable {p : Page} {style : Style} {id : String} {c : Component} {out : Text}

/-- Whether nothing marked is at the node that a component is inserted into, or around it. -/
def isApart (source : Text) (style : Style) (path : Option (List Nat)) : Bool :=
  match document source with
  | .ok d => (targetIndex? d path).all fun i =>
      (d.nearestFrom (Document.isMarked style.marker) i).isNone
  | .error _ => true

/-- The id that the first node of a source is marked with. -/
def rootMarker? (source : Text) (style : Style) : Option String :=
  (document source).toOption.bind fun d => d.entries.head?.bind fun e => e.node.quoted? style.marker

/-- The first node of a page is its root. -/
lemma rootMarker?_text (hp : p.IsProper) (style : Style) :
    rootMarker? p.text style = p.shell.marker? style.marker := by
  obtain ⟨s, hdocument, hplaced⟩ := Page.document_text hp
  have hholds := Document.holds_ofScript s
  rw [hplaced, Page.trees_passage] at hholds
  obtain ⟨e, he, hrow⟩ := Option.map_eq_some_iff.mp hholds.cons.1
  have hnode : e.node = p.shell.node p.inner (Text.size p.front) := congrArg Prod.fst hrow
  rw [rootMarker?, hdocument]
  simp [Except.toOption, List.head?_eq_getElem?, he, hnode, Shell.quoted?_node]

/-- An insertion has a node to go to. -/
lemma exists_targetIndex_of_insert {path : Option (List Nat)} (hp : p.IsProper)
    (h : insert p.text c path style = .ok out) :
    ∃ d i, document p.text = .ok d ∧ targetIndex? d path = some i := by
  obtain ⟨s, hdocument, -⟩ := Page.document_text hp
  rw [insert, hdocument] at h
  simp only [bind, Except.bind] at h
  cases htarget : insertionTarget (Document.ofScript s) path with
  | error e => simp [htarget] at h
  | ok target =>
      obtain ⟨i, -, hi, -⟩ := insertionTarget_eq_ok htarget
      exact ⟨_, i, hdocument, hi⟩

/-- The root of a page is marked in it. -/
lemma mem_idsAll_of_rootMarker (h : p.shell.marker? style.marker = some id) :
    id ∈ idsAll (p.passage.components style.marker) := by
  rw [Page.passage, Passage.components, h]
  exact List.mem_cons_self

/-- **A component that is inserted stands in one hole of the page**, behind what was there, and all
else nests as before. The root of the page is marked as before. -/
lemma exists_nest_insert {path : Option (List Nat)} (hstyle : style.IsProper) (hp : p.IsProper)
    (hc : c.isPrintable) (hids : ∀ i ∈ c.ids, Text.isOneLine i.toList)
    (h : insert p.text c path style = .ok out) :
    ∃ (q : Page) (f : Frame) (cs : List Component), q.IsProper ∧ q.text = out
      ∧ q.shell.marker? style.marker = p.shell.marker? style.marker
      ∧ outlineAll (p.passage.components style.marker) = outlineAll (f.nest style.marker cs)
      ∧ outlineAll (q.passage.components style.marker)
        = outlineAll (f.nest style.marker (cs ++ [c])) := by
  obtain ⟨f, t, shell, inner, inner', rest, q, hpassage, happends, hq, htext, hqpassage, -⟩ :=
    exists_insert hp hstyle (Component.printable_of_isPrintable hc) h
  -- the hole between the tags of the node
  set g : Frame := .within t shell .hole rest with hg
  have hopened (cs : List Component) :
      (Frame.within t shell.opened .hole rest).nest style.marker cs = g.nest style.marker cs := by
    simp [hg, Frame.nest, Shell.fields]
  have hroot : q.shell.marker? style.marker = p.shell.marker? style.marker := by
    rcases Page.fill_cases hpassage with ⟨rfl, -, rfl, -⟩ | ⟨f', rfl, -⟩
    · simp only [Page.passage, Frame.fill, Passage.node.injEq] at hqpassage
      rw [hqpassage.2.1, Shell.marker?_opened]
    · simp only [Page.passage, Frame.fill, Passage.node.injEq] at hqpassage
      rw [hqpassage.2.1]
  refine ⟨q, f.inside g, inner.components style.marker, hq, htext, hroot, ?_, ?_⟩
  · have hfill : p.passage = f.fill (g.fill inner) := hpassage
    rw [hfill, Frame.outlineAll_components_fill, Frame.nest_inside]
    exact Frame.outlineAll_nest (Frame.outlineAll_components_fill g style.marker inner)
  · have hfill : q.passage = f.fill ((Frame.within t shell.opened .hole rest).fill inner') := hqpassage
    rw [hfill, Frame.outlineAll_components_fill, Frame.nest_inside]
    refine Frame.outlineAll_nest ?_
    rw [Frame.outlineAll_components_fill, hopened]
    exact Frame.outlineAll_nest (happends.outline hids)

/-- A component that is inserted where nothing marked is around it stands beside the outermost
components. -/
lemma outline_insert {path : Option (List Nat)} (hstyle : style.IsProper) (hp : p.IsProper)
    (hc : c.isPrintable) (hids : ∀ i ∈ c.ids, Text.isOneLine i.toList)
    (hapart : isApart p.text style path) (h : insert p.text c path style = .ok out) :
    ∃ q : Page, q.IsProper ∧ q.text = out
      ∧ (outlineAll (q.passage.components style.marker)).Perm
          (outlineAll (p.passage.components style.marker ++ [c])) := by
  obtain ⟨f, t, shell, inner, inner', rest, q, hpassage, happends, hq, htext, hqpassage, hnear⟩ :=
    exists_insert hp hstyle (Component.printable_of_isPrintable hc) h
  refine ⟨q, hq, htext, ?_⟩
  have hmarkers : ∀ s ∈ shell :: f.shells, s.marker? style.marker = none := by
    obtain ⟨d, i, hdocument, hi⟩ := exists_targetIndex_of_insert hp h
    rw [isApart, hdocument] at hapart
    exact hnear d i hdocument hi (by simpa [hi] using hapart)
  rw [List.forall_mem_cons] at hmarkers
  obtain ⟨xs, ys, hnest⟩ := Frame.exists_nest_eq (f := f) hmarkers.2
  have hold : p.passage.components style.marker
      = xs ++ (inner.components style.marker ++ (rest.components style.marker ++ ys)) := by
    rw [hpassage, Frame.components_fill_node, hnest, Passage.components, hmarkers.1]
    simp
  have hnew : q.passage.components style.marker
      = xs ++ (inner'.components style.marker ++ (rest.components style.marker ++ ys)) := by
    rw [hqpassage, Frame.components_fill_node, hnest, Passage.components, Shell.marker?_opened,
      hmarkers.1]
    simp
  rw [hold, hnew]
  simp only [Component.outlineAll_append, happends.outline hids, List.append_assoc]
  have hbehind : (outlineAll [c] ++ (outlineAll (rest.components style.marker) ++ outlineAll ys)).Perm
      (outlineAll (rest.components style.marker) ++ (outlineAll ys ++ outlineAll [c])) := by
    calc List.Perm (outlineAll [c] ++ (outlineAll (rest.components style.marker) ++ outlineAll ys))
          (outlineAll (rest.components style.marker) ++ outlineAll ys ++ outlineAll [c]) :=
        List.perm_append_comm
      _ = outlineAll (rest.components style.marker) ++ (outlineAll ys ++ outlineAll [c]) :=
        List.append_assoc ..
  exact (hbehind.append_left _).append_left _

/-- Props that are set leave the nesting of the components alone. -/
lemma outline_setProps {props : Json.Fields} (hp : p.IsProper)
    (hfits : (Change.setProps id props).Fits style p)
    (h : setProps p.text id props style = .ok out) :
    ∃ q : Page, q.IsProper ∧ q.text = out
      ∧ outlineAll (q.passage.components style.marker)
        = outlineAll (p.passage.components style.marker) := by
  obtain ⟨hkeys, hprops, hroot⟩ := hfits
  have hmarker : ∀ c ∈ props.filter fun c => c.1 ≠ style.marker, c.1 ≠ style.marker :=
    fun c hc => by simpa using List.of_mem_filter hc
  rw [setProps_filter] at h
  obtain ⟨f, t, shell, inner, rest, q, hpassage, hid, hq, htext, hqpassage, hnested, -⟩ :=
    exists_setProps hp (hkeys.sublist (List.filter_sublist.map _)) hmarker
      (fun c hc => hprops c (List.mem_of_mem_filter hc)) hroot h
  refine ⟨q, hq, htext, ?_⟩
  rw [hpassage, hqpassage, Frame.components_fill_node, Frame.components_fill_node]
  refine Frame.outlineAll_nest ?_
  rw [Passage.components, Passage.components, Markup.marker?_updated hmarker, hid,
    Markup.components_updated hnested]
  simp [Component.outline_eq, Component.ofTag]

/-- Props that are set in a page change the props of one component only. -/
lemma exists_modifyAll?_setProps {props : Json.Fields} (hp : p.IsProper)
    (hfits : (Change.setProps id props).Fits style p)
    (honce : (idsAll (p.passage.components style.marker)).count id ≤ 1)
    (h : setProps p.text id props style = .ok out) :
    ∃ (q : Page) (ps : Json.Fields), q.IsProper ∧ q.text = out
      ∧ modifyAll? id (fun d => { d with props := ps }) (p.passage.components style.marker)
        = some (q.passage.components style.marker) := by
  obtain ⟨hkeys, hprops, hroot⟩ := hfits
  have hmarker : ∀ c ∈ props.filter fun c => c.1 ≠ style.marker, c.1 ≠ style.marker :=
    fun c hc => by simpa using List.of_mem_filter hc
  rw [setProps_filter] at h
  obtain ⟨f, t, shell, inner, rest, q, hpassage, hid, hq, htext, hqpassage, hnested, -⟩ :=
    exists_setProps hp (hkeys.sublist (List.filter_sublist.map _)) hmarker
      (fun c hc => hprops c (List.mem_of_mem_filter hc)) hroot h
  set changes := props.filter fun c => c.1 ≠ style.marker
  refine ⟨q, (shell.updated changes).props style.marker (inner.updated changes), hq, htext, ?_⟩
  have hold : (Passage.node t shell inner rest).components style.marker
      = ⟨id, String.ofList shell.name, String.ofList shell.name, shell.props style.marker inner,
          inner.components style.marker, .origin⟩ :: rest.components style.marker := by
    rw [Passage.components, hid]
    rfl
  have hnew : (Passage.node t (shell.updated changes) (inner.updated changes)
        rest).components style.marker
      = ⟨id, String.ofList shell.name, String.ofList shell.name,
          (shell.updated changes).props style.marker (inner.updated changes),
          inner.components style.marker, .origin⟩ :: rest.components style.marker := by
    rw [Passage.components, Markup.marker?_updated hmarker, hid, Markup.name_updated,
      Markup.components_updated hnested]
    rfl
  rw [hpassage, Frame.components_fill_node, hold] at honce ⊢
  rw [hqpassage, Frame.components_fill_node, hnew]
  have haround : id ∉ idsAll (f.nest style.marker []) := by
    rw [Frame.count_idsAll_nest, Component.idsAll_cons, Component.ids_eq, List.cons_append,
      List.count_cons_self] at honce
    exact List.count_eq_zero.mp (by omega)
  refine Frame.modifyAll?_nest haround ?_
  rw [Component.modifyAll?_cons, if_pos rfl]

/-- A component that is removed takes those within it along, and no others. -/
lemma outline_remove (hp : p.IsProper) (hfits : (Change.remove id).Fits style p)
    (honce : (idsAll (p.passage.components style.marker)).count id ≤ 1)
    (h : remove p.text id style = .ok out) :
    ∃ q : Page, q.IsProper ∧ q.text = out
      ∧ outlineAll (q.passage.components style.marker)
        = prunedAll (· = id) (outlineAll (p.passage.components style.marker)) := by
  obtain ⟨f, t, shell, inner, rest, u, q, hpassage, hid, hq, htext, hqpassage⟩ :=
    exists_remove hp hfits h
  refine ⟨q, hq, htext, ?_⟩
  obtain ⟨gone, hgone, hnode⟩ : ∃ gone : Component, gone.id = id
      ∧ (Passage.node t shell inner rest).components style.marker
        = gone :: rest.components style.marker := by
    rw [Passage.components, hid]
    exact ⟨_, rfl, rfl⟩
  rw [hpassage, Frame.components_fill_node, hnode] at honce ⊢
  -- the id stands in the node only
  rw [Frame.count_idsAll_nest, Component.idsAll_cons, Component.ids_eq, hgone, List.cons_append,
    List.count_cons_self, List.count_append] at honce
  have haround : id ∉ idsAll (f.nest style.marker []) := List.count_eq_zero.mp (by omega)
  have hrest : id ∉ idsAll (rest.components style.marker) := List.count_eq_zero.mp (by omega)
  rw [← Component.outlineAll_prunedAll, Frame.prunedAll_nest haround, Component.prunedAll_cons,
    if_pos (by simpa using hgone), Component.prunedAll_of_notMem hrest, hqpassage,
    Frame.outlineAll_components_fill, Passage.components_withFirst]

end CanvasSync.Edit
