import CanvasSync.Proofs.Markup.Updates
import CanvasSync.Proofs.Project.Identity

/-!
Updates that are not written to a file.

An update without props changes what is known about a component, and nothing on the disk. The markup
of the components that are known stays what it was exactly if the update puts nothing else within the
component.

* `perform_update_unwritten`: so does every such update of every component that is known;
* `render_apply_ne`: an update of what is within a component is not written either.
-/

namespace CanvasSync.Project

open CanvasSync.Component (findAll? modifyAll?)
open CanvasSync.Markup (KeepsInner Style render renderAll)

variable {s : Session} {id : String} {u : Update} {c : Component}

/-- An update of a component that is known succeeds if it changes no props, and touches neither the
disk nor what is known about files. -/
lemma perform_update_of_not_touchesSource (hu : u.touchesSource = false)
    (hfind : s.state.find? id = some c) :
    ∃ cs, modifyAll? id u.apply s.state.components = some cs
      ∧ s.perform (.update id u) = (.finished (.ok (.updated (u.apply c) none)),
          { s with state := { s.state with components := cs } }) := by
  have hhas : s.state.has id := by rw [State.has, hfind]; rfl
  have hbegin : (Call.update id u).begin s = .ok (none, s) := by
    rw [Call.begin, hu, if_neg (by decide), if_pos hhas]
  have hsome : (modifyAll? id u.apply s.state.components).isSome :=
    Component.modifyAll?_isSome_iff.mpr (State.has_iff.mp hhas)
  obtain ⟨cs, hcs⟩ := Option.isSome_iff_exists.mp hsome
  have hfound : findAll? id cs = some (u.apply c) := by
    have hid (c : Component) : (u.apply c).id = c.id := rfl
    rw [(Component.modifies_of_modifyAll? hcs).findAll?_eq hid]
    exact congrArg (Option.map u.apply) hfind
  have hupdate : s.state.update? id u none = some { s.state with components := cs } := by
    rw [State.update?, hcs]
    rfl
  have hcommit : (Commit.update id u none).apply s.state
      = .ok ({ s.state with components := cs }, .updated (u.apply c) none) := by
    rw [Commit.apply, hupdate]
    simp [State.find?, hfound]
  obtain ⟨e, t, hperform, hsettled⟩ := perform_of_begin_none hbegin
  refine ⟨cs, hcs, ?_⟩
  cases hsettled with
  | unread _ hdue happly =>
      obtain rfl := Option.some.inj hdue
      rw [hcommit] at happly
      cases happly
      exact hperform
  | read hb =>
      rw [hbegin] at hb
      cases hb
  | written hb =>
      rw [hbegin] at hb
      cases hb

/-- **Updates without props are seen in the markup only where they put something else within a
component.** The component is written as before exactly if what is within it is. The same holds of
all components that are known once one of them is updated, which always succeeds and leaves the disk,
the texts of the files and the owners as they were. -/
theorem perform_update_unwritten (hu : u.touchesSource = false) :
    (∀ (style : Style) (depth : Nat) (c : Component), c.props.isRising →
      (render style depth (u.apply c) = render style depth c ↔ KeepsInner u style depth c))
    ∧ ∀ (s : Session) (id : String) (c : Component), s.state.find? id = some c →
        c.props.isRising → ∃ cs depth, modifyAll? id u.apply s.state.components = some cs
          ∧ s.perform (.update id u) = (.finished (.ok (.updated (u.apply c) none)),
              { s with state := { s.state with components := cs } })
          ∧ ∀ style, renderAll style cs = renderAll style s.state.components
              ↔ KeepsInner u style depth c := by
  constructor
  · intro style depth c hprops
    exact Markup.render_apply_iff hu hprops
  · intro s id c hfind hprops
    obtain ⟨cs, hcs, hperform⟩ := perform_update_of_not_touchesSource hu hfind
    have hmodifies := Component.modifies_of_modifyAll? hcs
    obtain ⟨d, k, hd, hlines⟩ := Markup.exists_renderLines_eq_iff hmodifies
    obtain rfl : c = d := Option.some.inj (hfind.symm.trans hd)
    obtain ⟨depth, hall⟩ := Markup.exists_renderAll_eq_iff hmodifies.length_eq
    refine ⟨cs, depth + k, hcs, hperform, fun style => ?_⟩
    rw [hall, hlines, Markup.render_apply_iff hu hprops]

/-- A component within another one is given a new name and a new place: its markup and that of the
whole page stay as they are, and it is known by its new name. -/
theorem perform_update_unwritten_rename :
    let label : Component := { Component.ofTag "label" "span" with
      props := [("children", .string "Open")] }
    let card : Component := { Component.ofTag "card" "div" with children := [label] }
    let s := { emptyProject with state := { emptyProject.state with components := [card] } }
    let u : Update := ⟨some "Label", some [], some .origin, none⟩
    ∃ cs, s.perform (.update "label" u) = (.finished (.ok (.updated (u.apply label) none)),
        { s with state := { s.state with components := cs } })
      ∧ (u.apply label).name = "Label"
      ∧ ∀ style depth, render style depth (u.apply label) = render style depth label
        ∧ renderAll style cs = renderAll style [card] := by
  intro label card s u
  have hkeeps (style : Style) (depth : Nat) : KeepsInner u style depth label := fun _ h => nomatch h
  obtain ⟨hnode, hsession⟩ := perform_update_unwritten (u := u) (by decide)
  obtain ⟨cs, k, -, hperform, hall⟩ := hsession s "label" label rfl (by decide)
  exact ⟨cs, hperform, rfl, fun style depth =>
    ⟨(hnode style depth label (by decide)).mpr (hkeeps style depth),
      (hall style).mpr (hkeeps style k)⟩⟩

/-- What an update puts within a component is not written either, though it is seen in the markup. -/
theorem render_apply_ne :
    let card := Component.ofTag "card" "div"
    let u : Update := ⟨none, none, none, some [.ofTag "label" "span"]⟩
    u.touchesSource = false ∧ renderAll .standard [u.apply card] ≠ renderAll .standard [card] := by
  decide +kernel

end CanvasSync.Project
