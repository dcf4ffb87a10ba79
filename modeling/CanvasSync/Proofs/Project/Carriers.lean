import CanvasSync.Proofs.Project.Ownership
import CanvasSync.Proofs.Project.Presence

/-!
How often an id is marked in the file that a component with it is added to.

* `Edit.Reaches`: what edits by an id make of a text in which it is marked once;
* `perform_add_carriers`: each id of a component that is added is marked once more than before, in one
  place with the others; so it is marked once if it was not in the file, and then later edits reach
  the component that was added;
* `perform_add_repeated`: an id that is marked in the file but not known is marked twice once a
  component with it is added, and the older one is removed by it.
-/

namespace CanvasSync

open CanvasSync.Component (idsAll modifyAll? outlineAll prunedAll)
open CanvasSync.Markup (Frame Page Style)
open CanvasSync.Storage (Disk Path)

namespace Edit

variable {p : Page} {style : Style} {i : String}

/-- Edits of a text by an id reach its component among some, and no other: the tree of the id is
removed, and the props of the id are set. -/
structure Reaches (style : Style) (source : Text) (cs : List Component) (i : String) : Prop where
  removed : ∀ out, remove source i style = .ok out → ∃ ds, extract out style = .ok ds
    ∧ outlineAll ds = outlineAll (prunedAll (· = i) cs)
  updated : ∀ props out, (props.map Prod.fst).Nodup
    → (∀ c ∈ props, Script.isAttributeName c.1.toList ∧ c.2.isPlain)
    → setProps source i props style = .ok out → ∃ ds ps, extract out style = .ok ds
      ∧ modifyAll? i (fun d => { d with props := ps }) cs = some ds

/-- Edits by an id that is marked once, and not at the root of the page, reach its component. -/
lemma reaches_of_count (hp : p.IsProper) (hroot : p.shell.marker? style.marker ≠ some i)
    (honce : (idsAll (p.passage.components style.marker)).count i ≤ 1) :
    Reaches style p.text (p.passage.components style.marker) i := by
  refine ⟨fun out h => ?_, fun props out hkeys hprops h => ?_⟩
  · obtain ⟨q, hq, rfl, hout⟩ := outline_remove hp hroot honce h
    exact ⟨_, Page.extract_text hq style, by rw [hout, Component.outlineAll_prunedAll]⟩
  · obtain ⟨q, ps, hq, rfl, hmodify⟩ := exists_modifyAll?_setProps hp
      ⟨hkeys, hprops, fun hid => absurd hid hroot⟩ honce h
    exact ⟨_, ps, Page.extract_text hq style, hmodify⟩

end Edit

namespace Project

variable {s t : Session} {c : Component} {e : Event}

/-- **Each id of a component that is added is marked once more than before**, whatever is known and
whatever is in progress: the ids of the component stand in one place among those that were marked in
the file. So each is marked once exactly if it was not marked before, and then edits by it reach the
component that was added, and leave all that was in the file. -/
theorem perform_add_carriers {file : Option Path} {target : Option (List Nat)} {q : Page}
    (hstyle : s.config.style.IsProper) (hq : q.IsProper)
    (hdisk : s.disk.get? (s.target file) = some q.text) (hc : c.isPrintable)
    (hids : ∀ i ∈ c.ids, Text.isOneLine i.toList)
    (hdone : s.perform (.add c file target) = (.finished (.ok e), t)) :
    ∃ code old new xs ys, t.disk.get? (s.target file) = some code
      ∧ Edit.extract q.text s.config.style = .ok old
      ∧ Edit.extract code s.config.style = .ok new
      ∧ idsAll old = xs ++ ys ∧ idsAll new = xs ++ (c.ids ++ ys)
      ∧ ∀ i ∈ c.ids, ((idsAll new).count i = 1 ↔ i ∉ idsAll old)
        ∧ (i ∉ idsAll old → Edit.Reaches s.config.style code new i
          ∧ idsAll (prunedAll (· = i) new) = xs ++ (idsAll (prunedAll (· = i) [c]) ++ ys)) := by
  obtain ⟨-, -, ⟨_, _, _, hdue, _⟩ |
    ⟨p, u, text, code, due, hbegin, htext, hcode, -, -, hwritten⟩⟩ :=
    (settled_of_perform hdone).of_change rfl
  · cases hdue
  obtain ⟨hp, hclaim⟩ := Call.begin_add hbegin
  obtain rfl := Option.some.inj hp
  obtain ⟨-, hnodup, -⟩ := Session.claim_eq_ok hclaim
  obtain rfl := Option.some.inj (htext.symm.trans hdisk)
  obtain ⟨q', f, cs, hq', rfl, hroot, hold, hnew⟩ := Edit.exists_nest_insert hstyle hq hc hids hcode
  obtain ⟨xs, ys, hnest⟩ := Frame.exists_idsAll_nest f s.config.style.marker
  have hidsOld : idsAll (q.passage.components s.config.style.marker) = xs ++ idsAll cs ++ ys := by
    rw [← Component.idsAll_outlineAll, hold, Component.idsAll_outlineAll, hnest, List.append_assoc]
  have hidsNew : idsAll (q'.passage.components s.config.style.marker)
      = xs ++ idsAll cs ++ (c.ids ++ ys) := by
    rw [← Component.idsAll_outlineAll, hnew, Component.idsAll_outlineAll, hnest]
    simp
  refine ⟨_, _, _, xs ++ idsAll cs, ys, by rw [hwritten, if_pos (Path.same_self _)],
    Page.extract_text hq _, Page.extract_text hq' _, hidsOld, hidsNew, fun i hi => ?_⟩
  have hcount : (idsAll (q'.passage.components s.config.style.marker)).count i
      = (idsAll (q.passage.components s.config.style.marker)).count i + 1 := by
    have hone : c.ids.count i = 1 := List.count_eq_one_of_mem hnodup hi
    simp only [hidsOld, hidsNew, List.count_append, hone]
    omega
  refine ⟨by rw [hcount, Nat.add_eq_right, List.count_eq_zero], fun hfree => ⟨?_, ?_⟩⟩
  · refine Edit.reaches_of_count hq' (fun hmarked => hfree ?_) ?_
    · exact Edit.mem_idsAll_of_rootMarker (hroot ▸ hmarked)
    · rw [hcount, List.count_eq_zero.mpr hfree]
  · -- what stood around the hole, and in it before, stays
    rw [hidsOld, List.mem_append, List.mem_append, not_or, not_or] at hfree
    have haround : i ∉ idsAll (f.nest s.config.style.marker []) := by
      rw [hnest]
      simp [hfree]
    have hpruned : outlineAll (prunedAll (· = i) (q'.passage.components s.config.style.marker))
        = outlineAll (f.nest s.config.style.marker (cs ++ prunedAll (· = i) [c])) := by
      rw [Component.outlineAll_prunedAll, hnew, ← Component.outlineAll_prunedAll,
        Frame.prunedAll_nest haround, Component.prunedAll_append,
        Component.prunedAll_of_notMem hfree.1.2]
    rw [← Component.idsAll_outlineAll, hpruned, Component.idsAll_outlineAll, hnest]
    simp

/-- A badge is added to a heading, is marked once, and is reached by later edits. -/
theorem perform_add_carriers_headingProject :
    let call := Call.add (.ofTag "badge" "span") (some ⟨"page.tsx"⟩) (some [0])
    ∃ e t code new, headingProject.perform call = (.finished (.ok e), t)
      ∧ t.disk.get? ⟨"/p/page.tsx"⟩ = some code ∧ Edit.extract code .standard = .ok new
      ∧ (idsAll new).count "badge" = 1 ∧ Edit.Reaches .standard code new "badge" := by
  intro call
  have hstyle : headingProject.config.style.IsProper := Markup.Style.isProper_standard
  have hdisk : headingProject.disk.get? (headingProject.target (some ⟨"page.tsx"⟩))
      = some Edit.headingPage.text := rfl
  have hsome : (headingProject.perform call).1.event?.isSome := by decide +kernel
  obtain ⟨e, t, hdone⟩ := exists_of_event?_isSome hsome
  obtain ⟨code, old, new, xs, ys, hcode, hold, hnew, -, -, hall⟩ :=
    perform_add_carriers hstyle Edit.isProper_headingPage hdisk (by decide +kernel) (by decide) hdone
  obtain ⟨hone, hreached⟩ := hall "badge" (by decide)
  have hfree : "badge" ∉ idsAll old := by
    obtain rfl := Except.ok.inj ((Page.extract_text Edit.isProper_headingPage _).symm.trans hold)
    decide
  exact ⟨e, t, code, new, hdone, hcode, hnew, hone.mpr hfree, (hreached hfree).1⟩

/-- An id that stands in a file of which nothing is known is marked twice once a component with it is
added, and it is the older element that is removed by it. So it is with one that an update has taken
away from what is known. -/
theorem perform_add_repeated :
    let page : Path := ⟨"/p/page.tsx"⟩
    let shown (s : Session) : Option (List (String × String)) :=
      (s.disk.get? page).bind fun text => (Edit.extract text s.config.style).toOption.map fun cs =>
        (Component.nodesAll cs).map fun c => (c.id, c.tag)
    let added := headingProject.perform (.add (.ofTag "title" "p") (some page) none)
    let removed := added.2.perform (.remove "title")
    let read := (Session.start .standard ⟨"/p"⟩ nestedPage).perform (.resync page .changed)
    let emptied := read.2.perform (.update "a" ⟨none, none, none, some []⟩)
    let refilled := emptied.2.perform (.add (.ofTag "b" "i") (some page) none)
    added.1.event?.isSome ∧ shown added.2 = some [("title", "h1"), ("title", "p")]
      ∧ removed.1.event?.isSome ∧ shown removed.2 = some [("title", "p")]
      ∧ refilled.1.event?.isSome ∧ shown refilled.2 = some [("a", "a"), ("b", "b"), ("b", "i")] := by
  decide +kernel

end Project

end CanvasSync
