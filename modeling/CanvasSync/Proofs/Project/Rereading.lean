import CanvasSync.Proofs.Project.Reconciliation

/-!
A file that is read again although nothing has changed.

* `Owners.setAll_eq_self`, `Files.insert_insert_self`: what is recorded already stays as it is;
* `State.foldl_adopt_eq`: components that stand at the end in order are taken over in their place;
* `State.stale_resync`: nothing is left to be forgotten;
* `State.carryOverAll_resync`: names and places that were carried over are carried over once more;
* `perform_resync_again`: the second time, nothing changes, whatever the first time had to tidy up.
-/

namespace CanvasSync.Project

open CanvasSync.Component
open CanvasSync.Storage (ChangeKind Files Path)

/-! ### What is recorded already -/

namespace Owners

variable {owners : Owners} {id i : String} {p q : Path} {ids : List String}

lemma set_eq_self (h : owners.lookup id = some p) : owners.set id p = owners := by
  induction owners with
  | nil => cases h
  | cons r owners ih =>
      obtain ⟨j, q⟩ := r
      rw [lookup_cons] at h
      rw [set]
      split_ifs with hj
      · rw [if_pos hj.symm] at h
        rw [hj, Option.some.inj h]
      · rw [if_neg (Ne.symm hj)] at h
        rw [ih h]

lemma setAll_eq_self (h : ∀ i ∈ ids, owners.lookup i = some p) : owners.setAll ids p = owners := by
  induction ids with
  | nil => rfl
  | cons id ids ih =>
      rw [List.forall_mem_cons] at h
      have hstep : owners.setAll (id :: ids) p = (owners.set id p).setAll ids p := rfl
      rw [hstep, set_eq_self h.1, ih h.2]

lemma mem_set (h : (i, q) ∈ owners.set id p) : (i, q) ∈ owners ∨ i = id := by
  induction owners with
  | nil => simp_all [set]
  | cons r owners ih =>
      obtain ⟨j, q'⟩ := r
      rw [set] at h
      split_ifs at h with hj
      · rcases List.mem_cons.mp h with heq | h
        · exact .inr (Prod.mk.inj heq).1
        · exact .inl (List.mem_cons_of_mem _ h)
      · rcases List.mem_cons.mp h with heq | h
        · exact .inl (heq ▸ List.mem_cons_self)
        · exact (ih h).imp_left (List.mem_cons_of_mem _)

/-- What is recorded once files are set was recorded before, or is of one of the components. -/
lemma mem_setAll (h : (i, q) ∈ owners.setAll ids p) : (i, q) ∈ owners ∨ i ∈ ids := by
  induction ids generalizing owners with
  | nil => exact .inl h
  | cons id ids ih =>
      have hstep : (i, q) ∈ (owners.set id p).setAll ids p := h
      rcases ih hstep with h | h
      · exact (mem_set h).imp_right fun hid => List.mem_cons.mpr (.inl hid)
      · exact .inr (List.mem_cons_of_mem id h)

end Owners

namespace State

variable {s t : State} {id i : String} {p q : Path} {c : Component} {cs : List Component}
  {found : List Component}

/-! ### Components taken over in their place -/

lemma takeOut?_append_cons (h : c.id ∉ cs.map Component.id) (ds : List Component) :
    takeOut? c.id (cs ++ c :: ds) = some (c, cs ++ ds) := by
  induction cs with
  | nil => simp [takeOut?]
  | cons d cs ih =>
      rw [List.map_cons, List.mem_cons, not_or] at h
      simp [takeOut?, Ne.symm h.1, ih h.2]

/-- An outermost component taken over goes to the end. -/
lemma adopt_eq {xs ys : List Component} (hs : s.components = xs ++ c :: ys)
    (hid : c.id ∉ (xs ++ ys).map Component.id) (hown : ∀ i ∈ c.ids, s.owners.lookup i = some p) :
    adopt p s c = { s with components := xs ++ ys ++ [c] } := by
  have hxs : c.id ∉ xs.map Component.id := fun h => hid (by simp_all)
  have hwithout : s.without c.id = { s with components := xs ++ ys } := by
    rw [without, remove?, hs, takeOut?_append_cons hxs]
    rfl
  rw [adopt, hwithout]
  simp only [Owners.setAll_eq_self hown, place_eq_append hid]

/-- Components that stand at the end in order stay as they are when they are taken over once more. -/
lemma foldl_adopt_eq {old new : List Component} (hs : s.components = old ++ (cs ++ new))
    (hids : ((cs ++ new).map Component.id).Nodup)
    (hold : ∀ c ∈ cs, c.id ∉ old.map Component.id)
    (hown : ∀ i ∈ idsAll cs, s.owners.lookup i = some p) :
    cs.foldl (adopt p) s = { s with components := old ++ (new ++ cs) } := by
  induction cs generalizing s new with
  | nil => cases s; simp_all
  | cons c cs ih =>
      rw [idsAll_cons, List.forall_mem_append] at hown
      rw [List.forall_mem_cons] at hold
      rw [List.cons_append, List.map_cons, List.nodup_cons] at hids
      have hid : c.id ∉ (old ++ (cs ++ new)).map Component.id := by
        rw [List.map_append, List.mem_append, not_or]
        exact ⟨hold.1, hids.1⟩
      have hstep : adopt p s c = { s with components := old ++ (cs ++ new) ++ [c] } :=
        adopt_eq hs hid hown.1
      have hperm : ((cs ++ (new ++ [c])).map Component.id).Perm ((c :: (cs ++ new)).map Component.id) := by
        rw [← List.append_assoc]
        exact (List.perm_append_singleton c _).map _
      have hrest : cs.foldl (adopt p) { s with components := old ++ (cs ++ new) ++ [c] }
          = { s with components := old ++ (new ++ [c] ++ cs) } :=
        ih (by simp) (hperm.nodup_iff.mpr (List.nodup_cons.mpr hids)) hold.2 hown.2
      rw [List.foldl_cons, hstep, hrest, List.append_assoc new, List.singleton_append]

/-! ### Nothing left to be forgotten -/

lemma owners_foldl_forget (s : State) (ids : List String) :
    (ids.foldl forget s).owners = s.owners.eraseAll ids := by
  induction ids generalizing s with
  | nil => simp [Owners.eraseAll]
  | cons id ids ih =>
      have hfirst : (s.forget id).owners = s.owners.eraseAll [id] := by
        rw [forget]
      rw [List.foldl_cons, ih, hfirst, Owners.eraseAll_eraseAll, List.singleton_append]

lemma mem_owners_foldl_adopt (h : (i, q) ∈ (cs.foldl (adopt p) s).owners) :
    (i, q) ∈ s.owners ∨ i ∈ idsAll cs := by
  induction cs generalizing s with
  | nil => exact .inl h
  | cons c cs ih =>
      rw [idsAll_cons, List.mem_append]
      rcases ih (s := adopt p s c) h with h | h
      · have h' : (i, q) ∈ (s.without c.id).owners.setAll c.ids p := h
        rw [(without_frame s c.id).1] at h'
        exact (Owners.mem_setAll h').imp_right .inl
      · exact .inr (.inr h)

/-- What is recorded for a file that was read again is in it. -/
lemma stale_resync (s : State) (p : Path) (source : Text) (found : List Component) :
    (s.resync p source found).1.stale p (idsAll found) = [] := by
  rw [stale, List.map_eq_nil_iff, List.filter_eq_nil_iff]
  rintro ⟨i, q⟩ hmem hstale
  simp only [Bool.and_eq_true, decide_eq_true_eq] at hstale
  obtain ⟨hq, hnew⟩ := hstale
  rw [resync_eq] at hmem
  rcases mem_owners_foldl_adopt hmem with hmem | hmem
  · -- recorded before, so it was forgotten if it is not in the file
    rw [dropOwned, owners_foldl_forget, Owners.eraseAll, List.mem_filter] at hmem
    have hgone : i ∈ s.stale p (idsAll found) :=
      List.mem_map.mpr ⟨(i, q), List.mem_filter.mpr ⟨hmem.1, by simp [hq, hnew]⟩, rfl⟩
    simp [hgone] at hmem
  · rw [idsAll_carryOverAll] at hmem
    exact hnew hmem

/-! ### Names and places carried over once more -/

lemma nodesAll_carryOverAll (s : State) (cs : List Component) :
    nodesAll (s.carryOverAll cs) = (nodesAll cs).map s.carryOver := by
  induction cs using forestInduction with
  | nil => rfl
  | cons c cs ihc ihcs =>
      have hchildren : (s.carryOver c).children = s.carryOverAll c.children := by
        cases c
        rfl
      rw [carryOverAll, nodesAll_cons, hchildren, ihc, ihcs]
      simp

/-- What is carried over to a component depends on what is known under its id. -/
lemma carryOverAll_congr (h : ∀ c ∈ nodesAll cs,
      ((t.find? c.id).map Component.name).getD c.name = ((s.find? c.id).map Component.name).getD c.name
        ∧ ((t.find? c.id).map Component.position).getD c.position
          = ((s.find? c.id).map Component.position).getD c.position) :
    t.carryOverAll cs = s.carryOverAll cs := by
  induction cs using forestInduction with
  | nil => rfl
  | cons c cs ihc ihcs =>
      obtain ⟨id, tag, name, props, children, position⟩ := c
      rw [nodesAll_cons, List.forall_mem_cons, List.forall_mem_append] at h
      obtain ⟨⟨hname, hposition⟩, hin, hrest⟩ := h
      rw [carryOverAll, carryOverAll, carryOver, carryOver, ihcs hrest]
      simp only at hname hposition ihc hin ⊢
      rw [ihc hin, hname, hposition]

/-- A component of the file that was new has the name and the place that it has in the file. -/
lemma find?_reread_of_new {d : Component} (hfound : (idsAll found).Nodup) (hc : c ∈ nodesAll found)
    (hnew : s.find? c.id = none) (hd : (s.reread p found).find? c.id = some d) :
    d.name = c.name ∧ d.position = c.position := by
  have hlabel : { d with children := [] } ∈ labelsAll (s.reread p found).components :=
    List.mem_map.mpr ⟨d, mem_nodesAll_of_findAll? hd, rfl⟩
  have hid := id_of_findAll? hd
  rcases List.mem_append.mp ((adopted_reread s p found).labels hlabel) with hmem | hmem
  · obtain ⟨e, he, heq⟩ := List.mem_map.mp hmem
    rw [nodesAll_carryOverAll] at he
    obtain ⟨x, hx, rfl⟩ := List.mem_map.mp he
    obtain ⟨id, tag, name, props, children, position⟩ := x
    simp only [carryOver, Component.mk.injEq] at heq
    obtain ⟨hxid, -, hname, -, -, hposition⟩ := heq
    obtain rfl := eq_of_mem_nodesAll hfound hc hx (hid.symm.trans hxid.symm)
    simp only at hnew
    rw [← hname, ← hposition, hnew]
    exact ⟨rfl, rfl⟩
  · -- a component from before would be known
    have hold := (forgotten_dropOwned s p (idsAll found)).labels hmem
    have hin : d.id ∈ idsAll s.components := by
      rw [idsAll_eq_map_labelsAll]
      exact List.mem_map.mpr ⟨_, hold, rfl⟩
    exact absurd (hid ▸ hin) (findAll?_eq_none_iff.mp hnew)

/-- Names and places that were carried over are carried over once more. -/
lemma carryOverAll_resync (hs : s.IdsDistinct) (hfound : (idsAll found).Nodup) (p : Path)
    (source : Text) :
    (s.resync p source found).1.carryOverAll found = s.carryOverAll found := by
  refine carryOverAll_congr fun c hc => ?_
  have hfind : (s.resync p source found).1.find? c.id = (s.reread p found).find? c.id := by
    rw [resync_eq]
    rfl
  have hin : c.id ∈ idsAll (s.reread p found).components := by
    have hcomponents := resync_components hs hfound p source
    rw [resync_eq] at hcomponents
    rw [hcomponents, idsAll_append, idsAll_carryOverAll, List.mem_append]
    exact .inr (ids_subset_of_mem_nodesAll hc (id_mem_ids c))
  obtain ⟨d, hd⟩ := Option.isSome_iff_exists.mp (findAll?_isSome_iff.mpr hin)
  rw [hfind, show (s.reread p found).find? c.id = some d from hd]
  cases hknown : s.find? c.id with
  | some e => exact (recalls_reread hs p found).find? hknown hd
  | none => exact find?_reread_of_new hfound hc hknown hd

/-! ### The file read twice -/

/-- **What is known is the same after a file is read again twice as after once.** -/
lemma resync_resync (hs : s.IdsDistinct) (hfound : (idsAll found).Nodup) (p : Path) (source : Text) :
    (s.resync p source found).1.resync p source found = s.resync p source found := by
  set t := (s.resync p source found).1 with ht
  have hcarried : t.carryOverAll found = s.carryOverAll found := carryOverAll_resync hs hfound p source
  have hdrop : t.dropOwned p (idsAll (s.carryOverAll found)) = t := by
    rw [idsAll_carryOverAll, dropOwned, stale_resync]
    rfl
  have hcomponents : t.components = prunedAll (· ∈ s.replaced p found) s.components
      ++ (s.carryOverAll found ++ []) := by
    rw [ht, resync_components hs hfound, List.append_nil]
  have hroots : (s.carryOverAll found ++ []).map Component.id = found.map Component.id := by
    rw [List.append_nil, map_id_carryOverAll]
  have hadopt : (s.carryOverAll found).foldl (adopt p) t = t := by
    rw [foldl_adopt_eq hcomponents]
    · rw [List.nil_append, ← List.append_nil (s.carryOverAll found), ← hcomponents]
    · rw [hroots]
      exact hfound.sublist (roots_sublist_idsAll found)
    · intro c hc hold
      have hdropped := not_drop_of_mem_prunedAll (roots_subset_idsAll _ hold)
      have hroot : c.id ∈ found.map Component.id := by
        rw [← map_id_carryOverAll s]
        exact List.mem_map_of_mem hc
      simp [replaced, hroot] at hdropped
    · intro i hi
      rw [ht, resync_eq]
      change (s.reread p found).owners.lookup i = some p
      rw [(adopted_reread s p found).lookup, if_pos hi]
  have hfiles : t.files.insert p source = t.files := by
    rw [ht, resync_eq]
    exact Files.insert_insert_self p source _
  rw [resync, hcarried, hdrop, hadopt, hfiles, ht]
  rfl

/-- A file that is read again leaves the root of the project. -/
lemma root_resync (s : State) (p : Path) (source : Text) (found : List Component) :
    (s.resync p source found).1.root = s.root := by
  have hwithout (s : State) (id : String) : (s.without id).root = s.root := by
    rw [without, remove?_eq_detach?]
    cases detach? id s.components <;> rfl
  have hforget (s : State) (ids : List String) : (ids.foldl forget s).root = s.root := by
    induction ids generalizing s with
    | nil => rfl
    | cons id ids ih => rw [List.foldl_cons, ih, forget, hwithout]
  have hadopt (s : State) (cs : List Component) : (cs.foldl (adopt p) s).root = s.root := by
    induction cs generalizing s with
    | nil => rfl
    | cons c cs ih => rw [List.foldl_cons, ih, adopt, hwithout]
  rw [resync_eq, reread, hadopt, dropOwned, hforget]

end State

/-- **Reading a file again changes nothing the second time**, as long as ids were distinct before the
first time and are so in the file: not what is known, whatever the first time moved, let go of or
left behind, nor what is told of it. -/
theorem perform_resync_again {s : Session} {p : Path} {source : Text} {found : List Component}
    (hs : s.state.IdsDistinct) (hfree : s.isLocked (s.resolve p) = false)
    (hread : withComponents s.disk s.config.style (s.resolve p) = .ok (source, found))
    (hfound : (idsAll found).Nodup) :
    ∃ e t, s.perform (.resync p .changed) = (.finished (.ok e), t)
      ∧ t.perform (.resync p .changed) = (.finished (.ok e), t) := by
  have hkind : ChangeKind.changed ≠ .removed := by decide
  refine ⟨_, _, perform_resync_eq hfree hkind hread, ?_⟩
  set t : Session := { s with state := (s.state.resync (s.resolve p) source found).1 } with ht
  have hresolve : t.resolve p = s.resolve p := by
    rw [Session.resolve, Session.resolve, ht]
    exact congrArg (Path.join · p) (State.root_resync s.state _ source found)
  have hfree' : t.isLocked (t.resolve p) = false := by
    rw [hresolve]
    exact hfree
  have hread' : withComponents t.disk t.config.style (t.resolve p) = .ok (source, found) := by
    rw [hresolve]
    exact hread
  rw [perform_resync_eq hfree' hkind hread', hresolve, State.resync_resync hs hfound]

/-- A page with two components side by side, and a card in another file with an icon in it. On the
disk the first component of the page has the second one and the icon within it. -/
def wrappedPage : Session :=
  let page : Path := ⟨"/p/page.tsx"⟩
  let card : Path := ⟨"/p/card.tsx"⟩
  let text := "<a data-component-id=\"a\"><b data-component-id=\"b\"/><i data-component-id=\"icon\"/></a>"
  { emptyProject with
    state :=
      { root := ⟨"/p"⟩
        components := [.ofTag "a" "a", .ofTag "b" "b",
          { Component.ofTag "card" "div" with children := [.ofTag "icon" "i"] }]
        files := []
        owners := [("a", page), ("b", page), ("card", card), ("icon", card)] }
    disk := .ofFiles [(page, text.toList)] }

/-- The second component and the icon stay where they were, too, and nothing moves any more when the
page is read once more. -/
theorem perform_resync_again_wrappedPage : wrappedPage.state.IdsDistinct
    ∧ ∃ source found e t, withComponents wrappedPage.disk wrappedPage.config.style ⟨"/p/page.tsx"⟩
        = .ok (source, found)
      ∧ (idsAll found).Nodup
      ∧ wrappedPage.perform (.resync ⟨"page.tsx"⟩ .changed) = (.finished (.ok e), t)
      ∧ t.perform (.resync ⟨"page.tsx"⟩ .changed) = (.finished (.ok e), t)
      ∧ idsAll t.state.components = ["b", "card", "icon", "a", "b", "icon"] := by
  have hs : wrappedPage.state.IdsDistinct := by decide
  obtain ⟨source, found, hread, hids⟩ := exists_of_toOption (s := wrappedPage)
    (p := ⟨"/p/page.tsx"⟩) (f := idsAll) (a := ["a", "b", "icon"]) (by decide +kernel)
  have hfound : (idsAll found).Nodup := by
    rw [hids]
    decide
  obtain ⟨e, t, hfirst, hagain⟩ :=
    perform_resync_again (p := ⟨"page.tsx"⟩) hs rfl hread hfound
  have hmoved : idsAll (wrappedPage.perform (.resync ⟨"page.tsx"⟩ .changed)).2.state.components
      = ["b", "card", "icon", "a", "b", "icon"] := by
    decide +kernel
  rw [hfirst] at hmoved
  exact ⟨hs, source, found, e, t, hread, hfound, hfirst, hagain, hmoved⟩

end CanvasSync.Project
