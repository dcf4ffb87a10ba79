import CanvasSync.Project.State
import CanvasSync.Proofs.Component.Forest

/-!
What becomes of the components of a project when a file is read again.

* `foldl_forget_eq`, `dropOwned_eq`: the trees of the ids that are no longer in the file are pruned;
* `resync_components`: what is kept, pruned of the outermost ids of the file too, with the
  components of the file behind it;
* `resync_idsDistinct_iff`: ids stay distinct exactly if no component of the file that is nested in
  another one is kept where it was before (`Releases`).
-/

namespace CanvasSync.Project

open CanvasSync.Component
open CanvasSync.Storage (Path)

/-- Erasing twice erases the ids of either time. -/
lemma Owners.eraseAll_eraseAll (ids ids' : List String) (owners : Owners) :
    (owners.eraseAll ids).eraseAll ids' = owners.eraseAll (ids ++ ids') := by
  rw [eraseAll, eraseAll, eraseAll, List.filter_filter]
  refine List.filter_congr fun r _ => ?_
  simp [Bool.and_comm]

namespace State

variable {s : State} {id : String} {p : Path} {found : List Component}

/-- Every id is that of one component only, within others or not. -/
def IdsDistinct (s : State) : Prop := (idsAll s.components).Nodup

instance (s : State) : Decidable s.IdsDistinct := inferInstanceAs (Decidable (List.Nodup _))

/-! ### Components taken out -/

lemma remove?_eq_detach? (s : State) (id : String) :
    s.remove? id
      = (detach? id s.components).map fun r => (r.1, { s with components := r.2 }) := by
  cases h : takeOut? id s.components with
  | some r => simp [remove?, detach?, h]
  | none => simp [remove?, detach?, h]

/-- Without a component whose id stands once, the forest is pruned of it. -/
lemma without_eq (h : (idsAll s.components).count id ≤ 1) :
    s.without id = { s with components := prunedAll (· = id) s.components } := by
  rw [without, remove?_eq_detach?]
  by_cases hid : id ∈ idsAll s.components
  · obtain ⟨c, hc, -⟩ := detach?_of_mem hid h
    simp [hc]
  · simp [detach?_eq_none hid, prunedAll_of_notMem hid]

/-- A component whose id stands once is forgotten with all that is within it. -/
lemma forget_eq (h : (idsAll s.components).count id ≤ 1) : s.forget id
    = { s with
        components := prunedAll (· = id) s.components
        owners := s.owners.eraseAll [id] } := by
  rw [forget, without_eq h]

/-- **Where ids are distinct, components that are forgotten one after the other leave the forest
without their trees.** -/
theorem foldl_forget_eq (h : s.IdsDistinct) (ids : List String) : ids.foldl forget s
    = { s with
        components := prunedAll (· ∈ ids) s.components
        owners := s.owners.eraseAll ids } := by
  induction ids generalizing s with
  | nil => simp [prunedAll_eq_self, Owners.eraseAll]
  | cons id ids ih =>
      have hfirst : s.forget id = _ := forget_eq (List.nodup_iff_count_le_one.mp h id)
      have hdistinct : (s.forget id).IdsDistinct := by
        rw [hfirst]
        exact h.sublist (idsAll_prunedAll_sublist _ _)
      have hdrop : (fun i => decide (i = id) || decide (i ∈ ids)) = fun i => decide (i ∈ id :: ids) := by
        funext i
        simp
      rw [List.foldl_cons, ih hdistinct, hfirst]
      simp only [prunedAll_prunedAll, Owners.eraseAll_eraseAll, List.singleton_append, hdrop]

lemma dropOwned_eq (h : s.IdsDistinct) (p : Path) (keep : List String) : s.dropOwned p keep
    = { s with
        components := prunedAll (· ∈ s.stale p keep) s.components
        owners := s.owners.eraseAll (s.stale p keep) } :=
  foldl_forget_eq h _

lemma dropOwned_components (h : s.IdsDistinct) (p : Path) (keep : List String) :
    (s.dropOwned p keep).components = prunedAll (· ∈ s.stale p keep) s.components := by
  rw [dropOwned_eq h]

/-! ### Components taken over -/

/-- A component of a new id is placed at the end. -/
lemma place_eq_append {c : Component} {ds : List Component}
    (h : c.id ∉ ds.map Component.id) : place c ds = ds ++ [c] := by
  induction ds with
  | nil => rfl
  | cons d ds ih =>
      rw [List.map_cons, List.mem_cons, not_or] at h
      rw [place, if_neg (Ne.symm h.1), ih h.2, List.cons_append]

/-- Components of distinct ids that are taken over stand at the end in order; of what was there
before, their trees are pruned. -/
lemma components_foldl_adopt {old new cs : List Component} (hs : s.components = old ++ new)
    (hold : (idsAll old).Nodup) (hnew : (idsAll (new ++ cs)).Nodup) :
    (cs.foldl (adopt p) s).components
      = prunedAll (· ∈ cs.map Component.id) old ++ (new ++ cs) := by
  induction cs generalizing s old new with
  | nil => simp [hs, prunedAll_eq_self]
  | cons c cs ih =>
      have hc : c.id ∉ idsAll new := fun h => by
        rw [idsAll_append, idsAll_cons, List.nodup_append] at hnew
        exact hnew.2.2 _ h _ (List.mem_append_left _ (id_mem_ids c)) rfl
      have hcount : (idsAll s.components).count c.id ≤ 1 := by
        rw [hs, idsAll_append, List.count_append, List.count_eq_zero_of_not_mem hc]
        exact List.nodup_iff_count_le_one.mp hold c.id
      have hplace : c.id ∉ (prunedAll (· = c.id) old ++ new).map Component.id := by
        rw [List.map_append, List.mem_append, not_or]
        refine ⟨fun h => ?_, fun h => hc (roots_subset_idsAll _ h)⟩
        simpa using not_drop_of_mem_prunedAll (roots_subset_idsAll _ h)
      have hadopt : (adopt p s c).components = prunedAll (· = c.id) old ++ (new ++ [c]) := by
        rw [adopt, without_eq hcount]
        change place c (prunedAll (· = c.id) s.components) = _
        rw [hs, prunedAll_append, prunedAll_of_notMem hc, place_eq_append hplace,
          List.append_assoc]
      rw [List.foldl_cons, ih hadopt (hold.sublist (idsAll_prunedAll_sublist _ _)) (by simpa using hnew),
        prunedAll_prunedAll, List.append_assoc, List.singleton_append]
      congr 2
      funext i
      simp

/-- Names and places that are carried over change no ids. -/
lemma idsAll_carryOverAll (s : State) (cs : List Component) :
    idsAll (s.carryOverAll cs) = idsAll cs := by
  induction cs using forestInduction with
  | nil => rfl
  | cons c cs ihc ihcs =>
      obtain ⟨id, tag, name, props, children, position⟩ := c
      simp only [carryOverAll, carryOver, idsAll_cons, ids, ihcs]
      rw [ihc]

lemma map_id_carryOverAll (s : State) (cs : List Component) :
    (s.carryOverAll cs).map Component.id = cs.map Component.id := by
  induction cs with
  | nil => rfl
  | cons c cs ih =>
      obtain ⟨id, tag, name, props, children, position⟩ := c
      simp [carryOverAll, carryOver, ih]

/-- The ids whose trees go when a file is read again: those that are no longer in the file, and the
outermost ones of the file. -/
def replaced (s : State) (p : Path) (found : List Component) : List String :=
  s.stale p (idsAll found) ++ found.map Component.id

/-- What is known after a file is read again: the trees that stay, and behind them the components
of the file. -/
lemma resync_components (hs : s.IdsDistinct) (hfound : (idsAll found).Nodup) (p : Path)
    (source : Text) :
    (s.resync p source found).1.components
      = prunedAll (· ∈ s.replaced p found) s.components ++ s.carryOverAll found := by
  have hdrop := dropOwned_components hs p (idsAll (s.carryOverAll found))
  have hold : (idsAll (s.dropOwned p (idsAll (s.carryOverAll found))).components).Nodup := by
    rw [hdrop]
    exact hs.sublist (idsAll_prunedAll_sublist _ _)
  have hnew : (idsAll ([] ++ s.carryOverAll found)).Nodup := by
    simpa [idsAll_carryOverAll] using hfound
  have hfold := components_foldl_adopt (p := p) (List.append_nil _).symm hold hnew
  rw [resync]
  change (List.foldl (adopt p) _ _).components = _
  rw [hfold, hdrop, prunedAll_prunedAll, idsAll_carryOverAll, map_id_carryOverAll,
    List.nil_append]
  congr 2
  funext i
  simp [replaced]

/-- A re-read file lets go of what it nests anew: each of its components that stands within another
one is new to the project, or stood within a tree that goes. -/
def Releases (s : State) (p : Path) (found : List Component) : Prop :=
  ∀ i ∈ nestedIds found, i ∈ idsAll s.components →
    ∃ c ∈ nodesAll s.components, c.id ∈ s.replaced p found ∧ i ∈ c.ids

/-- Reading a file of distinct markers again keeps ids distinct exactly if it lets go of what it
nests anew. -/
theorem resync_idsDistinct_iff (hs : s.IdsDistinct) (hfound : (idsAll found).Nodup) (p : Path)
    (source : Text) :
    (s.resync p source found).1.IdsDistinct ↔ s.Releases p found := by
  have hkept (i : String) : i ∈ idsAll (prunedAll (· ∈ s.replaced p found) s.components)
      ↔ i ∈ idsAll s.components
        ∧ ∀ c ∈ nodesAll s.components, c.id ∈ s.replaced p found → i ∉ c.ids :=
    mem_idsAll_prunedAll_mem_iff hs
  rw [IdsDistinct, resync_components hs hfound, idsAll_append, idsAll_carryOverAll,
    List.nodup_append]
  constructor
  · rintro ⟨-, -, hdis⟩ i hi his
    by_contra hno
    push Not at hno
    exact hdis i ((hkept i).mpr ⟨his, hno⟩) i (nestedIds_subset_idsAll _ hi) rfl
  · intro hrel
    refine ⟨hs.sublist (idsAll_prunedAll_sublist _ _), hfound, ?_⟩
    rintro i hi _ hj rfl
    rcases mem_idsAll_iff.mp hj with hroot | hin
    · have hgone := not_drop_of_mem_prunedAll hi
      simp [replaced, hroot] at hgone
    · obtain ⟨his, hno⟩ := (hkept i).mp hi
      obtain ⟨c, hc, hrep, hic⟩ := hrel i hin his
      exact hno c hc hrep hic

end State

end CanvasSync.Project
