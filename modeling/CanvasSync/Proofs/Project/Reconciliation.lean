import CanvasSync.Proofs.Project.Identity
import CanvasSync.Proofs.Storage.Files

/-!
What a file that is read again changes, and what it leaves alone.

* `Owners.lookup_set`, `lookup_setAll`, `lookup_eraseAll`: the file that a component stands in;
* `State.standsIn`, `State.standsOutside`: whether a component stands in a file, or in another one;
* `Adopted`: what taking components over does to owners, trees and labels, one component at a time;
* `perform_resync`: components of other files stay, components that are gone go, components found are
  recorded for the file, and whoever was known keeps name and position;
* `perform_resync_repeatedPage`: a component found is lost if the tree around it is one whose id comes
  again further on.
-/

namespace CanvasSync.Project

open CanvasSync.Component
open CanvasSync.Storage (ChangeKind Files Path)

/-! ### Owners -/

namespace Owners

variable {owners : Owners} {id i : String} {p q : Path}

lemma lookup_cons (j : String) (q : Path) (owners : Owners) :
    List.lookup i ((j, q) :: owners) = if i = j then some q else owners.lookup i := by
  rw [List.lookup_cons]
  by_cases h : i = j
  · simp [h]
  · rw [if_neg h, beq_eq_false_iff_ne.mpr h]

lemma lookup_set : (owners.set id p).lookup i = if i = id then some p else owners.lookup i := by
  induction owners with
  | nil => rw [set, lookup_cons]
  | cons r owners ih =>
      obtain ⟨j, q⟩ := r
      rw [set]
      by_cases hj : j = id
      · rw [if_pos hj, lookup_cons, lookup_cons, hj]
        split_ifs <;> rfl
      · rw [if_neg hj, lookup_cons, lookup_cons, ih]
        split_ifs with h h' <;> simp_all

lemma lookup_setAll {ids : List String} :
    (owners.setAll ids p).lookup i = if i ∈ ids then some p else owners.lookup i := by
  induction ids generalizing owners with
  | nil => simp [setAll]
  | cons id ids ih =>
      have hstep : owners.setAll (id :: ids) p = (owners.set id p).setAll ids p := rfl
      rw [hstep, ih, lookup_set]
      by_cases h : i ∈ ids <;> by_cases hid : i = id <;> simp [h, hid]

lemma lookup_eraseAll {ids : List String} :
    (owners.eraseAll ids).lookup i = if i ∈ ids then none else owners.lookup i := by
  induction owners with
  | nil => simp [eraseAll]
  | cons r owners ih =>
      obtain ⟨j, q⟩ := r
      simp only [eraseAll] at ih ⊢
      rw [List.filter_cons]
      by_cases hj : j ∈ ids
      · rw [if_neg (by simpa using hj), ih, lookup_cons]
        split_ifs with h h' <;> simp_all
      · rw [if_pos (by simpa using hj), lookup_cons, lookup_cons, ih]
        split_ifs with h h' <;> simp_all

/-- If no component is listed twice, what is listed is what is found. -/
lemma mem_iff_lookup (h : (owners.map Prod.fst).Nodup) :
    (i, p) ∈ owners ↔ owners.lookup i = some p := by
  induction owners with
  | nil => simp
  | cons r owners ih =>
      obtain ⟨j, q⟩ := r
      rw [List.map_cons, List.nodup_cons] at h
      rw [List.mem_cons, lookup_cons, ih h.2]
      by_cases hij : i = j
      · subst hij
        have hnone : owners.lookup i ≠ some p := fun hp =>
          h.1 (List.mem_map.mpr ⟨_, (ih h.2).mpr hp, rfl⟩)
        simp [hnone, eq_comm]
      · simp [hij]

lemma lookup_eq_none_iff : owners.lookup i = none ↔ i ∉ owners.map Prod.fst := by
  induction owners with
  | nil => simp
  | cons r owners ih =>
      obtain ⟨j, q⟩ := r
      rw [lookup_cons, List.map_cons, List.mem_cons, not_or, ← ih]
      by_cases hij : i = j <;> simp [hij]

/-- No component is listed twice once one is set. -/
lemma nodup_set (h : (owners.map Prod.fst).Nodup) (id : String) (p : Path) :
    ((owners.set id p).map Prod.fst).Nodup := by
  induction owners with
  | nil => simp [set]
  | cons r owners ih =>
      obtain ⟨j, q⟩ := r
      rw [List.map_cons, List.nodup_cons] at h
      rw [set]
      by_cases hj : j = id
      · rw [if_pos hj, List.map_cons, List.nodup_cons, ← hj]
        exact h
      · rw [if_neg hj, List.map_cons, List.nodup_cons, ← lookup_eq_none_iff, lookup_set, if_neg hj,
          lookup_eq_none_iff]
        exact ⟨h.1, ih h.2⟩

lemma nodup_setAll (h : (owners.map Prod.fst).Nodup) (ids : List String) (p : Path) :
    ((owners.setAll ids p).map Prod.fst).Nodup := by
  induction ids generalizing owners with
  | nil => exact h
  | cons id ids ih => exact ih (nodup_set h id p)

lemma nodup_eraseAll (h : (owners.map Prod.fst).Nodup) (ids : List String) :
    ((owners.eraseAll ids).map Prod.fst).Nodup :=
  h.sublist (List.filter_sublist.map _)

end Owners

/-! ### Components taken out and taken over -/

namespace State

variable {s : State} {id i : String} {p q : Path} {c d : Component} {cs : List Component}

/-- Whether a component is recorded for a file. -/
def standsIn (s : State) (p : Path) (id : String) : Bool :=
  (s.owners.lookup id).any fun q => q.same p

/-- Whether a component is recorded for another file. -/
def standsOutside (s : State) (p : Path) (id : String) : Bool :=
  (s.owners.lookup id).any fun q => !q.same p

lemma without_frame (s : State) (id : String) :
    (s.without id).owners = s.owners ∧ (s.without id).files = s.files := by
  rw [without, remove?_eq_detach?]
  cases detach? id s.components <;> exact ⟨rfl, rfl⟩

/-- Without a component, nothing has changed or one tree of its id was taken out. -/
lemma without_cases (s : State) (id : String) : (s.without id).components = s.components
    ∨ ∃ gone, Detaches id gone s.components (s.without id).components := by
  rw [without, remove?_eq_detach?]
  cases h : detach? id s.components with
  | none => exact .inl rfl
  | some r => exact .inr ⟨r.1, detaches_of_detach? h⟩

lemma labelsAll_without_sublist (s : State) (id : String) :
    (labelsAll (s.without id).components).Sublist (labelsAll s.components) := by
  rcases s.without_cases id with h | ⟨gone, h⟩
  · rw [h]
  · exact h.labelsAll_sublist

lemma mem_without (hc : c ∈ s.components) (hid : id ∉ c.ids) : c ∈ (s.without id).components := by
  rcases s.without_cases id with h | ⟨gone, h⟩
  · rwa [h]
  · exact h.mem hc hid

lemma filter_without {own : String → Bool} (h : ∀ c ∈ s.components, own c.id → id ∉ c.ids) :
    (s.without id).components.filter (fun c => own c.id)
      = s.components.filter fun c => own c.id := by
  rcases s.without_cases id with heq | ⟨gone, hd⟩
  · rw [heq]
  · exact hd.filter_eq h

lemma mem_place_self (c : Component) (cs : List Component) : c ∈ place c cs := by
  induction cs with
  | nil => simp [place]
  | cons d cs ih =>
      rw [place]
      split_ifs
      · exact List.mem_cons_self
      · exact List.mem_cons_of_mem d ih

lemma mem_place (hd : d ∈ cs) (hne : d.id ≠ c.id) : d ∈ place c cs := by
  induction cs with
  | nil => cases hd
  | cons e cs ih =>
      rw [place]
      split_ifs with he
      · rcases List.mem_cons.mp hd with rfl | hd
        · exact absurd he hne
        · exact List.mem_cons_of_mem c hd
      · rcases List.mem_cons.mp hd with rfl | hd
        · exact List.mem_cons_self
        · exact List.mem_cons_of_mem e (ih hd)

lemma filter_place {own : String → Bool} (h : ¬own c.id) (cs : List Component) :
    (place c cs).filter (fun d => own d.id) = cs.filter fun d => own d.id := by
  induction cs with
  | nil => simp [place, h]
  | cons d cs ih =>
      rw [place]
      split_ifs with hd
      · rw [List.filter_cons, List.filter_cons, if_neg h, if_neg (hd ▸ h)]
      · rw [List.filter_cons, List.filter_cons, ih]

lemma labelsAll_place_subset (c : Component) (cs : List Component) :
    labelsAll (place c cs) ⊆ labelsAll [c] ++ labelsAll cs := by
  have hcons (d : Component) (ds : List Component) :
      labelsAll (d :: ds) = labelsAll [d] ++ labelsAll ds :=
    labelsAll_append [d] ds
  induction cs with
  | nil => simp [place]
  | cons d cs ih =>
      rw [place, hcons d cs]
      split_ifs
      · rw [hcons c cs]
        exact List.append_subset.mpr ⟨List.subset_append_left _ _,
          List.Subset.trans (List.subset_append_right _ _) (List.subset_append_right _ _)⟩
      · rw [hcons d (place c cs)]
        refine List.append_subset.mpr
          ⟨List.Subset.trans (List.subset_append_left _ _) (List.subset_append_right _ _),
            List.Subset.trans ih ?_⟩
        exact List.append_subset.mpr ⟨List.subset_append_left _ _,
          List.Subset.trans (List.subset_append_right _ _) (List.subset_append_right _ _)⟩

/-- What taking a component over does. -/
structure Adopted (p : Path) (s : State) (cs : List Component) (t : State) : Prop where
  files : t.files = s.files
  lookup : ∀ i, t.owners.lookup i = if i ∈ idsAll cs then some p else s.owners.lookup i
  labels : labelsAll t.components ⊆ labelsAll cs ++ labelsAll s.components
  /-- Outermost components of other files that have none of the ids within stay where they are. -/
  filter : ∀ own : String → Bool, (∀ c ∈ cs, ¬own c.id) →
    (∀ d ∈ s.components, own d.id → ∀ c ∈ cs, c.id ∉ d.ids) →
    t.components.filter (fun d => own d.id) = s.components.filter fun d => own d.id
  /-- A tree stays if none of the components taken over has an id of it. -/
  kept : ∀ d ∈ s.components, (∀ c ∈ cs, c.id ∉ d.ids) → d ∈ t.components

lemma adopted_adopt (p : Path) (s : State) (c : Component) : Adopted p s [c] (adopt p s c) := by
  obtain ⟨howners, hfiles⟩ := without_frame s c.id
  refine ⟨hfiles, fun i => ?_, ?_, fun own hc hd => ?_, fun d hd hcd => ?_⟩
  · change ((s.without c.id).owners.setAll c.ids p).lookup i = _
    rw [howners, Owners.lookup_setAll, idsAll_cons, idsAll_nil, List.append_nil]
  · refine List.Subset.trans (labelsAll_place_subset c (s.without c.id).components) ?_
    exact List.append_subset.mpr ⟨List.subset_append_left _ _,
      List.Subset.trans (labelsAll_without_sublist s c.id).subset (List.subset_append_right _ _)⟩
  · have hneg := hc c (List.mem_singleton_self c)
    exact (filter_place hneg _).trans
      (filter_without fun d hmem hown => hd d hmem hown c (List.mem_singleton_self c))
  · have hnot := hcd c (List.mem_singleton_self c)
    refine mem_place (mem_without hd hnot) fun heq => hnot ?_
    rw [← heq]
    exact id_mem_ids d

lemma Adopted.append {ds : List Component} {t u : State} (h : Adopted p s cs t)
    (h' : Adopted p t ds u) : Adopted p s (cs ++ ds) u := by
  refine ⟨h'.files.trans h.files, fun i => ?_, ?_, fun own hc hd => ?_, fun d hd hcd => ?_⟩
  · rw [h'.lookup, h.lookup, idsAll_append]
    by_cases hi : i ∈ idsAll cs <;> by_cases hi' : i ∈ idsAll ds <;> simp [hi, hi']
  · intro l hl
    have hl' := h'.labels hl
    rw [labelsAll_append]
    simp only [List.mem_append] at hl' ⊢
    rcases hl' with hl' | hl'
    · exact .inl (.inr hl')
    · exact (List.mem_append.mp (h.labels hl')).imp_left .inl
  · have hfilter := h.filter own (fun c hmem => hc c (List.mem_append_left _ hmem))
      fun d hmem hown c hmem' => hd d hmem hown c (List.mem_append_left _ hmem')
    refine (h'.filter own (fun c hmem => hc c (List.mem_append_right _ hmem)) ?_).trans hfilter
    intro d hmem hown c hmem'
    -- a component of another file is one from before
    have hold : d ∈ s.components.filter fun d => own d.id := by
      rw [← hfilter]
      exact List.mem_filter.mpr ⟨hmem, hown⟩
    exact hd d (List.mem_filter.mp hold).1 hown c (List.mem_append_right _ hmem')
  · exact h'.kept d (h.kept d hd fun c hmem => hcd c (List.mem_append_left _ hmem))
      fun c hmem => hcd c (List.mem_append_right _ hmem)

/-- Taking components over, one after the other. -/
lemma adopted_foldl (p : Path) (s : State) (cs : List Component) :
    Adopted p s cs (cs.foldl (adopt p) s) := by
  induction cs generalizing s with
  | nil => exact ⟨rfl, by simp, by simp, fun own _ _ => rfl, fun d hd _ => hd⟩
  | cons c cs ih => exact (adopted_adopt p s c).append (ih (adopt p s c))

lemma nodup_foldl_adopt (h : (s.owners.map Prod.fst).Nodup) (p : Path) (cs : List Component) :
    ((cs.foldl (adopt p) s).owners.map Prod.fst).Nodup := by
  induction cs generalizing s with
  | nil => exact h
  | cons c cs ih =>
      refine ih ?_
      change (((s.without c.id).owners.setAll c.ids p).map Prod.fst).Nodup
      rw [(without_frame s c.id).1]
      exact Owners.nodup_setAll h c.ids p

/-- A component taken over is there unless a later one has an id of it. -/
lemma mem_foldl_adopt (s : State) {xs ys : List Component} (h : ∀ d ∈ ys, d.id ∉ c.ids) :
    c ∈ ((xs ++ c :: ys).foldl (adopt p) s).components := by
  rw [List.foldl_append, List.foldl_cons]
  exact (adopted_foldl p _ ys).kept c (mem_place_self c _) h

/-! ### Components forgotten -/

/-- What forgetting components does. -/
structure Forgotten (s : State) (ids : List String) (t : State) : Prop where
  files : t.files = s.files
  lookup : ∀ i, t.owners.lookup i = if i ∈ ids then none else s.owners.lookup i
  labels : labelsAll t.components ⊆ labelsAll s.components
  /-- Outermost components of other files that have none of the ids within stay where they are. -/
  filter : ∀ own : String → Bool, (∀ d ∈ s.components, own d.id → ∀ i ∈ ids, i ∉ d.ids) →
    t.components.filter (fun d => own d.id) = s.components.filter fun d => own d.id

lemma forgotten_foldl (s : State) (ids : List String) : Forgotten s ids (ids.foldl forget s) := by
  induction ids generalizing s with
  | nil => exact ⟨rfl, by simp, fun l hl => hl, fun own _ => rfl⟩
  | cons id ids ih =>
      obtain ⟨hfiles, hlookup, hlabels, hfilter⟩ := ih (forget s id)
      have hone (own : String → Bool) (h : ∀ d ∈ s.components, own d.id → id ∉ d.ids) :
          (forget s id).components.filter (fun d => own d.id)
            = s.components.filter fun d => own d.id :=
        filter_without h
      refine ⟨hfiles.trans (without_frame s id).2, fun i => ?_,
        List.Subset.trans hlabels (labelsAll_without_sublist s id).subset, fun own h => ?_⟩
      · rw [List.foldl_cons, hlookup]
        change (if i ∈ ids then none else (s.owners.eraseAll [id]).lookup i) = _
        rw [Owners.lookup_eraseAll]
        by_cases hi : i ∈ ids <;> by_cases hid : i = id <;> simp [hi, hid]
      · have hfirst := hone own fun d hd hown => h d hd hown id List.mem_cons_self
        refine (hfilter own fun d hd hown i hi => ?_).trans hfirst
        have hold : d ∈ s.components.filter fun d => own d.id := by
          rw [← hfirst]
          exact List.mem_filter.mpr ⟨hd, hown⟩
        exact h d (List.mem_filter.mp hold).1 hown i (List.mem_cons_of_mem id hi)

lemma nodup_foldl_forget (h : (s.owners.map Prod.fst).Nodup) (ids : List String) :
    ((ids.foldl forget s).owners.map Prod.fst).Nodup := by
  induction ids generalizing s with
  | nil => exact h
  | cons id ids ih => exact ih (Owners.nodup_eraseAll h [id])

/-- The components that are forgotten are those recorded for the file that are not kept. -/
lemma mem_stale_iff (h : (s.owners.map Prod.fst).Nodup) {keep : List String} :
    i ∈ s.stale p keep ↔ s.standsIn p i ∧ i ∉ keep := by
  simp only [stale, List.mem_map, List.mem_filter, Bool.and_eq_true, decide_eq_true_eq, standsIn,
    Option.any_eq_true]
  constructor
  · rintro ⟨⟨j, q⟩, ⟨hmem, hq, hkeep⟩, rfl⟩
    exact ⟨⟨q, (Owners.mem_iff_lookup h).mp hmem, hq⟩, hkeep⟩
  · rintro ⟨⟨q, hlookup, hq⟩, hkeep⟩
    exact ⟨(i, q), ⟨(Owners.mem_iff_lookup h).mpr hlookup, hq, hkeep⟩, rfl⟩

/-! ### Names and places -/

/-- Whoever is known has the name and the place that are known. -/
def Recalls (s : State) (cs : List Component) : Prop :=
  ∀ l ∈ labelsAll cs, ∀ c, s.find? l.id = some c → l.name = c.name ∧ l.position = c.position

lemma recalls_self (hs : s.IdsDistinct) : s.Recalls s.components := by
  intro l hl c hc
  obtain ⟨d, hd, rfl⟩ := List.mem_map.mp hl
  obtain rfl := eq_of_mem_nodesAll hs (mem_nodesAll_of_findAll? hc) hd (id_of_findAll? hc)
  exact ⟨rfl, rfl⟩

lemma recalls_carryOverAll (s : State) (cs : List Component) : s.Recalls (s.carryOverAll cs) := by
  induction cs using forestInduction with
  | nil => simp [Recalls, carryOverAll]
  | cons c cs ihc ihcs =>
      obtain ⟨id, tag, name, props, children, position⟩ := c
      intro l hl d hd
      rw [carryOverAll, carryOver, labelsAll_cons, List.mem_cons, List.mem_append] at hl
      rcases hl with rfl | hl | hl
      · simp only at hd
        simp [hd]
      · exact ihc l hl d hd
      · exact ihcs l hl d hd

lemma Recalls.find? {t : State} (h : s.Recalls t.components) (hc : s.find? i = some c)
    (hd : t.find? i = some d) : d.name = c.name ∧ d.position = c.position := by
  have hmem : { d with children := [] } ∈ labelsAll t.components :=
    List.mem_map.mpr ⟨d, mem_nodesAll_of_findAll? hd, rfl⟩
  refine h _ hmem c ?_
  rw [← hc, ← id_of_findAll? hd]

/-! ### A file read again -/

/-- What is known of components and their files is in order: each id is that of one component, which
is recorded for one file, the same for a whole outermost tree. -/
structure IsTidy (s : State) : Prop where
  distinct : s.IdsDistinct
  owners : (s.owners.map Prod.fst).Perm (idsAll s.components)
  whole : ∀ c ∈ s.components, ∀ i ∈ c.ids, s.owners.lookup i = s.owners.lookup c.id

lemma IsTidy.nodup_owners (hs : s.IsTidy) : (s.owners.map Prod.fst).Nodup :=
  hs.owners.nodup_iff.mpr hs.distinct

/-- What is known once a file is read again, but for its text. -/
def reread (s : State) (p : Path) (found : List Component) : State :=
  (s.carryOverAll found).foldl (adopt p) (s.dropOwned p (idsAll found))

variable {found : List Component}

lemma resync_eq (s : State) (p : Path) (source : Text) (found : List Component) :
    (s.resync p source found).1
      = { s.reread p found with files := (s.reread p found).files.insert p source } := by
  rw [resync, idsAll_carryOverAll]
  rfl

lemma carryOverAll_eq_map (s : State) (cs : List Component) :
    s.carryOverAll cs = cs.map s.carryOver := by
  induction cs with
  | nil => rfl
  | cons c cs ih => rw [carryOverAll, ih, List.map_cons]

lemma ids_carryOver (s : State) (c : Component) : (s.carryOver c).ids = c.ids := by
  simpa [carryOverAll] using idsAll_carryOverAll s [c]

lemma forgotten_dropOwned (s : State) (p : Path) (keep : List String) :
    Forgotten s (s.stale p keep) (s.dropOwned p keep) :=
  forgotten_foldl s _

lemma adopted_reread (s : State) (p : Path) (found : List Component) :
    Adopted p (s.dropOwned p (idsAll found)) (s.carryOverAll found) (s.reread p found) :=
  adopted_foldl p _ _

/-- The file that a component stands in once a file is read again. -/
lemma lookup_reread (hs : (s.owners.map Prod.fst).Nodup) (p : Path) (found : List Component)
    (i : String) :
    (s.reread p found).owners.lookup i = if i ∈ idsAll found then some p
      else if s.standsIn p i then none else s.owners.lookup i := by
  rw [(adopted_reread s p found).lookup, idsAll_carryOverAll,
    (forgotten_dropOwned s p (idsAll found)).lookup]
  by_cases hi : i ∈ idsAll found <;> simp [hi, mem_stale_iff hs]

/-- No file is recorded for a component of another file, nor is one taken away. -/
lemma lookup_reread_eq_some_iff (hs : s.IsTidy)
    (hfound : ∀ i ∈ idsAll found, s.standsOutside p i = false) (hq : q.same p = false) :
    (s.reread p found).owners.lookup i = some q ↔ s.owners.lookup i = some q := by
  rw [lookup_reread hs.nodup_owners]
  split_ifs with hi hin
  · refine iff_of_false (fun h => ?_) fun h => ?_
    · obtain rfl := Option.some.inj h
      simp at hq
    · simpa [standsOutside, h, hq] using hfound i hi
  · refine iff_of_false (by simp) fun h => ?_
    simp [standsIn, h, hq] at hin
  · exact Iff.rfl

lemma standsOutside_reread (hs : s.IsTidy)
    (hfound : ∀ i ∈ idsAll found, s.standsOutside p i = false) (i : String) :
    (s.reread p found).standsOutside p i = s.standsOutside p i := by
  have hiff (q : Path) (hq : q.same p = false) :=
    lookup_reread_eq_some_iff (i := i) hs hfound hq
  rw [Bool.eq_iff_iff]
  simp only [standsOutside, Option.any_eq_true, Bool.not_eq_true']
  constructor
  · rintro ⟨q, hlookup, hq⟩
    exact ⟨q, (hiff q hq).mp hlookup, hq⟩
  · rintro ⟨q, hlookup, hq⟩
    exact ⟨q, (hiff q hq).mpr hlookup, hq⟩

/-- The outermost components of other files stay in order. -/
lemma filter_reread (hs : s.IsTidy) (hfound : ∀ i ∈ idsAll found, s.standsOutside p i = false) :
    (s.reread p found).components.filter (fun c => s.standsOutside p c.id)
      = s.components.filter fun c => s.standsOutside p c.id := by
  -- a component of another file has nothing of this file within it
  have hall (d : Component) (hd : d ∈ s.components) (hout : s.standsOutside p d.id) (i : String)
      (hi : i ∈ d.ids) : s.standsOutside p i := by
    rw [standsOutside, hs.whole d hd i hi]
    exact hout
  have hroot (c : Component) (hc : c ∈ s.carryOverAll found) : s.standsOutside p c.id = false := by
    refine hfound c.id ?_
    rw [← idsAll_carryOverAll s found]
    exact roots_subset_idsAll _ (List.mem_map_of_mem hc)
  have hfirst := (forgotten_dropOwned s p (idsAll found)).filter (s.standsOutside p)
    fun d hd hout i hi hmem => by
      have hin := ((mem_stale_iff hs.nodup_owners).mp hi).1
      have hout' := hall d hd hout i hmem
      rw [standsIn] at hin
      rw [standsOutside] at hout'
      cases hq : s.owners.lookup i <;> simp_all
  refine ((adopted_reread s p found).filter (s.standsOutside p) (fun c hc hout => ?_)
    fun d hd hout c hc hmem => ?_).trans hfirst
  · rw [hroot c hc] at hout
    cases hout
  · have hold : d ∈ s.components.filter fun d => s.standsOutside p d.id := by
      rw [← hfirst]
      exact List.mem_filter.mpr ⟨hd, hout⟩
    have hout' := hall d (List.mem_filter.mp hold).1 hout c.id hmem
    rw [hroot c hc] at hout'
    cases hout'

/-- A component recorded for the file that is no longer in it is gone. -/
lemma not_mem_reread (hs : s.IsTidy) (hin : s.standsIn p i) (hgone : i ∉ idsAll found) :
    i ∉ idsAll (s.reread p found).components := by
  intro hmem
  rw [idsAll_eq_map_labelsAll] at hmem
  obtain ⟨l, hl, rfl⟩ := List.mem_map.mp hmem
  rcases List.mem_append.mp ((adopted_reread s p found).labels hl) with hl | hl
  · refine hgone ?_
    rw [← idsAll_carryOverAll s found, idsAll_eq_map_labelsAll]
    exact List.mem_map_of_mem hl
  · have hkept : l.id ∈ idsAll (s.dropOwned p (idsAll found)).components := by
      rw [idsAll_eq_map_labelsAll]
      exact List.mem_map_of_mem hl
    rw [dropOwned_components hs.distinct] at hkept
    have hdrop := not_drop_of_mem_prunedAll hkept
    simp [mem_stale_iff hs.nodup_owners, hin, hgone] at hdrop

/-- A component found is there unless an outermost one further on has an id of the tree around it. -/
lemma mem_reread (s : State) (p : Path) {xs ys : List Component} (hys : ∀ d ∈ ys, d.id ∉ c.ids)
    (hi : i ∈ c.ids) : i ∈ idsAll (s.reread p (xs ++ c :: ys)).components := by
  have hmem : s.carryOver c ∈ (s.reread p (xs ++ c :: ys)).components := by
    rw [reread, carryOverAll_eq_map, List.map_append, List.map_cons]
    refine mem_foldl_adopt _ fun d hd => ?_
    obtain ⟨e, he, rfl⟩ := List.mem_map.mp hd
    have hid : (s.carryOver e).id = e.id := by
      cases e
      rfl
    rw [hid, ids_carryOver]
    exact hys e he
  refine ids_subset_of_mem_nodesAll (mem_nodesAll_of_mem hmem) ?_
  rwa [ids_carryOver]

/-- Names and places that were known are known still. -/
lemma recalls_reread (hs : s.IdsDistinct) (p : Path) (found : List Component) :
    s.Recalls (s.reread p found).components := by
  intro l hl
  rcases List.mem_append.mp ((adopted_reread s p found).labels hl) with hl | hl
  · exact recalls_carryOverAll s found l hl
  · exact recalls_self hs l ((forgotten_dropOwned s p (idsAll found)).labels hl)

lemma files_reread (s : State) (p : Path) (found : List Component) :
    (s.reread p found).files = s.files :=
  (adopted_reread s p found).files.trans (forgotten_dropOwned s p (idsAll found)).files

end State

/-- A file that can be read is read again, and nothing else happens. -/
lemma perform_resync_eq {s : Session} {p : Path} {kind : ChangeKind} {source : Text}
    {found : List Component} (hfree : s.isLocked (s.resolve p) = false) (hkind : kind ≠ .removed)
    (hread : withComponents s.disk s.config.style (s.resolve p) = .ok (source, found)) :
    s.perform (.resync p kind)
      = (.finished (.ok (.fileChanged (s.resolve p)
            (s.state.resync (s.resolve p) source found).2)),
          { s with state := (s.state.resync (s.resolve p) source found).1 }) := by
  have hdraft : (Call.resync p kind).draft s (s.resolve p)
      = .ok (none, .resync (s.resolve p) source found) := by
    cases kind <;> first | exact absurd rfl hkind | simp [Call.draft, hread, bind, Except.bind, pure,
      Except.pure]
  have hbegin : (Call.resync p kind).begin s = .ok (some (s.resolve p), s) := rfl
  rcases perform_of_isLocked_eq_false hbegin hfree with
    ⟨f, -, hfailed⟩ | ⟨e, t, hperform, hsettled⟩
  · cases hfailed with
    | refused hbegin => cases hbegin
    | undrafted hbegin hfault =>
        cases hbegin
        rw [hdraft] at hfault
        cases hfault
    | unwritten hbegin hcode =>
        cases hbegin
        rw [hdraft] at hcode
        cases hcode
  · rw [hperform]
    cases hsettled with
    | unread hbegin hdue happly => cases hbegin
    | read hbegin hfree hdraft' happly =>
        cases hbegin
        cases hdraft.symm.trans hdraft'
        obtain ⟨rfl, rfl⟩ := Prod.mk.inj (Except.ok.inj happly)
        rfl
    | written hbegin hfree hdraft' hwrite happly =>
        cases hbegin
        cases hdraft.symm.trans hdraft'

/-- A file that can be read is read again. -/
lemma exists_perform_resync {s : Session} {p : Path} {kind : ChangeKind} {source : Text}
    {found : List Component} (hfree : s.isLocked (s.resolve p) = false) (hkind : kind ≠ .removed)
    (hread : withComponents s.disk s.config.style (s.resolve p) = .ok (source, found)) :
    ∃ e t source', s.perform (.resync p kind) = (.finished (.ok e), t)
      ∧ t.state = (s.state.resync (s.resolve p) source' found).1 :=
  ⟨_, _, source, perform_resync_eq hfree hkind hread, rfl⟩

/-- **A file that is read again** changes what is known of its own components only. Outermost
components of other files stay in order, and so do the records of where components of other files
stand and the texts of other files. Components that are no longer in the file are gone. Those in it
are recorded for it, and they are there unless an outermost component of the file further on has an
id of the tree around them. Names and places that were known are known still. -/
theorem perform_resync {s : Session} {p : Path} {kind : ChangeKind} {source : Text}
    {found : List Component} (hs : s.state.IsTidy) (hfree : s.isLocked (s.resolve p) = false)
    (hkind : kind ≠ .removed)
    (hread : withComponents s.disk s.config.style (s.resolve p) = .ok (source, found))
    (hfound : ∀ i ∈ idsAll found, s.state.standsOutside (s.resolve p) i = false) :
    ∃ e t, s.perform (.resync p kind) = (.finished (.ok e), t)
      ∧ (t.state.components.filter fun c => t.state.standsOutside (s.resolve p) c.id)
        = (s.state.components.filter fun c => s.state.standsOutside (s.resolve p) c.id)
      ∧ (∀ i q, q.same (s.resolve p) = false →
        (t.state.owners.lookup i = some q ↔ s.state.owners.lookup i = some q))
      ∧ (∀ q, q.same (s.resolve p) = false → t.state.files.get? q = s.state.files.get? q)
      ∧ (∀ i, s.state.standsIn (s.resolve p) i → i ∉ idsAll found →
        i ∉ idsAll t.state.components ∧ t.state.owners.lookup i = none)
      ∧ (∀ i ∈ idsAll found, t.state.owners.lookup i = some (s.resolve p))
      ∧ (∀ xs c ys, found = xs ++ c :: ys → (∀ d ∈ ys, d.id ∉ c.ids) →
        ∀ i ∈ c.ids, i ∈ idsAll t.state.components)
      ∧ ∀ i c d, s.state.find? i = some c → t.state.find? i = some d →
        d.name = c.name ∧ d.position = c.position := by
  obtain ⟨e, t, source', hperform, hstate⟩ := exists_perform_resync hfree hkind hread
  rw [State.resync_eq] at hstate
  have hcomponents : t.state.components = (s.state.reread (s.resolve p) found).components := by
    rw [hstate]
  have howners : t.state.owners = (s.state.reread (s.resolve p) found).owners := by
    rw [hstate]
  refine ⟨e, t, hperform, ?_, fun i q hq => ?_, fun q hq => ?_, fun i hin hgone => ⟨?_, ?_⟩,
    fun i hi => ?_, ?_, fun i c d hc hd => ?_⟩
  · have houtside (i : String) : t.state.standsOutside (s.resolve p) i
        = s.state.standsOutside (s.resolve p) i := by
      rw [← State.standsOutside_reread hs hfound, State.standsOutside, howners]
      rfl
    simp only [houtside, hcomponents]
    exact State.filter_reread hs hfound
  · rw [howners]
    exact State.lookup_reread_eq_some_iff hs hfound hq
  · rw [hstate, Files.get?_insert, if_neg (by simpa [Path.same_comm] using hq), State.files_reread]
  · rw [hcomponents]
    exact State.not_mem_reread hs hin hgone
  · rw [howners, State.lookup_reread hs.nodup_owners, if_neg hgone, if_pos hin]
  · rw [howners, State.lookup_reread hs.nodup_owners, if_pos hi]
  · rintro xs c ys rfl hys i hi
    rw [hcomponents]
    exact State.mem_reread s.state _ hys hi
  · refine State.Recalls.find? ?_ hc hd
    rw [hcomponents]
    exact State.recalls_reread hs.distinct _ found

/-- The components in a file, by what is read off them. -/
lemma exists_of_toOption {α : Type} {s : Session} {p : Path} {f : List Component → α} {a : α}
    (h : (withComponents s.disk s.config.style p).toOption.map (fun r => f r.2) = some a) :
    ∃ source found, withComponents s.disk s.config.style p = .ok (source, found) ∧ f found = a := by
  cases hread : withComponents s.disk s.config.style p with
  | error fault => simp [hread, Except.toOption] at h
  | ok r => exact ⟨r.1, r.2, rfl, by simpa [hread, Except.toOption] using h⟩

/-- A page with a call to action in its hero, and a card in another file. On the disk the hero is
gone, the call to action has another tag, and there is a note. -/
def heroPage : Session :=
  let page : Path := ⟨"/p/page.tsx"⟩
  let cta : Component := { Component.ofTag "cta" "button" with name := "Sign up" }
  { emptyProject with
    state :=
      { root := ⟨"/p"⟩
        components := [{ Component.ofTag "hero" "main" with children := [cta] }, .ofTag "card" "div"]
        files := []
        owners := [("hero", page), ("cta", page), ("card", ⟨"/p/card.tsx"⟩)] }
    disk := .ofFiles
      [(page, "<><i data-component-id=\"cta\"/><p data-component-id=\"note\"/></>".toList)] }

/-- The hero is gone, the call to action has kept its name, and the card is where it was. -/
theorem perform_resync_heroPage : heroPage.state.IsTidy
    ∧ ∃ e t, heroPage.perform (.resync ⟨"page.tsx"⟩ .changed) = (.finished (.ok e), t)
      ∧ (t.state.components.filter fun c => t.state.standsOutside ⟨"/p/page.tsx"⟩ c.id).map
        Component.id = ["card"]
      ∧ "hero" ∉ idsAll t.state.components
      ∧ t.state.owners.lookup "note" = some ⟨"/p/page.tsx"⟩
      ∧ ∀ d, t.state.find? "cta" = some d → d.name = "Sign up" := by
  have htidy : heroPage.state.IsTidy := ⟨by decide, by decide, by decide⟩
  have hkind : ChangeKind.changed ≠ .removed := by decide
  obtain ⟨source, found, hread, hids⟩ := exists_of_toOption (s := heroPage)
    (p := heroPage.resolve ⟨"page.tsx"⟩) (f := idsAll) (a := ["cta", "note"]) (by decide +kernel)
  have hfound : ∀ i ∈ idsAll found,
      heroPage.state.standsOutside (heroPage.resolve ⟨"page.tsx"⟩) i = false := by
    rw [hids]
    decide
  obtain ⟨e, t, hperform, houtside, -, -, hgone, howners, -, hknown⟩ :=
    perform_resync htidy rfl hkind hread hfound
  refine ⟨htidy, e, t, hperform, ?_, (hgone "hero" (by decide) (by simp [hids])).1,
    howners "note" (by simp [hids]), fun d hd => (hknown "cta" _ d rfl hd).1⟩
  exact (congrArg (List.map Component.id) houtside).trans (by decide)

/-- A project with a file in which an id comes again further on. -/
def repeatedPage : Session :=
  let text := "<><a data-component-id=\"a\"><c data-component-id=\"c\"/></a><a data-component-id=\"a\"/></>"
  { emptyProject with disk := .ofFiles [(⟨"/p/page.tsx"⟩, text.toList)] }

/-- A component found is recorded for its file but is not there: the tree around it went when the
next one of its id was taken over. -/
theorem perform_resync_repeatedPage : repeatedPage.state.IsTidy
    ∧ ∃ source found e t, withComponents repeatedPage.disk repeatedPage.config.style ⟨"/p/page.tsx"⟩
        = .ok (source, found)
      ∧ (∀ i ∈ idsAll found, repeatedPage.state.standsOutside ⟨"/p/page.tsx"⟩ i = false)
      ∧ repeatedPage.perform (.resync ⟨"/p/page.tsx"⟩ .changed) = (.finished (.ok e), t)
      ∧ "c" ∈ idsAll found ∧ "c" ∉ idsAll t.state.components
      ∧ t.state.owners.lookup "c" = some ⟨"/p/page.tsx"⟩ := by
  obtain ⟨source, found, hread, hids⟩ := exists_of_toOption (s := repeatedPage)
    (p := ⟨"/p/page.tsx"⟩) (f := idsAll) (a := ["a", "c", "a"]) (by decide +kernel)
  have hkind : ChangeKind.changed ≠ .removed := by decide
  obtain ⟨e, t, -, hperform, -⟩ :=
    exists_perform_resync (s := repeatedPage) (p := ⟨"/p/page.tsx"⟩) rfl hkind hread
  have hlost : "c" ∉ idsAll
        (repeatedPage.perform (.resync ⟨"/p/page.tsx"⟩ .changed)).2.state.components
      ∧ (repeatedPage.perform (.resync ⟨"/p/page.tsx"⟩ .changed)).2.state.owners.lookup "c"
        = some ⟨"/p/page.tsx"⟩ := by
    decide +kernel
  rw [hperform] at hlost
  refine ⟨⟨by decide, by decide, by decide⟩, source, found, e, t, hread, ?_, hperform,
    by simp [hids], hlost⟩
  rw [hids]
  decide

end CanvasSync.Project
