import CanvasSync.Proofs.Project.Reconciliation

/-!
What stands in each file, and what a change of one file makes of it.

* `standing`, `besides`: the outermost components recorded for a file, and the other ones;
* `Turned`: what is known turns with one file only, and stays in order;
* `turned_add`, `frame_update?`, `turned_removeFrom`: what components that are added, updated and
  removed do to what stands in the files;
* `Covers`, `turned_resync`: a file that is read again has what is found in it, if it has all that is
  recorded for it and nothing of others.
-/

namespace CanvasSync.Project

open CanvasSync.Component
open CanvasSync.Storage (Path)

/-! ### What is recorded for a file -/

namespace State

variable {s t : State} {id i : String} {p q : Path} {c : Component} {code : Text}
  {found : List Component}

/-- The outermost components recorded for a file. -/
def standing (s : State) (p : Path) : List Component :=
  s.components.filter fun c => s.standsIn p c.id

/-- The outermost components that are not recorded for a file. -/
def besides (s : State) (p : Path) : List Component :=
  s.components.filter fun c => !s.standsIn p c.id

lemma standsIn_congr (h : p.same q = true) : s.standsIn p i = s.standsIn q i := by
  simp only [standsIn, Path.same_comm _ p, Path.same_comm _ q, Path.same_congr h]

lemma standing_congr (h : p.same q = true) : s.standing p = s.standing q := by
  simp only [standing, standsIn_congr h]

/-- Components stand where they did if their files are recorded as before. -/
lemma standsIn_eq (h : t.owners.lookup i = s.owners.lookup i) (p : Path) :
    t.standsIn p i = s.standsIn p i := by
  rw [standsIn, h, standsIn]

lemma standsIn_of_lookup (h : s.owners.lookup i = some p) : s.standsIn q i = p.same q := by
  rw [standsIn, h, Option.any_some]

/-- What stands in one file does not stand in another. -/
lemma standsIn_eq_false (h : s.standsIn q i) (hq : p.same q = false) : s.standsIn p i = false := by
  rw [standsIn, Option.any_eq_true] at h
  obtain ⟨r, hr, hrq⟩ := h
  rw [standsIn_of_lookup hr, Path.same_congr hrq, Path.same_comm, hq]

/-- What stands in a file stands besides others. -/
lemma filter_besides (hq : p.same q = false) :
    (s.besides p).filter (fun c => s.standsIn q c.id) = s.standing q := by
  rw [besides, List.filter_filter, standing]
  refine List.filter_congr fun c _ => ?_
  cases hin : s.standsIn q c.id with
  | false => rfl
  | true => rw [standsIn_eq_false hin hq, Bool.not_false, Bool.and_true]

namespace IsTidy

lemma lookup_eq_none_iff (hs : s.IsTidy) :
    s.owners.lookup i = none ↔ i ∉ idsAll s.components := by
  rw [Owners.lookup_eq_none_iff, hs.owners.mem_iff]

/-- What is known is in order if nothing is recorded twice, nor for components that are not there. -/
lemma of_lookup (hdistinct : s.IdsDistinct) (howners : (s.owners.map Prod.fst).Nodup)
    (hlookup : ∀ i, s.owners.lookup i = none ↔ i ∉ idsAll s.components)
    (hwhole : ∀ c ∈ s.components, ∀ i ∈ c.ids, s.owners.lookup i = s.owners.lookup c.id) :
    s.IsTidy := by
  refine ⟨hdistinct, (List.perm_ext_iff_of_nodup howners hdistinct).mpr fun i => ?_, hwhole⟩
  rw [← not_iff_not, ← Owners.lookup_eq_none_iff, hlookup]

/-- All of an outermost component stands in one file. -/
lemma standsIn_eq (hs : s.IsTidy) (hc : c ∈ s.components) (hi : i ∈ c.ids) (p : Path) :
    s.standsIn p i = s.standsIn p c.id := by
  rw [standsIn, hs.whole c hc i hi, standsIn]

/-- What stands in a file is within the outermost components that do. -/
lemma mem_idsAll_standing_iff (hs : s.IsTidy) :
    i ∈ idsAll (s.standing p) ↔ i ∈ idsAll s.components ∧ s.standsIn p i :=
  mem_idsAll_filter_iff (s.standsIn p) fun _ hc _ hi => hs.standsIn_eq hc hi p

/-- What does not stand in a file is within the outermost components that do not. -/
lemma mem_idsAll_besides_iff (hs : s.IsTidy) :
    i ∈ idsAll (s.besides p) ↔ i ∈ idsAll s.components ∧ s.standsIn p i = false := by
  have hmem : i ∈ idsAll (s.besides p) ↔ i ∈ idsAll s.components ∧ (!s.standsIn p i) = true :=
    mem_idsAll_filter_iff (fun i => !s.standsIn p i) fun c hc i hi => by rw [hs.standsIn_eq hc hi]
  rw [hmem, Bool.not_eq_true']

end IsTidy

/-! ### Components added, updated and removed -/

/-- What is known turns with one file only: it has a new text, and what stands in other files nests
as before. -/
structure Turned (p : Path) (code : Text) (s t : State) : Prop where
  tidy : t.IsTidy
  /-- Components are recorded for the file, or as before. -/
  owners : ∀ i q, t.owners.lookup i = some q → q = p ∨ s.owners.lookup i = some q
  files : ∀ q, t.files.get? q = if p.same q then some code else s.files.get? q
  others : ∀ q, p.same q = false → outlineAll (t.standing q) = outlineAll (s.standing q)

/-- A component added stands in its file besides what does. -/
lemma turned_add (hs : s.IsTidy) (hc : c.ids.Nodup) (hnew : ∀ i ∈ c.ids, i ∉ idsAll s.components)
    (p : Path) (code : Text) :
    Turned p code s (s.add c p code) ∧ (s.add c p code).standing p = s.standing p ++ [c] := by
  have hcomponents : (s.add c p code).components = s.components ++ [c] := components_add hnew p code
  have hlookup (i : String) : (s.add c p code).owners.lookup i
      = if i ∈ c.ids then some p else s.owners.lookup i := Owners.lookup_setAll
  have hold : ∀ d ∈ s.components, ∀ i ∈ d.ids,
      (s.add c p code).owners.lookup i = s.owners.lookup i := fun d hd i hi => by
    rw [hlookup, if_neg fun hic => hnew i hic (mem_idsAll_iff_exists.mpr ⟨d, hd, hi⟩)]
  have hown (i : String) (hi : i ∈ c.ids) : (s.add c p code).owners.lookup i = some p := by
    rw [hlookup, if_pos hi]
  have hstanding (q : Path) : (s.add c p code).standing q
      = s.standing q ++ if p.same q then [c] else [] := by
    rw [standing, hcomponents, List.filter_append, standing]
    congr 1
    · exact List.filter_congr fun d hd => State.standsIn_eq (hold d hd d.id (id_mem_ids d)) q
    · rw [List.filter_cons, standsIn_of_lookup (hown _ (id_mem_ids c))]
      rfl
  have htidy : (s.add c p code).IsTidy := by
    refine .of_lookup (hs.distinct.add hc hnew p code) (Owners.nodup_setAll hs.nodup_owners _ p)
      (fun i => ?_) fun d hd i hi => ?_
    · rw [hlookup, hcomponents, idsAll_append, List.mem_append]
      split_ifs with hi
      · simp [hi]
      · simp [hi, hs.lookup_eq_none_iff]
    · rw [hcomponents, List.mem_append, List.mem_singleton] at hd
      rcases hd with hd | rfl
      · rw [hold d hd i hi, hold d hd d.id (id_mem_ids d), hs.whole d hd i hi]
      · rw [hown i hi, hown _ (id_mem_ids d)]
  have howners (i : String) (q : Path) (hq : (s.add c p code).owners.lookup i = some q) :
      q = p ∨ s.owners.lookup i = some q := by
    rw [hlookup] at hq
    split_ifs at hq with hi
    · exact .inl (Option.some.inj hq).symm
    · exact .inr hq
  exact ⟨⟨htidy, howners, fun q => Storage.Files.get?_insert .., fun q hq => by simp [hstanding, hq]⟩,
    by rw [hstanding, if_pos (Path.same_self p)]⟩

/-- What is recorded as before, and nests as before, stands in its files as before. -/
lemma outlineAll_standing_congr (hout : outlineAll t.components = outlineAll s.components)
    (hlookup : ∀ i, t.owners.lookup i = s.owners.lookup i) (p : Path) :
    outlineAll (t.standing p) = outlineAll (s.standing p) := by
  rw [standing, standing, outlineAll_filter, outlineAll_filter, hout]
  exact List.filter_congr fun c _ => State.standsIn_eq (hlookup c.id) p

/-- What is recorded as before, and nests as before, is in order if it was. -/
lemma IsTidy.congr (hs : s.IsTidy) (hout : outlineAll t.components = outlineAll s.components)
    (hlookup : ∀ i, t.owners.lookup i = s.owners.lookup i) (howners : (t.owners.map Prod.fst).Nodup) :
    t.IsTidy := by
  have hids : idsAll t.components = idsAll s.components := by
    rw [← idsAll_outlineAll, hout, idsAll_outlineAll]
  have hdistinct : t.IdsDistinct := by
    rw [IdsDistinct, hids]
    exact hs.distinct
  refine .of_lookup hdistinct howners (fun i => ?_) fun c hc i hi => ?_
  · rw [hlookup, hids, hs.lookup_eq_none_iff]
  · have hmem : c.outline ∈ outlineAll s.components := by
      rw [← hout, outlineAll_eq_map]
      exact List.mem_map_of_mem hc
    rw [outlineAll_eq_map] at hmem
    obtain ⟨d, hd, heq⟩ := List.mem_map.mp hmem
    have hid : d.id = c.id := by rw [← id_outline d, heq, id_outline]
    have hsame : d.ids = c.ids := by rw [← ids_outline d, heq, ids_outline]
    rw [hlookup, hlookup, ← hid]
    exact hs.whole d hd i (hsame ▸ hi)

/-- An update records the text of the file that was written, if any. -/
lemma files_update? {u : Update} {written : Option (Path × Text)}
    (h : s.update? id u written = some t) :
    t.files = written.elim s.files fun r => s.files.insert r.1 r.2 := by
  simp only [update?, Option.bind_eq_bind, Option.bind_eq_some_iff, pure, Option.some.injEq] at h
  obtain ⟨cs, -, rfl⟩ := h
  cases written <;> rfl

/-- An update that leaves the components within alone changes neither what stands where, nor how
ids nest. -/
lemma frame_update? (hs : s.IsTidy) {u : Update} (hu : u.children = none)
    {written : Option (Path × Text)} (hwritten : ∀ r ∈ written, s.owners.lookup id = some r.1)
    (h : s.update? id u written = some t) :
    t.IsTidy ∧ (∀ i, t.owners.lookup i = s.owners.lookup i)
      ∧ (∀ q, outlineAll (t.standing q) = outlineAll (s.standing q))
      ∧ t.files = written.elim s.files fun r => s.files.insert r.1 r.2 := by
  simp only [update?, Option.bind_eq_bind, Option.bind_eq_some_iff, pure, Option.some.injEq] at h
  obtain ⟨cs, hcs, rfl⟩ := h
  have hf (c : Component) : (u.apply c).id = c.id ∧ (u.apply c).children = c.children := by
    simp [Update.apply, hu]
  have hout := (modifies_of_modifyAll? hcs).outlineAll_eq hf
  cases written with
  | none =>
      have hlookup (i : String) : s.owners.lookup i = s.owners.lookup i := rfl
      exact ⟨hs.congr hout hlookup hs.nodup_owners, hlookup,
        outlineAll_standing_congr hout hlookup, rfl⟩
  | some r =>
      have hlookup (i : String) : (s.owners.set id r.1).lookup i = s.owners.lookup i := by
        rw [Owners.lookup_set]
        split_ifs with hi
        · rw [hi, hwritten r rfl]
        · rfl
      exact ⟨hs.congr hout hlookup (Owners.nodup_set hs.nodup_owners id r.1), hlookup,
        outlineAll_standing_congr hout hlookup, rfl⟩

/-- A component of distinct ids that is removed is gone with those within it. -/
lemma exists_removeFrom_eq (hs : s.IdsDistinct) (hid : id ∈ idsAll s.components) (p : Path)
    (code : Text) : ∃ gone, s.find? id = some gone
      ∧ s.removeFrom id p code = { s with
          components := prunedAll (· = id) s.components
          files := s.files.insert p code
          owners := s.owners.eraseAll gone.ids } := by
  obtain ⟨gone, hdetach, hfind⟩ := detach?_of_mem hid (List.nodup_iff_count_le_one.mp hs id)
  refine ⟨gone, hfind, ?_⟩
  rw [removeFrom, remove?_eq_detach?, hdetach]
  rfl

/-- A component removed no longer stands in its file. -/
lemma turned_removeFrom (hs : s.IsTidy) (hid : s.owners.lookup id = some p) (code : Text) :
    Turned p code s (s.removeFrom id p code)
      ∧ (s.removeFrom id p code).standing p = prunedAll (· = id) (s.standing p) := by
  have hmem : id ∈ idsAll s.components := by
    by_contra hno
    rw [hs.lookup_eq_none_iff.mpr hno] at hid
    cases hid
  obtain ⟨gone, hfind, hstate⟩ := exists_removeFrom_eq hs.distinct hmem p code
  have hkept (i : String) : i ∈ idsAll (prunedAll (· = id) s.components)
      ↔ i ∈ idsAll s.components ∧ i ∉ gone.ids :=
    mem_idsAll_prunedAll_of_findAll? hs.distinct hfind
  have hlookup (i : String) (hi : i ∈ idsAll (prunedAll (· = id) s.components)) :
      (s.owners.eraseAll gone.ids).lookup i = s.owners.lookup i := by
    rw [Owners.lookup_eraseAll, if_neg ((hkept i).mp hi).2]
  have hstanding (q : Path) : (s.removeFrom id p code).standing q
      = prunedAll (· = id) (s.standing q) := by
    rw [hstate, standing, standing, ← filter_prunedAll]
    refine List.filter_congr fun c hc => State.standsIn_eq (hlookup c.id ?_) q
    exact roots_subset_idsAll _ (List.mem_map_of_mem hc)
  have htidy : (s.removeFrom id p code).IsTidy := by
    rw [hstate]
    refine .of_lookup (hs.distinct.sublist (idsAll_prunedAll_sublist _ _))
      (Owners.nodup_eraseAll hs.nodup_owners _) (fun i => ?_) fun c hc i hi => ?_
    · rw [Owners.lookup_eraseAll, hkept]
      split_ifs with hi
      · simp [hi]
      · simp [hi, hs.lookup_eq_none_iff]
    · change (s.owners.eraseAll gone.ids).lookup i = (s.owners.eraseAll gone.ids).lookup c.id
      rw [hlookup i (mem_idsAll_iff_exists.mpr ⟨c, hc, hi⟩),
        hlookup c.id (roots_subset_idsAll _ (List.mem_map_of_mem hc))]
      rw [prunedAll_eq_map_filter] at hc
      obtain ⟨d, hd, rfl⟩ := List.mem_map.mp hc
      rw [id_pruned]
      exact hs.whole d (List.mem_filter.mp hd).1 i ((ids_pruned_sublist _ d).subset hi)
  have howners (i : String) (q : Path) (hq : (s.removeFrom id p code).owners.lookup i = some q) :
      s.owners.lookup i = some q := by
    rw [hstate, Owners.lookup_eraseAll] at hq
    split_ifs at hq
    exact hq
  have hothers (q : Path) (hq : p.same q = false) : id ∉ idsAll (s.standing q) := fun hin => by
    have hstands := (hs.mem_idsAll_standing_iff.mp hin).2
    rw [standsIn_of_lookup hid, hq] at hstands
    cases hstands
  refine ⟨⟨htidy, fun i q hq => .inr (howners i q hq), fun q => ?_, fun q hq => ?_⟩, hstanding p⟩
  · rw [hstate]
    exact Storage.Files.get?_insert ..
  · rw [hstanding, prunedAll_of_notMem (hothers q hq)]

/-! ### A file read again -/

/-- A file that is read again has all that is recorded for it, and nothing that is recorded for
others. -/
structure Covers (s : State) (p : Path) (found : List Component) : Prop where
  distinct : (idsAll found).Nodup
  /-- What stands in the file is found. -/
  kept : ∀ i ∈ idsAll s.components, s.standsIn p i → i ∈ idsAll found
  /-- What is found stands in the file, or is new. -/
  own : ∀ i ∈ idsAll found, i ∈ idsAll s.components → s.standsIn p i
  /-- What stands outermost in the file is found so. -/
  outermost : ∀ c ∈ s.standing p, c.id ∈ found.map Component.id

lemma lookup_resync (hs : s.IsTidy) (p : Path) (source : Text) (found : List Component)
    (i : String) : (s.resync p source found).1.owners.lookup i = if i ∈ idsAll found then some p
      else if s.standsIn p i then none else s.owners.lookup i := by
  rw [resync_eq]
  exact lookup_reread hs.nodup_owners p found i

lemma outlineAll_carryOverAll (s : State) (cs : List Component) :
    outlineAll (s.carryOverAll cs) = outlineAll cs := by
  induction cs using forestInduction with
  | nil => rfl
  | cons c cs ihc ihcs =>
      obtain ⟨id, tag, name, props, children, position⟩ := c
      rw [carryOverAll, carryOver, outlineAll_cons, outlineAll_cons, ihcs, outline_eq, outline_eq]
      exact congrArg (fun ds => { ofTag id "" with children := ds } :: outlineAll cs) ihc

namespace Covers

variable (h : s.Covers p found) (hs : s.IsTidy) (source : Text)
include h hs

lemma standsIn_of_mem_replaced (hi : i ∈ idsAll s.components) (hrep : i ∈ s.replaced p found) :
    s.standsIn p i := by
  rw [replaced, List.mem_append, mem_stale_iff hs.nodup_owners] at hrep
  rcases hrep with hrep | hrep
  · exact hrep.1
  · exact h.own i (roots_subset_idsAll _ hrep) hi

/-- Of what was known before, the components of other files stay. -/
lemma prunedAll_eq : prunedAll (· ∈ s.replaced p found) s.components = s.besides p := by
  have hdrop : ∀ c ∈ s.components, (!decide (c.id ∈ s.replaced p found)) = !s.standsIn p c.id := by
    intro c hc
    have hmem := roots_subset_idsAll _ (List.mem_map_of_mem (f := Component.id) hc)
    congr 1
    rw [Bool.eq_iff_iff, decide_eq_true_iff]
    refine ⟨h.standsIn_of_mem_replaced hs hmem, fun hin => List.mem_append_right _ ?_⟩
    exact h.outermost c (List.mem_filter.mpr ⟨hc, hin⟩)
  rw [prunedAll_eq_map_filter, List.filter_congr hdrop]
  refine (List.map_congr_left fun c hc => ?_).trans (List.map_id _)
  obtain ⟨hc, hout⟩ := List.mem_filter.mp hc
  refine pruned_eq_self (prunedAll_eq_self fun i hi => decide_eq_false fun hrep => ?_)
  have hic : i ∈ c.ids := by simp [ids_eq, hi]
  have hin := h.standsIn_of_mem_replaced hs (mem_idsAll_iff_exists.mpr ⟨c, hc, hic⟩) hrep
  rw [hs.standsIn_eq hc hic] at hin
  simp [hin] at hout

lemma components_resync :
    (s.resync p source found).1.components = s.besides p ++ s.carryOverAll found := by
  rw [resync_components hs.distinct h.distinct, h.prunedAll_eq hs]

/-- What does not stand in the file is not found there. -/
lemma notMem_of_mem_besides (hi : i ∈ idsAll (s.besides p)) : i ∉ idsAll found := fun hfound => by
  obtain ⟨hmem, hout⟩ := hs.mem_idsAll_besides_iff.mp hi
  rw [h.own i hfound hmem] at hout
  cases hout

lemma lookup_of_mem_besides (hi : i ∈ idsAll (s.besides p)) :
    (s.resync p source found).1.owners.lookup i = s.owners.lookup i := by
  rw [lookup_resync hs, if_neg (h.notMem_of_mem_besides hs hi),
    if_neg (by simp [(hs.mem_idsAll_besides_iff.mp hi).2])]

omit h in
lemma lookup_of_mem_carryOverAll (hi : i ∈ idsAll (s.carryOverAll found)) :
    (s.resync p source found).1.owners.lookup i = some p := by
  rw [idsAll_carryOverAll] at hi
  rw [lookup_resync hs, if_pos hi]

/-- What is known is in order after the file is read. -/
lemma isTidy_resync : (s.resync p source found).1.IsTidy := by
  have hcomponents := h.components_resync hs source
  refine .of_lookup ?_ ?_ (fun i => ?_) fun c hc i hi => ?_
  · rw [IdsDistinct, hcomponents, idsAll_append, idsAll_carryOverAll, List.nodup_append]
    refine ⟨hs.distinct.sublist (idsAll_sublist List.filter_sublist), h.distinct, ?_⟩
    rintro i hi _ hj rfl
    exact h.notMem_of_mem_besides hs hi hj
  · rw [resync_eq]
    exact nodup_foldl_adopt (nodup_foldl_forget hs.nodup_owners _) p _
  · rw [hcomponents, idsAll_append, idsAll_carryOverAll, List.mem_append,
      hs.mem_idsAll_besides_iff, lookup_resync hs]
    have hkept := h.kept i
    have hnone := hs.lookup_eq_none_iff (i := i)
    split_ifs with hf hin
    · simp [hf]
    · simp [hf, hin]
    · simp [hf, hin, hnone]
  · rw [hcomponents, List.mem_append] at hc
    rcases hc with hc | hc
    · rw [h.lookup_of_mem_besides hs source (mem_idsAll_iff_exists.mpr ⟨c, hc, hi⟩),
        h.lookup_of_mem_besides hs source (roots_subset_idsAll _ (List.mem_map_of_mem hc))]
      exact hs.whole c (List.mem_filter.mp hc).1 i hi
    · rw [lookup_of_mem_carryOverAll hs source (mem_idsAll_iff_exists.mpr ⟨c, hc, hi⟩),
        lookup_of_mem_carryOverAll hs source (roots_subset_idsAll _ (List.mem_map_of_mem hc))]

/-- In each file stands what did, or what is found if it is the file that is read. -/
lemma standing_resync (q : Path) : (s.resync p source found).1.standing q
    = ((s.besides p).filter fun c => s.standsIn q c.id)
      ++ if p.same q then s.carryOverAll found else [] := by
  rw [standing, h.components_resync hs source, List.filter_append]
  congr 1
  · exact List.filter_congr fun c hc => State.standsIn_eq
      (h.lookup_of_mem_besides hs source (roots_subset_idsAll _ (List.mem_map_of_mem hc))) q
  · have hq : ∀ c ∈ s.carryOverAll found,
        (s.resync p source found).1.standsIn q c.id = p.same q := fun c hc =>
      standsIn_of_lookup
        (lookup_of_mem_carryOverAll hs source (roots_subset_idsAll _ (List.mem_map_of_mem hc)))
    rw [List.filter_congr hq]
    cases p.same q <;> simp

end Covers

/-- A file read again has what is found in it. -/
lemma turned_resync (hs : s.IsTidy) (h : s.Covers p found) (source : Text) :
    Turned p source s (s.resync p source found).1
      ∧ outlineAll ((s.resync p source found).1.standing p) = outlineAll found := by
  refine ⟨⟨h.isTidy_resync hs source, fun i q hq => ?_, fun q => ?_, fun q hq => ?_⟩, ?_⟩
  · rw [lookup_resync hs] at hq
    split_ifs at hq
    · exact .inl (Option.some.inj hq).symm
    · exact .inr hq
  · rw [resync_eq]
    exact (Storage.Files.get?_insert ..).trans (by rw [files_reread])
  · rw [h.standing_resync hs source, hq, if_neg (by simp), List.append_nil, filter_besides hq]
  · have hnone : ((s.besides p).filter fun c => s.standsIn p c.id) = [] := by
      simp [besides]
    rw [h.standing_resync hs source, if_pos (Path.same_self p), hnone, List.nil_append,
      outlineAll_carryOverAll]

end State

end CanvasSync.Project
