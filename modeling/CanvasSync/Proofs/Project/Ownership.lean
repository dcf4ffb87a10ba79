import CanvasSync.Proofs.Project.Standing

/-!
Whether files are recorded for just the components that are known.

* `State.OwnsExactly`: for every component that is known, within others or not, and for no others,
  a file is recorded, and that is one whose text is known;
* `ownsExactly_update?_iff`: an update keeps this exactly if the components that it puts within a
  component have the ids of those that stood there (`State.Rearranges`);
* `ownsExactly_resync_iff`, `ownsExactly_forgetFile_iff`: so does a change of a file that is taken
  note of exactly if the trees that go have nothing of other files within them (`State.Spares`);
* `states_ownsExactly_iff`: it holds in every project that moves lead through exactly if every call
  keeps it;
* `states_not_ownsExactly`: no file is recorded for a component that an update puts within another
  one.
-/

namespace CanvasSync.Project

open CanvasSync.Component
open CanvasSync.Storage (ChangeKind Disk Files Path)

/-! ### What is recorded for which components -/

namespace State

variable {s t : State} {id i : String} {p : Path} {c : Component} {code : Text}
  {found : List Component} {u : Update} {written : Option (Path × Text)}

/-- No id is that of two components, and none is recorded twice. -/
structure IsOrderly (s : State) : Prop where
  distinct : s.IdsDistinct
  recorded : (s.owners.map Prod.fst).Nodup

/-- Files are recorded for just the components that are known, and their texts are known. -/
structure OwnsExactly (s : State) : Prop where
  owned : ∀ i, (s.owners.lookup i).isSome ↔ i ∈ idsAll s.components
  known : ∀ i p, s.owners.lookup i = some p → (s.files.get? p).isSome

lemma isOrderly_ofRoot (root : Path) : (ofRoot root).IsOrderly := ⟨List.nodup_nil, List.nodup_nil⟩

lemma ownsExactly_ofRoot (root : Path) : (ofRoot root).OwnsExactly := by
  constructor <;> simp [ofRoot]

/-- The text of a file that is recorded is known still, and so is that of a file that is set. -/
lemma known_of_insert (hs : s.OwnsExactly)
    (howners : ∀ i q, t.owners.lookup i = some q → q = p ∨ s.owners.lookup i = some q)
    (hfiles : t.files = s.files.insert p code) (i : String) (q : Path)
    (hq : t.owners.lookup i = some q) : (t.files.get? q).isSome := by
  rw [hfiles, Files.get?_insert]
  split_ifs with hsame
  · rfl
  · rcases howners i q hq with rfl | hq
    · exact absurd (Path.same_self q) hsame
    · exact hs.known i q hq

/-- A component of new ids that is added is recorded with all within it. -/
lemma OwnsExactly.add (hs : s.OwnsExactly) (hnew : ∀ i ∈ c.ids, i ∉ idsAll s.components) (p : Path)
    (code : Text) : (s.add c p code).OwnsExactly := by
  have hlookup (i : String) : (s.add c p code).owners.lookup i
      = if i ∈ c.ids then some p else s.owners.lookup i := Owners.lookup_setAll
  refine ⟨fun i => ?_, known_of_insert hs (fun i q hq => ?_) rfl⟩
  · rw [hlookup, idsAll_add hnew, List.mem_append, ← hs.owned]
    split_ifs with hi <;> simp [hi]
  · rw [hlookup] at hq
    split_ifs at hq with hi
    · exact .inl (Option.some.inj hq).symm
    · exact .inr hq

lemma IsOrderly.add (hs : s.IsOrderly) (hc : c.ids.Nodup)
    (hnew : ∀ i ∈ c.ids, i ∉ idsAll s.components) (p : Path) (code : Text) :
    (s.add c p code).IsOrderly :=
  ⟨hs.distinct.add hc hnew p code, Owners.nodup_setAll hs.recorded c.ids p⟩

/-- A component removed is no longer recorded, nor is any within it. -/
lemma OwnsExactly.removeFrom (hs : s.OwnsExactly) (hdistinct : s.IdsDistinct) (id : String)
    (p : Path) (code : Text) : (s.removeFrom id p code).OwnsExactly := by
  by_cases hid : id ∈ idsAll s.components
  · obtain ⟨gone, hfind, hstate⟩ := exists_removeFrom_eq hdistinct hid p code
    have hlookup (i : String) : (s.removeFrom id p code).owners.lookup i
        = if i ∈ gone.ids then none else s.owners.lookup i := by
      rw [hstate, Owners.lookup_eraseAll]
    refine ⟨fun i => ?_, known_of_insert hs (fun i q hq => ?_) (by rw [hstate])⟩
    · rw [hlookup, hstate, mem_idsAll_prunedAll_of_findAll? hdistinct hfind, ← hs.owned]
      split_ifs with hi <;> simp [hi]
    · rw [hlookup] at hq
      split_ifs at hq
      exact .inr hq
  · have hstate : s.removeFrom id p code = s.record p code := by
      rw [State.removeFrom, remove?_eq_detach?, detach?_eq_none hid]
      rfl
    rw [hstate]
    exact ⟨hs.owned, known_of_insert hs (fun _ _ hq => .inr hq) rfl⟩

lemma IsOrderly.removeFrom (hs : s.IsOrderly) (id : String) (p : Path) (code : Text) :
    (s.removeFrom id p code).IsOrderly := by
  refine ⟨hs.distinct.removeFrom id p code, ?_⟩
  rw [State.removeFrom, remove?_eq_detach?]
  cases detach? id s.components with
  | none => exact hs.recorded
  | some r => exact Owners.nodup_eraseAll hs.recorded r.1.ids

/-! ### Components put within another one -/

/-- The components that are put within a component have distinct ids, of which each is new or stood
there before. -/
def TakesNew (s : State) (id : String) (cs : List Component) : Prop :=
  (idsAll cs).Nodup
    ∧ ∀ c ∈ s.find? id, ∀ i ∈ idsAll cs, i ∈ idsAll s.components → i ∈ idsAll c.children

/-- The components that are put within a component have the ids of those that stood there. -/
def Rearranges (s : State) (id : String) (cs : List Component) : Prop :=
  ∀ c ∈ s.find? id, (idsAll cs).Perm (idsAll c.children)

instance (s : State) (id : String) (cs : List Component) : Decidable (s.TakesNew id cs) :=
  inferInstanceAs (Decidable (_ ∧ ∀ _ ∈ _, ∀ _ ∈ _, _ → _))

instance (s : State) (id : String) (cs : List Component) : Decidable (s.Rearranges id cs) :=
  inferInstanceAs (Decidable (∀ _ ∈ _, _))

/-- What an update does to the ids that are known, and to what is recorded. -/
lemma exists_ids_update? (h : s.update? id u written = some t) :
    (∃ c xs ys, s.find? id = some c ∧ idsAll s.components = xs ++ idsAll c.children ++ ys
        ∧ idsAll t.components = xs ++ idsAll (u.children.getD c.children) ++ ys)
      ∧ t.owners = written.elim s.owners fun r => s.owners.set id r.1 := by
  simp only [update?, Option.bind_eq_bind, Option.bind_eq_some_iff, pure, Option.some.injEq] at h
  obtain ⟨cs, hcs, rfl⟩ := h
  have hf (c : Component) : (u.apply c).id = c.id := rfl
  cases written <;> exact ⟨(modifies_of_modifyAll? hcs).exists_idsAll hf, rfl⟩

/-- Distinct ids stay so if some that stand together are replaced by new ones, or by such as stood
there. -/
lemma nodup_replaced {xs old new ys : List String} (h : (xs ++ old ++ ys).Nodup) (hnew : new.Nodup)
    (hin : ∀ i ∈ new, i ∈ xs ++ old ++ ys → i ∈ old) : (xs ++ new ++ ys).Nodup := by
  have hfront (zs : List String) : (xs ++ zs ++ ys).Perm (zs ++ (xs ++ ys)) := by
    rw [List.append_assoc]
    exact List.perm_append_comm_assoc xs zs ys
  rw [(hfront old).nodup_iff, List.nodup_append'] at h
  rw [(hfront new).nodup_iff, List.nodup_append']
  refine ⟨hnew, h.2.1, fun i hi hrest => h.2.2 (hin i hi ?_) hrest⟩
  exact (hfront old).mem_iff.mpr (List.mem_append_right old hrest)

/-- An update keeps ids distinct if what it puts within a component is new. -/
lemma IsOrderly.update? (hs : s.IsOrderly) (hnew : ∀ cs ∈ u.children, s.TakesNew id cs)
    (h : s.update? id u written = some t) : t.IsOrderly := by
  obtain ⟨⟨c, xs, ys, hfind, hold, hids⟩, howners⟩ := exists_ids_update? h
  refine ⟨?_, ?_⟩
  · have hdistinct := hs.distinct
    rw [IdsDistinct, hold] at hdistinct
    rw [IdsDistinct, hids]
    cases hchildren : u.children with
    | none => exact hdistinct
    | some cs =>
        obtain ⟨hnodup, hin⟩ := hnew cs hchildren
        refine nodup_replaced hdistinct hnodup fun i hi hmem => ?_
        exact hin c hfind i hi (hold ▸ hmem)
  · rw [howners]
    cases written with
    | none => exact hs.recorded
    | some r => exact Owners.nodup_set hs.recorded id r.1

/-- **An update keeps files recorded for just the components that are known** exactly if what it
puts within a component has the ids of what stood there. -/
lemma ownsExactly_update?_iff (hs : s.IsOrderly) (hexact : s.OwnsExactly)
    (hnew : ∀ cs ∈ u.children, s.TakesNew id cs) (h : s.update? id u written = some t) :
    t.OwnsExactly ↔ ∀ cs ∈ u.children, s.Rearranges id cs := by
  have hdistinct : (idsAll t.components).Nodup := (hs.update? hnew h).distinct
  obtain ⟨⟨c, xs, ys, hfind, hold, hids⟩, howners⟩ := exists_ids_update? h
  have hid : id ∈ idsAll s.components := findAll?_isSome_iff.mp (by rw [← find?, hfind]; rfl)
  -- what is recorded is recorded for the same components as before
  have howned (i : String) : (t.owners.lookup i).isSome ↔ i ∈ idsAll s.components := by
    rw [howners, ← hexact.owned]
    cases written with
    | none => rfl
    | some r =>
        rw [Option.elim_some, Owners.lookup_set]
        split_ifs with hi
        · simpa [hi] using (hexact.owned id).mpr hid
        · rfl
  have hknown (i : String) (q : Path) (hq : t.owners.lookup i = some q) :
      (t.files.get? q).isSome := by
    cases written with
    | none =>
        rw [files_update? h]
        rw [howners] at hq
        exact hexact.known i q hq
    | some r =>
        refine known_of_insert hexact (p := r.1) (fun i q hq => ?_) (files_update? h) i q hq
        rw [howners, Option.elim_some, Owners.lookup_set] at hq
        split_ifs at hq
        · exact .inl (Option.some.inj hq).symm
        · exact .inr hq
  have hsame : t.OwnsExactly ↔ (idsAll t.components).Perm (idsAll s.components) := by
    rw [List.perm_ext_iff_of_nodup hdistinct hs.distinct]
    refine ⟨fun ht i => (ht.owned i).symm.trans (howned i), fun ht => ⟨fun i => ?_, hknown⟩⟩
    rw [howned, ht]
  rw [hsame, hids, hold]
  cases hchildren : u.children with
  | none => simp
  | some cs =>
      simp [Rearranges, hfind, List.perm_append_left_iff, List.perm_append_right_iff]

/-! ### Changes of files -/

/-- The trees that go when a file is read again have nothing of other files within them, but for what
is in the file now. -/
def Spares (s : State) (p : Path) (found : List Component) : Prop :=
  ∀ c ∈ nodesAll s.components, c.id ∈ s.replaced p found →
    ∀ i ∈ c.ids, i ∈ idsAll found ∨ s.standsIn p i

instance (s : State) (p : Path) (found : List Component) : Decidable (s.Spares p found) :=
  inferInstanceAs (Decidable (∀ _ ∈ _, _ → ∀ _ ∈ _, _ ∨ _))

lemma spares_ofRoot (root p : Path) (found : List Component) : (ofRoot root).Spares p found :=
  fun _ hc => absurd hc List.not_mem_nil

/-- What is recorded for the components of a file is replaced together with the trees that go exactly
if these have nothing of other files within them. -/
lemma owned_iff_spares (hs : s.IsOrderly) (hexact : s.OwnsExactly)
    (hlookup : ∀ i, t.owners.lookup i = if i ∈ idsAll found then some p
      else if s.standsIn p i then none else s.owners.lookup i)
    (hids : ∀ i, i ∈ idsAll t.components ↔ i ∈ idsAll found
      ∨ i ∈ idsAll (prunedAll (· ∈ s.replaced p found) s.components)) :
    (∀ i, (t.owners.lookup i).isSome ↔ i ∈ idsAll t.components) ↔ s.Spares p found := by
  have hpruned (i : String) : i ∈ idsAll (prunedAll (· ∈ s.replaced p found) s.components)
      ↔ i ∈ idsAll s.components
        ∧ ∀ c ∈ nodesAll s.components, c.id ∈ s.replaced p found → i ∉ c.ids :=
    mem_idsAll_prunedAll_mem_iff hs.distinct
  constructor
  · intro howned c hc hgoes i hi
    by_contra hno
    rw [not_or] at hno
    have hold : (s.owners.lookup i).isSome :=
      (hexact.owned i).mpr (ids_subset_of_mem_nodesAll hc hi)
    have hstays := (howned i).mp (by rw [hlookup, if_neg hno.1, if_neg hno.2]; exact hold)
    exact ((hpruned i).mp (((hids i).mp hstays).resolve_left hno.1)).2 c hc hgoes hi
  · intro hspares i
    rw [hlookup, hids]
    split_ifs with hi hin
    · simp [hi]
    · -- a component of the file that is not found goes
      refine iff_of_false (by simp) (not_or.mpr ⟨hi, fun hstays => ?_⟩)
      obtain ⟨hold, hkept⟩ := (hpruned i).mp hstays
      rw [idsAll_eq_map_nodesAll] at hold
      obtain ⟨c, hc, rfl⟩ := List.mem_map.mp hold
      refine hkept c hc (List.mem_append_left _ ?_) (id_mem_ids c)
      exact (mem_stale_iff hs.recorded).mpr ⟨hin, hi⟩
    · rw [hexact.owned, or_iff_right hi, hpruned]
      refine (and_iff_left_of_imp fun _ c hc hgoes hic => ?_).symm
      rcases hspares c hc hgoes i hic with h | h
      · exact hi h
      · exact hin h

/-- **A file read again keeps files recorded for just the components that are known** exactly if the
trees that go have nothing of other files within them. -/
lemma ownsExactly_resync_iff (hs : s.IsOrderly) (hexact : s.OwnsExactly)
    (hfound : (idsAll found).Nodup) (p : Path) (source : Text) :
    (s.resync p source found).1.OwnsExactly ↔ s.Spares p found := by
  have hlookup (i : String) : (s.resync p source found).1.owners.lookup i
      = if i ∈ idsAll found then some p
        else if s.standsIn p i then none else s.owners.lookup i := by
    rw [resync_eq]
    exact lookup_reread hs.recorded p found i
  have hids (i : String) : i ∈ idsAll (s.resync p source found).1.components ↔ i ∈ idsAll found
      ∨ i ∈ idsAll (prunedAll (· ∈ s.replaced p found) s.components) := by
    rw [resync_components hs.distinct hfound, idsAll_append, idsAll_carryOverAll, List.mem_append,
      or_comm]
  have hfiles : (s.resync p source found).1.files = s.files.insert p source := by
    rw [resync_eq, files_reread]
  rw [← owned_iff_spares hs hexact hlookup hids]
  refine ⟨OwnsExactly.owned, fun howned => ⟨howned, known_of_insert hexact (fun i q hq => ?_) hfiles⟩⟩
  rw [hlookup] at hq
  split_ifs at hq
  · exact .inl (Option.some.inj hq).symm
  · exact .inr hq

lemma IsOrderly.resync (hs : s.IsOrderly) (hfound : (idsAll found).Nodup)
    (hreleases : s.Releases p found) (source : Text) : (s.resync p source found).1.IsOrderly := by
  refine ⟨(resync_idsDistinct_iff hs.distinct hfound p source).mpr hreleases, ?_⟩
  rw [resync_eq]
  exact nodup_foldl_adopt (nodup_foldl_forget hs.recorded _) p _

/-- **A file forgotten keeps files recorded for just the components that are known** exactly if the
trees that go have nothing of other files within them. -/
lemma ownsExactly_forgetFile_iff (hs : s.IsOrderly) (hexact : s.OwnsExactly) (p : Path) :
    (s.forgetFile p).OwnsExactly ↔ s.Spares p [] := by
  have hforgotten := forgotten_dropOwned { s with files := s.files.erase p } p []
  have hlookup (i : String) : (s.forgetFile p).owners.lookup i
      = if i ∈ idsAll [] then some p
        else if s.standsIn p i then none else s.owners.lookup i := by
    rw [idsAll_nil, if_neg List.not_mem_nil]
    refine (hforgotten.lookup i).trans ?_
    have hstale : i ∈ s.stale p [] ↔ s.standsIn p i := by simp [mem_stale_iff hs.recorded]
    exact if_congr hstale rfl rfl
  have hids (i : String) : i ∈ idsAll (s.forgetFile p).components ↔ i ∈ idsAll []
      ∨ i ∈ idsAll (prunedAll (· ∈ s.replaced p []) s.components) := by
    have hdropped : (s.forgetFile p).components
        = prunedAll (· ∈ s.stale p []) s.components :=
      dropOwned_components (s := { s with files := s.files.erase p }) hs.distinct p []
    rw [hdropped]
    simp [replaced]
  rw [← owned_iff_spares hs hexact hlookup hids]
  refine ⟨OwnsExactly.owned, fun howned => ⟨howned, fun i q hq => ?_⟩⟩
  rw [hlookup, idsAll_nil, if_neg List.not_mem_nil] at hq
  split_ifs at hq with hin
  have hother : q.same p = false := by simpa [standsIn, hq] using hin
  have hfiles : (s.forgetFile p).files = s.files.erase p := hforgotten.files
  rw [hfiles, Files.get?_erase, Path.same_comm, if_neg (by simp [hother])]
  exact hexact.known i q hq

lemma IsOrderly.forgetFile (hs : s.IsOrderly) (p : Path) : (s.forgetFile p).IsOrderly :=
  ⟨hs.distinct.forgetFile p,
    nodup_foldl_forget (s := { s with files := s.files.erase p }) hs.recorded _⟩

end State

/-! ### Calls -/

variable {s t : Session} {call : Call} {m : Move} {e : Event} {p : Path}

/-- The file of which a call notes a change, with the components that are in it now, unless it is
held or cannot be read. -/
def Session.noted? (s : Session) : Call → Option (Path × List Component)
  | .resync p .removed => if s.isLocked (s.resolve p) then none else some (s.resolve p, [])
  | call => s.takenOver? call

/-- What an update puts within a component is new, or stood there before. -/
def Session.TakesNew (s : Session) : Call → Prop
  | .update i u => ∀ cs ∈ u.children, s.state.TakesNew i cs
  | _ => True

/-- A call keeps files recorded for just the components that are known: what it puts within a
component has the ids of what stood there, and trees that go have nothing of other files within
them. -/
def Session.KeepsOwners (s : Session) : Call → Prop
  | .update i u => ∀ cs ∈ u.children,
      (s.perform (.update i u)).1.event?.isSome → s.state.Rearranges i cs
  | call => ∀ r ∈ s.noted? call, s.state.Spares r.1 r.2

instance (s : Session) : ∀ call : Call, Decidable (s.TakesNew call)
  | .update _ _ => inferInstanceAs (Decidable (∀ _ ∈ _, _))
  | .add _ _ _ | .remove _ | .resync _ _ => .isTrue trivial

instance (s : Session) : ∀ call : Call, Decidable (s.KeepsOwners call)
  | .update _ _ => inferInstanceAs (Decidable (∀ _ ∈ _, _ → _))
  | .add _ _ _ | .remove _ | .resync _ _ => inferInstanceAs (Decidable (∀ _ ∈ _, _))

/-- Nothing stands in the way of a call on a project of which nothing is known. -/
lemma keepsOwners_start (config : Config) (root : Path) (d : Disk) (p : Path) (kind : ChangeKind) :
    (Session.start config root d).KeepsOwners (.resync p kind) :=
  fun r _ => State.spares_ofRoot root r.1 r.2

/-- A call that waits for a file notes no change. -/
lemma noted?_of_isLocked (hbegin : call.begin s = .ok (some p, t)) (hp : s.isLocked p = true) :
    s.noted? call = none := by
  have htaken := takenOver?_of_isLocked hbegin hp
  cases call with
  | resync q kind =>
      obtain rfl := Option.some.inj (Call.begin_resync hbegin).1
      cases kind with
      | removed => rw [Session.noted?, if_pos hp]
      | _ => exact htaken
  | _ => exact htaken

/-- A call that fails notes no change. -/
lemma Failed.noted?_eq_none {f : Fault} (h : Failed s call f) : s.noted? call = none := by
  have htaken := h.takenOver?_eq_none
  cases call with
  | resync q kind =>
      cases kind with
      | removed =>
          -- a file that is gone is not read, so nothing can fail
          cases h with
          | refused hbegin => simp [Call.begin] at hbegin
          | undrafted hbegin hdraft => simp [Call.draft] at hdraft
          | unwritten hbegin hdraft => simp [Call.draft] at hdraft
      | _ => exact htaken
  | _ => exact htaken

/-- A call is settled, or it changes nothing that is known and notes no change. -/
lemma perform_settled_or (s : Session) (call : Call) :
    (∃ e t, s.perform call = (.finished (.ok e), t) ∧ Settled s call e t)
      ∨ (s.perform call).2.state = s.state ∧ (s.perform call).1.event? = none
        ∧ s.noted? call = none := by
  rcases perform_cases s call with ⟨f, h, hf⟩ | ⟨p, t, h, hbegin, hp⟩ | hsettled
  · rw [h]
    exact .inr ⟨rfl, rfl, hf.noted?_eq_none⟩
  · rw [h]
    obtain ⟨rfl, -⟩ := Call.begin_eq_ok hbegin
    exact .inr ⟨rfl, rfl, noted?_of_isLocked hbegin hp⟩
  · exact .inl hsettled

/-- A change of a file that is taken note of keeps files recorded for just the components that are
known exactly if the trees that go have nothing of other files within them. -/
lemma Settled.ownsExactly_resync_iff {kind : ChangeKind} (h : Settled s (.resync p kind) e t)
    (hs : s.state.IsOrderly) (hexact : s.state.OwnsExactly)
    (hread : s.ReadsDistinct (.resync p kind)) (hgo : s.LetsGo (.resync p kind)) :
    t.state.IsOrderly ∧ (t.state.OwnsExactly ↔ s.KeepsOwners (.resync p kind)) := by
  rcases h.of_resync with ⟨rfl, hfree, hstate⟩ | ⟨source, found, htaken, hstate⟩ <;> rw [hstate]
  · refine ⟨hs.forgetFile _, (State.ownsExactly_forgetFile_iff hs hexact _).trans ?_⟩
    simp [Session.KeepsOwners, Session.noted?, hfree]
  · have hnoted : s.noted? (.resync p kind) = some (s.resolve p, found) := by
      cases kind with
      | removed => cases htaken
      | _ => exact htaken
    have hfound : (idsAll found).Nodup := hread _ htaken
    refine ⟨hs.resync hfound (hgo _ htaken) source,
      (State.ownsExactly_resync_iff hs hexact hfound _ source).trans ?_⟩
    simp [Session.KeepsOwners, hnoted]

/-- **A call keeps files recorded for just the components that are known** exactly if what it puts
within a component has the ids of what stood there, and the trees that go have nothing of other files
within them. -/
lemma perform_ownsExactly_iff (hs : s.state.IsOrderly) (hexact : s.state.OwnsExactly)
    (hread : s.ReadsDistinct call) (hgo : s.LetsGo call) (hnew : s.TakesNew call) :
    (s.perform call).2.state.IsOrderly
      ∧ ((s.perform call).2.state.OwnsExactly ↔ s.KeepsOwners call) := by
  rcases perform_settled_or s call with ⟨e, t, heq, h⟩ | ⟨hsame, hsilent, hnone⟩
  · rw [heq]
    cases call with
    | add c file target =>
        obtain ⟨hnodup, hids, p, code, hstate⟩ := h.of_add
        rw [hstate]
        exact ⟨hs.add hnodup hids p code, iff_of_true (hexact.add hids p code)
          (by simp [Session.KeepsOwners, Session.noted?, Session.takenOver?])⟩
    | update i u =>
        obtain ⟨written, hstate⟩ := h.of_update
        refine ⟨hs.update? hnew hstate,
          (State.ownsExactly_update?_iff hs hexact hnew hstate).trans ?_⟩
        simp [Session.KeepsOwners, heq, Phase.event?]
    | remove i =>
        obtain ⟨p, code, hstate⟩ := h.of_remove
        rw [hstate]
        exact ⟨hs.removeFrom i p code, iff_of_true (hexact.removeFrom hs.distinct i p code)
          (by simp [Session.KeepsOwners, Session.noted?, Session.takenOver?])⟩
    | resync q kind => exact h.ownsExactly_resync_iff hs hexact hread hgo
  · rw [hsame]
    refine ⟨hs, iff_of_true hexact ?_⟩
    cases call with
    | update i u => exact fun _ _ hevent => by simp [hsilent] at hevent
    | _ => simp [Session.KeepsOwners, hnone]

/-! ### The life of a project -/

/-- One move keeps files recorded for just the components that are known exactly if its call, if any,
does. -/
lemma move_ownsExactly_iff (hs : s.state.IsOrderly) (hexact : s.state.OwnsExactly)
    (hread : ∀ r ∈ m.call? s, r.1.ReadsDistinct r.2) (hgo : ∀ r ∈ m.call? s, r.1.LetsGo r.2)
    (hnew : ∀ r ∈ m.call? s, r.1.TakesNew r.2) :
    (s.move m).state.IsOrderly
      ∧ ((s.move m).state.OwnsExactly ↔ ∀ r ∈ m.call? s, r.1.KeepsOwners r.2) := by
  cases m with
  | call call =>
      obtain ⟨horderly, hiff⟩ :=
        perform_ownsExactly_iff hs hexact (hread _ rfl) (hgo _ rfl) (hnew _ rfl)
      exact ⟨horderly, hiff.trans (by simp [Move.call?])⟩
  | reopen root =>
      have hkeeps : ∀ r ∈ (Move.reopen root).call? s, r.1.KeepsOwners r.2 := by
        rintro ⟨t, call⟩ ht
        simp only [Move.call?, Option.mem_def, Option.bind_eq_some_iff] at ht
        obtain ⟨config, -, ht⟩ := ht
        split_ifs at ht
        obtain ⟨rfl, rfl⟩ := Prod.mk.inj (Option.some.inj ht)
        exact keepsOwners_start _ _ _ _ _
      have hstart : State.IsOrderly (.ofRoot root) ∧ State.OwnsExactly (.ofRoot root) :=
        ⟨State.isOrderly_ofRoot root, State.ownsExactly_ofRoot root⟩
      rcases move_reopen_cases s root with h | ⟨config, h⟩ | ⟨config, p, hcall, h⟩ <;> rw [h]
      · exact ⟨hs, iff_of_true hexact hkeeps⟩
      · exact ⟨hstart.1, iff_of_true hstart.2 hkeeps⟩
      · obtain ⟨horderly, hiff⟩ := perform_ownsExactly_iff (s := .start config root s.disk)
          hstart.1 hstart.2 (hread _ hcall) (hgo _ hcall) (hnew _ hcall)
        exact ⟨horderly, iff_of_true (hiff.mpr (hkeeps _ hcall)) hkeeps⟩
  | outside edit => exact ⟨hs, iff_of_true hexact (by simp [Move.call?])⟩
  | close =>
      exact ⟨State.isOrderly_ofRoot _, iff_of_true (State.ownsExactly_ofRoot _) (by simp [Move.call?])⟩

/-- Files are recorded for just the components that are known, all along, exactly if every call keeps
them so. -/
lemma forall_states_ownsExactly_iff (hs : s.state.IsOrderly) (hexact : s.state.OwnsExactly)
    (ms : List Move) (hread : EveryCall Session.ReadsDistinct s ms)
    (hgo : EveryCall Session.LetsGo s ms) (hnew : EveryCall Session.TakesNew s ms) :
    (∀ t ∈ s.states ms, t.state.OwnsExactly) ↔ EveryCall Session.KeepsOwners s ms := by
  induction ms generalizing s with
  | nil => simpa [Session.states, EveryCall] using hexact
  | cons m ms ih =>
      obtain ⟨hnext, hstep⟩ := move_ownsExactly_iff hs hexact hread.1 hgo.1 hnew.1
      rw [Session.states, List.forall_mem_cons, EveryCall, ← hstep]
      constructor
      · rintro ⟨-, hall⟩
        have hkept := hall _ (mem_states _ ms)
        exact ⟨hkept, (ih hnext hkept hread.2 hgo.2 hnew.2).mp hall⟩
      · rintro ⟨hkept, hall⟩
        exact ⟨hexact, (ih hnext hkept hread.2 hgo.2 hnew.2).mpr hall⟩

/-- **Ownership of components**: as long as every file that is taken over has distinct markers and
lets go of what it nests anew, and updates put new components within others, or such as stood there,
files are recorded for just the components that are known, and are known themselves, in every project
that moves lead through exactly if every call keeps it so: an update puts components of the same ids
in the place of those within a component, and trees that go with a file have nothing of other files
within them. -/
theorem states_ownsExactly_iff (config : Config) (root : Path) (d : Disk) (ms : List Move)
    (hread : EveryCall Session.ReadsDistinct (.start config root d) ms)
    (hgo : EveryCall Session.LetsGo (.start config root d) ms)
    (hnew : EveryCall Session.TakesNew (.start config root d) ms) :
    (∀ t ∈ (Session.start config root d).states ms, t.state.OwnsExactly)
      ↔ EveryCall Session.KeepsOwners (.start config root d) ms :=
  forall_states_ownsExactly_iff (State.isOrderly_ofRoot root) (State.ownsExactly_ofRoot root) ms
    hread hgo hnew

/-- A disk with a page that has a component within another one. -/
def nestedPage : Disk :=
  .ofFiles [(⟨"/p/page.tsx"⟩,
    "<a data-component-id=\"a\"><b data-component-id=\"b\"/></a>".toList)]

/-- A page is read, and components are put in the place of those within one of it. -/
def refill (cs : List Component) : List Move :=
  [.call (.resync ⟨"page.tsx"⟩ .changed), .call (.update "a" ⟨none, none, none, some cs⟩)]

/-- A component put in its own place is recorded still. -/
theorem states_ownsExactly_nestedPage :
    let s := Session.start .standard ⟨"/p"⟩ nestedPage
    let ms := refill [.ofTag "b" "i"]
    EveryCall Session.ReadsDistinct s ms ∧ EveryCall Session.LetsGo s ms
      ∧ EveryCall Session.TakesNew s ms ∧ ∀ t ∈ s.states ms, t.state.OwnsExactly := by
  intro s ms
  have hread : EveryCall Session.ReadsDistinct s ms := by decide +kernel
  have hgo : EveryCall Session.LetsGo s ms := by decide +kernel
  have hnew : EveryCall Session.TakesNew s ms := by decide +kernel
  exact ⟨hread, hgo, hnew,
    (states_ownsExactly_iff _ _ _ ms hread hgo hnew).mpr (by decide +kernel)⟩

/-- No file is recorded for a new component that an update puts within another one, and one is
recorded still for the component that it takes the place of. -/
theorem states_not_ownsExactly :
    let s := Session.start .standard ⟨"/p"⟩ nestedPage
    let ms := refill [.ofTag "c" "i"]
    EveryCall Session.ReadsDistinct s ms ∧ EveryCall Session.LetsGo s ms
      ∧ EveryCall Session.TakesNew s ms
      ∧ ∃ t ∈ s.states ms, idsAll t.state.components = ["a", "c"]
        ∧ t.state.owners.map Prod.fst = ["a", "b"] ∧ ¬ t.state.OwnsExactly := by
  intro s ms
  obtain ⟨hread, hgo, hnew, t, ht, hids, howners⟩ : EveryCall Session.ReadsDistinct s ms
      ∧ EveryCall Session.LetsGo s ms ∧ EveryCall Session.TakesNew s ms
      ∧ ∃ t ∈ s.states ms, idsAll t.state.components = ["a", "c"]
        ∧ t.state.owners.map Prod.fst = ["a", "b"] := by
    decide +kernel
  refine ⟨hread, hgo, hnew, t, ht, hids, howners, fun hexact => ?_⟩
  have hnone : t.state.owners.lookup "c" = none := by
    rw [Owners.lookup_eq_none_iff, howners]
    decide
  have hsome := (hexact.owned "c").mpr (by simp [hids])
  simp [hnone] at hsome

end CanvasSync.Project
