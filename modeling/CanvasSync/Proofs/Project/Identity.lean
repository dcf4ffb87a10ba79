import CanvasSync.Project.Watching
import CanvasSync.Proofs.Project.Calls
import CanvasSync.Proofs.Project.Resync

/-!
Whether every id is that of one component only, all along the life of a project.

* `Move`, `Session.states`: what may happen to a project, and the projects that it goes through;
* `move_idsDistinct_iff`: one move keeps ids distinct exactly if the file that it takes over, if any,
  lets go of the components that it nests anew (`Session.LetsGo`);
* `states_idsDistinct_iff`: so do several moves in order;
* `states_rewrapped_not_idsDistinct`: a component of which another one of its file becomes the
  parent is not let go of, and stands twice.
-/

namespace CanvasSync.Project

open CanvasSync.Component
open CanvasSync.Storage (ChangeKind Disk Path)

/-! ### Changes that are recorded -/

namespace State

variable {s t : State} {id : String} {p : Path} {code : Text}

/-- A component of new ids that is added stands at the end. -/
lemma components_add {c : Component} (hnew : ∀ i ∈ c.ids, i ∉ idsAll s.components) (p : Path)
    (code : Text) : (s.add c p code).components = s.components ++ [c] :=
  place_eq_append fun h => hnew _ (id_mem_ids c) (roots_subset_idsAll _ h)

lemma idsAll_add {c : Component} (hnew : ∀ i ∈ c.ids, i ∉ idsAll s.components) (p : Path)
    (code : Text) : idsAll (s.add c p code).components = idsAll s.components ++ c.ids := by
  rw [components_add hnew, idsAll_append, idsAll_cons, idsAll_nil, List.append_nil]

/-- A component added keeps ids distinct if its own are, and are new. -/
lemma IdsDistinct.add {c : Component} (hs : s.IdsDistinct) (hc : c.ids.Nodup)
    (hnew : ∀ i ∈ c.ids, i ∉ idsAll s.components) (p : Path) (code : Text) :
    (s.add c p code).IdsDistinct := by
  rw [IdsDistinct, idsAll_add hnew, List.nodup_append]
  exact ⟨hs, hc, fun i hi j hj hij => hnew j hj (hij ▸ hi)⟩

/-- An update that leaves the components within alone keeps all ids. -/
lemma idsAll_update? {u : Update} (hu : u.children = none) {written : Option (Path × Text)}
    (h : s.update? id u written = some t) : idsAll t.components = idsAll s.components := by
  simp only [update?, Option.bind_eq_bind, Option.bind_eq_some_iff, pure, Option.some.injEq] at h
  obtain ⟨cs, hcs, rfl⟩ := h
  have hf (c : Component) : (u.apply c).id = c.id ∧ (u.apply c).children = c.children := by
    simp [Update.apply, hu]
  cases written <;> exact (modifies_of_modifyAll? hcs).idsAll_eq hf

/-- A component removed keeps ids distinct. -/
lemma IdsDistinct.removeFrom (hs : s.IdsDistinct) (id : String) (p : Path) (code : Text) :
    (s.removeFrom id p code).IdsDistinct := by
  have hwithout : (s.without id).IdsDistinct := by
    rw [without_eq (List.nodup_iff_count_le_one.mp hs id)]
    exact hs.sublist (idsAll_prunedAll_sublist _ _)
  rw [State.removeFrom]
  cases hr : s.remove? id with
  | none => exact hs
  | some r =>
      change r.2.IdsDistinct
      simpa [without, hr] using hwithout

/-- A file forgotten keeps ids distinct. -/
lemma IdsDistinct.forgetFile (hs : s.IdsDistinct) (p : Path) : (s.forgetFile p).IdsDistinct := by
  have hs' : IdsDistinct { s with files := s.files.erase p } := hs
  rw [State.forgetFile, IdsDistinct, dropOwned_components hs']
  exact hs.sublist (idsAll_prunedAll_sublist _ _)

end State

/-! ### Calls -/

variable {s t : Session} {call : Call} {m : Move}

/-- The components that a call takes over: those of the file of which it notes a change, unless this
is gone, is held, or cannot be read. -/
def Session.takenOver? (s : Session) : Call → Option (Path × List Component)
  | .resync _ .removed => none
  | .resync p _ =>
    let p := s.resolve p
    if s.isLocked p then none
    else (withComponents s.disk s.config.style p).toOption.map fun r => (p, r.2)
  | _ => none

/-- A component that a call has added was claimed: its ids are distinct and new. -/
lemma Settled.of_add {c : Component} {file : Option Path} {target : Option (List Nat)} {e : Event}
    (h : Settled s (.add c file target) e t) :
    c.ids.Nodup ∧ (∀ i ∈ c.ids, i ∉ idsAll s.state.components)
      ∧ ∃ p code, t.state = s.state.add c p code := by
  obtain ⟨due, u, happly, ⟨-, hdue⟩ | ⟨p, code, hbegin, -, hdraft⟩⟩ := h.exists_due
  · simp [Call.commitWithoutFile] at hdue
  · obtain ⟨text, -, rfl⟩ := Call.draft_add hdraft
    simp only [Commit.apply, Except.ok.injEq, Prod.mk.injEq] at happly
    obtain ⟨-, hnd, hnew, -⟩ := Session.claim_eq_ok (Call.begin_add hbegin).2
    exact ⟨hnd, hnew, p, text, happly.1.symm⟩

lemma Commit.update?_of_apply {st st' : State} {i : String} {u : Update}
    {written : Option (Path × Text)} {e : Event}
    (h : (Commit.update i u written).apply st = .ok (st', e)) : st.update? i u written = some st' := by
  rw [Commit.apply] at h
  cases hu : st.update? i u written with
  | none => simp [hu] at h
  | some r =>
      simp only [hu, Except.ok.injEq, Prod.mk.injEq] at h
      rw [h.1]

lemma Settled.of_update {i : String} {u : Update} {e : Event} (h : Settled s (.update i u) e t) :
    ∃ written, s.state.update? i u written = some t.state := by
  obtain ⟨due, _, happly, ⟨-, hdue⟩ | ⟨p, code, -, -, hdraft⟩⟩ := h.exists_due
  · simp only [Call.commitWithoutFile, Option.some.injEq] at hdue
    subst hdue
    exact ⟨_, Commit.update?_of_apply happly⟩
  · obtain ⟨text, -, rfl⟩ := Call.draft_update hdraft
    exact ⟨_, Commit.update?_of_apply happly⟩

lemma Settled.of_remove {i : String} {e : Event} (h : Settled s (.remove i) e t) :
    ∃ p code, t.state = s.state.removeFrom i p code := by
  obtain ⟨due, _, happly, ⟨-, hdue⟩ | ⟨p, code, -, -, hdraft⟩⟩ := h.exists_due
  · simp [Call.commitWithoutFile] at hdue
  · obtain ⟨text, -, rfl⟩ := Call.draft_remove hdraft
    simp only [Commit.apply, Except.ok.injEq, Prod.mk.injEq] at happly
    exact ⟨p, text, happly.1.symm⟩

/-- A noted change of a file has forgotten the file, or taken its components over. -/
lemma Settled.of_resync {p : Path} {kind : ChangeKind} {e : Event}
    (h : Settled s (.resync p kind) e t) :
    kind = .removed ∧ s.isLocked (s.resolve p) = false
        ∧ t.state = s.state.forgetFile (s.resolve p)
      ∨ ∃ source found, s.takenOver? (.resync p kind) = some (s.resolve p, found)
          ∧ t.state = (s.state.resync (s.resolve p) source found).1 := by
  obtain ⟨due, _, happly, ⟨-, hdue⟩ | ⟨q, code, hbegin, hfree, hdraft⟩⟩ := h.exists_due
  · simp [Call.commitWithoutFile] at hdue
  · obtain ⟨hq, rfl⟩ := Call.begin_resync hbegin
    obtain rfl := Option.some.inj hq
    obtain ⟨-, ⟨rfl, rfl⟩ | ⟨hkind, source, found, hread, rfl⟩⟩ := Call.draft_resync hdraft <;>
      simp only [Commit.apply, Except.ok.injEq, Prod.mk.injEq] at happly
    · exact Or.inl ⟨rfl, hfree, happly.1.symm⟩
    · refine Or.inr ⟨source, found, ?_, happly.1.symm⟩
      cases kind <;> simp_all [Session.takenOver?, Except.toOption]

/-- A call that fails has taken nothing over. -/
lemma Failed.takenOver?_eq_none {f : Fault} (h : Failed s call f) : s.takenOver? call = none := by
  cases call with
  | resync p kind =>
      cases kind with
      | removed => rfl
      | _ =>
          cases h with
          | refused hbegin => simp [Call.begin] at hbegin
          | undrafted hbegin hdraft =>
              obtain rfl := Option.some.inj (Call.begin_resync hbegin).1
              cases hread : withComponents s.disk s.config.style (s.resolve p) with
              | ok r => simp [Call.draft, hread, bind, Except.bind, pure, Except.pure] at hdraft
              | error g => simp [Session.takenOver?, hread, Except.toOption]
          | unwritten hbegin hdraft =>
              simpa using (Call.draft_resync hdraft).1
  | _ => rfl

/-- A call that waits for a file has taken nothing over. -/
lemma takenOver?_of_isLocked (hbegin : call.begin s = .ok (some p, t))
    (hp : s.isLocked p = true) : s.takenOver? call = none := by
  cases call with
  | resync q kind =>
      obtain rfl := Option.some.inj (Call.begin_resync hbegin).1
      cases kind <;> simp [Session.takenOver?, hp]
  | _ => rfl

/-- A call lets go of what the file that it takes over nests anew. -/
def Session.LetsGo (s : Session) (call : Call) : Prop :=
  ∀ r ∈ s.takenOver? call, s.state.Releases r.1 r.2

/-- The components that a call takes over have distinct ids. -/
def Session.ReadsDistinct (s : Session) (call : Call) : Prop :=
  ∀ r ∈ s.takenOver? call, (idsAll r.2).Nodup

/-- A call does not replace the components within a component. -/
def Call.LeavesChildren : Call → Prop
  | .update _ u => u.children.isNone
  | _ => True

instance (s : State) (p : Path) (found : List Component) : Decidable (s.Releases p found) :=
  inferInstanceAs (Decidable (∀ _ ∈ _, _ → _))

instance (s : Session) (call : Call) : Decidable (s.LetsGo call) :=
  inferInstanceAs (Decidable (∀ _ ∈ _, _))

instance (s : Session) (call : Call) : Decidable (s.ReadsDistinct call) :=
  inferInstanceAs (Decidable (∀ _ ∈ _, _))

instance : ∀ call : Call, Decidable call.LeavesChildren
  | .update _ u => inferInstanceAs (Decidable (u.children.isNone = true))
  | .add _ _ _ | .remove _ | .resync _ _ => .isTrue trivial

lemma Session.LetsGo.of_eq_none (h : s.takenOver? call = none) : s.LetsGo call := by
  simp [Session.LetsGo, h]

/-- With no other one in progress, a call keeps ids distinct exactly if it lets go of what the file
that it takes over nests anew. -/
lemma perform_idsDistinct_iff (hs : s.state.IdsDistinct) (hu : call.LeavesChildren)
    (hread : s.ReadsDistinct call) :
    (s.perform call).2.state.IdsDistinct ↔ s.LetsGo call := by
  rcases perform_cases s call with ⟨f, h, hf⟩ | ⟨p, t, h, hbegin, hp⟩ | ⟨e, t, h, ht⟩ <;> rw [h]
  · exact iff_of_true hs (.of_eq_none hf.takenOver?_eq_none)
  · obtain ⟨rfl, -⟩ := Call.begin_eq_ok hbegin
    exact iff_of_true hs (.of_eq_none (takenOver?_of_isLocked hbegin hp))
  cases call with
  | add c file target =>
      obtain ⟨hnd, hnew, p, code, hstate⟩ := ht.of_add
      refine iff_of_true ?_ (.of_eq_none rfl)
      rw [hstate]
      exact hs.add hnd hnew p code
  | update i u =>
      obtain ⟨written, hstate⟩ := ht.of_update
      refine iff_of_true ?_ (.of_eq_none rfl)
      rw [State.IdsDistinct, State.idsAll_update? (Option.isNone_iff_eq_none.mp hu) hstate]
      exact hs
  | remove i =>
      obtain ⟨p, code, hstate⟩ := ht.of_remove
      refine iff_of_true ?_ (.of_eq_none rfl)
      rw [hstate]
      exact hs.removeFrom i p code
  | resync q kind =>
      rcases ht.of_resync with ⟨rfl, -, hstate⟩ | ⟨source, found, hsome, hstate⟩
      · refine iff_of_true ?_ (.of_eq_none rfl)
        rw [hstate]
        exact hs.forgetFile _
      · rw [hstate, State.resync_idsDistinct_iff hs (hread _ hsome)]
        simp [Session.LetsGo, hsome]

/-! ### The life of a project -/

/-- What may happen to a project from one call to the next. -/
inductive Move where
  /-- The project is opened afresh. -/
  | reopen (root : Path)
  | call (call : Call)
  /-- Another program changes the disk. -/
  | outside (edit : Disk → Disk)
  | close

/-- The project after a move. One that cannot be opened stays as it is. -/
def Session.move (s : Session) : Move → Session
  | .reopen root => (openAt root s.disk).toOption.getD s
  | .call call => (s.perform call).2
  | .outside edit => { s with disk := edit s.disk }
  | .close => s.close

/-- The projects that moves lead through, from the first to the last. -/
def Session.states (s : Session) : List Move → List Session
  | [] => [s]
  | m :: ms => s :: states (s.move m) ms

/-- The call that a move makes, with the project that it is made on. -/
def Move.call? (s : Session) : Move → Option (Session × Call)
  | .call call => some (s, call)
  | .reopen root =>
    (Config.load s.disk root).toOption.bind fun config =>
      let t := Session.start config root s.disk
      if t.disk.has t.defaultTarget then some (t, .resync t.defaultTarget .changed) else none
  | _ => none

/-- Every call of some moves in order is as asked, on the project that it is made on. -/
def EveryCall (ok : Session → Call → Prop) (s : Session) : List Move → Prop
  | [] => True
  | m :: ms => (∀ r ∈ m.call? s, ok r.1 r.2) ∧ EveryCall ok (s.move m) ms

instance EveryCall.decidable {ok : Session → Call → Prop} [∀ s call, Decidable (ok s call)] :
    ∀ (s : Session) (ms : List Move), Decidable (EveryCall ok s ms)
  | _, [] => .isTrue trivial
  | s, m :: ms =>
    @instDecidableAnd _ _ inferInstance (decidable (s.move m) ms)

/-- Nothing stands in the way of a call on a project of which nothing is known. -/
lemma letsGo_start (config : Config) (root : Path) (d : Disk) (call : Call) :
    (Session.start config root d).LetsGo call :=
  fun _ _ _ _ hi => absurd hi List.not_mem_nil

/-- What comes of opening a project afresh: nothing if it cannot be opened, or else a project of
which nothing is known or the file is taken over that components are added to. -/
lemma move_reopen_cases (s : Session) (root : Path) :
    s.move (.reopen root) = s
      ∨ (∃ config, s.move (.reopen root) = .start config root s.disk)
      ∨ ∃ config p, (Move.reopen root).call? s
            = some (.start config root s.disk, .resync p .changed)
          ∧ s.move (.reopen root)
            = ((Session.start config root s.disk).perform (.resync p .changed)).2 := by
  rw [Session.move, Session.openAt, Move.call?]
  cases hload : Config.load s.disk root with
  | error f => exact .inl rfl
  | ok config =>
      simp only [bind, Except.bind, Except.toOption, Option.bind_some]
      split_ifs with hhas
      · rcases perform_cases (Session.start config root s.disk) (.resync _ .changed)
          with ⟨f, h, -⟩ | ⟨p, t, h, -⟩ | ⟨e, t, h, -⟩
        · exact .inl (by rw [h]; rfl)
        · exact .inr (.inr ⟨config, _, rfl, by rw [h]; rfl⟩)
        · exact .inr (.inr ⟨config, _, rfl, by rw [h]; rfl⟩)
      · exact .inr (.inl ⟨config, rfl⟩)

/-- Ids are distinct in a project opened afresh: it has the components of one file at most. -/
lemma reopen_idsDistinct (hs : s.state.IdsDistinct) (root : Path)
    (hread : ∀ r ∈ (Move.reopen root).call? s, r.1.ReadsDistinct r.2) :
    (s.move (.reopen root)).state.IdsDistinct := by
  have hempty (config : Config) : (Session.start config root s.disk).state.IdsDistinct :=
    List.nodup_nil
  rcases move_reopen_cases s root with h | ⟨config, h⟩ | ⟨config, p, hcall, h⟩ <;> rw [h]
  · exact hs
  · exact hempty config
  · exact (perform_idsDistinct_iff (hempty config) (by trivial) (hread _ hcall)).mpr
      (letsGo_start _ _ _ _)

/-- One move keeps ids distinct exactly if its call, if any, lets go of what the file that it takes
over nests anew. -/
lemma move_idsDistinct_iff (hs : s.state.IdsDistinct)
    (hu : ∀ r ∈ m.call? s, r.2.LeavesChildren) (hread : ∀ r ∈ m.call? s, r.1.ReadsDistinct r.2) :
    (s.move m).state.IdsDistinct ↔ ∀ r ∈ m.call? s, r.1.LetsGo r.2 := by
  cases m with
  | call call =>
      rw [Session.move, perform_idsDistinct_iff hs (hu _ rfl) (hread _ rfl)]
      simp [Move.call?]
  | reopen root =>
      refine iff_of_true (reopen_idsDistinct hs root hread) ?_
      rintro ⟨t, call⟩ ht
      simp only [Move.call?, Option.mem_def, Option.bind_eq_some_iff] at ht
      obtain ⟨config, -, ht⟩ := ht
      split_ifs at ht
      simp only [Option.some.injEq, Prod.mk.injEq] at ht
      obtain ⟨rfl, rfl⟩ := ht
      exact letsGo_start config root s.disk _
  | outside edit => exact iff_of_true hs (by simp [Move.call?])
  | close => exact iff_of_true List.nodup_nil (by simp [Move.call?])

/-- The first project of a run is the one that it starts from. -/
lemma mem_states (s : Session) (ms : List Move) : s ∈ s.states ms := by
  cases ms <;> simp [Session.states]

/-- **Identity of components**: as long as no call replaces the components within a component, and
every file that is taken over has distinct markers, ids are distinct in every project that moves
lead through exactly if every call lets go of what the file that it takes over nests anew. -/
theorem states_idsDistinct_iff (hs : s.state.IdsDistinct) (ms : List Move)
    (hu : EveryCall (fun _ call => call.LeavesChildren) s ms)
    (hread : EveryCall Session.ReadsDistinct s ms) :
    (∀ t ∈ s.states ms, t.state.IdsDistinct) ↔ EveryCall Session.LetsGo s ms := by
  induction ms generalizing s with
  | nil => simpa [Session.states, EveryCall] using hs
  | cons m ms ih =>
      have hstep := move_idsDistinct_iff hs hu.1 hread.1
      rw [Session.states, List.forall_mem_cons, EveryCall, ← hstep]
      constructor
      · rintro ⟨-, hall⟩
        have hnext := hall _ (mem_states _ ms)
        exact ⟨hnext, (ih hnext hu.2 hread.2).mp hall⟩
      · rintro ⟨hnext, hall⟩
        exact ⟨hs, (ih hnext hu.2 hread.2).mpr hall⟩

/-- The file of a project is written, read, written again by another program, and read again. -/
def rereadPage (before after : String) : List Move :=
  let p : Path := ⟨"/p/page.tsx"⟩
  [.outside fun d => d.put p before.toList, .call (.resync p .changed),
    .outside fun d => d.put p after.toList, .call (.resync p .changed)]

/-- A project of which nothing is known, with an empty disk. -/
def emptyProject : Session := .start .standard ⟨"/p"⟩ (.ofFiles [])

/-- A component that leaves its parent is let go of with it, and stands once. -/
theorem states_unwrapped_idsDistinct :
    let ms := rereadPage "<a data-component-id=\"a\"><b data-component-id=\"b\"/></a>"
      "<><a data-component-id=\"a\"/><b data-component-id=\"b\"/></>"
    emptyProject.state.IdsDistinct ∧ EveryCall (fun _ call => call.LeavesChildren) emptyProject ms
      ∧ EveryCall Session.ReadsDistinct emptyProject ms
      ∧ ∀ t ∈ emptyProject.states ms, t.state.IdsDistinct := by
  intro ms
  have hs : emptyProject.state.IdsDistinct := by decide
  have hu : EveryCall (fun _ call => call.LeavesChildren) emptyProject ms := by decide +kernel
  have hread : EveryCall Session.ReadsDistinct emptyProject ms := by decide +kernel
  exact ⟨hs, hu, hread, (states_idsDistinct_iff hs ms hu hread).mpr (by decide +kernel)⟩

/-- A component of which another one of its file becomes the parent stays where it was too: its id
stands twice, although the markers of the file are distinct each time. -/
theorem states_rewrapped_not_idsDistinct :
    let ms := rereadPage "<><a data-component-id=\"a\"/><b data-component-id=\"b\"/></>"
      "<a data-component-id=\"a\"><b data-component-id=\"b\"/></a>"
    EveryCall (fun _ call => call.LeavesChildren) emptyProject ms
      ∧ EveryCall Session.ReadsDistinct emptyProject ms
      ∧ ∃ t ∈ emptyProject.states ms, idsAll t.state.components = ["b", "a", "b"] := by
  decide +kernel

end CanvasSync.Project
