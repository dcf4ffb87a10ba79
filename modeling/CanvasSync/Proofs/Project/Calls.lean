import CanvasSync.Project.Call
import CanvasSync.Proofs.Component.Forest

/-!
What a call comes to with no other one in progress.

* `claim_eq_ok`, `release_claim`: claims are made of new ids only, and giving them up restores the
  claims of all others;
* `Settled`, `Failed`: what a call that succeeds does, from its first step to its last, and what
  stops one that fails;
* `perform_cases`, `settled_of_perform`: a call fails and leaves the project as it was, waits for a
  file that is held, or is settled.
-/

namespace CanvasSync.Project

open CanvasSync.Storage (ChangeKind Disk Path)

variable {s t : Session} {call : Call} {p : Path}

/-- Two things done in order succeed if each of them does. -/
lemma bind_eq_ok {ε α β : Type} {x : Except ε α} {f : α → Except ε β} {b : β} :
    x >>= f = .ok b ↔ ∃ a, x = .ok a ∧ f a = .ok b := by
  cases x <;> simp [bind, Except.bind]

/-! ### Claims and held files -/

/-- A component is there if its id is among the ids of the project. -/
lemma State.has_iff {s : State} {id : String} :
    s.has id ↔ id ∈ Component.idsAll s.components :=
  Component.findAll?_isSome_iff

lemma Session.isTaken_iff {id : String} :
    s.isTaken id ↔ id ∈ Component.idsAll s.state.components ∨ id ∈ s.claims := by
  simp [Session.isTaken, State.has_iff]

/-- No id of a list is refused exactly if they are distinct, new, and none was seen before. -/
lemma Session.firstTaken?_eq_none_iff {seen ids : List String} :
    s.firstTaken? seen ids = none
      ↔ ids.Nodup ∧ ∀ id ∈ ids, ¬ s.isTaken id ∧ id ∉ seen := by
  induction ids generalizing seen with
  | nil => simp [Session.firstTaken?]
  | cons id ids ih =>
      by_cases h : s.isTaken id ∨ id ∈ seen
      · have hne : s.firstTaken? seen (id :: ids) ≠ none := by
          rw [Session.firstTaken?, if_pos (by simpa using h)]
          simp
        refine iff_of_false hne fun hall => ?_
        have hid := hall.2 id (List.mem_cons_self ..)
        exact h.elim hid.1 hid.2
      · rw [Session.firstTaken?, if_neg (by simpa using h), ih, List.nodup_cons,
          List.forall_mem_cons]
        simp only [List.mem_cons, not_or] at h ⊢
        constructor
        · rintro ⟨hnd, hall⟩
          exact ⟨⟨fun hid => (hall id hid).2.1 rfl, hnd⟩, h, fun j hj =>
            ⟨(hall j hj).1, (hall j hj).2.2⟩⟩
        · rintro ⟨⟨hid, hnd⟩, -, hall⟩
          exact ⟨hnd, fun j hj =>
            ⟨(hall j hj).1, fun hji => hid (hji ▸ hj), (hall j hj).2⟩⟩

/-- Claims are made of distinct ids that neither a component nor a call in progress has. -/
lemma Session.claim_eq_ok {ids : List String} (h : s.claim ids = .ok t) :
    t = { s with claims := s.claims ++ ids } ∧ ids.Nodup
      ∧ (∀ id ∈ ids, id ∉ Component.idsAll s.state.components)
      ∧ ∀ id ∈ ids, id ∉ s.claims := by
  rw [Session.claim] at h
  cases hf : s.firstTaken? [] ids with
  | some id => simp [hf] at h
  | none =>
      rw [hf] at h
      cases h
      obtain ⟨hnd, hall⟩ := Session.firstTaken?_eq_none_iff.mp hf
      have hfree : ∀ id ∈ ids, id ∉ Component.idsAll s.state.components ∧ id ∉ s.claims :=
        fun id hid => not_or.mp fun h => (hall id hid).1 (Session.isTaken_iff.mpr h)
      exact ⟨rfl, hnd, fun id hid => (hfree id hid).1, fun id hid => (hfree id hid).2⟩

/-- Giving up claims that were new restores the claims before. -/
lemma Session.release_claims {ids : List String} (h : ∀ id ∈ ids, id ∉ s.claims) :
    Session.release { s with claims := s.claims ++ ids } ids = s := by
  have hkept : (s.claims ++ ids).filter (fun id => decide (id ∉ ids)) = s.claims := by
    rw [List.filter_append, List.filter_eq_self.mpr, List.filter_eq_nil_iff.mpr,
      List.append_nil]
    · simp
    · intro id hid
      simpa using fun hid' => h id hid' hid
  rw [Session.release, hkept]

/-- Letting go of a file that nobody else held restores what is held. -/
lemma Session.unlock_lock (h : s.isLocked p = false) : (s.lock p).unlock p = s := by
  have hself : p.same p = true := by simp [Path.same]
  have hkept : s.locks.filter (fun q => !q.same p) = s.locks := by
    rw [List.filter_eq_self]
    intro q hq
    rw [Session.isLocked, List.any_eq_false] at h
    simpa using h q hq
  simp only [Session.lock, Session.unlock, List.filter_cons, hself, hkept, Bool.not_true,
    Bool.false_eq_true, if_false]

/-! ### The first step and the last -/

section Begin

variable {i : String} {found : Option Path}

/-- The file that a component is added to. -/
def Session.target (s : Session) : Option Path → Path
  | some p => s.resolve p
  | none => s.defaultTarget

/-- An addition begins with its file, and claims the ids of its component. -/
lemma Call.begin_add {c : Component} {file : Option Path} {target : Option (List Nat)}
    (h : (Call.add c file target).begin s = .ok (found, t)) :
    found = some (s.target file) ∧ s.claim c.ids = .ok t := by
  simp only [Call.begin, bind_eq_ok, pure, Except.pure, Except.ok.injEq, Prod.mk.injEq] at h
  obtain ⟨u, hclaim, rfl, rfl⟩ := h
  exact ⟨by cases file <;> rfl, hclaim⟩

/-- A component that must be there is there, in a file that it stands in. -/
lemma Call.owned_eq_ok (h : Call.owned s i = .ok p) : s.state.has i ∧ s.ownerOf? i = some p := by
  rw [Call.owned] at h
  split_ifs at h with hhas
  cases howner : s.ownerOf? i with
  | none => simp [howner] at h
  | some q => exact ⟨hhas, by simpa [howner] using h⟩

/-- An update begins if its component is there, with the file of the component if it touches the
source. -/
lemma Call.begin_update {u : Update} (h : (Call.update i u).begin s = .ok (found, t)) :
    t = s ∧ s.state.has i ∧ found.isSome = u.touchesSource ∧ ∀ p ∈ found, s.ownerOf? i = some p := by
  simp only [Call.begin] at h
  split_ifs at h with htouches hhas
  · simp only [bind_eq_ok, pure, Except.pure, Except.ok.injEq, Prod.mk.injEq] at h
    obtain ⟨p, howned, rfl, rfl⟩ := h
    obtain ⟨hhas, howner⟩ := Call.owned_eq_ok howned
    exact ⟨rfl, hhas, htouches.symm, by simpa using howner⟩
  · simp only [Except.ok.injEq, Prod.mk.injEq] at h
    obtain ⟨rfl, rfl⟩ := h
    exact ⟨rfl, hhas, by simpa using htouches, by simp⟩

/-- A removal begins with the file of its component, if this is there. -/
lemma Call.begin_remove (h : (Call.remove i).begin s = .ok (found, t)) :
    t = s ∧ s.state.has i ∧ ∃ p, found = some p ∧ s.ownerOf? i = some p := by
  simp only [Call.begin, bind_eq_ok, pure, Except.pure, Except.ok.injEq, Prod.mk.injEq] at h
  obtain ⟨p, howned, rfl, rfl⟩ := h
  obtain ⟨hhas, howner⟩ := Call.owned_eq_ok howned
  exact ⟨rfl, hhas, p, rfl, howner⟩

/-- A change that is noted begins with its file. -/
lemma Call.begin_resync {kind : ChangeKind}
    (h : (Call.resync p kind).begin s = .ok (found, t)) : found = some (s.resolve p) ∧ t = s := by
  simp only [Call.begin, Except.ok.injEq, Prod.mk.injEq] at h
  exact ⟨h.1.symm, h.2.symm⟩

/-- What a call begins with: new claims, and nothing else. -/
lemma Call.begin_eq_ok (h : call.begin s = .ok (found, t)) :
    t = { s with claims := s.claims ++ call.claimed } ∧ ∀ id ∈ call.claimed, id ∉ s.claims := by
  have hnone : call.claimed = [] → t = s →
      t = { s with claims := s.claims ++ call.claimed } ∧ ∀ id ∈ call.claimed, id ∉ s.claims := by
    rintro hc rfl
    simp [hc]
  cases call with
  | add c f target =>
      obtain ⟨hclaims, -, -, hnew⟩ := Session.claim_eq_ok (Call.begin_add h).2
      exact ⟨hclaims, hnew⟩
  | update id u => exact hnone rfl (Call.begin_update h).1
  | remove id => exact hnone rfl (Call.begin_remove h).1
  | resync p kind => exact hnone rfl (Call.begin_resync h).2

end Begin

/-- Letting go of what a call has claimed and holds restores what others hold, whatever was
recorded and written meanwhile. -/
lemma Call.leave_begin {file : Option Path} (h : call.begin s = .ok (file, t)) (state : State)
    (disk : Disk) :
    call.leave { t with state, disk } none = { s with state, disk } := by
  obtain ⟨rfl, hnew⟩ := Call.begin_eq_ok h
  exact Session.release_claims (s := { s with state, disk }) hnew

lemma Call.leave_lock {file : Option Path} (h : call.begin s = .ok (file, t))
    (hp : s.isLocked p = false) (state : State) (disk : Disk) :
    call.leave { t.lock p with state, disk } (some p) = { s with state, disk } := by
  have hunlock : Session.unlock { t.lock p with state, disk } p = { t with state, disk } := by
    obtain ⟨rfl, -⟩ := Call.begin_eq_ok h
    exact Session.unlock_lock
      (s := { s with claims := s.claims ++ call.claimed, state, disk }) hp
  have hleave := Call.leave_begin h state disk
  simp only [Call.leave] at hleave ⊢
  rw [hunlock, hleave]

/-- What a call makes of its file depends on the disk and the settings alone. -/
lemma Call.draft_congr (hd : t.disk = s.disk) (hc : t.config = s.config) :
    call.draft t p = call.draft s p := by
  cases call with
  | resync q kind => cases kind <;> simp [Call.draft, hd, hc]
  | _ => simp [Call.draft, hd, hc]

/-! ### Changes that are due -/

lemma State.update?_isSome {st : State} {id : String} (h : st.has id) (u : Update)
    (w : Option (Path × Text)) : (st.update? id u w).isSome := by
  have hsome : (Component.modifyAll? id u.apply st.components).isSome :=
    Component.modifyAll?_isSome_iff.mpr (State.has_iff.mp h)
  obtain ⟨cs, hcs⟩ := Option.isSome_iff_exists.mp hsome
  cases w <;> simp [State.update?, hcs]

/-- A due change fails only if it updates a component that is not there. -/
lemma Commit.exists_apply_eq_ok {due : Commit} {st : State}
    (h : ∀ id u w, due = .update id u w → st.has id) : ∃ r e, due.apply st = .ok (r, e) := by
  cases due with
  | update id u w =>
      obtain ⟨r, hr⟩ := Option.isSome_iff_exists.mp (State.update?_isSome (h id u w rfl) u w)
      exact ⟨r, _, by rw [Commit.apply, hr]⟩
  | add c p code => exact ⟨_, _, rfl⟩
  | remove id p code => exact ⟨_, _, rfl⟩
  | resync p source found => exact ⟨_, _, rfl⟩
  | forget p => exact ⟨_, _, rfl⟩

/-- What a call makes of its file, by the kind of call. -/
lemma Call.draft_add {c : Component} {file : Option Path} {target : Option (List Nat)}
    {code : Option Text} {due : Commit} (h : (Call.add c file target).draft s p = .ok (code, due)) :
    ∃ text, code = some text ∧ due = .add c p text := by
  simp only [Call.draft, bind_eq_ok, pure, Except.pure, Except.ok.injEq, Prod.mk.injEq] at h
  obtain ⟨text, -, rfl, rfl⟩ := h
  exact ⟨text, rfl, rfl⟩

lemma Call.draft_update {id : String} {u : Update} {code : Option Text} {due : Commit}
    (h : (Call.update id u).draft s p = .ok (code, due)) :
    ∃ text, code = some text ∧ due = .update id u (some (p, text)) := by
  simp only [Call.draft, bind_eq_ok, pure, Except.pure, Except.ok.injEq, Prod.mk.injEq] at h
  obtain ⟨text, -, rfl, rfl⟩ := h
  exact ⟨text, rfl, rfl⟩

lemma Call.draft_remove {id : String} {code : Option Text} {due : Commit}
    (h : (Call.remove id).draft s p = .ok (code, due)) :
    ∃ text, code = some text ∧ due = .remove id p text := by
  simp only [Call.draft, bind_eq_ok, pure, Except.pure, Except.ok.injEq, Prod.mk.injEq] at h
  obtain ⟨text, -, rfl, rfl⟩ := h
  exact ⟨text, rfl, rfl⟩

lemma Call.draft_resync {q : Path} {kind : ChangeKind} {code : Option Text} {due : Commit}
    (h : (Call.resync q kind).draft s p = .ok (code, due)) :
    code = none ∧ (kind = .removed ∧ due = .forget p
      ∨ kind ≠ .removed ∧ ∃ source found,
          withComponents s.disk s.config.style p = .ok (source, found)
            ∧ due = .resync p source found) := by
  cases kind <;> simp only [Call.draft, bind_eq_ok, pure, Except.pure, Except.ok.injEq,
    Prod.mk.injEq, Prod.exists] at h
  case removed =>
    obtain ⟨rfl, rfl⟩ := h
    exact ⟨rfl, Or.inl ⟨rfl, rfl⟩⟩
  all_goals
    obtain ⟨source, found, hread, rfl, rfl⟩ := h
    exact ⟨rfl, Or.inr ⟨by simp, source, found, hread, rfl⟩⟩

/-- The due change of a call updates a component only if the call does. -/
lemma Call.eq_update_of_draft {code : Option Text} {id : String} {u : Update}
    {w : Option (Path × Text)} (h : call.draft s p = .ok (code, .update id u w)) :
    call = .update id u := by
  cases call with
  | add c f target => obtain ⟨text, -, hdue⟩ := Call.draft_add h; simp at hdue
  | update i v =>
      obtain ⟨text, -, hdue⟩ := Call.draft_update h
      rw [Commit.update.injEq] at hdue
      rw [hdue.1, hdue.2.1]
  | remove i => obtain ⟨text, -, hdue⟩ := Call.draft_remove h; simp at hdue
  | resync q kind =>
      obtain ⟨-, ⟨-, hdue⟩ | ⟨-, source, found, -, hdue⟩⟩ := Call.draft_resync h <;> simp at hdue

/-- What is due once a call has read its file can be recorded. -/
lemma Call.exists_apply_draft {file : Option Path} {code : Option Text} {due : Commit}
    (hb : call.begin s = .ok (file, t)) (hd : call.draft s p = .ok (code, due)) :
    ∃ r e, due.apply s.state = .ok (r, e) := by
  refine Commit.exists_apply_eq_ok fun id u w hdue => ?_
  subst hdue
  obtain rfl := Call.eq_update_of_draft hd
  exact (Call.begin_update hb).2.1

/-- What is due for a call that needs no file can be recorded. -/
lemma Call.exists_apply_commitWithoutFile {file : Option Path} {due : Commit}
    (hb : call.begin s = .ok (file, t)) (hd : call.commitWithoutFile = some due) :
    ∃ r e, due.apply s.state = .ok (r, e) := by
  refine Commit.exists_apply_eq_ok fun id u w hdue => ?_
  cases call with
  | update i v =>
      simp only [Call.commitWithoutFile, Option.some.injEq] at hd
      rw [← hd, Commit.update.injEq] at hdue
      rw [← hdue.1]
      exact (Call.begin_update hb).2.1
  | _ => simp [Call.commitWithoutFile] at hd

lemma Call.commitWithoutFile_isSome (hb : call.begin s = .ok (none, t)) :
    ∃ due, call.commitWithoutFile = some due := by
  cases call with
  | update id u => exact ⟨_, rfl⟩
  | _ => simp [Call.begin, bind_eq_ok, pure, Except.pure] at hb

/-! ### A call by itself -/

/-- What a call that succeeds does, with no other one in progress: it records what is due once its
file, if it needs one, is read and written. -/
inductive Settled (s : Session) (call : Call) : Event → Session → Prop
  /-- No file is needed. -/
  | unread {t due state e} (hbegin : call.begin s = .ok (none, t))
      (hdue : call.commitWithoutFile = some due) (happly : due.apply s.state = .ok (state, e)) :
      Settled s call e { s with state }
  /-- The file is read and stays as it is. -/
  | read {t p due state e} (hbegin : call.begin s = .ok (some p, t)) (hfree : s.isLocked p = false)
      (hdraft : call.draft s p = .ok (none, due)) (happly : due.apply s.state = .ok (state, e)) :
      Settled s call e { s with state }
  /-- The file is read and written. -/
  | written {t p code due disk state e} (hbegin : call.begin s = .ok (some p, t))
      (hfree : s.isLocked p = false) (hdraft : call.draft s p = .ok (some code, due))
      (hwrite : writeSource s.disk p code = .ok disk)
      (happly : due.apply s.state = .ok (state, e)) : Settled s call e { s with state, disk }

/-- What stops a call that fails: its first step, what is in its file, or the writing of it. -/
inductive Failed (s : Session) (call : Call) : Fault → Prop
  | refused {f} (hbegin : call.begin s = .error f) : Failed s call f
  | undrafted {t p f} (hbegin : call.begin s = .ok (some p, t)) (hdraft : call.draft s p = .error f) :
    Failed s call f
  | unwritten {t p code due f} (hbegin : call.begin s = .ok (some p, t))
      (hdraft : call.draft s p = .ok (some code, due))
      (hwrite : writeSource s.disk p code = .error f) : Failed s call f

/-- A settled call has recorded the change that was due: the one of a call that needs no file, or
the one of a call that has read its file. -/
lemma Settled.exists_due {e : Event} {u : Session} (h : Settled s call e u) :
    ∃ due t, due.apply s.state = .ok (u.state, e)
      ∧ (call.begin s = .ok (none, t) ∧ call.commitWithoutFile = some due
        ∨ ∃ p code, call.begin s = .ok (some p, t) ∧ s.isLocked p = false
            ∧ call.draft s p = .ok (code, due)) := by
  cases h with
  | unread hbegin hdue happly => exact ⟨_, _, happly, Or.inl ⟨hbegin, hdue⟩⟩
  | read hbegin hfree hdraft happly => exact ⟨_, _, happly, Or.inr ⟨_, _, hbegin, hfree, hdraft⟩⟩
  | written hbegin hfree hdraft hwrite happly =>
      exact ⟨_, _, happly, Or.inr ⟨_, _, hbegin, hfree, hdraft⟩⟩

/-- A run goes on from where its first step leads. -/
lemma Call.run_succ {phase phase' : Phase} (h : call.step s phase = some (phase', t)) (n : Nat) :
    call.run (n + 1) phase s = call.run n phase' t := by
  rw [Call.run, h]

lemma Call.run_finished (n : Nat) (r : Except Fault Event) (s : Session) :
    call.run n (.finished r) s = (.finished r, s) := by
  cases n <;> rfl

/-- A call that needs no file is settled. -/
lemma perform_of_begin_none (hb : call.begin s = .ok (none, t)) :
    ∃ e u, s.perform call = (.finished (.ok e), u) ∧ Settled s call e u := by
  obtain ⟨ht, -⟩ := Call.begin_eq_ok hb
  obtain ⟨due, hdue⟩ := Call.commitWithoutFile_isSome hb
  obtain ⟨state, e, happly⟩ := Call.exists_apply_commitWithoutFile hb hdue
  have h1 : call.step s .fresh = some (.settling none due, t) := by
    simp [Call.step, hb, hdue]
  have h2 : call.step t (.settling none due) = some (.leaving none e, { t with state }) := by
    simp [Call.step, show t.state = s.state by rw [ht], happly]
  have h3 : call.step { t with state } (.leaving none e)
      = some (.finished (.ok e), { s with state }) := by
    have hleave := Call.leave_begin hb state t.disk
    rw [Call.step, hleave, show t.disk = s.disk by rw [ht]]
  refine ⟨e, _, ?_, .unread hb hdue happly⟩
  rw [Session.perform, Call.stepCount, Call.run_succ h1, Call.run_succ h2, Call.run_succ h3,
    Call.run_finished]

/-- A call waits for a file that is held. -/
lemma perform_of_isLocked (hb : call.begin s = .ok (some p, t)) (hp : s.isLocked p = true) :
    s.perform call = (.waiting p, t) := by
  obtain ⟨ht, -⟩ := Call.begin_eq_ok hb
  have h1 : call.step s .fresh = some (.waiting p, t) := by simp [Call.step, hb]
  have h2 : call.step t (.waiting p) = none := by
    simp [Call.step, show t.isLocked p = s.isLocked p by rw [ht]; rfl, hp]
  rw [Session.perform, Call.stepCount, Call.run_succ h1, Call.run, h2]

/-- A call gets hold of its file if that is free. -/
lemma perform_eq_run_holding (hb : call.begin s = .ok (some p, t)) (hp : s.isLocked p = false) :
    s.perform call = call.run 4 (.holding p) (t.lock p) := by
  obtain ⟨ht, -⟩ := Call.begin_eq_ok hb
  have h1 : call.step s .fresh = some (.waiting p, t) := by simp [Call.step, hb]
  have h2 : call.step t (.waiting p) = some (.holding p, t.lock p) := by
    simp [Call.step, show t.isLocked p = s.isLocked p by rw [ht]; rfl, hp]
  rw [Session.perform, Call.stepCount, Call.run_succ h1, Call.run_succ h2]

/-- A call that holds its file records what is due, and lets go of the file. -/
lemma Call.run_settling (hb : call.begin s = .ok (some p, t)) (hp : s.isLocked p = false)
    {due : Commit} {state : State} {e : Event} (happly : due.apply s.state = .ok (state, e))
    (disk : Disk) (n : Nat) :
    call.run (n + 2) (.settling (some p) due) { t.lock p with disk }
      = (.finished (.ok e), { s with state, disk }) := by
  obtain ⟨ht, -⟩ := Call.begin_eq_ok hb
  have h1 : call.step { t.lock p with disk } (.settling (some p) due)
      = some (.leaving (some p) e, { t.lock p with state, disk }) := by
    simp [Call.step, Session.lock, show t.state = s.state by rw [ht], happly]
  have h2 : call.step { t.lock p with state, disk } (.leaving (some p) e)
      = some (.finished (.ok e), { s with state, disk }) := by
    rw [Call.step]
    exact congrArg _ (congrArg _ (Call.leave_lock hb hp state disk))
  rw [Call.run_succ h1, Call.run_succ h2, Call.run_finished]

/-- A call whose file is free fails and leaves the project as it was, or is settled. -/
lemma perform_of_isLocked_eq_false (hb : call.begin s = .ok (some p, t))
    (hp : s.isLocked p = false) :
    (∃ f, s.perform call = (.finished (.error f), s) ∧ Failed s call f)
      ∨ ∃ e u, s.perform call = (.finished (.ok e), u) ∧ Settled s call e u := by
  obtain ⟨ht, -⟩ := Call.begin_eq_ok hb
  have hdisk : t.disk = s.disk := by rw [ht]
  have hsame : call.leave (t.lock p) (some p) = s := by
    calc call.leave (t.lock p) (some p) = { s with state := t.state, disk := t.disk } :=
          Call.leave_lock hb hp t.state t.disk
      _ = s := by rw [ht]
  have hdraft : call.draft (t.lock p) p = call.draft s p :=
    Call.draft_congr hdisk (by rw [ht]; rfl)
  rw [perform_eq_run_holding hb hp]
  cases hd : call.draft s p with
  | error f =>
      have h1 : call.step (t.lock p) (.holding p) = some (.finished (.error f), s) := by
        simp [Call.step, hdraft, hd, hsame]
      exact Or.inl ⟨f, by rw [Call.run_succ h1, Call.run_finished], .undrafted hb hd⟩
  | ok r =>
      obtain ⟨code, due⟩ := r
      obtain ⟨state, e, happly⟩ := Call.exists_apply_draft hb hd
      cases code with
      | none =>
          have h1 : call.step (t.lock p) (.holding p)
              = some (.settling (some p) due, t.lock p) := by
            simp [Call.step, hdraft, hd]
          refine Or.inr ⟨e, _, ?_, .read hb hp hd happly⟩
          rw [Call.run_succ h1, ← hdisk]
          exact Call.run_settling hb hp happly t.disk 1
      | some code =>
          have h1 : call.step (t.lock p) (.holding p)
              = some (.writing p code due, t.lock p) := by
            simp [Call.step, hdraft, hd]
          have hwrite : (t.lock p).write p code
              = (writeSource s.disk p code).map fun disk => { t.lock p with disk } := by
            rw [← hdisk]; rfl
          cases hw : writeSource s.disk p code with
          | error f =>
              have h2 : call.step (t.lock p) (.writing p code due)
                  = some (.finished (.error f), s) := by
                simp [Call.step, hwrite, hw, Except.map, hsame]
              refine Or.inl ⟨f, ?_, .unwritten hb hd hw⟩
              rw [Call.run_succ h1, Call.run_succ h2, Call.run_finished]
          | ok disk =>
              have h2 : call.step (t.lock p) (.writing p code due)
                  = some (.settling (some p) due, { t.lock p with disk }) := by
                simp [Call.step, hwrite, hw, Except.map]
              refine Or.inr ⟨e, _, ?_, .written hb hp hd hw happly⟩
              rw [Call.run_succ h1, Call.run_succ h2]
              exact Call.run_settling hb hp happly disk 0

/-- A call with no other one in progress fails and leaves the project as it was, waits for a file
that is held, or is settled. -/
lemma perform_cases (s : Session) (call : Call) :
    (∃ f, s.perform call = (.finished (.error f), s) ∧ Failed s call f)
      ∨ (∃ p t, s.perform call = (.waiting p, t) ∧ call.begin s = .ok (some p, t)
          ∧ s.isLocked p = true)
      ∨ ∃ e t, s.perform call = (.finished (.ok e), t) ∧ Settled s call e t := by
  cases hb : call.begin s with
  | error f =>
      have h1 : call.step s .fresh = some (.finished (.error f), s) := by simp [Call.step, hb]
      refine Or.inl ⟨f, ?_, .refused hb⟩
      rw [Session.perform, Call.stepCount, Call.run_succ h1, Call.run_finished]
  | ok r =>
      obtain ⟨_ | p, t⟩ := r
      · exact Or.inr (Or.inr (perform_of_begin_none hb))
      · cases hp : s.isLocked p with
        | true => exact Or.inr (Or.inl ⟨p, t, perform_of_isLocked hb hp, rfl, hp⟩)
        | false =>
            rcases perform_of_isLocked_eq_false hb hp with h | h
            · exact Or.inl h
            · exact Or.inr (Or.inr h)

/-- A call that tells of an event has succeeded. -/
lemma exists_of_event?_isSome (h : (s.perform call).1.event?.isSome) :
    ∃ e t, s.perform call = (.finished (.ok e), t) := by
  rcases perform_cases s call with ⟨f, h', -⟩ | ⟨p, t, h', -⟩ | ⟨e, t, h', -⟩
  · simp [h', Phase.event?] at h
  · simp [h', Phase.event?] at h
  · exact ⟨e, t, h'⟩

/-- A call that has succeeded with no other one in progress is settled. -/
lemma settled_of_perform {e : Event} (h : s.perform call = (.finished (.ok e), t)) :
    Settled s call e t := by
  rcases perform_cases s call with ⟨f, h', -⟩ | ⟨p, u, h', -⟩ | ⟨e', t', h', hsettled⟩ <;>
    rw [h] at h' <;> cases h'
  exact hsettled

end CanvasSync.Project
