import CanvasSync.Proofs.Project.Presence

/-!
The texts that are known of files, against the files themselves.

* `Operation`, `Session.operate`: what may be done with a project while no other program changes its
  files; the disk may refuse to be read or written at any time;
* `Commit.files_of_apply`: the texts that a call records, and `Settled.recorded_or_wrote`, that it
  has just read or written them;
* `operated_mirrors`: every text that is known is that of the file on the disk, and an operation
  writes one file once if it is a call that changes a source and succeeds, or else none.
-/

namespace CanvasSync.Project

open CanvasSync.Storage (ChangeKind Disk Files Path)

variable {s t : Session} {call : Call} {e : Event} {p q : Path} {text code : Text}

/-! ### Texts that are recorded -/

/-- The texts of the files once a due change is made. -/
def Commit.recorded (files : Files) : Commit → Files
  | .add _ p code | .remove _ p code | .update _ _ (some (p, code)) => files.insert p code
  | .update _ _ none => files
  | .resync p source _ => files.insert p source
  | .forget p => files.erase p

lemma State.files_removeFrom (st : State) (i : String) (p : Path) (code : Text) :
    (st.removeFrom i p code).files = st.files.insert p code := by
  rw [removeFrom]
  cases hremove : st.remove? i with
  | none => rfl
  | some r =>
      have hframe := (st.without_frame i).2
      rw [without, hremove] at hframe
      exact congrArg (Files.insert p code) hframe

/-- The texts that a due change records. -/
lemma Commit.files_of_apply {due : Commit} {st st' : State} (h : due.apply st = .ok (st', e)) :
    st'.files = due.recorded st.files := by
  cases due with
  | update i u written =>
      rw [State.files_update? (Commit.update?_of_apply h)]
      cases written <;> rfl
  | add c p code =>
      simp only [Commit.apply, Except.ok.injEq, Prod.mk.injEq] at h
      rw [← h.1]
      rfl
  | remove i p code =>
      simp only [Commit.apply, Except.ok.injEq, Prod.mk.injEq] at h
      rw [← h.1]
      exact State.files_removeFrom st i p code
  | resync p source found =>
      simp only [Commit.apply, Except.ok.injEq, Prod.mk.injEq] at h
      rw [← h.1, State.resync_eq, State.files_reread]
      rfl
  | forget p =>
      simp only [Commit.apply, Except.ok.injEq, Prod.mk.injEq] at h
      rw [← h.1]
      exact (State.forgotten_dropOwned _ p []).files

/-! ### Files that are written -/

/-- Whether a call changes a source, if it succeeds. -/
def Call.changesSource : Call → Bool
  | .add _ _ _ | .remove _ => true
  | .update _ u => u.touchesSource
  | .resync _ _ => false

/-- The file of a call that changes a source: the one that is added to, or the one that the component
stands in. -/
def Session.site? (s : Session) : Call → Option Path
  | .add _ file _ => some (s.target file)
  | .update i _ | .remove i => s.ownerOf? i
  | .resync _ _ => none

namespace Session

/-- Every text that is known is that of the file on the disk. -/
def Mirrors (s : Session) : Prop :=
  ∀ p text, s.state.files.get? p = some text → s.disk.get? p = some text

/-- No file was written from one project to another. -/
def Keeps (s t : Session) : Prop :=
  t.disk.files = s.disk.files ∧ t.disk.writes = s.disk.writes

/-- From one project to another one file was written, and that once. -/
def Wrote (s t : Session) (p : Path) : Prop :=
  t.disk.writes = s.disk.writes + 1
    ∧ ∃ code, ∀ q, t.disk.get? q = if p.same q then some code else s.disk.get? q

lemma Keeps.refl (s : Session) : s.Keeps s := ⟨rfl, rfl⟩

lemma Keeps.trans {u : Session} (h : s.Keeps t) (h' : t.Keeps u) : s.Keeps u :=
  ⟨h'.1.trans h.1, h'.2.trans h.2⟩

/-- The texts that are known stay those on the disk if a file is written and recorded. -/
lemma Mirrors.insert (hs : s.Mirrors)
    (hdisk : ∀ q, t.disk.get? q = if p.same q then some code else s.disk.get? q)
    (hfiles : t.state.files = s.state.files.insert p code) : t.Mirrors := by
  intro q text htext
  rw [hfiles, Files.get?_insert] at htext
  rw [hdisk]
  split_ifs at htext ⊢ with hsame
  · exact htext
  · exact hs q text htext

/-- The texts that are known stay those on the disk if a file that was read is recorded. -/
lemma Mirrors.insert_read (hs : s.Mirrors) (hread : s.disk.get? p = some text)
    (hdisk : t.disk = s.disk) (hfiles : t.state.files = s.state.files.insert p text) :
    t.Mirrors := by
  refine hs.insert (fun q => ?_) hfiles
  rw [hdisk]
  split_ifs with hsame
  · rw [← Disk.get?_congr hsame, hread]
  · rfl

/-- The texts that are known stay those on the disk if one is forgotten. -/
lemma Mirrors.erase (hs : s.Mirrors) (hdisk : t.disk = s.disk)
    (hfiles : t.state.files = s.state.files.erase p) : t.Mirrors := by
  intro q text htext
  rw [hfiles, Files.get?_erase] at htext
  rw [hdisk]
  split_ifs at htext
  exact hs q text htext

end Session

/-- The file of a call is the one that it begins with, and a call that begins with none changes no
source. -/
lemma Call.site?_of_begin {file : Option Path} (hbegin : call.begin s = .ok (file, t))
    (hkind : ∀ p kind, call ≠ .resync p kind) :
    call.changesSource = file.isSome ∧ ∀ p ∈ file, s.site? call = some p := by
  cases call with
  | add c f target =>
      obtain ⟨rfl, -⟩ := Call.begin_add hbegin
      exact ⟨rfl, by simp [Session.site?]⟩
  | update i u =>
      obtain ⟨-, -, htouches, howner⟩ := Call.begin_update hbegin
      exact ⟨htouches.symm, howner⟩
  | remove i =>
      obtain ⟨-, -, p, rfl, howner⟩ := Call.begin_remove hbegin
      exact ⟨rfl, by simpa [Session.site?] using howner⟩
  | resync p kind => exact absurd rfl (hkind p kind)

/-- What a call has done to the disk and to the texts that are known: it has written its file, once,
and recorded the new text, or it has left the disk alone. -/
lemma Settled.recorded_or_wrote (hs : s.Mirrors) (h : Settled s call e t) :
    t.Mirrors ∧ t.locks = s.locks
      ∧ if call.changesSource then ∃ p ∈ s.site? call, s.Wrote t p else s.Keeps t := by
  cases h with
  | unread hbegin hdue happly =>
      have hfiles := Commit.files_of_apply happly
      cases call with
      | update i u =>
          obtain rfl := Option.some.inj hdue
          have hsource := (Call.site?_of_begin hbegin (by simp)).1
          refine ⟨fun q text htext => hs q text ?_, rfl, ?_⟩
          · simpa [hfiles, Commit.recorded] using htext
          · rw [hsource]
            exact .refl s
      | _ => cases hdue
  | @read u p due state e hbegin hfree hdraft happly =>
      have hfiles := Commit.files_of_apply happly
      cases call with
      | resync q kind =>
          refine ⟨?_, rfl, .refl s⟩
          obtain ⟨-, ⟨-, rfl⟩ | ⟨-, source, found, hread, rfl⟩⟩ := Call.draft_resync hdraft
          · exact hs.erase rfl hfiles
          · obtain ⟨source', hsource, hextract⟩ := bind_eq_ok.mp hread
            obtain ⟨found', -, heq⟩ := bind_eq_ok.mp hextract
            cases heq
            exact hs.insert_read (get?_of_readSource hsource) rfl hfiles
      | add c file target => obtain ⟨_, hcode, -⟩ := Call.draft_add hdraft; cases hcode
      | update i u => obtain ⟨_, hcode, -⟩ := Call.draft_update hdraft; cases hcode
      | remove i => obtain ⟨_, hcode, -⟩ := Call.draft_remove hdraft; cases hcode
  | @written u p code due disk state e hbegin hfree hdraft hwrite happly =>
      have hdisk := write_of_writeSource hwrite
      have hkind (q : Path) (kind : ChangeKind) : call ≠ .resync q kind := by
        rintro rfl
        cases (Call.draft_resync hdraft).1
      obtain ⟨hsource, hsite⟩ := Call.site?_of_begin hbegin hkind
      have hrecorded : due.recorded s.state.files = s.state.files.insert p code := by
        cases call with
        | add c file target => obtain ⟨_, hcode, rfl⟩ := Call.draft_add hdraft; cases hcode; rfl
        | update i u => obtain ⟨_, hcode, rfl⟩ := Call.draft_update hdraft; cases hcode; rfl
        | remove i => obtain ⟨_, hcode, rfl⟩ := Call.draft_remove hdraft; cases hcode; rfl
        | resync q kind => exact absurd rfl (hkind q kind)
      refine ⟨hs.insert (Disk.get?_of_write hdisk)
        ((Commit.files_of_apply happly).trans hrecorded), rfl, ?_⟩
      rw [hsource]
      exact ⟨p, hsite p rfl, Disk.writes_of_write hdisk, code, Disk.get?_of_write hdisk⟩

/-! ### Operations -/

/-- What may be done with a project while no other program changes its files. -/
inductive Operation where
  /-- The project is opened afresh. -/
  | reopen (root : Path)
  | call (call : Call)
  /-- The disk begins or ceases to refuse to be read or written. -/
  | refuse (reads writes : Bool)
  | startWatching
  | stopWatching
  | catchUp
  | close

namespace Session

/-- The project after an operation. One that cannot be opened stays as it is. -/
def operate (s : Session) : Operation → Session
  | .reopen root => (openAt root s.disk).toOption.getD s
  | .call call => (s.perform call).2
  | .refuse reads writes =>
    { s with disk := { s.disk with refusesReads := reads, refusesWrites := writes } }
  | .startWatching => s.startWatching
  | .stopWatching => s.stopWatching
  | .catchUp => s.catchUp.1
  | .close => s.close

/-- The project after several operations in order. -/
def operated (s : Session) (ops : List Operation) : Session := ops.foldl operate s

/-- An operation writes one file once, if it is a call that changes a source and succeeds; or else
none. -/
def WritesOnce (s : Session) : Operation → Prop
  | .call call =>
    match (s.perform call).1 with
    | .finished (.ok _) =>
      if call.changesSource then ∃ p ∈ s.site? call, s.Wrote (s.perform call).2 p
      else s.Keeps (s.perform call).2
    | .finished (.error _) => s.Keeps (s.perform call).2
    | _ => False
  | op => s.Keeps (s.operate op)

/-- Nothing is in progress, and every text that is known is that of the file on the disk. -/
structure IsSound (s : Session) : Prop where
  free : s.locks = []
  mirrors : s.Mirrors

lemma isSound_start (config : Config) (root : Path) (d : Disk) : (start config root d).IsSound :=
  ⟨rfl, fun p text h => by simp [start, State.ofRoot, Files.get?] at h⟩

/-- The texts that are known do not depend on who watches the disk, and on what it refuses. -/
lemma IsSound.congr (hs : s.IsSound) (hlocks : t.locks = s.locks) (hfiles : t.state = s.state)
    (hdisk : t.disk.files = s.disk.files) : t.IsSound := by
  refine ⟨hlocks.trans hs.free, fun p text htext => ?_⟩
  rw [hfiles] at htext
  rw [Disk.get?, hdisk]
  exact hs.mirrors p text htext

lemma IsSound.startWatching (hs : s.IsSound) :
    s.startWatching.IsSound ∧ s.Keeps s.startWatching := by
  rw [Session.startWatching]
  cases hw : s.watch with
  | none => exact ⟨hs.congr rfl rfl rfl, rfl, rfl⟩
  | some number => exact ⟨hs, .refl s⟩

lemma IsSound.stopWatching (hs : s.IsSound) :
    s.stopWatching.IsSound ∧ s.Keeps s.stopWatching := by
  rw [Session.stopWatching]
  cases hw : s.watch with
  | none => exact ⟨hs, .refl s⟩
  | some number => exact ⟨hs.congr rfl rfl rfl, rfl, rfl⟩

/-- Of a project that is closed nothing is known. -/
lemma IsSound.close (hs : s.IsSound) : s.close.IsSound ∧ s.Keeps s.close := by
  obtain ⟨hstopped, hkeeps⟩ := hs.stopWatching
  refine ⟨⟨hstopped.free, fun p text h => ?_⟩, hkeeps⟩
  simp [Session.close, State.ofRoot, Files.get?] at h

/-- With no other one in progress, a call ends, and writes one file once or none. -/
lemma IsSound.perform (hs : s.IsSound) (call : Call) :
    (s.perform call).2.IsSound ∧ s.WritesOnce (.call call) := by
  rw [WritesOnce]
  rcases perform_cases s call with ⟨f, hf, -⟩ | ⟨p, t, -, -, hlocked⟩ | ⟨e, t, ht, hsettled⟩
  · rw [hf]
    exact ⟨hs, .refl s⟩
  · rw [isLocked, hs.free] at hlocked
    cases hlocked
  · rw [ht]
    obtain ⟨hmirrors, hlocks, hwrites⟩ := hsettled.recorded_or_wrote hs.mirrors
    exact ⟨⟨hlocks.trans hs.free, hmirrors⟩, hwrites⟩

/-- A change that is taken note of is read, not written. -/
lemma IsSound.reread (hs : s.IsSound) (p : Path) (kind : ChangeKind) :
    (s.perform (.resync p kind)).2.IsSound ∧ s.Keeps (s.perform (.resync p kind)).2 := by
  obtain ⟨hsound, hwrites⟩ := hs.perform (.resync p kind)
  refine ⟨hsound, ?_⟩
  rw [WritesOnce] at hwrites
  split at hwrites
  · exact hwrites
  · exact hwrites
  · exact hwrites.elim

/-- Changes that are taken note of one after the other are read, not written. -/
lemma IsSound.noteChanges (hs : s.IsSound) (changes : List Storage.Change) (events : List Event) :
    (changes.foldl noteChange (s, events)).1.IsSound
      ∧ s.Keeps (changes.foldl noteChange (s, events)).1 := by
  induction changes generalizing s events with
  | nil => exact ⟨hs, .refl s⟩
  | cons c changes ih =>
      obtain ⟨hnext, hkeeps⟩ := hs.reread c.path c.kind
      obtain ⟨hlast, hrest⟩ := ih hnext (events ++ _)
      exact ⟨hlast, hkeeps.trans hrest⟩

/-- Changes that wait are read, not written. -/
lemma IsSound.catchUp (hs : s.IsSound) : s.catchUp.1.IsSound ∧ s.Keeps s.catchUp.1 := by
  unfold Session.catchUp
  split
  · exact ⟨hs, .refl s⟩
  · next number _ =>
      have htaken : IsSound { s with disk := (s.disk.take number).2 } := hs.congr rfl rfl rfl
      exact htaken.noteChanges _ []

/-- A call that has not failed has led to the project that it ends with. -/
lemma eq_of_outcome {r : Phase × Session} (h : outcome r = .ok t) : r.2 = t := by
  unfold outcome at h
  split at h
  · cases h
  · exact Except.ok.inj h

/-- A project that is opened reads its files, and writes none. -/
lemma isSound_openAt {root : Path} {d : Disk} (h : openAt root d = .ok t) :
    t.IsSound ∧ t.disk.files = d.files ∧ t.disk.writes = d.writes := by
  obtain ⟨config, -, hopen⟩ := bind_eq_ok.mp h
  have hs := isSound_start config root d
  simp only at hopen
  split_ifs at hopen
  · obtain ⟨hnext, hkeeps⟩ := hs.reread (start config root d).defaultTarget .changed
    rw [eq_of_outcome hopen] at hnext hkeeps
    exact ⟨hnext, hkeeps⟩
  · obtain rfl := Except.ok.inj hopen
    exact ⟨hs, rfl, rfl⟩

/-- **An operation keeps the texts that are known in line with the disk**, and writes one file once
or none. -/
lemma IsSound.operate (hs : s.IsSound) (op : Operation) :
    (s.operate op).IsSound ∧ s.WritesOnce op := by
  cases op with
  | reopen root =>
      change IsSound ((openAt root s.disk).toOption.getD s) ∧ s.Keeps _
      rw [Session.operate]
      cases hopen : openAt root s.disk with
      | error f => exact ⟨hs, .refl s⟩
      | ok t => exact isSound_openAt hopen
  | call call => exact hs.perform call
  | refuse reads writes => exact ⟨hs.congr rfl rfl rfl, rfl, rfl⟩
  | startWatching => exact hs.startWatching
  | stopWatching => exact hs.stopWatching
  | catchUp => exact hs.catchUp
  | close => exact hs.close

end Session

/-- **The texts that are known are those on the disk**: whatever is done with a project on any disk
that no other program changes, failures included, every text that is known of a file is that of the
file on the disk; and whatever is done next writes one file once, the one that is added to or the one
that the component stands in, if it is a call that changes a source and succeeds, and none
otherwise. -/
theorem operated_mirrors (config : Config) (root : Path) (d : Disk) (ops : List Operation)
    (op : Operation) :
    let s := (Session.start config root d).operated ops
    s.Mirrors ∧ (s.operate op).Mirrors ∧ s.WritesOnce op := by
  intro s
  have hsound : s.IsSound := by
    refine List.foldlRecOn ops Session.operate (Session.isSound_start config root d) ?_
    exact fun s hs op _ => (hs.operate op).1
  obtain ⟨hnext, hwrites⟩ := hsound.operate op
  exact ⟨hsound.mirrors, hnext.mirrors, hwrites⟩

/-- An addition writes the page; its removal is refused by the disk. -/
example :
    let ops : List Operation := [.call (.resync ⟨"page.tsx"⟩ .changed),
      .call (.add (.ofTag "note" "p") (some ⟨"page.tsx"⟩) none), .refuse false true,
      .call (.remove "note")]
    (headingProject.operated ops).disk.writes = 1
      ∧ (headingProject.operated ops).state.has "note" := by
  decide +kernel

end CanvasSync.Project
