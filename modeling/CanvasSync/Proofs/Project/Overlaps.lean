import CanvasSync.Proofs.Project.Calls
import CanvasSync.Proofs.Storage.Files
import Mathlib.Data.List.Induction
import Mathlib.Data.List.Nodup

/-!
What calls in progress at once make of the files.

A call reads its file and writes it while it holds it, and no two calls hold a file at once. So
whatever the turns, the text of a file is what the calls that wrote it make of it one after the
other, in the order in which they got hold of it.

* `Call.edited?`: what a call makes of a source;
* `Overlap.gained`, `Overlap.writersOf`: who got hold of a file, and who wrote a file, in some turns;
* `Call.move_of_step`: what a step does to the file that a call holds;
* `Orderly`: what is true after any turns, preserved by one more in `Orderly.turn`;
* `get?_play`: the text of each file after any turns.
-/

namespace CanvasSync.Project

open CanvasSync.Markup (Style)
open CanvasSync.Storage (Disk Path)

variable {s t : Session} {call : Call} {phase phase' : Phase} {p q : Path} {code : Text}
  {due : Commit} {o : Overlap} {i j : Nat} {turns : List Nat}

/-! ### What a call makes of a source -/

/-- What a call makes of the source of its file; nothing if it refuses to or only reads it. -/
def Call.edited? (style : Style) (source : Text) : Call → Option Text
  | .add c _ target => (Edit.insert source c target style).toOption
  | .update id u => (Edit.setProps source id (u.props.getD []) style).toOption
  | .remove id => (Edit.remove source id style).toOption
  | .resync _ _ => none

/-- A source that was read is on the disk. -/
lemma get?_of_readSource {d : Disk} {source : Text} (h : readSource d p = .ok source) :
    d.get? p = some source := by
  refine Disk.get?_of_read ?_
  cases hd : d.read p <;> simp_all [readSource, ofDisk]

lemma write_of_writeSource {d e : Disk} (h : writeSource d p code = .ok e) :
    d.write p code = .ok e := by
  cases hd : d.write p code <;> simp_all [writeSource, ofDisk]

lemma eq_ok_of_ofEdit {α : Type} {x : Except Edit.Fault α} {a : α} (h : ofEdit x = .ok a) :
    x = .ok a := by
  cases x <;> simp_all [ofEdit]

/-- A source that was read and edited is on the disk. -/
lemma exists_source_of_ofEdit {d : Disk} {edit : Text → Except Edit.Fault Text}
    (h : (readSource d p >>= fun source => ofEdit (edit source)) = .ok code) :
    ∃ source, d.get? p = some source ∧ (edit source).toOption = some code := by
  obtain ⟨source, hread, hedit⟩ := bind_eq_ok.mp h
  exact ⟨source, get?_of_readSource hread, by rw [eq_ok_of_ofEdit hedit]; rfl⟩

/-- The text that a call is about to write is what it makes of the text on the disk. -/
lemma Call.edited?_of_draft (h : call.draft s p = .ok (some code, due)) :
    ∃ source, s.disk.get? p = some source ∧ call.edited? s.config.style source = some code := by
  cases call with
  | resync q kind => exact absurd (Call.draft_resync h).1 (by simp)
  | _ =>
      simp only [Call.draft, bind_eq_ok, pure, Except.pure, Except.ok.injEq, Prod.mk.injEq,
        Option.some.injEq] at h
      obtain ⟨text, hedit, rfl, -⟩ := h
      exact exists_source_of_ofEdit hedit

/-! ### What a step does to the files -/

namespace Phase

/-- Whether a call has not got hold of its file yet. -/
def isQueued : Phase → Bool
  | .fresh | .waiting _ => true
  | _ => false

/-- The file that a call holds. -/
def held? : Phase → Option Path
  | .holding p | .writing p _ _ => some p
  | .settling file _ | .leaving file _ => file
  | _ => none

/-- The file that a call holds and has not written yet. -/
def unwritten? : Phase → Option Path
  | .holding p | .writing p _ _ => some p
  | _ => none

lemma held?_of_unwritten? (h : phase.unwritten? = some p) : phase.held? = some p := by
  cases phase <;> simp_all [held?, unwritten?]

end Phase

namespace Session

lemma isLocked_iff : s.isLocked p ↔ ∃ q ∈ s.locks, q.same p := by simp [isLocked]

/-- A file is held by any of its paths. -/
lemma isLocked_congr (h : p.same q = true) : s.isLocked p = s.isLocked q := by
  simp only [isLocked, Path.same_comm _ p, Path.same_comm _ q, Path.same_congr h]

lemma isLocked_lock : (s.lock p).isLocked q ↔ p.same q ∨ s.isLocked q := by
  simp [isLocked, lock]

/-- Other files stay held when one is let go of. -/
lemma isLocked_unlock (h : s.isLocked q) (hne : ¬ p.same q) : (s.unlock p).isLocked q := by
  obtain ⟨r, hr, hrq⟩ := isLocked_iff.mp h
  refine isLocked_iff.mpr ⟨r, List.mem_filter.mpr ⟨hr, ?_⟩, hrq⟩
  rw [Path.same_congr hrq, Path.same_comm]
  simpa using hne

end Session

/-- What a step of a call does to the files: it gets hold of one, writes the one that it holds, or
does neither. -/
inductive Call.Move (call : Call) (s : Session) : Phase → Phase → Session → Prop
  | gains (p : Path) (hfree : s.isLocked p = false) :
    Move call s (.waiting p) (.holding p) (s.lock p)
  | writes (p : Path) (code : Text) (due : Commit) (disk : Disk)
      (hwrite : s.disk.write p code = .ok disk) :
    Move call s (.writing p code due) (.settling (some p) due) { s with disk }
  | neither (phase phase' : Phase) (t : Session)
      (hgains : ∀ p, phase' ≠ .holding p)
      (hwrites : ∀ p code due, phase = .writing p code due → ∃ r, phase' = .finished r)
      (hqueued : phase'.isQueued → phase.isQueued)
      (hheld : ∀ p, phase'.held? = some p → phase.held? = some p)
      (hunwritten : ∀ p, phase'.unwritten? = some p → phase.unwritten? = some p)
      (hdraft : ∀ p code due, phase' = .writing p code due →
        ∃ source, s.disk.get? p = some source ∧ call.edited? s.config.style source = some code)
      (hlocked : ∀ q, s.isLocked q → t.isLocked q
        ∨ phase'.held? = none ∧ ∃ p, phase.held? = some p ∧ p.same q)
      (hdisk : t.disk = s.disk) (hconfig : t.config = s.config) : Move call s phase phase' t

/-- The end of a call: it lets go of what it holds and of nothing else. -/
lemma Call.move_leave (r : Except Fault Event) {file : Option Path} (hphase : phase.held? = file) :
    call.Move s phase (.finished r) (call.leave s file) := by
  refine .neither _ _ _ (by simp) (fun _ _ _ _ => ⟨r, rfl⟩) (by simp [Phase.isQueued])
    (by simp [Phase.held?]) (by simp [Phase.unwritten?]) (by simp) (fun q hq => ?_) ?_ ?_
  · cases file with
    | none => exact .inl hq
    | some p =>
        by_cases hpq : p.same q
        · exact .inr ⟨rfl, p, hphase, hpq⟩
        · exact .inl (Session.isLocked_unlock hq hpq)
  · cases file <;> rfl
  · cases file <;> rfl

/-- A step that gets hold of nothing, writes nothing and keeps what is held. -/
lemma Call.move_stay (hgains : ∀ p, phase' ≠ .holding p)
    (hwrites : ∀ p code due, phase ≠ .writing p code due)
    (hqueued : phase'.isQueued → phase.isQueued) (hheld : phase'.held? = phase.held?)
    (hunwritten : phase'.unwritten? = none) (hlocks : t.locks = s.locks) (hdisk : t.disk = s.disk)
    (hconfig : t.config = s.config) : call.Move s phase phase' t := by
  refine .neither _ _ _ hgains (fun p code due h => absurd h (hwrites p code due)) hqueued
    (by simp [hheld]) (by simp [hunwritten]) ?_ (fun q hq => .inl ?_) hdisk hconfig
  · rintro p code due rfl
    simp [Phase.unwritten?] at hunwritten
  · rwa [Session.isLocked, hlocks]

/-- What a step of a call does to the files. -/
lemma Call.move_of_step (h : call.step s phase = some (phase', t)) : call.Move s phase phase' t := by
  cases phase with
  | fresh =>
      rw [Call.step] at h
      split at h
      · next p u hbegin =>
          cases h
          obtain ⟨rfl, -⟩ := Call.begin_eq_ok hbegin
          exact Call.move_stay (by simp) (by simp) (fun _ => rfl) rfl rfl rfl rfl rfl
      · next u hbegin =>
          obtain ⟨rfl, -⟩ := Call.begin_eq_ok hbegin
          obtain ⟨due, -, hstep⟩ := Option.map_eq_some_iff.mp h
          cases hstep
          exact Call.move_stay (by simp) (by simp) (fun _ => rfl) rfl rfl rfl rfl rfl
      · next f hbegin =>
          cases h
          exact Call.move_stay (by simp) (by simp) (fun _ => rfl) rfl rfl rfl rfl rfl
  | waiting p =>
      rw [Call.step] at h
      split at h
      · cases h
      · next hfree =>
          cases h
          exact .gains p (by simpa using hfree)
  | holding p =>
      rw [Call.step] at h
      split at h
      · next code due hdraft =>
          cases h
          refine .neither _ _ _ (by simp) (by simp) (by simp [Phase.isQueued]) (fun _ h => h)
            (fun _ h => h) ?_ (fun q hq => .inl hq) rfl rfl
          rintro p code due hphase
          cases hphase
          exact Call.edited?_of_draft hdraft
      · next due hdraft =>
          cases h
          exact Call.move_stay (by simp) (by simp) (by simp [Phase.isQueued]) rfl rfl rfl rfl rfl
      · next f hdraft =>
          cases h
          exact Call.move_leave _ rfl
  | writing p code due =>
      rw [Call.step] at h
      split at h
      · next u hwrite =>
          cases h
          obtain ⟨disk, hdisk, hu⟩ := bind_eq_ok.mp hwrite
          cases hu
          exact .writes p code due disk (write_of_writeSource hdisk)
      · next f hwrite =>
          cases h
          exact Call.move_leave _ rfl
  | settling file due =>
      rw [Call.step] at h
      split at h
      · next state event hdue =>
          cases h
          exact Call.move_stay (by simp) (by simp) (by simp [Phase.isQueued]) rfl rfl rfl rfl rfl
      · next f hdue =>
          cases h
          exact Call.move_leave _ rfl
  | leaving file event =>
      cases h
      exact Call.move_leave _ rfl
  | finished r => cases h

/-! ### Turns -/

namespace Overlap

/-- How far the call of a number is. -/
def phase? (o : Overlap) (i : Nat) : Option Phase := o.calls[i]?.map Prod.snd

/-- Whether the call of a number gets hold of its file in its turn. -/
def gains (o : Overlap) (i : Nat) : Bool :=
  match o.phase? i, (o.turn i).phase? i with
  | some (.waiting _), some (.holding _) => true
  | _, _ => false

/-- Whether the call of a number writes a file in its turn. -/
def writes (p : Path) (o : Overlap) (i : Nat) : Bool :=
  match o.phase? i, (o.turn i).phase? i with
  | some (.writing q _ _), some (.settling _ _) => q.same p
  | _, _ => false

/-- The numbers of the calls with something to tell of their turns, in order of turn. -/
def whose (told : Overlap → Nat → Bool) : Overlap → List Nat → List Nat
  | _, [] => []
  | o, i :: turns => (if told o i then [i] else []) ++ whose told (o.turn i) turns

/-- The numbers of the calls that get hold of their files in some turns, in order of turn. -/
def gained (o : Overlap) (turns : List Nat) : List Nat := o.whose gains turns

/-- The numbers of the calls that write a file in some turns, in order of turn. -/
def writersOf (o : Overlap) (p : Path) (turns : List Nat) : List Nat := o.whose (writes p) turns

lemma play_append_singleton (o : Overlap) (turns : List Nat) (i : Nat) :
    o.play (turns ++ [i]) = (o.play turns).turn i := by
  simp [play]

lemma whose_append_singleton (told : Overlap → Nat → Bool) (o : Overlap) (turns : List Nat)
    (i : Nat) :
    o.whose told (turns ++ [i])
      = o.whose told turns ++ if told (o.play turns) i then [i] else [] := by
  induction turns generalizing o with
  | nil =>
      rw [List.nil_append, whose, whose, whose, List.append_nil, List.nil_append]
      rfl
  | cons j turns ih =>
      rw [List.cons_append, whose, whose, ih, List.append_assoc]
      rfl

/-- A turn of a call is a step of it, if it does anything. -/
lemma turn_cases (o : Overlap) (i : Nat) :
    o.turn i = o ∨ ∃ call phase phase' t, o.calls[i]? = some (call, phase)
      ∧ call.Move o.session phase phase' t ∧ o.turn i = ⟨o.calls.set i (call, phase'), t⟩ := by
  rw [turn]
  split
  · exact .inl rfl
  · next call phase hcall =>
      split
      · next phase' t hstep =>
          exact .inr ⟨call, phase, phase', t, hcall, Call.move_of_step hstep, rfl⟩
      · exact .inl rfl

lemma getElem?_set_calls {calls : List (Call × Phase)} {c d : Call × Phase} {e : Call × Phase}
    (h : calls[i]? = some c) : (calls.set i d)[j]? = some e ↔
      i = j ∧ d = e ∨ i ≠ j ∧ calls[j]? = some e := by
  obtain ⟨hi, -⟩ := List.getElem?_eq_some_iff.mp h
  rw [List.getElem?_set]
  split_ifs with hij
  · subst hij
    simp
  · simp [hij]

/-- What a turn tells of itself. -/
lemma told_of_turn {c : Call} (h : o.calls[i]? = some (c, phase))
    (hturn : o.turn i = ⟨o.calls.set i (c, phase'), t⟩) :
    o.phase? i = some phase ∧ (o.turn i).phase? i = some phase' := by
  simp [phase?, h, hturn, (getElem?_set_calls h).mpr (.inl ⟨rfl, rfl⟩)]

lemma gains_of_turn_eq_self (hturn : o.turn i = o) : o.gains i = false := by
  rw [gains, hturn]
  split <;> simp_all

lemma writes_of_turn_eq_self (hturn : o.turn i = o) : o.writes p i = false := by
  rw [writes, hturn]
  split <;> simp_all

end Overlap

/-- The text that some calls, given by number, make of a text one after the other. -/
def replay? (calls : List Call) (style : Style) (order : List Nat) (source : Text) : Option Text :=
  order.foldlM (fun source i => calls[i]?.bind fun c => c.edited? style source) source

lemma replay?_append_singleton (calls : List Call) (style : Style) (order : List Nat) (i : Nat) :
    replay? calls style (order ++ [i]) = fun source =>
      (replay? calls style order source).bind fun source =>
        calls[i]?.bind fun c => c.edited? style source := by
  funext source
  simp [replay?, List.foldlM_append]

/-- What is true after any turns of calls in progress: those that hold a file hold it alone, what
is about to be written is made of the text on the disk, and the text of a file is what those that
wrote it, in the order in which they got hold of it, make of the text at the start. -/
structure Orderly (calls : List Call) (start : Session) (o : Overlap) (gained : List Nat)
    (writers : Path → List Nat) : Prop where
  calls_eq : o.calls.map Prod.fst = calls
  config_eq : o.session.config = start.config
  /-- A file that a call holds is held. -/
  locked : ∀ {i : Nat} {c : Call} {phase : Phase} {p : Path}, o.calls[i]? = some (c, phase) →
    phase.held? = some p → o.session.isLocked p
  /-- No two calls hold a file. -/
  apart : ∀ {i j : Nat} {c d : Call} {phase phase' : Phase} {p q : Path},
    o.calls[i]? = some (c, phase) → o.calls[j]? = some (d, phase') →
    phase.held? = some p → phase'.held? = some q → p.same q → i = j
  /-- What is about to be written is made of the text on the disk. -/
  current : ∀ {i : Nat} {c : Call} {p : Path} {code : Text} {due : Commit},
    o.calls[i]? = some (c, .writing p code due) →
    ∃ source, o.session.disk.get? p = some source
      ∧ c.edited? start.config.style source = some code
  nodup : gained.Nodup
  /-- A call gets hold of its file once. -/
  past : ∀ {i : Nat} {c : Call} {phase : Phase}, i ∈ gained → o.calls[i]? = some (c, phase) →
    phase.isQueued = false
  /-- Only what a call has got hold of is written. -/
  gained_of_written : ∀ {i : Nat} {p : Path}, i ∈ writers p → i ∈ gained
  /-- A call writes its file once. -/
  written : ∀ {i : Nat} {p : Path} {c : Call} {phase : Phase}, i ∈ writers p →
    o.calls[i]? = some (c, phase) → phase.unwritten? = none
  /-- Whoever is to write a file next has got hold of it after all those that wrote it. -/
  next : ∀ {i : Nat} {c : Call} {phase : Phase} {p q : Path}, o.calls[i]? = some (c, phase) →
    phase.unwritten? = some p → p.same q →
    gained.filter (fun j => j ∈ writers q ++ [i]) = gained.filter (fun j => j ∈ writers q) ++ [i]
  /-- The text of a file. -/
  content : ∀ p, o.session.disk.get? p = (start.disk.get? p).bind
    (replay? calls start.config.style (gained.filter fun j => j ∈ writers p))
  /-- No file comes or goes. -/
  kept : ∀ p, (o.session.disk.get? p).isSome = (start.disk.get? p).isSome

namespace Orderly

variable {calls : List Call} {start : Session} {gained : List Nat} {writers : Path → List Nat}
  {c : Call}

/-- Before any turn. -/
lemma ofCalls (s : Session) (calls : List Call) :
    Orderly calls s (.ofCalls s calls) [] fun _ => [] := by
  have hfresh {i : Nat} {c : Call} {phase : Phase}
      (h : (Overlap.ofCalls s calls).calls[i]? = some (c, phase)) : phase = .fresh := by
    simp only [Overlap.ofCalls, List.getElem?_map, Option.map_eq_some_iff, Prod.mk.injEq] at h
    obtain ⟨-, -, -, rfl⟩ := h
    rfl
  constructor
  case calls_eq => simp [Overlap.ofCalls, Function.comp_def]
  case config_eq => rfl
  case locked =>
    intro i c phase p h hheld
    cases hfresh h
    cases hheld
  case apart =>
    intro i j c d phase phase' p q h h' hheld
    cases hfresh h
    cases hheld
  case current =>
    intro i c p code due h
    cases hfresh h
  case nodup => exact List.nodup_nil
  case past => simp
  case gained_of_written => simp
  case written => simp
  case next =>
    intro i c phase p q h hunwritten
    cases hfresh h
    cases hunwritten
  case content =>
    intro p
    have hnone : replay? calls s.config.style [] = some := rfl
    rw [List.filter_nil, hnone, Option.bind_fun_some]
    rfl
  case kept => exact fun p => rfl

/-- The calls stay the same when one of them goes on. -/
lemma map_fst_set (h : Orderly calls start o gained writers)
    (hcall : o.calls[i]? = some (c, phase)) (phase' : Phase) :
    (o.calls.set i (c, phase')).map Prod.fst = calls := by
  have hself : (o.calls.map Prod.fst)[i]? = some c := by simp [hcall]
  obtain ⟨hi, hget⟩ := List.getElem?_eq_some_iff.mp hself
  rw [List.map_set, ← h.calls_eq, ← hget]
  exact List.set_getElem_self hi

/-- A call gets hold of its file. -/
lemma gains (h : Orderly calls start o gained writers)
    (hcall : o.calls[i]? = some (c, .waiting p)) (hfree : o.session.isLocked p = false) :
    Orderly calls start ⟨o.calls.set i (c, .holding p), o.session.lock p⟩ (gained ++ [i])
      writers := by
  have hnew : i ∉ gained := fun hi => by simpa [Phase.isQueued] using h.past hi hcall
  have hunwritten (q : Path) : i ∉ writers q := fun hi => hnew (h.gained_of_written hi)
  -- whoever else holds a file does not hold this one
  have hapart {j : Nat} {d : Call} {phase : Phase} {q : Path} (hj : o.calls[j]? = some (d, phase))
      (hheld : phase.held? = some q) : ¬ p.same q := fun hpq => by
    have hlocked := h.locked hj hheld
    rw [← Session.isLocked_congr hpq, hfree] at hlocked
    cases hlocked
  have hset {j : Nat} {e : Call × Phase} :=
    Overlap.getElem?_set_calls (j := j) (d := (c, Phase.holding p)) (e := e) hcall
  constructor
  case calls_eq => exact h.map_fst_set hcall _
  case config_eq => exact h.config_eq
  case locked =>
    intro j d phase q hj hheld
    refine Session.isLocked_lock.mpr ?_
    rcases hset.mp hj with ⟨rfl, he⟩ | ⟨-, hj⟩
    · cases he
      cases hheld
      exact .inl (Path.same_self p)
    · exact .inr (h.locked hj hheld)
  case apart =>
    intro j k d e phase phase' q r hj hk hheld hheld' hqr
    rcases hset.mp hj with ⟨rfl, he⟩ | ⟨hij, hj⟩ <;> rcases hset.mp hk with ⟨rfl, he'⟩ | ⟨hik, hk⟩
    · rfl
    · cases he
      cases hheld
      exact absurd hqr (hapart hk hheld')
    · cases he'
      cases hheld'
      rw [Path.same_comm] at hqr
      exact absurd hqr (hapart hj hheld)
    · exact h.apart hj hk hheld hheld' hqr
  case current =>
    intro j d q code due hj
    rcases hset.mp hj with ⟨-, he⟩ | ⟨-, hj⟩
    · cases he
    · exact h.current hj
  case nodup =>
    rw [List.nodup_append]
    refine ⟨h.nodup, List.nodup_singleton i, fun j hj k hk hjk => hnew ?_⟩
    rwa [← List.mem_singleton.mp hk, ← hjk]
  case past =>
    intro j d phase hmem hj
    rcases hset.mp hj with ⟨-, he⟩ | ⟨hij, hj⟩
    · cases he
      rfl
    · have hmem : j ∈ gained := by simpa [Ne.symm hij] using hmem
      exact h.past hmem hj
  case gained_of_written => exact fun hi => List.mem_append_left _ (h.gained_of_written hi)
  case written =>
    intro j q d phase hmem hj
    rcases hset.mp hj with ⟨rfl, -⟩ | ⟨-, hj⟩
    · exact absurd hmem (hunwritten q)
    · exact h.written hmem hj
  case next =>
    intro j d phase q r hj hnext hqr
    rcases hset.mp hj with ⟨rfl, he⟩ | ⟨hij, hj⟩
    · have hother : gained.filter (fun k => k ∈ writers r ++ [i])
          = gained.filter fun k => k ∈ writers r :=
        List.filter_congr fun k hk => by
          have hki : k ≠ i := fun hki => hnew (hki ▸ hk)
          simp [hki]
      rw [List.filter_append, List.filter_append, hother]
      simp [hunwritten r]
    · rw [List.filter_append, List.filter_append, h.next hj hnext hqr]
      simp [hij, hunwritten r]
  case content =>
    intro q
    have horder : (gained ++ [i]).filter (fun k => k ∈ writers q)
        = gained.filter fun k => k ∈ writers q := by
      rw [List.filter_append]
      simp [hunwritten q]
    rw [horder]
    exact h.content q
  case kept => exact h.kept

/-- A call neither gets hold of its file nor writes it. -/
lemma neither (h : Orderly calls start o gained writers) (hcall : o.calls[i]? = some (c, phase))
    (hqueued : phase'.isQueued → phase.isQueued)
    (hheld : ∀ p, phase'.held? = some p → phase.held? = some p)
    (hunwritten : ∀ p, phase'.unwritten? = some p → phase.unwritten? = some p)
    (hdraft : ∀ p code due, phase' = .writing p code due → ∃ source,
      o.session.disk.get? p = some source ∧ c.edited? o.session.config.style source = some code)
    (hlocked : ∀ q, o.session.isLocked q → t.isLocked q
      ∨ phase'.held? = none ∧ ∃ p, phase.held? = some p ∧ p.same q)
    (hdisk : t.disk = o.session.disk) (hconfig : t.config = o.session.config) :
    Orderly calls start ⟨o.calls.set i (c, phase'), t⟩ gained writers := by
  have hset {j : Nat} {e : Call × Phase} :=
    Overlap.getElem?_set_calls (j := j) (d := (c, phase')) (e := e) hcall
  constructor
  case calls_eq => exact h.map_fst_set hcall _
  case config_eq => exact hconfig.trans h.config_eq
  case locked =>
    intro j d other q hj hheld'
    rcases hset.mp hj with ⟨rfl, he⟩ | ⟨hij, hj⟩
    · cases he
      rcases hlocked q (h.locked hcall (hheld q hheld')) with hq | ⟨hnone, -⟩
      · exact hq
      · rw [hnone] at hheld'
        cases hheld'
    · rcases hlocked q (h.locked hj hheld') with hq | ⟨-, p, hp, hpq⟩
      · exact hq
      · exact absurd (h.apart hcall hj hp hheld' hpq) hij
  case apart =>
    intro j k d e other other' q r hj hk hheld₁ hheld₂ hqr
    rcases hset.mp hj with ⟨rfl, he⟩ | ⟨hij, hj⟩ <;> rcases hset.mp hk with ⟨rfl, he'⟩ | ⟨hik, hk⟩
    · rfl
    · cases he
      exact h.apart hcall hk (hheld q hheld₁) hheld₂ hqr
    · cases he'
      exact h.apart hj hcall hheld₁ (hheld r hheld₂) hqr
    · exact h.apart hj hk hheld₁ hheld₂ hqr
  case current =>
    intro j d q code due hj
    change ∃ source, t.disk.get? q = _ ∧ _
    rw [hdisk]
    rcases hset.mp hj with ⟨-, he⟩ | ⟨-, hj⟩
    · cases he
      rw [← h.config_eq]
      exact hdraft q code due rfl
    · exact h.current hj
  case nodup => exact h.nodup
  case past =>
    intro j d other hmem hj
    rcases hset.mp hj with ⟨rfl, he⟩ | ⟨-, hj⟩
    · cases he
      have hpast := h.past hmem hcall
      cases hq : phase'.isQueued
      · rfl
      · rw [hqueued hq] at hpast
        cases hpast
    · exact h.past hmem hj
  case gained_of_written => exact h.gained_of_written
  case written =>
    intro j q d other hmem hj
    rcases hset.mp hj with ⟨rfl, he⟩ | ⟨-, hj⟩
    · cases he
      cases hu : phase'.unwritten? with
      | none => rfl
      | some r => rw [← hunwritten r hu, h.written hmem hcall]
    · exact h.written hmem hj
  case next =>
    intro j d other q r hj hnext hqr
    rcases hset.mp hj with ⟨rfl, he⟩ | ⟨-, hj⟩
    · cases he
      exact h.next hcall (hunwritten q hnext) hqr
    · exact h.next hj hnext hqr
  case content =>
    intro q
    change t.disk.get? q = _
    rw [hdisk]
    exact h.content q
  case kept =>
    intro q
    change (t.disk.get? q).isSome = _
    rw [hdisk]
    exact h.kept q

/-- A call writes its file. -/
lemma writes {disk : Disk} (h : Orderly calls start o gained writers)
    (hcall : o.calls[i]? = some (c, .writing p code due))
    (hwrite : o.session.disk.write p code = .ok disk) :
    Orderly calls start ⟨o.calls.set i (c, .settling (some p) due), { o.session with disk }⟩ gained
      fun q => writers q ++ if p.same q then [i] else [] := by
  -- first the call goes on, then it is the disk that changes
  have hgone : Orderly calls start ⟨o.calls.set i (c, .settling (some p) due), o.session⟩ gained
      writers :=
    h.neither hcall (by simp [Phase.isQueued]) (fun _ hheld => hheld) (by simp [Phase.unwritten?])
      (by simp) (fun _ hlocked => .inl hlocked) rfl rfl
  have hset {j : Nat} {e : Call × Phase} :=
    Overlap.getElem?_set_calls (j := j) (d := (c, Phase.settling (some p) due)) (e := e) hcall
  have hself := hset.mpr (.inl ⟨rfl, rfl⟩)
  have hnext {q : Path} (hpq : p.same q) := h.next hcall rfl hpq
  -- whoever else is about to write a file does not write this one
  have hother {j : Nat} {d : Call} {phase : Phase} {q : Path}
      (hj : (o.calls.set i (c, .settling (some p) due))[j]? = some (d, phase))
      (hunwritten : phase.unwritten? = some q) : ¬ p.same q := fun hpq => by
    obtain rfl := hgone.apart hself hj rfl (Phase.held?_of_unwritten? hunwritten) hpq
    rw [hself] at hj
    cases hj
    cases hunwritten
  refine { hgone with
    current := ?current, gained_of_written := ?gained_of_written, written := ?written
    next := ?next, content := ?content, kept := ?kept }
  case current =>
    intro j d q code' due' hj
    rw [Disk.get?_of_write hwrite, if_neg (hother hj rfl)]
    exact hgone.current hj
  case gained_of_written =>
    intro j q hmem
    rcases List.mem_append.mp hmem with hmem | hmem
    · exact h.gained_of_written hmem
    · split_ifs at hmem with hpq
      · obtain rfl := List.mem_singleton.mp hmem
        have hlast : j ∈ gained.filter fun k => k ∈ writers q ++ [j] := by
          rw [hnext hpq]
          simp
        exact (List.mem_filter.mp hlast).1
      · cases hmem
  case written =>
    intro j q d phase hmem hj
    rcases hset.mp hj with ⟨-, he⟩ | ⟨hij, -⟩
    · cases he
      rfl
    · have hmem : j ∈ writers q := by
        split_ifs at hmem <;> simpa [Ne.symm hij] using hmem
      exact hgone.written hmem hj
  case next =>
    intro j d phase q r hj hunwritten hqr
    have hne : ¬ p.same r := by
      rw [Path.same_comm, ← Path.same_congr hqr, Path.same_comm]
      exact hother hj hunwritten
    rw [if_neg hne, List.append_nil]
    exact hgone.next hj hunwritten hqr
  case content =>
    intro q
    rw [Disk.get?_of_write hwrite]
    split_ifs with hpq
    · obtain ⟨source, hsource, hedit⟩ := h.current hcall
      have hcalls : calls[i]? = some c := by rw [← h.calls_eq, List.getElem?_map, hcall]; rfl
      have hbefore := h.content q
      rw [← Disk.get?_congr hpq, hsource] at hbefore
      rw [hnext hpq, replay?_append_singleton, ← Option.bind_assoc, ← hbefore]
      simp [hcalls, hedit]
    · rw [List.append_nil]
      exact h.content q
  case kept =>
    intro q
    rw [Disk.get?_of_write hwrite]
    split_ifs with hpq
    · obtain ⟨source, hsource, -⟩ := h.current hcall
      rw [← h.kept q, ← Disk.get?_congr hpq, hsource]
      rfl
    · exact h.kept q

/-- **A turn preserves order.** -/
theorem turn (h : Orderly calls start o gained writers) (i : Nat) :
    Orderly calls start (o.turn i) (gained ++ if o.gains i then [i] else [])
      fun p => writers p ++ if o.writes p i then [i] else [] := by
  rcases Overlap.turn_cases o i with hself | ⟨c, phase, phase', t, hcall, hmove, hturn⟩
  · have hgains : o.gains i = false := Overlap.gains_of_turn_eq_self hself
    have hwrites (p : Path) : Overlap.writes p o i = false := Overlap.writes_of_turn_eq_self hself
    simpa [hgains, hwrites, hself] using h
  · obtain ⟨hbefore, hafter⟩ := Overlap.told_of_turn hcall hturn
    cases hmove with
    | gains p hfree =>
        have hgains : o.gains i = true := by rw [Overlap.gains, hbefore, hafter]
        have hwrites (q : Path) : Overlap.writes q o i = false := by
          rw [Overlap.writes, hbefore, hafter]
        simpa [hgains, hwrites, hturn] using h.gains hcall hfree
    | writes p code due disk hwrite =>
        have hgains : o.gains i = false := by rw [Overlap.gains, hbefore, hafter]
        have hwrites (q : Path) : Overlap.writes q o i = p.same q := by
          rw [Overlap.writes, hbefore, hafter]
        simpa [hgains, hwrites, hturn] using h.writes hcall hwrite
    | neither _ _ _ hgets hends hqueued hheld hunwritten hdraft hlocked hdisk hconfig =>
        have hgains : o.gains i = false := by
          rw [Overlap.gains, hbefore, hafter]
          cases phase <;> cases phase' <;> simp_all
        have hwrites (q : Path) : Overlap.writes q o i = false := by
          rw [Overlap.writes, hbefore, hafter]
          cases phase <;> cases phase' <;> simp_all
        simpa [hgains, hwrites, hturn] using
          h.neither hcall hqueued hheld hunwritten hdraft hlocked hdisk hconfig

/-- Any turns of calls that have not begun are in order. -/
theorem play (s : Session) (calls : List Call) (turns : List Nat) :
    Orderly calls s ((Overlap.ofCalls s calls).play turns) ((Overlap.ofCalls s calls).gained turns)
      fun p => (Overlap.ofCalls s calls).writersOf p turns := by
  induction turns using List.reverseRecOn with
  | nil => exact ofCalls s calls
  | append_singleton turns i ih =>
      simp only [Overlap.gained, Overlap.writersOf, Overlap.whose_append_singleton,
        Overlap.play_append_singleton]
      exact ih.turn i

end Orderly

/-- **No update of a file is lost.** After any turns of calls, the text of a file is what the calls
that wrote it make of its text at the start, one after the other in the order in which they got hold
of it, each of them once. -/
theorem get?_play (s : Session) (calls : List Call) (turns : List Nat) (p : Path) :
    let o := Overlap.ofCalls s calls
    let writers := (o.gained turns).filter fun i => i ∈ o.writersOf p turns
    writers.Nodup ∧ (∀ i, i ∈ writers ↔ i ∈ o.writersOf p turns)
      ∧ (o.play turns).session.disk.get? p
        = (s.disk.get? p).bind (replay? calls s.config.style writers)
      ∧ ((o.play turns).session.disk.get? p).isSome = (s.disk.get? p).isSome := by
  intro o writers
  have h := Orderly.play s calls turns
  refine ⟨h.nodup.filter _, fun i => ?_, h.content p, h.kept p⟩
  simpa [writers, o] using fun hi => h.gained_of_written hi

end CanvasSync.Project
