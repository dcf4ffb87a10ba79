import CanvasSync.Proofs.Project.Identity
import CanvasSync.Proofs.Project.Overlaps

/-!
What claims are good for while calls are in progress at once.

A call that adds a component claims its ids before it waits for its file, and gives them up once the
component is recorded, or the call has failed. The disk may be anything at any time: other programs
write files, and reads and writes fail.

* `Happening`, `Overlap.pass`: turns of calls, with changes of the disk between;
* `Call.Stage`: what a step does to the claims and to what is known;
* `Reserved`: what is true after any happenings, preserved by one more in `Reserved.happen`;
* `Overlap.Keeps`: an id that was written is claimed or registered until its component is removed;
* `reserved_pass`: no two calls in progress add one id, and none is added again before it is removed.
-/

namespace CanvasSync.Project

open CanvasSync.Component
open CanvasSync.Storage (Disk Path)

variable {s t : Session} {c d : Call} {phase phase' : Phase} {o : Overlap} {i j k : Nat} {x : String}
  {due : Commit} {e : Event}

/-! ### Happenings -/

/-- What may happen while calls are in progress: a turn of one of them, or a change of the disk by
somebody else. -/
inductive Happening where
  | turn (number : Nat)
  | outside (disk : Disk)
  deriving Repr

namespace Overlap

def happen (o : Overlap) : Happening → Overlap
  | .turn i => o.turn i
  | .outside disk => { o with session := { o.session with disk } }

def pass (o : Overlap) (hs : List Happening) : Overlap := hs.foldl happen o

/-- Whether the call of a number adds an id to a file in its turn. -/
def Adds (o : Overlap) (i : Nat) (x : String) : Prop :=
  (∃ p, o.writes p i) ∧ x ∈ (o.calls[i]?.map fun r => r.1.claimed).getD []

/-- Whether the call of a number records in its turn that a component is removed which has an id or
has it within. -/
def Removes (o : Overlap) (k : Nat) (x : String) : Prop :=
  ∃ (call : Call) (file : Option Path) (root : String) (p : Path) (code : Text) (gone : Component)
    (state : State), o.calls[k]? = some (call, .settling file (.remove root p code))
      ∧ o.session.state.remove? root = some (gone, state) ∧ x ∈ gone.ids

lemma pass_append (o : Overlap) (hs hs' : List Happening) :
    o.pass (hs ++ hs') = (o.pass hs).pass hs' := by
  rw [pass, List.foldl_append]
  rfl

lemma pass_append_singleton (o : Overlap) (hs : List Happening) (h : Happening) :
    o.pass (hs ++ [h]) = (o.pass hs).happen h := by
  rw [pass_append]
  rfl

end Overlap

/-! ### What a step does to the claims -/

namespace Phase

/-- Whether a call has made its claims and not given them up yet. -/
def isBusy : Phase → Bool
  | .fresh | .finished _ => false
  | _ => true

/-- Whether a call has made its claims and is still to record what it does. -/
def isUnsettled : Phase → Bool
  | .waiting _ | .holding _ | .writing _ _ _ | .settling _ _ => true
  | _ => false

/-- The change that a call is to record. -/
def due? : Phase → Option Commit
  | .writing _ _ due | .settling _ due => some due
  | _ => none

lemma isBusy_of_isUnsettled (h : phase.isUnsettled) : phase.isBusy := by
  cases phase <;> simp_all [isUnsettled, isBusy]

end Phase

namespace Call

/-- Whether a call adds or removes a component. -/
def isAddOrRemove : Call → Bool
  | .add _ _ _ | .remove _ => true
  | _ => false

/-- The change that a call records which adds or removes a component. -/
inductive IsDue : Call → Commit → Prop
  | add (c : Component) (file : Option Path) (target : Option (List Nat)) (p : Path) (code : Text) :
    IsDue (.add c file target) (.add c p code)
  | remove (id : String) (p : Path) (code : Text) : IsDue (.remove id) (.remove id p code)

/-- What a step of a call that adds or removes a component does to the claims and to what is
known. -/
inductive Stage (call : Call) (s : Session) : Phase → Phase → Session → Prop
  /-- New ids are claimed. -/
  | claims (p : Path) (hnd : call.claimed.Nodup)
      (hnew : ∀ x ∈ call.claimed, x ∉ idsAll s.state.components ∧ x ∉ s.claims) :
    Stage call s .fresh (.waiting p) { s with claims := s.claims ++ call.claimed }
  /-- The call is refused. -/
  | refused (f : Fault) : Stage call s .fresh (.finished (.error f)) s
  /-- Claims and what is known stay. -/
  | goesOn (phase phase' : Phase) (t : Session) (hbefore : phase.isUnsettled)
      (hafter : phase'.isUnsettled) (hphase : ∀ file due, phase ≠ .settling file due)
      (hdue : ∀ due ∈ phase'.due?, phase.due? = some due ∨ call.IsDue due)
      (hclaims : t.claims = s.claims) (hstate : t.state = s.state) : Stage call s phase phase' t
  /-- What was due is recorded. -/
  | records (file : Option Path) (due : Commit) (state : State) (e : Event)
      (happly : due.apply s.state = .ok (state, e)) :
    Stage call s (.settling file due) (.leaving file e) { s with state }
  /-- The claims are given up. -/
  | ends (phase : Phase) (r : Except Fault Event) (t : Session) (hbefore : phase.isBusy)
      (hfailed : ∀ file due, phase = .settling file due → ∃ f, due.apply s.state = .error f)
      (hclaims : t.claims = s.claims.filter fun x => x ∉ call.claimed)
      (hstate : t.state = s.state) : Stage call s phase (.finished r) t

/-- A call that ends gives up its claims. -/
lemma stage_leave (r : Except Fault Event) (file : Option Path) (hbusy : phase.isBusy)
    (hfailed : ∀ file due, phase = .settling file due → ∃ f, due.apply s.state = .error f) :
    c.Stage s phase (.finished r) (c.leave s file) := by
  cases file <;> exact .ends _ _ _ hbusy hfailed rfl rfl

/-- What a call has drafted is what it is to record. -/
lemma isDue_of_draft {p : Path} {code : Option Text} (hc : c.isAddOrRemove)
    (h : c.draft s p = .ok (code, due)) : c.IsDue due := by
  cases c with
  | add c file target =>
      obtain ⟨text, -, rfl⟩ := Call.draft_add h
      exact .add c file target p text
  | remove id =>
      obtain ⟨text, -, rfl⟩ := Call.draft_remove h
      exact .remove id p text
  | _ => cases hc

/-- A call that adds or removes a component needs a file, and claims new ids. -/
lemma claims_of_begin {file : Option Path} (hc : c.isAddOrRemove) (h : c.begin s = .ok (file, t)) :
    (∃ p, file = some p) ∧ c.claimed.Nodup
      ∧ ∀ x ∈ c.claimed, x ∉ idsAll s.state.components ∧ x ∉ s.claims := by
  cases c with
  | add c file target =>
      simp only [begin, bind_eq_ok, pure, Except.pure, Except.ok.injEq, Prod.mk.injEq] at h
      obtain ⟨u, hclaim, rfl, -⟩ := h
      obtain ⟨-, hnd, hnew, hfree⟩ := Session.claim_eq_ok hclaim
      exact ⟨⟨_, rfl⟩, hnd, fun x hx => ⟨hnew x hx, hfree x hx⟩⟩
  | remove id =>
      simp only [begin, bind_eq_ok, pure, Except.pure, Except.ok.injEq, Prod.mk.injEq] at h
      obtain ⟨p, -, rfl, -⟩ := h
      exact ⟨⟨p, rfl⟩, List.nodup_nil, by simp [claimed]⟩
  | _ => cases hc

/-- What a step does to the claims and to what is known. -/
lemma stage_of_step (hc : c.isAddOrRemove) (h : c.step s phase = some (phase', t)) :
    c.Stage s phase phase' t := by
  cases phase with
  | fresh =>
      rw [step] at h
      split at h
      · next p u hbegin =>
          cases h
          obtain ⟨-, hnd, hnew⟩ := claims_of_begin hc hbegin
          obtain ⟨rfl, -⟩ := begin_eq_ok hbegin
          exact .claims p hnd hnew
      · next u hbegin =>
          obtain ⟨⟨p, hp⟩, -⟩ := claims_of_begin hc hbegin
          cases hp
      · next f hbegin =>
          cases h
          exact .refused f
  | waiting p =>
      rw [step] at h
      split at h
      · cases h
      · cases h
        exact .goesOn _ _ _ rfl rfl (by simp) (by simp [Phase.due?]) rfl rfl
  | holding p =>
      rw [step] at h
      split at h
      · next code due hdraft =>
          cases h
          refine .goesOn _ _ _ rfl rfl (by simp) (fun due' hdue' => .inr ?_) rfl rfl
          obtain rfl := Option.some.inj hdue'
          exact isDue_of_draft hc hdraft
      · next due hdraft =>
          cases h
          refine .goesOn _ _ _ rfl rfl (by simp) (fun due' hdue' => .inr ?_) rfl rfl
          obtain rfl := Option.some.inj hdue'
          exact isDue_of_draft hc hdraft
      · next f hdraft =>
          cases h
          exact stage_leave _ _ rfl (by simp)
  | writing p code due =>
      rw [step] at h
      split at h
      · next u hwrite =>
          cases h
          obtain ⟨disk, -, hu⟩ := bind_eq_ok.mp hwrite
          cases hu
          exact .goesOn _ _ _ rfl rfl (by simp) (fun due' hdue' => .inl hdue') rfl rfl
      · next f hwrite =>
          cases h
          exact stage_leave _ _ rfl (by simp)
  | settling file due =>
      rw [step] at h
      split at h
      · next state e hdue =>
          cases h
          exact .records file due state e hdue
      · next f hdue =>
          cases h
          refine stage_leave _ _ rfl fun file' due' hsettling => ?_
          cases hsettling
          exact ⟨f, hdue⟩
  | leaving file e =>
      cases h
      exact stage_leave _ _ rfl (by simp)
  | finished r => cases h

end Call

/-! ### What is recorded -/

/-- What is due for a call that adds or removes a component can be recorded. -/
lemma Commit.exists_apply_of_isDue (h : c.IsDue due) (st : State) :
    ∃ st' e, due.apply st = .ok (st', e) := by
  cases h <;> exact ⟨_, _, rfl⟩

namespace State

variable {st : State} {p : Path} {code : Text} {id : String}

/-- After a removal an id is there exactly if it was and was not removed. -/
lemma mem_idsAll_removeFrom_iff (h : st.IdsDistinct) :
    x ∈ idsAll (st.removeFrom id p code).components ↔ x ∈ idsAll st.components
      ∧ ∀ gone st', st.remove? id = some (gone, st') → x ∉ gone.ids := by
  rw [removeFrom, remove?_eq_detach?]
  by_cases hid : id ∈ idsAll st.components
  · obtain ⟨gone, hdetach, hfind⟩ := detach?_of_mem hid (List.nodup_iff_count_le_one.mp h id)
    simp only [hdetach, Option.map_some, Option.some.injEq, Prod.mk.injEq]
    refine (mem_idsAll_prunedAll_of_findAll? h hfind).trans (and_congr_right fun _ => ?_)
    exact ⟨by rintro hgone _ _ ⟨rfl, -⟩; exact hgone, fun hall => hall gone _ ⟨rfl, rfl⟩⟩
  · simp [detach?_eq_none hid, record]

end State

/-! ### What is true after any happenings -/

/-- What is true while calls that add and remove components are in progress: ids are distinct, what
is claimed is what the calls claim that have begun and not ended, no two of them claim one id, and
what they are still to add is new. -/
structure Reserved (o : Overlap) : Prop where
  distinct : o.session.state.IdsDistinct
  kind : ∀ {i : Nat} {c : Call} {phase : Phase}, o.calls[i]? = some (c, phase) → c.isAddOrRemove
  isDue : ∀ {i : Nat} {c : Call} {phase : Phase} {due : Commit}, o.calls[i]? = some (c, phase) →
    phase.due? = some due → c.IsDue due
  nodup : ∀ {i : Nat} {c : Call} {phase : Phase}, o.calls[i]? = some (c, phase) → phase.isBusy →
    c.claimed.Nodup
  /-- No two calls claim an id. -/
  apart : ∀ {i j : Nat} {c d : Call} {phase phase' : Phase}, i ≠ j →
    o.calls[i]? = some (c, phase) → o.calls[j]? = some (d, phase') →
    phase.isBusy → phase'.isBusy → c.claimed.Disjoint d.claimed
  claims : ∀ x, x ∈ o.session.claims ↔ ∃ (i : Nat) (c : Call) (phase : Phase),
    o.calls[i]? = some (c, phase) ∧ phase.isBusy ∧ x ∈ c.claimed
  /-- What is still to be recorded is new. -/
  new : ∀ {i : Nat} {c : Call} {phase : Phase} {x : String}, o.calls[i]? = some (c, phase) →
    phase.isUnsettled → x ∈ c.claimed → x ∉ idsAll o.session.state.components

namespace Reserved

/-- Before anything happens. -/
lemma ofCalls {calls : List Call} (hs : s.state.IdsDistinct) (hclaims : s.claims = [])
    (hcalls : ∀ c ∈ calls, c.isAddOrRemove) : Reserved (.ofCalls s calls) := by
  have hfresh {i : Nat} {c : Call} {phase : Phase}
      (h : (Overlap.ofCalls s calls).calls[i]? = some (c, phase)) : c ∈ calls ∧ phase = .fresh := by
    simp only [Overlap.ofCalls, List.getElem?_map, Option.map_eq_some_iff, Prod.mk.injEq] at h
    obtain ⟨c, hc, rfl, rfl⟩ := h
    exact ⟨List.mem_of_getElem? hc, rfl⟩
  have hidle {i : Nat} {c : Call} {phase : Phase}
      (h : (Overlap.ofCalls s calls).calls[i]? = some (c, phase)) : phase.isBusy = false := by
    rw [(hfresh h).2]
    rfl
  constructor
  case distinct => exact hs
  case kind => exact fun h => hcalls _ (hfresh h).1
  case isDue =>
    intro i c phase due h hdue
    rw [(hfresh h).2] at hdue
    cases hdue
  case nodup =>
    intro i c phase h hbusy
    rw [hidle h] at hbusy
    cases hbusy
  case apart =>
    intro i j c d phase phase' _ h _ hbusy
    rw [hidle h] at hbusy
    cases hbusy
  case claims =>
    intro x
    change x ∈ s.claims ↔ _
    rw [hclaims]
    refine iff_of_false List.not_mem_nil ?_
    rintro ⟨i, c, phase, h, hbusy, -⟩
    rw [hidle h] at hbusy
    cases hbusy
  case new =>
    intro i c phase x h hunsettled
    rw [(hfresh h).2] at hunsettled
    cases hunsettled

/-- A change of the disk is no matter. -/
lemma outside (h : Reserved o) (disk : Disk) : Reserved (o.happen (.outside disk)) :=
  ⟨h.distinct, h.kind, h.isDue, h.nodup, h.apart, h.claims, h.new⟩

/-- What is claimed once a call has gone on: what it claims, if it is in progress then, and what the
others do. -/
lemma exists_busy_set_iff (h : Reserved o) (hcall : o.calls[i]? = some (c, phase)) :
    (∃ (j : Nat) (d : Call) (other : Phase), (o.calls.set i (c, phase'))[j]? = some (d, other)
        ∧ other.isBusy ∧ x ∈ d.claimed)
      ↔ (phase'.isBusy ∧ x ∈ c.claimed)
        ∨ x ∈ o.session.claims ∧ ¬(phase.isBusy ∧ x ∈ c.claimed) := by
  have hset {j : Nat} {e : Call × Phase} :=
    Overlap.getElem?_set_calls (j := j) (d := (c, phase')) (e := e) hcall
  constructor
  · rintro ⟨j, d, other, hj, hbusy, hx⟩
    rcases hset.mp hj with ⟨rfl, he⟩ | ⟨hij, hj⟩
    · cases he
      exact .inl ⟨hbusy, hx⟩
    · exact .inr ⟨(h.claims x).mpr ⟨j, d, other, hj, hbusy, hx⟩,
        fun hnot => h.apart hij hcall hj hnot.1 hbusy hnot.2 hx⟩
  · rintro (⟨hbusy, hx⟩ | ⟨hx, hnot⟩)
    · exact ⟨i, c, phase', hset.mpr (.inl ⟨rfl, rfl⟩), hbusy, hx⟩
    · obtain ⟨j, d, other, hj, hbusy, hx⟩ := (h.claims x).mp hx
      by_cases hij : i = j
      · subst hij
        obtain ⟨rfl, rfl⟩ := Prod.mk.inj (Option.some.inj (hcall.symm.trans hj))
        exact absurd ⟨hbusy, hx⟩ hnot
      · exact ⟨j, d, other, hset.mpr (.inr ⟨hij, hj⟩), hbusy, hx⟩

/-- A call that goes on, claims or gives up its claims keeps what is known. -/
lemma keepsState (h : Reserved o) (hcall : o.calls[i]? = some (c, phase))
    (hstate : t.state = o.session.state) (hdue : ∀ due ∈ phase'.due?, c.IsDue due)
    (hnodup : phase'.isBusy → c.claimed.Nodup)
    (hapart : phase'.isBusy → ∀ x ∈ c.claimed, phase.isBusy ∨ x ∉ o.session.claims)
    (hclaims : ∀ x, x ∈ t.claims ↔ (phase'.isBusy ∧ x ∈ c.claimed)
      ∨ x ∈ o.session.claims ∧ ¬(phase.isBusy ∧ x ∈ c.claimed))
    (hnew : phase'.isUnsettled → ∀ x ∈ c.claimed, x ∉ idsAll o.session.state.components) :
    Reserved ⟨o.calls.set i (c, phase'), t⟩ := by
  have hset {j : Nat} {e : Call × Phase} :=
    Overlap.getElem?_set_calls (j := j) (d := (c, phase')) (e := e) hcall
  -- no other call claims what this one claims
  have hother {j : Nat} {d : Call} {other : Phase} (hij : i ≠ j)
      (hj : o.calls[j]? = some (d, other)) (hbusy : phase'.isBusy) (hbusy' : other.isBusy) :
      c.claimed.Disjoint d.claimed := by
    intro x hx hx'
    rcases hapart hbusy x hx with hbefore | hfree
    · exact h.apart hij hcall hj hbefore hbusy' hx hx'
    · exact hfree ((h.claims x).mpr ⟨j, d, other, hj, hbusy', hx'⟩)
  constructor
  case distinct =>
    change t.state.IdsDistinct
    rw [hstate]
    exact h.distinct
  case kind =>
    intro j d other hj
    rcases hset.mp hj with ⟨rfl, he⟩ | ⟨-, hj⟩
    · cases he
      exact h.kind hcall
    · exact h.kind hj
  case isDue =>
    intro j d other due hj hother
    rcases hset.mp hj with ⟨rfl, he⟩ | ⟨-, hj⟩
    · cases he
      exact hdue due hother
    · exact h.isDue hj hother
  case nodup =>
    intro j d other hj hbusy
    rcases hset.mp hj with ⟨rfl, he⟩ | ⟨-, hj⟩
    · cases he
      exact hnodup hbusy
    · exact h.nodup hj hbusy
  case apart =>
    intro j k d e other other' hjk hj hk hbusy hbusy'
    rcases hset.mp hj with ⟨rfl, he⟩ | ⟨hij, hj⟩ <;> rcases hset.mp hk with ⟨rfl, he'⟩ | ⟨hik, hk⟩
    · exact absurd rfl hjk
    · cases he
      exact hother hik hk hbusy hbusy'
    · cases he'
      exact fun x hx hx' => hother hij hj hbusy' hbusy hx' hx
    · exact h.apart hjk hj hk hbusy hbusy'
  case claims => exact fun x => (hclaims x).trans (h.exists_busy_set_iff hcall).symm
  case new =>
    intro j d other x hj hunsettled hx
    change x ∉ idsAll t.state.components
    rw [hstate]
    rcases hset.mp hj with ⟨rfl, he⟩ | ⟨-, hj⟩
    · cases he
      exact hnew hunsettled x hx
    · exact h.new hj hunsettled hx

/-- What is known after a call has recorded what was due: what it adds is new, and nothing else comes
to be there. -/
lemma records {file : Option Path} {st : State} (h : Reserved o)
    (hcall : o.calls[i]? = some (c, .settling file due))
    (happly : due.apply o.session.state = .ok (st, e)) :
    st.IdsDistinct ∧ ∀ x ∈ idsAll st.components,
      x ∈ idsAll o.session.state.components ∨ x ∈ c.claimed := by
  cases h.isDue hcall rfl with
  | add a file target p code =>
      cases happly
      have hnew : ∀ x ∈ a.ids, x ∉ idsAll o.session.state.components :=
        fun x hx => h.new hcall rfl hx
      refine ⟨h.distinct.add (h.nodup hcall rfl) hnew p code, fun x hx => ?_⟩
      rwa [State.idsAll_add hnew, List.mem_append] at hx
  | remove id p code =>
      cases happly
      exact ⟨h.distinct.removeFrom id p code,
        fun x hx => .inl ((State.mem_idsAll_removeFrom_iff h.distinct).mp hx).1⟩

/-- **A turn keeps what is reserved.** -/
theorem turn (h : Reserved o) (i : Nat) : Reserved (o.turn i) := by
  rw [Overlap.turn]
  split
  · exact h
  next c phase hcall =>
  split
  · next phase' t hstep =>
      cases Call.stage_of_step (h.kind hcall) hstep with
      | claims p hnd hnew =>
          refine h.keepsState hcall rfl (by simp [Phase.due?]) (fun _ => hnd)
            (fun _ x hx => .inr (hnew x hx).2) (fun x => ?_) (fun _ x hx => (hnew x hx).1)
          simp [Phase.isBusy, or_comm]
      | refused f =>
          exact h.keepsState hcall rfl (by simp [Phase.due?]) (by simp [Phase.isBusy])
            (by simp [Phase.isBusy]) (by simp [Phase.isBusy]) (by simp [Phase.isUnsettled])
      | goesOn _ _ _ hbefore hafter _ hdue hclaims hstate =>
          have hbusy := Phase.isBusy_of_isUnsettled hbefore
          refine h.keepsState hcall hstate (fun due hd => ?_) (fun _ => h.nodup hcall hbusy)
            (fun _ _ _ => .inl hbusy) (fun x => ?_) (fun _ x hx => h.new hcall hbefore hx)
          · rcases hdue due hd with hd | hd
            · exact h.isDue hcall hd
            · exact hd
          · have hmine : x ∈ c.claimed → x ∈ o.session.claims := fun hx =>
              (h.claims x).mpr ⟨i, c, phase, hcall, hbusy, hx⟩
            rw [hclaims]
            simp only [hbusy, Phase.isBusy_of_isUnsettled hafter, true_and]
            tauto
      | records file due st e happly =>
          obtain ⟨hdistinct, hknown⟩ := h.records hcall happly
          -- first the call goes on, then it is what is known that changes
          have hgone : Reserved ⟨o.calls.set i (c, .leaving file e), o.session⟩ := by
            refine h.keepsState hcall rfl (by simp [Phase.due?]) (fun _ => h.nodup hcall rfl)
              (fun _ _ _ => .inl rfl) (fun x => ?_) (by simp [Phase.isUnsettled])
            have hmine : x ∈ c.claimed → x ∈ o.session.claims := fun hx =>
              (h.claims x).mpr ⟨i, c, _, hcall, rfl, hx⟩
            simp only [Phase.isBusy, true_and]
            tauto
          refine ⟨hdistinct, hgone.kind, hgone.isDue, hgone.nodup, hgone.apart, hgone.claims, ?_⟩
          intro j d other x hj hunsettled hx hmem
          have hset := Overlap.getElem?_set_calls (j := j) (d := (c, Phase.leaving file e))
            (e := (d, other)) hcall
          rcases hset.mp hj with ⟨-, he⟩ | ⟨hij, hj'⟩
          · cases he
            cases hunsettled
          · rcases hknown x hmem with hold | hmine
            · exact h.new hj' hunsettled hx hold
            · exact h.apart hij hcall hj' rfl (Phase.isBusy_of_isUnsettled hunsettled) hmine hx
      | ends _ r _ hbefore _ hclaims hstate =>
          refine h.keepsState hcall hstate (by simp [Phase.due?]) (by simp [Phase.isBusy])
            (by simp [Phase.isBusy]) (fun x => ?_) (by simp [Phase.isUnsettled])
          have hidle : (Phase.finished r).isBusy = false := rfl
          rw [hclaims, List.mem_filter]
          simp [hidle, hbefore]
  · exact h

theorem happen (h : Reserved o) (happening : Happening) : Reserved (o.happen happening) := by
  cases happening with
  | turn i => exact h.turn i
  | outside disk => exact h.outside disk

theorem pass (h : Reserved o) (hs : List Happening) : Reserved (o.pass hs) := by
  induction hs using List.reverseRecOn with
  | nil => exact h
  | append_singleton hs happening ih =>
      rw [Overlap.pass_append_singleton]
      exact ih.happen happening

end Reserved

/-! ### What is written -/

/-- An id that a call has added to a file is still there: it is registered, or the call is about to
record it. -/
def Overlap.Keeps (o : Overlap) (i : Nat) (x : String) : Prop :=
  x ∈ idsAll o.session.state.components
    ∨ ∃ c file due, o.calls[i]? = some (c, .settling file due) ∧ x ∈ c.claimed

namespace Reserved

lemma exists_of_adds (h : o.Adds i x) : ∃ c p code due file due',
    o.calls[i]? = some (c, .writing p code due) ∧ x ∈ c.claimed
      ∧ (o.turn i).calls[i]? = some (c, .settling file due') := by
  obtain ⟨⟨p, hwrites⟩, hx⟩ := h
  rcases Overlap.turn_cases o i with hself | ⟨d, before, phase', t, hd, -, hturn⟩
  · rw [Overlap.writes_of_turn_eq_self hself] at hwrites
    cases hwrites
  · obtain ⟨hbefore, hafter⟩ := Overlap.told_of_turn hd hturn
    rw [Overlap.writes, hbefore, hafter] at hwrites
    have hnow : (o.turn i).calls[i]? = some (d, phase') := by
      rw [hturn]
      exact (Overlap.getElem?_set_calls hd).mpr (.inl ⟨rfl, rfl⟩)
    have hx : x ∈ d.claimed := by simpa [hd] using hx
    cases before <;> cases phase' <;> first | cases hwrites | skip
    exact ⟨d, _, _, _, _, _, hd, hx, hnow⟩

/-- What a call adds in its turn is there behind it. -/
lemma keeps_of_adds (h : o.Adds i x) : (o.turn i).Keeps i x := by
  obtain ⟨c, p, code, due, file, due', -, hx, hafter⟩ := exists_of_adds h
  exact .inr ⟨c, file, due', hafter, hx⟩

/-- What a call adds in its turn was not there before. -/
lemma not_keeps_of_adds (h : Reserved o) (hadds : o.Adds j x) : ¬o.Keeps i x := by
  obtain ⟨d, p, code, due, -, -, hj, hx, -⟩ := exists_of_adds hadds
  rintro (hknown | ⟨c, file, due', hi, hx'⟩)
  · exact h.new hj rfl hx hknown
  · by_cases hij : i = j
    · subst hij
      rw [hi] at hj
      cases hj
    · exact h.apart hij hi hj rfl rfl hx' hx

/-- What is there stays there until its component is removed. -/
lemma keeps_turn (h : Reserved o) (hkeeps : o.Keeps i x) (k : Nat) (hremoves : ¬o.Removes k x) :
    (o.turn k).Keeps i x := by
  rw [Overlap.turn]
  split
  · exact hkeeps
  next c phase hcall =>
  split
  · next phase' t hstep =>
      have hset {e : Call × Phase} :=
        Overlap.getElem?_set_calls (j := i) (d := (c, phase')) (e := e) hcall
      -- a step that neither records nor ends what is about to be recorded
      have hstay (hstate : t.state = o.session.state)
          (hphase : ∀ file due, phase ≠ .settling file due) :
          Overlap.Keeps ⟨o.calls.set k (c, phase'), t⟩ i x := by
        rcases hkeeps with hknown | ⟨d, file, due, hd, hx⟩
        · exact .inl (by rwa [← hstate] at hknown)
        · refine .inr ⟨d, file, due, hset.mpr (.inr ⟨?_, hd⟩), hx⟩
          rintro rfl
          rw [hcall] at hd
          cases hd
          exact hphase file due rfl
      cases Call.stage_of_step (h.kind hcall) hstep with
      | claims p hnd hnew => exact hstay rfl (by simp)
      | refused f => exact hstay rfl (by simp)
      | goesOn _ _ _ hbefore hafter hphase hdue hclaims hstate => exact hstay hstate hphase
      | records file due st e happly =>
          rcases hkeeps with hknown | ⟨d, file', due', hd, hx⟩
          · refine .inl ?_
            cases h.isDue hcall rfl with
            | add a target path p code =>
                cases happly
                change x ∈ idsAll (o.session.state.add a p code).components
                rw [State.idsAll_add fun y hy => h.new hcall rfl hy]
                exact List.mem_append_left _ hknown
            | remove id p code =>
                cases happly
                refine (State.mem_idsAll_removeFrom_iff h.distinct).mpr ⟨hknown, ?_⟩
                exact fun gone st hgone hx =>
                  hremoves ⟨.remove id, file, id, p, code, gone, st, hcall, hgone, hx⟩
          · by_cases hki : k = i
            · subst hki
              rw [hcall] at hd
              cases hd
              refine .inl ?_
              cases h.isDue hcall rfl with
              | add a target path p code =>
                  cases happly
                  change x ∈ idsAll (o.session.state.add a p code).components
                  rw [State.idsAll_add fun y hy => h.new hcall rfl hy]
                  exact List.mem_append_right _ hx
              | remove id p code => cases hx
            · exact .inr ⟨d, file', due', hset.mpr (.inr ⟨hki, hd⟩), hx⟩
      | ends _ r _ hbefore hfailed hclaims hstate =>
          refine hstay hstate fun file due hphase => ?_
          subst hphase
          obtain ⟨f, hf⟩ := hfailed file due rfl
          obtain ⟨st, e, hst⟩ := Commit.exists_apply_of_isDue (h.isDue hcall rfl) o.session.state
          rw [hf] at hst
          cases hst
  · exact hkeeps

/-- What is there stays there, or its component is removed in one of some happenings. -/
lemma keeps_pass (h : Reserved o) (hkeeps : o.Keeps i x) (hs : List Happening) :
    (o.pass hs).Keeps i x
      ∨ ∃ before k behind, hs = before ++ .turn k :: behind ∧ (o.pass before).Removes k x := by
  induction hs using List.reverseRecOn with
  | nil => exact .inl hkeeps
  | append_singleton hs happening ih =>
      rcases ih with hkeeps | ⟨before, k, behind, rfl, hremoves⟩
      · rw [Overlap.pass_append_singleton]
        cases happening with
        | turn k =>
            by_cases hremoves : (o.pass hs).Removes k x
            · exact .inr ⟨hs, k, [], rfl, hremoves⟩
            · exact .inl ((h.pass hs).keeps_turn hkeeps k hremoves)
        | outside disk => exact .inl hkeeps
      · exact .inr ⟨before, k, behind ++ [happening], by simp, hremoves⟩

end Reserved

/-- **Claims keep additions apart.** Of calls that add and remove components, in any turns and
whatever becomes of the disk: ids stay distinct; no two calls in progress claim one id; what is
claimed is what they claim, so nothing if none is in progress, and a call that is refused gives up
nothing; and no id is added to a file twice without a component that has it being removed between. -/
theorem reserved_pass {calls : List Call} (hs : s.state.IdsDistinct) (hclaims : s.claims = [])
    (hcalls : ∀ c ∈ calls, c.isAddOrRemove) (before : List Happening) :
    let o := (Overlap.ofCalls s calls).pass before
    o.session.state.IdsDistinct
      ∧ (∀ (i j : Nat) (c d : Call) (phase phase' : Phase), i ≠ j →
        o.calls[i]? = some (c, phase) → o.calls[j]? = some (d, phase') →
        phase.isBusy → phase'.isBusy → c.claimed.Disjoint d.claimed)
      ∧ (∀ x, x ∈ o.session.claims ↔ ∃ (i : Nat) (c : Call) (phase : Phase),
        o.calls[i]? = some (c, phase) ∧ phase.isBusy ∧ x ∈ c.claimed)
      ∧ ((∀ r ∈ o.calls, r.2.isBusy = false) → o.session.claims = [])
      ∧ (∀ i r, o.phase? i = some .fresh → (o.turn i).phase? i = some (.finished r) →
        (o.turn i).session.claims = o.session.claims)
      ∧ ∀ i j x between, o.Adds i x → ((o.turn i).pass between).Adds j x →
        ∃ first k rest, between = first ++ .turn k :: rest ∧ ((o.turn i).pass first).Removes k x := by
  intro o
  have h : Reserved o := (Reserved.ofCalls hs hclaims hcalls).pass before
  refine ⟨h.distinct, fun i j c d phase phase' => h.apart, h.claims, fun hidle => ?_,
    fun i r hfresh hrefused => ?_, fun i j x between hadds hadds' => ?_⟩
  · rw [List.eq_nil_iff_forall_not_mem]
    intro x hx
    obtain ⟨i, c, phase, hi, hbusy, -⟩ := (h.claims x).mp hx
    rw [hidle _ (List.mem_of_getElem? hi)] at hbusy
    cases hbusy
  · obtain ⟨⟨c, phase⟩, hcall, rfl⟩ := Option.map_eq_some_iff.mp hfresh
    rw [Overlap.turn, hcall] at hrefused ⊢
    simp only at hrefused ⊢
    cases hstep : c.step o.session .fresh with
    | none => rfl
    | some next =>
        obtain ⟨phase', t⟩ := next
        cases Call.stage_of_step (h.kind hcall) hstep with
        | claims p hnd hnew =>
            rw [hstep] at hrefused
            simp only [Overlap.phase?, (Overlap.getElem?_set_calls hcall).mpr (.inl ⟨rfl, rfl⟩),
              Option.map_some, Option.some_inj] at hrefused
            cases hrefused
        | refused f => rfl
        | goesOn _ _ _ hbefore => cases hbefore
        | ends _ _ _ hbefore => cases hbefore
  · rcases (h.turn i).keeps_pass (Reserved.keeps_of_adds hadds) between with hkeeps | hremoved
    · exact absurd hkeeps (((h.turn i).pass between).not_keeps_of_adds hadds')
    · exact hremoved

/-- A project with one page. -/
def notePage : Session :=
  .start .standard ⟨"/p"⟩ (.ofFiles [(⟨"/p/page.tsx"⟩, "<main></main>".toList)])

/-- Two calls that add one component, and one that removes it. -/
def noteCalls : List Call :=
  let add : Call := .add (.ofTag "note" "p") (some ⟨"page.tsx"⟩) none
  [add, add, .remove "note"]

/-- The component is added by the one call, removed, and added by the other. -/
theorem reserved_pass_noteCalls :
    let before : List Happening := List.replicate 3 (.turn 0)
    let between : List Happening :=
      List.replicate 2 (.turn 0) ++ List.replicate 6 (.turn 2) ++ List.replicate 3 (.turn 1)
    let o := (Overlap.ofCalls notePage noteCalls).pass before
    notePage.state.IdsDistinct ∧ notePage.claims = [] ∧ (∀ c ∈ noteCalls, c.isAddOrRemove)
      ∧ o.Adds 0 "note" ∧ ((o.turn 0).pass between).Adds 1 "note"
      ∧ ∃ first k rest, between = first ++ .turn k :: rest
        ∧ ((o.turn 0).pass first).Removes k "note" := by
  intro before between o
  have hs : notePage.state.IdsDistinct := by decide
  have hcalls : ∀ c ∈ noteCalls, c.isAddOrRemove := by decide
  have hadds : o.Adds 0 "note" :=
    ⟨⟨⟨"/p/page.tsx"⟩, by decide +kernel⟩, by decide +kernel⟩
  have hadds' : ((o.turn 0).pass between).Adds 1 "note" :=
    ⟨⟨⟨"/p/page.tsx"⟩, by decide +kernel⟩, by decide +kernel⟩
  exact ⟨hs, rfl, hcalls, hadds, hadds',
    (reserved_pass hs rfl hcalls before).2.2.2.2.2 0 1 "note" between hadds hadds'⟩

end CanvasSync.Project
