import CanvasSync.Proofs.Project.Calls

/-!
A call that fails leaves no trace.

* `perform_eq_self_of_error`: with no other call in progress, a call that ends with a fault gives
  the project back as it was, down to the claims of others and the number of writes, and tells of no
  event at any of its steps.
-/

namespace CanvasSync.Project

open CanvasSync.Storage (Disk Path)

variable {s t : Session} {call : Call}

/-- A run in two parts: the second goes on from where the first one stops. -/
lemma Call.run_add (m n : Nat) (phase : Phase) (s : Session) :
    call.run (m + n) phase s = call.run n (call.run m phase s).1 (call.run m phase s).2 := by
  induction m generalizing phase s with
  | zero => rw [Nat.zero_add]; rfl
  | succ m ih =>
      rw [Nat.add_right_comm]
      cases h : call.step s phase with
      | some r => rw [Call.run_succ h, Call.run_succ h, ih]
      | none =>
          have hstop (k : Nat) : call.run k phase s = (phase, s) := by
            cases k <;> simp [Call.run, h]
          rw [hstop, hstop, hstop]

/-- A call that ends with a fault has told of no event on its way. -/
lemma Call.event?_run_eq_none {f : Fault} {n : Nat} {phase : Phase}
    (h : (call.run n phase s).1 = .finished (.error f)) (k : Nat) :
    (call.run k phase s).1.event? = none := by
  cases he : (call.run k phase s).1.event? with
  | none => rfl
  | some e =>
      -- a phase with an event is the last one, so the run could not have ended otherwise
      have hk : (call.run k phase s).1 = .finished (.ok e) := by
        cases hp : (call.run k phase s).1 with
        | finished r => cases r <;> simp_all [Phase.event?]
        | _ => simp [hp, Phase.event?] at he
      rcases Nat.le_total k n with hle | hle
      · obtain ⟨m, rfl⟩ := Nat.exists_eq_add_of_le hle
        rw [Call.run_add, hk, Call.run_finished] at h
        simp at h
      · obtain ⟨m, rfl⟩ := Nat.exists_eq_add_of_le hle
        rw [Call.run_add, h, Call.run_finished] at hk
        simp at hk

/-- **Failure atomicity**: a call that ends with a fault, with no other one in progress, gives the
project back as it was (what is known about it, the claims and the files held by others, the disk
with its files and its number of writes), and at none of its steps is there an event to tell of. -/
theorem perform_eq_self_of_error {f : Fault}
    (h : (s.perform call).1.result? = some (.error f)) :
    (s.perform call).2 = s ∧ ∀ k, (call.run k .fresh s).1.event? = none := by
  rcases perform_cases s call with ⟨g, hg, -⟩ | ⟨p, t, hw, -⟩ | ⟨e, t, ht, -⟩
  · refine ⟨by rw [hg], Call.event?_run_eq_none (f := g) (n := Call.stepCount) ?_⟩
    rw [← Session.perform, hg]
  · simp [hw, Phase.result?] at h
  · simp [ht, Phase.result?] at h

/-- A project with a component, a claim of another call, and a file that is no module. -/
def brokenPage : Session :=
  let disk : Disk := .ofFiles [(⟨"/p/page.tsx"⟩, ['<'])]
  let s := Session.start .standard ⟨"/p"⟩ disk
  { s with
    state := { s.state with components := [.ofTag "hero" "main"] }
    claims := ["cta"] }

/-- An addition to a file that is no module claims its ids and fails only once the file is held and
read. -/
theorem perform_brokenPage :
    (brokenPage.perform (.add (.ofTag "note" "p") (some ⟨"page.tsx"⟩) none)).1.result?
        = some (.error (.source .noModule))
      ∧ (brokenPage.perform (.add (.ofTag "note" "p") (some ⟨"page.tsx"⟩) none)).2 = brokenPage := by
  have h : (brokenPage.perform (.add (.ofTag "note" "p") (some ⟨"page.tsx"⟩) none)).1.result?
      = some (.error (.source .noModule)) := by
    with_unfolding_all rfl
  exact ⟨h, (perform_eq_self_of_error h).1⟩

end CanvasSync.Project
