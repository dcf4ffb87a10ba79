import CanvasSync.Storage.Disk
import Mathlib.Tactic.Common

/-!
What is found in the files of a disk.

* `Path.same_congr`: two paths of one file are the same as the same others;
* `Files.get?_insert`, `Files.get?_erase`: what is in the files once one is set, or is gone;
* `Disk.get?_of_read`, `Disk.get?_of_write`: what a file holds that was read, or was written.
-/

namespace CanvasSync.Storage

variable {p q r : Path} {t : Text} {files : Files} {d e : Disk}

namespace Path

lemma same_iff : p.same q = true ↔ p.parts = q.parts := by simp [same]

@[simp] lemma same_self (p : Path) : p.same p = true := same_iff.mpr rfl

lemma same_comm (p q : Path) : p.same q = q.same p := by simp [same, eq_comm]

/-- Two paths of one file are the same as the same others. -/
lemma same_congr (h : p.same q = true) (r : Path) : p.same r = q.same r := by
  simp [same, same_iff.mp h]

end Path

namespace Files

/-- A file is found by any of its paths. -/
lemma get?_congr (h : p.same q = true) (files : Files) : files.get? p = files.get? q := by
  induction files with
  | nil => rfl
  | cons f files ih =>
      rw [get?, get?, ih, Path.same_comm f.1, Path.same_congr h, Path.same_comm q]

/-- What is found is in the list. -/
lemma exists_mem_of_get? (h : files.get? p = some t) : ∃ q, (q, t) ∈ files := by
  induction files with
  | nil => cases h
  | cons f files ih =>
      rw [get?] at h
      split_ifs at h
      · obtain rfl := Option.some.inj h
        exact ⟨f.1, List.mem_cons_self⟩
      · obtain ⟨q, hq⟩ := ih h
        exact ⟨q, List.mem_cons_of_mem f hq⟩

/-- What is in the files once one is set. -/
lemma get?_insert (p : Path) (t : Text) (files : Files) (q : Path) :
    (files.insert p t).get? q = if p.same q then some t else files.get? q := by
  induction files with
  | nil => rfl
  | cons f files ih =>
      obtain ⟨r, u⟩ := f
      rw [insert]
      by_cases hr : r.same p
      · rw [if_pos hr, get?, get?, Path.same_congr hr]
        split_ifs <;> rfl
      · rw [if_neg hr]
        split_ifs with hp hq hq
        · rw [get?, if_pos hq]
        · rw [get?, if_neg hq]
        · -- the file is not the first one, so it is found where it is set
          have hrq : ¬ r.same q := by rwa [Path.same_comm, ← Path.same_congr hq, Path.same_comm]
          rw [get?, if_neg hrq, ih, if_pos hq]
        · rw [get?, get?, ih, if_neg hq]

/-- What is set already stays as it is. -/
lemma insert_insert_self (p : Path) (t : Text) (files : Files) :
    (files.insert p t).insert p t = files.insert p t := by
  induction files with
  | nil => simp [insert]
  | cons f files ih =>
      obtain ⟨r, u⟩ := f
      by_cases hr : r.same p
      · simp [insert, hr]
      · by_cases hbefore : p.precedes r
        · simp [insert, hr, hbefore]
        · simp [insert, hr, hbefore, ih]

/-- What is in the files once one is gone. -/
lemma get?_erase (p : Path) (files : Files) (q : Path) :
    (files.erase p).get? q = if p.same q then none else files.get? q := by
  induction files with
  | nil => simp [erase, get?]
  | cons f files ih =>
      obtain ⟨r, u⟩ := f
      rw [erase] at ih
      by_cases hr : r.same p
      · simp only [erase, List.filter_cons, hr, Bool.not_true, Bool.false_eq_true, if_false, ih,
          get?, Path.same_congr hr]
        split_ifs <;> rfl
      · simp only [erase, List.filter_cons, hr, Bool.not_false, if_true, get?, ih]
        split_ifs with hrq hpq <;> try rfl
        -- what is found is not what has gone
        rw [Path.same_congr hrq, Path.same_comm] at hr
        exact absurd hpq hr

end Files

namespace Disk

/-- A file is found by any of its paths. -/
lemma get?_congr (h : p.same q = true) : d.get? p = d.get? q := Files.get?_congr h d.files

/-- A file that was read is there. -/
lemma get?_of_read (h : d.read p = .ok t) : d.get? p = some t := by
  rw [read] at h
  split_ifs at h
  split at h
  · next u hu => rw [hu, Except.ok.inj h]
  · cases h

/-- A file that was written holds the new text, and all others hold theirs. -/
lemma get?_of_write (h : d.write p t = .ok e) (q : Path) :
    e.get? q = if p.same q then some t else d.get? q := by
  rw [write] at h
  split_ifs at h
  split at h
  · cases h
  · rw [← Except.ok.inj h]
    exact Files.get?_insert p t d.files q

/-- Writing a file counts as one write. -/
lemma writes_of_write (h : d.write p t = .ok e) : e.writes = d.writes + 1 := by
  rw [write] at h
  split_ifs at h
  split at h
  · cases h
  · rw [← Except.ok.inj h]
    rfl

end Disk

end CanvasSync.Storage
