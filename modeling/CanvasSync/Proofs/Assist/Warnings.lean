import CanvasSync.Proofs.Assist.Fixes

/-!
The warnings about a text, one for each class that is not valid.

A text is cut into words twice: the scan of a literal keeps the offset of each word, and the verdict
on a class string asks for the words alone.

* `map_text_wordsFrom_eq`: both find the same words;
* `pairwise_classes`: the classes of a text stand one behind the other;
* `faults_checkAll`: the verdict on a class string lists the faults of its words;
* `IsWarning`: the remark on a class that is refused, whose range leads back to the class;
* `diagnostics_exact`: the remarks on a text are the warnings about its refused classes, in order.
-/

namespace CanvasSync.Assist

open CanvasSync.Utility

variable {c : Catalog} {t w b : Text} {n : Nat}

/-! ### Words by two scans -/

lemma splitAt_append_of_sep {sep : Char → Bool} {x : Char} (hw : ∀ y ∈ w, sep y = false)
    (hx : sep x) (t : Text) : Text.splitAt sep (w ++ x :: t) = w :: Text.splitAt sep t := by
  induction w with
  | nil => simp [Text.splitAt, hx]
  | cons y w ih =>
      rw [List.forall_mem_cons] at hw
      rw [List.cons_append, Text.splitAt, if_neg (by simp [hw.1]), ih hw.2]

lemma splitAt_of_forall {sep : Char → Bool} (hw : ∀ y ∈ w, sep y = false) :
    Text.splitAt sep w = [w] := by
  induction w with
  | nil => rfl
  | cons y w ih =>
      rw [List.forall_mem_cons] at hw
      rw [Text.splitAt, if_neg (by simp [hw.1]), ih hw.2]

lemma words_cons_blank {x : Char} (hx : isBlank x) (t : Text) :
    Text.words (x :: t) = Text.words t := by
  simp [Text.words, Text.splitAt, hx]

/-- A word at the start of a text is its first word. -/
lemma words_isWord_append (hw : IsWord w) (hb : ∀ x ∈ b.head?, isBlank x) :
    Text.words (w ++ b) = w :: Text.words b := by
  obtain ⟨hne, hsolid⟩ := hw
  cases b with
  | nil => simp [Text.words, splitAt_of_forall hsolid, Text.splitAt, hne]
  | cons x b =>
      have hx : isBlank x := hb x rfl
      rw [words_cons_blank hx, Text.words, splitAt_append_of_sep hsolid hx,
        List.filter_cons_of_pos (by simpa using hne), Text.words]

/-- **The scan that keeps offsets finds the words of a text.** -/
theorem map_text_wordsFrom_eq (n : Nat) (t : Text) :
    (wordsFrom n t).map Word.text = Text.words t := by
  induction t using wordsInduction generalizing n with
  | nil => rfl
  | blank x t hx ih => rw [wordsFrom_cons_blank hx, words_cons_blank hx, ih]
  | word w b hw hb ih =>
      rw [wordsFrom_isWord_append hw hb, words_isWord_append hw hb, List.map_cons, ih]

/-! ### The order of the classes -/

/-- A word ends before another one begins. -/
def Word.endsBefore (v w : Word) : Prop := v.start + Text.size v.text < w.start

lemma stop_le_of_mem_wordsFrom {x : Word} (h : x ∈ wordsFrom n t) :
    x.start + Text.size x.text ≤ n + Text.size t := by
  obtain ⟨a, b, rfl, hstart, -⟩ := exists_of_mem_wordsFrom h
  rw [hstart, Text.size_append, Text.size_append]
  omega

lemma pairwise_wordsFrom (n : Nat) (t : Text) : (wordsFrom n t).Pairwise Word.endsBefore := by
  induction t using wordsInduction generalizing n with
  | nil => exact List.Pairwise.nil
  | blank x t hx ih =>
      rw [wordsFrom_cons_blank hx]
      exact ih _
  | word w b hw hb ih =>
      rw [wordsFrom_isWord_append hw hb]
      refine List.pairwise_cons.mpr ⟨fun y hy => ?_, ih _⟩
      show n + Text.size w < y.start
      -- what stands behind the word begins with a blank
      cases b with
      | nil => cases hy
      | cons x b =>
          have hx : isBlank x := hb x rfl
          rw [wordsFrom_cons_blank hx] at hy
          have hle := le_start_of_mem_wordsFrom hy
          have hpos := x.utf8Size_pos
          omega

/-- The literals of a text stand one behind the other. -/
lemma pairwise_literalsFrom (fuel n : Nat) (t : Text) :
    (literalsFrom fuel n t).Pairwise fun l l' => l.stop < l'.start := by
  induction fuel generalizing n t with
  | zero => exact List.Pairwise.nil
  | succ fuel ih =>
      rw [literalsFrom]
      cases Text.cut? attributeMark t with
      | none => exact List.Pairwise.nil
      | some r =>
          simp only
          split
          · refine List.pairwise_cons.mpr ⟨fun l' hl' => ?_, ih _ _⟩
            obtain ⟨a, -, -, -, -, hstart, -⟩ := exists_of_mem_literalsFrom hl'
            omega
          · exact ih _ _

/-- **The classes of a text stand one behind the other.** -/
theorem pairwise_classes (t : Text) : (classes t).Pairwise Word.endsBefore := by
  refine List.pairwise_flatMap.mpr ⟨fun l _ => pairwise_wordsFrom l.start l.value, ?_⟩
  refine (pairwise_literalsFrom (t.length + 1) 0 t).imp fun {l l'} hll v hv w hw => ?_
  show v.start + Text.size v.text < w.start
  calc v.start + Text.size v.text ≤ l.stop := stop_le_of_mem_wordsFrom hv
    _ < l'.start := hll
    _ ≤ w.start := le_start_of_mem_wordsFrom hw

/-! ### The verdict on a class string -/

/-- The fault of a verdict, if it is not in favour. -/
def Verdict.fault? : Verdict → Option Fault
  | .valid => none
  | .invalid fault _ => some fault

/-- A word whose verdict adds its fault, word after word: the faults that are listed already stay
in front. -/
lemma faults_foldl {f : Report → Text → Report} {g : Text → Option Fault}
    (hstep : ∀ r w, (f r w).faults = r.faults ++ (g w).toList) (r : Report) (ws : List Text) :
    (ws.foldl f r).faults = r.faults ++ ws.filterMap g := by
  induction ws generalizing r with
  | nil => simp
  | cons w ws ih =>
      rw [List.foldl_cons, ih, hstep, List.filterMap_cons]
      cases g w <;> simp

/-- **The verdict on a class string** lists the faults of its words, in order. -/
theorem faults_checkAll (c : Catalog) (t : Text) :
    (c.checkAll t).faults = (Text.words t).filterMap fun w => Verdict.fault? (c.check w) := by
  refine faults_foldl (fun r w => ?_) ⟨[], []⟩ (Text.words t)
  cases c.check w <;> simp [Verdict.fault?]

/-- A literal has a warning for each fault of its class string. -/
lemma length_diagnostics_literal (c : Catalog) (t : Text) (l : Literal) :
    (l.diagnostics c t).length = (c.checkAll l.value).faults.length := by
  rw [faults_checkAll, ← map_text_wordsFrom_eq l.start, List.filterMap_map, Literal.diagnostics,
    Literal.words]
  induction wordsFrom l.start l.value with
  | nil => rfl
  | cons w ws ih =>
      rw [List.filterMap_cons, List.filterMap_cons, Function.comp_apply]
      cases c.check w.text <;> simpa [Verdict.fault?] using ih

/-! ### Warnings -/

/-- The stretch of a text that the range of a remark leads back to. -/
def Diagnostic.stretch (d : Diagnostic) (t : Text) : Span :=
  ⟨d.range.start.offset t, d.range.stop.offset t⟩

/-- A remark is the warning about a class of a text: the class is refused for the reason that the
remark gives, and the range of the remark leads back to the class. -/
structure IsWarning (c : Catalog) (t : Text) (w : Word) (d : Diagnostic) : Prop where
  refused : ∃ fault suggestion, c.check w.text = .invalid fault suggestion
    ∧ d = .ofFault d.range fault suggestion
  stretch : d.stretch t = ⟨w.start, w.start + Text.size w.text⟩
  covered : Text.covered t (d.stretch t) = w.text
  /-- Lines and columns fit wherever the number of characters does. -/
  fits : d.range.start.line + d.range.start.column ≤ t.length
    ∧ d.range.stop.line + d.range.stop.column ≤ t.length

lemma isWarning_of_remark? {x : Word} {d : Diagnostic} (hx : x ∈ classes t)
    (h : remark? c t x = some d) : IsWarning c t x d := by
  obtain ⟨a, b, -, -, rfl, hstart, -⟩ := exists_of_mem_classes hx []
  rw [remark?] at h
  split at h
  · cases h
  · next fault suggestion hcheck =>
      obtain rfl := Option.some.inj h
      have hbegin := Position.offset_ofOffset a (x.text ++ b)
      have hend := Position.offset_ofOffset (a ++ x.text) b
      rw [List.append_assoc, Text.size_append] at hend
      have hstretch : (Diagnostic.ofFault (Range.ofStretch (a ++ (x.text ++ b)) x.start
          (Text.size x.text)) fault suggestion).stretch (a ++ (x.text ++ b))
          = ⟨x.start, x.start + Text.size x.text⟩ := by
        rw [hstart]
        exact congrArg₂ Span.mk hbegin hend
      have hlines (u v : Text) : (Position.ofOffset (u ++ v) (Text.size u)).line
          + (Position.ofOffset (u ++ v) (Text.size u)).column ≤ (u ++ v).length := by
        have hle := Position.behind_le .origin u
        rw [Position.ofOffset_size, List.length_append]
        simp only [Position.origin] at hle ⊢
        omega
      have hstop := hlines (a ++ x.text) b
      rw [List.append_assoc, Text.size_append, ← hstart] at hstop
      have hfirst := hlines a (x.text ++ b)
      rw [← hstart] at hfirst
      refine ⟨⟨fault, suggestion, hcheck, rfl⟩, hstretch, ?_, hfirst, hstop⟩
      rw [hstretch, hstart, Text.covered, ← List.append_assoc]
      exact Text.slice_append a x.text b

/-- Classes that are refused have a warning each, in order. -/
lemma forall₂_isWarning {ws : List Word} (hws : ∀ w ∈ ws, w ∈ classes t) :
    List.Forall₂ (IsWarning c t) (ws.filter fun w => !(c.check w.text).isValid)
      (ws.filterMap (remark? c t)) := by
  induction ws with
  | nil => exact .nil
  | cons w ws ih =>
      rw [List.forall_mem_cons] at hws
      have hrest := ih hws.2
      rw [List.filter_cons, List.filterMap_cons]
      -- a class is refused exactly if there is a remark on it
      cases hremark : remark? c t w with
      | none =>
          have hvalid : (c.check w.text).isValid := by
            rw [remark?] at hremark
            split at hremark
            · next h => rw [h]; rfl
            · cases hremark
          rwa [hvalid, Bool.not_true, if_neg Bool.false_ne_true]
      | some d =>
          have hwarning := isWarning_of_remark? hws.1 hremark
          obtain ⟨fault, suggestion, hcheck, -⟩ := hwarning.refused
          rw [hcheck]
          exact .cons hwarning hrest

/-- **Warnings are exact.** The remarks on a text are the warnings about those of its classes that
are refused, in the order of the text; the classes of a literal are the words of its class string,
and a literal has as many warnings as the verdict on its class string has faults, so none exactly if
that is valid. -/
theorem diagnostics_exact (c : Catalog) (t : Text) :
    List.Forall₂ (IsWarning c t) ((classes t).filter fun w => !(c.check w.text).isValid)
        (diagnostics c t)
      ∧ (classes t).Pairwise Word.endsBefore
      ∧ ∀ l ∈ literals t, l.words.map Word.text = Text.words l.value
        ∧ (l.diagnostics c t = [] ↔ (c.checkAll l.value).isValid)
        ∧ (l.diagnostics c t).length = (c.checkAll l.value).faults.length := by
  refine ⟨?_, pairwise_classes t, fun l _ => ⟨map_text_wordsFrom_eq l.start l.value, ?_,
    length_diagnostics_literal c t l⟩⟩
  · rw [diagnostics_eq]
    exact forall₂_isWarning fun w hw => hw
  · rw [← List.length_eq_zero_iff, length_diagnostics_literal, List.length_eq_zero_iff,
      Report.isValid, List.isEmpty_iff]

end CanvasSync.Assist
