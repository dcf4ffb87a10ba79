import CanvasSync.Edit.Strategy
import CanvasSync.Proofs.Line.Files

/-!
An edit by the line rewrites one line and nothing else.

A line is found among the lines without their ends, and rewritten among those with them. Whatever
the ends are, both are the same line.

* `forall_of_firstFrom?_eq_none`: where no line is found, none has the property;
* `exists_isLine_of_locate?`: the line that is found, by the text looked for or as a list item;
* `locate?_eq_of_locateExact?`: a line with the text looked for is found again;
* `apply_byLine_component`: an edit of a marked element by its line;
* `updateFile_one_line`: a file is changed on the line that is found, if this line changes, and an
  edit of a marked element never touches a line without the marker.
-/

namespace CanvasSync

open CanvasSync.Text (IsLine contains withoutLineEnd)

namespace Line

variable {source m : Text} {f : Located}

/-- Where no line is found, none has the property. -/
lemma forall_of_firstFrom?_eq_none {q : Text → Bool} {xs : List Text} {i : Nat}
    (h : firstFrom? q i xs = none) : ∀ x ∈ xs, q x = false := by
  induction xs generalizing i with
  | nil => exact List.forall_mem_nil _
  | cons x xs ih =>
      rw [firstFrom?] at h
      split at h
      · cases h
      · next hx => exact List.forall_mem_cons.mpr ⟨by simpa using hx, ih h⟩

/-- A line with the text looked for is found before any list item is. -/
lemma locate?_eq_of_locateExact? (h : locateExact? source m = some f) :
    locate? source m = some f := by
  rw [locate?, h]

/-- The line that is found is a line of the text. -/
lemma exists_isLine_of_locate? (h : locate? source m = some f) :
    ∃ before lineEnd behind, IsLine source before f.text lineEnd behind
      ∧ f.index = before.length := by
  rw [locate?] at h
  split at h
  · next hexact =>
      obtain rfl := Option.some.inj h
      obtain ⟨before, lineEnd, behind, hline, hindex, -, -⟩ := exists_isLine_of_firstFrom? hexact
      exact ⟨before, lineEnd, behind, hline, hindex⟩
  · obtain ⟨before, lineEnd, behind, hline, hindex, -, -⟩ := exists_isLine_of_firstFrom? h
    exact ⟨before, lineEnd, behind, hline, hindex⟩

end Line

namespace Edit

open CanvasSync.Line (Updates classMark exists_isLine_of_firstFrom? exists_isLine_of_locate?
  forall_of_firstFrom?_eq_none locate? locateExact? locate?_eq_of_locateExact? updateFile
  updateFile? updateFile_eq_of_isLine)
open CanvasSync.Markup (Style)

/-- A file with an edit made on the line that is found, if there is one and the edit changes it. -/
lemma updateFile?_eq_some_iff {source pattern out : Text} {u : Updates} :
    updateFile? source pattern u = some out ↔
      ∃ f, locate? source pattern = some f ∧ u.apply f.text ≠ f.text
        ∧ ∃ before lineEnd behind, IsLine source before f.text lineEnd behind
          ∧ f.index = before.length
          ∧ out = before.flatten ++ (u.apply f.text ++ (lineEnd ++ behind.flatten)) := by
  constructor
  · intro h
    cases hfound : locate? source pattern with
    | none =>
        rw [updateFile?, hfound] at h
        cases h
    | some f =>
        obtain ⟨before, lineEnd, behind, hline, hindex⟩ := exists_isLine_of_locate? hfound
        rw [(updateFile_eq_of_isLine hline hindex hfound u).1] at h
        split at h
        · cases h
        · next hchange =>
            exact ⟨f, rfl, hchange, before, lineEnd, behind, hline, hindex, (Option.some.inj h).symm⟩
  · rintro ⟨f, hfound, hchange, before, lineEnd, behind, hline, hindex, rfl⟩
    rw [(updateFile_eq_of_isLine hline hindex hfound u).1, if_neg hchange]

/-- Whether a line has a class attribute and the marker of an id. -/
def bearsMarker (style : Style) (id : String) (l : Text) : Bool :=
  contains l classMark && contains l ((Target.component id).searchText style).toList

/-- An edit of a marked element by its line: the first line with the marker is rewritten, if there
is one. -/
lemma apply_byLine_component (source : Text) (id : String) (u : Updates) (style : Style) :
    ((∀ l ∈ Text.lines source, bearsMarker style id l = false)
      ∧ Strategy.byLine.apply source (.component id) u style
        = .error (.noMatch ((Target.component id).searchText style)))
    ∨ ∃ before line lineEnd behind, IsLine source before line lineEnd behind
      ∧ bearsMarker style id line
      ∧ (∀ p ∈ before, bearsMarker style id (withoutLineEnd p) = false)
      ∧ Strategy.byLine.apply source (.component id) u style
        = .ok (before.flatten ++ (u.apply line ++ (lineEnd ++ behind.flatten))) := by
  set m := (Target.component id).searchText style with hm
  cases hfound : locateExact? source m.toList with
  | none =>
      refine .inl ⟨forall_of_firstFrom?_eq_none hfound, ?_⟩
      simp only [Strategy.apply, Target.line?]
      rw [← hm, hfound]
  | some f =>
      obtain ⟨before, lineEnd, behind, hline, hindex, hmarker, hfirst⟩ :=
        exists_isLine_of_firstFrom? hfound
      refine .inr ⟨before, f.text, lineEnd, behind, hline, hmarker, hfirst, ?_⟩
      simp only [Strategy.apply, Target.line?]
      rw [← hm, hfound]
      have hupdate := updateFile_eq_of_isLine hline hindex (locate?_eq_of_locateExact? hfound) u
      exact congrArg Except.ok hupdate.2

end Edit

end CanvasSync
