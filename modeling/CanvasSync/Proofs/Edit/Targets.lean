import CanvasSync.Proofs.Edit.Places
import CanvasSync.Proofs.Markup.Paths

/-!
The node that a component is inserted into.

Child numbers are meant to count the elements and fragments in the content of a node. The index
counts all nodes that are nested in it, those in expressions and in its opening tag too.

* `insertAlong`: an insertion into the tree that child numbers lead to;
* `insert_eq_insertAlong`: an insertion goes into the tree that the numbers of all nested trees lead
  to;
* `insert_along_iff`: this is the one that the numbers of the trees in the content lead to exactly if
  there are no others;
* `insert_beside`: a page in which it is another one.
-/

namespace CanvasSync.Edit

open CanvasSync.Markup (Document Script Style Tree)

variable {source : Text} {s : Script} {t : Tree} {c : Component} {style : Style} {path : List Nat}

/-- A source with a component inserted into the tree that child numbers lead to, counted among those
that are taken for the children of a tree. -/
def insertAlong (children : Tree → List Tree) (source : Text) (t : Tree) (c : Component)
    (path : List Nat) (style : Style) : Except Fault Text :=
  match t.along? children path with
  | some u => .ok (Splice.applyAll source [insertion source style u.top (Markup.render style 0 c)])
  | none => .error (.noChild path)

lemma document_eq_ok_of_parse? (h : Script.parse? source = some s) :
    document source = .ok (Document.ofScript s) := by
  rw [document, Document.parse?, h]
  rfl

lemma nodeAt_of_isAt {d : Document} {i : Nat} (h : d.IsAt i t) : nodeAt d i = t.top := by
  obtain ⟨e, he, hnode, -⟩ := h.exists_entry
  rw [nodeAt_eq he, hnode]

/-- Without markup there is no node to insert into. -/
lemma insert_of_root?_eq_none (h : Script.parse? source = some s) (hroot : s.root? = none)
    (c : Component) (path : Option (List Nat)) (style : Style) :
    insert source c path style = .error .noMarkup := by
  have hrel := Document.root?_rel s
  rw [insert, document_eq_ok_of_parse? h]
  simp only [bind, Except.bind, insertionTarget]
  generalize (Document.ofScript s).root? = root at hrel ⊢
  rw [hroot] at hrel
  cases hrel
  rfl

/-- **An insertion goes into the tree that the numbers of all nested trees lead to.** -/
lemma insert_eq_insertAlong (h : Script.parse? source = some s) (hroot : s.root? = some t)
    (c : Component) (path : List Nat) (style : Style) :
    insert source c (some path) style = insertAlong Tree.inner source t c path style := by
  have hrel := Document.root?_rel s
  rw [insert, document_eq_ok_of_parse? h, insertAlong]
  simp only [bind, Except.bind, insertionTarget]
  generalize (Document.ofScript s).root? = root at hrel ⊢
  rw [hroot] at hrel
  cases hrel with
  | @some i _ hat =>
      have hpath := Document.resolvePath?_rel hat path
      simp only
      generalize (Document.ofScript s).resolvePath? i path = j, t.along? Tree.inner path = u
        at hpath ⊢
      cases hpath with
      | none => rfl
      | some hat =>
          simp only [nodeAt_of_isAt hat]
          rfl

/-- **Child numbers count the elements and fragments in the content of a node exactly if there are no
others in it.** Without markup there is no place for a component. Otherwise it goes into the tree
that the numbers of all nested trees lead to, and the insertion fails if there is none. -/
theorem insert_along_iff (h : Script.parse? source = some s) (c : Component) (style : Style) :
    (s.root? = none → ∀ path, insert source c path style = .error .noMarkup)
    ∧ ∀ t, s.root? = some t →
      (∀ path, insert source c (some path) style = insertAlong Tree.inner source t c path style)
      ∧ ((∀ path, insert source c (some path) style
          = insertAlong Tree.contents source t c path style) ↔ t.isPlain) := by
  refine ⟨fun hroot path => insert_of_root?_eq_none h hroot c path style, fun t hroot =>
    ⟨fun path => insert_eq_insertAlong h hroot c path style, fun hcontents => ?_, fun hplain path => ?_⟩⟩
  · refine Tree.isPlain_of_isSome fun path hpath => ?_
    obtain ⟨u, hu⟩ := Option.isSome_iff_exists.mp hpath
    have hsame := hcontents path
    rw [insert_eq_insertAlong h hroot, insertAlong, insertAlong, hu] at hsame
    cases hnone : t.along? Tree.contents path with
    | none =>
        rw [hnone] at hsame
        cases hsame
    | some v => rfl
  · rw [insert_eq_insertAlong h hroot, insertAlong, insertAlong, Tree.along?_contents hplain]

/-- A page with an expression without markup before the second node of its root. -/
def plainPage : Text := "<a><b /> \x7bx\x7d <i></i></a>".toList

/-- A paragraph inserted into the second node of this page. -/
theorem insert_along_plainPage : ∃ s t, Script.parse? plainPage = some s ∧ s.root? = some t
    ∧ (∀ path, insert plainPage (.ofTag "n" "p") (some path) .standard
      = insertAlong Tree.contents plainPage t (.ofTag "n" "p") path .standard)
    ∧ insert plainPage (.ofTag "n" "p") (some [1]) .standard
      = .ok "<a><b /> \x7bx\x7d <i>\n  <p data-component-id=\"n\" />\n</i></a>".toList := by
  have hparse : (Script.parse? plainPage).isSome := by decide +kernel
  obtain ⟨s, hs⟩ := Option.isSome_iff_exists.mp hparse
  have hplain : ((Script.parse? plainPage).bind fun s => s.root?.map Tree.isPlain) = some true := by
    decide +kernel
  rw [hs, Option.bind_some] at hplain
  obtain ⟨t, ht, hplain⟩ := Option.map_eq_some_iff.mp hplain
  have hall := (insert_along_iff hs (.ofTag "n" "p") .standard).2 t ht
  exact ⟨s, t, hs, ht, hall.2.mpr hplain, eq_ok_of_toOption (by decide +kernel)⟩

/-- The root of a source with markup. -/
def rootOf (source : Text) : Tree := ((Script.parse? source).bind Script.root?).getD default

/-- A page with a node in an expression before the node in the content of its root. -/
def besidePage : Text := "<a>\x7bx && <b></b>\x7d<i></i></a>".toList

/-- A paragraph inserted into the node in the expression instead of the node in the content, and into
the latter instead of failing. -/
theorem insert_beside :
    (∃ s, Script.parse? besidePage = some s ∧ s.root? = some (rootOf besidePage))
    ∧ insert besidePage (.ofTag "n" "p") (some [0]) .standard
      = .ok "<a>\x7bx && <b>\n  <p data-component-id=\"n\" />\n</b>\x7d<i></i></a>".toList
    ∧ insertAlong Tree.contents besidePage (rootOf besidePage) (.ofTag "n" "p") [0] .standard
      = .ok "<a>\x7bx && <b></b>\x7d<i>\n  <p data-component-id=\"n\" />\n</i></a>".toList
    ∧ insert besidePage (.ofTag "n" "p") (some [1]) .standard
      = .ok "<a>\x7bx && <b></b>\x7d<i>\n  <p data-component-id=\"n\" />\n</i></a>".toList
    ∧ insertAlong Tree.contents besidePage (rootOf besidePage) (.ofTag "n" "p") [1] .standard
      = .error (.noChild [1]) := by
  have hroot : ((Script.parse? besidePage).bind Script.root?).isSome := by decide +kernel
  have hnone : (rootOf besidePage).along? Tree.contents [1] = none := by
    rw [← Option.isNone_iff_eq_none]
    decide +kernel
  refine ⟨?_, eq_ok_of_toOption (by decide +kernel), eq_ok_of_toOption (by decide +kernel),
    eq_ok_of_toOption (by decide +kernel), ?_⟩
  · obtain ⟨t, ht⟩ := Option.isSome_iff_exists.mp hroot
    obtain ⟨s, hs, hst⟩ := Option.bind_eq_some_iff.mp ht
    exact ⟨s, hs, by rw [rootOf, ht, hst, Option.getD_some]⟩
  · rw [insertAlong, hnone]

end CanvasSync.Edit
