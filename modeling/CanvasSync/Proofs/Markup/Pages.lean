import CanvasSync.Proofs.Markup.Frames
import CanvasSync.Proofs.Markup.Index
import CanvasSync.Proofs.Script.Pages

/-!
Modules whose function gives back one node.

* `Page`: such a module, with the node as it is written;
* `document_text`, `extract_text`: what the index of a proper page is made of, and its components;
* `exists_fill_of_entry`: each node of the index stands in a hole of the page, which is around its
  root or between the tags of the root (`fill_cases`).
-/

namespace CanvasSync.Markup

open CanvasSync.Script (isGap isWord pageText pageFront pageBack)
open CanvasSync.Script.Grammar (beginsMarkup_wrap readsAs_wrap
  readsContent_of_isProper)

/-- A module whose function, exported by default, gives back one node in parentheses. -/
structure Page where
  /-- The name of the function. -/
  name : Text
  /-- What stands between the opening parenthesis and the node. -/
  before : Text
  /-- What stands between the node and the closing parenthesis. -/
  after : Text
  /-- The tags of the node. -/
  shell : Shell
  /-- What stands between the tags. -/
  inner : Passage

namespace Page

/-- The text of a page. -/
def text (p : Page) : Text := pageText p.name p.before p.after (p.shell.wrap p.inner)

/-- The node of a page as a content. -/
def passage (p : Page) : Passage := .node [] p.shell p.inner (.text [])

/-- What stands before the node. -/
def front (p : Page) : Text := pageFront p.name p.before

/-- What stands behind the node. -/
def back (p : Page) : Text := pageBack p.after

/-- A page that is read as written. -/
structure IsProper (p : Page) : Prop where
  name : isWord p.name
  free : String.ofList p.name ∉ Script.Token.reservedWords
  before : ∀ c ∈ p.before, isGap c
  after : ∀ c ∈ p.after, isGap c
  shell : p.shell.IsProper
  opens : p.shell.Opens
  closed : p.shell.isClosed → p.inner = .text []
  inner : p.inner.IsProper

variable {p : Page} {style : Style}

lemma text_eq (p : Page) : p.text = p.front ++ (p.passage.written ++ p.back) := by
  rw [text, Script.pageText_eq, passage, Passage.written, Shell.wrap]
  simp [Passage.written, front, back]

lemma trees_passage (p : Page) (o : Nat) :
    p.passage.trees o = Document.placed [p.shell.tree p.inner o] := rfl

lemma IsProper.passage (hp : p.IsProper) : p.passage.IsProper :=
  ⟨List.forall_mem_nil _, hp.shell, hp.closed, hp.inner, List.forall_mem_nil _⟩

/-- A proper page is a module with its node as the only root. -/
lemma parse?_text (hp : p.IsProper) :
    ∃ span, Script.parse? p.text = some ⟨[p.shell.tree p.inner (Text.size p.front)], span⟩ :=
  Script.parse?_pageText hp.name hp.free (beginsMarkup_wrap hp.shell hp.opens p.inner)
    hp.before hp.after fun _ hn =>
      readsAs_wrap hp.shell hp.closed (readsContent_of_isProper hp.inner) hn

/-- The index of a proper page lists the nodes of its content. -/
lemma document_text (hp : p.IsProper) :
    ∃ s : Script, Edit.document p.text = .ok (Document.ofScript s)
      ∧ Document.placed s.forest = p.passage.trees (Text.size p.front) := by
  obtain ⟨span, hparse⟩ := parse?_text hp
  refine ⟨⟨[p.shell.tree p.inner (Text.size p.front)], span⟩, ?_, (trees_passage p _).symm⟩
  rw [Edit.document, Document.parse?, hparse]
  rfl

/-- **The components of a proper page are those of its content.** -/
theorem extract_text (hp : p.IsProper) (style : Style) :
    Edit.extract p.text style = .ok (p.passage.components style.marker) := by
  obtain ⟨s, hdocument, hplaced⟩ := document_text hp
  rw [Edit.extract, hdocument]
  change Except.ok ((Document.ofScript s).components style.marker) = _
  rw [Document.components_ofScript, hplaced, componentsOf_trees]

/-- Pages of one text have the same components. -/
lemma components_congr {q : Page} (hp : p.IsProper) (hq : q.IsProper) (h : p.text = q.text)
    {style : Style} : p.passage.components style.marker = q.passage.components style.marker := by
  have hp' := extract_text hp style
  rw [h, extract_text hq] at hp'
  exact (Except.ok.inj hp').symm

/-- Each node of the index stands in a hole of the page. If nothing marked is around it, no tag
around the hole is marked, nor is the node itself. -/
theorem exists_fill_of_entry {s : Script} {i : Nat} {e : Entry}
    (hs : Document.placed s.forest = p.passage.trees (Text.size p.front))
    (he : (Document.ofScript s).entries[i]? = some e) :
    ∃ (f : Frame) (t : Text) (shell : Shell) (inner rest : Passage),
      p.passage = f.fill (.node t shell inner rest)
        ∧ e.node = shell.node inner (Text.size (p.front ++ (f.front ++ t)))
        ∧ (inner.trees (Text.size (p.front ++ (f.front ++ t)) + Text.size shell.opening) ≠ [] →
            (((Document.ofScript s).entries[i]?).any fun e => !e.children.isEmpty) = true)
        ∧ ∀ marker, (Document.ofScript s).nearestFrom (Document.isMarked marker) i = none →
            ∀ s ∈ shell :: f.shells, s.marker? marker = none := by
  have hlt : i < 0 + Tree.countOf (p.passage.trees (Text.size p.front)) := by
    rw [← hs, ← Document.length_ofScript, Nat.zero_add]
    exact (List.getElem?_eq_some_iff.mp he).1
  have hholds := hs ▸ Document.holds_ofScript s
  obtain ⟨f, t, shell, inner, rest, hpassage, hnode, hnested, hnear⟩ :=
    Document.exists_fill (Document.isNested_ofScript s) hholds (Nat.zero_le i) hlt
  have hstart : Text.size p.front + Text.size (f.front ++ t)
      = Text.size (p.front ++ (f.front ++ t)) := (Text.size_append _ _).symm
  rw [hstart] at hnode hnested
  rw [he] at hnode
  exact ⟨f, t, shell, inner, rest, hpassage, Option.some.inj hnode,
    Document.hasNested_of_holds hnested, fun marker hnone => (hnear marker hnone).2⟩

/-- A hole that a node of a page stands in is around its root, or between the tags of the root. -/
lemma fill_cases {f : Frame} {t : Text} {shell : Shell} {inner rest : Passage}
    (h : p.passage = f.fill (.node t shell inner rest)) :
    (f = .hole ∧ t = [] ∧ shell = p.shell ∧ inner = p.inner ∧ rest = .text [])
      ∨ ∃ g, f = .within [] p.shell g (.text []) ∧ p.inner = g.fill (.node t shell inner rest) := by
  cases f with
  | hole =>
      simp only [passage, Frame.fill, Passage.node.injEq] at h
      obtain ⟨rfl, rfl, rfl, rfl⟩ := h
      exact .inl ⟨rfl, rfl, rfl, rfl, rfl⟩
  | behindBraces u e piece g => cases h
  | behind u sh inn g =>
      simp only [passage, Frame.fill, Passage.node.injEq] at h
      exact absurd h.2.2.2.symm (Frame.fill_node_ne_text g t shell inner rest [])
  | within u sh g rest' =>
      simp only [passage, Frame.fill, Passage.node.injEq] at h
      obtain ⟨rfl, rfl, hinner, rfl⟩ := h
      exact .inr ⟨g, rfl, hinner⟩

end Page

end CanvasSync.Markup
