import CanvasSync.Proofs.Markup.Extraction

/-!
Markup as it is written.

* `Part`: an attribute with the blanks before it;
* `Tag`, `Shell`: an opening tag, and the tags around the content of a node;
* `Passage`: the content of a node, which is text, expressions in braces and nodes in turn;
* `Passage.written`, `Passage.trees`: what stands in the source, and the trees of its nodes with the
  places where they stand;
* `Passage.components`: the components of a content, which do not depend on where it stands
  (`componentsOf_trees`).
-/

namespace CanvasSync.Markup

open Script.Grammar (Piece)

/-! ### Tags -/

/-- An attribute as it is written in an opening tag. -/
structure Part where
  /-- The blanks before it. -/
  gap : Text
  name : String
  /-- What stands behind its name. -/
  behind : Text
  value : AttributeValue
  deriving DecidableEq, Repr

/-- The text of an attribute. -/
def Part.text (p : Part) : Text := p.name.toList ++ p.behind

/-- An attribute with the blanks before it. -/
def Part.whole (p : Part) : Text := p.gap ++ p.text

/-- The text of attributes in a row. -/
def partsText (parts : List Part) : Text := parts.flatMap Part.whole

@[simp] lemma partsText_nil : partsText [] = [] := rfl

@[simp] lemma partsText_cons (p : Part) (ps : List Part) :
    partsText (p :: ps) = p.gap ++ (p.text ++ partsText ps) := by
  simp [partsText, Part.whole]

@[simp] lemma partsText_append (ps qs : List Part) :
    partsText (ps ++ qs) = partsText ps ++ partsText qs := List.flatMap_append

/-- The attributes of a tag, the first of which stands behind the blanks at an offset. -/
def attributesFrom (o : Nat) : List Part → List Attribute
  | [] => []
  | p :: ps =>
    let start := o + Text.size p.gap
    let stop := start + Text.size p.text
    ⟨p.name, ⟨start, stop⟩, p.value⟩ :: attributesFrom stop ps

lemma attributesFrom_append (o : Nat) (ps qs : List Part) :
    attributesFrom o (ps ++ qs)
      = attributesFrom o ps ++ attributesFrom (o + Text.size (partsText ps)) qs := by
  induction ps generalizing o with
  | nil => rfl
  | cons p ps ih => simp [attributesFrom, ih, Nat.add_assoc]

lemma map_attributesFrom (o : Nat) (ps : List Part) :
    ((attributesFrom o ps).map fun a => (a.name, a.value)) = ps.map fun p => (p.name, p.value) := by
  induction ps generalizing o with
  | nil => rfl
  | cons p ps ih => simp [attributesFrom, ih]

/-- An opening tag up to its end. -/
structure Tag where
  name : Text
  parts : List Part
  /-- The blanks behind the last attribute. -/
  gap : Text
  deriving DecidableEq, Repr

/-- The text of an opening tag up to its end. -/
def Tag.text (t : Tag) : Text := '<' :: (t.name ++ (partsText t.parts ++ t.gap))

/-- The tags around the content of a node. -/
inductive Shell where
  | fragment
  | element (tag : Tag)
  /-- A tag that closes itself. -/
  | closed (tag : Tag)
  deriving DecidableEq, Repr

namespace Shell

/-- The opening tag. -/
def opening : Shell → Text
  | fragment => ['<', '>']
  | element t => t.text ++ ['>']
  | closed t => t.text ++ ['/', '>']

/-- The closing tag, if there is one. -/
def closing : Shell → Text
  | fragment => ['<', '/', '>']
  | element t => '<' :: '/' :: (t.name ++ ['>'])
  | closed _ => []

/-- The name of the tag. -/
def name : Shell → Text
  | fragment => []
  | element t | closed t => t.name

/-- The attributes of the tag. -/
def parts : Shell → List Part
  | fragment => []
  | element t | closed t => t.parts

/-- Whether there is no name. -/
def isFragment : Shell → Bool
  | fragment => true
  | _ => false

/-- Whether the tag closes itself. -/
def isClosed : Shell → Bool
  | closed _ => true
  | _ => false

end Shell

/-! ### Content -/

/-- The content of a node as it is written. -/
inductive Passage where
  | text (t : Text)
  /-- An expression in braces behind a text, and what it adds to the text of the node. -/
  | braced (t e : Text) (piece : Piece) (rest : Passage)
  /-- A node behind a text, with its own content. -/
  | node (t : Text) (shell : Shell) (inner rest : Passage)

/-- A text between tags as a piece of the content. -/
def piecesOf (t : Text) : List Piece := if t = [] then [] else [.text t]

namespace Passage

/-- What stands in the source. -/
def written : Passage → Text
  | text t => t
  | braced t e _ rest => t ++ '\x7b' :: (e ++ '\x7d' :: rest.written)
  | node t shell inner rest =>
    t ++ (shell.opening ++ (inner.written ++ (shell.closing ++ rest.written)))

/-- The pieces of a content. -/
def pieces : Passage → List Piece
  | text t => piecesOf t
  | braced t _ piece rest => piecesOf t ++ piece :: rest.pieces
  | node t _ _ rest => piecesOf t ++ .other :: rest.pieces

end Passage

namespace Shell

/-- The node that is written with these tags around a content, at an offset. -/
def node (shell : Shell) (inner : Passage) (o : Nat) : Node :=
  let start := o + Text.size shell.opening
  let stop := start + Text.size inner.written
  { isFragment := shell.isFragment
    tag := String.ofList shell.name
    span := ⟨o, stop + Text.size shell.closing⟩
    opening := ⟨o, start⟩
    closing := if shell.isClosed then none else some ⟨stop, stop + Text.size shell.closing⟩
    attributes := attributesFrom (o + 1 + Text.size shell.name) shell.parts
    text := Script.Grammar.contentText inner.pieces }

/-- A content with the tags around it. -/
def wrap (shell : Shell) (inner : Passage) : Text :=
  shell.opening ++ (inner.written ++ shell.closing)

end Shell

namespace Passage

/-- The trees of the nodes of a content that begins at an offset. -/
def trees : Passage → Nat → List (Place × Tree)
  | text _, _ => []
  | braced t e _ rest, o => rest.trees (o + Text.size t + Text.size e + 2)
  | node t shell inner rest, o =>
    let start := o + Text.size t
    (.content, .node (shell.node inner start) (inner.trees (start + Text.size shell.opening)))
      :: rest.trees (start + Text.size (shell.wrap inner))

end Passage

/-- The tree of the node that is written with some tags around a content, at an offset. -/
def Shell.tree (shell : Shell) (inner : Passage) (o : Nat) : Tree :=
  .node (shell.node inner o) (inner.trees (o + Text.size shell.opening))

lemma Passage.trees_node (t : Text) (shell : Shell) (inner rest : Passage) (o : Nat) :
    (node t shell inner rest).trees o = (.content, shell.tree inner (o + Text.size t))
      :: rest.trees (o + Text.size t + Text.size (shell.wrap inner)) := rfl

/-! ### Components -/

namespace Shell

/-- The marker that the tags of an element carry. -/
def marker? (marker : String) (shell : Shell) : Option String :=
  match shell.parts.find? fun p => p.name = marker with
  | some ⟨_, _, _, .quoted s⟩ => some s
  | _ => none

/-- The props that the attributes of a tag give. -/
def fields (marker : String) (shell : Shell) : Json.Fields :=
  (shell.parts.filter fun p => p.name ≠ marker).filterMap fun p =>
    (propValue? p.value).map fun v => (p.name, v)

/-- The props of an element, text content behind those of its attributes. -/
def props (marker : String) (shell : Shell) (inner : Passage) : Json.Fields :=
  Json.Fields.ofList (shell.fields marker
    ++ (Script.Grammar.contentText inner.pieces).toList.map fun t => ("children", .string t))

lemma quoted?_node (marker : String) (shell : Shell) (inner : Passage) (o : Nat) :
    (shell.node inner o).quoted? marker = shell.marker? marker := by
  rw [Node.quoted?, Node.attribute?, Shell.node, marker?]
  generalize o + 1 + Text.size shell.name = start
  simp only
  induction shell.parts generalizing start with
  | nil => rfl
  | cons p ps ih =>
      by_cases h : p.name = marker
      · obtain ⟨gap, name, behind, value⟩ := p
        cases value <;> simp [attributesFrom, show name = marker from h]
      · simp only [attributesFrom]
        rw [List.find?_cons_of_neg (by simpa using h), List.find?_cons_of_neg (by simpa using h), ih]

lemma propsOf_node (marker : String) (shell : Shell) (inner : Passage) (o : Nat) :
    propsOf marker (shell.node inner o) = shell.props marker inner := by
  have hfields (start : Nat) (ps : List Part) :
      ((attributesFrom start ps).filter fun a => a.name ≠ marker).filterMap
          (fun a => (propValue? a.value).map fun v => (a.name, v))
        = (ps.filter fun p => p.name ≠ marker).filterMap
          fun p => (propValue? p.value).map fun v => (p.name, v) := by
    induction ps generalizing start with
    | nil => rfl
    | cons p ps ih =>
        rw [attributesFrom]
        by_cases h : p.name = marker
        · rw [List.filter_cons_of_neg (by simpa using h), List.filter_cons_of_neg (by simpa using h),
            ih]
        · rw [List.filter_cons_of_pos (by simpa using h), List.filter_cons_of_pos (by simpa using h),
            List.filterMap_cons, List.filterMap_cons, ih]
  rw [propsOf, props, fields]
  exact congrArg (fun fs => Json.Fields.ofList (fs ++ _)) (hfields _ _)

end Shell

/-- The components of a content, those of an unmarked node left to what is around it. -/
def Passage.components (marker : String) : Passage → List Component
  | text _ => []
  | braced _ _ _ rest => rest.components marker
  | node _ shell inner rest =>
    (match shell.marker? marker with
      | some id =>
        [{ Component.ofTag id (String.ofList shell.name) with
            props := shell.props marker inner
            children := inner.components marker }]
      | none => inner.components marker) ++ rest.components marker

/-- **The components of a content do not depend on where it stands.** -/
theorem componentsOf_trees (marker : String) (c : Passage) (o : Nat) :
    Tree.componentsOf marker (c.trees o) = c.components marker := by
  induction c generalizing o with
  | text t => rfl
  | braced t e piece rest ih => exact ih _
  | node t shell inner rest ihinner ih =>
      have hcons := Tree.componentsOf_cons marker .content (shell.node inner (o + Text.size t))
        (inner.trees (o + Text.size t + Text.size shell.opening))
        (rest.trees (o + Text.size t + Text.size (shell.wrap inner)))
      rw [Shell.quoted?_node, Shell.propsOf_node, ihinner, ih] at hcons
      exact hcons

end CanvasSync.Markup
