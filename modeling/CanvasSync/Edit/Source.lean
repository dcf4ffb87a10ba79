import CanvasSync.Edit.Fault
import CanvasSync.Edit.Splice
import CanvasSync.Markup.Extraction

/-!
Edits of the components in a source.

Every edit finds its place through the index of the markup and then splices the text, so that all
else stays as it is written.

* `insert`: a component as the last child of an element;
* `setProps`: attributes of a marked element set, added and taken away;
* `remove`: a marked element deleted, with its lines if nothing else stands on them;
* `extract`: the components of a source.
-/

namespace CanvasSync.Edit

open CanvasSync.Markup (Document Node Style)

/-- The index of a source. -/
def document (source : Text) : Except Fault Document :=
  match Document.parse? source with
  | some d => .ok d
  | none => .error .noModule

/-- A node that must be there. -/
def nodeAt (d : Document) (i : Nat) : Node := ((d.entries[i]?).map Markup.Entry.node).getD default

/-- The node that a component is inserted into: the root, or the node under child numbers. -/
def insertionTarget (d : Document) (path : Option (List Nat)) : Except Fault Node :=
  match d.root? with
  | none => .error .noMarkup
  | some root =>
    match path with
    | none => .ok (nodeAt d root)
    | some path =>
      match d.resolvePath? root path with
      | some i => .ok (nodeAt d i)
      | none => .error (.noChild path)

/-- The edit that puts markup into a node as its last child. A closing tag alone on its line stays
so, any other one moves to a line of its own, and a tag that closes itself is opened. -/
def insertion (source : Text) (style : Style) (target : Node) (markup : Text) : Splice :=
  let base := indentationAt source target.opening.start
  let markup := indentBlock (base ++ style.indent.toList) markup
  match target.closing with
  | some closing =>
    let start := lineStart source closing.start
    if Text.allBlank (Text.slice start closing.start source) then
      .insertion start (markup ++ ['\n'])
    else .insertion closing.start ('\n' :: markup ++ '\n' :: base)
  | none =>
    let opening := Text.covered source target.opening
    let head := Text.trimEnd ((Text.stripEnd? ['/', '>'] opening).getD opening)
    ⟨target.opening.start, target.opening.stop,
      head ++ ['>', '\n'] ++ markup ++ '\n' :: base ++ ['<', '/'] ++ target.tag.toList ++ ['>']⟩

/-- A source with a component inserted as the last child of the root, or of the node under child
numbers. -/
def insert (source : Text) (c : Component) (path : Option (List Nat)) (style : Style) :
    Except Fault Text := do
  let d ← document source
  let target ← insertionTarget d path
  return Splice.applyAll source [insertion source style target (Markup.render style 0 c)]

/-- The edit that puts text into an element. -/
def textEdit (source : Text) (node : Node) (hasElements : Bool) (text : Text) :
    Except Fault Splice :=
  if hasElements then .error (.hasElements node.tag)
  else
    let text := Markup.contentText text
    match node.closing with
    | some closing => .ok ⟨node.opening.stop, closing.start, text⟩
    | none =>
      let head := Text.trimEnd (Text.upTo (node.opening.stop - 2) source)
      .ok ⟨Text.size head, node.opening.stop,
        '>' :: text ++ ['<', '/'] ++ node.tag.toList ++ ['>']⟩

/-- The edits of the attributes that an element has, and the attributes to add to it. -/
structure Patch where
  edits : List Splice
  added : Text

/-- One prop more in a patch. The marker is never touched; a string for `children` is text
content; `null` takes an attribute away together with the blanks before it. -/
def patchProp (source : Text) (style : Style) (node : Node) (hasElements : Bool) (p : Patch)
    (prop : String × Json.Value) : Except Fault Patch :=
  let (key, value) := prop
  if key = style.marker then .ok p
  else
    match (if key = "children" then value.string? else none) with
    | some text => do
      let e ← textEdit source node hasElements text.toList
      return { p with edits := p.edits ++ [e] }
    | none =>
      match node.attribute? key with
      | some a =>
        if value.isNull then
          let start := Text.size (Text.trimEnd (Text.upTo a.span.start source))
          .ok { p with edits := p.edits ++ [.deletion start a.span.stop] }
        else
          .ok { p with
            edits := p.edits ++ [⟨a.span.start, a.span.stop, Markup.attributeText key value⟩] }
      | none =>
        if value.isNull then .ok p
        else .ok { p with added := p.added ++ ' ' :: Markup.attributeText key value }

/-- Where attributes are added to an element: behind its last attribute, or behind its tag. -/
def additionPoint (node : Node) : Nat :=
  match node.attributes.getLast? with
  | some a => a.span.stop
  | none => node.opening.start + 1 + Text.size node.tag.toList

/-- A source with the props of one node of its index set. -/
def patch (source : Text) (d : Document) (i : Nat) (props : Json.Fields) (style : Style) :
    Except Fault Text := do
  let node := nodeAt d i
  let hasElements := (d.entries[i]?).any fun e => !e.children.isEmpty
  let p ← props.foldlM (patchProp source style node hasElements) ⟨[], []⟩
  let edits :=
    if p.added = [] then p.edits
    else p.edits ++ [.insertion (additionPoint node) p.added]
  return Splice.applyAll source edits

/-- The node marked with an id. -/
def marked (d : Document) (id : String) (style : Style) : Except Fault Nat :=
  match d.findByAttribute? style.marker id with
  | some i => .ok i
  | none => .error (.noComponent id)

/-- A source with the props of a marked element set. -/
def setProps (source : Text) (id : String) (props : Json.Fields) (style : Style) :
    Except Fault Text := do
  let d ← document source
  let i ← marked d id style
  patch source d i props style

/-- The edit that deletes a stretch of a text, with its lines if nothing else stands on them. -/
def removal (source : Text) (span : Span) : Splice :=
  let start := lineStart source span.start
  let stop := lineStop source span.stop
  if Text.allBlank (Text.slice start span.start source)
      && Text.allBlank (Text.slice span.stop stop source) then
    .deletion start (min (stop + 1) (Text.size source))
  else .deletion span.start span.stop

/-- A source with a marked element deleted. -/
def remove (source : Text) (id : String) (style : Style) : Except Fault Text := do
  let d ← document source
  let i ← marked d id style
  return Splice.applyAll source [removal source (nodeAt d i).span]

/-- The components of a source. -/
def extract (source : Text) (style : Style) : Except Fault (List Component) := do
  let d ← document source
  return d.components style.marker

end CanvasSync.Edit
