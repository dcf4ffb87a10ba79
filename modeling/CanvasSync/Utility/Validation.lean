import CanvasSync.Utility.Search

/-!
Validation of class names.

A name is valid when it is registered, or when what is left of it without variants, importance and
opacity is an arbitrary value, a registered class or a class of the spacing scale, and the variants
are ones that the class supports.

* `Fault`: why a name is refused, with its wording in `Fault.message`;
* `Catalog.check`: the verdict on one name;
* `Catalog.checkAll`: the verdict on a class string.
-/

namespace CanvasSync.Utility

/-- Why a class name is refused. -/
inductive Fault where
  | empty
  /-- No class of that name is known. -/
  | unknownClass (name : String)
  /-- The class does not support the variant. -/
  | unsupportedVariant (variant : String) (subject : String)
  /-- No variant of that name is known. -/
  | unknownVariant (variant : String) (name : String)
  deriving DecidableEq, Repr

/-- The wording of a fault. -/
def Fault.message : Fault → String
  | .empty => "Empty class name"
  | .unknownClass name => "Unknown class: " ++ name
  | .unsupportedVariant variant subject =>
    "Variant '" ++ variant ++ "' is not supported by " ++ subject
  | .unknownVariant variant name => "Unknown variant '" ++ variant ++ "' in " ++ name

/-- The verdict on a class name. -/
inductive Verdict where
  | valid
  | invalid (fault : Fault) (suggestion : Option String)
  deriving DecidableEq, Repr

/-- Whether a verdict is in favour. -/
def Verdict.isValid : Verdict → Bool
  | .valid => true
  | .invalid _ _ => false

/-- The verdict on a class string: the faults in order, and a replacement for each refused token
that has one, in order of token. -/
structure Report where
  faults : List Fault
  suggestions : List (String × String)
  deriving DecidableEq, Repr

/-- Whether nothing was refused. -/
def Report.isValid (r : Report) : Bool := r.faults.isEmpty

/-- Sets the text under a key of a list in strictly rising order of key. -/
def insertSorted (key value : String) : List (String × String) → List (String × String)
  | [] => [(key, value)]
  | (k, v) :: rest =>
    if k = key then (key, value) :: rest
    else if key < k then (key, value) :: (k, v) :: rest
    else (k, v) :: insertSorted key value rest

/-- The names that may stand in front of a colon. -/
def isKnownVariant (variant : String) : Bool :=
  (Breakpoint.ofName? variant).isSome || variant ∈ ["hover", "focus", "dark"]

namespace Catalog

/-- The verdict on the variants of a name whose class is `entry`, or an arbitrary value if there is
none. The first variant at fault decides. -/
def checkVariants (name : String) (entry : Option Entry) : List Text → Verdict
  | [] => .valid
  | v :: vs =>
    let variant := String.ofList v
    let supported :=
      match entry with
      | some e => e.supports? variant
      | none => if isKnownVariant variant then some true else none
    match supported with
    | some true => checkVariants name entry vs
    | some false =>
      .invalid (.unsupportedVariant variant ((entry.map (·.name)).getD name)) none
    | none => .invalid (.unknownVariant variant name) none

/-- A token without variants, importance and opacity. -/
def baseOf (token : Text) : Text :=
  let (_, base) := splitImportant token
  match Token.splitOpacity? base with
  | some (base, _) => base
  | none => base

/-- The replacement for a class that is not known: the best hit, behind the same variants. -/
def replacement? (c : Catalog) (variants : List Text) (base : Text) : Option String :=
  (c.search base 3).head?.map fun hit =>
    String.ofList
      (if variants = [] then hit.name.toList
       else Text.join [':'] variants ++ ':' :: hit.name.toList)

/-- The verdict on a class name, blanks around it left out. -/
def check (c : Catalog) (name : Text) : Verdict :=
  let name := Text.trim name
  let label := String.ofList name
  if name = [] then .invalid .empty none
  else if (c.get? label).isSome then .valid
  else
    let (variants, base) := Token.splitVariants name
    let base := baseOf base
    let arbitrary :=
      match Token.splitArbitrary? base with
      | some (prop, _) => Arbitrary.accepts prop
      | none => false
    if arbitrary then checkVariants label none variants
    else
      match c.get? (String.ofList base) with
      | some e => checkVariants label (some e) variants
      | none =>
        match Scale.declaration? base with
        | some d =>
          checkVariants label (some (Entry.ofDeclaration (String.ofList base) d)) variants
        | none => .invalid (.unknownClass label) (c.replacement? variants base)

/-- The verdict on a class string, token by token. -/
def checkAll (c : Catalog) (classes : Text) : Report :=
  (Text.words classes).foldl (fun r token =>
    match c.check token with
    | .valid => r
    | .invalid fault suggestion =>
      { faults := r.faults ++ [fault]
        suggestions :=
          match suggestion with
          | some s => insertSorted (String.ofList token) s r.suggestions
          | none => r.suggestions }) ⟨[], []⟩

end Catalog

end CanvasSync.Utility
