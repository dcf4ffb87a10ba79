import CanvasSync.Utility.Arbitrary
import CanvasSync.Utility.Table

/-!
The style of a class token.

Each modifier is taken off at most once: an opacity, a breakpoint, a mark of importance. What is
left is looked up among the fixed classes, then on the spacing scale, then as an arbitrary value.
The opacity has to be a known step but does not change the value.
-/

namespace CanvasSync.Utility

/-- The declaration of a token without modifiers: fixed classes first, then the spacing scale,
then arbitrary values. -/
def baseDeclaration? (table : Table) (base : Text) : Option Declaration :=
  match table.get? base with
  | some d => some d
  | none =>
    match Scale.declaration? base with
    | some d => some d
    | none => Arbitrary.declaration? base

/-- The token without its opacity, if that is absent or a known step. -/
def withoutOpacity? (token : Text) : Option Text :=
  match Token.splitOpacity? token with
  | none => some token
  | some (base, digits) =>
    if Number.ofDigits digits ∈ Table.opacitySteps then some base else none

/-- The breakpoint that a list of variants asks for: none, or the one breakpoint that it names. -/
def breakpointOf? : List Text → Option (Option Breakpoint)
  | [] => some none
  | [name] => (Breakpoint.ofName? (String.ofList name)).map some
  | _ => none

/-- A token without the mark of importance, and whether it had one. -/
def splitImportant : Text → Bool × Text
  | '!' :: rest => (true, rest)
  | t => (false, t)

/-- The style of a class token. -/
def resolve? (table : Table) (token : Text) : Option Style := do
  let token ← withoutOpacity? token
  let (variants, base) := Token.splitVariants token
  let breakpoint ← breakpointOf? variants
  let (important, base) := splitImportant base
  if base = [] ∨ base.head? = some '!' then none
  else
    let d ← baseDeclaration? table base
    some ⟨d.property, d.value, breakpoint, important⟩

end CanvasSync.Utility
