import CanvasSync.Script.Grammar.Types

/-!
Patterns, parameters and functions.
-/

namespace CanvasSync.Script.Grammar

open Reader

/-- An assignment with `in` as an operator. -/
def assignmentIn (rules : Rules) : Reader Unit := do
  let _ ← within (fun ctx => { ctx with allowIn := true }) (rules .assignment)

/-- A name or a pattern that is bound. -/
def bound (rules : Rules) : Reader Unit := do
  let _ ← rules .binding

/-- A default, if there is one. -/
def default? (rules : Rules) : Reader Unit := do
  if ← trySign "=" then assignmentIn rules

/-- What a rest element binds; nothing may follow it, not even a comma. -/
def restElement (rules : Rules) (close : String) : Reader Unit := do
  sign "..."
  bound rules
  need (← onSign close)

/-- An element of an array pattern. -/
def arrayElement (rules : Rules) : Reader Unit := do
  if (← onSign ",") || (← onSign "]") then pure ()
  else if ← onSign "..." then restElement rules "]"
  else
    bound rules
    default? rules

/-- An array pattern. -/
def arrayPattern (rules : Rules) : Reader Unit := do
  sign "["
  separated "]" "," (arrayElement rules)
  sign "]"

/-- A property of an object pattern. -/
def patternProperty (rules : Rules) : Reader Unit := do
  if ← onSign "..." then restElement rules "\x7d"
  else
    let t ← token
    let next ← following
    if t.isName && !next.isSign ":" then bindingName
    else
      propertyName rules
      sign ":"
      bound rules
    default? rules

/-- An object pattern. -/
def objectPattern (rules : Rules) : Reader Unit := do
  sign "\x7b"
  separated "\x7d" "," (patternProperty rules)
  sign "\x7d"

/-- A name or a pattern. -/
def binding (rules : Rules) : Reader Shape := do
  let t ← token
  if t.isSign "[" then arrayPattern rules
  else if t.isSign "\x7b" then objectPattern rules
  else bindingName
  return .plain

/-- The expression of a decorator. -/
def decorator (rules : Rules) : Reader Unit := do
  sign "@"
  let _ ← within (fun ctx => { ctx with decorator := true }) (rules .call)

/-- Decorators, if there are any. -/
def decorators (rules : Rules) : Reader Unit :=
  whileTrue do
    if ← onSign "@" then
      decorator rules
      return true
    else return false

/-- A parameter of a function. -/
def parameter (rules : Rules) : Reader Unit := do
  decorators rules
  whileTrue do
    let t ← token
    let next ← following
    if t.isOneOf ["public", "private", "protected", "readonly", "override", "declare", "static",
          "abstract", "accessor"]
        && !next.afterLine
        && (next.isAnyWord || next.isSign "[" || next.isSign "\x7b") then
      advance
      return true
    else return false
  if ← onSign "..." then
    sign "..."
    bound rules
    let _ ← trySign "?"
    annotation? rules
    complainIf (← onSign "=")
    default? rules
    complainIf (!(← onSign ")"))
  else if ← onWord "this" then
    advance
    annotation? rules
  else
    bound rules
    let _ ← trySign "?"
    annotation? rules
    default? rules

/-- A list of parameters in parentheses. -/
def parameters (rules : Rules) : Reader Shape := do
  sign "("
  within (fun ctx => { ctx with allowIn := true, decorator := false })
    (separated ")" "," (parameter rules))
  sign ")"
  return .plain

/-- The context within a function. -/
def inFunction (generator async : Bool) (ctx : Context) : Context :=
  { ctx with
    allowIn := true, generator := generator, async := async, function := true, decorator := false,
    conditionalTypes := true }

/-- The body of a function. -/
def functionBody (rules : Rules) : Reader Unit := do
  let _ ← rules .block

/-- The body of a function, or the end of a statement where it is left out. -/
def bodyOrEnd (rules : Rules) : Reader Unit := do
  if ← onSign "\x7b" then functionBody rules
  else statementEnd

/-- What follows the name of a function: parameters, an annotation and a body, which may be left
out. -/
def functionRest (rules : Rules) (generator async : Bool) : Reader Unit :=
  within (inFunction generator async) do
    typeParameters? rules
    let _ ← rules .parameters
    returnAnnotation? rules
    bodyOrEnd rules

/-- A function, from its keyword on. -/
def functionFrom (rules : Rules) (named async : Bool) : Reader Shape := do
  word "function"
  let generator ← trySign "*"
  let t ← token
  if t.isName then
    within (fun ctx => if named then ctx else inFunction generator async ctx) bindingName
  else need (!named)
  functionRest rules generator async
  return .plain

/-- A method, from behind its name. -/
def method (rules : Rules) (generator async : Bool) : Reader Unit :=
  functionRest rules generator async

end CanvasSync.Script.Grammar
