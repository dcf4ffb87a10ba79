import CanvasSync.Script.Grammar.Functions

/-!
Classes and object literals' kin: members, modifiers and heritage.
-/

namespace CanvasSync.Script.Grammar

open Reader

/-- A type that a class implements or an interface extends. -/
def heritageType (rules : Rules) : Reader Unit := do
  dottedName
  typeArguments? rules

/-- At least one type, with commas between them. -/
def heritageTypes (rules : Rules) : Reader Unit := do
  heritageType rules
  whileTrue do
    if ← trySign "," then
      heritageType rules
      return true
    else return false

/-- What a class extends and implements. -/
def heritage (rules : Rules) : Reader Unit :=
  whileTrue do
    if ← tryWord "extends" then
      let _ ← rules .call
      if ← onAngle then typeArguments rules
      return true
    else if ← tryWord "implements" then
      heritageTypes rules
      return true
    else return false

/-- Whether the word at hand is a modifier of a member. -/
def onMemberModifier : Reader Bool := do
  let t ← token
  let next ← following
  let goesOn := next.startsMemberName || next.isSign "*" || next.isSign "\x7b"
  if t.isWord "static" then return goesOn && !next.isSign "\x7b"
  else
    return t.isOneOf ["public", "private", "protected", "abstract", "override", "readonly",
        "declare", "accessor", "async", "export", "const", "in", "out"]
      && goesOn && !next.afterLine && !next.isSign "\x7b"

/-- The modifiers of a member; tells whether `async` is one of them. -/
def memberModifiers (rules : Rules) : Nat → Bool → Reader Bool
  | 0, _ => fail
  | n + 1, async => do
    if ← onSign "@" then
      decorator rules
      memberModifiers rules n async
    else if ← onMemberModifier then
      let now ← onWord "async"
      advance
      memberModifiers rules n (async || now)
    else return async

/-- The context of the value of a property of a class. -/
def inProperty (ctx : Context) : Context :=
  { ctx with allowIn := true, generator := false, async := false, decorator := false }

/-- A property of a class, from behind its name. -/
def propertyRest (rules : Rules) : Reader Unit := do
  annotation? rules
  if ← trySign "=" then
    let _ ← within inProperty (rules .assignment)
  statementEnd

/-- A member of a class. -/
def classMember (rules : Rules) : Reader Unit := do
  decorators rules
  let next ← following
  if (← onWord "static") && next.isSign "\x7b" then
    advance
    let _ ← within (fun ctx => { inFunction false false ctx with function := false })
      (rules .block)
  else
    let async ← memberModifiers rules (← state).bound false
    let t ← token
    let next ← following
    if t.isOneOf ["get", "set"] && next.startsMemberName then
      advance
      propertyName rules
      method rules false false
    else if ← onIndexSignature then
      indexSignature rules
      statementEnd
    else
      let generator ← trySign "*"
      propertyName rules
      let marked ← trySign "?"
      if !marked && !(← token).afterLine then
        let _ ← trySign "!"
      if (← onSign "(") || (← onAngle) || generator || async then
        method rules generator async
      else propertyRest rules

/-- The members of a class, in braces. -/
def classBody (rules : Rules) : Reader Unit := do
  sign "\x7b"
  whileTrue do
    if ← onSign "\x7d" then return false
    else if ← trySign ";" then return true
    else
      classMember rules
      return true
  sign "\x7d"

/-- A class, from its keyword on. -/
def classFrom (rules : Rules) (named : Bool) : Reader Shape := do
  word "class"
  let t ← token
  if t.isName && !t.isWord "implements" then bindingName
  else need (!named)
  typeParameters? rules
  heritage rules
  within (fun ctx => { ctx with decorator := false }) (classBody rules)
  return .plain

end CanvasSync.Script.Grammar
