import CanvasSync.Script.Reader

/-!
Types: annotations, parameters of types, and the types themselves.
-/

namespace CanvasSync.Script.Grammar

open Reader

/-- A name that may be bound. Operators in the surroundings are no names. -/
def bindingName : Reader Unit := do
  let t ← token
  let ctx ← context
  need t.isName
  complainIf ((ctx.async && t.isWord "await") || (ctx.generator && t.isWord "yield"))
  advance

/-- Any word. -/
def anyWord : Reader Unit := tokenWith Token.isAnyWord

/-- A type. -/
def type (rules : Rules) : Reader Unit := do
  let _ ← rules .type

/-- The less-than sign that opens a list, also when it stands first in a shift to the left. -/
def openAngle : Reader Unit := do
  if ← onSign "<<" then reread fun c => some (.sign "<", c.step)
  sign "<"

/-- Whether a list of type arguments may begin at hand. -/
def onAngle : Reader Bool := do
  return (← onSign "<") || (← onSign "<<")

/-- Type arguments. -/
def typeArguments (rules : Rules) : Reader Unit := do
  openAngle
  separated ">" "," (type rules)
  sign ">"

/-- Type arguments, if there are any. -/
def typeArguments? (rules : Rules) : Reader Unit := do
  if ← onAngle then typeArguments rules

/-- A parameter of types: modifiers, a name, a bound and a default. -/
def typeParameter (rules : Rules) : Reader Unit := do
  whileTrue do
    let t ← token
    let next ← following
    if t.isWord "const" || ((t.isWord "in" || t.isWord "out") && next.isAnyWord
        && !next.isWord "extends") then
      advance
      return true
    else return false
  bindingName
  if ← tryWord "extends" then type rules
  if ← trySign "=" then type rules

/-- Parameters of types, if there are any. -/
def typeParameters? (rules : Rules) : Reader Unit := do
  if ← onAngle then
    openAngle
    separated ">" "," (typeParameter rules)
    sign ">"

/-- A type annotation, if there is one. -/
def annotation? (rules : Rules) : Reader Unit := do
  if ← trySign ":" then type rules

/-- A type, or a statement about the type of a name, as functions may give it back. -/
def typeOrPredicate (rules : Rules) : Reader Unit := do
  let t ← token
  let next ← following
  if t.isName && next.isWord "is" && !next.afterLine then
    advance
    advance
    type rules
  else if t.isWord "asserts" && (next.isName || next.isWord "this") && !next.afterLine
      && !next.isWord "is" then
    advance
    advance
    if (← onWord "is") && !(← token).afterLine then
      advance
      type rules
  else type rules

/-- The annotation of what a function gives back, if there is one. -/
def returnAnnotation? (rules : Rules) : Reader Unit := do
  if ← trySign ":" then
    within (fun ctx => { ctx with conditionalTypes := true }) (typeOrPredicate rules)

/-- Whether a type may begin at hand. -/
def onTypeStart : Reader Bool := do
  let t ← token
  return t.isName || t.isTemplate || t.isLiteral
    || t.isOneOf ["void", "null", "this", "typeof", "new", "true", "false", "import", "function"]
    || ["(", "[", "\x7b", "<", "|", "&", "-", "?", "!", "*", "..."].any t.isSign

/-- Passes over the beginning of a parameter: modifiers and a name or a pattern. -/
def passParameterStart (rules : Rules) : Reader Bool := do
  let t ← token
  if t.isOneOf ["public", "private", "protected", "readonly", "override"] then
    if (← following).isAnyWord then advance
  let t ← token
  if t.isName || t.isWord "this" then
    advance
    return true
  else if t.isSign "[" || t.isSign "\x7b" then
    let before := (← state).refused
    let _ ← rules .binding
    return (← state).refused == before
  else return false

/-- Whether the parenthesis at hand can only open the parameters of a function type. -/
def onFunctionType (rules : Rules) : Reader Bool := looking do
  sign "("
  if (← onSign ")") || (← onSign "...") then return true
  if ← passParameterStart rules then
    let t ← token
    if [":", ",", "?", "="].any t.isSign then return true
    if ← trySign ")" then return ← onSign "=>"
  return false

/-- Whether a function type or a constructor type begins at hand. -/
def onFunctionOrConstructorType (rules : Rules) : Reader Bool := do
  let t ← token
  if t.isSign "<" || t.isSign "<<" || t.isWord "new" then return true
  if t.isWord "abstract" && (← following).isWord "new" then return true
  if t.isSign "(" then onFunctionType rules
  else return false

/-- A function type or a constructor type. -/
def functionType (rules : Rules) : Reader Unit := do
  let _ ← tryWord "abstract"
  let _ ← tryWord "new"
  typeParameters? rules
  let _ ← rules .parameters
  sign "=>"
  typeOrPredicate rules

/-- Names joined by points. -/
def dottedName : Reader Unit := do
  anyWord
  whileTrue do
    if ← trySign "." then
      let t ← token
      need (t.isAnyWord || t.kind = .privateName)
      advance
      return true
    else return false

/-- Type arguments on the same line, if there are any. -/
def typeArgumentsOnLine? (rules : Rules) : Reader Unit := do
  if !(← token).afterLine then typeArguments? rules

/-- The type of a module. -/
def importType (rules : Rules) : Reader Unit := do
  word "import"
  sign "("
  type rules
  if ← trySign "," then
    if !(← onSign ")") then
      let _ ← rules .assignment
      let _ ← trySign ","
  sign ")"
  whileTrue do
    if ← trySign "." then
      anyWord
      return true
    else return false
  typeArgumentsOnLine? rules

/-- Goes on with the part of a template behind the brace at hand. -/
def rereadTemplate : Reader Unit := reread fun c => Lexer.template? c.step

/-- A template with types in its substitutions. -/
def templateType (rules : Rules) : Reader Unit := do
  whileTrue do
    match (← token).kind with
    | .templatePart _ =>
      advance
      type rules
      need (← onSign "\x7d")
      rereadTemplate
      return true
    | .templateEnd _ =>
      advance
      return false
    | _ => fail

/-- Whether a brace at hand opens a mapped type. -/
def onMappedType : Reader Bool := looking do
  sign "\x7b"
  if (← onSign "+") || (← onSign "-") then
    advance
    return ← onWord "readonly"
  let _ ← tryWord "readonly"
  sign "["
  bindingName
  onWord "in"

/-- A mapped type. -/
def mappedType (rules : Rules) : Reader Unit := do
  sign "\x7b"
  if (← onSign "+") || (← onSign "-") then
    advance
    word "readonly"
  else
    let _ ← tryWord "readonly"
  sign "["
  bindingName
  word "in"
  type rules
  if ← tryWord "as" then type rules
  sign "]"
  if (← onSign "+") || (← onSign "-") then
    advance
    sign "?"
  else
    let _ ← trySign "?"
  annotation? rules
  let _ ← trySign ";"
  let _ ← trySign ","
  sign "\x7d"

/-- The name of a property, in brackets or not. -/
def propertyName (rules : Rules) : Reader Unit := do
  let t ← token
  if t.isPropertyName || t.kind = .privateName then advance
  else
    sign "["
    let _ ← within (fun ctx => { ctx with allowIn := true }) (rules .assignment)
    sign "]"

/-- Whether a bracket at hand opens an index signature. -/
def onIndexSignature : Reader Bool := looking do
  sign "["
  let t ← token
  need t.isName
  advance
  let t ← token
  if t.isSign ":" || t.isSign "," then return true
  if t.isSign "?" then
    advance
    let t ← token
    return t.isSign ":" || t.isSign "," || t.isSign "]"
  return false

/-- An index signature, from its bracket on. -/
def indexSignature (rules : Rules) : Reader Unit := do
  sign "["
  separated "]" "," do
    bindingName
    annotation? rules
  sign "]"
  annotation? rules

/-- The end of a member of an object type. -/
def memberEnd : Reader Unit := do
  if !(← trySign ",") then statementEnd

/-- What follows the name of a function that is not defined: parameters and an annotation. -/
def signature (rules : Rules) : Reader Unit := do
  typeParameters? rules
  let _ ← rules .parameters
  returnAnnotation? rules

/-- Whether the word at hand is a modifier of what follows on the same line. -/
def modifies (words : List String) : Reader Bool := do
  let t ← token
  let next ← following
  return t.isOneOf words && !next.afterLine && next.startsMemberName

/-- A member of an object type. -/
def typeMember (rules : Rules) : Reader Unit := do
  let t ← token
  let next ← following
  if t.isSign "(" || t.isSign "<" then
    signature rules
    memberEnd
  else if t.isWord "new" && (next.isSign "(" || next.isSign "<") then
    advance
    signature rules
    memberEnd
  else
    whileTrue do
      if ← modifies ["readonly", "public", "private", "protected", "static", "declare",
          "abstract", "override"] then
        advance
        return true
      else return false
    if (← modifies ["get", "set"]) then
      advance
      propertyName rules
      signature rules
      memberEnd
    else if ← onIndexSignature then
      indexSignature rules
      memberEnd
    else
      propertyName rules
      let _ ← trySign "?"
      if (← onSign "(") || (← onSign "<") then signature rules
      else annotation? rules
      memberEnd

/-- The members of an object type, in braces. -/
def typeMembers (rules : Rules) : Reader Unit := do
  sign "\x7b"
  whileTrue do
    if ← onSign "\x7d" then return false
    else
      typeMember rules
      return true
  sign "\x7d"

/-- Whether an element of a tuple has a name. -/
def onNamedElement : Reader Bool := looking do
  let _ ← trySign "..."
  anyWord
  if ← onSign ":" then return true
  if ← trySign "?" then return ← onSign ":"
  return false

/-- An element of a tuple type. -/
def tupleElement (rules : Rules) : Reader Unit := do
  if ← onNamedElement then
    let _ ← trySign "..."
    anyWord
    let _ ← trySign "?"
    sign ":"
    type rules
  else
    let _ ← trySign "..."
    type rules
    let _ ← trySign "?"

/-- A type without brackets or operators behind it. -/
def primaryType (rules : Rules) : Reader Unit := do
  let t ← token
  let next ← following
  match t.kind with
  | .string _ | .number | .bigInteger => advance
  | .templatePart _ | .templateEnd _ => templateType rules
  | .sign "-" =>
    need (next.kind = .number || next.kind = .bigInteger)
    advance
    advance
  | .sign "\x7b" => if ← onMappedType then mappedType rules else typeMembers rules
  | .sign "[" =>
    advance
    separated "]" "," (tupleElement rules)
    sign "]"
  | .sign "(" =>
    advance
    type rules
    sign ")"
  | .word w _ =>
    if w = "typeof" && !next.isSign "." then
      advance
      if ← onWord "import" then importType rules
      else
        dottedName
        typeArgumentsOnLine? rules
    else if w = "import" then importType rules
    else if w = "this" && !next.isSign "." then
      advance
      if (← onWord "is") && !(← token).afterLine then
        advance
        type rules
    else if w = "asserts" && (next.isName || next.isWord "this") && !next.afterLine
        && !next.isWord "is" then
      advance
      advance
      if (← onWord "is") && !(← token).afterLine then
        advance
        type rules
    else if !next.isSign "." && ["void", "null", "true", "false", "any", "unknown", "string",
        "number", "boolean", "bigint", "symbol", "never", "object", "undefined"].contains w then
      advance
    else
      dottedName
      typeArgumentsOnLine? rules
  | _ => fail

/-- A type with what may stand behind it on the same line: brackets and marks. -/
def postfixType (rules : Rules) : Reader Unit := do
  primaryType rules
  whileTrue do
    let t ← token
    if t.afterLine then return false
    else if t.isSign "!" then
      advance
      return true
    else if t.isSign "?" then
      if ← looking (do advance; onTypeStart) then return false
      else
        advance
        return true
    else if t.isSign "[" then
      advance
      if ← onTypeStart then type rules
      sign "]"
      return true
    else return false

/-- The bound of an inferred type; it is none if it turns out to belong to a condition. -/
def inferBound (rules : Rules) : Reader Unit := do
  word "extends"
  within (fun ctx => { ctx with conditionalTypes := false }) (type rules)
  need (!(← context).conditionalTypes || !(← onSign "?"))

/-- A type with operators in front of it; `n` bounds their number. -/
def operatorType (rules : Rules) : Nat → Reader Unit
  | 0 => fail
  | n + 1 => do
    let t ← token
    if t.isOneOf ["keyof", "unique", "readonly"] then
      advance
      operatorType rules n
    else if t.isWord "infer" then
      advance
      bindingName
      if ← onWord "extends" then
        let _ ← attempt? (inferBound rules)
    else within (fun ctx => { ctx with conditionalTypes := true }) (postfixType rules)

/-- Types joined by a sign, which may also stand first. -/
def joinedTypes (s : String) (item : Reader Unit) : Reader Unit := do
  let _ ← trySign s
  item
  whileTrue do
    if ← trySign s then
      item
      return true
    else return false

/-- A union of intersections. -/
def unionType (rules : Rules) : Reader Unit := do
  let bound := (← state).bound
  joinedTypes "|" (joinedTypes "&" (operatorType rules bound))

/-- A type with a condition behind it, if there is one. -/
def conditionalType (rules : Rules) : Reader Shape := do
  if ← onFunctionOrConstructorType rules then functionType rules
  else
    unionType rules
    if (← context).conditionalTypes && (← onWord "extends") && !(← token).afterLine then
      advance
      within (fun ctx => { ctx with conditionalTypes := false }) (type rules)
      sign "?"
      within (fun ctx => { ctx with conditionalTypes := true }) (type rules)
      sign ":"
      within (fun ctx => { ctx with conditionalTypes := true }) (type rules)
  return .plain

end CanvasSync.Script.Grammar
