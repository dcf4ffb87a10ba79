import CanvasSync.Script.Grammar.Expressions

/-!
Statements and declarations, up to whole modules.
-/

namespace CanvasSync.Script.Grammar

open Reader

/-- A statement that is the body of another one. -/
def body (rules : Rules) : Reader Unit := do
  let _ ← rules (.statement true)

/-- An expression in parentheses. -/
def condition (rules : Rules) : Reader Unit := do
  sign "("
  let _ ← within (fun ctx => { ctx with allowIn := true }) (rules .expression)
  sign ")"

/-- Statements up to a token that ends them. -/
def statementsUntil (rules : Rules) (ends : Token → Bool) : Reader Unit :=
  whileTrue do
    if ends (← token) then return false
    else
      let _ ← rules (.statement false)
      return true

/-- Whether a token is the brace that ends a block. -/
def endsBlock (t : Token) : Bool := t.isSign "\x7d" || t.kind = .finish

/-- Statements in braces. -/
def block (rules : Rules) : Reader Shape := do
  sign "\x7b"
  statementsUntil rules endsBlock
  sign "\x7d"
  return .plain

/-! ### Variables -/

/-- A variable with its annotation and its value. In a statement, a pattern and a constant need a
value. -/
def declarator (rules : Rules) (constant inLoop : Bool) : Reader Unit := do
  let t ← token
  let isPattern := t.isSign "[" || t.isSign "\x7b"
  bound rules
  if !isPattern && !(← token).afterLine then
    let _ ← trySign "!"
  annotation? rules
  if ← trySign "=" then
    let _ ← rules .assignment
  else complainIf (!inLoop && !(← context).ambient && (isPattern || constant))

/-- The variables of a declaration, from behind its keyword. -/
def declarators (rules : Rules) (constant inLoop : Bool) : Reader Unit := do
  declarator rules constant inLoop
  whileTrue do
    if ← trySign "," then
      declarator rules constant inLoop
      return true
    else return false

/-- A declaration of variables. -/
def variableDeclaration (rules : Rules) : Reader Unit := do
  let constant := (← token).isOneOf ["const", "using"]
  advance
  declarators rules constant false
  statementEnd

/-! ### Loops -/

/-- The head of a loop from behind the first semicolon, and its body. -/
def countedRest (rules : Rules) : Reader Unit := do
  let inside (r : Reader Shape) : Reader Unit := do
    let _ ← within (fun ctx => { ctx with allowIn := true }) r
  sign ";"
  if !(← onSign ";") then inside (rules .expression)
  sign ";"
  if !(← onSign ")") then inside (rules .expression)
  sign ")"
  body rules

/-- The head of a loop over a collection from its `in` or `of`, and its body. -/
def collectionRest (rules : Rules) (waits : Bool) : Reader Unit := do
  if ← tryWord "in" then
    complainIf waits
    let _ ← within (fun ctx => { ctx with allowIn := true }) (rules .expression)
  else
    word "of"
    assignmentIn rules
  sign ")"
  body rules

/-- What follows the first part of the head of a loop. -/
def loopRest (rules : Rules) (waits : Bool) : Reader Unit := do
  if (← onWord "in") || (← onWord "of") then collectionRest rules waits
  else
    complainIf waits
    countedRest rules

/-- Whether a token after `let` makes it a declaration. -/
def mayFollowLet (t : Token) : Bool :=
  t.isSign "\x7b" || t.isSign "["
    || (t.isName && !t.isWord "of" && !t.isWord "in")

/-- A loop with a head. -/
def forLoop (rules : Rules) : Reader Unit := do
  word "for"
  let waits ← do
    if ← onWord "await" then
      complainIf (!(← context).async)
      advance
      pure true
    else pure false
  sign "("
  let t ← token
  let next ← following
  if t.isSign ";" then
    complainIf waits
    countedRest rules
  else if t.isOneOf ["const", "var"] || (t.isWord "let" && mayFollowLet next)
      || (t.isWord "using" && next.isName && !next.isWord "of" && !next.afterLine) then
    advance
    within (fun ctx => { ctx with allowIn := false }) (declarators rules false true)
    loopRest rules waits
  else
    let s ← within (fun ctx => { ctx with allowIn := false }) (rules .expression)
    let u ← token
    if u.isWord "in" || u.isWord "of" then
      need (s.target ≠ .none)
      settle s.defaults
      if u.isWord "of" then
        complainIf ((!waits && t.isWord "async" && next.isWord "of")
          || (t.isWord "let" && next.isWord "of"))
    loopRest rules waits

/-! ### Declarations of types -/

/-- An alias of a type, from its keyword on. -/
def typeAlias (rules : Rules) : Reader Unit := do
  word "type"
  bindingName
  typeParameters? rules
  sign "="
  type rules
  statementEnd

/-- An interface, from its keyword on. -/
def interface (rules : Rules) : Reader Unit := do
  word "interface"
  bindingName
  typeParameters? rules
  whileTrue do
    if (← tryWord "extends") || (← tryWord "implements") then
      heritageTypes rules
      return true
    else return false
  typeMembers rules

/-- A member of an enumeration. -/
def enumMember (rules : Rules) : Reader Unit := do
  let t ← token
  match t.kind with
  | .word _ _ | .string _ => advance
  | .sign "[" =>
    advance
    match (← token).kind with
    | .string _ => advance
    | .templateEnd _ => advance
    | _ => fail
    sign "]"
  | _ => fail
  if ← trySign "=" then assignmentIn rules

/-- An enumeration, from its keyword on. -/
def enumeration (rules : Rules) : Reader Unit := do
  let _ ← tryWord "const"
  word "enum"
  bindingName
  sign "\x7b"
  separated "\x7d" "," (enumMember rules)
  sign "\x7d"

/-- The statements of a namespace, in braces. -/
def namespaceBody (rules : Rules) : Reader Unit := do
  let _ ← rules .block

/-- A namespace or a module, from its keyword on. -/
def namespaceFrom (rules : Rules) : Reader Unit := do
  let isGlobal ← onWord "global"
  let isModule ← onWord "module"
  advance
  if isGlobal then namespaceBody rules
  else
    match (← token).kind with
    | .string _ =>
      need isModule
      advance
      if ← onSign "\x7b" then namespaceBody rules else statementEnd
    | _ =>
      bindingName
      whileTrue do
        if ← trySign "." then
          anyWord
          return true
        else return false
      namespaceBody rules

/-- An import by assignment, from behind its keyword. -/
def importEquals : Reader Unit := do
  let t ← token
  let next ← following
  if t.isWord "type" && next.isName then advance
  bindingName
  sign "="
  if (← onWord "require") && (← following).isSign "(" then
    advance
    sign "("
    tokenWith fun t => match t.kind with
      | .string _ => true
      | _ => false
    sign ")"
  else dottedName
  statementEnd

/-- The words that may stand before a declaration. -/
def declarationModifiers : List String :=
  ["declare", "abstract", "async", "accessor", "private", "protected", "public", "readonly",
   "static", "override"]

/-- Whether a declaration begins at hand that a plain statement would not be read as; `n` bounds the
number of modifiers. -/
def onDeclaration : Nat → Reader Bool
  | 0 => return false
  | n + 1 => do
    let t ← token
    let next ← following
    if t.isOneOf ["var", "let", "const", "function", "class", "enum"] then return true
    else if t.isOneOf ["interface", "type"] then return next.isName && !next.afterLine
    else if t.isOneOf ["module", "namespace"] then
      return !next.afterLine && (next.isName || match next.kind with
        | .string _ => true
        | _ => false)
    else if t.isWord "global" then
      return next.isSign "\x7b" || next.isName || next.isWord "export"
    else if t.isWord "import" then
      return next.isName || next.isSign "*" || next.isSign "\x7b"
    else if t.isOneOf declarationModifiers then
      if next.afterLine then return false
      else
        advance
        onDeclaration n
    else return false

/-- A declaration, from its modifiers on; `n` bounds their number. -/
def declaration (rules : Rules) : Nat → Reader Unit
  | 0 => fail
  | n + 1 => do
    let t ← token
    let next ← following
    if t.isWord "declare" then
      advance
      within (fun ctx => { ctx with ambient := true }) (declaration rules n)
    else if t.isWord "async" && next.isWord "function" then
      advance
      let _ ← rules (.functionTail true true)
    else if t.isOneOf declarationModifiers then
      complainIf (!t.isWord "abstract")
      advance
      declaration rules n
    else if t.isWord "function" then
      let _ ← rules (.functionTail true false)
    else if t.isWord "class" then
      let _ ← rules (.classTail true)
    else if t.isWord "enum" || (t.isWord "const" && next.isWord "enum") then enumeration rules
    else if t.isOneOf ["var", "let", "const"] then variableDeclaration rules
    else if t.isWord "interface" then interface rules
    else if t.isWord "type" then typeAlias rules
    else if t.isOneOf ["module", "namespace", "global"] then namespaceFrom rules
    else if t.isWord "import" then
      advance
      importEquals
    else fail

/-! ### Imports and exports -/

/-- A string. -/
def stringLiteral : Reader Unit := tokenWith fun t =>
  match t.kind with
  | .string _ => true
  | _ => false

/-- Attributes of an import, if there are any. -/
def importAttributes? : Reader Unit := do
  let t ← token
  if t.isWord "with" || (t.isWord "assert" && !t.afterLine) then
    advance
    sign "\x7b"
    separated "\x7d" "," do
      tokenWith fun t => t.isAnyWord || match t.kind with
        | .string _ => true
        | _ => false
      sign ":"
      stringLiteral
    sign "\x7d"

/-- The module that is imported from, and the end of the statement. -/
def source : Reader Unit := do
  stringLiteral
  importAttributes?
  statementEnd

/-- Whether a token can name an import or an export: a word or a string. -/
def isModuleName (t : Token) : Bool := t.isAnyWord || match t.kind with
  | .string _ => true
  | _ => false

/-- A name of a module's own or a string. -/
def moduleName : Reader Unit := tokenWith isModuleName

/-- The mark of a type before a name in braces, where it is one and not the name itself. -/
def typeMark : Reader Unit := do
  let t ← token
  if t.isWord "type" then
    let (next, third) ← followingTwo
    if isModuleName next && !(next.isWord "as" && isModuleName third) then advance

/-- The words `type as as` before a name or, the middle one renaming the first to the last, by
themselves; tells whether they stand here. -/
def typeAsAs (name : Reader Unit) : Reader Bool := do
  let t ← token
  let (next, third) ← followingTwo
  if t.isWord "type" && next.isWord "as" && third.isWord "as" then
    advance
    advance
    advance
    if isModuleName (← token) then name
    return true
  else return false

/-- A name in the braces of an import. -/
def importName : Reader Unit := do
  if ← typeAsAs bindingName then return
  typeMark
  let t ← token
  if (← following).isWord "as" then
    moduleName
    word "as"
    bindingName
  else
    need t.isName
    bindingName

/-- A name in the braces of an export; tells whether it could be a name of this module. -/
def exportName (allLocal : Bool) : Reader Bool := do
  if ← typeAsAs moduleName then return allLocal
  typeMark
  let t ← token
  moduleName
  if ← tryWord "as" then moduleName
  return allLocal && t.isName

/-- All of a module under a name. -/
def namespaceImport : Reader Unit := do
  sign "*"
  word "as"
  bindingName

/-- Names in braces. -/
def namedImports : Reader Unit := do
  sign "\x7b"
  separated "\x7d" "," importName
  sign "\x7d"

/-- An import, from its keyword on. -/
def importDeclaration : Reader Unit := do
  word "import"
  let t ← token
  let (next, third) ← followingTwo
  if (t.isName && next.isSign "=") || (t.isWord "type" && next.isName && third.isSign "=") then
    importEquals
  else
    match t.kind with
    | .string _ => source
    | _ =>
      if t.isWord "type" && (next.isSign "\x7b" || next.isSign "*"
          || (next.isName && !next.isWord "from") || (next.isWord "from" && third.isWord "from"))
      then advance
      else if (t.isWord "defer" && next.isSign "*")
          || (t.isWord "source" && next.isName && (!next.isWord "from" || third.isWord "from"))
      then advance
      if (← token).isName then
        bindingName
        if ← trySign "," then
          if ← onSign "*" then namespaceImport else namedImports
      else if ← onSign "*" then namespaceImport
      else namedImports
      word "from"
      source

/-- Remembers the span of the first default export. -/
def recordDefault (span : Span) : Reader Unit := change fun s =>
  { s with defaultExport := s.defaultExport.or (some span) }

/-- What a module exports by default, from behind the keyword. The export counts from its start,
before any that stands within it. -/
def exportDefault (rules : Rules) (start : Nat) : Reader Unit := do
  let outer := (← state).defaultExport
  word "default"
  decorators rules
  let t ← token
  let next ← following
  if t.isWord "class" || (t.isWord "abstract" && next.isWord "class") then
    let _ ← tryWord "abstract"
    let _ ← rules (.classTail false)
  else if t.isWord "interface" && !next.afterLine then interface rules
  else if t.isWord "function" then
    let _ ← rules (.functionTail false false)
  else if t.isWord "async" && next.isWord "function" && !next.afterLine then
    advance
    let _ ← rules (.functionTail false true)
  else
    assignmentIn rules
    statementEnd
  change fun s => { s with defaultExport := outer }
  recordDefault ⟨start, ← lastStop⟩

/-- An export, from its keyword on. -/
def exportDeclaration (rules : Rules) : Reader Unit := do
  let start ← start
  word "export"
  let t ← token
  let next ← following
  if t.isWord "import" then
    advance
    importEquals
  else if t.isSign "=" then
    advance
    assignmentIn rules
    statementEnd
  else if t.isWord "as" && next.isWord "namespace" then
    advance
    advance
    bindingName
    statementEnd
  else if t.isWord "default" then exportDefault rules start
  else if t.isSign "*" || (t.isWord "type" && next.isSign "*") then
    let _ ← tryWord "type"
    sign "*"
    if ← tryWord "as" then moduleName
    word "from"
    source
  else if t.isSign "\x7b" || (t.isWord "type" && next.isSign "\x7b") then
    let _ ← tryWord "type"
    sign "\x7b"
    let allLocal ← foldSeparated "\x7d" "," exportName true
    sign "\x7d"
    if ← tryWord "from" then source
    else
      complainIf (!allLocal)
      statementEnd
  else
    decorators rules
    declaration rules (← state).bound

/-! ### Statements -/

/-- A clause of a choice: a value or the default, and statements. -/
def clause (rules : Rules) : Reader Unit := do
  if ← tryWord "default" then pure ()
  else
    word "case"
    let _ ← within (fun ctx => { ctx with allowIn := true }) (rules .expression)
  sign ":"
  statementsUntil rules fun t => endsBlock t || t.isOneOf ["case", "default"]

/-- A choice between clauses. -/
def choice (rules : Rules) : Reader Unit := do
  word "switch"
  condition rules
  sign "\x7b"
  whileTrue do
    if ← onSign "\x7d" then return false
    else
      clause rules
      return true
  sign "\x7d"

/-- A block whose exceptions are caught or followed by a last block. -/
def guarded (rules : Rules) : Reader Unit := do
  word "try"
  let _ ← rules .block
  let caught ← tryWord "catch"
  if caught then
    if ← trySign "(" then
      bound rules
      annotation? rules
      sign ")"
    let _ ← rules .block
  let finished ← tryWord "finally"
  if finished then
    let _ ← rules .block
  complainIf (!caught && !finished)

/-- A jump to a label, or out of what stands around. -/
def jump : Reader Unit := do
  advance
  if !(← mayEnd) then bindingName
  statementEnd

/-- An expression as a statement, or a statement with a label. -/
def expressionStatement (rules : Rules) : Reader Unit := do
  let s ← within (fun ctx => { ctx with allowIn := true }) (rules .expression)
  if s.isName && (← onSign ":") then
    advance
    body rules
  else statementEnd

/-- Whether `let` at hand begins a declaration. -/
def onLetDeclaration (alone : Bool) : Reader Bool := do
  let next ← following
  if (operatorLevel? next).isSome || assignmentSigns.any next.isSign then return false
  else if next.isSign "." || next.isSign "(" then return false
  else if (alone && !next.isSign "[") || next.isSign ";" then return false
  else return true

/-- A statement; `alone` if it is the body of another one, where nothing can be declared. -/
def statement (rules : Rules) (alone : Bool) : Reader Shape := do
  let t ← token
  let next ← following
  let declares (r : Reader Unit) : Reader Unit := do
    r
    complainIf alone
  match t.kind with
  | .sign "\x7b" =>
    let _ ← rules .block
  | .sign ";" => advance
  | .sign "@" =>
    decorators rules
    if ← onWord "export" then exportDeclaration rules
    else
      need ((← onWord "class") || (← onWord "abstract") || (← onWord "declare"))
      declaration rules (← state).bound
  | .word w escaped =>
    if escaped then expressionStatement rules
    else if w = "if" then
      advance
      condition rules
      body rules
      if ← tryWord "else" then body rules
    else if w = "do" then
      advance
      body rules
      word "while"
      condition rules
      let _ ← trySign ";"
    else if w = "while" then
      advance
      condition rules
      body rules
    else if w = "for" then forLoop rules
    else if w = "continue" || w = "break" then jump
    else if w = "with" then
      advance
      condition rules
      body rules
    else if w = "switch" then choice rules
    else if w = "throw" then
      advance
      complainIf (← token).afterLine
      let _ ← within (fun ctx => { ctx with allowIn := true }) (rules .expression)
      statementEnd
    else if w = "try" then guarded rules
    else if w = "debugger" then
      advance
      statementEnd
    else if w = "return" then
      complainIf (!(← context).function)
      advance
      if !(← mayEnd) then
        let _ ← within (fun ctx => { ctx with allowIn := true }) (rules .expression)
      statementEnd
    else if w = "class" then
      declares do
        let _ ← rules (.classTail true)
    else if w = "export" then exportDeclaration rules
    else if w = "import" && !next.isSign "." && !next.isSign "(" then importDeclaration
    else if w = "var" then variableDeclaration rules
    else if w = "const" then
      if next.isWord "enum" then enumeration rules
      else declares (variableDeclaration rules)
    else if w = "let" then
      if ← onLetDeclaration alone then declares (variableDeclaration rules)
      else expressionStatement rules
    else if w = "using" && next.isName && !next.afterLine then declares (variableDeclaration rules)
    else if w = "await" && next.isWord "using" && (← followingTwo).2.isName then
      advance
      declares (variableDeclaration rules)
    else if w = "function" then
      let _ ← rules (.functionTail true false)
    else if w = "async" && next.isWord "function" && !next.afterLine then
      advance
      complainIf alone
      let _ ← rules (.functionTail true true)
    else
      let bound := (← state).bound
      if ← looking (onDeclaration bound) then declaration rules bound
      else expressionStatement rules
  | _ => expressionStatement rules
  return .plain

/-- All statements up to the end of the text. -/
def module (rules : Rules) : Reader Unit :=
  statementsUntil rules fun t => t.kind = .finish

end CanvasSync.Script.Grammar
