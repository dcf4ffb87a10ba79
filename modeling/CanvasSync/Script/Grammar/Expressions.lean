import CanvasSync.Script.Grammar.Classes

/-!
Expressions.

Whether a parenthesis opens the parameters of an arrow function is first told from a few tokens; if
they leave it open, the parameters are tried, and the arrow behind them decides.
-/

namespace CanvasSync.Script.Grammar

open Reader

/-! ### Literals -/

/-- What the elements of an array or object literal so far say about it as a pattern: the defaults
within, or nothing if it is none, and whether the last one was a spread. -/
structure Cover where
  defaults : Option (List Nat)
  spread : Bool

/-- No elements yet. -/
def Cover.empty : Cover := ⟨some [], false⟩

/-- One more element; only the last one may be a spread. -/
def Cover.add (c : Cover) (element : Option (List Nat)) (spread : Bool) : Cover :=
  match c.defaults, element with
  | some ds, some es => ⟨if c.spread then none else some (ds ++ es), spread⟩
  | _, _ => ⟨none, spread⟩

/-- The shape of an array or object literal. -/
def Cover.shape (c : Cover) : Shape :=
  match c.defaults with
  | some ds => { Shape.plain with target := .destructuring, defaults := ds }
  | none => .plain

/-- An assignment with `in` as an operator, and its shape. -/
def element (rules : Rules) : Reader Shape :=
  within (fun ctx => { ctx with allowIn := true, decorator := false }) (rules .assignment)

/-- What a spread says about a literal as a pattern. -/
def spreadTarget (s : Shape) : Option (List Nat) :=
  if s.target = .none then none else some s.defaults

/-- An element of an array literal. -/
def arrayItem (rules : Rules) (c : Cover) : Reader Cover := do
  if (← onSign ",") || (← onSign "]") then return c.add (some []) false
  else if ← trySign "..." then return c.add (spreadTarget (← element rules)) true
  else return c.add (← element rules).asElement? false

/-- An array literal. -/
def arrayLiteral (rules : Rules) : Reader Shape := do
  sign "["
  let c ← foldSeparated "]" "," (arrayItem rules) .empty
  sign "]"
  return c.shape

/-- A property of an object literal. -/
def objectItem (rules : Rules) (c : Cover) : Reader Cover := do
  let t ← token
  let next ← following
  if ← trySign "..." then return c.add (spreadTarget (← element rules)) true
  else if t.isOneOf ["get", "set"] && next.startsMemberName then
    advance
    propertyName rules
    method rules false false
    return c.add none false
  else if t.isWord "async" && (next.startsMemberName || next.isSign "*") && !next.afterLine then
    advance
    let generator ← trySign "*"
    propertyName rules
    method rules generator true
    return c.add none false
  else if ← trySign "*" then
    propertyName rules
    method rules true false
    return c.add none false
  else if t.isName && !([":", "(", "<", "<<", "."].any next.isSign) then
    bindingName
    if ← onSign "=" then
      noteDefault t.span.start
      advance
      let _ ← element rules
      return c.add (some [t.span.start]) false
    else return c.add (some []) false
  else
    need (t.kind ≠ .privateName)
    propertyName rules
    if ← trySign ":" then return c.add (← element rules).asElement? false
    else
      need ((← onSign "(") || (← onAngle))
      method rules false false
      return c.add none false

/-- An object literal. -/
def objectLiteral (rules : Rules) : Reader Shape := do
  sign "\x7b"
  let c ← foldSeparated "\x7d" "," (objectItem rules) .empty
  sign "\x7d"
  return c.shape

/-- The parts of a template; one without a tag must not have malformed escapes. -/
def template (rules : Rules) (tagged : Bool) : Reader Unit :=
  whileTrue do
    match (← token).kind with
    | .templatePart cooked =>
      complainIf (!tagged && !cooked)
      advance
      let _ ← within (fun ctx => { ctx with allowIn := true, decorator := false })
        (rules .expression)
      need (← onSign "\x7d")
      rereadTemplate
      return true
    | .templateEnd cooked =>
      complainIf (!tagged && !cooked)
      advance
      return false
    | _ => fail

/-! ### Calls and members -/

/-- Whether an expression may begin with a token. -/
def startsExpression (t next : Token) : Bool :=
  t.isLiteral || t.isTemplate || t.isName || t.kind = .privateName
    || t.isOneOf ["this", "super", "function", "class", "new", "delete", "typeof", "void"]
    || (t.isWord "import" && (next.isSign "(" || next.isSign "<" || next.isSign "."))
    || ["(", "[", "\x7b", "/", "/=", "+", "-", "~", "!", "++", "--", "<", "@"].any t.isSign

/-- The level at which an operator binds; a higher one binds tighter. -/
def operatorLevel? (t : Token) : Option Nat :=
  match t.kind with
  | .sign s =>
    if s = "??" then some 1
    else if s = "||" then some 2
    else if s = "&&" then some 3
    else if s = "|" then some 4
    else if s = "^" then some 5
    else if s = "&" then some 6
    else if ["==", "!=", "===", "!=="].contains s then some 7
    else if ["<", ">", "<=", ">="].contains s then some 8
    else if ["<<", ">>", ">>>"].contains s then some 9
    else if ["+", "-"].contains s then some 10
    else if ["*", "/", "%"].contains s then some 11
    else if s = "**" then some 12
    else none
  | .word _ _ => if t.isOneOf ["instanceof", "in", "as", "satisfies"] then some 8 else none
  | _ => none

/-- Whether the token at hand is an operator between two expressions. -/
def onOperator : Reader Bool := do
  let t ← token
  return (operatorLevel? t).isSome && ((← context).allowIn || !t.isWord "in")

/-- Whether type arguments in an expression may end before the token at hand. -/
def mayFollowTypeArguments : Reader Bool := do
  let t ← token
  if t.isSign "(" || t.isTemplate then return true
  else if ["<", ">", "+", "-"].any t.isSign then return false
  else return t.afterLine || (← onOperator) || !startsExpression t (← following)

/-- Type arguments in an expression, where a comparison may stand too. -/
def expressionTypeArguments (rules : Rules) : Reader Unit := do
  openAngle
  separated ">" "," (type rules)
  need (← onSign ">")
  reread Lexer.joined
  sign ">"
  need (← mayFollowTypeArguments)

/-- Arguments in parentheses. -/
def arguments (rules : Rules) : Reader Unit := do
  sign "("
  separated ")" "," do
    let _ ← trySign "..."
    let _ ← element rules
  sign ")"

/-- An expression in brackets. -/
def bracketed (rules : Rules) : Reader Unit := do
  sign "["
  let _ ← within (fun ctx => { ctx with allowIn := true }) (rules .expression)
  sign "]"

/-- A name of a member, which may be private. -/
def memberName : Reader Unit := tokenWith fun t => t.isAnyWord || t.kind = .privateName

/-- What stands behind an expression: members, arguments, templates and type arguments; `calls`
tells whether arguments may stand there, and `optional` whether a question mark with a point stood
before. -/
def suffixes (rules : Rules) (calls : Bool) : Nat → Bool → Shape → Reader (Shape × Bool)
  | 0, _, _ => fail
  | n + 1, optional, s => do
    let member : Shape := if optional then .plain else .simple
    let t ← token
    if t.isSign "." then
      advance
      memberName
      suffixes rules calls n optional member
    else if t.isSign "[" && !(← context).decorator then
      bracketed rules
      suffixes rules calls n optional member
    else if t.isSign "!" && !t.afterLine then
      advance
      suffixes rules calls n optional .simple
    else if t.isTemplate then
      complainIf optional
      template rules true
      suffixes rules calls n optional .plain
    else if t.isSign "?." then
      let next ← following
      if next.isSign "[" then
        advance
        bracketed rules
        suffixes rules calls n true .plain
      else if next.isAnyWord || next.kind = .privateName then
        advance
        memberName
        suffixes rules calls n true .plain
      else if calls then
        advance
        if ← onAngle then
          let _ ← attempt? (expressionTypeArguments rules)
        if (← token).isTemplate then
          complain
          template rules true
        else arguments rules
        suffixes rules calls n true .plain
      else return (s, true)
    else if t.isSign "(" && calls then
      arguments rules
      suffixes rules calls n optional .plain
    else if ← onAngle then
      match ← attempt? (expressionTypeArguments rules) with
      | some () => suffixes rules calls n optional .simple
      | none => return (s, optional)
    else return (s, optional)

/-- Parentheses around an expression. -/
def parenthesized (rules : Rules) : Reader Shape := do
  sign "("
  let s ← within (fun ctx => { ctx with allowIn := true, decorator := false }) (rules .expression)
  sign ")"
  return { Shape.plain with target := if s.target = .simple then .simple else .none }

/-- A name or a word that stands for a value. -/
def identifier : Reader Shape := do
  bindingName
  return .name

/-- The import of a module as an expression, or what is known about the module at hand. -/
def importExpression (rules : Rules) : Reader Shape := do
  word "import"
  if ← trySign "." then
    if ← tryWord "meta" then return .plain
    else
      need ((← onWord "source") || (← onWord "defer"))
      advance
  sign "("
  let _ ← element rules
  if ← trySign "," then
    if !(← onSign ")") then
      let _ ← element rules
      let _ ← trySign ","
  sign ")"
  return .plain

/-- An expression without operators, members or arguments. -/
def primary (rules : Rules) (newExpression : Reader Shape) : Reader Shape := do
  let t ← token
  match t.kind with
  | .string value =>
    advance
    return { Shape.plain with string := some value }
  | .number | .bigInteger | .pattern =>
    advance
    return .plain
  | .templatePart _ | .templateEnd _ =>
    template rules false
    return .plain
  | .sign "/" | .sign "/=" =>
    reread fun c => Lexer.pattern? c.step
    need ((← token).kind = .pattern)
    advance
    return .plain
  | .sign "[" => arrayLiteral rules
  | .sign "\x7b" => objectLiteral rules
  | .sign "(" => parenthesized rules
  | .sign "@" =>
    decorators rules
    rules (.classTail false)
  | .word w _ =>
    if w = "function" then rules (.functionTail false false)
    else if w = "class" then rules (.classTail false)
    else if w = "new" then newExpression
    else if w = "import" then importExpression rules
    else if w = "super" then
      advance
      let t ← token
      complainIf (!(["(", "[", "."].any t.isSign))
      return .plain
    else if ["this", "null", "true", "false"].contains w then
      advance
      return .plain
    else
      let next ← following
      if w = "async" && next.isWord "function" && !next.afterLine then
        advance
        rules (.functionTail false true)
      else identifier
  | _ => fail

/-- The creation of an object; `n` bounds how many of them stand in a row. -/
def newExpression (rules : Rules) : Nat → Reader Shape
  | 0 => fail
  | n + 1 => do
    word "new"
    if ← trySign "." then
      word "target"
      return .plain
    else
      complainIf ((← onWord "import") && (← following).isSign "(")
      let s ← primary rules (newExpression rules n)
      let (_, optional) ← suffixes rules false (← state).bound false s
      complainIf optional
      if ← onSign "(" then arguments rules
      return .plain

/-- An expression with its members and arguments. -/
def call (rules : Rules) : Reader Shape := do
  let bound := (← state).bound
  let s ← primary rules (newExpression rules bound)
  return (← suffixes rules true bound false s).1

/-! ### Operators -/

/-- Whether what follows a word on the same line makes it an operator. -/
def operandFollows : Reader Bool := do
  let next ← following
  return !next.afterLine && (next.isAnyWord || next.isLiteral)

/-- An expression that is waited for. -/
def awaitExpression (rules : Rules) : Reader Shape := do
  complainIf (!(← context).async)
  advance
  let _ ← within (fun ctx => { ctx with async := true }) (rules .unary)
  return .plain

/-- An expression with its operators before and behind. -/
def unary (rules : Rules) : Reader Shape := do
  let t ← token
  if ["+", "-", "~", "!"].any t.isSign || t.isOneOf ["delete", "typeof", "void"] then
    advance
    let _ ← rules .unary
    need (!(← onSign "**"))
    return .plain
  else if t.isSign "++" || t.isSign "--" then
    advance
    let s ← rules .unary
    need (s.target = .simple)
    return .plain
  else if t.isSign "<" then
    let _ ← rules (.markup false)
    return .plain
  else if t.isWord "await" && ((← context).async || (← operandFollows)) then awaitExpression rules
  else
    let s ← rules .call
    let t ← token
    if (t.isSign "++" || t.isSign "--") && !t.afterLine then
      need (s.target = .simple)
      advance
      return .plain
    else return s

/-- The operators that follow an expression as long as they bind tighter than a level; `n` bounds
their number. -/
def binaryRest (rules : Rules) (level : Nat) : Nat → Shape → Reader Shape
  | 0, _ => fail
  | n + 1, left => do
    if ← onSign ">" then reread Lexer.joined
    let t ← token
    match operatorLevel? t with
    | none => return left
    | some l =>
      let stops := if l = 12 then l < level else l ≤ level
      if stops || (t.isWord "in" && !(← context).allowIn) then return left
      else if t.isOneOf ["as", "satisfies"] then
        if t.afterLine then return left
        else
          advance
          type rules
          binaryRest rules level n .simple
      else
        advance
        let right ← rules (.binary l)
        let coalescing := l = 1
        let logical := l = 2 || l = 3
        complainIf
          ((coalescing && (left.isLogical || right.isLogical))
            || (logical && (left.isCoalescing || right.isCoalescing)))
        binaryRest rules level n
          { Shape.plain with isLogical := logical, isCoalescing := coalescing }

/-- An expression with operators that bind tighter than a level. -/
def binary (rules : Rules) (level : Nat) : Reader Shape := do
  let t ← token
  let left ←
    if t.kind = .privateName && (← context).allowIn then do
      advance
      need (← onWord "in")
      pure Shape.plain
    else rules .unary
  binaryRest rules level (← state).bound left

/-! ### Arrow functions -/

/-- What a few tokens tell about an arrow function with parentheses: that there is one, that there
is none, or nothing. -/
def arrowAhead : Reader (Option Bool) := fun ctx s =>
  match look ctx s with
  | some (r, _) => some (r, s)
  | none => some (some false, s)
where
  /-- The same, taking the tokens. -/
  look : Reader (Option Bool) := do
    if ← tryWord "async" then
      let t ← token
      if t.afterLine || !(t.isSign "(" || t.isSign "<") then return some false
    let first ← token
    advance
    let second ← token
    if first.isSign "(" then
      if second.isSign ")" then
        advance
        let third ← token
        return if third.isSign ":" then none
          else some (third.isSign "=>" || third.isSign "\x7b")
      else if second.isSign "[" || second.isSign "\x7b" then return none
      else if second.isSign "..." then
        advance
        let third ← token
        return if third.isLiteral then some false
          else if third.isName then some true
          else none
      else
        advance
        let third ← token
        let modifier := second.isOneOf ["public", "private", "protected", "readonly", "override",
          "declare", "abstract", "static", "accessor", "export", "default", "const", "in", "out"]
        if modifier && third.isName then return some (!third.isWord "as")
        else if !(second.isName || second.isWord "this") then return some false
        else if third.isSign ":" then return some true
        else if third.isSign "?" then
          advance
          let fourth ← token
          return some ([":", ",", "=", ")"].any fourth.isSign)
        else if [",", "=", ")"].any third.isSign then return none
        else return some false
    else if first.isSign "<" then
      if !(second.isName || second.isWord "const") then return some false
      if second.isWord "const" then advance
      advance
      let third ← token
      if third.isWord "extends" then
        advance
        let fourth ← token
        return some (!(["=", ">", "/"].any fourth.isSign))
      else return some (third.isSign "," || third.isSign "=")
    else return some false

/-- An arrow function up to its arrow; tells whether it is asynchronous. -/
def arrowHead (rules : Rules) : Reader Bool := do
  let async ← tryWord "async"
  within (fun ctx => { ctx with async := async, decorator := false }) do
    typeParameters? rules
    let _ ← rules .parameters
    returnAnnotation? rules
  complainIf (← token).afterLine
  sign "=>"
  return async

/-- The body of an arrow function: statements in braces, or an expression. -/
def arrowBody (rules : Rules) (async : Bool) : Reader Shape := do
  if ← onSign "\x7b" then
    within (inFunction false async) (functionBody rules)
  else
    let _ ← within (fun ctx => { ctx with async := async, generator := false })
      (rules .assignment)
  return .plain

/-- An arrow function with parentheses, if there is one. -/
def parenthesizedArrow? (rules : Rules) : Reader (Option Shape) := do
  let t ← token
  if !(t.isSign "(" || t.isSign "<" || t.isWord "async") then return none
  match ← arrowAhead with
  | some false => return none
  | some true =>
    let async ← arrowHead rules
    return some (← arrowBody rules async)
  | none =>
    match ← attempt? (arrowHead rules) with
    | some async => return some (← arrowBody rules async)
    | none => return none

/-- The arrow and the body of a function whose one parameter stands before them. -/
def simpleArrow (rules : Rules) (async : Bool) : Reader Shape := do
  complainIf (← token).afterLine
  sign "=>"
  arrowBody rules async

/-! ### Assignments -/

/-- The operators that assign. -/
def assignmentSigns : List String :=
  ["=", "+=", "-=", "*=", "**=", "/=", "%=", "<<=", ">>=", ">>>=", "&=", "|=", "^=", "&&=", "||=",
   "??="]

/-- The value that a generator hands out. -/
def yieldExpression (rules : Rules) : Reader Shape := do
  complainIf (!(← context).generator)
  advance
  let t ← token
  if !t.afterLine then
    let delegates ← trySign "*"
    let t ← token
    let ends := t.kind = .finish || t.isWord "in"
      || [";", "\x7d", "]", ")", ":", ","].any t.isSign
    if delegates || !ends then
      let _ ← within (fun ctx => { ctx with generator := true }) (rules .assignment)
  return .plain

/-- A condition behind an expression, if there is one. -/
def conditionRest (rules : Rules) (s : Shape) : Reader Shape := do
  if ← trySign "?" then
    assignmentIn rules
    sign ":"
    let _ ← rules .assignment
    return .plain
  else return s

/-- An assignment, an arrow function, a condition or a simpler expression. -/
def assignment (rules : Rules) : Reader Shape := do
  if (← onWord "yield") && ((← context).generator || (← operandFollows)) then
    return ← yieldExpression rules
  match ← parenthesizedArrow? rules with
  | some s => return s
  | none =>
    let (next, third) ← followingTwo
    if (← onWord "async") && next.isName && !next.afterLine && third.isSign "=>" then
      advance
      within (fun ctx => { ctx with async := false }) bindingName
      simpleArrow rules true
    else
      let left ← rules (.binary 0)
      let t ← token
      if left.isName && t.isSign "=>" then simpleArrow rules false
      else if assignmentSigns.any t.isSign then
        if t.isSign "=" then
          need (left.target ≠ .none)
          settle left.defaults
        else need (left.target = .simple)
        advance
        let _ ← rules .assignment
        return { Shape.plain with isAssignment := t.isSign "=" }
      else conditionRest rules left

/-- Assignments with commas between them. -/
def expression (rules : Rules) : Reader Shape := do
  let s ← rules .assignment
  if ← onSign "," then
    whileTrue do
      if ← trySign "," then
        let _ ← rules .assignment
        return true
      else return false
    return { Shape.plain with isSequence := true }
  else return s

end CanvasSync.Script.Grammar
