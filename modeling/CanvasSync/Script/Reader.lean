import CanvasSync.Markup.Tree
import CanvasSync.Script.Lexer

/-!
Readers of tokens.

A `Reader` takes tokens from a `State` under a `Context`, or refuses. Trying a reader and going on
where it began is no more than keeping the old state. A reader may also `complain`: it goes on, but
the script as a whole is refused.

* `Shape`: what a reader says about the expression it has read;
* `Rule`: the parts of the grammar that contain each other;
* `Rules`: a reader for every such part.
-/

namespace CanvasSync.Script

/-- What the surroundings allow. -/
structure Context where
  /-- Whether `in` is an operator. -/
  allowIn : Bool
  /-- Whether `yield` is an operator. -/
  generator : Bool
  /-- Whether `await` is an operator. -/
  async : Bool
  /-- Whether there is a function to return from. -/
  function : Bool
  /-- Whether things are declared without being defined. -/
  ambient : Bool
  /-- Whether a condition may follow a type. -/
  conditionalTypes : Bool
  /-- Whether the expression of a decorator is read. -/
  decorator : Bool
  deriving DecidableEq, Repr

/-- The context of a module. -/
def Context.module : Context :=
  { allowIn := true, generator := false, async := true, function := false, ambient := false,
    conditionalTypes := true, decorator := false }

/-- Where the reader of a script stands. -/
structure State where
  /-- The token at hand. -/
  token : Token
  /-- The place where the token at hand begins. -/
  here : Cursor
  /-- The place after the token at hand. -/
  after : Cursor
  /-- Where the token before ended. -/
  lastStop : Nat
  /-- The markup read so far at this level, last first. -/
  trees : List Markup.Tree
  /-- The span of the first default export. -/
  defaultExport : Option Span
  /-- Where defaults stand in object literals that are not yet known to be patterns. -/
  defaults : List Nat
  /-- Whether the script is refused although reading goes on. -/
  refused : Bool
  /-- More than the number of tokens of the script. -/
  bound : Nat

/-- A reader of tokens. -/
abbrev Reader (α : Type) := Context → State → Option (α × State)

namespace Reader

instance : Monad Reader where
  pure a := fun _ s => some (a, s)
  bind r f := fun ctx s =>
    match r ctx s with
    | some (a, s) => f a ctx s
    | none => none

/-- Refuses. -/
def fail {α : Type} : Reader α := fun _ _ => none

/-- The state at hand. -/
def state : Reader State := fun _ s => some (s, s)

/-- The context at hand. -/
def context : Reader Context := fun ctx s => some (ctx, s)

/-- Changes the state. -/
def change (f : State → State) : Reader Unit := fun _ s => some ((), f s)

/-- Notes that a default stands in an object literal. -/
def noteDefault (offset : Nat) : Reader Unit := change fun s =>
  { s with defaults := offset :: s.defaults }

/-- Takes note that defaults stand in a pattern, where they belong. -/
def settle (offsets : List Nat) : Reader Unit := change fun s =>
  { s with defaults := s.defaults.filter fun o => !offsets.contains o }

/-- Reads in another context. -/
def within {α : Type} (f : Context → Context) (r : Reader α) : Reader α := fun ctx s => r (f ctx) s

/-- Refuses the script but goes on. -/
def complain : Reader Unit := change fun s => { s with refused := true }

/-- Complains if a condition holds. -/
def complainIf (b : Bool) : Reader Unit := if b then complain else pure ()

/-- Goes on only if a condition holds. -/
def need (b : Bool) : Reader Unit := if b then pure () else fail

/-- Reads, or goes on where it began. -/
def attempt? {α : Type} (r : Reader α) : Reader (Option α) := fun ctx s =>
  match r ctx s with
  | some (a, s) => some (some a, s)
  | none => some (none, s)

/-- Whether a reader would succeed with `true`; nothing is taken. -/
def looking (r : Reader Bool) : Reader Bool := fun ctx s =>
  match r ctx s with
  | some (b, _) => some (b, s)
  | none => some (false, s)

/-- Repeats a reader while it gives `true`, at most `n` times. -/
def times : Nat → Reader Bool → Reader Unit
  | 0, _ => fail
  | n + 1, r => do if ← r then times n r else pure ()

/-- Repeats a reader while it gives `true`. -/
def whileTrue (r : Reader Bool) : Reader Unit := fun ctx s => times s.bound r ctx s

/-- The token at hand. -/
def token : Reader Token := fun _ s => some (s.token, s)

/-- The offset at which the token at hand begins. -/
def start : Reader Nat := fun _ s => some (s.token.span.start, s)

/-- The offset at which the token before ended. -/
def lastStop : Reader Nat := fun _ s => some (s.lastStop, s)

/-- The state whose token is found by one of the functions of the lexer. -/
def State.moved (s : State) (read : Cursor → Token × Cursor × Cursor) : State :=
  let (t, here, after) := read s.after
  { s with token := t, here := here, after := after, lastStop := s.token.span.stop }

/-- Goes to the next token. -/
def advance : Reader Unit := change fun s => State.moved s Lexer.next

/-- Goes to the next token between tags. -/
def advanceInMarkup : Reader Unit := change fun s => State.moved s Lexer.nextMarkup

/-- Goes to the next token as the value of an attribute. -/
def advanceToValue : Reader Unit := change fun s => State.moved s Lexer.nextValue

/-- The token after the one at hand. -/
def following : Reader Token := fun _ s => some ((Lexer.next s.after).1, s)

/-- The two tokens after the one at hand. -/
def followingTwo : Reader (Token × Token) := fun _ s =>
  let (t, _, c) := Lexer.next s.after
  some ((t, (Lexer.next c).1), s)

/-- Reads the token at hand anew, from its beginning. -/
def reread (read : Cursor → Option (Kind × Cursor)) : Reader Unit := change fun s =>
  let (t, c) := Lexer.tokenAt s.token.afterLine s.here (read s.here)
  { s with token := t, after := c }

/-- Whether the token at hand is a given sign. -/
def onSign (s : String) : Reader Bool := fun _ st => some (st.token.isSign s, st)

/-- Whether the token at hand is a given word. -/
def onWord (w : String) : Reader Bool := fun _ st => some (st.token.isWord w, st)

/-- Takes a given sign if it is at hand. -/
def trySign (s : String) : Reader Bool := do
  if ← onSign s then
    advance
    return true
  else return false

/-- Takes a given word if it is at hand. -/
def tryWord (w : String) : Reader Bool := do
  if ← onWord w then
    advance
    return true
  else return false

/-- Takes a given sign. -/
def sign (s : String) : Reader Unit := do need (← trySign s)

/-- Takes a given word. -/
def word (w : String) : Reader Unit := do need (← tryWord w)

/-- Takes a token with a property. -/
def tokenWith (p : Token → Bool) : Reader Unit := do
  need (p (← token))
  advance

/-- Whether a statement may end before the token at hand without a semicolon. -/
def mayEnd : Reader Bool := fun _ s =>
  let t := s.token
  some (t.isSign ";" || t.isSign "\x7d" || t.kind = .finish || t.afterLine, s)

/-- Ends a statement: with a semicolon, or where none is needed. -/
def statementEnd : Reader Unit := do
  need (← mayEnd)
  let _ ← trySign ";"

/-- The items from behind the first one on: a separator and an item each, up to a closing sign,
which is left at hand. A separator may also stand before the closing sign. At most `n` items are
read. -/
def foldRest {α : Type} (close separator : String) (item : α → Reader α) : Nat → α → Reader α
  | 0, _ => fail
  | n + 1, a => do
    if ← onSign close then return a
    sign separator
    if ← onSign close then return a
    foldRest close separator item n (← item a)

/-- Items with separators between them up to a closing sign, which is left at hand; each item adds
to what those before it came to. -/
def foldSeparated {α : Type} (close separator : String) (item : α → Reader α) (a : α) :
    Reader α := do
  if ← onSign close then return a
  else foldRest close separator item (← state).bound (← item a)

/-- Items with separators between them up to a closing sign, which is left at hand. -/
def separated (close separator : String) (item : Reader Unit) : Reader Unit :=
  foldSeparated close separator (fun _ => item) ()

/-- Reads with no markup gathered so far, and gives the markup gathered meanwhile in order. -/
def gathered {α : Type} (r : Reader α) : Reader (α × List Markup.Tree) := fun ctx s =>
  match r ctx { s with trees := [] } with
  | some (a, s') => some ((a, s'.trees.reverse), { s' with trees := s.trees })
  | none => none

end Reader

/-- What an expression may be turned into when it turns out to be assigned to. -/
inductive Target where
  | none
  /-- A name or a member. -/
  | simple
  /-- An array or object literal that reads as a pattern. -/
  | destructuring
  deriving DecidableEq, Repr, Inhabited

/-- What a reader says about the expression it has read. -/
structure Shape where
  /-- Whether it is a name alone. -/
  isName : Bool
  /-- The text of a string literal. -/
  string : Option Text
  target : Target
  /-- Whether it is an assignment by an equals sign. -/
  isAssignment : Bool
  /-- The defaults within that are fine once it is turned into a pattern. -/
  defaults : List Nat
  /-- Whether it is a chain of `&&` and `||` without parentheses. -/
  isLogical : Bool
  /-- Whether it is a chain of `??` without parentheses. -/
  isCoalescing : Bool
  /-- Whether it is a list of expressions with commas. -/
  isSequence : Bool
  deriving Repr, Inhabited

namespace Shape

/-- An expression about which there is nothing to say. -/
def plain : Shape :=
  { isName := false, string := none, target := .none, isAssignment := false, defaults := [],
    isLogical := false, isCoalescing := false, isSequence := false }

/-- A name. -/
def name : Shape := { plain with isName := true, target := .simple }

/-- A member of an object, or anything else that is assigned to as a whole. -/
def simple : Shape := { plain with target := .simple }

/-- The defaults that become fine when the expression stands as an element of a pattern; nothing if
it cannot. -/
def asElement? (s : Shape) : Option (List Nat) :=
  if s.isAssignment then some []
  else if s.target = .none then none
  else some s.defaults

end Shape

/-- The parts of the grammar that contain each other. -/
inductive Rule where
  /-- A statement; `alone` if it is the body of another one. -/
  | statement (alone : Bool)
  | expression
  | assignment
  /-- Operators that bind tighter than a level. -/
  | binary (level : Nat)
  | unary
  | call
  | type
  | binding
  /-- A list of parameters in parentheses. -/
  | parameters
  /-- Statements in braces. -/
  | block
  /-- A class, from its keyword on; `named` if it needs a name. -/
  | classTail (named : Bool)
  /-- A function, from its keyword on; `named` if it needs a name. -/
  | functionTail (named async : Bool)
  /-- An element or a fragment; `inMarkup` if it stands right in the content of another one. -/
  | markup (inMarkup : Bool)
  deriving DecidableEq, Repr

/-- A reader for every part of the grammar. -/
abbrev Rules := Rule → Reader Shape

end CanvasSync.Script
