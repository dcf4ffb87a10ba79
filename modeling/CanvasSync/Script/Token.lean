import CanvasSync.Text.Basic

/-!
Tokens of a script.

Words are identifiers and keywords alike; which is which depends on where they stand. A greater-than
sign is always a token of its own, since it may close a list of type arguments; `Lexer.joined` puts
longer operators together again.
-/

namespace CanvasSync.Script

/-- What a token is. -/
inductive Kind where
  /-- An identifier or a keyword; `escaped` if it was spelt with an escape. -/
  | word (text : String) (escaped : Bool)
  /-- A name after a number sign. -/
  | privateName
  | number
  | bigInteger
  /-- A string, by the text it stands for. -/
  | string (value : Text)
  | pattern
  /-- A template without parts, or the last part of one; `cooked` if its escapes are well formed. -/
  | templateEnd (cooked : Bool)
  /-- The part of a template before a substitution. -/
  | templatePart (cooked : Bool)
  /-- A sign or an operator. -/
  | sign (text : String)
  /-- Text between the tags of markup. -/
  | markupText
  /-- The end of the text. -/
  | finish
  /-- No token. -/
  | broken
  deriving DecidableEq, Repr, Inhabited

/-- A token with the stretch of text that it covers. -/
structure Token where
  kind : Kind
  span : Span
  /-- Whether a line ends between the token before and this one. -/
  afterLine : Bool
  deriving DecidableEq, Repr, Inhabited

namespace Token

/-- Whether the token is a given sign. -/
def isSign (t : Token) (s : String) : Bool :=
  match t.kind with
  | .sign s' => s' = s
  | _ => false

/-- Whether the token is a given word, not spelt with an escape. -/
def isWord (t : Token) (w : String) : Bool :=
  match t.kind with
  | .word w' escaped => w' = w && !escaped
  | _ => false

/-- Whether the token is one of some words. -/
def isOneOf (t : Token) (ws : List String) : Bool :=
  match t.kind with
  | .word w escaped => ws.contains w && !escaped
  | _ => false

/-- The words that never are identifiers. -/
def reservedWords : List String :=
  ["break", "case", "catch", "class", "const", "continue", "debugger", "default", "delete", "do",
   "else", "enum", "export", "extends", "false", "finally", "for", "function", "if", "import",
   "in", "instanceof", "new", "null", "return", "super", "switch", "this", "throw", "true", "try",
   "typeof", "var", "void", "while", "with"]

/-- Whether the token is a word of any kind. -/
def isAnyWord (t : Token) : Bool :=
  match t.kind with
  | .word _ _ => true
  | _ => false

/-- Whether the token may be an identifier. -/
def isName (t : Token) : Bool :=
  match t.kind with
  | .word w _ => !reservedWords.contains w
  | _ => false

/-- Whether the token is a literal. -/
def isLiteral (t : Token) : Bool :=
  match t.kind with
  | .number | .bigInteger | .string _ | .pattern => true
  | .word w _ => w = "true" || w = "false" || w = "null"
  | _ => false

/-- Whether the token starts a template. -/
def isTemplate (t : Token) : Bool :=
  match t.kind with
  | .templateEnd _ | .templatePart _ => true
  | _ => false

/-- Whether the token may be a name of a property without brackets. -/
def isPropertyName (t : Token) : Bool :=
  match t.kind with
  | .word _ _ | .string _ | .number | .bigInteger => true
  | _ => false

/-- Whether the token may begin the name of a member of a class. -/
def startsMemberName (t : Token) : Bool :=
  t.isPropertyName || t.isSign "[" || t.kind = .privateName

end Token

end CanvasSync.Script
