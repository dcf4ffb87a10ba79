import CanvasSync.Text.Basic

/-!
URIs in their normal form.

A text is a URI if it begins with a scheme. In the normal form the scheme and the host are in small
letters, characters that cannot stand in a URI are written by their bytes, and dots among the parts
of a path are worked out. An authority is a host with or without a port.

* `Uri.encode`: a text with some characters written by their bytes;
* `Uri.pathText`: a path worked out;
* `Uri.normalize?`: the normal form of a text; nothing if it is no URI.
-/

namespace CanvasSync.Assist.Uri

/-! ### Characters -/

/-- A digit of a byte, in capital letters. -/
def hexDigit (n : Nat) : Char := (Nat.digitChar n).toUpper

/-- A character by its bytes. -/
def byBytes (c : Char) : Text :=
  (String.utf8EncodeChar c).flatMap fun b =>
    ['%', hexDigit (b.toNat / 16), hexDigit (b.toNat % 16)]

/-- Whether a character never stands in a URI: controls, and all that is not ASCII. -/
def isForeign (c : Char) : Bool := c.toNat < 0x20 || 0x7F ≤ c.toNat

/-- A text with foreign characters and some others written by their bytes. -/
def encode (others : List Char) (t : Text) : Text :=
  t.flatMap fun c => if isForeign c || others.contains c then byBytes c else [c]

/-- The characters written by their bytes in a fragment. -/
def inFragment : List Char := [' ', '"', '<', '>', '\x60']

/-- The characters written by their bytes in a path. -/
def inPath : List Char := inFragment ++ ['#', '?', '\x7b', '\x7d']

/-- The characters written by their bytes in a query. -/
def inQuery (known : Bool) : List Char :=
  [' ', '"', '#', '<', '>'] ++ (if known then ['\''] else [])

/-- The text without blanks and controls at its ends, and without tabs and line ends in it. -/
def cleaned (t : Text) : Text :=
  let idle (c : Char) : Bool := c.toNat ≤ 0x20
  let inner := ((t.dropWhile idle).reverse.dropWhile idle).reverse
  inner.filter fun c => !(c = '\t' || c = '\n' || c = '\r')

/-! ### Schemes and authorities -/

/-- The scheme of a URI in small letters, and what follows its colon. -/
def cutScheme? (t : Text) : Option (Text × Text) :=
  let scheme := t.takeWhile fun c => c.isAlphanum || c = '+' || c = '-' || c = '.'
  match t.drop scheme.length with
  | ':' :: rest =>
    if scheme.head?.any Char.isAlpha then some (scheme.map Char.toLower, rest) else none
  | _ => none

/-- The schemes with a host, each with the port that is left out. -/
def ports : List (String × Nat) :=
  [("http", 80), ("https", 443), ("ws", 80), ("wss", 443), ("ftp", 21)]

/-- Whether a character may stand in a host. -/
def isHostPart (c : Char) : Bool := c.isAlphanum || c = '-' || c = '.' || c = '_'

/-- The port of an authority as it is written, behind its colon; the usual one is left out. -/
def portText? (usual : Nat) (t : Text) : Option Text :=
  let digits := t.drop 1
  if digits.all Char.isDigit then
    let port := digits.foldl (fun n c => 10 * n + (c.toNat - '0'.toNat)) 0
    if digits = [] ∨ port = usual then some []
    else if port < 0x10000 then some (':' :: (toString port).toList)
    else none
  else none

/-- An authority in its normal form. -/
def authority? (usual : Nat) (t : Text) : Option Text := do
  let host := t.takeWhile isHostPart
  let port := t.drop host.length
  if host = [] ∨ !(port = [] ∨ port.head? = some ':') then none
  else some (host.map Char.toLower ++ (← portText? usual port))

/-! ### Paths -/

/-- Whether a part of a path is a dot. -/
def isDot (part : Text) : Bool :=
  [".", "%2e"].contains (String.ofList (part.map Char.toLower))

/-- Whether a part of a path is two dots. -/
def isDoubleDot (part : Text) : Bool :=
  ["..", ".%2e", "%2e.", "%2e%2e"].contains (String.ofList (part.map Char.toLower))

/-- The parts of a path with dots worked out, those kept so far standing last first. -/
def workedOut : (kept : List Text) → List Text → List Text
  | kept, [] => kept.reverse
  | kept, part :: parts =>
    let kept :=
      if isDoubleDot part then kept.tail
      else if isDot part then kept
      else encode inPath part :: kept
    let atEnd := parts.isEmpty && (isDoubleDot part || isDot part)
    workedOut (if atEnd then [] :: kept else kept) parts

/-- Whether a character ends a part of a path. -/
def isSlash (known : Bool) (c : Char) : Bool := c = '/' || (known && c = '\\')

/-- A path worked out. -/
def pathText (known : Bool) (t : Text) : Text :=
  let behind :=
    match t with
    | c :: rest => if isSlash known c then rest else t
    | [] => []
  (workedOut [] (Text.splitAt (isSlash known) behind)).flatMap ('/' :: ·)

/-- A path worked out, slashes at its start taken together. -/
def filePath (t : Text) : Text := '/' :: (pathText true t).dropWhile (· = '/')

/-- A path worked out; an empty one stays empty where no host is known. -/
def pathBehind (known : Bool) (t : Text) : Text :=
  if t = [] && !known then [] else pathText known t

/-! ### Normal form -/

/-- A text up to the first character with a property, and the rest from it on. -/
def cutAt (p : Char → Bool) (t : Text) : Text × Text :=
  (t.takeWhile fun c => !p c, t.dropWhile fun c => !p c)

/-- Whether a host is the letter of a drive. -/
def isDrive (host : Text) : Bool :=
  match host with
  | [c, d] => c.isAlpha && (d = ':' || d = '|')
  | _ => false

/-- What follows the scheme of a file. -/
def fileRest? (t : Text) : Option Text :=
  match t with
  | a :: b :: rest =>
    if isSlash true a && isSlash true b then
      let (host, path) := cutAt (isSlash true) rest
      if host = [] ∨ host.map Char.toLower = "localhost".toList then
        some ('/' :: '/' :: filePath path)
      else if isDrive host then some ('/' :: '/' :: filePath rest)
      else (authority? 0 host).map fun host => '/' :: '/' :: host ++ filePath path
    else some ('/' :: '/' :: filePath t)
  | _ => some ('/' :: '/' :: filePath t)

/-- What follows a scheme with a host. -/
def hostRest? (usual : Nat) (t : Text) : Option Text :=
  let (host, path) := cutAt (isSlash true) (t.dropWhile (isSlash true))
  (authority? usual host).map fun host => '/' :: '/' :: host ++ pathBehind true path

/-- What follows any other scheme: a path, or a text of no structure. -/
def plainRest? (t : Text) : Option Text :=
  match t with
  | '/' :: '/' :: rest =>
    let (host, path) := cutAt (isSlash false) rest
    if host = [] then some ('/' :: '/' :: pathBehind false path)
    else (authority? 0 host).map fun host => '/' :: '/' :: host ++ pathBehind false path
  | '/' :: _ => some (pathText false t)
  | _ => some (encode [] t)

/-- The normal form of a URI; nothing for a text without a scheme or with a malformed host. -/
def normalize? (t : Text) : Option Text := do
  let (scheme, rest) ← cutScheme? (cleaned t)
  let name := String.ofList scheme
  let (rest, fragment) := cutAt (· = '#') rest
  let (rest, query) := cutAt (· = '?') rest
  let usual := ports.lookup name
  let known := usual.isSome || name = "file"
  let body ←
    match usual with
    | some port => hostRest? port rest
    | none => if name = "file" then fileRest? rest else plainRest? rest
  let written (others : List Char) : Text → Text
    | [] => []
    | mark :: t => mark :: encode others t
  some (scheme ++ ':' :: body ++ written (inQuery known) query ++ written inFragment fragment)

end CanvasSync.Assist.Uri
