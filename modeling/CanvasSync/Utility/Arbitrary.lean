import CanvasSync.Utility.Style
import CanvasSync.Utility.Token

/-!
Arbitrary values: classes such as `w-[320px]`, whose value stands in brackets.

An underscore in the value stands for a space. A value that looks like a colour turns the text,
background and border names into colours.
-/

namespace CanvasSync.Utility.Arbitrary

/-- The names that take a value in brackets, with the property that each sets. -/
def names : List (String × String) :=
  [("w", "width"), ("h", "height"), ("min-w", "min-width"), ("min-h", "min-height"),
   ("max-w", "max-width"), ("max-h", "max-height"), ("p", "padding"), ("px", "padding-left"),
   ("py", "padding-top"), ("pt", "padding-top"), ("pr", "padding-right"),
   ("pb", "padding-bottom"), ("pl", "padding-left"), ("m", "margin"), ("mx", "margin-left"),
   ("my", "margin-top"), ("mt", "margin-top"), ("mr", "margin-right"), ("mb", "margin-bottom"),
   ("ml", "margin-left"), ("gap", "gap"), ("top", "top"), ("right", "right"),
   ("bottom", "bottom"), ("left", "left"), ("z", "z-index"), ("tracking", "letter-spacing"),
   ("leading", "line-height"), ("rounded", "border-radius"), ("text", "font-size"),
   ("bg", "background"), ("border", "border-width")]

/-- Whether a name takes a value in brackets. -/
def accepts (name : Text) : Bool := (names.lookup (String.ofList name)).isSome

/-- Whether a value looks like a colour. -/
def looksLikeColor (value : Text) : Bool :=
  ["#", "rgb", "hsl", "oklch"].any fun p => Text.startsWith value p.toList

/-- The colour property of a name that has one. -/
def colorProperty? (name : String) : Option String :=
  if name = "text" then some "color"
  else if name = "bg" then some "background-color"
  else if name = "border" then some "border-color"
  else none

/-- The declaration of a token with a value in brackets. -/
def declaration? (t : Text) : Option Declaration := do
  let (name, raw) ← Token.splitArbitrary? t
  let name := String.ofList name
  let property ← names.lookup name
  let value := raw.map fun c => if c = '_' then ' ' else c
  let property := if looksLikeColor value then (colorProperty? name).getD property else property
  some ⟨property, String.ofList value⟩

end CanvasSync.Utility.Arbitrary
