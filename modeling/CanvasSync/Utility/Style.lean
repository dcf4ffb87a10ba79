import CanvasSync.Text.Basic

/-!
Styles that utility classes stand for.

* `Declaration`: a CSS property and its value;
* `Breakpoint`: the widths from which a style may apply;
* `Style`: a declaration with the modifiers of its token.
-/

namespace CanvasSync.Utility

/-- A CSS property with its value. -/
structure Declaration where
  property : String
  value : String
  deriving DecidableEq, Repr, Inhabited

/-- The widths from which a style may apply, narrowest first. -/
inductive Breakpoint where
  | small
  | medium
  | large
  | extraLarge
  | doubleExtraLarge
  deriving DecidableEq, Repr

namespace Breakpoint

/-- All breakpoints, narrowest first. -/
def all : List Breakpoint := [small, medium, large, extraLarge, doubleExtraLarge]

/-- The name that a class carries in front of its first colon. -/
def name : Breakpoint → String
  | small => "sm"
  | medium => "md"
  | large => "lg"
  | extraLarge => "xl"
  | doubleExtraLarge => "2xl"

/-- The breakpoint of a name. -/
def ofName? (s : String) : Option Breakpoint := all.find? fun b => b.name = s

/-- The least width of the window, in pixels. -/
def minWidth : Breakpoint → Nat
  | small => 640
  | medium => 768
  | large => 1024
  | extraLarge => 1280
  | doubleExtraLarge => 1536

end Breakpoint

/-- A declaration with the breakpoint and the importance that its token asks for. -/
structure Style where
  property : String
  value : String
  breakpoint : Option Breakpoint
  important : Bool
  deriving DecidableEq, Repr, Inhabited

end CanvasSync.Utility
