import CanvasSync.Text.Blank
import CanvasSync.Utility.Resolve

/-!
Class strings as style sheets, and style sheets as CSS.

* `Category`: the buckets that styles are sorted into, by property;
* `StyleSheet`: the styles of a class string by category, with the string itself;
* `StyleSheet.parse`: the sheet of a class string, unknown tokens dropped;
* `StyleSheet.css`: declarations without a breakpoint one a line, then one media query a
  breakpoint, narrowest first.
-/

namespace CanvasSync.Utility

/-- The buckets that styles are sorted into. -/
inductive Category where
  | typography
  | spacing
  | layout
  | colors
  | effects
  | transforms
  | transitions
  | other
  deriving DecidableEq, Repr

namespace Category

/-- All categories in the order in which they are written. -/
def all : List Category :=
  [typography, spacing, layout, colors, effects, transforms, transitions, other]

/-- The name of a category. -/
def name : Category → String
  | typography => "typography"
  | spacing => "spacing"
  | layout => "layout"
  | colors => "colors"
  | effects => "effects"
  | transforms => "transforms"
  | transitions => "transitions"
  | other => "other"

/-- The words that put a property into a category, in the order in which they are tried. -/
def words : List (Category × List String) :=
  [(typography, ["font", "text"]),
   (spacing, ["padding", "margin"]),
   (layout, ["display", "flex", "grid", "width", "height", "justify", "align", "items"]),
   (colors, ["color", "background"]),
   (effects, ["shadow", "opacity", "border"]),
   (transforms, ["transform", "scale", "rotate", "translate"]),
   (transitions, ["transition", "animation"])]

/-- The category of a property: the first one of which a word occurs in it. -/
def ofProperty (property : String) : Category :=
  match words.find? fun (_, ws) => ws.any fun w => Text.contains property.toList w.toList with
  | some (c, _) => c
  | none => other

end Category

/-- The styles of a class string by category, with the string itself. -/
structure StyleSheet where
  bucket : Category → List Style
  raw : String

namespace StyleSheet

/-- The sheet of a class string: its tokens in order, unknown ones dropped. -/
def parse (table : Table) (classes : String) : StyleSheet :=
  let styles := (Text.words classes.toList).filterMap (resolve? table)
  { bucket := fun c => styles.filter fun s => Category.ofProperty s.property = c
    raw := classes }

/-- All styles with their categories, in the order in which they are written. -/
def entries (sheet : StyleSheet) : List (Category × Style) :=
  Category.all.flatMap fun c => (sheet.bucket c).map fun s => (c, s)

/-- The number of styles. -/
def size (sheet : StyleSheet) : Nat := sheet.entries.length

end StyleSheet

/-- A style as a CSS declaration. -/
def Style.css (s : Style) : Text :=
  s.property.toList ++ ": ".toList ++ s.value.toList
    ++ (if s.important then " !important".toList else []) ++ [';']

/-- A media query that holds styles, if there are any. -/
def Breakpoint.css? (b : Breakpoint) (styles : List Style) : Option Text :=
  if styles = [] then none
  else
    some ("@media (min-width: ".toList ++ Number.digitsOf b.minWidth ++ "px) ".toList ++ ['\x7b']
      ++ styles.flatMap (fun s => ' ' :: s.css) ++ [' ', '\x7d'])

/-- The CSS of a sheet: declarations without a breakpoint, then a media query for each breakpoint
that has styles. -/
def StyleSheet.css (sheet : StyleSheet) : Text :=
  let styles := sheet.entries.map (·.2)
  let plain := (styles.filter fun s => s.breakpoint = none).map Style.css
  let queries := Breakpoint.all.filterMap fun b =>
    b.css? (styles.filter fun s => s.breakpoint = some b)
  Text.join ['\n'] (plain ++ queries)

end CanvasSync.Utility
