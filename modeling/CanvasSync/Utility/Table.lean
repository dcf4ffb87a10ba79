import CanvasSync.Utility.Scale

/-!
The fixed classes and their declarations, in the order in which they are listed.

`Table.standard` is made of short tables and of families: grid columns and spans, the colours of
text, backgrounds and borders, opacities, scales, rotations and durations.
-/

namespace CanvasSync.Utility

/-- Fixed classes with their declarations, in the order in which they are listed. -/
abbrev Table := List (String × Declaration)

namespace Table

/-- Fonts, text and letters. -/
def typography : List (String × String × String) :=
  [("text-xs", "font-size", "0.75rem"), ("text-sm", "font-size", "0.875rem"),
   ("text-base", "font-size", "1rem"), ("text-lg", "font-size", "1.125rem"),
   ("text-xl", "font-size", "1.25rem"), ("text-2xl", "font-size", "1.5rem"),
   ("text-3xl", "font-size", "1.875rem"), ("text-4xl", "font-size", "2.25rem"),
   ("text-5xl", "font-size", "3rem"), ("text-6xl", "font-size", "3.75rem"),
   ("text-7xl", "font-size", "4.5rem"), ("text-8xl", "font-size", "6rem"),
   ("text-9xl", "font-size", "8rem"), ("font-thin", "font-weight", "100"),
   ("font-extralight", "font-weight", "200"), ("font-light", "font-weight", "300"),
   ("font-normal", "font-weight", "400"), ("font-medium", "font-weight", "500"),
   ("font-semibold", "font-weight", "600"), ("font-bold", "font-weight", "700"),
   ("font-extrabold", "font-weight", "800"), ("font-black", "font-weight", "900"),
   ("font-sans", "font-family", "ui-sans-serif, system-ui, sans-serif"),
   ("font-serif", "font-family", "ui-serif, Georgia, serif"),
   ("font-mono", "font-family", "ui-monospace, SFMono-Regular, monospace"),
   ("text-left", "text-align", "left"), ("text-center", "text-align", "center"),
   ("text-right", "text-align", "right"), ("text-justify", "text-align", "justify"),
   ("italic", "font-style", "italic"), ("not-italic", "font-style", "normal"),
   ("underline", "text-decoration-line", "underline"),
   ("line-through", "text-decoration-line", "line-through"),
   ("no-underline", "text-decoration-line", "none"), ("uppercase", "text-transform", "uppercase"),
   ("lowercase", "text-transform", "lowercase"), ("capitalize", "text-transform", "capitalize"),
   ("normal-case", "text-transform", "none"), ("leading-none", "line-height", "1"),
   ("leading-tight", "line-height", "1.25"), ("leading-snug", "line-height", "1.375"),
   ("leading-normal", "line-height", "1.5"), ("leading-relaxed", "line-height", "1.625"),
   ("leading-loose", "line-height", "2"), ("tracking-tighter", "letter-spacing", "-0.05em"),
   ("tracking-tight", "letter-spacing", "-0.025em"), ("tracking-normal", "letter-spacing", "0em"),
   ("tracking-wide", "letter-spacing", "0.025em"), ("tracking-wider", "letter-spacing", "0.05em"),
   ("tracking-widest", "letter-spacing", "0.1em"), ("whitespace-nowrap", "white-space", "nowrap"),
   ("whitespace-normal", "white-space", "normal")]

/-- Display and alignment. -/
def layout : List (String × String × String) :=
  [("block", "display", "block"), ("inline-block", "display", "inline-block"),
   ("inline", "display", "inline"), ("flex", "display", "flex"),
   ("inline-flex", "display", "inline-flex"), ("grid", "display", "grid"),
   ("inline-grid", "display", "inline-grid"), ("contents", "display", "contents"),
   ("hidden", "display", "none"), ("flex-row", "flex-direction", "row"),
   ("flex-row-reverse", "flex-direction", "row-reverse"),
   ("flex-col", "flex-direction", "column"),
   ("flex-col-reverse", "flex-direction", "column-reverse"), ("flex-wrap", "flex-wrap", "wrap"),
   ("flex-nowrap", "flex-wrap", "nowrap"), ("flex-1", "flex", "1 1 0%"),
   ("flex-auto", "flex", "1 1 auto"), ("flex-none", "flex", "none"), ("grow", "flex-grow", "1"),
   ("grow-0", "flex-grow", "0"), ("shrink", "flex-shrink", "1"), ("shrink-0", "flex-shrink", "0"),
   ("items-start", "align-items", "flex-start"), ("items-end", "align-items", "flex-end"),
   ("items-center", "align-items", "center"), ("items-baseline", "align-items", "baseline"),
   ("items-stretch", "align-items", "stretch"),
   ("justify-start", "justify-content", "flex-start"),
   ("justify-end", "justify-content", "flex-end"),
   ("justify-center", "justify-content", "center"),
   ("justify-between", "justify-content", "space-between"),
   ("justify-around", "justify-content", "space-around"),
   ("justify-evenly", "justify-content", "space-evenly"), ("self-auto", "align-self", "auto"),
   ("self-start", "align-self", "flex-start"), ("self-end", "align-self", "flex-end"),
   ("self-center", "align-self", "center")]

/-- Widths and heights. -/
def sizing : List (String × String × String) :=
  [("w-full", "width", "100%"), ("w-screen", "width", "100vw"), ("w-auto", "width", "auto"),
   ("w-fit", "width", "fit-content"), ("h-full", "height", "100%"),
   ("h-screen", "height", "100vh"), ("h-auto", "height", "auto"),
   ("min-h-screen", "min-height", "100vh"), ("min-h-full", "min-height", "100%"),
   ("min-w-0", "min-width", "0px"), ("min-w-full", "min-width", "100%"),
   ("max-w-xs", "max-width", "20rem"), ("max-w-sm", "max-width", "24rem"),
   ("max-w-md", "max-width", "28rem"), ("max-w-lg", "max-width", "32rem"),
   ("max-w-xl", "max-width", "36rem"), ("max-w-2xl", "max-width", "42rem"),
   ("max-w-3xl", "max-width", "48rem"), ("max-w-4xl", "max-width", "56rem"),
   ("max-w-5xl", "max-width", "64rem"), ("max-w-6xl", "max-width", "72rem"),
   ("max-w-7xl", "max-width", "80rem"), ("max-w-full", "max-width", "100%"),
   ("max-w-prose", "max-width", "65ch"), ("max-w-none", "max-width", "none")]

/-- Margins and paddings off the scale. -/
def spacing : List (String × String × String) :=
  [("mx-auto", "margin-left", "auto"), ("my-auto", "margin-top", "auto"),
   ("m-auto", "margin", "auto"), ("p-px", "padding", "1px"), ("m-px", "margin", "1px")]

/-- Shadows, corners and borders. -/
def effects : List (String × String × String) :=
  [("shadow-sm", "box-shadow", "0 1px 2px 0 rgb(0 0 0 / 0.05)"),
   ("shadow", "box-shadow", "0 1px 3px 0 rgb(0 0 0 / 0.1), 0 1px 2px -1px rgb(0 0 0 / 0.1)"),
   ("shadow-md", "box-shadow", "0 4px 6px -1px rgb(0 0 0 / 0.1), 0 2px 4px -2px rgb(0 0 0 / 0.1)"),
   ("shadow-lg", "box-shadow", "0 10px 15px -3px rgb(0 0 0 / 0.1), 0 4px 6px -4px rgb(0 0 0 / 0.1)"),
   ("shadow-xl", "box-shadow", "0 20px 25px -5px rgb(0 0 0 / 0.1), 0 8px 10px -6px rgb(0 0 0 / 0.1)"),
   ("shadow-2xl", "box-shadow", "0 25px 50px -12px rgb(0 0 0 / 0.25)"),
   ("shadow-inner", "box-shadow", "inset 0 2px 4px 0 rgb(0 0 0 / 0.05)"),
   ("shadow-none", "box-shadow", "0 0 #0000"), ("rounded-none", "border-radius", "0px"),
   ("rounded-sm", "border-radius", "0.125rem"), ("rounded", "border-radius", "0.25rem"),
   ("rounded-md", "border-radius", "0.375rem"), ("rounded-lg", "border-radius", "0.5rem"),
   ("rounded-xl", "border-radius", "0.75rem"), ("rounded-2xl", "border-radius", "1rem"),
   ("rounded-3xl", "border-radius", "1.5rem"), ("rounded-full", "border-radius", "9999px"),
   ("border", "border-width", "1px"), ("border-0", "border-width", "0px"),
   ("border-2", "border-width", "2px"), ("border-4", "border-width", "4px"),
   ("border-8", "border-width", "8px"), ("border-solid", "border-style", "solid"),
   ("border-dashed", "border-style", "dashed"), ("border-dotted", "border-style", "dotted"),
   ("border-none", "border-style", "none")]

/-- Transitions. -/
def transitions : List (String × String × String) :=
  [("transition", "transition-property", "color, background-color, border-color, text-decoration-color, fill, stroke, opacity, box-shadow, transform"),
   ("transition-none", "transition-property", "none"),
   ("transition-all", "transition-property", "all"),
   ("transition-colors", "transition-property", "color, background-color, border-color, text-decoration-color, fill, stroke"),
   ("transition-opacity", "transition-property", "opacity"),
   ("transition-transform", "transition-property", "transform"),
   ("ease-linear", "transition-timing-function", "linear"),
   ("ease-in", "transition-timing-function", "cubic-bezier(0.4, 0, 1, 1)"),
   ("ease-out", "transition-timing-function", "cubic-bezier(0, 0, 0.2, 1)"),
   ("ease-in-out", "transition-timing-function", "cubic-bezier(0.4, 0, 0.2, 1)")]

/-- Position, stacking, overflow and pointer. -/
def placement : List (String × String × String) :=
  [("static", "position", "static"), ("fixed", "position", "fixed"),
   ("absolute", "position", "absolute"), ("relative", "position", "relative"),
   ("sticky", "position", "sticky"), ("inset-0", "inset", "0px"), ("top-0", "top", "0px"),
   ("right-0", "right", "0px"), ("bottom-0", "bottom", "0px"), ("left-0", "left", "0px"),
   ("z-0", "z-index", "0"), ("z-10", "z-index", "10"), ("z-20", "z-index", "20"),
   ("z-30", "z-index", "30"), ("z-40", "z-index", "40"), ("z-50", "z-index", "50"),
   ("overflow-auto", "overflow", "auto"), ("overflow-hidden", "overflow", "hidden"),
   ("overflow-visible", "overflow", "visible"), ("overflow-scroll", "overflow", "scroll"),
   ("cursor-pointer", "cursor", "pointer"), ("cursor-default", "cursor", "default"),
   ("cursor-not-allowed", "cursor", "not-allowed"), ("select-none", "user-select", "none"),
   ("pointer-events-none", "pointer-events", "none")]

/-- Colours outside the palette. -/
def specialColors : List (String × String) :=
  [("inherit", "inherit"), ("current", "currentColor"), ("transparent", "transparent"),
   ("black", "#000000"), ("white", "#ffffff")]

/-- The shades of each colour of the palette, lightest first. -/
def shades : List Nat := [50, 100, 200, 300, 400, 500, 600, 700, 800, 900]

/-- The palette: each colour in all its shades. -/
def palette : List (String × List String) :=
  [("slate",
    ["#f8fafc", "#f1f5f9", "#e2e8f0", "#cbd5e1", "#94a3b8",
     "#64748b", "#475569", "#334155", "#1e293b", "#0f172a"]),
   ("gray",
    ["#f9fafb", "#f3f4f6", "#e5e7eb", "#d1d5db", "#9ca3af",
     "#6b7280", "#4b5563", "#374151", "#1f2937", "#111827"]),
   ("red",
    ["#fef2f2", "#fee2e2", "#fecaca", "#fca5a5", "#f87171",
     "#ef4444", "#dc2626", "#b91c1c", "#991b1b", "#7f1d1d"]),
   ("orange",
    ["#fff7ed", "#ffedd5", "#fed7aa", "#fdba74", "#fb923c",
     "#f97316", "#ea580c", "#c2410c", "#9a3412", "#7c2d12"]),
   ("yellow",
    ["#fefce8", "#fef9c3", "#fef08a", "#fde047", "#facc15",
     "#eab308", "#ca8a04", "#a16207", "#854d0e", "#713f12"]),
   ("green",
    ["#f0fdf4", "#dcfce7", "#bbf7d0", "#86efac", "#4ade80",
     "#22c55e", "#16a34a", "#15803d", "#166534", "#14532d"]),
   ("blue",
    ["#eff6ff", "#dbeafe", "#bfdbfe", "#93c5fd", "#60a5fa",
     "#3b82f6", "#2563eb", "#1d4ed8", "#1e40af", "#1e3a8a"]),
   ("indigo",
    ["#eef2ff", "#e0e7ff", "#c7d2fe", "#a5b4fc", "#818cf8",
     "#6366f1", "#4f46e5", "#4338ca", "#3730a3", "#312e81"]),
   ("purple",
    ["#faf5ff", "#f3e8ff", "#e9d5ff", "#d8b4fe", "#c084fc",
     "#a855f7", "#9333ea", "#7e22ce", "#6b21a8", "#581c87"]),
   ("pink",
    ["#fdf2f8", "#fce7f3", "#fbcfe8", "#f9a8d4", "#f472b6",
     "#ec4899", "#db2777", "#be185d", "#9d174d", "#831843"])]

/-- The opacities, in percent. -/
def opacitySteps : List Nat := [0, 5, 10, 20, 25, 30, 40, 50, 60, 70, 75, 80, 90, 95, 100]

/-- The scales, in percent. -/
def scaleSteps : List Nat := [0, 50, 75, 90, 95, 100, 105, 110, 125, 150]

/-- The rotations, in degrees. -/
def rotationSteps : List Nat := [0, 1, 2, 3, 6, 12, 45, 90, 180]

/-- The durations, in milliseconds. -/
def durationSteps : List Nat := [75, 100, 150, 200, 300, 500, 700, 1000]

/-- `n` percent as a fraction. -/
def percent (n : Nat) : String := String.ofList (fractionText n)

/-- Rows as entries. -/
def ofRows (rows : List (String × String × String)) : Table :=
  rows.map fun (token, property, value) => (token, ⟨property, value⟩)

/-- Columns of a grid and spans over them, from one to twelve. -/
def gridRows : List (String × String × String) :=
  (List.range' 1 12).flatMap fun n =>
    [("grid-cols-" ++ toString n, "grid-template-columns",
        "repeat(" ++ toString n ++ ", minmax(0, 1fr))"),
     ("col-span-" ++ toString n, "grid-column",
        "span " ++ toString n ++ " / span " ++ toString n)]

/-- The colours of one use: the special ones, then the palette. -/
def colorRows (name property : String) : List (String × String × String) :=
  specialColors.map (fun (color, value) => (name ++ "-" ++ color, property, value))
    ++ palette.flatMap fun (color, values) =>
      (shades.zip values).map fun (shade, value) =>
        (name ++ "-" ++ color ++ "-" ++ toString shade, property, value)

/-- The classes of one family, by number. -/
def family (name property : String) (steps : List Nat) (value : Nat → String) :
    List (String × String × String) :=
  steps.map fun n => (name ++ "-" ++ toString n, property, value n)

/-- All fixed classes. -/
def standard : Table :=
  ofRows
    (typography ++ layout ++ sizing ++ spacing ++ gridRows
      ++ colorRows "text" "color"
      ++ colorRows "bg" "background-color"
      ++ colorRows "border" "border-color"
      ++ family "opacity" "opacity" opacitySteps percent
      ++ effects
      ++ family "scale" "transform" scaleSteps (fun n => "scale(" ++ percent n ++ ")")
      ++ family "rotate" "transform" rotationSteps (fun n => "rotate(" ++ toString n ++ "deg)")
      ++ transitions
      ++ family "duration" "transition-duration" durationSteps (fun n => toString n ++ "ms")
      ++ placement)

/-- The declaration of a fixed class. -/
def get? (table : Table) (token : Text) : Option Declaration :=
  table.lookup (String.ofList token)

/-- The classes of the spacing scale that completion offers beside the fixed ones. -/
def scaleEntries (table : Table) : Table :=
  Scale.names.flatMap fun (name, property) =>
    Scale.offeredSteps.filterMap fun step =>
      let token := name ++ "-" ++ toString step
      if (table.lookup token).isSome then none
      else some (token, ⟨property, String.ofList (Scale.length step false)⟩)

end Table

end CanvasSync.Utility
