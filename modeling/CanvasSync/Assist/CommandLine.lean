import CanvasSync.Utility.Validation

/-!
The two commands that read a class string: one prints its CSS, the other one what is wrong with it.
-/

namespace CanvasSync.Assist

open CanvasSync.Utility

/-- What a command leaves: its exit code and what it prints. -/
structure Outcome where
  code : Nat
  output : Text
  errors : Text
  deriving DecidableEq, Repr

/-- A command. -/
inductive Command where
  | css
  | validate
  deriving DecidableEq, Repr

/-- The command of a first argument. -/
def Command.ofArgument? : String → Option Command
  | "--css" => some .css
  | "--validate" => some .validate
  | _ => none

/-- Texts, each on a line of its own. -/
def printed (lines : List Text) : Text := lines.flatMap fun l => l ++ ['\n']

/-- The lines about a report: the faults in order, then the replacements. -/
def reportLines (r : Report) : List Text :=
  (r.faults.map fun f => f.message.toList)
    ++ r.suggestions.map fun (name, s) => [' ', ' '] ++ name.toList ++ " → ".toList ++ s.toList

/-- Runs a command on a class string. -/
def Command.run (classes : Text) : Command → Outcome
  | .css =>
    ⟨0, printed [(StyleSheet.parse Table.standard (String.ofList classes)).css], []⟩
  | .validate =>
    let report := Catalog.standard.checkAll classes
    ⟨if report.isValid then 0 else 1, [], printed (reportLines report)⟩

end CanvasSync.Assist
