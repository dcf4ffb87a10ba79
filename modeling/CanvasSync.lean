import CanvasSync.Edit.Strategy
import CanvasSync.Main
import CanvasSync.Project.Watching
import CanvasSync.Component.Json
import CanvasSync.Proofs.Project.Atomicity
import CanvasSync.Proofs.Project.Identity
import CanvasSync.Proofs.Utility.Parts
import CanvasSync.Proofs.Utility.Validity
import CanvasSync.Proofs.Project.Overlaps
import CanvasSync.Proofs.Edit.Changes
import CanvasSync.Proofs.Edit.Props
import CanvasSync.Proofs.Utility.Readings
import CanvasSync.Proofs.Markup.Enclosure
import CanvasSync.Proofs.Markup.Preorder
import CanvasSync.Proofs.Project.Reservations
import CanvasSync.Proofs.Project.Reconciliation
import CanvasSync.Proofs.Edit.Outlines
import CanvasSync.Proofs.Project.Presence
import CanvasSync.Proofs.Project.Rereading
import CanvasSync.Proofs.Project.Snapshots
import CanvasSync.Proofs.Project.Ownership
import CanvasSync.Proofs.Project.Carriers
import CanvasSync.Proofs.Assist.Fixes
import CanvasSync.Proofs.Assist.Warnings
import CanvasSync.Proofs.Edit.Reindentation
import CanvasSync.Proofs.Line.Scanning
import CanvasSync.Proofs.Line.Tags
import CanvasSync.Proofs.Line.Updates
import CanvasSync.Proofs.Line.Files
import CanvasSync.Proofs.Edit.Strategies
import CanvasSync.Proofs.Markup.Layout
import CanvasSync.Proofs.Script.Places
import CanvasSync.Proofs.Script.Progress
import CanvasSync.Proofs.Script.Phrases
import CanvasSync.Proofs.Script.Layout
import CanvasSync.Proofs.Edit.Restoration
import CanvasSync.Proofs.Edit.Commutation
import CanvasSync.Proofs.Edit.Rewriting
import CanvasSync.Proofs.Edit.Simultaneity
import CanvasSync.Proofs.Edit.OneLine
import CanvasSync.Proofs.Line.Values
import CanvasSync.Proofs.Line.Attributes
import CanvasSync.Proofs.Edit.Targets
import CanvasSync.Proofs.Line.Contents
import CanvasSync.Proofs.Line.Classes
import CanvasSync.Proofs.Line.Searching
import CanvasSync.Proofs.Utility.StyleSheets
import CanvasSync.Proofs.Utility.Ranking
import CanvasSync.Proofs.Project.Unwritten
import CanvasSync.Proofs.Assist.Marks
import CanvasSync.Proofs.Component.Detaching
import CanvasSync.Proofs.Utility.Lengths
import CanvasSync.Proofs.Markup.Walks
import CanvasSync.Proofs.Edit.Depths
import CanvasSync.Proofs.Project.Forgetting
