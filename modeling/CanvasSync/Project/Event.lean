import CanvasSync.Component.Basic
import CanvasSync.Storage.Path

/-!
What a project tells its subscribers.

A `Feed` keeps the latest events for a subscriber who has not taken them yet; how many is a power
of two. A subscriber who falls further behind learns how many events are lost.
-/

namespace CanvasSync.Project

open CanvasSync.Storage (Path)

/-- What happened to a project. -/
inductive Event where
  | added (component : Component) (path : Path)
  /-- The path is left out if nothing was written. -/
  | updated (component : Component) (path : Option Path)
  | removed (id : String) (path : Path)
  /-- A file was read again, or is gone; with the components found in it. -/
  | fileChanged (path : Path) (components : List Component)
  deriving Repr, Inhabited

/-- The events that wait for a subscriber. -/
structure Feed where
  capacity : Nat
  unread : List Event
  deriving Repr

namespace Feed

/-- A feed without events. The capacity asked for is rounded up to a power of two. -/
def ofCapacity (asked : Nat) : Feed := ⟨(max asked 1).nextPowerOfTwo, []⟩

/-- Publishes events. -/
def publish (f : Feed) (events : List Event) : Feed := { f with unread := f.unread ++ events }

/-- How many of the waiting events are lost. -/
def lost (f : Feed) : Nat := f.unread.length - f.capacity

/-- The waiting events that are kept. -/
def kept (f : Feed) : List Event := f.unread.drop f.lost

/-- The feed once its events are taken. -/
def taken (f : Feed) : Feed := { f with unread := [] }

end Feed

end CanvasSync.Project
