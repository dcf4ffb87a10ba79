import CanvasSync.Number.Decimal
import CanvasSync.Storage.Files

/-!
A disk in memory.

* `Disk.read`, `Disk.write`, `Disk.createFolders`: what the project does with it;
* `Disk.save`, `Disk.delete`: what other programs do with it;
* `Disk.watch`, `Disk.take`: changes under a folder, kept until they are taken.

A file needs a folder: one that was created, or one that holds a file.
-/

namespace CanvasSync.Storage

/-- What happened to a file. -/
inductive ChangeKind where
  | added
  | changed
  | removed
  deriving DecidableEq, Repr

/-- The name of a kind of change. -/
def ChangeKind.name : ChangeKind → String
  | added => "add"
  | changed => "change"
  | removed => "unlink"

/-- The kind of change of a name. -/
def ChangeKind.ofName? (name : String) : Option ChangeKind :=
  [added, changed, removed].find? fun k => k.name = name

/-- A change of a file. -/
structure Change where
  path : Path
  kind : ChangeKind
  deriving DecidableEq, Repr

/-- A watch on a folder, with the changes that wait to be taken. -/
structure Watch where
  number : Nat
  root : Path
  waiting : List Change
  deriving Repr

/-- Why the disk fails. -/
inductive Fault where
  | missing (path : Path)
  | readRefused
  | writeRefused
  | createRefused
  deriving DecidableEq, Repr

/-- The wording of a fault. -/
def Fault.message : Fault → String
  | missing path => path.text ++ " does not exist"
  | readRefused => "read refused"
  | writeRefused => "write refused"
  | createRefused => "create refused"

/-- A disk: its files, the folders created on it, how often it was written, and who watches it. -/
structure Disk where
  files : Files
  folders : List Path
  writes : Nat
  watches : List Watch
  /-- The number of the next watch. -/
  nextWatch : Nat
  refusesReads : Bool
  refusesWrites : Bool
  deriving Repr

namespace Disk

/-- A disk with files on it that nobody has written or watches. -/
def ofFiles (files : Files) : Disk := ⟨files, [], 0, [], 0, false, false⟩

/-- The contents of a file. -/
def get? (d : Disk) (p : Path) : Option Text := d.files.get? p

/-- Whether a folder was created. -/
def hasFolder (d : Disk) (p : Path) : Bool := d.folders.any fun q => q.same p

/-- Whether there is a file or a created folder. -/
def has (d : Disk) (p : Path) : Bool := d.files.has p || d.hasFolder p

/-- Whether a file may be written within a folder. -/
def admits (d : Disk) (folder : Path) : Bool :=
  folder.isEmpty || d.hasFolder folder || d.files.any fun (q, _) => q.isWithin folder

/-- Puts a file on the disk without anyone noticing. -/
def put (d : Disk) (p : Path) (t : Text) : Disk := { d with files := d.files.insert p t }

/-- Tells those who watch the folder of a change. -/
def notify (d : Disk) (c : Change) : Disk :=
  { d with
    watches := d.watches.map fun w =>
      if c.path.isWithin w.root then { w with waiting := w.waiting ++ [c] } else w }

/-- Puts a file on the disk and tells of it. -/
def save (d : Disk) (p : Path) (t : Text) : Disk :=
  (d.put p t).notify ⟨p, if d.files.has p then .changed else .added⟩

/-- Takes a file off the disk and tells of it, if it is there. -/
def delete (d : Disk) (p : Path) : Disk :=
  if d.files.has p then
    { d with files := d.files.erase p }.notify ⟨p, .removed⟩
  else d

/-- The contents of a file that must be there. -/
def read (d : Disk) (p : Path) : Except Fault Text :=
  if d.refusesReads then .error .readRefused
  else
    match d.get? p with
    | some t => .ok t
    | none => .error (.missing p)

/-- The folder of a path, if it does not admit files. -/
def missingFolder? (d : Disk) (p : Path) : Option Path :=
  match p.parent? with
  | some folder => if d.admits folder then none else some folder
  | none => none

/-- Writes a file. -/
def write (d : Disk) (p : Path) (t : Text) : Except Fault Disk :=
  if d.refusesWrites then .error .writeRefused
  else
    match d.missingFolder? p with
    | some folder => .error (.missing folder)
    | none => .ok ({ d with writes := d.writes + 1 }.save p t)

/-- Creates a folder and all those around it. -/
def createFolders (d : Disk) (p : Path) : Except Fault Disk :=
  if d.refusesWrites then .error .createRefused
  else
    let new := p.ancestors.filter fun q => !q.isEmpty && !d.hasFolder q
    .ok { d with folders := d.folders ++ new }

/-- Watches a folder; gives the number of the watch. -/
def watch (d : Disk) (root : Path) : Nat × Disk :=
  (d.nextWatch,
    { d with watches := d.watches ++ [⟨d.nextWatch, root, []⟩], nextWatch := d.nextWatch + 1 })

/-- Gives up a watch. -/
def unwatch (d : Disk) (number : Nat) : Disk :=
  { d with watches := d.watches.filter fun w => w.number ≠ number }

/-- The changes that wait for a watch. -/
def waiting (d : Disk) (number : Nat) : List Change :=
  match d.watches.find? fun w => w.number = number with
  | some w => w.waiting
  | none => []

/-- Takes the changes that wait for a watch. -/
def take (d : Disk) (number : Nat) : List Change × Disk :=
  (d.waiting number,
    { d with
      watches := d.watches.map fun w => if w.number = number then { w with waiting := [] } else w })

/-- Characters that show nothing by themselves, as ranges in order: controls, blanks other than the
space, marks on other characters, and characters for private use. -/
def hiddenRanges : List (Nat × Nat) :=
  [(0x00, 0x1F), (0x7F, 0xA0), (0xAD, 0xAD), (0x0300, 0x036F), (0x0483, 0x0489),
   (0x0591, 0x05BD), (0x0610, 0x061A), (0x064B, 0x065F), (0x1680, 0x1680), (0x1AB0, 0x1ACE),
   (0x1DC0, 0x1DFF), (0x2000, 0x200F), (0x2028, 0x202F), (0x205F, 0x206F), (0x20D0, 0x20F0),
   (0x3000, 0x3000), (0x302A, 0x302D), (0x3099, 0x309A), (0xE000, 0xF8FF), (0xFE00, 0xFE0F),
   (0xFE20, 0xFE2F), (0xFEFF, 0xFEFF), (0xFFF0, 0xFFFB), (0xE0100, 0xE01EF)]

/-- Whether a character shows nothing by itself. -/
def isHidden (c : Char) : Bool :=
  hiddenRanges.any fun (first, last) => first ≤ c.toNat && c.toNat ≤ last

/-- A character of a path in quotes. -/
def escaped (c : Char) : Text :=
  if c = '"' ∨ c = '\\' then ['\\', c]
  else if c = '\n' then "\\n".toList
  else if c = '\r' then "\\r".toList
  else if c = '\t' then "\\t".toList
  else if c = '\x00' then "\\0".toList
  else if isHidden c then "\\u".toList ++ '\x7b' :: Nat.toDigits 16 c.toNat ++ ['\x7d']
  else [c]

/-- A path in quotes. -/
def quoted (p : Path) : Text := '"' :: p.text.toList.flatMap escaped ++ ['"']

/-- The paths of the files and the number of writes, for a look at the disk. -/
def summary (d : Disk) : Text :=
  "MemoryFs ".toList ++ '\x7b' :: " files: [".toList
    ++ Text.join [',', ' '] (d.files.map fun (p, _) => quoted p)
    ++ "], writes: ".toList ++ Number.digitsOf d.writes ++ [' ', '\x7d']

end Disk

end CanvasSync.Storage
