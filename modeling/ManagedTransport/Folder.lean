import ManagedTransport.Cookie
import ManagedTransport.Text.Split

/-!
# The working directory

Paths lead from the working directory, or from the root if they begin with a
slash.  A location is where a path ends up once its dots are worked out: names
below the working directory, behind as many `..` as lead above it, or behind
`/`.  The folder knows the files and directories put into it, and of the
machine's own the root and three devices: one that is always empty, one that
never ends, and one that never ends and has no space left.

Reading opens what a path leads to.  Writing takes two steps: a file gets other
contents, or is made in a directory that is there; then its mode is set.  A
directory and a path that ends in a slash cannot be written.  What a step has
done before it fails stays done: a file may be left cut, or with the mode that
it had.

`Access` is what a process is let do.  Whether it may read or write a file
depends on the file's mode; it may be kept from making a file and from setting
a mode; and there may be no room for all that it writes.  `Access.full` is a
process that nothing hinders.  Directories are open to everybody, and so are
the devices.
-/

namespace ManagedTransport

open Text

/-- What a location holds. -/
inductive Node where
  | file (contents : Bytes) (mode : Nat)
  | directory
  | device (contents : Contents) (full : Bool)

/-- Where a path ends up. -/
abbrev Location := List String

/-- What a process meets at its files: nothing, or a fault by which it ends what it does. -/
structure Access where
  /-- Met on opening a file of this mode for reading. -/
  reading : Location → Nat → Option Fault.Final
  /-- Met on opening a file of this mode for writing. -/
  writing : Location → Nat → Option Fault.Final
  /-- Met on making a file. -/
  making : Location → Option Fault.Final
  /-- How many octets a file takes, if there is a bound, and what is met beyond it. -/
  room : Location → Option (Nat × Fault.Final)
  /-- Met on setting the mode of a file. -/
  changing : Location → Option Fault.Final
  /-- The mode of a file that is made. -/
  newMode : Nat

/-- Nothing is met anywhere. -/
def Access.full : Access where
  reading _ _ := none
  writing _ _ := none
  making _ := none
  room _ := none
  changing _ := none
  newMode := 0o644

/-- The files and directories that were put somewhere, as a process finds them. -/
structure Folder where
  nodes : List (Location × Node)
  /-- What the process is let do with them. -/
  access : Access

namespace Folder

/-- A working directory with nothing in it, where nothing hinders the process. -/
def empty : Folder := ⟨[], .full⟩

/-- What is at a location. -/
def node? (f : Folder) (place : Location) : Option Node :=
  match f.nodes.find? (·.1 = place) with
  | some n => some n.2
  | none =>
    if place.all (· = "..") then some .directory
    else if place = ["/"] ∨ place = ["/", "dev"] then some .directory
    else if place = ["/", "dev", "null"] then some (.device (.finite []) false)
    else if place = ["/", "dev", "zero"] then some (.device (.endless fun _ => 0) false)
    else if place = ["/", "dev", "full"] then some (.device (.endless fun _ => 0) true)
    else none

/-- The location above. -/
def up (place : Location) : Location :=
  match place.getLast? with
  | none => [".."]
  | some ".." => place ++ [".."]
  | some "/" => place
  | some _ => place.dropLast

/-- One step along a path, which only a directory allows. -/
def enter (f : Folder) (place : Location) (name : String) : Except Fault Location :=
  match f.node? place with
  | some .directory =>
    if name = "" ∨ name = "." then .ok place
    else if name = ".." then .ok (up place)
    else if 255 < (utf8 name).length then .error .nameTooLong
    else if (f.node? (place ++ [name])).isSome then .ok (place ++ [name])
    else .error .missing
  | _ => .error .notDirectory

/-- The steps of a path, taken one after the other. -/
def walk (f : Folder) (place : Location) : List String → Except Fault Location
  | [] => .ok place
  | name :: names =>
    match f.enter place name with
    | .ok next => walk f next names
    | .error fault => .error fault

/-- Where a path starts, and its steps. -/
def steps (path : String) : Location × List String :=
  match path.toList with
  | '/' :: rest => (["/"], (split '/' rest).map String.ofList)
  | cs => ([], (split '/' cs).map String.ofList)

/-- What is wrong with a path before anything is looked up. -/
def pathFault? (path : String) : Option Fault :=
  if path.toList.contains '\x00' then some .nulInPath
  else if path = "" then some .missing
  else if 4096 ≤ (utf8 path).length then some .nameTooLong
  else none

/-- Opens a file for reading. -/
def read (f : Folder) (path : String) : Except Fault Contents :=
  match pathFault? path with
  | some fault => .error fault
  | none =>
    let (start, names) := steps path
    match f.walk start names with
    | .error fault => .error fault
    | .ok found =>
      match f.node? found with
      | some (.file contents mode) =>
        match f.access.reading found mode with
        | some fault => .error fault
        | none => .ok (.finite contents)
      | some (.device contents _) => .ok contents
      | some .directory => .error .isDirectory
      | none => .error .missing

/-- Puts a node at a location, in place of what is there. -/
def put (f : Folder) (place : Location) (n : Node) : Folder :=
  { f with nodes := (place, n) :: f.nodes.filter (·.1 ≠ place) }

/-- Where a path leads if every name on the way is a directory's. -/
def locate (path : String) : Location :=
  let (start, names) := steps path
  names.foldl
    (fun place name =>
      if name = "" ∨ name = "." then place
      else if name = ".." then up place
      else place ++ [name])
    start

/-- Makes a directory of each name below `place`, one inside the other, where
nothing is yet. -/
def pave (f : Folder) (place : Location) : List String → Folder
  | [] => f
  | name :: names =>
    let next := place ++ [name]
    pave (if (f.node? next).isSome then f else f.put next .directory) next names

/-- Puts a node where a path leads, and directories on the way to it. -/
def establish (f : Folder) (path : String) (n : Node) : Folder :=
  let place := locate path
  (f.pave [] place.dropLast).put place n

/-- A step that names no entry of the directory it is taken in. -/
def isDots (name : String) : Bool := name = "." || name = ".."

/-- The location that a write to `path` is about: an entry of a directory that
is there, present itself or not. -/
def target (f : Folder) (path : String) : Except Fault Location :=
  match pathFault? path with
  | some fault => .error fault
  | none =>
    let (start, names) := steps path
    let kept := (names.reverse.dropWhile (· = "")).reverse
    match f.walk start kept.dropLast, kept.getLast? with
    | .error fault, _ => .error fault
    | .ok _, none => .error .isDirectory
    | .ok parent, some name =>
      match f.node? parent with
      | some .directory =>
        if kept.length < names.length ∨ isDots name then .error .isDirectory
        else if 255 < (utf8 name).length then .error .nameTooLong
        else .ok (parent ++ [name])
      | _ => .error .notDirectory

/-- What a process meets that opens a location for writing. -/
def opening? (f : Folder) (place : Location) : Option Fault :=
  match f.node? place with
  | some .directory => some .isDirectory
  | some (.device _ _) => none
  | some (.file _ mode) => (f.access.writing place mode).map (·.1)
  | none => (f.access.making place).map (·.1)

/-- The mode of a file that was opened for writing: its own, if it was there. -/
def modeAt (f : Folder) (place : Location) : Nat :=
  match f.node? place with
  | some (.file _ mode) => mode
  | _ => f.access.newMode

/-- Writes to a location that was opened for it.  A file has lost what it held, and takes what
there is room for.  A device that is not full takes everything, and every device stays as it is. -/
def fill (f : Folder) (place : Location) (contents : Bytes) : Except Fault Unit × Folder :=
  match f.node? place, f.access.room place with
  | some (.device _ full), _ => (if full then .error .noSpace else .ok (), f)
  | _, none => (.ok (), f.put place (.file contents (f.modeAt place)))
  | _, some (room, fault) =>
    (if contents.length ≤ room then .ok () else .error fault,
      f.put place (.file (contents.take room) (f.modeAt place)))

/-- Gives a file other contents.  If it is there it keeps its mode. -/
def overwrite (f : Folder) (path : String) (contents : Bytes) : Except Fault Unit × Folder :=
  match f.target path with
  | .error fault => (.error fault, f)
  | .ok place =>
    match f.opening? place with
    | some fault => (.error fault, f)
    | none => f.fill place contents

/-- Sets the mode of a file. -/
def chmod (f : Folder) (path : String) (mode : Nat) : Except Fault Unit × Folder :=
  match f.target path with
  | .error fault => (.error fault, f)
  | .ok place =>
    match f.node? place, f.access.changing place with
    | none, _ => (.error .missing, f)
    | some _, some fault => (.error fault, f)
    | some (.file contents _), none => (.ok (), f.put place (.file contents mode))
    | some _, none => (.ok (), f)

/-- Writes a whole file and then sets its mode. -/
def write (f : Folder) (path : String) (contents : Bytes) (mode : Nat) :
    Except Fault Unit × Folder :=
  match f.overwrite path contents with
  | (.error fault, f) => (.error fault, f)
  | (.ok (), f) => f.chmod path mode

/-- The files directly in the working directory, with contents and mode. -/
def files (f : Folder) : List (String × Bytes × Nat) :=
  f.nodes.filterMap fun n =>
    match n with
    | ([name], .file contents mode) => some (name, contents, mode)
    | _ => none

end Folder

namespace Cookie

/-- The mode of a cookie file: its owner may read and write it, nobody else. -/
def fileMode : Nat := 0o600

/-- Writes the cookie file. -/
def writeFile (c : Cookie) (f : Folder) (path : String) : Except Fault Unit × Folder :=
  f.write path c.file fileMode

/-- The folder with the cookie file, if that is written. -/
def store (c : Cookie) (f : Folder) (path : String) : Except Fault Folder :=
  match c.writeFile f path with
  | (.ok (), g) => .ok g
  | (.error fault, _) => .error fault

end Cookie

end ManagedTransport
