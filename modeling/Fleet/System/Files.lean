/-
  Fleet.System.Files — the files of a machine: a tree of places, each a directory, a file
  or something the system brings along, and a directory where relative paths start.

  A path is followed name by name (`Files.walk`). Whoever makes or opens something learns
  from the fault why it cannot be had. Writing only ever adds to the end of a file
  (`Files.append`).
-/

import Fleet.System.Fault
import Fleet.Text.Utf8
import Fleet.Worker.Path

namespace Fleet.System

open Fleet.Text

/-- The names from the root down to a place. -/
abbrev Place := List String

inductive Entry where
  | directory
  | file (content : Bytes) (executable : Bool)
  | program (name : String)
  /-- The device that is empty and keeps nothing. -/
  | null
  deriving DecidableEq, Repr

structure Files where
  entries : List (Place × Entry)
  here : Place := []
  deriving DecidableEq, Repr

namespace Files

variable (fs : Files)

/-! ## Places -/

/-- What there is at a place. The root is always a directory. -/
def lookup? (place : Place) : Option Entry := if place = [] then some .directory else fs.entries.lookup place

def put (place : Place) (entry : Entry) : Files :=
  if (fs.entries.lookup place).isSome then
    { fs with entries := fs.entries.map fun e => if e.1 = place then (place, entry) else e }
  else { fs with entries := fs.entries ++ [(place, entry)] }

def remove (place : Place) : Files := { fs with entries := fs.entries.filter (·.1 ≠ place) }

def content? (place : Place) : Option Bytes :=
  match fs.lookup? place with
  | some (.file content _) => some content
  | _ => none

def append (place : Place) (bytes : Bytes) : Files :=
  match fs.lookup? place with
  | some (.file content executable) => fs.put place (.file (content ++ bytes) executable)
  | _ => fs

/-! ## Paths -/

def maxName : Nat := 255

def maxPath : Nat := 4095

/-- Follow names from a place. The last may name something that is not there yet. -/
def walk : Place → List String → Except Fault Place
  | place, [] => .ok place
  | place, name :: rest =>
    match fs.lookup? place with
    | none => .error .noEntry
    | some .directory =>
      if name = "." then walk place rest
      else if name = ".." then walk place.dropLast rest
      else if maxName < name.utf8ByteSize then .error .nameTooLong
      else if rest ≠ [] ∧ fs.lookup? (place ++ [name]) = none then .error .noEntry
      else walk (place ++ [name]) rest
    | some _ => .error .notDirectory

def names (path : String) : List String := (path.splitToList (· == '/')).filter (· ≠ "")

/-- Follow a path but for the slashes at its end. -/
def follow (path : String) : Except Fault Place :=
  if path.contains '\x00' then .error .zeroInPath
  else if path.isEmpty then .error .noEntry
  else if maxPath < path.utf8ByteSize then .error .nameTooLong
  else fs.walk (if Path.isAbsolute path then [] else fs.here) (names path)

/-- What a path leads to. A slash at its end asks for a directory. -/
def find (path : String) : Except Fault (Place × Entry) := do
  let place ← fs.follow path
  match fs.lookup? place with
  | none => .error .noEntry
  | some entry => if path.endsWith "/" ∧ entry ≠ .directory then .error .notDirectory else .ok (place, entry)

def isDirectory (path : String) : Bool :=
  match fs.find path with
  | .ok (_, .directory) => true
  | _ => false

/-! ## Directories -/

def makeDirectory (path : String) : Except Fault Files := do
  let place ← fs.follow path
  match fs.lookup? place with
  | some _ => .error .entryExists
  | none => .ok (fs.put place .directory)

/-- Make a directory, given by its pieces from the last to the first, and those above it
    that are missing. Directories that were made stay, also if a later one cannot be. -/
def makeAll (absolute : Bool) : List String → Files × Except Fault Unit
  | [] => (fs, .ok ())
  | last :: above =>
    let path := (if absolute then "/" else "") ++ "/".intercalate (last :: above).reverse
    let settle (fs : Files) (fault : Fault) : Files × Except Fault Unit :=
      (fs, if fs.isDirectory path then .ok () else .error fault)
    match fs.makeDirectory path with
    | .ok made => (made, .ok ())
    | .error .noEntry =>
      match makeAll absolute above with
      | (made, .error fault) => (made, .error fault)
      | (made, .ok ()) =>
        match made.makeDirectory path with
        | .ok final => (final, .ok ())
        | .error fault => settle made fault
    | .error fault => settle fs fault

def makeDirectories (path : String) : Files × Except Fault Unit :=
  fs.makeAll (Path.isAbsolute path) (Path.pieces path).reverse

/-! ## Files -/

/-- Open a file to write to its end; it is made if it is missing. -/
def openAppend (path : String) : Except Fault (Files × Place) := do
  let place ← fs.follow path
  if path.endsWith "/" then .error .isDirectory
  else match fs.lookup? place with
    | none => .ok (fs.put place (.file [] false), place)
    | some .directory => .error .isDirectory
    | some _ => .ok (fs, place)

def read (path : String) : Except Fault Bytes := do
  match ← fs.find path with
  | (_, .directory) => .error .isDirectory
  | (_, .file content _) => .ok content
  | (_, .program _) | (_, .null) => .ok []

def readText (path : String) : Except Fault String := do
  match ofBytes? (← fs.read path) with
  | some text => .ok text
  | none => .error .notText

/-! ## Programs -/

/-- What a file says in its first line about the program that can read it: the program
    and at most one argument. -/
def interpreter? (content : Bytes) : Option (String × List String) :=
  match content with
  | 0x23 :: 0x21 :: rest =>
    let isBlank (c : Char) : Bool := c = ' ' ∨ c = '\t'
    let line := (ofBytes ((rest.take 254).takeWhile (· ≠ 0x0A))).toList.dropWhile isBlank
    let argument := ((line.dropWhile (!isBlank ·)).dropWhile isBlank).reverse.dropWhile isBlank |>.reverse
    match String.ofList (line.takeWhile (!isBlank ·)) with
    | "" => none
    | program => some (program, if argument = [] then [] else [String.ofList argument])
  | _ => none

/-- The system's program that runs a file, and the arguments it gets before all others.
    A file that names its interpreter is run by it, up to `depth` deep. -/
def runnable : (depth : Nat) → (path : String) → Except Fault (String × List String)
  | depth, path => do
    match ← fs.find path with
    | (_, .directory) | (_, .null) | (_, .file _ false) => .error .denied
    | (_, .program name) => .ok (name, [])
    | (_, .file content true) =>
      match depth, interpreter? content with
      | depth + 1, some (program, arguments) => do
        let (name, before) ← runnable depth program
        .ok (name, before ++ arguments ++ [path])
      | _, _ => .error .noFormat

def searchPath : List String :=
  ["/usr/local/sbin", "/usr/local/bin", "/usr/sbin", "/usr/bin", "/sbin", "/bin"]

def command (program : String) : Except Fault (String × List String) :=
  if program.contains '\x00' then .error .zeroInCommand
  else if program.isEmpty then .error .noEntry
  else if program.contains '/' then fs.runnable 5 program
  else if maxName < program.utf8ByteSize then .error .nameTooLong
  else
    match searchPath.findSome? fun dir => (fs.runnable 5 (dir ++ "/" ++ program)).toOption with
    | some found => .ok found
    | none => .error .noEntry

end Files

end Fleet.System
