import Planar.Config
set_option autoImplicit false

/-!
What commands need from the machine they run on, and a machine that is a value: a directory
with files, and the lines printed so far.
-/

namespace Planar.CommandLine

class Host (m : Type → Type) where
  fileExists : String → m Bool
  readFile : String → m (Except FileFault (List UInt8))
  writeFile : String → List UInt8 → m (Except FileFault Unit)
  /-- The most bytes that a plane may have. -/
  memory : m Nat
  printLine : String → m Unit

/-- The names on the way from the desk's directory. Two dots lead to the directory above, and a
slash to the root. -/
abbrev Place := List String

structure File where
  path : Place
  content : List UInt8

inductive Entry where
  | file (content : List UInt8)
  | directory
  | missing

structure Desk where
  files : List File
  memory : Nat
  printed : List String

namespace Place

def isOutside (place : Place) : Bool := place = ["/"] || place.all (· = "..")

def parent (place : Place) : Place :=
  if place = ["/"] then place
  else if place.all (· = "..") then place ++ [".."]
  else place.dropLast

end Place

/-- Longer names of files are refused, and so are longer paths. Both are counted in bytes. -/
def maxName : Nat := 255

def maxPath : Nat := 4095

/-- Where a path starts, and the names on it. A slash at the end stands before an empty one. -/
def route (path : String) : Except FileFault (Place × List String) :=
  if path.isEmpty then .error .notFound
  else if path.utf8ByteSize > maxPath then .error .nameTooLong
  else .ok (if path.startsWith "/" then ["/"] else [], path.splitOn "/")

namespace Desk

/-- The entry with exactly these names. Directories are there because of the files in them. -/
def entry (d : Desk) (place : Place) : Entry :=
  match d.files.find? (·.path = place) with
  | some file => .file file.content
  | none =>
    if place.isOutside || d.files.any (place.isPrefixOf ·.path) then .directory else .missing

def walk (d : Desk) : Place → List String → Except FileFault (Place × Entry)
  | here, [] => .ok (here, d.entry here)
  | here, name :: rest =>
    match d.entry here with
    | .file _ => .error .notDirectory
    | .missing => .error .notFound
    | .directory =>
      if name = "" || name = "." then d.walk here rest
      else if name = ".." then d.walk here.parent rest
      else if name.utf8ByteSize > maxName then .error .nameTooLong
      else d.walk (here ++ [name]) rest

def find (d : Desk) (path : String) : Except FileFault (Place × Entry) := do
  let (start, names) ← route path
  d.walk start names

def read (d : Desk) (path : String) : Except FileFault (List UInt8) :=
  match d.find path with
  | .error why => .error why
  | .ok (_, .file content) => .ok content
  | .ok (_, .directory) => .error .isDirectory
  | .ok (_, .missing) => .error .notFound

def namesAbove (names : List String) : List String :=
  ((names.reverse.dropWhile (· = "")).drop 1).reverse ++ [""]

/-- A path that ends in a slash can only be a directory's, so its last name is not sought. -/
def write (d : Desk) (path : String) (content : List UInt8) : Except FileFault Desk := do
  let (start, names) ← route path
  if names.getLast? = some "" then
    let _ ← d.walk start (namesAbove names)
    throw .isDirectory
  match ← d.walk start names with
  | (_, .directory) => throw .isDirectory
  | (place, _) =>
    return { d with files := ⟨place, content⟩ :: d.files.filter (·.path ≠ place) }

instance : Host (StateM Desk) where
  fileExists path := do
    match (← get).find path with
    | .ok (_, .missing) | .error _ => return false
    | .ok _ => return true
  readFile path := do return (← get).read path
  writeFile path content := do
    match (← get).write path content with
    | .ok d => set d; return .ok ()
    | .error why => return .error why
  memory := do return (← get).memory
  printLine line := modify fun d => { d with printed := d.printed ++ [line] }

end Desk

end Planar.CommandLine
