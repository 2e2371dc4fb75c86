import SmartContract.Text.Blank

/-!
A directory with the files and directories below it, and what reading and writing by a path does
there. A path leads through directories part by part; what stands in its way is an obstacle. Above
the directory are others, in which nothing is known to stand but what is put there.

The parts of a path stand between its slashes. A part names something unless it is empty or a point;
a point at the very start names the directory in which the path starts, and two points name the
directory above. Names and paths have bounds, which count octets.

Absolute paths are left out: a path that starts with a slash is followed from the directory, as if
the slash were not there. Permissions, devices, symbolic links and a lack of space are left out too:
what stands at a place is a file that can be read and written, or a directory in which files and
directories can be made.
-/

namespace SmartContract

namespace Path

def nameLimit : Nat := 255

def pathLimit : Nat := 4095

def parts (path : String) : List String :=
  (Text.pieces (· == '/') path.toList).map String.ofList

def ofParts (parts : List String) : String := String.intercalate "/" parts

def names (part : String) (index : Nat) : Bool := part ≠ "" && (part ≠ "." || index = 0)

/-- The starts of a path up to each part that names something, the shortest first. The last one is
the path itself, but for slashes and points at its end. -/
def starts (path : String) : List String :=
  let all := parts path
  all.zipIdx.filterMap fun (part, i) =>
    if names part i then some (ofParts (all.take (i + 1))) else none

/-- The directories that lead to what a path names, the innermost first. -/
def directories (path : String) : List String := ((starts path).dropLast).reverse

example : directories "a/./b//c/" = ["a/./b", "a"] := by decide
example : directories "./x" = ["."] := by decide

end Path

inductive Obstacle where
  | missing
  /-- There is something of that name already. -/
  | taken
  | notDirectory
  | isDirectory
  /-- The path or one of its names has more octets than there may be. -/
  | tooLong
  /-- Something else, in the words of the system. -/
  | other (text : String)
deriving DecidableEq, Repr

def Obstacle.message : Obstacle → String
  | missing => "No such file or directory (os error 2)"
  | taken => "File exists (os error 17)"
  | notDirectory => "Not a directory (os error 20)"
  | isDirectory => "Is a directory (os error 21)"
  | tooLong => "File name too long (os error 36)"
  | other text => text

inductive WriteFailure where
  | directory (path : String) (obstacle : Obstacle)
  | file (path : String) (obstacle : Obstacle)
deriving DecidableEq, Repr

def WriteFailure.message : WriteFailure → String
  | directory path obstacle => "create dir: " ++ path ++ ": " ++ obstacle.message
  | file path obstacle => "write: " ++ path ++ ": " ++ obstacle.message

inductive Node where
  | file (content : List UInt8)
  | directory
deriving DecidableEq, Repr

/-- The files and directories below a directory, each with the names that lead to it. -/
structure FileTree where
  nodes : List (List String × Node)

namespace FileTree

def empty : FileTree := ⟨[]⟩

/-- Is the place the directory itself or one above it? -/
def isUpper (place : List String) : Bool := place.all (· == "..")

def get? (t : FileTree) (place : List String) : Option Node :=
  if isUpper place then some .directory else t.nodes.lookup place

def put (t : FileTree) (place : List String) (node : Node) : FileTree :=
  ⟨(place, node) :: t.nodes.filter (·.1 ≠ place)⟩

def content? (t : FileTree) (place : List String) : Option (List UInt8) :=
  match t.get? place with
  | some (.file content) => some content
  | _ => none

def above (place : List String) : List String :=
  if isUpper place then place ++ [".."] else place.dropLast

def within (place : List String) (name : String) : Except Obstacle (List String) :=
  if name.utf8ByteSize ≤ Path.nameLimit then .ok (place ++ [name]) else .error .tooLong

/-- The place to which the parts of a path lead from a place. Every part needs a directory to start
from. -/
def find (t : FileTree) (place : List String) : List String → Except Obstacle (List String)
  | [] => .ok place
  | part :: rest =>
    match t.get? place with
    | none => .error .missing
    | some (.file _) => .error .notDirectory
    | some .directory =>
      if part = "" ∨ part = "." then find t place rest
      else if part = ".." then find t (above place) rest
      else
        match within place part with
        | .error obstacle => .error obstacle
        | .ok next => find t next rest

/-- The parts of a path that is not too long. -/
def partsOf (path : String) : Except Obstacle (List String) :=
  if path.utf8ByteSize ≤ Path.pathLimit then .ok (Path.parts path) else .error .tooLong

def findDirectory (t : FileTree) (parts : List String) : Except Obstacle (List String) :=
  t.find [] (parts ++ [""])

def isDirectory (t : FileTree) (path : String) : Bool :=
  (partsOf path >>= t.findDirectory).isOk

def read (t : FileTree) (path : String) : Except Obstacle (List UInt8) :=
  match partsOf path >>= t.find [] with
  | .error obstacle => .error obstacle
  | .ok place =>
    match t.get? place with
    | none => .error .missing
    | some .directory => .error .isDirectory
    | some (.file content) => .ok content

/-- The parts of a path up to the last, the last, and whether slashes follow it. -/
def splitLast (parts : List String) : List String × String × Bool :=
  let core := (parts.reverse.dropWhile (· == "")).reverse
  (core.dropLast, core.getLast?.getD "", core.length < parts.length)

/-- Does the part of a path lead to a directory that is there already? -/
def isDots (part : String) : Bool := part = "" || part = "." || part = ".."

def makeDirectory (t : FileTree) (path : String) : Except Obstacle FileTree := do
  let (before, last, _) := splitLast (← partsOf path)
  let outer ← t.findDirectory before
  if isDots last then throw .taken
  let place ← within outer last
  if (t.get? place).isSome then throw .taken
  return t.put place .directory

/-- What remains of an obstacle to making a directory when there is one. -/
def tolerate (t : FileTree) (path : String) (obstacle : Obstacle) : Except Obstacle Unit :=
  if obstacle = .taken && t.isDirectory path then .ok () else .error obstacle

/-- Makes a directory where there is none, and first those that lead to it. The paths are given
with the innermost directory first. The directories that were made stay when one cannot be made. -/
def makeDirectories (t : FileTree) : List String → FileTree × Except Obstacle Unit
  | [] => (t, .ok ())
  | path :: outer =>
    match t.makeDirectory path with
    | .ok made => (made, .ok ())
    | .error .missing =>
      let (made, result) := t.makeDirectories outer
      match result with
      | .error obstacle => (made, .error obstacle)
      | .ok () =>
        match made.makeDirectory path with
        | .ok made => (made, .ok ())
        | .error obstacle => (made, made.tolerate path obstacle)
    | .error obstacle => (t, t.tolerate path obstacle)

def writeFile (t : FileTree) (path : String) (content : List UInt8) : Except Obstacle FileTree := do
  let (before, last, slashes) := splitLast (← partsOf path)
  let outer ← t.findDirectory before
  if isDots last || slashes then throw .isDirectory
  let place ← within outer last
  if t.get? place = some .directory then throw .isDirectory
  return t.put place (.file content)

/-- Writes a file, and first makes the directories that lead to it. -/
def write (t : FileTree) (path : String) (content : List UInt8) :
    FileTree × Except WriteFailure Unit :=
  let directories := Path.directories path
  let (made, result) := t.makeDirectories directories
  match result with
  | .error obstacle => (made, .error (.directory (directories.headD "") obstacle))
  | .ok () =>
    match made.writeFile path content with
    | .ok written => (written, .ok ())
    | .error obstacle => (made, .error (.file path obstacle))

/-- The files below the directory, with their places. -/
def files (t : FileTree) : List (List String × List UInt8) :=
  t.nodes.filterMap fun
    | (place, .file content) => if place.head? = some ".." then none else some (place, content)
    | (_, .directory) => none

@[simp] theorem get?_nil (t : FileTree) : t.get? [] = some .directory := rfl

theorem lookup_filter_ne {α β : Type} [BEq α] [LawfulBEq α] [DecidableEq α] (entries : List (α × β))
    {key other : α} (h : other ≠ key) :
    (entries.filter (·.1 ≠ key)).lookup other = entries.lookup other := by
  induction entries with
  | nil => rfl
  | cons e rest ih =>
    obtain ⟨k, value⟩ := e
    by_cases hk : k = key
    · subst hk
      simpa [List.lookup_cons, beq_false_of_ne h] using ih
    · rw [List.filter_cons_of_pos (by simpa using hk), List.lookup_cons, List.lookup_cons, ih]

/-- What is put at a place stands there, and elsewhere nothing changes. -/
theorem get?_put (t : FileTree) {place : List String} (hp : isUpper place = false) (node : Node)
    (other : List String) :
    (t.put place node).get? other = if other = place then some node else t.get? other := by
  by_cases h : other = place
  · subst h
    simp [get?, put, hp]
  · simp only [get?, put, List.lookup_cons, beq_false_of_ne h, h, if_false]
    rw [lookup_filter_ne t.nodes h]

end FileTree

end SmartContract
