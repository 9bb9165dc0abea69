import Chip8.Sink

/-!
# Directories

The files among which a program runs. A path is a sequence of bytes whose
components are separated by slashes; it is followed from the working directory,
or from the root if it begins with a slash. Every component but the last has to
lead into a folder that exists, and a path that ends in a slash names a folder.

Whatever a path comes by may be refused, with any error. There are no links: two
places hold two files.
-/

namespace Chip8

abbrev Path := Bytes

/-- How a path is shown in messages. -/
def Path.display (p : Path) : String := Utf8.decode p

/-- A component of a path. -/
inductive Component where
  | here
  | up
  | name (bytes : List UInt8)
deriving DecidableEq, Repr

namespace Component

def ofBytes : List UInt8 → Component
  | [] | [0x2E] => here
  | [0x2E, 0x2E] => up
  | bytes => name bytes

/-- A file name has 255 bytes at most. -/
def isTooLong : Component → Bool
  | name bytes => 255 < bytes.length
  | _ => false

end Component

/-- A place among the files: the names that lead to it from the root, innermost
first. -/
structure Place where
  names : List (List UInt8) := []
deriving DecidableEq, Repr

namespace Place

/-- The root is in itself. -/
def enter (p : Place) : Component → Place
  | .here => p
  | .up => ⟨p.names.tail⟩
  | .name bytes => ⟨bytes :: p.names⟩

end Place

namespace Path

def slash : UInt8 := 0x2F

def components (p : Path) : List Component :=
  (p.toList.splitOn slash).map Component.ofBytes

/-- The components without those that a slash at the end adds, last one first. -/
def reversedNames (p : Path) : List Component :=
  ((p.toList.splitOn slash).reverse.dropWhile (· = [])).map Component.ofBytes

def endsInSlash (p : Path) : Bool := p.toList.getLast? = some slash

/-- What makes a path useless before any file is looked at. -/
def fault? (p : Path) : Option IoError :=
  if 0 ∈ p.toList then some .zeroByteInName
  else if p.size = 0 then some (.os .notFound)
  else if 4096 ≤ p.size then some (.os .nameTooLong)
  else none

end Path

/-- The standard streams that a program can write to. -/
inductive Stream where
  | output | errors
deriving DecidableEq, Repr

/-- What becomes of the bytes that a device is given. -/
inductive Outlet where
  | stream (s : Stream)
  /-- They are taken as this sink would take them first, and not kept. -/
  | sink (s : Sink)
deriving DecidableEq, Repr

structure Device where
  /-- What reading it comes to. -/
  contents : Except IoError Bytes := .ok #[]
  outlet : Outlet

namespace Device

def null : Device := { outlet := .sink Sink.unlimited }

/-- Of zeros there is no end, so reading them ends with the memory. -/
def zeros : Except IoError Bytes := .error (.described .outOfMemory "out of memory")

def zero : Device := { contents := zeros, outlet := .sink Sink.unlimited }

/-- Has no room for a single byte. -/
def full : Device where
  contents := zeros
  outlet := .sink { limit := some 0, whenFull := .fails (.os .noSpace) }

end Device

inductive Entry where
  | file (contents : Bytes)
  | folder
  | device (d : Device)

/-- What can be refused at a place. -/
inductive Access where
  /-- To be gone through. -/
  | search
  | read
  /-- To be made, or emptied. -/
  | create
deriving DecidableEq, Repr

structure Directory where
  /-- Where a path starts that does not begin with a slash. -/
  working : Place := {}
  entries : List (Place × Entry) := []
  refusal? : Access → Place → Option IoError := fun _ _ => none
  /-- How a new file takes what is written to it. -/
  room : Place → Sink := fun _ => Sink.unlimited

namespace Directory

def at? (dir : Directory) (p : Place) : Option Entry :=
  if p.names = [] then some .folder else List.lookup p dir.entries

def put (dir : Directory) (p : Place) (e : Entry) : Directory :=
  { dir with entries := (p, e) :: dir.entries.filter fun entry => entry.1 != p }

@[simp]
theorem room_put (dir : Directory) (p : Place) (e : Entry) : (dir.put p e).room = dir.room := rfl

theorem at?_put (dir : Directory) (p : Place) (e : Entry) (h : p.names ≠ []) :
    (dir.put p e).at? p = some e := by
  simp [at?, put, h]

theorem at?_put_of_ne (dir : Directory) {p q : Place} (e : Entry) (h : q ≠ p) :
    (dir.put p e).at? q = dir.at? q := by
  have hb : (q == p) = false := by simpa using h
  simp only [at?, put, List.lookup_cons, hb]
  congr 1
  induction dir.entries with
  | nil => rfl
  | cons x xs ih =>
    obtain ⟨place, entry⟩ := x
    by_cases hx : place = p
    · simp only [List.filter, hx, bne_self_eq_false, List.lookup_cons, ih, hb]
    · have hx' : (place != p) = true := by simpa using hx
      cases hq : q == place <;> simp only [List.filter, hx', List.lookup_cons, hq, ih]

def start (dir : Directory) (p : Path) : Place :=
  if p.toList.head? = some Path.slash then {} else dir.working

/-- The place a path names if every folder in it exists. -/
def place (dir : Directory) (p : Path) : Place := p.components.foldl Place.enter (dir.start p)

/-- Adds a folder with all folders that lead to it. -/
def addFolders (dir : Directory) : List (List UInt8) → Directory
  | [] => dir
  | name :: names => (dir.addFolders names).put ⟨name :: names⟩ .folder

def addFolder (dir : Directory) (p : Path) : Directory := dir.addFolders (dir.place p).names

def add (dir : Directory) (p : Path) (e : Entry) : Directory :=
  (dir.addFolders (dir.place p).names.tail).put (dir.place p) e

def addFile (dir : Directory) (p : Path) (contents : Bytes) : Directory :=
  dir.add p (.file contents)

/-- The directory seen from one of its folders. -/
def enter (dir : Directory) (p : Path) : Directory :=
  { dir.addFolder p with working := dir.place p }

/-- What most systems have under their root, as far as a program may come by it. -/
def usual : Directory :=
  let folders := ["/bin", "/dev", "/etc", "/home", "/lib", "/opt", "/root", "/run", "/tmp", "/usr", "/var"]
  let devices : List (String × Device) :=
    [("/dev/null", .null), ("/dev/zero", .zero), ("/dev/full", .full),
     ("/dev/stdout", { outlet := .stream .output }), ("/dev/stderr", { outlet := .stream .errors })]
  devices.foldl (fun dir (path, device) => dir.add (Utf8.encode path) (.device device))
    (folders.foldl (fun dir path => dir.addFolder (Utf8.encode path)) {})

/-- One step along a path, out of a folder. -/
def step (dir : Directory) (p : Place) (c : Component) : Except IoError Place :=
  match dir.refusal? .search p with
  | some e => .error e
  | none =>
    match dir.at? p with
    | none => .error (.os .notFound)
    | some (.file _) | some (.device _) => .error (.os .notADirectory)
    | some .folder => if c.isTooLong then .error (.os .nameTooLong) else .ok (p.enter c)

/-- Follows components. -/
def follow (dir : Directory) : Place → List Component → Except IoError Place := List.foldlM dir.step

/-- The contents of a file. -/
def read (dir : Directory) (p : Path) : Except IoError Bytes :=
  match p.fault? with
  | some fault => .error fault
  | none =>
    match dir.follow (dir.start p) p.components with
    | .error e => .error e
    | .ok place =>
      match dir.refusal? .read place with
      | some e => .error e
      | none =>
        match dir.at? place with
        | none => .error (.os .notFound)
        | some .folder => .error (.os .isADirectory)
        | some (.file contents) => .ok contents
        | some (.device d) => d.contents

/-- The place of a file in a folder that can be created or emptied. -/
def placeIn (dir : Directory) (folder : Place) (p : Path) : Component → Except IoError Place
  | .here | .up => .error (.os .isADirectory)
  | .name bytes =>
    let place := folder.enter (.name bytes)
    match dir.refusal? .create place with
    | some e => .error e
    | none =>
      if p.endsInSlash then .error (.os .isADirectory)
      else if (Component.name bytes).isTooLong then .error (.os .nameTooLong)
      else
        match dir.at? place with
        | some .folder => .error (.os .isADirectory)
        | _ => .ok place

/-- The place where a file is created, or emptied if there is one. A path that ends
in a slash can only be a folder's. -/
def create (dir : Directory) (p : Path) : Except IoError Place :=
  match p.fault? with
  | some fault => .error fault
  | none =>
    match p.reversedNames with
    | [] => .error (.os .isADirectory)
    | last :: before =>
      match dir.follow (dir.start p) (before.reverse ++ [.here]) with
      | .error e => .error e
      | .ok folder => dir.placeIn folder p last

/-- What is left of a directory when the file at a place has been created. A device
stays what it is. -/
def emptied (dir : Directory) (p : Place) : Directory :=
  match dir.at? p with
  | some (.device _) => dir
  | _ => dir.put p (.file #[])

def contents (dir : Directory) (p : Place) : Bytes :=
  match dir.at? p with
  | some (.file contents) => contents
  | _ => #[]

/-- A file as a sink that holds its contents. -/
def sink (dir : Directory) (p : Place) : Sink := { dir.room p with stored := dir.contents p }

end Directory

end Chip8
