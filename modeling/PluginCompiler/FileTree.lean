import PluginCompiler.Failure
import PluginCompiler.Path

/-! Trees of directories and files. A place is a list of names from the root; a path leads to a place
step by step, and fails as soon as a step is taken from anything but a directory. -/

set_option autoImplicit false

namespace PluginCompiler

abbrev Place := List String

inductive Entry where
  | file (content : List UInt8)
  | directory
  deriving DecidableEq, Repr, Inhabited

structure FileTree where
  entries : List (Place × Entry)
  deriving DecidableEq, Repr, Inhabited

namespace FileTree

def empty : FileTree := ⟨[]⟩

/-- What stands at a place. The root is always a directory. -/
def find? (t : FileTree) (place : Place) : Option Entry :=
  if place = [] then some .directory else t.entries.lookup place

def putEntry (place : Place) (entry : Entry) : List (Place × Entry) → List (Place × Entry)
  | [] => [(place, entry)]
  | (p, e) :: rest => if p = place then (p, entry) :: rest else (p, e) :: putEntry place entry rest

def put (t : FileTree) (place : Place) (entry : Entry) : FileTree :=
  ⟨putEntry place entry t.entries⟩

theorem lookup_putEntry (place other : Place) (entry : Entry) (entries : List (Place × Entry)) :
    (putEntry place entry entries).lookup other =
      if other = place then some entry else entries.lookup other := by
  induction entries with
  | nil =>
    by_cases same : other = place
    · simp [putEntry, same]
    · simp [putEntry, same]
  | cons e rest ih =>
    obtain ⟨p, e⟩ := e
    rw [putEntry]
    by_cases here : p = place
    · subst here
      by_cases same : other = p
      · simp [same]
      · have : (other == p) = false := by simpa using same
        simp [List.lookup_cons, this, same]
    · by_cases same : other = place
      · subst same
        have : (other == p) = false := by simpa using fun h => here h.symm
        simp [here, List.lookup_cons, this, ih]
      · simp only [here, ↓reduceIte, List.lookup_cons, ih, same]

theorem find?_put {t : FileTree} {place : Place} (inside : place ≠ []) (entry : Entry)
    (other : Place) :
    (t.put place entry).find? other = if other = place then some entry else t.find? other := by
  unfold find? put
  by_cases root : other = []
  · subst root
    simp [Ne.symm inside]
  · simp only [root, ↓reduceIte, lookup_putEntry]

def longestName : Nat := 255

/-- The place that a path leads to. Its last name need not stand for anything yet. -/
def resolve (t : FileTree) : Place → List String → Except SystemFault Place
  | at_, [] => .ok at_
  | at_, name :: rest =>
    match t.find? at_ with
    | none => .error .notFound
    | some (.file _) => .error .notDirectory
    | some .directory =>
      if name = ".." then t.resolve at_.dropLast rest
      else if longestName < name.utf8ByteSize then .error .nameTooLong
      else t.resolve (at_ ++ [name]) rest

def status (t : FileTree) (from_ : Place) (parts : List String) : Except SystemFault Entry :=
  match t.resolve from_ parts with
  | .error f => .error f
  | .ok place =>
    match t.find? place with
    | some entry => .ok entry
    | none => .error .notFound

def makeDir (t : FileTree) (from_ : Place) (parts : List String) : Except SystemFault FileTree :=
  match t.resolve from_ parts with
  | .error f => .error f
  | .ok place =>
    match t.find? place with
    | some _ => .error .alreadyExists
    | none => .ok (t.put place .directory)

def write (t : FileTree) (from_ : Place) (parts : List String) (content : List UInt8) :
    Except SystemFault FileTree :=
  match t.resolve from_ parts with
  | .error f => .error f
  | .ok place =>
    match t.find? place with
    | some .directory => .error .isDirectory
    | _ => .ok (t.put place (.file content))

def isDirectory (t : FileTree) (from_ : Place) (parts : List String) : Bool :=
  match t.status from_ parts with
  | .ok .directory => true
  | _ => false

/-- The directory that reversed parts name, with those above it that are missing. The result holds
what could be made even if something could not, and then the fault and the parts of the directory
that it concerns. -/
def makeDirsReversed (t : FileTree) (from_ : Place) :
    List String → FileTree × Option (SystemFault × List String)
  | [] => (t, none)
  | last :: up =>
    let parts := (last :: up).reverse
    let settle (t : FileTree) (fault : SystemFault) : FileTree × Option (SystemFault × List String) :=
      if t.isDirectory from_ parts then (t, none) else (t, some (fault, parts))
    match t.makeDir from_ parts with
    | .ok made => (made, none)
    -- Something above is missing, and is made first.
    | .error .notFound =>
      match t.makeDirsReversed from_ up with
      | (above, some fault) => (above, some fault)
      | (above, none) =>
        match above.makeDir from_ parts with
        | .ok made => (made, none)
        | .error .notFound => (above, some (.notFound, parts))
        | .error fault => settle above fault
    | .error fault => settle t fault

def makeDirs (t : FileTree) (from_ : Place) (parts : List String) :
    FileTree × Option (SystemFault × List String) :=
  t.makeDirsReversed from_ parts.reverse

def below (t : FileTree) (place : Place) : List (List String × Entry) :=
  t.entries.filterMap fun (p, e) =>
    if place.isPrefixOf p ∧ p ≠ place then some (p.drop place.length, e) else none

def remove (t : FileTree) (place : Place) : FileTree :=
  ⟨t.entries.filter fun (p, _) => !place.isPrefixOf p⟩

end FileTree

namespace Path

def start (p : Path) (cwd : Place) : Place :=
  match p.root with
  | .relative => cwd
  | _ => []

def status (p : Path) (cwd : Place) (t : FileTree) : Except SystemFault Entry :=
  if p.isLong then .error .nameTooLong else t.status (p.start cwd) p.parts

/-- Whether anything stands at a path. A path that is too long, or a name that no directory can hold, is
an unexpected fault. -/
def exists? (p : Path) (cwd : Place) (t : FileTree) : Except Defect Bool :=
  if p.hasNul then .ok false
  else match p.status cwd t with
    | .ok _ => .ok true
    | .error .nameTooLong => .error (.system .nameTooLong p.toString)
    | .error _ => .ok false

def file? (p : Path) (cwd : Place) (t : FileTree) : Except Defect (Option (List UInt8)) :=
  if p.hasNul then .ok none
  else match p.status cwd t with
    | .ok (.file content) => .ok (some content)
    | .error .nameTooLong => .error (.system .nameTooLong p.toString)
    | _ => .ok none

def isDirectory? (p : Path) (cwd : Place) (t : FileTree) : Except Defect Bool :=
  if p.hasNul then .ok false
  else match p.status cwd t with
    | .ok .directory => .ok true
    | .error .nameTooLong => .error (.system .nameTooLong p.toString)
    | _ => .ok false

/-- Why a directory or a file could not be made: a fault of the file system with the path that it
concerns, or a name that is no name. -/
inductive MakeFault where
  | system (fault : SystemFault) (path : Path)
  | nul
  deriving DecidableEq, Repr

def MakeFault.defect : MakeFault → Defect
  | .system fault path => .system fault path.toString
  | .nul => .nulInPath

def makeDirs (p : Path) (cwd : Place) (t : FileTree) : FileTree × Option MakeFault :=
  if p.hasNul then (t, some .nul)
  else if p.isLong then (t, some (.system .nameTooLong p))
  else match t.makeDirs (p.start cwd) p.parts with
    | (made, none) => (made, none)
    | (made, some (fault, parts)) => (made, some (.system fault ⟨p.root, parts⟩))

def write (p : Path) (cwd : Place) (content : List UInt8) (t : FileTree) :
    Except MakeFault FileTree :=
  if p.hasNul then .error .nul
  else if p.isLong then .error (.system .nameTooLong p)
  else match t.write (p.start cwd) p.parts content with
    | .ok written => .ok written
    | .error fault => .error (.system fault p)

end Path

end PluginCompiler
