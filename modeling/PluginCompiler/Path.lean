import PluginCompiler.Text.Blank

/-! Paths with slashes. Empty segments and those that stay in place are dropped; steps upwards are
kept, since what they lead to depends on the tree. -/

set_option autoImplicit false

namespace PluginCompiler

/-- Where a path starts. Exactly two leading slashes are a root of their own. -/
inductive Root where
  | relative
  | single
  | double
  deriving DecidableEq, Repr, Inhabited

structure Path where
  root : Root
  parts : List String
  deriving DecidableEq, Repr, Inhabited

namespace Path

def segments : List Char → List (List Char)
  | [] => [[]]
  | c :: cs =>
    match segments cs with
    | [] => [[c]]
    | part :: parts => if c = '/' then [] :: part :: parts else (c :: part) :: parts

def partsOf (cs : List Char) : List String :=
  ((segments cs).filter fun p => p != [] && p != ['.']).map String.ofList

def rootOf : List Char → Root
  | '/' :: '/' :: '/' :: _ => .single
  | '/' :: '/' :: _ => .double
  | '/' :: _ => .single
  | _ => .relative

def ofString (s : String) : Path := ⟨rootOf s.toList, partsOf s.toList⟩

/-- A path inside another one; one with a root of its own replaces it. -/
def join (a b : Path) : Path := if b.root = .relative then ⟨a.root, a.parts ++ b.parts⟩ else b

def child (a : Path) (s : String) : Path := a.join (ofString s)

def parent (p : Path) : Path := ⟨p.root, p.parts.dropLast⟩

def toString (p : Path) : String :=
  let body := "/".intercalate p.parts
  match p.root with
  | .single => "/" ++ body
  | .double => "//" ++ body
  | .relative => if p.parts.isEmpty then "." else body

instance : ToString Path := ⟨Path.toString⟩

def hasNul (p : Path) : Bool := p.parts.any fun part => part.toList.contains '\x00'

def longestText : Nat := 4095

/-- No file system takes a path that is longer than this, whatever stands on the way. -/
def isLong (p : Path) : Bool := longestText < p.toString.utf8ByteSize

def precedes : List String → List String → Bool
  | [], _ => true
  | _ :: _, [] => false
  | a :: as, b :: bs => a < b || (a == b && precedes as bs)

end Path

end PluginCompiler
