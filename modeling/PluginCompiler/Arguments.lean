/-! Command lines as options and other words. An option is a word with two dashes, whose value
follows it or an equals sign, or a letter behind one dash, which may share its word with others. -/

set_option autoImplicit false

namespace PluginCompiler

structure Flag where
  name : String
  letter : Option Char := none
  takesValue : Bool := false
  deriving DecidableEq, Repr, Inhabited

structure Given where
  name : String
  value : Option String
  deriving DecidableEq, Repr, Inhabited

namespace Arguments

/-- The flags in letters behind a dash. The rest of the word after a flag that takes a value is its
value; a flag at the end of the word may still wait for one. -/
def ofLetters (flags : List Flag) : List Char → Option (List Given × Option Flag)
  | [] => some ([], none)
  | c :: rest =>
    match flags.find? fun f => f.letter == some c with
    | none => none
    | some f =>
      if f.takesValue then
        if rest.isEmpty then some ([], some f)
        else some ([⟨f.name, some (String.ofList rest)⟩], none)
      else (ofLetters flags rest).map fun (given, waiting) => (⟨f.name, none⟩ :: given, waiting)

def ofWord (flags : List Flag) (word : List Char) : Option (List Given × Option Flag) :=
  let (name, value) := word.span (· != '=')
  match flags.find? fun f => '-' :: '-' :: f.name.toList == name with
  | some f =>
    match f.takesValue, value with
    | true, [] => some ([], some f)
    | true, _ :: value => some ([⟨f.name, some (String.ofList value)⟩], none)
    | false, [] => some ([⟨f.name, none⟩], none)
    | false, _ :: _ => none
  | none =>
    match word with
    | '-' :: '-' :: _ => none
    | '-' :: letters => ofLetters flags letters
    | _ => none

/-- A dash alone is no flag. -/
def isFlag (word : String) : Bool :=
  match word.toList with
  | '-' :: _ :: _ => true
  | _ => false

/-- The flags of a command line and its other words, or nothing if a flag is unknown or lacks its
value. Two dashes end the flags, and so does the first other word unless they are mixed. -/
def read (flags : List Flag) (mixed : Bool) : List String → Option (List Given × List String)
  | [] => some ([], [])
  | word :: rest =>
    if word = "--" then some ([], rest)
    else if isFlag word then
      match ofWord flags word.toList with
      | none => none
      | some (given, none) => (read flags mixed rest).map fun (more, words) => (given ++ more, words)
      | some (given, some f) =>
        match rest with
        | [] => none
        | value :: rest =>
          (read flags mixed rest).map fun (more, words) =>
            (given ++ ⟨f.name, some value⟩ :: more, words)
    else if mixed then (read flags mixed rest).map fun (more, words) => (more, word :: words)
    else some ([], word :: rest)

def isGiven (given : List Given) (name : String) : Bool := given.any fun g => g.name == name

def value? (given : List Given) (name : String) : Option String :=
  ((given.reverse.find? fun g => g.name == name).map (·.value)).join

end Arguments

end PluginCompiler
