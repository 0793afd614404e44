import PluginCompiler.Invocation

/-! The program on a real machine. A run is computed on a picture of the places that it touches,
and the places that it changed are then written. No tools are started here: every command counts as
one that is not installed. -/

set_option autoImplicit false

namespace PluginCompiler.Main

def chain (place : Place) : List Place :=
  (List.range place.length).map fun n => place.take (n + 1)

def placesOf (t : FileTree) (extra : List Place) : List Place :=
  ((t.entries.map (·.1) ++ extra).flatMap chain).eraseDups

def diskName (place : Place) : String := (⟨.single, place⟩ : Path).toString

/-- The number by which the system says that a directory is no file. -/
def isDirectoryNumber : UInt32 := 21

def lookAt (place : Place) : IO (Option Entry) := do
  try
    return some (.file (← IO.FS.readBinFile (diskName place)).toList)
  catch
    | .inappropriateType _ number _ =>
      return if number == isDirectoryNumber then some .directory else none
    | _ => return none

def picture : List Place → FileTree → IO FileTree
  | [], t => return t
  | place :: rest, t => do
    match ← lookAt place with
    | some entry => picture rest (t.put place entry)
    | none => picture rest t

def placeOf (e : Environment) (p : Path) : Place :=
  p.parts.foldl (fun place part => if part = ".." then place.dropLast else place ++ [part])
    (p.start e.cwd)

def firstPlaces (e : Environment) (words : List String) : List Place :=
  let configured := (e.configDirectory.map (·.child "config.json")).toOption.toList
  let data := e.dataDirectory.toOption.toList
  let given := match Request.ofWords words with
    | .perform _ task => [task.file]
    | _ => []
  ((configured ++ data ++ given ++ [e.workingDirectory.child "plugspec.json"]).map (placeOf e))

def writeEntry (place : Place) : Entry → IO Unit
  | .directory => IO.FS.createDirAll (diskName place)
  | .file content => IO.FS.writeBinFile (diskName place) (ByteArray.mk content.toArray)

def writeChanges (before after : FileTree) : IO Unit :=
  after.entries.forM fun (place, entry) =>
    if before.find? place = some entry then pure () else writeEntry place entry

def variableNames : List String :=
  ["HOME", "XDG_CONFIG_HOME", "XDG_DATA_HOME", "PLUGSPEC_WORKSPACE", "PLUGSPEC_SKIP_TOOLCHAIN",
   "GOPATH", "NO_COLOR", "TERM"]

def environment : IO Environment := do
  let bindings ← variableNames.filterMapM fun name => do
    return (← IO.getEnv name).map fun value => (name, value)
  let here := Path.ofString s!"{← IO.currentDir}"
  return { bindings, homes := [], cwd := here.parts }

/-- A run on a picture shows which further places it touches; with those in the picture it is run
again, so that what is there is seen. -/
def settle (host : Host) (words : List String) : Nat → List Place → IO (FileTree × Invocation)
  | rounds, places => do
    let before ← picture places .empty
    let done := Invocation.ofWords { host with tree := before } words
    let touched := placesOf done.tree places
    match rounds with
    | 0 => return (before, done)
    | rounds + 1 =>
      if touched.length ≤ places.length then return (before, done)
      else settle host words rounds touched

def run (words : List String) : IO UInt32 := do
  let e ← environment
  let host : Host :=
    { environment := e
      isTerminal := ← (← IO.getStdout).isTty
      endings := .ofList [.notFound]
      time := toString (← IO.monoMsNow) }
  let places := placesOf .empty (e.cwd :: firstPlaces e words)
  let (before, done) ← settle host words 3 places
  writeChanges before done.tree
  done.errors.forM IO.eprintln
  done.output.forM IO.println
  match done.exit with
  | .ok code => return UInt32.ofNat code
  | .error defect =>
    IO.eprintln defect.message
    return 1

end PluginCompiler.Main

def main (words : List String) : IO UInt32 := PluginCompiler.Main.run words
