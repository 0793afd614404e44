import PluginCompiler.Proofs.Emit.Dispatch
import PluginCompiler.Proofs.Emit.Imports

/-! The packages of a plugin that its own files import. All of them are imported under one root, and a
path tells under which. -/

set_option autoImplicit false

namespace PluginCompiler

def Go.ImportsUnder (root package : String) (ls : List String) : Prop :=
  Emit.quoted (root ++ "/" ++ package) ∈ Go.imports ls ∨
    "server " ++ Emit.quoted (root ++ "/" ++ package) ∈ Go.imports ls

namespace Emit

variable {root root' package package' path : String} {ls : List String} {h : Handler} {spec : Spec}

def standardPackages : List String :=
  ["encoding/json", "flag", "fmt", "log", "net/http", "os", "time"]

def ownPackages : List String := ["actions", "connection", "server/http", "triggers", "types"]

/-- Everything that a file imports is standard or a package of the plugin under one root. -/
def RootedIn (root : String) (ls : List String) : Prop :=
  ∀ entry ∈ Go.imports ls, entry ∈ standardPackages.map quoted ∨ ∃ package ∈ ownPackages,
    entry = quoted (root ++ "/" ++ package) ∨ entry = "server " ++ quoted (root ++ "/" ++ package)

theorem suffix_path (root package : String) :
    ("/" ++ package).toList <:+ (root ++ "/" ++ package).toList := by
  rw [String.append_assoc, String.toList_append (s := root)]
  exact List.suffix_append _ _

theorem path_not_standard (own : package ∈ ownPackages) :
    root ++ "/" ++ package ∉ standardPackages := by
  intro standard
  have apart : ∀ package ∈ ownPackages, ∀ path ∈ standardPackages,
      ¬ ("/" ++ package).toList <:+ path.toList := by
    decide
  exact apart package own _ standard (suffix_path root package)

/-- A path of a package ends with no other one, so that it tells the root. -/
theorem root_of_path (own : package ∈ ownPackages) (own' : package' ∈ ownPackages)
    (same : root ++ "/" ++ package = root' ++ "/" ++ package') : root = root' := by
  have apart : ∀ package ∈ ownPackages, ∀ package' ∈ ownPackages,
      ("/" ++ package).toList <:+ ("/" ++ package').toList → package = package' := by
    decide
  have ends := suffix_path root package
  rw [same] at ends
  have equal : package = package' := by
    rcases List.suffix_or_suffix_of_suffix ends (suffix_path root' package') with inside | inside
    · exact apart package own package' own' inside
    · exact (apart package' own' package own inside).symm
  subst equal
  rw [String.append_assoc, String.append_assoc] at same
  exact String.append_left_inj _ |>.mp same

theorem quoted_ne_named (s t : String) : quoted s ≠ "server " ++ quoted t := by
  intro same
  have chars := congrArg String.toList same
  simp [quoted] at chars

theorem RootedIn.root_eq (rooted : RootedIn root ls) (own : package ∈ ownPackages)
    (imports : Go.ImportsUnder root' package ls) : root' = root := by
  rcases imports with plain | named
  · rcases rooted _ plain with standard | ⟨package', own', same | same⟩
    · rw [List.mem_map_of_injective fun _ _ => quoted_inj.mp] at standard
      exact absurd standard (path_not_standard own)
    · exact root_of_path own own' (quoted_inj.mp same)
    · exact absurd same (quoted_ne_named _ _)
  · rcases rooted _ named with standard | ⟨package', own', same | same⟩
    · obtain ⟨path, _, same⟩ := List.mem_map.mp standard
      exact absurd same (quoted_ne_named _ _)
    · exact absurd same.symm (quoted_ne_named _ _)
    · exact root_of_path own own' (quoted_inj.mp ((String.append_right_inj _).mp same))

theorem rootedIn_of_not_mem (absent : "import (" ∉ ls) : RootedIn root ls := by
  intro entry member
  rw [Go.imports, Go.enclosed_of_not_mem absent] at member
  cases member

theorem Importing.rootedIn {isInternal : Bool} {expressions always : List String}
    (importing : Importing (Go.typeImports isInternal root expressions ++ always) ls)
    (own : ∀ path ∈ always, ∃ package ∈ ownPackages, path = root ++ "/" ++ package) :
    RootedIn root ls := by
  intro entry member
  rw [importing.imports_eq.1] at member
  obtain ⟨path, inside, rfl⟩ := List.mem_map.mp member
  rcases List.mem_append.mp inside with found | needed
  · rcases mem_typeImports.mp found with ⟨_, rfl⟩ | ⟨_, _, rfl⟩
    · exact .inl (List.mem_map_of_mem (by decide))
    · exact .inr ⟨"types", by decide, .inl rfl⟩
  · obtain ⟨package, listed, rfl⟩ := own path needed
    exact .inr ⟨package, listed, .inl rfl⟩

theorem rootedIn_handlerLines (kind : HandlerKind) (h : Handler) :
    RootedIn h.packageRoot (handlerLines kind h) := by
  refine (importing_handlerLines kind h).rootedIn fun path member => ?_
  rw [List.mem_singleton.mp member]
  exact ⟨"connection", by decide, by rw [String.append_assoc]; rfl⟩

theorem rootedIn_stubLines (kind : HandlerKind) (h : Handler) : RootedIn root (stubLines kind h) := by
  have clear : Each (Go.lead · ≠ some 'i') (stubLines kind h) := clear_stubLines (by decide) kind h
  exact rootedIn_of_not_mem (clear.not_mem rfl)

theorem rootedIn_connectionLines (spec : Spec) : RootedIn spec.packageRoot (connectionLines spec) := by
  have importing : Importing (connectionImports spec ++ []) (connectionLines spec) := by
    rw [List.append_nil]
    exact importing_connectionLines spec
  exact importing.rootedIn fun _ => nofun

theorem rootedIn_typeLines (t : CustomType) (spec : Spec) :
    RootedIn spec.packageRoot (typeLines t spec) := by
  have importing : Importing (typeImports t spec ++ []) (typeLines t spec) := by
    rw [List.append_nil]
    exact importing_typeLines t spec
  exact importing.rootedIn fun _ => nofun

theorem path_eq (root package : String) : root ++ ("/" ++ package) = root ++ "/" ++ package :=
  String.append_assoc.symm

theorem rootedIn_programLines (spec : Spec) : RootedIn spec.packageRoot (programLines spec) := by
  intro entry member
  rw [imports_programLines, List.mem_append] at member
  rcases member with standard | own
  · exact .inl (List.map_subset _ (by decide) standard)
  · right
    simp only [programImports, List.mem_append, List.mem_cons, List.not_mem_nil, or_false] at own
    rcases own with (actions | connection | server) | triggers
    · rw [List.mem_ite_nil_left, List.mem_singleton] at actions
      exact ⟨"actions", by decide, .inl (by rw [actions.2, ← path_eq]; rfl)⟩
    · exact ⟨"connection", by decide, .inl (by rw [connection, ← path_eq]; rfl)⟩
    · exact ⟨"server/http", by decide, .inr (by rw [server, ← path_eq]; rfl)⟩
    · rw [List.mem_ite_nil_left, List.mem_singleton] at triggers
      exact ⟨"triggers", by decide, .inl (by rw [triggers.2, ← path_eq]; rfl)⟩

theorem importsUnder_programLines (spec : Spec) :
    Go.ImportsUnder spec.packageRoot "connection" (programLines spec) := by
  left
  rw [imports_programLines, ← path_eq]
  simp [programImports]

theorem rootedIn_serverLines (spec : Spec) : RootedIn root (serverLines spec) := by
  have absent : "import" ++ " (" ∉
      [generatedFrom (spec.name ++ " plugin spec"), "", "package server", ""] := by
    refine Each.not_mem (c := 'i') ?_ rfl
    rw [each_cons, lead_generatedFrom]
    exact ⟨by decide, by simp [Go.lead]⟩
  have listed : Go.imports (serverLines spec) = [quoted "net/http", quoted "time"] := by
    rw [serverLines, List.append_assoc, List.append_assoc]
    exact (congrArg (List.filterMap Go.imported?) (Go.enclosed_parens absent _)).trans
      (Go.imported_indent _)
  intro entry member
  rw [listed] at member
  exact .inl (List.map_subset quoted (by decide : ["net/http", "time"] ⊆ standardPackages) member)

theorem rootedIn_routeLines (h : Handler) : RootedIn h.packageRoot (routeLines h) := by
  have absent : "import (" ∉ [generatedFrom (quoted h.rawName ++ " action"), "", "package server", ""] := by
    refine Each.not_mem (c := 'i') ?_ rfl
    rw [each_cons, lead_generatedFrom]
    exact ⟨by decide, by simp [Go.lead]⟩
  have listed : Go.imports (routeLines h) = [quoted "encoding/json", quoted "net/http"] ++
      [quoted (h.packageRoot ++ "/actions"), quoted (h.packageRoot ++ "/connection")] := by
    rw [routeLines, List.append_assoc, List.append_assoc]
    exact imports_parensOf absent _ _ _
  intro entry member
  rw [listed, List.mem_append] at member
  rcases member with standard | own
  · exact .inl (List.map_subset quoted
      (by decide : ["encoding/json", "net/http"] ⊆ standardPackages) standard)
  · right
    simp only [List.mem_cons, List.not_mem_nil, or_false] at own
    rcases own with actions | connection
    · exact ⟨"actions", by decide, .inl (by rw [actions, ← path_eq]; rfl)⟩
    · exact ⟨"connection", by decide, .inl (by rw [connection, ← path_eq]; rfl)⟩

end Emit

end PluginCompiler
