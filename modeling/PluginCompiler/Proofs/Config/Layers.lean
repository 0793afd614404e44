import PluginCompiler.Performance
import PluginCompiler.Proofs.Json.Digits
import PluginCompiler.Proofs.Json.Objects
import PluginCompiler.Proofs.Spec.Address
import PluginCompiler.Proofs.Text.Decoding

/-! Layers of a configuration. Each setting comes from the highest layer that has it, and what lower
layers say of it has no effect at all, be it valid or not. -/

set_option autoImplicit false

namespace PluginCompiler

def Environment.workspace? (e : Environment) : Option String :=
  if e.text "PLUGSPEC_WORKSPACE" = "" then none else some (e.text "PLUGSPEC_WORKSPACE")

def Environment.SkipsToolchain (e : Environment) : Prop :=
  Text.lower (e.text "PLUGSPEC_SKIP_TOOLCHAIN") ∈ ["1", "true", "yes", "on"]

instance (e : Environment) : Decidable e.SkipsToolchain :=
  inferInstanceAs (Decidable (_ ∈ _))

inductive Environment.Sets (e : Environment) : String → Prop where
  | workspace (filled : e.text "PLUGSPEC_WORKSPACE" ≠ "") : Sets e "workspace_root"
  | toolchain (skips : e.SkipsToolchain) : Sets e "run_toolchain"

namespace Config

open Value (find? put field asBool asInt asList asOptional asText)
open Json (IsObject)

variable {α : Type} {name : String} {user project user' project' below above entries : Entries}
  {e e' : Environment} {f : Flags} {config : Config}

theorem find?_eq_none_of_not_mem (absent : Value.text name ∉ entries.map Prod.fst) :
    find? name entries = none := by
  induction entries with
  | nil => rfl
  | cons entry rest ih =>
    obtain ⟨k, v⟩ := entry
    rw [List.map_cons, List.mem_cons, not_or] at absent
    rw [Yaml.find?_cons_of_ne (Ne.symm absent.1), ih absent.2]

theorem find?_override (object : IsObject above) (below : Entries) :
    find? name (override below above) = (find? name above).or (find? name below) := by
  induction above generalizing below with
  | nil => rfl
  | cons entry rest ih =>
    obtain ⟨k, v⟩ := entry
    obtain ⟨own, rfl⟩ := object.named _ List.mem_cons_self
    have distinct := object.distinct
    rw [List.map_cons, List.nodup_cons] at distinct
    have later : IsObject rest :=
      ⟨fun e member => object.named e (List.mem_cons_of_mem _ member), distinct.2⟩
    have step : override below ((.text own, v) :: rest) = override (put (.text own) v below) rest := rfl
    rw [step, ih later, Value.find?_put]
    by_cases same : name = own
    · subst same
      rw [if_pos rfl, Yaml.find?_cons_self, find?_eq_none_of_not_mem distinct.1, Option.none_or,
        Option.some_or]
    · have other : Value.text own ≠ .text name := by
        rintro ⟨⟩
        exact same rfl
      rw [if_neg same, Yaml.find?_cons_of_ne other]

inductive Flags.Sets (f : Flags) : String → Prop where
  | workspace {s : String} (given : f.workspace = some s) : Sets f "workspace_root"
  | toolchain (skips : f.skipToolchain = true) : Sets f "run_toolchain"

def upperLayer (workspace : Option String) (skips : Bool) : Entries :=
  workspace.toList.map workspaceEntry ++ (if skips then [skipEntry] else [])

theorem flagLayer_eq (f : Flags) : flagLayer f = upperLayer f.workspace f.skipToolchain := rfl

theorem environmentLayer_eq (e : Environment) :
    environmentLayer e = upperLayer e.workspace? e.SkipsToolchain := by
  have skips : switchWords.contains (Text.lower (e.text "PLUGSPEC_SKIP_TOOLCHAIN")) =
      decide e.SkipsToolchain := by
    rw [List.contains_eq_mem]
    rfl
  simp only [environmentLayer, upperLayer, skips, Environment.workspace?]
  split <;> rfl

theorem isObject_upperLayer (workspace : Option String) (skips : Bool) :
    IsObject (upperLayer workspace skips) := by
  have apart : Value.text "workspace_root" ≠ .text "run_toolchain" := by simp
  cases workspace <;> cases skips <;>
    exact ⟨by simp [upperLayer, workspaceEntry, skipEntry],
      by simp [upperLayer, workspaceEntry, skipEntry, apart]⟩

theorem find?_upperLayer (name : String) (workspace : Option String) (skips : Bool) :
    find? name (upperLayer workspace skips) =
      if name = "workspace_root" then workspace.map .text
      else if name = "run_toolchain" ∧ skips then some (.bool false) else none := by
  by_cases first : name = "workspace_root"
  · subst first
    cases workspace <;> cases skips <;> rfl
  · by_cases second : name = "run_toolchain"
    · subst second
      cases workspace <;> cases skips <;> rfl
    · cases workspace <;> cases skips <;>
        simp [upperLayer, workspaceEntry, skipEntry, find?, first, second, Ne.symm first, Ne.symm second]

/-- What a configuration file says of a key, that of the project before that of the user. -/
def inFiles (user project : Entries) (name : String) : Option Value :=
  (find? name project).or (find? name user)

theorem find?_merged (object : IsObject project) (user : Entries) (e : Environment) (f : Flags) :
    find? name (merged user project e f) =
      (find? name (flagLayer f)).or
        ((find? name (environmentLayer e)).or (inFiles user project name)) := by
  rw [merged, find?_override (flagLayer_eq f ▸ isObject_upperLayer _ _),
    find?_override (environmentLayer_eq e ▸ isObject_upperLayer _ _), find?_override object, inFiles]

/-- A setting is what its value is read as, or a default if there is none. -/
def Gives (check : Value → Checked α) (default_ : α) (v? : Option Value) (a : α) : Prop :=
  match v? with
  | some v => check v = .valid a
  | none => a = default_

theorem field_eq_valid {check : Value → Checked α} {default_ a : α} :
    field entries name default_ check = .valid a ↔ Gives check default_ (find? name entries) a := by
  rw [field]
  cases find? name entries with
  | none => exact ⟨fun same => (Checked.valid.inj same).symm, fun same => congrArg _ same.symm⟩
  | some v => exact Checked.under_eq_valid

theorem ofEntries_eq_valid : ofEntries entries = .valid config ↔
    Gives (asOptional asPath) none (find? "workspace_root" entries) config.workspaceRoot ∧
    Gives asBool true (find? "run_toolchain" entries) config.runToolchain ∧
    Gives (asList asText) ["goimports", "-w"] (find? "formatter" entries) config.formatter ∧
    Gives (asList asText) ["dep", "init"] (find? "vendor_init" entries) config.vendorInit ∧
    Gives (asList asText) ["dep", "ensure"] (find? "vendor_update" entries) config.vendorUpdate ∧
    Gives (asList asText) ["Gopkg.toml", "manifest.json"] (find? "vendor_manifests" entries)
      config.vendorManifests ∧
    Gives asInt 300 (find? "toolchain_timeout" entries) config.timeout := by
  simp only [ofEntries, Checked.seq_eq_valid, Checked.map_eq_valid, field_eq_valid]
  constructor
  · rintro ⟨_, _, ⟨_, _, ⟨_, _, ⟨_, _, ⟨_, _, ⟨_, _, ⟨_, h₁, rfl⟩, h₂, rfl⟩, h₃, rfl⟩, h₄, rfl⟩, h₅, rfl⟩,
      h₆, rfl⟩, h₇, rfl⟩
    exact ⟨h₁, h₂, h₃, h₄, h₅, h₆, h₇⟩
  · rintro ⟨h₁, h₂, h₃, h₄, h₅, h₆, h₇⟩
    exact ⟨_, _, ⟨_, _, ⟨_, _, ⟨_, _, ⟨_, _, ⟨_, _, ⟨_, h₁, rfl⟩, h₂, rfl⟩, h₃, rfl⟩, h₄, rfl⟩, h₅, rfl⟩,
      h₆, rfl⟩, h₇, rfl⟩

theorem ofEntries_congr (same : ∀ name, find? name entries = find? name below) :
    ofEntries entries = ofEntries below := by
  simp only [ofEntries, field, same]

theorem ofLayers_eq_ok : ofLayers user project e f = .ok config ↔
    ofEntries (merged user project e f) = .valid config := by
  rw [ofLayers]
  cases ofEntries (merged user project e f) with
  | valid config' =>
    exact ⟨fun same => congrArg _ (Except.ok.inj same), fun same => congrArg _ (Checked.valid.inj same)⟩
  | invalid issues => exact ⟨nofun, nofun⟩

/-- Where the settings of a configuration come from. An empty workspace counts on the command line and
not in the environment, while an absent one counts in a file. The tools can only be switched off above
the files. -/
structure Settles (user project : Entries) (e : Environment) (f : Flags) (config : Config) :
    Prop where
  workspace_flag : ∀ s, f.workspace = some s → config.workspaceRoot = some (.ofString s)
  workspace_variable : f.workspace = none → e.text "PLUGSPEC_WORKSPACE" ≠ "" →
    config.workspaceRoot = some (.ofString (e.text "PLUGSPEC_WORKSPACE"))
  workspace_file : f.workspace = none → e.text "PLUGSPEC_WORKSPACE" = "" →
    Gives (asOptional asPath) none (inFiles user project "workspace_root") config.workspaceRoot
  toolchain_off : f.skipToolchain = true ∨ e.SkipsToolchain → config.runToolchain = false
  toolchain_file : ¬ (f.skipToolchain = true ∨ e.SkipsToolchain) →
    Gives asBool true (inFiles user project "run_toolchain") config.runToolchain
  formatter : Gives (asList asText) ["goimports", "-w"] (inFiles user project "formatter")
    config.formatter
  vendorInit : Gives (asList asText) ["dep", "init"] (inFiles user project "vendor_init")
    config.vendorInit
  vendorUpdate : Gives (asList asText) ["dep", "ensure"] (inFiles user project "vendor_update")
    config.vendorUpdate
  vendorManifests : Gives (asList asText) ["Gopkg.toml", "manifest.json"]
    (inFiles user project "vendor_manifests") config.vendorManifests
  timeout : Gives asInt 300 (inFiles user project "toolchain_timeout") config.timeout

theorem gives_workspace_iff {v? : Option Value} {root : Option Path} :
    Gives (asOptional asPath) none ((f.workspace.map .text).or ((e.workspace?.map .text).or v?)) root ↔
      (∀ s, f.workspace = some s → root = some (.ofString s)) ∧
      (f.workspace = none → e.text "PLUGSPEC_WORKSPACE" ≠ "" →
        root = some (.ofString (e.text "PLUGSPEC_WORKSPACE"))) ∧
      (f.workspace = none → e.text "PLUGSPEC_WORKSPACE" = "" →
        Gives (asOptional asPath) none v? root) := by
  have path (s : String) :
      Gives (asOptional asPath) none (some (.text s)) root ↔ root = some (.ofString s) :=
    ⟨fun given => (Checked.valid.inj given).symm, fun same => congrArg Checked.valid same.symm⟩
  cases f.workspace with
  | some s => simp [path]
  | none =>
    by_cases empty : e.text "PLUGSPEC_WORKSPACE" = ""
    · simp [Environment.workspace?, empty]
    · simp [Environment.workspace?, empty, path]

theorem gives_toolchain_iff {v? : Option Value} {runs flagged switched : Bool} :
    Gives asBool true ((if flagged = true then some (.bool false) else none).or
        ((if switched = true then some (.bool false) else none).or v?)) runs ↔
      (flagged = true ∨ switched = true → runs = false) ∧
      (¬ (flagged = true ∨ switched = true) → Gives asBool true v? runs) := by
  have off : Gives asBool true (some (.bool false)) runs ↔ runs = false :=
    ⟨fun given => (Checked.valid.inj given).symm, fun same => congrArg Checked.valid same.symm⟩
  cases flagged <;> cases switched <;> simp [off]

theorem find?_merged_of_other (object : IsObject project) (first : name ≠ "workspace_root")
    (second : name ≠ "run_toolchain") :
    find? name (merged user project e f) = inFiles user project name := by
  rw [find?_merged object, flagLayer_eq, environmentLayer_eq, find?_upperLayer, find?_upperLayer,
    if_neg first, if_neg fun both => second both.1, if_neg first, if_neg fun both => second both.1,
    Option.none_or, Option.none_or]

theorem settles_iff (object : IsObject project) :
    ofLayers user project e f = .ok config ↔ Settles user project e f config := by
  have workspace : find? "workspace_root" (merged user project e f) =
      (f.workspace.map .text).or
        ((e.workspace?.map .text).or (inFiles user project "workspace_root")) := by
    rw [find?_merged object, flagLayer_eq, environmentLayer_eq, find?_upperLayer, find?_upperLayer,
      if_pos rfl, if_pos rfl]
  have toolchain : find? "run_toolchain" (merged user project e f) =
      (if f.skipToolchain = true then some (.bool false) else none).or
        ((if decide e.SkipsToolchain = true then some (.bool false) else none).or
          (inFiles user project "run_toolchain")) := by
    rw [find?_merged object, flagLayer_eq, environmentLayer_eq, find?_upperLayer, find?_upperLayer]
    simp
  rw [ofLayers_eq_ok, ofEntries_eq_valid, workspace, toolchain, gives_workspace_iff,
    gives_toolchain_iff, decide_eq_true_iff]
  simp (disch := decide) only [find?_merged_of_other object]
  constructor
  · rintro ⟨⟨h₁, h₂, h₃⟩, ⟨h₄, h₅⟩, h₆, h₇, h₈, h₉, h₁₀⟩
    exact ⟨h₁, h₂, h₃, h₄, h₅, h₆, h₇, h₈, h₉, h₁₀⟩
  · rintro ⟨h₁, h₂, h₃, h₄, h₅, h₆, h₇, h₈, h₉, h₁₀⟩
    exact ⟨⟨h₁, h₂, h₃⟩, ⟨h₄, h₅⟩, h₆, h₇, h₈, h₉, h₁₀⟩

/-! ## Hidden settings -/

/-- New entries that differ from old ones in the values of hidden keys only. -/
def Replaced (hidden : String → Prop) (old new : Entries) : Prop :=
  List.Forall₂ (fun a b => b.1 = a.1 ∧ (b.2 = a.2 ∨ ∃ name, a.1 = .text name ∧ hidden name)) old new

theorem Replaced.find?_eq {hidden : String → Prop} {old new : Entries}
    (replaced : Replaced hidden old new) (shown : ¬ hidden name) :
    find? name new = find? name old := by
  induction replaced with
  | nil => rfl
  | @cons a b _ _ first _ ih =>
    obtain ⟨k, v⟩ := a
    obtain ⟨k', w⟩ := b
    obtain ⟨same, values⟩ : k' = k ∧ (w = v ∨ ∃ name, k = .text name ∧ hidden name) := first
    subst same
    by_cases own : k' = .text name
    · subst own
      rw [Yaml.find?_cons_self, Yaml.find?_cons_self]
      rcases values with same | ⟨name', same, covered⟩
      · exact congrArg some same
      · cases same
        exact absurd covered shown
    · rw [Yaml.find?_cons_of_ne own, Yaml.find?_cons_of_ne own, ih]

theorem Replaced.keys_eq {hidden : String → Prop} {old new : Entries}
    (replaced : Replaced hidden old new) : new.map Prod.fst = old.map Prod.fst := by
  induction replaced with
  | nil => rfl
  | cons first _ ih => rw [List.map_cons, List.map_cons, first.1, ih]

theorem Replaced.isObject {hidden : String → Prop} {old new : Entries}
    (replaced : Replaced hidden old new) (object : IsObject old) : IsObject new := by
  constructor
  · intro entry member
    have key := List.mem_map_of_mem (f := Prod.fst) member
    rw [replaced.keys_eq] at key
    obtain ⟨entry', member', same⟩ := List.mem_map.mp key
    exact same ▸ object.named entry' member'
  · rw [replaced.keys_eq]
    exact object.distinct

/-- What each level may say of the keys that a higher one sets. -/
structure Masked (f : Flags) (user project : Entries) (e : Environment) (user' project' : Entries)
    (e' : Environment) : Prop where
  user : Replaced (fun name => find? name project ≠ none ∨ e.Sets name ∨ f.Sets name) user user'
  project : Replaced (fun name => e.Sets name ∨ f.Sets name) project project'
  workspace : f.workspace = none → e'.text "PLUGSPEC_WORKSPACE" = e.text "PLUGSPEC_WORKSPACE"
  toolchain : f.skipToolchain = false →
    e'.text "PLUGSPEC_SKIP_TOOLCHAIN" = e.text "PLUGSPEC_SKIP_TOOLCHAIN"

theorem Flags.Sets.find?_ne_none (sets : f.Sets name) : find? name (flagLayer f) ≠ none := by
  rw [flagLayer_eq, find?_upperLayer]
  cases sets with
  | workspace given => simp [given]
  | toolchain skips => simp [skips]

theorem find?_environmentLayer_ne_none (sets : e.Sets name) :
    find? name (environmentLayer e) ≠ none := by
  rw [environmentLayer_eq, find?_upperLayer]
  cases sets with
  | workspace filled => simp [Environment.workspace?, filled]
  | toolchain skips => simp [skips]

theorem Masked.find?_environmentLayer (masked : Masked f user project e user' project' e')
    (shown : ¬ f.Sets name) :
    find? name (environmentLayer e') = find? name (environmentLayer e) := by
  rw [environmentLayer_eq, environmentLayer_eq, find?_upperLayer, find?_upperLayer]
  by_cases first : name = "workspace_root"
  · subst first
    have absent : f.workspace = none :=
      Option.eq_none_iff_forall_ne_some.mpr fun s given => shown (.workspace given)
    rw [if_pos rfl, if_pos rfl, Environment.workspace?, Environment.workspace?,
      masked.workspace absent]
  · rw [if_neg first, if_neg first]
    by_cases second : name = "run_toolchain"
    · subst second
      have runs : f.skipToolchain = false := Bool.eq_false_iff.mpr fun skips => shown (.toolchain skips)
      have skips : decide e'.SkipsToolchain = decide e.SkipsToolchain := decide_eq_decide.mpr <| by
        rw [Environment.SkipsToolchain, Environment.SkipsToolchain, masked.toolchain runs]
      rw [skips]
    · simp [second]

theorem Masked.find?_merged_eq (masked : Masked f user project e user' project' e')
    (object : IsObject project) (name : String) :
    find? name (merged user' project' e' f) = find? name (merged user project e f) := by
  rw [find?_merged object, find?_merged (masked.project.isObject object)]
  cases flagged : find? name (flagLayer f) with
  | some v => rw [Option.some_or, Option.some_or]
  | none =>
    have unflagged : ¬ f.Sets name := fun sets => sets.find?_ne_none flagged
    rw [masked.find?_environmentLayer unflagged]
    cases environment : find? name (environmentLayer e) with
    | some v => rw [Option.none_or, Option.none_or, Option.some_or, Option.some_or]
    | none =>
      have unset : ¬ (e.Sets name ∨ f.Sets name) :=
        not_or.mpr ⟨fun sets => find?_environmentLayer_ne_none sets environment, unflagged⟩
      rw [inFiles, inFiles, masked.project.find?_eq unset]
      cases inProject : find? name project with
      | some v => rfl
      | none =>
        have shown : ¬ (find? name project ≠ none ∨ e.Sets name ∨ f.Sets name) := by
          rw [inProject]
          simpa using unset
        rw [masked.user.find?_eq shown]

theorem Masked.ofLayers_eq (masked : Masked f user project e user' project' e')
    (object : IsObject project) : ofLayers user' project' e' f = ofLayers user project e f := by
  rw [ofLayers, ofLayers, ofEntries_congr (masked.find?_merged_eq object)]

/-! ## Files -/

theorem isObject_of_readFile {path : Path} {cwd : Place} {t : FileTree}
    (read : readFile path cwd t = .ok entries) : IsObject entries := by
  rw [readFile] at read
  split at read
  · cases read
  · cases read
    exact Json.isObject_nil
  · rw [entriesOf] at read
    split at read
    · cases read
    · dsimp only at read
      split at read
      · cases read
      · cases read
      · next parsed =>
        cases read
        exact Json.isObject_of_read parsed
      · cases read

/-- The files of a run hold these entries. -/
structure Reads (e : Environment) (t : FileTree) (user project : Entries) : Prop where
  user : readGlobal e t = .ok user
  project : readProject e.workingDirectory e.cwd t = .ok project

theorem reads_of_resolve {t : FileTree} (resolved : resolve e f t = .ok config) :
    ∃ user project, Reads e t user project := by
  rw [resolve] at resolved
  split at resolved
  · cases resolved
  · next user first =>
    split at resolved
    · cases resolved
    · next project second => exact ⟨user, project, first, second⟩

/-- Over all objects, a configuration is made up of what the highest level that has a setting says of it.
Whatever lower levels say of the same settings, the outcome stays, be it a configuration or what is
wrong with it. A run resolves to that outcome for the objects in its files. -/
theorem resolve_layered (e : Environment) (f : Flags) :
    (∀ user project, IsObject project →
      (∀ config, ofLayers user project e f = .ok config ↔ Settles user project e f config) ∧
      ∀ user' project' e', Masked f user project e user' project' e' →
        ofLayers user' project' e' f = ofLayers user project e f) ∧
    ∀ t, (∀ config, resolve e f t = .ok config → ∃ user project, Reads e t user project) ∧
      ∀ user project, Reads e t user project → IsObject user ∧ IsObject project ∧
        resolve e f t =
          (ofLayers user project e f).mapError fun problem => .failure (.config problem) := by
  refine ⟨fun user project object => ⟨fun config => settles_iff object, fun _ _ _ masked =>
    masked.ofLayers_eq object⟩, fun t => ⟨fun config => reads_of_resolve, fun user project reads => ?_⟩⟩
  have object : IsObject user := by
    have read := reads.user
    rw [readGlobal] at read
    split at read
    · cases read
    · exact isObject_of_readFile read
  refine ⟨object, isObject_of_readFile reads.project, ?_⟩
  rw [resolve, reads.user, reads.project]

/-- A machine on which both the user and the project have set a workspace, and the environment says to skip
the tools. -/
def divided : Host where
  environment := { bindings := [("HOME", "/h"), ("PLUGSPEC_SKIP_TOOLCHAIN", "Yes")] }
  tree := ⟨[(["h"], .directory), (["h", ".config"], .directory), (["h", ".config", "plugspec"], .directory),
    (["h", ".config", "plugspec", "config.json"], .file (Text.Utf8.encode
      "\x7b\"workspace_root\": \"u\"\x7d")),
    (["plugspec.json"], .file (Text.Utf8.encode "\x7b\"workspace_root\": \"p\"\x7d"))]⟩

def soleText? : Except Abort Entries → Option (String × String)
  | .ok [(.text name, .text s)] => some (name, s)
  | _ => none

theorem eq_of_soleText? {result : Except Abort Entries} {s : String}
    (sole : soleText? result = some (name, s)) : result = .ok [(.text name, .text s)] := by
  revert sole
  fun_cases soleText? result with
  | case1 => rintro ⟨⟩; rfl
  | case2 => exact nofun

theorem reads_divided : Reads divided.environment divided.tree
    [(.text "workspace_root", .text "u")] [(.text "workspace_root", .text "p")] where
  user := eq_of_soleText? (by decide +kernel)
  project := eq_of_soleText? (by decide +kernel)

theorem resolve_layered_divided :
    let user : Entries := [(.text "workspace_root", .text "u")]
    let other : Entries := [(.text "workspace_root", .list [])]
    let project : Entries := [(.text "workspace_root", .text "p")]
    let e := divided.environment
    let config : Config := { workspaceRoot := some (.ofString "p"), runToolchain := false }
    IsObject project ∧ Reads e divided.tree user project ∧ Masked {} user project e other project e ∧
      resolve e {} divided.tree = .ok config ∧ ofLayers other project e {} = .ok config := by
  intro user other project e config
  have object : IsObject project := ⟨by simp [project], by simp [project]⟩
  have skips : e.SkipsToolchain := by decide
  have masked : Masked {} user project e other project e := {
    user := .cons ⟨rfl, .inr ⟨_, rfl, .inl (by simp [project, find?])⟩⟩ .nil
    project := .cons ⟨rfl, .inl rfl⟩ .nil
    workspace := fun _ => rfl
    toolchain := fun _ => rfl }
  obtain ⟨objects, files⟩ := resolve_layered e {}
  obtain ⟨settled, hidden⟩ := objects user project object
  have chosen : ofLayers user project e {} = .ok config := (settled config).mpr {
    workspace_flag := fun s given => absurd given (by simp)
    workspace_variable := fun _ filled => absurd rfl filled
    workspace_file := fun _ _ => rfl
    toolchain_off := fun _ => rfl
    toolchain_file := fun runs => absurd (.inr skips) runs
    formatter := rfl
    vendorInit := rfl
    vendorUpdate := rfl
    vendorManifests := rfl
    timeout := rfl }
  obtain ⟨_, _, resolved⟩ := (files divided.tree).2 user project reads_divided
  rw [chosen] at resolved
  exact ⟨object, reads_divided, masked, resolved, (hidden _ _ _ masked).trans chosen⟩

/-! ## Hidden numbers -/

/-- A configuration file that only says how long a command may take. -/
def timing (digits : List Char) : String :=
  String.ofList (Json.sole "toolchain_timeout".toList digits)

def timed (user project : List Char) : Host where
  environment := { bindings := [("HOME", "/h")] }
  tree := ⟨[(["h"], .directory), (["h", ".config"], .directory), (["h", ".config", "plugspec"], .directory),
    (["h", ".config", "plugspec", "config.json"], .file (Text.Utf8.encode (timing user))),
    (["plugspec.json"], .file (Text.Utf8.encode (timing project)))]⟩

theorem unifyNewlines_timing {digits : List Char} (all : ∀ c ∈ digits, c.isDigit = true) :
    Text.unifyNewlines (timing digits).toList = (timing digits).toList := by
  apply Text.unifyNewlines_of_not_mem
  have clean : '\r' ∉ digits := fun inside => absurd (all _ inside) (by decide)
  simp [timing, Json.sole, clean]

theorem resolve_timed_of_excess {digits : List Char} (all : ∀ c ∈ digits, c.isDigit = true)
    (filled : digits.head? ≠ some '0') (many : Text.digitLimit < digits.length)
    (project : List Char) (f : Flags) :
    resolve (timed digits project).environment f (timed digits project).tree =
      .error (.defect (.digits (.reading digits.length))) := by
  cases digits with
  | nil => exact absurd many (Nat.not_lt_zero _)
  | cons d ds =>
    have refused : Json.read (timing (d :: ds)).toList =
        .error (.digits (.reading (d :: ds).length)) := by
      rw [timing, String.toList_ofList]
      exact Json.read_sole_of_excess (by simp [Json.IsPlain]) all
        (fun zero => filled (congrArg some zero)) many
    have decoded : Text.Utf8.decode (Text.Utf8.encode (timing (d :: ds))) = .ok (timing (d :: ds)) :=
      Text.Utf8.decode_eq_ok.mpr rfl
    have user : readGlobal (timed (d :: ds) project).environment (timed (d :: ds) project).tree =
        entriesOf ⟨.single, ["h", ".config", "plugspec", "config.json"]⟩
          (Text.Utf8.encode (timing (d :: ds))) := rfl
    rw [resolve, user, entriesOf, decoded]
    simp only [unifyNewlines_timing all, refused]

/-- The project says how long a command may take, and it still matters with how many digits the user has
said it. -/
theorem not_resolve_masked :
    let many := List.replicate 4301 '1'
    resolve (timed ['1'] ['5']).environment {} (timed ['1'] ['5']).tree = .ok { timeout := 5 } ∧
      resolve (timed many ['5']).environment {} (timed many ['5']).tree =
        .error (.defect (.digits (.reading 4301))) := by
  intro many
  constructor
  · have resolved : (resolve (timed ['1'] ['5']).environment {} (timed ['1'] ['5']).tree).toOption =
        some { timeout := 5 } := by
      decide +kernel
    cases outcome : resolve (timed ['1'] ['5']).environment {} (timed ['1'] ['5']).tree with
    | error abort => simp [outcome, Except.toOption] at resolved
    | ok config => simpa [outcome, Except.toOption] using resolved
  · have digits : ∀ c ∈ many, c.isDigit = true := fun c member => by
      rw [List.eq_of_mem_replicate member]
      rfl
    have length : many.length = 4301 := List.length_replicate ..
    have escapes := resolve_timed_of_excess digits (by simp [many])
      (by rw [length]; decide) ['5'] {}
    rwa [length] at escapes

end Config

end PluginCompiler
