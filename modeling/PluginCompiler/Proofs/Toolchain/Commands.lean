import PluginCompiler.Proofs.FileTree.Lookup
import PluginCompiler.Toolchain

/-! The commands that a run of the tools tries: the formatter for each source file and then the
vendoring tool, up to the first one that does not end well. Nothing else ends a run but a name that
is too long to be looked up. -/

set_option autoImplicit false

namespace PluginCompiler

def Ending.IsSuccess : Ending → Prop
  | .finished code _ _ => code = 0
  | _ => False

namespace Command

variable {c : Command} {e : Ending} {es : Endings} {n : Nat} {cs tried : List Command}
  {result : Except Abort Unit}

theorem check_eq_ok : c.check e = .ok () ↔ e.IsSuccess := by
  obtain ⟨words, directory, timeout⟩ := c
  cases e with
  | finished code stdout stderr =>
    by_cases zero : code = 0 <;> simp [check, Ending.IsSuccess, zero]
  | timedOut => simp [check, Ending.IsSuccess]
  | notFound => cases words <;> simp [check, Ending.IsSuccess]
  | forbidden => cases words <;> simp [check, Ending.IsSuccess]

theorem check_eq_error (runnable : c.words ≠ []) (failed : ¬ e.IsSuccess) :
    ∃ output, c.check e = .error (.failure (.toolchain c.words output)) := by
  obtain ⟨words, directory, timeout⟩ := c
  cases words with
  | nil => exact absurd rfl runnable
  | cons program arguments =>
    cases e with
    | finished code stdout stderr =>
      have other : code ≠ 0 := failed
      exact ⟨stdout ++ stderr, by simp [check, other]⟩
    | timedOut => exact ⟨_, rfl⟩
    | notFound => exact ⟨_, rfl⟩
    | forbidden => exact ⟨_, rfl⟩

/-- Commands are tried in order up to the first that does not end well, which is then named. -/
structure Ran (es : Endings) (n : Nat) (cs tried : List Command) (result : Except Abort Unit) :
    Prop where
  finished : (∀ i < cs.length, (es (n + i)).IsSuccess) → tried = cs ∧ result = .ok ()
  stopped : ∀ (i : Nat) (inside : i < cs.length), (∀ j < i, (es (n + j)).IsSuccess) →
    ¬ (es (n + i)).IsSuccess →
    tried = cs.take (i + 1) ∧
      ∃ output, result = .error (.failure (.toolchain cs[i].words output))

theorem tryAll_of_passed (passed : ∀ i < cs.length, (es (n + i)).IsSuccess) :
    tryAll es n cs = (cs, .ok ()) := by
  induction cs generalizing n with
  | nil => rfl
  | cons c rest ih =>
    have first : c.check (es n) = .ok () := check_eq_ok.mpr (passed 0 (by simp))
    have further := ih (n := n + 1) fun i inside => by
      have later := passed (i + 1) (by simpa using inside)
      rwa [Nat.add_assoc, Nat.add_comm 1 i]
    simp only [tryAll, first, further]

theorem tryAll_of_failed (runnable : ∀ c ∈ cs, c.words ≠ []) {i : Nat} (inside : i < cs.length)
    (passed : ∀ j < i, (es (n + j)).IsSuccess) (failed : ¬ (es (n + i)).IsSuccess) :
    ∃ output, tryAll es n cs =
      (cs.take (i + 1), .error (.failure (.toolchain cs[i].words output))) := by
  induction cs generalizing n i with
  | nil => cases inside
  | cons c rest ih =>
    cases i with
    | zero =>
      obtain ⟨output, stops⟩ := check_eq_error (runnable c List.mem_cons_self) failed
      rw [Nat.add_zero] at stops
      exact ⟨output, by simp [tryAll, stops]⟩
    | succ i =>
      have first : c.check (es n) = .ok () := check_eq_ok.mpr (passed 0 (by simp))
      have shift (j : Nat) : n + 1 + j = n + (j + 1) := by omega
      obtain ⟨output, stops⟩ := ih (n := n + 1) (i := i)
        (fun c' member => runnable c' (List.mem_cons_of_mem c member)) (by simpa using inside)
        (fun j before => shift j ▸ passed (j + 1) (by omega)) (shift i ▸ failed)
      exact ⟨output, by simp [tryAll, first, stops]⟩

theorem ran_of_tryAll (es : Endings) (n : Nat) (runnable : ∀ c ∈ cs, c.words ≠ []) :
    Ran es n cs (tryAll es n cs).1 (tryAll es n cs).2 where
  finished := fun passed => by simp [tryAll_of_passed passed]
  stopped := fun i inside passed failed => by
    obtain ⟨output, stops⟩ := tryAll_of_failed runnable inside passed failed
    simp [stops]

theorem tryAll_prefix (es : Endings) (n : Nat) (cs : List Command) :
    (tryAll es n cs).1 <+: cs := by
  induction cs generalizing n with
  | nil => exact List.prefix_rfl
  | cons c rest ih =>
    rw [tryAll]
    split
    · simp
    · simpa using ih (n + 1)

theorem passed_or_failed (es : Endings) (n count : Nat) :
    (∀ i < count, (es (n + i)).IsSuccess) ∨
      ∃ i < count, (∀ j < i, (es (n + j)).IsSuccess) ∧ ¬ (es (n + i)).IsSuccess := by
  induction count with
  | zero => exact .inl fun i inside => absurd inside (Nat.not_lt_zero i)
  | succ count ih =>
    rcases ih with passed | ⟨i, inside, passed, failed⟩
    · by_cases last : (es (n + count)).IsSuccess
      · left
        intro i inside
        rcases Nat.lt_succ_iff_lt_or_eq.mp inside with before | rfl
        · exact passed i before
        · exact last
      · exact .inr ⟨count, Nat.lt_succ_self count, passed, last⟩
    · exact .inr ⟨i, Nat.lt_succ_of_lt inside, passed, failed⟩

theorem Ran.tried_eq (ran : Ran es n (cs ++ [c]) tried result)
    (passed : ∀ i < cs.length, (es (n + i)).IsSuccess) : tried = cs ++ [c] := by
  rcases passed_or_failed es n (cs ++ [c]).length with all | ⟨i, inside, before, failed⟩
  · exact (ran.finished all).1
  · have last : i = cs.length := by
      by_contra other
      rw [List.length_append, List.length_singleton] at inside
      exact failed (passed i (by omega))
    rw [(ran.stopped i inside before failed).1]
    exact List.take_of_length_le (by simp [last])

theorem tryAll_append (es : Endings) (n : Nat) (cs further : List Command) :
    tryAll es n (cs ++ further) =
      match tryAll es n cs with
      | (tried, .error abort) => (tried, .error abort)
      | (tried, .ok ()) =>
        (tried ++ (tryAll es (n + tried.length) further).1,
          (tryAll es (n + tried.length) further).2) := by
  induction cs generalizing n with
  | nil => rfl
  | cons c rest ih =>
    simp only [List.cons_append, tryAll, ih (n + 1)]
    cases c.check (es n) with
    | error abort => rfl
    | ok _ =>
      obtain ⟨tried, result⟩ := tryAll es (n + 1) rest
      cases result with
      | error abort => rfl
      | ok _ =>
        have shift : n + (tried.length + 1) = n + 1 + tried.length := by omega
        simp [shift]

end Command

namespace Path

variable {p : Path} {cwd : Place} {t : FileTree}

def Stands (p : Path) (cwd : Place) (t : FileTree) : Prop :=
  p.hasNul = false ∧ p.Passable cwd t ∧ ∃ entry, t.find? (p.place cwd) = some entry

theorem isDirectory?_eq_error {defect : Defect} :
    p.isDirectory? cwd t = .error defect ↔
      p.Overlong cwd t ∧ defect = .system .nameTooLong p.toString := by
  rw [isDirectory?, Overlong, ← status_eq_nameTooLong]
  cases p.hasNul with
  | true => simp
  | false =>
    cases p.status cwd t with
    | ok entry => cases entry <;> simp
    | error fault => cases fault <;> simp [eq_comm]

theorem isDirectory?_eq_true :
    p.isDirectory? cwd t = .ok true ↔
      p.hasNul = false ∧ p.Passable cwd t ∧ t.find? (p.place cwd) = some .directory := by
  rw [← status_eq_ok, isDirectory?]
  cases p.hasNul with
  | true => simp
  | false =>
    cases p.status cwd t with
    | ok entry => cases entry <;> simp
    | error fault => cases fault <;> simp

end Path

namespace Toolchain

variable {tools : Toolchain} {root : Path} {cwd : Place} {t : FileTree} {es : Endings}
  {files : List Path} {command : Command} {name : String} {names : List String}

/-- A name is looked up that is too long, as nothing stands at those before it. -/
def Unsearchable (root : Path) (cwd : Place) (t : FileTree) (names : List String) : Prop :=
  ∃ front name rest, names = front ++ name :: rest ∧
    (∀ earlier ∈ front, ¬ (root.child earlier).Stands cwd t) ∧ (root.child name).Overlong cwd t

theorem unsearchable_nil : ¬ Unsearchable root cwd t [] := by
  rintro ⟨front, name, rest, split, _⟩
  simp at split

theorem unsearchable_cons :
    Unsearchable root cwd t (name :: names) ↔
      (root.child name).Overlong cwd t ∨
        ¬ (root.child name).Stands cwd t ∧ Unsearchable root cwd t names := by
  constructor
  · rintro ⟨front, long, rest, split, missing, overlong⟩
    cases front with
    | nil =>
      cases split
      exact .inl overlong
    | cons head front =>
      cases split
      rw [List.forall_mem_cons] at missing
      exact .inr ⟨missing.1, front, long, rest, rfl, missing.2, overlong⟩
  · rintro (overlong | ⟨missing, front, long, rest, rfl, others, overlong⟩)
    · exact ⟨[], name, names, rfl, by simp, overlong⟩
    · exact ⟨name :: front, long, rest, rfl, List.forall_mem_cons.mpr ⟨missing, others⟩, overlong⟩

theorem anyExists_of_searchable (searchable : ¬ Unsearchable root cwd t names) :
    ∃ isSetUp, anyExists root cwd t names = .ok isSetUp ∧
      (isSetUp = true ↔ ∃ name ∈ names, (root.child name).Stands cwd t) := by
  induction names with
  | nil => exact ⟨false, rfl, by simp⟩
  | cons name rest ih =>
    rw [unsearchable_cons, not_or, not_and] at searchable
    cases found : (root.child name).exists? cwd t with
    | error defect => exact absurd (Path.exists?_eq_error.mp found).1 searchable.1
    | ok answer =>
      have stands : (root.child name).exists? cwd t = .ok true ↔ (root.child name).Stands cwd t :=
        Path.exists?_eq_true
      cases answer with
      | true =>
        have here : (root.child name).Stands cwd t := stands.mp found
        exact ⟨true, by rw [anyExists, found], by simp [here]⟩
      | false =>
        have missing : ¬ (root.child name).Stands cwd t := fun here => by
          rw [stands.mpr here] at found
          cases found
        obtain ⟨isSetUp, answered, same⟩ := ih (searchable.2 missing)
        exact ⟨isSetUp, by rw [anyExists, found, answered], by simp [same, missing]⟩

theorem anyExists_of_unsearchable (unsearchable : Unsearchable root cwd t names) :
    ∃ name ∈ names,
      anyExists root cwd t names = .error (.system .nameTooLong (root.child name).toString) := by
  induction names with
  | nil => exact absurd unsearchable unsearchable_nil
  | cons name rest ih =>
    by_cases overlong : (root.child name).Overlong cwd t
    · have refused := Path.exists?_eq_error.mpr ⟨overlong, rfl⟩
      exact ⟨name, List.mem_cons_self, by rw [anyExists, refused]⟩
    · obtain ⟨missing, further⟩ := (unsearchable_cons.mp unsearchable).resolve_left overlong
      obtain ⟨long, member, ended⟩ := ih further
      refine ⟨long, List.mem_cons_of_mem name member, ?_⟩
      cases found : (root.child name).exists? cwd t with
      | error defect => exact absurd (Path.exists?_eq_error.mp found).1 overlong
      | ok answer =>
        cases answer with
        | true => exact absurd (Path.exists?_eq_true.mp found) missing
        | false => rw [anyExists, found, ended]

/-- The command that vendors: an update once a manifest stands in the root, and a start before. -/
structure Vendors (tools : Toolchain) (root : Path) (cwd : Place) (t : FileTree)
    (command : Command) : Prop where
  update : (∃ name ∈ tools.config.vendorManifests, (root.child name).Stands cwd t) →
    command.words = tools.config.vendorUpdate
  start : (¬ ∃ name ∈ tools.config.vendorManifests, (root.child name).Stands cwd t) →
    command.words = tools.config.vendorInit
  directory : command.directory = some root

theorem exists_vendors (tools : Toolchain) (root : Path) (cwd : Place) (t : FileTree) :
    ∃ command, tools.Vendors root cwd t command := by
  by_cases stands : ∃ name ∈ tools.config.vendorManifests, (root.child name).Stands cwd t
  · refine ⟨⟨tools.config.vendorUpdate, some root, 0⟩, fun _ => rfl, fun missing => ?_, rfl⟩
    exact absurd stands missing
  · refine ⟨⟨tools.config.vendorInit, some root, 0⟩, fun there => ?_, fun _ => rfl, rfl⟩
    exact absurd there stands

theorem vendorCommand_of_searchable
    (searchable : ¬ Unsearchable root cwd t tools.config.vendorManifests) :
    ∃ command, tools.vendorCommand root cwd t = .ok command ∧ tools.Vendors root cwd t command := by
  obtain ⟨isSetUp, answered, same⟩ := anyExists_of_searchable searchable
  refine ⟨_, by rw [vendorCommand, answered]; rfl, fun stands => ?_, fun missing => ?_, rfl⟩
  · simp [same.mpr stands]
  · have fresh : isSetUp = false := by
      rw [← Bool.not_eq_true, same]
      exact missing
    simp [fresh]

theorem Vendors.runnable (vendors : tools.Vendors root cwd t command)
    (starts : tools.config.vendorInit ≠ []) (updates : tools.config.vendorUpdate ≠ []) :
    command.words ≠ [] := by
  by_cases stands : ∃ name ∈ tools.config.vendorManifests, (root.child name).Stands cwd t
  · rw [vendors.update stands]
    exact updates
  · rw [vendors.start stands]
    exact starts

theorem runnable_formatCommand (tools : Toolchain) (file : Path) :
    (tools.formatCommand file).words ≠ [] := by
  simp [formatCommand]

/-- The files below a root cannot be listed: the way to it, or to a directory below it, is too long. -/
def Unlistable (root : Path) (cwd : Place) (t : FileTree) : Prop :=
  root.Overlong cwd t ∨
    (root.hasNul = false ∧ root.Passable cwd t ∧ t.find? (root.place cwd) = some .directory) ∧
      ∃ names, (names, .directory) ∈ t.below (root.place cwd) ∧
        (root.join ⟨.relative, names⟩).isLong = true

theorem unlisted?_eq_none {entries : List (List String × Entry)} :
    unlisted? root entries = none ↔
      ∀ names, (names, .directory) ∈ entries → (root.join ⟨.relative, names⟩).isLong = false := by
  simp only [unlisted?, List.find?_eq_none, List.forall_mem_map, List.mem_filter, decide_eq_true_eq,
    Bool.not_eq_true, Prod.forall]
  exact ⟨fun all names member => all names _ ⟨member, rfl⟩,
    fun all names entry ⟨member, same⟩ => all names (same ▸ member)⟩

theorem sourceFiles_of_directory (clean : root.hasNul = false) (passable : root.Passable cwd t)
    (here : t.find? (root.place cwd) = some .directory) :
    sourceFiles root cwd t =
      match unlisted? root (t.below (root.place cwd)) with
      | some directory => .error (.system .nameTooLong directory.toString)
      | none => .ok ((sourceNames (t.below (root.place cwd))).map fun names =>
          root.join ⟨.relative, names⟩) := by
  rw [sourceFiles, Path.isDirectory?_eq_true.mpr ⟨clean, passable, here⟩,
    FileTree.resolve_of_passable passable.2]
  rfl

theorem sourceFiles_eq_error {defect : Defect} (failed : sourceFiles root cwd t = .error defect) :
    Unlistable root cwd t ∧ ∃ path, defect = .system .nameTooLong path := by
  cases looked : root.isDirectory? cwd t with
  | error refused =>
    obtain ⟨overlong, rfl⟩ := Path.isDirectory?_eq_error.mp looked
    rw [sourceFiles, looked] at failed
    cases failed
    exact ⟨.inl overlong, _, rfl⟩
  | ok answer =>
    cases answer with
    | false =>
      rw [sourceFiles, looked] at failed
      cases failed
    | true =>
      have here := Path.isDirectory?_eq_true.mp looked
      rw [sourceFiles_of_directory here.1 here.2.1 here.2.2] at failed
      cases none : unlisted? root (t.below (root.place cwd)) with
      | none =>
        rw [none] at failed
        cases failed
      | some directory =>
        rw [none] at failed
        cases failed
        refine ⟨.inr ⟨here, ?_⟩, _, rfl⟩
        -- Otherwise every directory would be listed, and the search would have ended without one.
        by_contra short
        have all := unlisted?_eq_none.mpr fun names member =>
          Bool.eq_false_iff.mpr fun long => short ⟨names, member, long⟩
        rw [all] at none
        cases none

theorem exists_sourceFiles_iff :
    (∃ files, sourceFiles root cwd t = .ok files) ↔ ¬ Unlistable root cwd t := by
  constructor
  · rintro ⟨files, listed⟩ (overlong | ⟨⟨clean, passable, here⟩, names, member, long⟩)
    · rw [sourceFiles, Path.isDirectory?_eq_error.mpr ⟨overlong, rfl⟩] at listed
      cases listed
    · rw [sourceFiles_of_directory clean passable here] at listed
      split at listed
      · cases listed
      · next none =>
        rw [unlisted?_eq_none.mp none names member] at long
        cases long
  · intro listable
    cases listed : sourceFiles root cwd t with
    | ok files => exact ⟨files, rfl⟩
    | error defect => exact absurd (sourceFiles_eq_error listed).1 listable

theorem run_of_listed (listed : sourceFiles root cwd t = .ok files) :
    tools.run root cwd t es =
      match Command.tryAll es 0 (files.map tools.formatCommand) with
      | (tried, .error abort) => ⟨tried, .error abort⟩
      | (tried, .ok ()) =>
        let after := tools.vendor root cwd t es tried.length
        ⟨tried ++ after.commands, after.result⟩ := by
  simp only [run, format, listed]
  obtain ⟨tried, result⟩ := Command.tryAll es 0 (files.map tools.formatCommand)
  cases result <;> rfl

theorem run_eq_tryAll (listed : sourceFiles root cwd t = .ok files)
    (vendors : tools.vendorCommand root cwd t = .ok command) :
    ((tools.run root cwd t es).commands, (tools.run root cwd t es).result) =
      Command.tryAll es 0 (files.map tools.formatCommand ++ [command]) := by
  rw [run_of_listed listed, Command.tryAll_append]
  obtain ⟨tried, result⟩ := Command.tryAll es 0 (files.map tools.formatCommand)
  cases result with
  | error abort => rfl
  | ok _ => simp only [vendor, vendors, Nat.zero_add]

theorem run_of_stopped (listed : sourceFiles root cwd t = .ok files) {i : Nat}
    (inside : i < files.length) (passed : ∀ j < i, (es j).IsSuccess) (failed : ¬ (es i).IsSuccess)
    (command : Command) :
    ((tools.run root cwd t es).commands, (tools.run root cwd t es).result) =
      Command.tryAll es 0 (files.map tools.formatCommand ++ [command]) := by
  have runnable : ∀ c ∈ files.map tools.formatCommand, c.words ≠ [] := by
    simp [runnable_formatCommand]
  obtain ⟨output, stopped⟩ := Command.tryAll_of_failed (n := 0) (i := i) runnable
    (by simpa using inside) (by simpa using passed) (by simpa using failed)
  rw [run_of_listed listed, Command.tryAll_append, stopped]

theorem run_of_unsearchable (listed : sourceFiles root cwd t = .ok files)
    (passed : ∀ i < files.length, (es i).IsSuccess)
    (unsearchable : Unsearchable root cwd t tools.config.vendorManifests) :
    ∃ name ∈ tools.config.vendorManifests, tools.run root cwd t es =
      ⟨files.map tools.formatCommand,
        .error (.defect (.system .nameTooLong (root.child name).toString))⟩ := by
  obtain ⟨name, member, ended⟩ := anyExists_of_unsearchable unsearchable
  have formatted : Command.tryAll es 0 (files.map tools.formatCommand) =
      (files.map tools.formatCommand, .ok ()) :=
    Command.tryAll_of_passed (by simpa using passed)
  refine ⟨name, member, ?_⟩
  simp [run_of_listed listed, formatted, vendor, vendorCommand, ended, Except.map]

theorem directory_of_vendorCommand (chosen : tools.vendorCommand root cwd t = .ok command) :
    command.directory = some root := by
  rw [vendorCommand] at chosen
  cases answered : anyExists root cwd t tools.config.vendorManifests with
  | error defect =>
    rw [answered] at chosen
    cases chosen
  | ok isSetUp =>
    rw [answered] at chosen
    cases chosen
    rfl

theorem mem_commands {c : Command} (member : c ∈ (tools.run root cwd t es).commands) :
    (∃ file, c = tools.formatCommand file) ∨ c.directory = some root := by
  cases listed : sourceFiles root cwd t with
  | error defect => simp [run, format, listed] at member
  | ok files =>
    have formats {tried : List Command} {result : Except Abort Unit}
        (ran : Command.tryAll es 0 (files.map tools.formatCommand) = (tried, result))
        (inside : c ∈ tried) : ∃ file, c = tools.formatCommand file := by
      have front := Command.tryAll_prefix es 0 (files.map tools.formatCommand)
      rw [ran] at front
      obtain ⟨file, _, same⟩ := List.mem_map.mp (front.subset inside)
      exact ⟨file, same.symm⟩
    rw [run_of_listed listed] at member
    split at member
    · next ran => exact .inl (formats ran member)
    · next tried ran =>
      rcases List.mem_append.mp member with inside | after
      · exact .inl (formats ran inside)
      · right
        rw [vendor] at after
        split at after
        · cases after
        · next command chosen =>
          have same := (Command.tryAll_prefix es tried.length [command]).subset after
          rw [List.mem_singleton.mp same, directory_of_vendorCommand chosen]

def Works (tools : Toolchain) (root : Path) (cwd : Place) (t : FileTree) (es : Endings) : Prop :=
  ∃ files command, sourceFiles root cwd t = .ok files ∧ tools.Vendors root cwd t command ∧
    Command.Ran es 0 (files.map tools.formatCommand ++ [command])
      (tools.run root cwd t es).commands (tools.run root cwd t es).result

def Formats (root : Path) (cwd : Place) (t : FileTree) (es : Endings) : Prop :=
  ∀ files, sourceFiles root cwd t = .ok files → ∀ i < files.length, (es i).IsSuccess

theorem Works.searchable (works : tools.Works root cwd t es) (formats : Formats root cwd t es) :
    ¬ Unsearchable root cwd t tools.config.vendorManifests := by
  intro unsearchable
  obtain ⟨files, command, listed, _, ran⟩ := works
  have passed := formats files listed
  have tried := ran.tried_eq (by simpa using passed)
  obtain ⟨name, _, ended⟩ := run_of_unsearchable listed passed unsearchable
  rw [ended] at tried
  simpa using congrArg List.length tried

theorem works_of_tryAll (starts : tools.config.vendorInit ≠ [])
    (updates : tools.config.vendorUpdate ≠ []) (listed : sourceFiles root cwd t = .ok files)
    (vendors : tools.Vendors root cwd t command)
    (same : ((tools.run root cwd t es).commands, (tools.run root cwd t es).result) =
      Command.tryAll es 0 (files.map tools.formatCommand ++ [command])) :
    tools.Works root cwd t es := by
  have runnable : ∀ c ∈ files.map tools.formatCommand ++ [command], c.words ≠ [] := by
    simp [or_imp, forall_and, runnable_formatCommand, vendors.runnable starts updates]
  have ran := Command.ran_of_tryAll es 0 runnable
  rw [← same] at ran
  exact ⟨files, command, listed, vendors, ran⟩

/-- A run goes wrong in another way than by a command only where a path or a name is too long: on the way
to the root or to a directory below it, or at a manifest that is looked for. -/
theorem works_iff (starts : tools.config.vendorInit ≠ [])
    (updates : tools.config.vendorUpdate ≠ []) :
    tools.Works root cwd t es ↔ ¬ Unlistable root cwd t ∧
      ¬ (Formats root cwd t es ∧ Unsearchable root cwd t tools.config.vendorManifests) := by
  constructor
  · intro works
    refine ⟨?_, fun ⟨formats, unsearchable⟩ => works.searchable formats unsearchable⟩
    obtain ⟨files, _, listed, _⟩ := works
    exact exists_sourceFiles_iff.mp ⟨files, listed⟩
  · rintro ⟨listable, sound⟩
    obtain ⟨files, listed⟩ := exists_sourceFiles_iff.mpr listable
    rcases Command.passed_or_failed es 0 files.length with passed | ⟨i, inside, before, failed⟩
    · have formats : Formats root cwd t es := fun files' listed' => by
        rw [listed] at listed'
        cases listed'
        simpa using passed
      obtain ⟨command, chosen, vendors⟩ :=
        vendorCommand_of_searchable fun unsearchable => sound ⟨formats, unsearchable⟩
      exact works_of_tryAll starts updates listed vendors (run_eq_tryAll listed chosen)
    · obtain ⟨command, vendors⟩ := exists_vendors tools root cwd t
      exact works_of_tryAll starts updates listed vendors
        (run_of_stopped listed inside (by simpa using before) (by simpa using failed) command)

/-- Otherwise all files are formatted, if they could be listed, and then the run breaks. -/
theorem run_of_not_works (starts : tools.config.vendorInit ≠ [])
    (updates : tools.config.vendorUpdate ≠ []) (broken : ¬ tools.Works root cwd t es) :
    ∃ path, (tools.run root cwd t es).result = .error (.defect (.system .nameTooLong path)) ∧
      ∀ files, sourceFiles root cwd t = .ok files →
        (tools.run root cwd t es).commands = files.map tools.formatCommand := by
  cases listed : sourceFiles root cwd t with
  | error defect =>
    obtain ⟨_, path, rfl⟩ := sourceFiles_eq_error listed
    exact ⟨path, by simp [run, format, listed], fun files other => by cases other⟩
  | ok files =>
    rw [works_iff starts updates, not_and, not_not] at broken
    obtain ⟨formats, unsearchable⟩ := broken (exists_sourceFiles_iff.mp ⟨files, listed⟩)
    obtain ⟨name, _, ended⟩ :=
      run_of_unsearchable listed (formats files listed) unsearchable
    refine ⟨(root.child name).toString, by rw [ended], fun files' same => ?_⟩
    cases same
    rw [ended]

end Toolchain

end PluginCompiler
