import PluginCompiler.Proofs.Performance.Preview
import PluginCompiler.Proofs.Plan.Keys
import PluginCompiler.Proofs.Table.Cells

/-! What can be read back from the output of a run. A table is printed line by line and cell by cell, and
it is recovered exactly if what it copies from the spec has no tab and no break. -/

set_option autoImplicit false

namespace PluginCompiler

open Table (IsCell)

namespace Path

variable {c : Char} {cs : List Char}

theorem mem_segments_iff (other : c ≠ '/') : (∃ part ∈ segments cs, c ∈ part) ↔ c ∈ cs := by
  induction cs with
  | nil => simp [segments]
  | cons d ds ih =>
    obtain ⟨part, parts, split⟩ := List.exists_cons_of_ne_nil (Plan.segments_ne_nil ds)
    rw [split, List.exists_mem_cons_iff] at ih
    rw [segments, split, List.mem_cons, ← ih]
    by_cases slash : d = '/'
    · have apart : c ≠ d := slash ▸ other
      simp [slash, other]
    · simp [slash, or_assoc]

theorem mem_partsOf_iff (other : c ≠ '/') (other' : c ≠ '.') :
    (∃ part ∈ partsOf cs, c ∈ part.toList) ↔ c ∈ cs := by
  rw [← mem_segments_iff other, partsOf]
  constructor
  · rintro ⟨part, member, own⟩
    obtain ⟨chars, kept, rfl⟩ := List.mem_map.mp member
    exact ⟨chars, List.mem_of_mem_filter kept, by simpa using own⟩
  · rintro ⟨chars, member, own⟩
    have filled : chars ≠ [] := List.ne_nil_of_mem own
    have step : chars ≠ ['.'] := by
      rintro rfl
      exact other' (List.mem_singleton.mp own)
    exact ⟨String.ofList chars, List.mem_map_of_mem (List.mem_filter.mpr ⟨member, by simp [filled, step]⟩),
      by simpa using own⟩

theorem mem_toString_iff (other : c ≠ '/') (other' : c ≠ '.') (p : Path) :
    c ∈ p.toString.toList ↔ ∃ part ∈ p.parts, c ∈ part.toList := by
  have between : c ∉ "/".toList := by simpa using other
  rw [← Text.mem_intercalate_iff between p.parts, toString]
  cases p.root with
  | single => simp [other]
  | double => simp [other]
  | relative =>
    cases p.parts with
    | nil => simp [other']
    | cons => simp

theorem isCell_toString {p : Path} : IsCell p.toString ↔ ∀ part ∈ p.parts, IsCell part :=
  Table.isCell_iff_of_mem (mem_toString_iff (by decide) (by decide) p)
    (mem_toString_iff (by decide) (by decide) p)

theorem isCell_parts_ofString {s : String} : (∀ part ∈ (ofString s).parts, IsCell part) ↔ IsCell s :=
  (Table.isCell_iff_of_mem (mem_partsOf_iff (by decide) (by decide)).symm
    (mem_partsOf_iff (by decide) (by decide)).symm).symm

end Path

namespace Plan

variable {spec : Spec} {policy : WritePolicy} {path : Path}

theorem isCell_inDirectory {directory : List String} (fixed : ∀ part ∈ directory, IsCell part)
    (name : String) : IsCell (inDirectory directory name).toString ↔ IsCell name := by
  rw [Path.isCell_toString, inDirectory, Path.child, Path.join, ← Path.isCell_parts_ofString]
  split
  · rw [List.forall_mem_append, and_iff_right fixed]
  · rfl

theorem isCell_keyed {directory : List String} (fixed : ∀ part ∈ directory, IsCell part) (key : String)
    {ending : String} (own : IsCell ending) :
    IsCell (inDirectory directory (key ++ ending)).toString ↔ IsCell key := by
  rw [isCell_inDirectory fixed, Table.isCell_append, and_iff_left own]

theorem isCell_package (kind : HandlerKind) : ∀ part ∈ [kind.package], IsCell part := by
  cases kind <;> decide

theorem Listed.isCell (listed : Listed spec policy path) (declared : ∀ key ∈ spec.declared, IsCell key) :
    IsCell path.toString := by
  cases listed with
  | declaration member =>
    exact (isCell_keyed (isCell_package _) _ (by decide)).mpr
      (declared _ (Spec.mem_declared_of_handler _ member))
  | stub member =>
    exact (isCell_keyed (isCell_package _) _ (by decide)).mpr
      (declared _ (Spec.mem_declared_of_handler _ member))
  | route member =>
    exact (isCell_keyed (by decide) _ (by decide)).mpr
      (declared _ (Spec.mem_declared_of_handler .action member))
  | customType member =>
    exact (isCell_keyed (by decide) _ (by decide)).mpr (declared _ (Spec.mem_declared_of_type member))
  | _ => decide

theorem isCell_declared (source : List UInt8)
    (paths : ∀ o ∈ outputs spec source, IsCell o.path.toString) : ∀ key ∈ spec.declared, IsCell key := by
  have of_listed {path : Path} {policy : WritePolicy} (listed : Listed spec policy path) :
      IsCell path.toString := by
    obtain ⟨o, member, _, rfl⟩ := exists_of_listed source listed
    exact paths o member
  intro key member
  rcases Spec.mem_declared.mp member with ⟨kind, handler⟩ | type
  · have listed : Listed spec .always (declarationPath kind key) := .declaration handler
    exact (isCell_keyed (isCell_package _) key (by decide)).mp (of_listed listed)
  · exact (isCell_keyed (by decide) key (by decide)).mp (of_listed (.customType type))

theorem copies_listing (spec : Spec) (source : List UInt8) (root : Path) (keeps : Output → Bool) :
    Table.Copies (listing root (outputs spec source) keeps).rows spec.declared where
  filled := by simp [listing, Output.line]
  cells := by
    have rest (o : Output) (keep : Bool) :
        (∀ s ∈ o.line keep, IsCell s) ↔ IsCell o.path.toString := by
      have policy : IsCell o.policy.word := by cases o.policy <;> decide
      have action : IsCell (if keep then "keep" else "write") := by cases keep <;> decide
      simp [Output.line, policy, action]
    simp only [listing, List.forall_mem_map, rest]
    exact ⟨isCell_declared source, fun declared o member => (listed_of_mem member).isCell declared⟩

end Plan

def Invocation.stdout (run : Invocation) : String := Emit.unlines run.output

def Host.PrintsPlain (host : Host) (manner : Manner) : Prop :=
  manner.choice.settle manner.noColor host.isTerminal host.environment = .plain

namespace Performance

variable {screen : Screen} {host : Host} {raw spec : Spec} {view : View} {table : Table}
  {messages : List Message}

theorem tableOr_eq_some {isEmpty : Bool} {what : String} {t : Table}
    (shown : (tableOr isEmpty what t).1 = some table) : table = t := by
  rw [tableOr] at shown
  split at shown
  · cases shown
  · exact (Option.some.inj shown).symm

/-- A spec can be looked at in every way, unless a number of the summary is too long to be written. -/
theorem look_eq_error {defect : Defect} : look spec view = .error defect ↔
    view = .summary ∧ spec.http.isWritable = false ∧ defect = .digits .writing := by
  cases view with
  | summary =>
    rw [look, Spec.summaryTable]
    split
    · next writable => simp [Except.map, writable]
    · next unwritable => simp [Except.map, unwritable, eq_comm]
  | types => exact ⟨nofun, nofun⟩
  | handlers kind => exact ⟨nofun, nofun⟩
  | connection => exact ⟨nofun, nofun⟩

theorem recovers_look_iff (ok : raw.enrich = .ok spec)
    (shown : look spec view = .ok (some table, messages)) :
    table.Recovers table.plainText ↔ ∀ s ∈ spec.copied view, IsCell s := by
  have parameters : ∀ s ∈ parameterHeaders, IsCell s := by decide
  cases view with
  | summary =>
    obtain ⟨summary, given, same⟩ := map_eq_ok shown
    cases same
    rw [Spec.summaryTable] at given
    split at given
    · cases given
      have headers : ∀ s ∈ ["Field", "Value"], IsCell s := by decide
      exact spec.copies_summaryRows.recovers_iff (List.cons_ne_nil _ _) headers
    · cases given
  | types =>
    have headers : ∀ s ∈ ["Type", "Field", "Identifier", "Go type", "Embedded", "Nullable"], IsCell s := by
      decide
    rw [tableOr_eq_some (congrArg Prod.fst (Except.ok.inj shown))]
    exact (Spec.copies_typesTable ok).recovers_iff (List.cons_ne_nil _ _) headers
  | handlers kind =>
    have heading : IsCell kind.heading := by cases kind <;> decide
    rw [tableOr_eq_some (congrArg Prod.fst (Except.ok.inj shown))]
    exact (Spec.copies_handlersTable ok kind).recovers_iff (List.cons_ne_nil _ _)
      (List.forall_mem_cons.mpr ⟨heading, parameters⟩)
  | connection =>
    rw [tableOr_eq_some (congrArg Prod.fst (Except.ok.inj shown))]
    exact (Spec.copies_connectionTable ok).recovers_iff (List.cons_ne_nil _ _) parameters

theorem recovers_plan_iff {source : List UInt8} {os : List Output} {root : Path} {cwd : Place}
    {t : FileTree} (planned : spec.plan source = .ok os) (listed : Plan.table root os cwd t = .ok table) :
    table.Recovers table.plainText ↔ ∀ key ∈ spec.declared, IsCell key := by
  obtain ⟨_, rfl⟩ := Plan.table_eq_ok.mp listed
  obtain ⟨rfl, _⟩ := Spec.plan_eq_ok.mp planned
  have headers : ∀ s ∈ ["Path", "Policy", "Action"], IsCell s := by decide
  exact (Plan.copies_listing spec source root _).recovers_iff (List.cons_ne_nil _ _) headers

theorem output_ofPerformance (host : Host) (screen : Screen) (p : Performance) :
    (Invocation.ofPerformance host screen p).output =
      (p.table.bind fun t => (screen.tableLines t).toOption).getD [] := by
  rw [Invocation.ofPerformance]
  split
  · rfl
  · rfl
  · split
    · rfl
    · split <;> rfl

theorem stdout_ofPerformance (plain : screen.format = .plain) (host : Host) (p : Performance) :
    (Invocation.ofPerformance host screen p).stdout = (p.table.map Table.plainText).getD "" := by
  rw [Invocation.stdout, output_ofPerformance]
  cases p.table with
  | none => rfl
  | some t =>
    rw [Option.bind_some, Screen.tableLines, plain]
    rfl

variable {file package : String} {workspace : Option String} {source : List UInt8}

theorem display_table (plain : screen.format = .plain) (p : Performance) (shown : Option Table) :
    (p.display screen shown).table = shown := by
  cases shown with
  | none => rfl
  | some t => rw [display_of_shows (Screen.shows_of_not_rich (by simp [plain]) t)]

theorem inspect_table (plain : screen.format = .plain) (clean : (Path.ofString file).hasNul = false)
    (loaded : Spec.loadEnriched (.ofString file) "" host.environment.cwd host.tree = .ok (spec, source))
    (view : View) : ((Task.inspect view file).perform screen host).table =
      (look spec view).toOption.bind Prod.fst := by
  have performed : (Task.inspect view file).perform screen host =
      inspect screen host view (.ofString file) := if_neg (by simp [Task.file, clean])
  rw [performed, inspect, loaded]
  dsimp only
  cases seen : look spec view with
  | error defect => rfl
  | ok result =>
    obtain ⟨shown, said⟩ := result
    have displayed : ((start host).display screen shown).table = shown := display_table plain _ shown
    exact andThen_cases (P := fun q => q.table = shown) (fun _ _ => displayed) fun _ => displayed

theorem listed_of_prepare {path : Path} {flags : Config.Flags} {p : Prepared}
    (prepared : prepare host path package flags = .ok p) :
    Spec.loadEnriched path package host.environment.cwd host.tree = .ok (p.spec, p.source) ∧
      p.spec.plan p.source = .ok p.outputs := by
  rw [prepare] at prepared
  split at prepared
  · cases prepared
  · split at prepared
    · cases prepared
    · split at prepared
      · cases prepared
      · next loaded =>
        split at prepared
        · cases prepared
        · next planned =>
          cases prepared
          exact ⟨loaded, (planned_eq_ok.mp planned).2⟩

theorem fail_table (p : Performance) (advice : List Message) (abort : Abort) :
    (p.fail screen advice abort).table = p.table := by
  cases abort with
  | defect d => rfl
  | failure f =>
    rw [fail, andThen]
    split <;> rfl

theorem plan_table (plain : screen.format = .plain)
    (loaded : Spec.loadEnriched (.ofString file) package host.environment.cwd host.tree =
      .ok (spec, source))
    (shown : ((Task.plan file package workspace).perform screen host).table = some table) :
    ∃ root os, spec.plan source = .ok os ∧
      Plan.table root os host.environment.cwd host.tree = .ok table := by
  rw [perform_plan_of_prepare] at shown
  split at shown
  · rw [fail_table] at shown
    cases shown
  · next p prepared =>
    obtain ⟨loaded', planned⟩ := listed_of_prepare prepared
    rw [loaded, Except.ok.injEq, Prod.mk.injEq] at loaded'
    obtain ⟨rfl, rfl⟩ := loaded'
    split at shown
    · rw [fail_table] at shown
      cases shown
    · next listed =>
      rw [display_table plain] at shown
      cases shown
      exact ⟨_, _, planned, listed⟩

/-- What a view or a plan prints without decoration is the text of its table. The table is recovered from
it, line by line and cell by cell, exactly if what it copies from the spec has no tab and no break; whatever
derives from the spec has none. Only the summary of a server with a number that is too long has no table. -/
theorem prints_recoverably_iff (ok : raw.enrich = .ok spec) :
    (∀ view, (∃ defect, look spec view = .error defect) ↔
      view = .summary ∧ spec.http.isWritable = false) ∧
    (∀ view table messages, look spec view = .ok (some table, messages) →
      (table.Recovers table.plainText ↔ ∀ s ∈ spec.copied view, IsCell s)) ∧
    (∀ source os root cwd t table, spec.plan source = .ok os → Plan.table root os cwd t = .ok table →
      (table.Recovers table.plainText ↔ ∀ key ∈ spec.declared, IsCell key)) ∧
    ∀ (host : Host) manner file package source, host.PrintsPlain manner →
      Spec.loadEnriched (.ofString file) package host.environment.cwd host.tree = .ok (spec, source) →
        (package = "" → (Path.ofString file).hasNul = false → ∀ view,
          (Invocation.ofPerformance host (host.screen manner)
              ((Task.inspect view file).perform (host.screen manner) host)).stdout =
            (((look spec view).toOption.bind Prod.fst).map Table.plainText).getD "") ∧
        ∀ workspace,
          let planned := (Task.plan file package workspace).perform (host.screen manner) host
          (Invocation.ofPerformance host (host.screen manner) planned).stdout =
              (planned.table.map Table.plainText).getD "" ∧
            ∀ table, planned.table = some table → ∃ root os, spec.plan source = .ok os ∧
              Plan.table root os host.environment.cwd host.tree = .ok table := by
  refine ⟨fun view => ?_, fun view table messages shown => recovers_look_iff ok shown,
    fun source os root cwd t table planned listed => recovers_plan_iff planned listed,
    fun host manner file package source plain loaded => ?_⟩
  · constructor
    · rintro ⟨defect, failed⟩
      obtain ⟨summary, unwritable, _⟩ := look_eq_error.mp failed
      exact ⟨summary, unwritable⟩
    · rintro ⟨summary, unwritable⟩
      exact ⟨_, look_eq_error.mpr ⟨summary, unwritable, rfl⟩⟩
  · have format : (host.screen manner).format = .plain := plain
    refine ⟨?_, fun workspace => ⟨stdout_ofPerformance format host _, fun table shown =>
      plan_table format loaded shown⟩⟩
    rintro rfl clean view
    rw [stdout_ofPerformance format, inspect_table format clean loaded view]

def described : Spec where
  name := "x"
  description := some "a\nb"

def describedEnriched : Spec :=
  { described with http := ⟨defaultPort, defaultTimeout, defaultTimeout⟩, connectionKey := "\"\"" }

theorem enrich_described : described.enrich = .ok describedEnriched := rfl

def describedTable : Table :=
  ⟨["Field", "Value"], describedEnriched.summaryRows, some "Plugin Summary"⟩

theorem look_described : look describedEnriched .summary = .ok (some describedTable, []) := by
  have writable : describedEnriched.http.isWritable = true := by decide +kernel
  rw [look, Spec.summaryTable, writable]
  rfl

/-- The plan of a spec that declares nothing is recovered from what a run prints, and the summary of one with
a description of two lines is not. -/
theorem prints_recoverably_iff_stubbed :
    let planned := (Task.plan "s.yaml" "a/../p" none).perform (stubbed.screen {}) stubbed
    (bareRaw "a/../p").enrich = .ok (bare "a/../p") ∧ stubbed.PrintsPlain {} ∧
      (∃ table, planned.table = some table ∧
        table.Recovers (Invocation.ofPerformance stubbed (stubbed.screen {}) planned).stdout) ∧
      described.enrich = .ok describedEnriched ∧
      look describedEnriched .summary = .ok (some describedTable, []) ∧
      ¬ describedTable.Recovers describedTable.plainText := by
  intro planned
  obtain ⟨_, _, plans, runs⟩ := prints_recoverably_iff (enrich_bare "a/../p")
  obtain ⟨_, views, _, _⟩ := prints_recoverably_iff enrich_described
  have plain : stubbed.PrintsPlain {} := rfl
  have shows (t : Table) : (stubbed.screen {}).Shows t :=
    Screen.shows_of_not_rich (by simp [show (stubbed.screen {}).format = .plain from plain]) t
  have shown : planned.table = some (Plan.listing detour.root detour.outputs fun _ => false) :=
    congrArg Performance.table (plan_of_table (shows _) prepare_detour table_detour)
  obtain ⟨printed, made⟩ := (runs stubbed {} "s.yaml" _ _ plain
    (loadEnriched_stubbed (by decide) (by decide))).2 none
  obtain ⟨root, os, outputs, seen⟩ := made _ shown
  have recovers := (plans _ os root _ _ _ outputs seen).mpr (by decide)
  refine ⟨enrich_bare _, plain, ⟨_, shown, ?_⟩, enrich_described, look_described, fun claim => ?_⟩
  · rw [printed, shown, Option.map_some, Option.getD_some]
    exact recovers
  · have cells := (views .summary _ _ look_described).mp claim
    exact absurd (cells "a\nb" (by decide)) (by decide)

/-- The second line of a description is no record. -/
theorem not_prints_recoverably :
    ¬ ∀ (raw spec : Spec) view table messages, raw.enrich = .ok spec →
      look spec view = .ok (some table, messages) → table.Recovers table.plainText := by
  intro claim
  have recovers := claim described _ .summary _ _ enrich_described look_described
  have last : ["Description", "a\nb"] ∈ describedTable.rows := by
    simp [describedTable, Spec.summaryRows, describedEnriched, described]
  have own := recovers.isCell (List.mem_cons_of_mem _ last) (List.mem_cons_of_mem _ List.mem_cons_self)
  exact absurd own (by decide)

end Performance

end PluginCompiler
