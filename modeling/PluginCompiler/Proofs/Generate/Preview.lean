import PluginCompiler.Overview
import PluginCompiler.Proofs.FileTree.Extent
import PluginCompiler.Proofs.FileTree.Lookup
import PluginCompiler.Proofs.Generate.Completion

/-! The table of a plan beside the report of a run. Both ask what stands at the places of the outputs,
the one before the root is made and the other one afterwards, so that they differ if the root cannot
be followed before it is made. -/

set_option autoImplicit false

namespace PluginCompiler

open FileTree

variable {root : Path} {cwd : Place} {t : FileTree} {o : Output} {os : List Output}

namespace Output

def line (o : Output) (keep : Bool) : List String :=
  [o.path.toString, o.policy.word, if keep then "keep" else "write"]

def Spared (o : Output) (root : Path) (cwd : Place) (t : FileTree) : Prop :=
  o.policy = .once ∧ (root.join o.path).exists? cwd t = .ok true

instance (o : Output) (root : Path) (cwd : Place) (t : FileTree) :
    Decidable (o.Spared root cwd t) :=
  inferInstanceAs (Decidable (_ ∧ _))

def Hidden (o : Output) (root : Path) (cwd : Place) (t : FileTree) : Prop :=
  o.policy = .once ∧ (root.join o.path).Overlong cwd t

theorem willWrite_eq_error {defect : Defect} :
    o.willWrite root cwd t = .error defect ↔
      o.Hidden root cwd t ∧ defect = .system .nameTooLong (root.join o.path).toString := by
  rw [willWrite, Hidden]
  cases o.policy with
  | always => simp
  | once =>
    rw [and_assoc, ← Path.exists?_eq_error]
    cases (root.join o.path).exists? cwd t <;> simp [Except.map]

theorem willWrite_eq_false : o.willWrite root cwd t = .ok false ↔ o.Spared root cwd t := by
  rw [willWrite, Spared]
  cases o.policy with
  | always => simp
  | once => cases (root.join o.path).exists? cwd t <;> simp [Except.map]

theorem row_eq_ok {row : List String} :
    o.row root cwd t = .ok row ↔ ¬ o.Hidden root cwd t ∧ row = o.line (o.Spared root cwd t) := by
  rw [Output.row, line]
  cases answered : o.willWrite root cwd t with
  | error defect =>
    have hidden := (willWrite_eq_error.mp answered).1
    simp [Except.map, hidden]
  | ok answer =>
    have seen : ¬ o.Hidden root cwd t := fun hidden => by
      rw [willWrite_eq_error.mpr ⟨hidden, rfl⟩] at answered
      cases answered
    have spared : o.Spared root cwd t ↔ answer = false := by
      rw [← willWrite_eq_false, answered, Except.ok.injEq]
    cases answer <;> simp [Except.map, seen, spared, eq_comm]

end Output

namespace Plan

theorem rows_eq_ok {rows : List (List String)} :
    Plan.rows root cwd t os = .ok rows ↔
      (∀ o ∈ os, ¬ o.Hidden root cwd t) ∧ rows = os.map fun o => o.line (o.Spared root cwd t) := by
  induction os generalizing rows with
  | nil => simp [Plan.rows, eq_comm]
  | cons o rest ih =>
    rw [Plan.rows, List.forall_mem_cons, List.map_cons]
    cases listed : o.row root cwd t with
    | error defect =>
      have hidden : o.Hidden root cwd t := by
        by_contra seen
        rw [Output.row_eq_ok.mpr ⟨seen, rfl⟩] at listed
        cases listed
      simp [hidden]
    | ok row =>
      obtain ⟨seen, rfl⟩ := Output.row_eq_ok.mp listed
      cases further : Plan.rows root cwd t rest with
      | error defect =>
        have hidden : ¬ ∀ o ∈ rest, ¬ o.Hidden root cwd t := fun seen => by
          rw [ih.mpr ⟨seen, rfl⟩] at further
          cases further
        simp [Except.map, hidden]
      | ok rows' =>
        obtain ⟨seen', rfl⟩ := ih.mp further
        rw [and_iff_right ⟨seen, seen'⟩]
        simp [Except.map, eq_comm]

theorem rows_eq_error {defect : Defect} (failed : Plan.rows root cwd t os = .error defect) :
    ∃ o ∈ os, o.Hidden root cwd t ∧
      defect = .system .nameTooLong (root.join o.path).toString := by
  induction os with
  | nil => cases failed
  | cons o rest ih =>
    rw [Plan.rows] at failed
    cases listed : o.row root cwd t with
    | error defect' =>
      rw [listed] at failed
      cases failed
      rw [Output.row] at listed
      cases answered : o.willWrite root cwd t with
      | ok answer => simp [answered, Except.map] at listed
      | error defect =>
        rw [answered] at listed
        cases listed
        exact ⟨o, List.mem_cons_self, Output.willWrite_eq_error.mp answered⟩
    | ok row =>
      rw [listed] at failed
      cases further : Plan.rows root cwd t rest with
      | ok rows => simp [further, Except.map] at failed
      | error defect' =>
        simp only [further, Except.map, Except.error.injEq] at failed
        obtain ⟨o', member, hidden⟩ := ih (further.trans (congrArg _ failed))
        exact ⟨o', List.mem_cons_of_mem o member, hidden⟩

def listing (root : Path) (os : List Output) (keeps : Output → Bool) : Table :=
  ⟨["Path", "Policy", "Action"], os.map fun o => o.line (keeps o), some s!"{root} ({os.length} files)"⟩

theorem table_eq_ok {table : Table} :
    Plan.table root os cwd t = .ok table ↔
      (∀ o ∈ os, ¬ o.Hidden root cwd t) ∧ table = listing root os fun o => o.Spared root cwd t := by
  rw [Plan.table, listing]
  cases listed : Plan.rows root cwd t os with
  | error defect =>
    obtain ⟨o, member, hidden, _⟩ := rows_eq_error listed
    simp only [Except.map, reduceCtorEq, false_iff, not_and]
    exact fun seen => absurd hidden (seen o member)
  | ok rows =>
    obtain ⟨seen, rfl⟩ := rows_eq_ok.mp listed
    rw [and_iff_right seen]
    simp [Except.map, eq_comm]

theorem table_eq_error {defect : Defect} (failed : Plan.table root os cwd t = .error defect) :
    ∃ o ∈ os, o.Hidden root cwd t ∧
      defect = .system .nameTooLong (root.join o.path).toString := by
  rw [Plan.table] at failed
  cases listed : Plan.rows root cwd t os with
  | error defect' =>
    rw [listed] at failed
    cases failed
    exact rows_eq_error listed
  | ok rows => simp [listed, Except.map] at failed

end Plan

namespace Output

theorem exists?_iff_stands (rooted : t.Rooted) (regular : Plan.Regular o.path)
    (open_ : root.Passable cwd t) (clean : (root.join o.path).hasNul = false)
    (short : (root.join o.path).isLong = false)
    (fits : ∀ name ∈ o.path.parts, name.utf8ByteSize ≤ longestName) :
    (root.join o.path).exists? cwd t = .ok true ↔ t.find? (o.place root cwd) ≠ none := by
  rw [Path.exists?_eq_true, ← Option.ne_none_iff_exists']
  refine ⟨fun ⟨_, _, stands⟩ => stands, fun stands => ⟨clean, ?_, stands⟩⟩
  rw [place_eq regular] at stands
  exact (Path.passable_join regular.relative).mpr
    ⟨short, open_, rooted.passable stands regular.down fits⟩

theorem kept_iff_owned (regular : Plan.Regular o.path) (open_ : root.Passable cwd t) :
    o.Kept root cwd t ↔ o.Owned root cwd t := by
  rw [Kept, Owned, or_iff_left_of_imp]
  intro inside
  rcases List.eq_nil_or_concat root.parts with empty | ⟨up, last, parts⟩
  · simp [Path.trail, empty, Place.trail] at inside
  · rw [List.concat_eq_append] at parts
    rw [Path.trail, parts, Place.trail_concat, List.mem_append, List.mem_singleton] at inside
    rcases inside with inside | here
    · have above := open_.2
      rw [parts] at above
      simp [above.directory inside]
    · obtain ⟨head, rest, filled, _⟩ := regular.parts
      rw [place_eq regular, Path.place, parts] at here
      simp [filled] at here

theorem not_spared_of_blocked (relative : o.path.root = .relative)
    (blocked : ¬ root.Passable cwd t) : ¬ o.Spared root cwd t := by
  rintro ⟨_, there⟩
  obtain ⟨_, passable, _⟩ := Path.exists?_eq_true.mp there
  exact blocked ((Path.passable_join relative).mp passable).2.1

end Output

namespace Generate

variable {before after : FileTree} {report : Report}

/-- What the table of a plan says is what a run reports exactly if the root can be followed before the
run, or if the run keeps nothing. -/
theorem Completed.previewed_iff (completed : Completed root cwd os before after report)
    (rooted : before.Rooted) (regular : ∀ o ∈ os, Plan.Regular o.path)
    (reached : ∀ o ∈ os,
      (root.join o.path).hasNul = false ∧ (root.join o.path).Passable cwd after) :
    (report.written = (os.filter fun o => ¬ o.Spared root cwd before).map Output.path ∧
      report.kept = (os.filter fun o => o.Spared root cwd before).map Output.path) ↔
      root.Passable cwd before ∨ report.kept = [] := by
  rw [completed.written, completed.kept]
  by_cases open_ : root.Passable cwd before
  · refine iff_of_true ?_ (.inl open_)
    have spared : ∀ o ∈ os, (o.Kept root cwd before ↔ o.Spared root cwd before) := by
      intro o member
      obtain ⟨clean, passable⟩ := reached o member
      obtain ⟨short, _, below⟩ := (Path.passable_join (regular o member).relative).mp passable
      have fits : ∀ name ∈ o.path.parts, name.utf8ByteSize ≤ longestName := fun name inside =>
        (below.fits name inside).resolve_left fun up => (regular o member).down (up ▸ inside)
      rw [Output.kept_iff_owned (regular o member) open_, Output.Owned, Output.Spared,
        Output.exists?_iff_stands rooted (regular o member) open_ clean short fits]
    constructor
    · exact congrArg _ (List.filter_congr fun o member => by simp only [spared o member])
    · exact congrArg _ (List.filter_congr fun o member => by simp only [spared o member])
  · -- The table spares nothing then.
    have written : ∀ o ∈ os, ¬ o.Spared root cwd before := fun o member =>
      Output.not_spared_of_blocked (regular o member).relative open_
    have none : (os.filter fun o => o.Spared root cwd before) = [] := by
      simpa [List.filter_eq_nil_iff] using written
    rw [none, or_iff_right open_]
    refine ⟨fun both => both.2, fun empty => ⟨?_, empty⟩⟩
    have free : ∀ o ∈ os, ¬ o.Kept root cwd before := by
      simpa [List.filter_eq_nil_iff] using empty
    exact congrArg _ (List.filter_congr fun o member => by
      simp only [free o member, written o member])

end Generate

end PluginCompiler
