import PluginCompiler.Proofs.Generate.Run
import PluginCompiler.Proofs.Plan.Collision
import PluginCompiler.Spec.Enrich

/-! What a run that succeeds leaves behind. Every output holds what it is rendered to, except for what
stood at the place of one that is generated once; a second run then changes nothing. -/

set_option autoImplicit false

namespace PluginCompiler

open FileTree

/-- Something stands at the place of an output that is generated once, or is made there on the way to
the root. -/
def Output.Kept (o : Output) (root : Path) (cwd : Place) (before : FileTree) : Prop :=
  o.policy = .once ∧
    (before.find? (o.place root cwd) ≠ none ∨ o.place root cwd ∈ root.trail cwd)

instance (o : Output) (root : Path) (cwd : Place) (before : FileTree) :
    Decidable (o.Kept root cwd before) :=
  inferInstanceAs (Decidable (_ ∧ _))

namespace Generate

variable {root : Path} {cwd : Place} {o : Output} {os : List Output} {p : Progress}
  {t t' before after : FileTree} {report : Report}

structure Completed (root : Path) (cwd : Place) (os : List Output) (before after : FileTree)
    (report : Report) : Prop where
  always : ∀ o ∈ os, o.policy = .always → o.Rendered root cwd after
  missing : ∀ o ∈ os, o.policy = .once → before.find? (o.place root cwd) = none →
    o.place root cwd ∉ root.trail cwd → o.Rendered root cwd after
  existing : ∀ o ∈ os, o.policy = .once → before.find? (o.place root cwd) ≠ none →
    after.find? (o.place root cwd) = before.find? (o.place root cwd)
  crossed : ∀ o ∈ os, o.policy = .once → o.place root cwd ∈ root.trail cwd →
    after.find? (o.place root cwd) = some .directory
  elsewhere : ∀ x, (∀ o ∈ os, x ≠ o.place root cwd) → ∀ content,
    (after.find? x = some (.file content) ↔ before.find? x = some (.file content))
  home : report.root = root
  written : report.written = (os.filter fun o => ¬ o.Kept root cwd before).map Output.path
  kept : report.kept = (os.filter fun o => o.Kept root cwd before).map Output.path

theorem write_eq_ok (ended : (write root os cwd t).result = .ok report) :
    ∃ made p, root.makeDirs cwd t = (made, none) ∧
      emitAll root cwd ⟨made, [], [], []⟩ os = (p, none) ∧ (write root os cwd t).tree = p.tree ∧
      report = ⟨root, p.written.reverse, p.kept.reverse⟩ := by
  rw [write] at ended ⊢
  split at ended
  · cases ended
  · next made above =>
    split at ended
    · cases ended
    · next p ran =>
      cases ended
      exact ⟨made, p, above, ran, rfl, rfl⟩

theorem owned_iff_kept (made : Made (root.start cwd) root.parts before t) :
    o.Owned root cwd t ↔ o.Kept root cwd before := by
  rw [Output.Owned, Output.Kept, made.find?, Path.trail]
  by_cases member : o.place root cwd ∈ Place.trail (root.start cwd) root.parts <;> simp [member]

theorem completed_of_ran {made : FileTree} (above : root.makeDirs cwd before = (made, none))
    (ran : Ran root cwd os ⟨made, [], [], []⟩ p) :
    Completed root cwd os before p.tree ⟨root, p.written.reverse, p.kept.reverse⟩ := by
  have directories : Made (root.start cwd) root.parts before made := Path.makeDirs_eq_none above
  -- Making the root adds directories and nothing else.
  have grows : Grows (fun _ => False) before made := by
    have directories := root.makeDirs_grows cwd before
    rwa [above] at directories
  have kept : ∀ o : Output, o.Owned root cwd made ↔ o.Kept root cwd before :=
    fun o => owned_iff_kept directories
  refine ⟨fun o member always => ?_, fun o member once absent aside => ?_,
    fun o member once stood => ?_, fun o member once inside => ?_, fun x apart content => ?_, rfl,
    ?_, ?_⟩
  · apply ran.rendered o member
    rintro ⟨once, _⟩
    simp [always] at once
  · apply ran.rendered o member
    rw [kept]
    rintro ⟨_, stood | inside⟩
    · exact stood absent
    · exact aside inside
  · obtain ⟨entry, here⟩ := Option.ne_none_iff_exists'.mp stood
    rw [ran.owned o member ((kept o).mpr ⟨once, .inl stood⟩), here]
    exact grows.stays id here
  · rw [ran.owned o member ((kept o).mpr ⟨once, .inr inside⟩)]
    exact directories.find?_of_mem inside
  · rw [ran.grows.file_iff (fun ⟨o, member, here⟩ => apart o member here) content]
    exact grows.file_iff id content
  · simp [ran.written, kept]
  · simp [ran.kept, kept]

structure Settled (root : Path) (cwd : Place) (t : FileTree) (o : Output) : Prop where
  clean : (root.join o.path).hasNul = false
  passable : (root.join o.path).Passable cwd t
  stands : t.find? (o.place root cwd) ≠ none
  rendered : o.policy = .always → o.Rendered root cwd t

theorem Settled.congr (settled : Settled root cwd t o) (same : ∀ x, t'.find? x = t.find? x) :
    Settled root cwd t' o where
  clean := settled.clean
  passable := settled.passable.imp_right (·.mono fun x here => (same x).trans here)
  stands := by
    rw [same]
    exact settled.stands
  rendered := fun always => by
    obtain ⟨content, renders, holds⟩ := settled.rendered always
    exact ⟨content, renders, (same _).trans holds⟩

theorem settled_of_ran {p' : Progress} (ran : Ran root cwd os p p') (member : o ∈ os) :
    Settled root cwd p'.tree o := by
  obtain ⟨clean, passable⟩ := ran.reached o member
  refine ⟨clean, passable, ?_, fun always => ?_⟩
  · by_cases owned : o.Owned root cwd p.tree
    · rw [ran.owned o member owned]
      exact owned.2
    · obtain ⟨content, _, holds⟩ := ran.rendered o member owned
      simp [holds]
  · apply ran.rendered o member
    rintro ⟨once, _⟩
    simp [always] at once

theorem emit_of_settled (regular : Plan.Regular o.path) (settled : Settled root cwd p.tree o) :
    ∃ p', emit root cwd p o = (p', none) ∧ ∀ x, p'.tree.find? x = p.tree.find? x := by
  cases policy : o.policy with
  | once =>
    obtain ⟨entry, here⟩ := Option.ne_none_iff_exists'.mp settled.stands
    have there : (root.join o.path).exists? cwd p.tree = .ok true :=
      Path.exists?_eq_true.mpr ⟨settled.clean, settled.passable, entry, here⟩
    have keeps : o.willWrite root cwd p.tree = .ok false := by
      rw [Output.willWrite, policy, there]
      rfl
    simp only [emit, keeps]
    exact ⟨_, rfl, fun x => rfl⟩
  | always =>
    obtain ⟨content, renders, holds⟩ := settled.rendered policy
    obtain ⟨name, parts, _⟩ := Output.join_parts root cwd regular
    obtain ⟨open_, here⟩ := settled.passable.parent parts
    have directories := Path.makeDirs_of_directory (Path.hasNul_parent settled.clean) open_ here
    have other : p.tree.find? (o.place root cwd) ≠ some .directory := by simp [holds]
    have put : (root.join o.path).write cwd content p.tree =
        .ok (p.tree.put (o.place root cwd) (.file content)) :=
      Path.write_eq_ok.mpr ⟨settled.clean, settled.passable, other, rfl⟩
    have writes : o.willWrite root cwd p.tree = .ok true := by rw [Output.willWrite, policy]
    -- What is written stands there already.
    simp only [emit, writes, renders, directories, put]
    refine ⟨_, rfl, fun x => ?_⟩
    simp only [Progress.note]
    rw [find?_put_of_not_directory other]
    split
    · next same => rw [same, holds]
    · rfl

theorem emitAll_of_settled (regular : ∀ o ∈ os, Plan.Regular o.path)
    (settled : ∀ o ∈ os, Settled root cwd p.tree o) :
    ∃ p', emitAll root cwd p os = (p', none) ∧ ∀ x, p'.tree.find? x = p.tree.find? x := by
  -- Every step leaves a tree in which the outputs after it are settled as before.
  induction os generalizing p with
  | nil => exact ⟨p, rfl, fun _ => rfl⟩
  | cons o rest ih =>
    obtain ⟨middle, stepped, same⟩ :=
      emit_of_settled (regular o List.mem_cons_self) (settled o List.mem_cons_self)
    obtain ⟨p', ran, same'⟩ := ih (fun o' member => regular o' (List.mem_cons_of_mem o member))
      fun o' member => (settled o' (List.mem_cons_of_mem o member)).congr same
    rw [emitAll, stepped]
    exact ⟨p', ran, fun x => (same' x).trans (same x)⟩

theorem root_of_settled (regular : Plan.Regular o.path) (settled : Settled root cwd t o) :
    root.hasNul = false ∧ root.Passable cwd t ∧ t.find? (root.place cwd) = some .directory := by
  obtain ⟨head, rest, parts, _⟩ := regular.parts
  obtain ⟨clean, passable, _, _⟩ := settled
  obtain ⟨_, above, below⟩ := (Path.passable_join regular.relative).mp passable
  rw [parts] at below
  refine ⟨?_, above, below.1⟩
  rw [Path.join_of_relative regular.relative] at clean
  simp only [Path.hasNul, List.any_append, Bool.or_eq_false_iff] at clean ⊢
  exact clean.1

theorem Settled.stands_of_inside (settled : Settled root cwd t o) (regular : Plan.Regular o.path)
    {names : List String} (inside : names <+: o.path.parts) :
    t.find? (root.place cwd ++ names) ≠ none := by
  obtain ⟨rest, parts⟩ := inside
  cases rest with
  | nil =>
    have stands := settled.stands
    rwa [Output.place_eq regular, ← parts, List.append_nil] at stands
  | cons next rest =>
    -- A folder of an output is passed on the way to it.
    have passable := settled.passable.2
    have down : ".." ∉ names := fun up => regular.down (parts ▸ List.mem_append_left _ up)
    rw [Path.join_of_relative regular.relative, ← parts, ← List.append_assoc,
      passable_append] at passable
    have here : t.find? (Place.walk (Place.walk (root.start cwd) root.parts) names) =
        some .directory := by
      rw [← Place.walk_append]
      exact passable.2.1
    rw [Place.walk_down down] at here
    rw [Path.place, here]
    exact Option.some_ne_none _

theorem write_of_settled (filled : os ≠ []) (regular : ∀ o ∈ os, Plan.Regular o.path)
    (settled : ∀ o ∈ os, Settled root cwd t o) :
    (∃ report, (write root os cwd t).result = .ok report) ∧
      ∀ x, (write root os cwd t).tree.find? x = t.find? x := by
  obtain ⟨o, member⟩ := List.exists_mem_of_ne_nil os filled
  obtain ⟨clean, passable, here⟩ := root_of_settled (regular o member) (settled o member)
  obtain ⟨p, ran, same⟩ := emitAll_of_settled (p := ⟨t, [], [], []⟩) regular settled
  simp only [write, Path.makeDirs_of_directory clean passable here, ran]
  exact ⟨⟨_, rfl⟩, same⟩

end Generate

namespace Spec

variable {spec : Spec} {source : List UInt8} {workspace root : Path} {cwd : Place}
  {before : FileTree} {report : Generate.Report}

theorem generate_eq_ok
    (finished : (spec.generate source workspace cwd before).result = .ok report) :
    ∃ root os, spec.outputRoot workspace = .ok root ∧ spec.plan source = .ok os := by
  rw [generate] at finished
  split at finished
  · cases finished
  · next root home =>
    split at finished
    · cases finished
    · next os planned => exact ⟨root, os, home, planned⟩

theorem generate_of_plan {os : List Output} (home : spec.outputRoot workspace = .ok root)
    (planned : spec.plan source = .ok os) (t : FileTree) :
    spec.generate source workspace cwd t = Generate.write root os cwd t := by
  simp only [generate, home, planned]

theorem regular_of_plan {os : List Output} (slashless : spec.Slashless)
    (planned : spec.plan source = .ok os) : ∀ o ∈ os, Plan.Regular o.path := by
  obtain ⟨rfl, _⟩ := plan_eq_ok.mp planned
  exact fun o member => (Plan.listed_of_mem member).regular slashless

theorem nodup_path_of_plan {os : List Output} (planned : spec.plan source = .ok os) :
    (os.map Output.path).Nodup := by
  obtain ⟨rfl, distinct⟩ := plan_eq_ok.mp planned
  apply List.Nodup.of_map fun path : Path => Text.lower path.toString
  rw [List.map_map]
  exact distinct

theorem ran_of_generate {os : List Output} (slashless : spec.Slashless)
    (home : spec.outputRoot workspace = .ok root) (planned : spec.plan source = .ok os)
    (finished : (spec.generate source workspace cwd before).result = .ok report) :
    ∃ made p, root.makeDirs cwd before = (made, none) ∧
      Generate.Ran root cwd os ⟨made, [], [], []⟩ p ∧
      (spec.generate source workspace cwd before).tree = p.tree ∧
      report = ⟨root, p.written.reverse, p.kept.reverse⟩ := by
  rw [generate_of_plan home planned] at finished ⊢
  obtain ⟨made, p, above, ended, same, reported⟩ := Generate.write_eq_ok finished
  refine ⟨made, p, above, ?_, same, reported⟩
  have accompanied : Plan.Accompanied [] os := by
    obtain ⟨rfl, _⟩ := plan_eq_ok.mp planned
    exact Plan.accompanied_outputs slashless source
  exact Generate.ran_of_emitAll ended (regular_of_plan slashless planned)
    (nodup_path_of_plan planned) (fun x => (Path.makeDirs_eq_none above).find?_of_mem) accompanied
    (by simp)

theorem completed_of_generate {os : List Output} (slashless : spec.Slashless)
    (home : spec.outputRoot workspace = .ok root) (planned : spec.plan source = .ok os)
    (finished : (spec.generate source workspace cwd before).result = .ok report) :
    Generate.Completed root cwd os before (spec.generate source workspace cwd before).tree
      report := by
  obtain ⟨made, p, above, ran, same, rfl⟩ := ran_of_generate slashless home planned finished
  rw [same]
  exact Generate.completed_of_ran above ran

theorem aside_of_down {o : Output} (regular : Plan.Regular o.path) (down : ".." ∉ root.parts) :
    o.place root cwd ∉ root.trail cwd := by
  intro member
  obtain ⟨front, _, inside, same⟩ := Place.mem_trail_down down member
  rw [Output.place_eq regular, Path.place, Place.walk_down down, List.append_assoc,
    List.append_cancel_left_eq] at same
  obtain ⟨head, rest, parts, _⟩ := regular.parts
  have short := inside.length_le
  rw [← same, parts, List.length_append, List.length_cons] at short
  omega

/-- A run that succeeds writes all outputs but those of the developer, and touches no other file; the
next run with the same arguments succeeds and changes nothing. -/
theorem generate_completes (spec : Spec) (source : List UInt8) (workspace : Path) (cwd : Place)
    (before : FileTree) (report : Generate.Report) (slashless : spec.Slashless)
    (finished : (spec.generate source workspace cwd before).result = .ok report) :
    ∃ root os, spec.outputRoot workspace = .ok root ∧ spec.plan source = .ok os ∧
      Generate.Completed root cwd os before (spec.generate source workspace cwd before).tree report ∧
      (".." ∉ root.parts → ∀ o ∈ os, o.place root cwd ∉ root.trail cwd) ∧
      let again := spec.generate source workspace cwd
        (spec.generate source workspace cwd before).tree
      (∃ report', again.result = .ok report') ∧
        ∀ x, again.tree.find? x = (spec.generate source workspace cwd before).tree.find? x := by
  obtain ⟨root, os, home, planned⟩ := generate_eq_ok finished
  have regular := regular_of_plan slashless planned
  refine ⟨root, os, home, planned, completed_of_generate slashless home planned finished,
    fun down o member => aside_of_down (regular o member) down, ?_⟩
  obtain ⟨made, p, above, ran, same, _⟩ := ran_of_generate slashless home planned finished
  have filled : os ≠ [] := by
    obtain ⟨rfl, _⟩ := plan_eq_ok.mp planned
    simp [Plan.outputs, Plan.connectionOutputs]
  simp only [same]
  rw [generate_of_plan home planned]
  exact Generate.write_of_settled filled regular fun o member => Generate.settled_of_ran ran member

theorem exists_ok_of_any {ε α : Type} {result : Except ε α} {test : α → Bool}
    (passed : result.toOption.any test = true) : ∃ a, result = .ok a ∧ test a = true := by
  cases result with
  | error e => cases passed
  | ok a => exact ⟨a, rfl, passed⟩

theorem exists_ok_of_isSome {ε α : Type} {result : Except ε α}
    (ended : result.toOption.isSome = true) : ∃ a, result = .ok a := by
  cases result with
  | error e => cases ended
  | ok a => exact ⟨a, rfl⟩

def posting (name : String) : Spec :=
  { packageRoot := "p", http := ⟨defaultPort, defaultTimeout, defaultTimeout⟩
    connectionKey := "\"\""
    actions := ⟨[(name, { rawName := name, name := Naming.upperCamel name, packageRoot := "p" })],
      List.nodup_singleton name⟩ }

def handWritten : List UInt8 := Text.Utf8.encode "hand written"

/-- The developer has written the connect stub before the first run. -/
def developed : FileTree :=
  ⟨[(["p"], .directory), (["p", "connection"], .directory),
    (["p", "connection", "connect.go"], .file handWritten)]⟩

theorem generate_completes_posting :
    ∃ report root os, (posting "post").outputRoot ⟨.relative, []⟩ = .ok root ∧
      (posting "post").plan [] = .ok os ∧
      Generate.Completed root [] os developed
        ((posting "post").generate [] ⟨.relative, []⟩ [] developed).tree report ∧
      report.kept = [⟨.relative, ["connection", "connect.go"]⟩] := by
  have passed : ((posting "post").generate [] ⟨.relative, []⟩ [] developed).result.toOption.any
      (fun report => report.kept = [⟨.relative, ["connection", "connect.go"]⟩]) = true := by
    decide +kernel
  obtain ⟨report, finished, kept⟩ := exists_ok_of_any passed
  obtain ⟨root, os, home, planned, completed, _⟩ :=
    generate_completes (posting "post") [] ⟨.relative, []⟩ [] developed report (by decide) finished
  exact ⟨report, root, os, home, planned, completed, of_decide_eq_true kept⟩

/-- A spec whose root is reached through the place of one of its outputs. -/
def roundabout : Spec :=
  { packageRoot := "p/connection/connect.go/../.."
    http := ⟨defaultPort, defaultTimeout, defaultTimeout⟩
    connectionKey := "\"\"" }

/-- Making the root makes a directory in place of the connect stub, which is kept then. -/
theorem not_generate_renders_missing :
    ¬ ∀ (declared spec : Spec) (source : List UInt8) (workspace : Path) (cwd : Place)
      (before : FileTree) (report : Generate.Report), declared.enrich = .ok spec →
      spec.Slashless → (spec.generate source workspace cwd before).result = .ok report →
      ∃ root os, spec.outputRoot workspace = .ok root ∧ spec.plan source = .ok os ∧
        (∀ o ∈ os, o.policy = .once → before.find? (o.place root cwd) = none →
          o.Rendered root cwd (spec.generate source workspace cwd before).tree) ∧
        report.kept = (os.filter fun o =>
          o.policy = .once ∧ before.find? (o.place root cwd) ≠ none).map Output.path := by
  intro claim
  have passed : (roundabout.generate [] ⟨.relative, []⟩ [] .empty).result.toOption.any
      (fun report => report.kept = [⟨.relative, ["connection", "connect.go"]⟩]) = true := by
    decide +kernel
  obtain ⟨report, finished, kept⟩ := exists_ok_of_any passed
  obtain ⟨root, os, home, planned, _, same⟩ :=
    claim roundabout roundabout [] ⟨.relative, []⟩ [] .empty report rfl (by decide) finished
  cases home
  obtain ⟨rfl, _⟩ := plan_eq_ok.mp planned
  rw [of_decide_eq_true kept] at same
  exact absurd same (by decide +kernel)

end Spec

end PluginCompiler
