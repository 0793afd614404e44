import PluginCompiler.Proofs.Generate.Completion
import PluginCompiler.Proofs.Plan.Policy

/-! Histories of a package: runs of the generator, each for a spec of its own, and edits of the
developer in between. A file that was generated once stays as it is, unless a later run takes its place
for the declaration of a handler that is named like the stub. -/

set_option autoImplicit false

namespace PluginCompiler

open FileTree

namespace Generate

structure Call where
  spec : Spec
  source : List UInt8
  workspace : Path
  cwd : Place

namespace Call

def outputs (c : Call) : List Output := Plan.outputs c.spec c.source

def generate (c : Call) (t : FileTree) : Outcome := c.spec.generate c.source c.workspace c.cwd t

structure Succeeds (c : Call) (home : Place) (t : FileTree) : Prop where
  slashless : c.spec.Slashless
  finished : ∃ report, (c.generate t).result = .ok report
  home : ∃ root, c.spec.outputRoot c.workspace = .ok root ∧ root.place c.cwd = home

/-- A handler is named like the stub at a path, and its declaration renders to something else than
what stands there. -/
def Replaces (c : Call) (path : Path) (entry : Entry) : Prop :=
  ∃ kind name, path = Plan.stubPath kind name ∧ name ++ "_run" ∈ (c.spec.handlers kind).names ∧
    ∃ root o content, c.spec.outputRoot c.workspace = .ok root ∧ o ∈ c.outputs ∧ o.path = path ∧
      o.render (root.join path) = .ok content ∧ entry ≠ .file content

end Call

/-- What happens to a package: the developer leaves any tree, or the generator runs. -/
inductive Event where
  | edit (t : FileTree)
  | run (call : Call)

/-- A history of one package, in which every run succeeds. -/
inductive History (home : Place) : FileTree → List Event → FileTree → Prop where
  | done (t : FileTree) : History home t [] t
  | edit {t out : FileTree} {events : List Event} (t' : FileTree)
      (later : History home t' events out) : History home t (.edit t' :: events) out
  | run {t out : FileTree} {events : List Event} {call : Call} (succeeds : call.Succeeds home t)
      (later : History home (call.generate t).tree events out) :
      History home t (.run call :: events) out

variable {home : Place} {t out before initial : FileTree} {past later : List Event} {a b : Call}
  {o o' : Output} {entry : Entry}

theorem History.slashless (history : History home initial past before)
    (member : .run a ∈ past) : a.spec.Slashless := by
  induction history with
  | done => cases member
  | edit t' later ih =>
    rcases List.mem_cons.mp member with same | member
    · cases same
    · exact ih member
  | run succeeds later ih =>
    rcases List.mem_cons.mp member with same | member
    · cases same
      exact succeeds.slashless
    · exact ih member

theorem Call.Succeeds.output_eq (succeeds : b.Succeeds home t) (member : o ∈ b.outputs)
    (member' : o' ∈ b.outputs) (same : o.path = o'.path) : o = o' := by
  obtain ⟨report, finished⟩ := succeeds.finished
  obtain ⟨_, os, _, planned⟩ := Spec.generate_eq_ok finished
  have distinct := Spec.nodup_path_of_plan planned
  obtain ⟨rfl, _⟩ := Spec.plan_eq_ok.mp planned
  exact List.inj_on_of_nodup_map distinct member member' same

/-- What becomes in a run of the entry that stands at the place of a path: an output that is always
written takes its place, or it is left there. -/
inductive Fate (b : Call) (home : Place) (t : FileTree) (path : Path) (entry : Entry) : Prop where
  | taken {root : Path} {o : Output} {content : List UInt8}
      (rooted : b.spec.outputRoot b.workspace = .ok root) (member : o ∈ b.outputs)
      (policy : o.policy = .always) (same : o.path = path)
      (renders : o.render (root.join path) = .ok content)
      (holds : (b.generate t).tree.find? (home ++ path.parts) = some (.file content))
  | left (apart : ∀ o ∈ b.outputs, o.path = path → o.policy ≠ .always)
      (stays : (b.generate t).tree.find? (home ++ path.parts) = some entry)

theorem Call.Succeeds.fate {path : Path} (succeeds : b.Succeeds home t)
    (regular : Plan.Regular path) (stands : t.find? (home ++ path.parts) = some entry) :
    Fate b home t path entry := by
  have apart : ∀ o ∈ b.outputs, ∀ o' ∈ b.outputs, o.path = o'.path → o = o' :=
    fun o member o' member' => succeeds.output_eq member member'
  obtain ⟨slashless, ⟨report, finished⟩, root, rooted, rfl⟩ := succeeds
  obtain ⟨root', os, rooted', planned⟩ := Spec.generate_eq_ok finished
  rw [rooted] at rooted'
  cases rooted'
  have completed := Spec.completed_of_generate slashless rooted planned finished
  have regulars := Spec.regular_of_plan slashless planned
  obtain ⟨rfl, _⟩ := Spec.plan_eq_ok.mp planned
  -- The policy of the output with the path decides; without one the place is nobody's.
  by_cases listed : ∃ o ∈ b.outputs, o.path = path
  · obtain ⟨o, member, rfl⟩ := listed
    have place : o.place root b.cwd = root.place b.cwd ++ o.path.parts := Output.place_eq regular
    cases policy : o.policy with
    | always =>
      obtain ⟨content, renders, holds⟩ := completed.always o member policy
      rw [place] at holds
      exact .taken rooted member policy rfl renders holds
    | once =>
      refine .left (fun o' member' same always => ?_) ?_
      · rw [apart o' member' o member same, policy] at always
        cases always
      · have kept := completed.existing o member policy (by rw [place, stands]; simp)
        rw [place] at kept
        exact kept.trans stands
  · refine .left (fun o member same => absurd ⟨o, member, same⟩ listed) ?_
    apply (Spec.generate_grows b.spec b.source b.workspace b.cwd t).stays _ stands
    rintro ⟨root', rooted', o, member, same⟩
    rw [rooted] at rooted'
    cases rooted'
    rw [Output.place_eq (regulars o member), List.append_cancel_left_eq] at same
    exact listed ⟨o, member, (regular.eq_of_prefix (regulars o member) (same ▸ List.prefix_rfl)).symm⟩

/-- A run changes what stands at a path that was generated once exactly if it replaces it. -/
theorem Call.Succeeds.find?_once (slashless : a.spec.Slashless) (member : o ∈ a.outputs)
    (once : o.policy = .once) (succeeds : b.Succeeds home t)
    (stands : t.find? (home ++ o.path.parts) = some entry) :
    (b.generate t).tree.find? (home ++ o.path.parts) = some entry ↔ ¬ b.Replaces o.path entry := by
  have listed : Plan.Listed a.spec .once o.path := once ▸ Plan.listed_of_mem member
  have always := listed.always_iff b.spec slashless succeeds.slashless
  cases succeeds.fate (listed.regular slashless) stands with
  | @taken root o' content rooted member' policy path renders holds =>
    -- The entry is written over, and stays only if it is what is written.
    rw [holds, Option.some.injEq]
    constructor
    · rintro rfl ⟨_, _, _, _, root', o'', content', rooted', member'', path', renders', other⟩
      rw [rooted] at rooted'
      cases rooted'
      rw [succeeds.output_eq member'' member' (path'.trans path.symm), renders] at renders'
      cases renders'
      exact other rfl
    · intro free
      by_contra other
      have declared : Plan.Listed b.spec .always o.path := by
        rw [← policy, ← path]
        exact Plan.listed_of_mem member'
      obtain ⟨kind, name, stub, named⟩ := always.mp declared
      exact free ⟨kind, name, stub, named, root, o', content, rooted, member', path, renders,
        Ne.symm other⟩
  | left apart stays =>
    refine iff_of_true stays ?_
    rintro ⟨kind, name, stub, named, _⟩
    obtain ⟨o', member', policy, path⟩ :=
      Plan.exists_of_listed b.source (always.mpr ⟨kind, name, stub, named⟩)
    exact apart o' member' path policy

/-- Nothing in a stretch of history touches what stands at a place: every edit leaves it, and no run
replaces it. -/
def Quiet (place : Place) (path : Path) (entry : Entry) (events : List Event) : Prop :=
  ∀ event ∈ events, match event with
    | .edit t => t.find? place = some entry
    | .run call => ¬ call.Replaces path entry

theorem History.stays (history : History home before later out) (slashless : a.spec.Slashless)
    (member : o ∈ a.outputs) (once : o.policy = .once)
    (stands : before.find? (home ++ o.path.parts) = some entry)
    (quiet : Quiet (home ++ o.path.parts) o.path entry later) :
    out.find? (home ++ o.path.parts) = some entry := by
  -- What stands at the place is the invariant of the induction on the history.
  induction history with
  | done => exact stands
  | edit t' later ih =>
    have left : t'.find? (home ++ o.path.parts) = some entry := quiet (.edit t') List.mem_cons_self
    exact ih left fun event member => quiet event (List.mem_cons_of_mem _ member)
  | @run t out events call succeeds later ih =>
    have free : ¬ call.Replaces o.path entry := quiet (.run call) List.mem_cons_self
    have left := (succeeds.find?_once slashless member once stands).mpr free
    exact ih left fun event member => quiet event (List.mem_cons_of_mem _ member)

/-- What stands at a path that was generated once changes in a run exactly if the run replaces it, and
so it stays until a run does or the developer changes it. -/
theorem generated_once_stays_iff (home : Place) (initial before : FileTree) (past : List Event)
    (a : Call) (o : Output) (entry : Entry) (history : History home initial past before)
    (earlier : .run a ∈ past) (member : o ∈ a.outputs) (once : o.policy = .once)
    (stands : before.find? (home ++ o.path.parts) = some entry) :
    (∀ b : Call, b.Succeeds home before →
      ((b.generate before).tree.find? (home ++ o.path.parts) = some entry ↔
        ¬ b.Replaces o.path entry)) ∧
    (∀ later out, History home before later out →
      Quiet (home ++ o.path.parts) o.path entry later →
      out.find? (home ++ o.path.parts) = some entry) := by
  have slashless := history.slashless earlier
  refine ⟨fun b succeeds => ?_, fun later out history quiet => ?_⟩
  · exact succeeds.find?_once slashless member once stands
  · exact history.stays slashless member once stands quiet

def Call.posting (name : String) : Call := ⟨Spec.posting name, [], ⟨.relative, []⟩, []⟩

theorem outputRoot_posting (name : String) :
    (Spec.posting name).outputRoot ⟨.relative, []⟩ = .ok ⟨.relative, ["p"]⟩ := by
  have trimmed : (Spec.posting name).rootName = "p" :=
    (by decide : String.ofList (Text.trimBy (· == '/') "p".toList) = "p")
  rw [Spec.outputRoot, trimmed, if_neg (by decide)]
  exact congrArg Except.ok (by decide)

theorem succeeds_posting {name : String} (slashless : (Spec.posting name).Slashless)
    (passed : ((Call.posting name).generate t).result.toOption.any (fun _ => true) = true) :
    (Call.posting name).Succeeds ["p"] t := by
  obtain ⟨report, finished, _⟩ := Spec.exists_ok_of_any passed
  exact ⟨slashless, ⟨report, finished⟩, ⟨.relative, ["p"]⟩, outputRoot_posting name, rfl⟩

def filled : FileTree :=
  ((Call.posting "post").generate .empty).tree.put ["p", "actions", "post_run.go"]
    (.file Spec.handWritten)

theorem history_filled :
    History ["p"] .empty [.run (.posting "post"), .edit filled] filled := by
  have first : (Call.posting "post").Succeeds ["p"] .empty :=
    succeeds_posting (by decide) (by decide +kernel)
  exact .run first (.edit filled (.done filled))

theorem stub_filled : ∃ o ∈ (Call.posting "post").outputs, o.policy = .once ∧
    o.path.parts = ["actions", "post_run.go"] ∧
    filled.find? (["p"] ++ o.path.parts) = some (.file Spec.handWritten) := by
  have listed : Plan.Listed (Spec.posting "post") .once (Plan.stubPath .action "post") :=
    .stub (by decide)
  obtain ⟨o, member, once, path⟩ := Plan.exists_of_listed [] listed
  have parts : o.path.parts = ["actions", "post_run.go"] := by
    rw [path]
    decide
  refine ⟨o, member, once, parts, ?_⟩
  rw [parts, filled, find?_put (by decide)]
  exact if_pos rfl

theorem generated_once_stays_iff_filled :
    ∃ o ∈ (Call.posting "post").outputs, o.policy = .once ∧
      (∀ b : Call, b.Succeeds ["p"] filled →
        ((b.generate filled).tree.find? (["p"] ++ o.path.parts) = some (.file Spec.handWritten) ↔
          ¬ b.Replaces o.path (.file Spec.handWritten))) := by
  obtain ⟨o, member, once, _, stands⟩ := stub_filled
  have stays := generated_once_stays_iff ["p"] .empty filled _ (.posting "post") o _ history_filled
    List.mem_cons_self member once stands
  exact ⟨o, member, once, stays.1⟩

/-- The action `post` is renamed to `post_run`, and its new declaration is written over the stub. -/
theorem not_generated_once_stays :
    ¬ ∀ (home : Place) (initial before : FileTree) (past : List Event) (a b : Call) (o : Output)
      (entry : Entry), (∀ c : Call, .run c ∈ past ∨ c = b →
        ∃ declared : Spec, declared.enrich = .ok c.spec) →
      History home initial past before → .run a ∈ past → b.Succeeds home before →
      o ∈ a.outputs → o.policy = .once → before.find? (home ++ o.path.parts) = some entry →
      (b.generate before).tree.find? (home ++ o.path.parts) = some entry := by
  intro claim
  obtain ⟨o, member, once, parts, stands⟩ := stub_filled
  have renamed : (Call.posting "post_run").Succeeds ["p"] filled :=
    succeeds_posting (by decide) (by decide +kernel)
  have enriched : ∀ c : Call, .run c ∈ [Event.run (.posting "post"), .edit filled] ∨
      c = .posting "post_run" → ∃ declared : Spec, declared.enrich = .ok c.spec := by
    rintro c (member | rfl)
    · simp only [List.mem_cons, Event.run.injEq, reduceCtorEq, List.not_mem_nil, or_false] at member
      subst member
      exact ⟨Spec.posting "post", rfl⟩
    · exact ⟨Spec.posting "post_run", rfl⟩
  have stays := claim ["p"] .empty filled _ (.posting "post") (.posting "post_run") o _ enriched
    history_filled List.mem_cons_self renamed member once stands
  rw [parts] at stays
  exact absurd stays (by decide +kernel)

end Generate

end PluginCompiler
