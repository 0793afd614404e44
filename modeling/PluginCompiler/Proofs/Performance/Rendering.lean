import PluginCompiler.Proofs.Performance.Inspection
import PluginCompiler.Proofs.Plan.Rendering

/-! Templates over whole runs. None that is planned reads a name that stands for nothing, so that no task
ends with a template that failed; but a number of too many digits has no text in one. -/

set_option autoImplicit false

namespace PluginCompiler

variable {abort : Abort}

def Abort.IsTemplate : Abort → Prop
  | .failure (.template _ _ _) => True
  | .failure _ | .defect _ => False

theorem Abort.not_isTemplate (other : abort.IsSystem ∨ abort.IsTool ∨ abort.IsEarly) :
    ¬ abort.IsTemplate := by
  cases abort with
  | defect d => exact id
  | failure f =>
    cases f with
    | template name problem path => exact fun _ => other.elim id (Or.elim · id id)
    | _ => exact id

namespace Plan

variable {spec : Spec} {source : List UInt8} {root : Path} {cwd : Place} {t : FileTree}

theorem isSystem_of_write (failed : (Generate.write root (outputs spec source) cwd t).result =
    .error abort) : abort.IsSystem := by
  obtain system | ⟨o, member, unrendered⟩ := Generate.cause_of_write failed
  · exact system
  · obtain ⟨content, rendered⟩ | digits := render_or_digits member (root.join o.path)
    · cases rendered.symm.trans unrendered
    · cases digits.symm.trans unrendered
      trivial

end Plan

namespace Spec

variable {spec : Spec} {source : List UInt8} {workspace : Path} {cwd : Place} {t : FileTree}

theorem not_isTemplate_of_generate
    (failed : (spec.generate source workspace cwd t).result = .error abort) : ¬ abort.IsTemplate := by
  apply Abort.not_isTemplate
  cases planned : Performance.planned spec source workspace with
  | error failure =>
    rw [Performance.planned_eq_error planned] at failed
    cases failed
    exact .inr (.inr (Performance.isRefusal_of_planned planned))
  | ok layout =>
    obtain ⟨root, os⟩ := layout
    obtain ⟨home, listed⟩ := Performance.planned_eq_ok.mp planned
    rw [generate_of_plan home listed] at failed
    obtain ⟨rfl, _⟩ := plan_eq_ok.mp listed
    exact .inl (Plan.isSystem_of_write failed)

end Spec

namespace Performance

variable {screen : Screen} {host : Host} {task : Task}

theorem not_isTemplate_of_write {p : Performance} {config : Config} {workspace : Path} {spec : Spec}
    {source : List UInt8} {failure : Failure}
    (ended : (p.write screen host config workspace spec source).abort = some (.failure failure)) :
    ¬ (Abort.failure failure).IsTemplate := by
  obtain failed | tool := cause_of_write ended
  · exact Spec.not_isTemplate_of_generate failed
  · exact Abort.not_isTemplate (.inr (.inl tool))

theorem not_isTemplate_of_perform (ended : (task.perform screen host).abort = some abort) :
    ¬ abort.IsTemplate := by
  cases abort with
  | defect d => exact id
  | failure failure =>
    cases ends_of_perform ended with
    | unconfigured failed _ => exact Abort.not_isTemplate (.inr (.inr (isEarly_of_configure failed)))
    | unread failed =>
      rw [Path.loaded] at failed
      split at failed
      · cases failed
      · exact Abort.not_isTemplate (.inr (.inr (Spec.isEarly_of_loadEnriched failed)))
    | unplanned failed => exact Abort.not_isTemplate (.inr (.inr (isRefusal_of_planned failed)))
    | unwritten ended => exact not_isTemplate_of_write ended

end Performance

/-- A planned file has all that its template asks for on any branch, by itself or through the macros that
it imports. It is rendered if it writes no number, and otherwise unless a number has too many digits; all
files are exactly if no number of the server has. No run over the files of a spec, and no task, ends with
a template that failed. -/
theorem Spec.templates_render (spec : Spec) (source : List UInt8) :
    (∀ o ∈ Plan.outputs spec source, ∀ t c, o.body = .template t c →
      t.fits true c = true ∧
      (t.fits false c = true → ∀ path, ∃ text, t.render c path = .ok text) ∧
      ∀ path, (∃ text, t.render c path = .ok text) ∨
        t.render c path = .error (.defect (.digits .writing))) ∧
    ((∀ o ∈ Plan.outputs spec source, ∀ path, ∃ content, o.render path = .ok content) ↔
      spec.http.isWritable) ∧
    (∀ workspace cwd tree abort,
      (spec.generate source workspace cwd tree).result = .error abort → ¬ abort.IsTemplate) ∧
    ∀ screen host task abort,
      (Task.perform task screen host).abort = some abort → ¬ abort.IsTemplate := by
  refine ⟨fun o member t c body => ?_, Plan.forall_render_iff spec source,
    fun _ _ _ _ => not_isTemplate_of_generate, fun _ _ _ _ => Performance.not_isTemplate_of_perform⟩
  have fits := Plan.fits_of_mem member body
  refine ⟨fits, fun textual path => ?_, fun path => ?_⟩
  · exact (Template.render_sound textual path).resolve_right fun digits => absurd digits.1 (by decide)
  · exact (Template.render_sound fits path).imp_right And.right

theorem Spec.enrich_serving (http : HttpSettings) : ({ http } : Spec).enrich =
    .ok { http := http.withDefaults, connectionKey := "\"\"" } := rfl

/-- A port of too many digits has no text in the files of a server. -/
theorem Spec.not_templates_render :
    ¬ ∀ (raw spec : Spec) source, raw.enrich = .ok spec →
      ∀ o ∈ Plan.outputs spec source, ∀ path, ∃ content, o.render path = .ok content := by
  intro rendered
  have enriched := enrich_serving { port := Text.leastExcess }
  have writable := (Plan.forall_render_iff _ []).mp (rendered _ _ [] enriched)
  have filled : (Text.leastExcess : Int) ≠ 0 := by
    have positive : 0 < Text.leastExcess := by
      -- For any exponent, as this one is too large to be computed with.
      have all (n : Nat) : 0 < Nat.pow 10 n := Nat.pow_pos (by decide)
      unfold Text.leastExcess
      exact all Text.digitLimit
    omega
  have port : orDefault defaultPort Text.leastExcess = Text.leastExcess := if_neg filled
  simp [HttpSettings.isWritable, HttpSettings.withDefaults, port, Text.isWritable] at writable

end PluginCompiler
