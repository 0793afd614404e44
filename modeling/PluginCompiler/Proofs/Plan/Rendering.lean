import PluginCompiler.Proofs.Plan.Files
import PluginCompiler.Proofs.Template.Shape

/-! Planned files and their templates. A planned file has all that its template may ask for, and is
rendered unless a number of the server has too many digits. -/

set_option autoImplicit false

namespace PluginCompiler

namespace Template

variable {t : Template} {c : Context} {scope : Scope} {calls : Calls}

/-- What planned files of a template are filled in with. -/
def sketch : Template → Sketch
  | handler _ | stub _ => [("handler", .handler)]
  | route => [("spec", .spec), ("handler", .handler)]
  | customType => [("spec", .spec), ("type", .type)]
  | connection | connect | cache | program | server | image | makefile => [("spec", .spec)]
  | shared => []

theorem fits_sketch (t : Template) : t.body.fits true (Macro.fits true) t.sketch = true := by
  cases t with
  | handler kind | stub kind => cases kind <;> decide +kernel
  | _ => decide +kernel

/-- What a body writes out whichever way its tests go. -/
def Body.outs : Body → List Expr
  | .done | .bind _ _ _ => []
  | .text _ rest | .each _ _ _ _ rest | .cond _ _ _ rest => rest.outs
  | .out e rest => e :: rest.outs

theorem Body.written_of_render {b : Body} {s : String} (rendered : b.render calls scope = .ok s) :
    ∀ e ∈ b.outs, ∃ r, (do (← e.eval calls scope).written) = .ok r := by
  induction b generalizing s with
  | done | bind => nofun
  | text _ rest ih =>
    obtain ⟨r, later, _⟩ := bind_eq_ok rendered
    exact ih later
  | out e rest ih =>
    obtain ⟨d, own, rendered⟩ := bind_eq_ok rendered
    obtain ⟨r, written, rendered⟩ := bind_eq_ok rendered
    obtain ⟨_, later, _⟩ := bind_eq_ok rendered
    refine List.forall_mem_cons.mpr ⟨⟨r, ?_⟩, ih later⟩
    rw [own]
    exact written
  | each x items keep body rest _ ih =>
    obtain ⟨_, _, rendered⟩ := bind_eq_ok rendered
    obtain ⟨_, _, rendered⟩ := bind_eq_ok rendered
    obtain ⟨_, _, rendered⟩ := bind_eq_ok rendered
    obtain ⟨_, later, _⟩ := bind_eq_ok rendered
    exact ih later
  | cond test yes no rest _ _ ih =>
    obtain ⟨_, _, rendered⟩ := bind_eq_ok rendered
    dsimp only at rendered
    split at rendered <;>
      obtain ⟨_, _, rendered⟩ := bind_eq_ok rendered <;>
      obtain ⟨_, later, _⟩ := bind_eq_ok rendered <;>
      exact ih later

theorem isWritable_of_written {n : Int} {r : String} (written : (Datum.number n).written = .ok r) :
    Text.isWritable n := by
  simp only [Datum.number, Datum.written] at written
  split at written
  · assumption
  · cases written

theorem isWritable_of_server {spec : Spec} {s : String} {path : Option String}
    (filled : c.spec = some spec) (rendered : server.render c path = .ok s) : spec.http.isWritable := by
  have bound : c.scope.lookup "spec" = some (.spec spec) := by
    rw [c.lookup_spec, filled, Option.map_some]
  have body : ∃ s, serverBody.render Macro.call c.scope = .ok s := by
    rw [render, renderAs] at rendered
    cases given : server.body.render Macro.call c.scope with
    | ok s => exact ⟨s, given⟩
    | error fault =>
      rw [given] at rendered
      cases rendered
  obtain ⟨_, body⟩ := body
  have outs := Body.written_of_render body
  have http : (ofSpec "http").eval Macro.call c.scope = .ok (.http spec.http) := by
    simp [bound]
  have number (name : String) {n : Int} (own : (Datum.http spec.http).field name = .ok (.number n))
      (member : Expr.field (ofSpec "http") name ∈ serverBody.outs) : Text.isWritable n := by
    obtain ⟨r, written⟩ := outs _ member
    have read : (Expr.field (ofSpec "http") name).eval Macro.call c.scope = .ok (.number n) := by
      rw [Expr.eval, http]
      exact own
    rw [read] at written
    exact isWritable_of_written written
  have port := number "port" rfl (by decide)
  have reading := number "read_timeout" rfl (by decide)
  have writing := number "write_timeout" rfl (by decide)
  simp [HttpSettings.isWritable, port, reading, writing]

end Template

namespace Plan

open Template

variable {spec : Spec} {source : List UInt8} {o : Output} {t : Template} {c : Context} {path : Path}
  {policy : WritePolicy}

theorem sketch_of_goFile (file : GoFile spec path policy t c) : c.sketch = t.sketch := by
  cases file <;> rfl

theorem sketch_of_mem (member : o ∈ outputs spec source) (body : o.body = .template t c) :
    c.sketch = t.sketch := by
  rcases goFile_or_build_of_mem member with ⟨t', c', same, file⟩ | build
  · obtain ⟨rfl, rfl⟩ : t = t' ∧ c = c' := by simpa [body] using same
    exact sketch_of_goFile file
  · simp only [buildOutputs, List.mem_cons, List.not_mem_nil, or_false] at build
    rcases build with rfl | rfl | rfl | rfl <;> cases body
    all_goals rfl

theorem fits_of_mem (member : o ∈ outputs spec source) (body : o.body = .template t c) :
    t.fits true c = true := by
  rw [Template.fits, sketch_of_mem member body]
  exact fits_sketch t

theorem render_or_digits (member : o ∈ outputs spec source) (target : Path) :
    (∃ content, o.render target = .ok content) ∨
      o.render target = .error (.defect (.digits .writing)) := by
  cases body : o.body with
  | verbatim content => exact .inl ⟨content, by rw [Output.render, body]⟩
  | template t c =>
    simp only [Output.render, body]
    rcases render_sound (fits_of_mem member body) (some target.toString) with ⟨s, rendered⟩ | ⟨_, failed⟩
    · exact .inl ⟨_, by rw [rendered]; rfl⟩
    · exact .inr (by rw [failed]; rfl)

theorem exists_lines?_of_template (member : o ∈ outputs spec source) (body : o.body = .template t c) :
    ∃ ls, o.lines? = some ls := by
  rcases goFile_or_build_of_mem member with ⟨t', c', same, file⟩ | build
  · obtain ⟨ls, filled⟩ := lines_of_goFile file
    exact ⟨ls, by simp [Output.lines?, same, filled, Except.toOption]⟩
  · simp only [buildOutputs, List.mem_cons, List.not_mem_nil, or_false] at build
    rcases build with rfl | rfl | rfl | rfl <;> cases body
    all_goals exact ⟨_, rfl⟩

/-- All planned files have contents exactly if all numbers of the server can be written. -/
theorem forall_render_iff (spec : Spec) (source : List UInt8) :
    (∀ o ∈ outputs spec source, ∀ target, ∃ content, o.render target = .ok content) ↔
      spec.http.isWritable := by
  constructor
  · intro rendered
    obtain ⟨o, member, _, _, body⟩ := exists_of_goFile source (.server : GoFile spec _ _ _ _)
    obtain ⟨content, written⟩ := rendered o member o.path
    simp only [Output.render, body] at written
    obtain ⟨text, written, _⟩ := map_eq_ok written
    exact isWritable_of_server rfl written
  · intro writable o member target
    cases body : o.body with
    | verbatim content => exact ⟨content, by rw [Output.render, body]⟩
    | template t c =>
      obtain ⟨ls, written⟩ := exists_lines?_of_template member body
      exact ⟨_, render_of_mem member writable written target⟩

end Plan

end PluginCompiler
