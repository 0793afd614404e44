import Mathlib.Data.List.Forall2
import PluginCompiler.Plan

/-! Plans of one spec from several sources. They have the same files in the same order, with the same
texts but for the copy of the source. -/

set_option autoImplicit false

namespace PluginCompiler

open List (Forall₂)

/-- The same file, and the same text unless it is the copy of the source. -/
structure Output.Alike (o o' : Output) : Prop where
  path : o'.path = o.path
  policy : o'.policy = o.policy
  owner : o'.owner = o.owner
  render : o.path ≠ Plan.inDirectory [] Plan.specCopy → ∀ target, o'.render target = o.render target

theorem Output.Alike.refl (o : Output) : o.Alike o := ⟨rfl, rfl, rfl, fun _ _ => rfl⟩

theorem Output.Alike.key {o o' : Output} (alike : o.Alike o') : o'.key = o.key := by
  rw [Output.key, Output.key, alike.path]

namespace Plan

inductive Alike : Except Failure (List Output) → Except Failure (List Output) → Prop where
  | failed (failure : Failure) : Alike (.error failure) (.error failure)
  | planned {os os' : List Output} (outputs : Forall₂ Output.Alike os os') : Alike (.ok os) (.ok os')

theorem outputs_alike (spec : Spec) (source source' : List UInt8) :
    Forall₂ Output.Alike (outputs spec source) (outputs spec source') := by
  have copy : Output.Alike ⟨inDirectory [] specCopy, .always, .verbatim source, wholePlugin⟩
      ⟨inDirectory [] specCopy, .always, .verbatim source', wholePlugin⟩ :=
    ⟨rfl, rfl, rfl, fun other => absurd rfl other⟩
  have build : Forall₂ Output.Alike (buildOutputs spec source) (buildOutputs spec source') :=
    .cons (.refl _) (.cons (.refl _) (.cons (.refl _) (.cons copy .nil)))
  exact List.rel_append (List.forall₂_same.mpr fun o _ => .refl o) build

variable {seen seen' os os' : List Output}

theorem find?_key_alike (key : String) (alike : Forall₂ Output.Alike seen seen') :
    Option.Rel Output.Alike (seen.find? fun p => p.key == key)
      (seen'.find? fun p => p.key == key) := by
  induction alike with
  | nil => exact .none
  | @cons p p' _ _ first _ ih =>
    rw [List.find?_cons, List.find?_cons, first.key]
    cases p.key == key with
    | true => exact .some first
    | false => exact ih

theorem collisionFrom_alike (alike : Forall₂ Output.Alike seen seen')
    (rest : Forall₂ Output.Alike os os') :
    Option.Rel (fun pair pair' => pair.1.Alike pair'.1 ∧ pair.2.Alike pair'.2)
      (collisionFrom seen os) (collisionFrom seen' os') := by
  -- The induction is on what is still to come; what was seen grows on both sides.
  induction rest generalizing seen seen' with
  | nil => exact .none
  | @cons o o' _ _ first _ ih =>
    have taken := find?_key_alike o.key alike
    rw [collisionFrom, collisionFrom, first.key]
    generalize (seen.find? fun p => p.key == o.key) = found,
      (seen'.find? fun p => p.key == o.key) = found' at taken ⊢
    cases taken with
    | none => exact ih (List.rel_append alike (.cons first .nil))
    | some earlier => exact .some ⟨earlier, first⟩

end Plan

theorem Spec.plan_alike (spec : Spec) (source source' : List UInt8) :
    Plan.Alike (spec.plan source) (spec.plan source') := by
  have alike := Plan.outputs_alike spec source source'
  have collisions : Option.Rel _ (Plan.collision? (Plan.outputs spec source))
    (Plan.collision? (Plan.outputs spec source')) := Plan.collisionFrom_alike .nil alike
  simp only [plan]
  generalize Plan.collision? (Plan.outputs spec source) = collided,
    Plan.collision? (Plan.outputs spec source') = collided' at collisions ⊢
  cases collisions with
  | none => exact .planned alike
  | @some pair pair' same =>
    obtain ⟨earlier, o⟩ := pair
    obtain ⟨earlier', o'⟩ := pair'
    obtain ⟨first, second⟩ : earlier.Alike earlier' ∧ o.Alike o' := same
    simp only [second.path, first.owner, second.owner]
    exact .failed _

end PluginCompiler
