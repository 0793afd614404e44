import PluginCompiler.Proofs.Plan.Listing

/-! The order of a plan. An output that is generated once comes after one that is always written to the
same directory, so that its directory is there when it is looked for. -/

set_option autoImplicit false

namespace PluginCompiler

namespace Plan

variable {seen more os rest : List Output} {spec : Spec}

/-- Every output that is generated once comes after another one of its directory. -/
def Accompanied : List Output → List Output → Prop
  | _, [] => True
  | seen, o :: rest =>
    (o.policy = .once → ∃ o' ∈ seen, o'.path.parent = o.path.parent) ∧ Accompanied (o :: seen) rest

theorem Accompanied.mono (accompanied : Accompanied seen os) (sub : seen ⊆ more) :
    Accompanied more os := by
  induction os generalizing seen more with
  | nil => trivial
  | cons o rest ih =>
    refine ⟨fun once => ?_, ih accompanied.2 (List.cons_subset_cons o sub)⟩
    obtain ⟨o', member, same⟩ := accompanied.1 once
    exact ⟨o', sub member, same⟩

theorem Accompanied.append (first : Accompanied seen os) (second : Accompanied [] rest) :
    Accompanied seen (os ++ rest) := by
  induction os generalizing seen with
  | nil => exact second.mono (List.nil_subset seen)
  | cons o os ih => exact ⟨first.1, ih first.2⟩

theorem Accompanied.of_append (accompanied : Accompanied seen (os ++ rest)) :
    Accompanied seen os := by
  induction os generalizing seen with
  | nil => trivial
  | cons o os ih => exact ⟨accompanied.1, ih accompanied.2⟩

theorem accompanied_of_always (always : ∀ o ∈ os, o.policy = .always) : Accompanied seen os := by
  induction os generalizing seen with
  | nil => trivial
  | cons o rest ih =>
    refine ⟨fun once => ?_, ih fun o' member => always o' (List.mem_cons_of_mem o member)⟩
    rw [always o List.mem_cons_self] at once
    cases once

theorem accompanied_handlerOutputs (kind : HandlerKind) {handlers : Section Handler}
    (slashless : ∀ name ∈ handlers.names, '/' ∉ name.toList) :
    Accompanied [] (handlerOutputs kind handlers) := by
  have whole : ∀ entry ∈ handlers.entries, '/' ∉ entry.1.toList := fun entry member =>
    slashless entry.1 (List.mem_map.mpr ⟨entry, member, rfl⟩)
  rw [handlerOutputs]
  revert whole
  induction handlers.entries with
  | nil => exact fun _ => trivial
  | cons entry entries ih =>
    intro whole
    have here : '/' ∉ entry.1.toList := whole entry List.mem_cons_self
    have same : (declarationPath kind entry.1).parent = (stubPath kind entry.1).parent := by
      rw [declarationPath_eq kind here, stubPath_eq kind here]
      rfl
    rw [List.flatMap_cons]
    apply Accompanied.append _ (ih fun e member => whole e (List.mem_cons_of_mem entry member))
    refine ⟨fun once => ?_, fun _ => ⟨_, List.mem_cons_self, same⟩, trivial⟩
    cases once

theorem accompanied_outputs (slashless : spec.Slashless) (source : List UInt8) :
    Accompanied [] (outputs spec source) := by
  have handlers (kind : HandlerKind) : Accompanied [] (handlerOutputs kind (spec.handlers kind)) :=
    accompanied_handlerOutputs kind fun name member =>
      slashless name (Spec.mem_declared_of_handler kind member)
  have connection : Accompanied [] (connectionOutputs spec) := by
    have connect : (inDirectory ["connection"] "connection.go").parent =
        (inDirectory ["connection"] "connect.go").parent := by decide
    have cache : (inDirectory ["connection"] "connect.go").parent =
        (inDirectory ["connection"] "cache.go").parent := by decide
    refine ⟨fun once => ?_, fun _ => ⟨_, List.mem_cons_self, connect⟩,
      fun _ => ⟨_, List.mem_cons_self, cache⟩, trivial⟩
    cases once
  have program : Accompanied [] (programOutputs spec) :=
    accompanied_of_always (by simp [programOutputs])
  have routes : Accompanied [] (routeOutputs spec) :=
    accompanied_of_always (List.forall_mem_map.mpr fun _ _ => rfl)
  have types : Accompanied [] (typeOutputs spec) :=
    accompanied_of_always (List.forall_mem_map.mpr fun _ _ => rfl)
  have build : Accompanied [] (buildOutputs spec source) :=
    accompanied_of_always (by simp [buildOutputs])
  have handled := ((handlers .action).append connection).append (handlers .trigger)
  exact (((handled.append program).append routes).append types).append build

end Plan

end PluginCompiler
