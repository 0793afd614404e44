import Mathlib.Data.List.Nodup
import PluginCompiler.Proofs.Plan.Collision
import PluginCompiler.Proofs.Plan.Keys

/-! Which names can be declared together. For plain names a plan fails exactly when two names of a
kind are one, a handler has the name of another one's stub, or an action has the name of the server,
case ignored. -/

set_option autoImplicit false

namespace PluginCompiler

open Text (IsAscii lower)

namespace Plan

variable {spec : Spec} {source : List UInt8}

def handlerKeys (kind : HandlerKind) (names : List String) : List (List String) :=
  (names.flatMap fun name => [name, name ++ "_run"]).map fun stem => [kind.package, stem ++ ".go"]

def connectionKeys : List (List String) :=
  [["connection", "connection.go"], ["connection", "connect.go"], ["connection", "cache.go"]]

def serverKeys (actions : List String) : List (List String) :=
  [["cmd", "main.go"], ["server", "http", "server.go"]] ++
    actions.map fun name => ["server", "http", name ++ ".go"]

def typeKeys (types : List String) : List (List String) :=
  types.map fun name => ["types", name ++ ".go"]

def buildKeys : List (List String) :=
  [["dockerfile"], ["makefile"], [vendorDirectory, ".gitkeep"], [specCopy]]

def foldedKeys (actions triggers types : List String) : List (List String) :=
  handlerKeys .action actions ++ (connectionKeys ++ (handlerKeys .trigger triggers ++
    (serverKeys actions ++ (typeKeys types ++ buildKeys))))

theorem map_folded_handlerOutputs {kind : HandlerKind} {handlers : Section Handler}
    (whole : ∀ name ∈ handlers.names, '/' ∉ name.toList)
    (ascii : ∀ name ∈ handlers.names, IsAscii name) :
    (handlerOutputs kind handlers).map Output.folded =
      handlerKeys kind (handlers.names.map lower) := by
  have package : lower kind.package = kind.package := by cases kind <;> decide
  simp only [handlerOutputs, handlerKeys, Section.names, List.map_flatMap, List.flatMap_map]
  apply List.flatMap_congr
  rintro ⟨name, h⟩ entry
  have named : name ∈ handlers.names := List.mem_map.mpr ⟨_, entry, rfl⟩
  have declaration := declarationPath_eq kind (whole name named)
  have stub := stubPath_eq kind (whole name named)
  have go : lower ".go" = ".go" := by decide
  have run : lower "_run.go" = "_run" ++ ".go" := by decide
  rw [declarationPath] at declaration
  rw [stubPath] at stub
  simp only [List.map_cons, List.map_nil, Output.folded, declaration, stub, package,
    Text.lower_append (ascii name named) (by decide : IsAscii ".go"),
    Text.lower_append (ascii name named) (by decide : IsAscii "_run.go"), go, run,
    String.append_assoc]

theorem map_folded_connectionOutputs : (connectionOutputs spec).map Output.folded = connectionKeys := by
  simp only [connectionOutputs, Output.folded, List.map_cons, List.map_nil]
  decide

theorem map_folded_programOutputs : (programOutputs spec).map Output.folded =
    [["cmd", "main.go"], ["server", "http", "server.go"]] := by
  simp only [programOutputs, Output.folded, List.map_cons, List.map_nil]
  decide

theorem map_folded_buildOutputs (source : List UInt8) :
    (buildOutputs spec source).map Output.folded = buildKeys := by
  simp only [buildOutputs, Output.folded, List.map_cons, List.map_nil]
  decide

theorem lower_go {name : String} (ascii : IsAscii name) : lower (name ++ ".go") = lower name ++ ".go" := by
  rw [Text.lower_append ascii (by decide)]
  congr 1

theorem map_folded_routeOutputs (slashless : spec.Slashless) (ascii : spec.Ascii) :
    (routeOutputs spec).map Output.folded =
      (spec.actions.names.map lower).map fun name => ["server", "http", name ++ ".go"] := by
  have server : lower "server" = "server" := by decide
  have http : lower "http" = "http" := by decide
  simp only [routeOutputs, Section.names, List.map_map]
  apply List.map_congr_left
  rintro ⟨name, h⟩ entry
  have declared := Spec.mem_declared_of_handler .action (List.mem_map.mpr ⟨_, entry, rfl⟩)
  have path := routePath_eq (slashless name declared)
  rw [routePath] at path
  simp only [Function.comp, Output.folded, path, List.map_cons, List.map_nil,
    lower_go (ascii name declared), server, http]

theorem map_folded_typeOutputs (slashless : spec.Slashless) (ascii : spec.Ascii) :
    (typeOutputs spec).map Output.folded = typeKeys (spec.customTypes.names.map lower) := by
  have types : lower "types" = "types" := by decide
  simp only [typeOutputs, typeKeys, Section.names, List.map_map]
  apply List.map_congr_left
  rintro ⟨name, type⟩ entry
  have declared := Spec.mem_declared_of_type (List.mem_map.mpr ⟨_, entry, rfl⟩)
  have path := typePath_eq (slashless name declared)
  rw [typePath] at path
  simp only [Function.comp, Output.folded, path, List.map_cons, List.map_nil,
    lower_go (ascii name declared), types]

theorem map_folded_outputs (source : List UInt8) (slashless : spec.Slashless) (ascii : spec.Ascii) :
    (outputs spec source).map Output.folded = foldedKeys (spec.actions.names.map lower)
      (spec.triggers.names.map lower) (spec.customTypes.names.map lower) := by
  have handlers (kind : HandlerKind) :
      (handlerOutputs kind (spec.handlers kind)).map Output.folded =
        handlerKeys kind ((spec.handlers kind).names.map lower) :=
    map_folded_handlerOutputs
      (fun name member => slashless name (Spec.mem_declared_of_handler kind member))
      (fun name member => ascii name (Spec.mem_declared_of_handler kind member))
  have actions := handlers .action
  have triggers := handlers .trigger
  simp only [Spec.handlers] at actions triggers
  simp only [outputs, foldedKeys, serverKeys, List.map_append, actions, triggers,
    map_folded_connectionOutputs, map_folded_programOutputs, map_folded_routeOutputs slashless ascii,
    map_folded_typeOutputs slashless ascii, map_folded_buildOutputs, List.append_assoc]

theorem ne_append_run (name : String) : name ≠ name ++ "_run" := by
  intro same
  have lengths := congrArg String.length same
  simp at lengths

theorem nodup_stems (names : List String) :
    (names.flatMap fun name => [name, name ++ "_run"]).Nodup ↔
      names.Nodup ∧ ∀ name ∈ names, name ++ "_run" ∉ names := by
  induction names with
  | nil => simp
  | cons head rest ih =>
    have longer := ne_append_run head
    have stems (name : String) : name ∈ (rest.flatMap fun name => [name, name ++ "_run"]) ↔
        name ∈ rest ∨ ∃ stem ∈ rest, name = stem ++ "_run" := by
      simp only [List.mem_flatMap, List.mem_cons, List.not_mem_nil, or_false, and_or_left,
        exists_or, exists_eq_right']
    simp only [List.flatMap_cons, List.cons_append, List.nil_append, List.nodup_cons, List.mem_cons,
      ih, stems, String.append_left_inj, exists_eq_right', not_or, not_exists, not_and,
      forall_eq_or_imp]
    constructor
    · rintro ⟨⟨_, fresh, apart⟩, ⟨unclaimed, _⟩, distinct, stubs⟩
      exact ⟨⟨fresh, distinct⟩, ⟨longer.symm, unclaimed⟩,
        fun name member => ⟨fun same => apart name member same.symm, stubs name member⟩⟩
    · rintro ⟨⟨fresh, distinct⟩, ⟨_, unclaimed⟩, others⟩
      exact ⟨⟨longer, fresh, fun name member same => (others name member).1 same.symm⟩,
        ⟨unclaimed, fresh⟩, distinct, fun name member => (others name member).2⟩

theorem nodup_handlerKeys (kind : HandlerKind) (names : List String) :
    (handlerKeys kind names).Nodup ↔ names.Nodup ∧ ∀ name ∈ names, name ++ "_run" ∉ names := by
  have injective : Function.Injective fun stem => [kind.package, stem ++ ".go"] := by
    intro stem stem' same
    simpa using same
  rw [handlerKeys, List.nodup_map_iff injective, nodup_stems]

/-- Keys that start with one of some names. -/
def Headed (heads : List String) (keys : List (List String)) : Prop :=
  ∀ key ∈ keys, ∃ head ∈ heads, key.head? = some head

theorem headed_append {heads heads' : List String} {keys keys' : List (List String)}
    (first : Headed heads keys) (second : Headed heads' keys') :
    Headed (heads ++ heads') (keys ++ keys') := by
  intro key member
  rcases List.mem_append.mp member with member | member
  · obtain ⟨head, inside, same⟩ := first key member
    exact ⟨head, List.mem_append_left _ inside, same⟩
  · obtain ⟨head, inside, same⟩ := second key member
    exact ⟨head, List.mem_append_right _ inside, same⟩

theorem headed_handlerKeys (kind : HandlerKind) (names : List String) :
    Headed [kind.package] (handlerKeys kind names) := by
  intro key member
  obtain ⟨stem, _, rfl⟩ := List.mem_map.mp member
  exact ⟨kind.package, List.mem_singleton_self _, rfl⟩

theorem nodup_append_of_headed {heads heads' : List String} {keys keys' : List (List String)}
    (first : Headed heads keys) (second : Headed heads' keys')
    (apart : ∀ head ∈ heads, head ∉ heads') :
    (keys ++ keys').Nodup ↔ keys.Nodup ∧ keys'.Nodup := by
  have disjoint : ∀ key ∈ keys, ∀ key' ∈ keys', key ≠ key' := by
    rintro key member _ member' rfl
    obtain ⟨head, inside, same⟩ := first key member
    obtain ⟨head', inside', same'⟩ := second key member'
    rw [same] at same'
    cases same'
    exact apart head inside inside'
  rw [List.nodup_append]
  exact ⟨fun ⟨one, two, _⟩ => ⟨one, two⟩, fun ⟨one, two⟩ => ⟨one, two, disjoint⟩⟩

theorem nodup_serverKeys (actions : List String) :
    (serverKeys actions).Nodup ↔ actions.Nodup ∧ "server" ∉ actions := by
  have routes : (actions.map fun name => ["server", "http", name ++ ".go"]).Nodup ↔ actions.Nodup :=
    List.nodup_map_iff fun name name' same => by simpa using same
  have own (name : String) : name ++ ".go" = "server.go" ↔ name = "server" :=
    @String.append_left_inj name "server" ".go"
  simp [serverKeys, routes, own, and_comm]

theorem nodup_typeKeys (types : List String) : (typeKeys types).Nodup ↔ types.Nodup :=
  List.nodup_map_iff fun name name' same => by simpa using same

/-- The keys are distinct exactly when no two names of a kind are one, no handler takes the stub of
another one, and no action takes the server. -/
theorem nodup_foldedKeys (actions triggers types : List String) :
    (foldedKeys actions triggers types).Nodup ↔
      (actions.Nodup ∧ ∀ name ∈ actions, name ++ "_run" ∉ actions) ∧ "server" ∉ actions ∧
        (triggers.Nodup ∧ ∀ name ∈ triggers, name ++ "_run" ∉ triggers) ∧ types.Nodup := by
  have connection : Headed ["connection"] connectionKeys := by simp [Headed, connectionKeys]
  have servers : Headed ["cmd", "server"] (serverKeys actions) := by simp [Headed, serverKeys]
  have typed : Headed ["types"] (typeKeys types) := by simp [Headed, typeKeys]
  have build : Headed ["dockerfile", "makefile", vendorDirectory, specCopy] buildKeys := by
    simp [Headed, buildKeys]
  have typesOn := headed_append typed build
  have serversOn := headed_append servers typesOn
  have triggersOn := headed_append (headed_handlerKeys .trigger triggers) serversOn
  have connectionOn := headed_append connection triggersOn
  have fixed : connectionKeys.Nodup ∧ buildKeys.Nodup := by decide
  rw [foldedKeys,
    nodup_append_of_headed (headed_handlerKeys .action actions) connectionOn (by decide),
    nodup_append_of_headed connection triggersOn (by decide),
    nodup_append_of_headed (headed_handlerKeys .trigger triggers) serversOn (by decide),
    nodup_append_of_headed servers typesOn (by decide),
    nodup_append_of_headed typed build (by decide), nodup_handlerKeys, nodup_handlerKeys,
    nodup_serverKeys, nodup_typeKeys]
  constructor
  · rintro ⟨actionsApart, _, triggersApart, ⟨_, server⟩, typesApart, _⟩
    exact ⟨actionsApart, server, triggersApart, typesApart⟩
  · rintro ⟨actionsApart, server, triggersApart, typesApart⟩
    exact ⟨actionsApart, fixed.1, triggersApart, ⟨actionsApart.1, server⟩, typesApart, fixed.2⟩

end Plan

/-- The declared names leave each other their files, case ignored. -/
structure Spec.NamesApart (spec : Spec) : Prop where
  handlers : ∀ kind, ∀ name ∈ (spec.handlers kind).names, ∀ other ∈ (spec.handlers kind).names,
    name ≠ other → lower name ≠ lower other
  stubs : ∀ kind, ∀ name ∈ (spec.handlers kind).names, ∀ other ∈ (spec.handlers kind).names,
    name ≠ other → lower name ≠ lower (other ++ "_run")
  server : ∀ name ∈ spec.actions.names, lower name ≠ lower "server"
  types : ∀ name ∈ spec.customTypes.names, ∀ other ∈ spec.customTypes.names,
    name ≠ other → lower name ≠ lower other

theorem Section.nodup_lower_iff {α : Type} (s : Section α) :
    (s.names.map lower).Nodup ↔
      ∀ name ∈ s.names, ∀ other ∈ s.names, name ≠ other → lower name ≠ lower other := by
  have distinct : s.names.Nodup := s.distinct
  rw [List.nodup_map_iff_inj_on distinct]
  constructor
  · exact fun apart name member other member' different same =>
      different (apart name member other member' same)
  · exact fun apart name member other member' same => by
      by_contra different
      exact apart name member other member' different same

theorem stub_not_mem_iff {names : List String} (ascii : ∀ name ∈ names, IsAscii name) :
    (∀ name ∈ names.map lower, name ++ "_run" ∉ names.map lower) ↔
      ∀ name ∈ names, ∀ other ∈ names, name ≠ other → lower name ≠ lower (other ++ "_run") := by
  have stub (name : String) (member : name ∈ names) :
      lower (name ++ "_run") = lower name ++ "_run" := by
    rw [Text.lower_append (ascii name member) (by decide)]
    congr 1
  rw [List.forall_mem_map]
  constructor
  · intro unclaimed name member other member' _ same
    rw [stub other member'] at same
    exact unclaimed other member' (List.mem_map.mpr ⟨name, member, same⟩)
  · intro apart other member' claimed
    obtain ⟨name, member, same⟩ := List.mem_map.mp claimed
    have different : name ≠ other := by
      rintro rfl
      exact Plan.ne_append_run _ same
    exact apart name member other member' different (same.trans (stub other member').symm)

theorem Spec.namesApart_iff {spec : Spec} (ascii : spec.Ascii) :
    spec.NamesApart ↔ (Plan.foldedKeys (spec.actions.names.map lower)
      (spec.triggers.names.map lower) (spec.customTypes.names.map lower)).Nodup := by
  have stubs (kind : HandlerKind) := stub_not_mem_iff fun name member =>
    ascii name (mem_declared_of_handler kind member)
  have actionStubs := stubs .action
  have triggerStubs := stubs .trigger
  simp only [handlers] at actionStubs triggerStubs
  have own : lower "server" = "server" := by decide
  have server : "server" ∉ spec.actions.names.map lower ↔
      ∀ name ∈ spec.actions.names, lower name ≠ lower "server" := by
    simp [own]
  rw [Plan.nodup_foldedKeys, Section.nodup_lower_iff, Section.nodup_lower_iff,
    Section.nodup_lower_iff, actionStubs, triggerStubs, server]
  constructor
  · intro apart
    exact ⟨⟨apart.handlers .action, apart.stubs .action⟩, apart.server,
      ⟨apart.handlers .trigger, apart.stubs .trigger⟩, apart.types⟩
  · rintro ⟨⟨actions, actionStubs⟩, server, ⟨triggers, triggerStubs⟩, types⟩
    refine ⟨fun kind => ?_, fun kind => ?_, server, types⟩
    · cases kind with
      | action => exact actions
      | trigger => exact triggers
    · cases kind with
      | action => exact actionStubs
      | trigger => exact triggerStubs

theorem Spec.plan_ok_iff_namesApart {spec : Spec} {source : List UInt8}
    (slashless : spec.Slashless) (ascii : spec.Ascii) :
    (∃ os, spec.plan source = .ok os) ↔ spec.NamesApart := by
  have folded := Plan.map_folded_outputs source slashless ascii
  rw [namesApart_iff ascii, ← folded, ← Plan.nodup_key_iff slashless ascii]
  simp only [plan_eq_ok, exists_eq_left]

/-- A plan fails exactly when two outputs have one path, case ignored, and it names the first output
whose path is taken and the output that took it. Plain names tell whether there are such outputs. -/
theorem Spec.plan_fails_iff (spec : Spec) (source : List UInt8) :
    ((∃ failure, spec.plan source = .error failure) ↔
      ∃ first second, [first, second].Sublist (Plan.outputs spec source) ∧
        lower first.path.toString = lower second.path.toString) ∧
    (∀ failure, spec.plan source = .error failure ↔
      ∃ earlier o, Plan.FirstCollision (Plan.outputs spec source) earlier o ∧
        failure = .collision o.path.toString earlier.owner o.owner) ∧
    (spec.Slashless → spec.Ascii → ((∃ os, spec.plan source = .ok os) ↔ spec.NamesApart)) := by
  refine ⟨?_, fun failure => plan_eq_error, plan_ok_iff_namesApart⟩
  have distinct : ((Plan.outputs spec source).map Output.key).Nodup ↔
      ∀ {first second}, [first, second].Sublist (Plan.outputs spec source) →
        first.key ≠ second.key := by
    rw [List.Nodup, List.pairwise_map, List.pairwise_iff_forall_sublist]
  constructor
  · rintro ⟨failure, failed⟩
    by_contra apart
    have planned : spec.plan source = .ok (Plan.outputs spec source) :=
      plan_eq_ok.mpr ⟨rfl, distinct.mpr fun inside same => apart ⟨_, _, inside, same⟩⟩
    rw [planned] at failed
    cases failed
  · rintro ⟨first, second, inside, same⟩
    cases planned : spec.plan source with
    | error failure => exact ⟨failure, rfl⟩
    | ok os => exact absurd same (distinct.mp (plan_eq_ok.mp planned).2 inside)

def Spec.clashing : Spec := { actions := ⟨[("Post_run", {}), ("post", {})], by decide⟩ }

theorem Spec.plan_fails_clashing :
    clashing.Slashless ∧ clashing.Ascii ∧ ¬ ∃ os, clashing.plan [] = .ok os := by
  have slashless : clashing.Slashless := by decide
  have ascii : clashing.Ascii := by decide
  refine ⟨slashless, ascii, fun planned => ?_⟩
  have apart := ((plan_fails_iff clashing []).2.2 slashless ascii).mp planned
  have stub := apart.stubs .action "Post_run" (by decide) "post" (by decide) (by decide)
  exact stub (by decide)

end PluginCompiler
