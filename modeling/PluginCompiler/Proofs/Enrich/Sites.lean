import PluginCompiler.Proofs.Go.Token
import PluginCompiler.Proofs.Section.Traverse

/-! The parameters of a spec, in the order in which they are looked at. A spec is enriched exactly if
each of them can be, and otherwise the first that cannot be is what is reported. -/

set_option autoImplicit false

namespace PluginCompiler

/-- What is reported of a value that has no constant. A value that cannot be written cannot be told. -/
inductive EnumProblem.Reported (entity : String) (v : Value) (problem : EnumProblem) : Abort → Prop where
  | told (writable : v.isWritable = true) :
      Reported entity v problem (.failure (.enumValue entity v problem.message))
  | untold (long : v.isWritable = false) : Reported entity v problem (.defect (.digits .writing))

theorem allowedLiterals_of_excess (identifier entity : String) :
    allowedLiterals identifier entity [.int Text.leastExcess] = .error (.defect (.digits .writing)) := by
  have long : Text.isWritable Text.leastExcess = false := by simp [Text.isWritable]
  have textless : EnumLiteral.ofValue identifier (.int Text.leastExcess) = .error (.digits .writing) := by
    simp [EnumLiteral.ofValue, Json.compact, Json.compactIn, Json.integerText, long, Except.map]
  simp [allowedLiterals, literalsOf, literalsFrom, textless, Value.isWritable, long]

structure Site where
  owner : String
  name : String
  parameter : Parameter

namespace Site

def entity (s : Site) : String := s.owner ++ "." ++ s.name

def enrich (known : List String) (s : Site) : Except Abort Parameter :=
  s.parameter.enrich known s.owner s.name

/-- The token of the parameter has a type, and its allowed values have constants. -/
def Sound (known : List String) (s : Site) : Prop :=
  (∃ type, resolveType known s.entity false s.parameter.type = .ok type) ∧
  ∃ literals, literalsOf (Naming.upperCamel s.name) s.parameter.enum = .ok literals

/-- What a parameter is refused with. Allowed values are looked at only if the token has a type. -/
inductive Refused (known : List String) (s : Site) : Abort → Prop where
  | type {unknown : String}
      (untyped : resolveType known s.entity false s.parameter.type =
        .error (.unresolvedType unknown s.entity)) :
      Refused known s (.failure (.unresolvedType unknown s.entity))
  | value {type : String} {value : Value} {problem : EnumProblem} {abort : Abort}
      (typed : resolveType known s.entity false s.parameter.type = .ok type)
      (unnamed : literalsOf (Naming.upperCamel s.name) s.parameter.enum = .error (value, problem))
      (reported : problem.Reported s.entity value abort) : Refused known s abort

end Site

def Section.sites (owner : String) (s : Section Parameter) : List Site :=
  s.entries.map fun (name, p) => ⟨owner, name, p⟩

def Handler.sites (kind name : String) (h : Handler) : List Site :=
  h.input.sorted.sites (kind ++ " " ++ name ++ " input") ++
    h.output.sorted.sites (kind ++ " " ++ name ++ " output")

def handlerSites (kind : String) (handlers : Section Handler) : List Site :=
  handlers.sorted.entries.flatMap fun (name, h) => h.sites kind name

def Spec.sites (spec : Spec) : List Site :=
  (spec.rawTypes.sorted.entries.flatMap fun (name, fields) => fields.sites ("type " ++ name)) ++
    spec.connection.sorted.sites "connection" ++ handlerSites "action" spec.actions ++
    handlerSites "trigger" spec.triggers

structure Parameter.Enriched (known : List String) (owner key : String) (p p' : Parameter) : Prop where
  rawName : p'.rawName = key
  name : p'.name = Naming.upperCamel key
  type : resolveType known (entityOf owner key) false p.type = .ok p'.type
  internalType : resolveType known (entityOf owner key) true p.type = .ok p'.internalType
  enumLiterals : literalsOf (Naming.upperCamel key) p.enum = .ok p'.enumLiterals
  rest : p' = { p with
    rawName := p'.rawName
    name := p'.name
    type := p'.type
    internalType := p'.internalType
    enumLiterals := p'.enumLiterals }

variable {known : List String} {owner key entity token : String} {isInternal : Bool} {p p' : Parameter}

section
variable {identifier : String} {values : List Value}

theorem EnumProblem.reported_iff {v : Value} {problem : EnumProblem} {abort : Abort} :
    problem.Reported entity v abort ↔ abort = if v.isWritable then
      .failure (.enumValue entity v problem.message) else .defect (.digits .writing) := by
  constructor
  · intro reported
    cases reported with
    | told writable => rw [if_pos writable]
    | untold long => rw [if_neg (by simp [long])]
  · rintro rfl
    split
    · next writable => exact .told writable
    · next long => exact .untold (by simpa using long)

theorem allowedLiterals_eq_ok {literals : List EnumLiteral} :
    allowedLiterals identifier entity values = .ok literals ↔
      literalsOf identifier values = .ok literals := by
  rw [allowedLiterals]
  cases literalsOf identifier values with
  | error reason => dsimp only; split <;> simp
  | ok literals => simp

theorem allowedLiterals_eq_error {abort : Abort} :
    allowedLiterals identifier entity values = .error abort ↔
      ∃ value problem, literalsOf identifier values = .error (value, problem) ∧
        problem.Reported entity value abort := by
  rw [allowedLiterals]
  cases literalsOf identifier values with
  | error reason =>
    obtain ⟨value, problem⟩ := reason
    have told : (if value.isWritable then .error (.failure (.enumValue entity value problem.message))
        else .error (.defect (.digits .writing)) : Except Abort (List EnumLiteral)) = .error abort ↔
          problem.Reported entity value abort := by
      rw [EnumProblem.reported_iff]
      split <;> simp [eq_comm]
    rw [told]
    constructor
    · exact fun reported => ⟨value, problem, rfl, reported⟩
    · rintro ⟨_, _, ⟨⟩, reported⟩
      exact reported
  | ok literals => simp

end

theorem Parameter.enrich_eq_ok :
    p.enrich known owner key = .ok p' ↔ Parameter.Enriched known owner key p p' := by
  rw [Parameter.enrich]
  constructor
  · intro ended
    split at ended
    · cases ended
    · next type typed =>
      split at ended
      · cases ended
      · next internalType inside =>
        split at ended
        · cases ended
        · next literals named =>
          cases ended
          exact ⟨rfl, rfl, typed, inside, allowedLiterals_eq_ok.mp named, rfl⟩
  · intro enriched
    have rest := enriched.rest
    rw [enriched.rawName, enriched.name] at rest
    rw [enriched.type, enriched.internalType, allowedLiterals_eq_ok.mpr enriched.enumLiterals]
    exact congrArg Except.ok rest.symm

theorem resolveType_inside {type : String}
    (typed : resolveType known entity false token = .ok type) :
    ∃ internalType, resolveType known entity true token = .ok internalType := by
  obtain ⟨depth, base, peels⟩ := Go.GoType.exists_peels token
  exact (exists_resolveType_iff peels).mpr ((exists_resolveType_iff peels).mp ⟨type, typed⟩)

theorem unresolved_of_resolveType {failure : Failure}
    (untyped : resolveType known entity isInternal token = .error failure) :
    ∃ unknown, failure = .unresolvedType unknown entity := by
  obtain ⟨depth, base, peels⟩ := Go.GoType.exists_peels token
  exact ⟨base, ((resolveType_eq_error_iff peels).mp untyped).2⟩

namespace Site

variable {s : Site}

theorem exists_enrich_iff : (∃ p, s.enrich known = .ok p) ↔ s.Sound known := by
  constructor
  · rintro ⟨p, ended⟩
    have enriched := Parameter.enrich_eq_ok.mp ended
    exact ⟨⟨_, enriched.type⟩, _, enriched.enumLiterals⟩
  · rintro ⟨⟨type, typed⟩, literals, named⟩
    obtain ⟨internalType, inside⟩ := resolveType_inside typed
    let p : Parameter := { s.parameter with
      rawName := s.name
      name := Naming.upperCamel s.name
      type := type
      internalType := internalType
      enumLiterals := literals }
    exact ⟨p, Parameter.enrich_eq_ok.mpr ⟨rfl, rfl, typed, inside, named, rfl⟩⟩

theorem enrich_eq_error {abort : Abort} : s.enrich known = .error abort ↔ s.Refused known abort := by
  have place : entityOf s.owner s.name = s.entity := rfl
  rw [enrich, Parameter.enrich, place]
  constructor
  · intro failed
    split at failed
    · next untyped =>
      obtain ⟨unknown, rfl⟩ := unresolved_of_resolveType untyped
      cases failed
      exact .type untyped
    · next type typed =>
      -- A token that has a type has one inside the package of custom types too.
      obtain ⟨internalType, inside⟩ := resolveType_inside typed
      rw [inside] at failed
      dsimp only at failed
      split at failed
      · next unnamed =>
        cases failed
        obtain ⟨value, problem, own, reported⟩ := allowedLiterals_eq_error.mp unnamed
        exact .value typed own reported
      · cases failed
  · intro refused
    cases refused with
    | type untyped => rw [untyped]
    | value typed unnamed reported =>
      obtain ⟨internalType, inside⟩ := resolveType_inside typed
      rw [typed, inside, allowedLiterals_eq_error.mpr ⟨_, _, unnamed, reported⟩]

end Site

theorem findSome?_flatMap {α β γ : Type} (f : β → Option γ) (g : α → List β) (l : List α) :
    (l.flatMap g).findSome? f = l.findSome? fun a => (g a).findSome? f := by
  induction l with
  | nil => rfl
  | cons a l ih =>
    rw [List.flatMap_cons, List.findSome?_append, List.findSome?_cons, ih]
    cases (g a).findSome? f <;> rfl

def firstFailure? (known : List String) (sites : List Site) : Option Abort :=
  sites.findSome? fun s => failure? (s.enrich known)

theorem firstFailure?_append (first rest : List Site) :
    firstFailure? known (first ++ rest) =
      (firstFailure? known first).or (firstFailure? known rest) :=
  List.findSome?_append

theorem failure?_enrichSection (owner : String) (s : Section Parameter) :
    failure? (enrichSection known owner s) = firstFailure? known (s.sites owner) := by
  rw [enrichSection, Section.failure?_traverse, firstFailure?, Section.sites, List.findSome?_map]
  rfl

theorem Handler.failure?_enrich (kind packageRoot name : String) (h : Handler) :
    failure? (h.enrich known kind packageRoot name) = firstFailure? known (h.sites kind name) := by
  rw [Handler.sites, firstFailure?_append, ← failure?_enrichSection, ← failure?_enrichSection,
    Handler.enrich]
  cases enrichSection known (kind ++ " " ++ name ++ " input") h.input.sorted with
  | error f => rfl
  | ok input =>
    cases enrichSection known (kind ++ " " ++ name ++ " output") h.output.sorted <;> rfl

/-- A traversal fails as the parameters of its entries do, entry after entry. -/
theorem failure?_traverse_sites {α β : Type} {step : String → α → Except Abort β}
    {sites : String → α → List Site}
    (agree : ∀ name a, failure? (step name a) = firstFailure? known (sites name a)) (s : Section α) :
    failure? (s.traverse step) =
      firstFailure? known (s.entries.flatMap fun (name, a) => sites name a) := by
  rw [Section.failure?_traverse, firstFailure?, findSome?_flatMap]
  congr 1
  funext e
  exact agree e.1 e.2

theorem failure?_handlers (kind packageRoot : String) (handlers : Section Handler) :
    failure? (handlers.sorted.traverse (Handler.enrich known kind packageRoot)) =
      firstFailure? known (handlerSites kind handlers) :=
  failure?_traverse_sites (fun name h => h.failure?_enrich kind packageRoot name) handlers.sorted

theorem failure?_types (types : Section (Section Parameter)) :
    failure? (types.sorted.traverse (enrichType known)) =
      firstFailure? known (types.sorted.entries.flatMap fun (name, fields) =>
        fields.sites ("type " ++ name)) :=
  failure?_traverse_sites (fun name fields => failure?_enrichSection ("type " ++ name) fields)
    types.sorted

theorem Spec.failure?_enrich (spec : Spec) :
    failure? spec.enrich = firstFailure? spec.rawTypes.names spec.sites := by
  rw [sites, firstFailure?_append, firstFailure?_append, firstFailure?_append, ← failure?_types,
    ← failure?_enrichSection, ← failure?_handlers "action" spec.packageRoot,
    ← failure?_handlers "trigger" spec.packageRoot, enrich]
  -- A part is looked at only if no part before it has failed.
  cases spec.rawTypes.sorted.traverse (enrichType spec.rawTypes.names) with
  | error f => rfl
  | ok types =>
    cases enrichSection spec.rawTypes.names "connection" spec.connection.sorted with
    | error f => rfl
    | ok connection =>
      cases spec.actions.sorted.traverse
          (Handler.enrich spec.rawTypes.names "action" spec.packageRoot) with
      | error f => rfl
      | ok actions =>
        cases spec.triggers.sorted.traverse
          (Handler.enrich spec.rawTypes.names "trigger" spec.packageRoot) <;> rfl

theorem Spec.exists_enrich_iff (spec : Spec) :
    (∃ enriched, spec.enrich = .ok enriched) ↔ ∀ s ∈ spec.sites, s.Sound spec.rawTypes.names := by
  rw [← failure?_eq_none, failure?_enrich, firstFailure?, List.findSome?_eq_none_iff]
  exact forall₂_congr fun s _ => failure?_eq_none.trans Site.exists_enrich_iff

theorem Spec.enrich_eq_error {spec : Spec} {abort : Abort} :
    spec.enrich = .error abort ↔ ∃ before s after, spec.sites = before ++ s :: after ∧
      (∀ earlier ∈ before, earlier.Sound spec.rawTypes.names) ∧
        s.Refused spec.rawTypes.names abort := by
  rw [← failure?_eq_some, failure?_enrich, firstFailure?, List.findSome?_eq_some_iff]
  simp only [failure?_eq_some, failure?_eq_none, Site.exists_enrich_iff, Site.enrich_eq_error]
  exact exists₃_congr fun before s after => and_congr_right fun _ => and_comm

end PluginCompiler
