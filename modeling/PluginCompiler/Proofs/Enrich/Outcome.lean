import PluginCompiler.Proofs.Enrich.Sites

/-! What enriching a spec gives. Every section comes out with the names it had, each parameter and
handler under its own name, and what is not derived stays as it was. -/

set_option autoImplicit false

namespace PluginCompiler

open Section (Along)

variable {known : List String} {owner kind packageRoot key : String}

def Section.Enriched (known : List String) (owner : String) (s s' : Section Parameter) : Prop :=
  Along (Parameter.Enriched known owner) s.entries s'.entries

theorem enrichSection_eq_ok {s s' : Section Parameter} :
    enrichSection known owner s = .ok s' ↔ Section.Enriched known owner s s' := by
  rw [enrichSection, Section.traverse_eq_ok, Section.Enriched]
  simp only [Parameter.enrich_eq_ok]

theorem Section.Enriched.of_mem {s s' : Section Parameter} {p' : Parameter}
    (becomes : Section.Enriched known owner s s') (member : p' ∈ s'.values) :
    ∃ p, Parameter.Enriched known owner p'.rawName p p' := by
  obtain ⟨⟨name, p'⟩, entry, rfl⟩ := List.mem_map.mp member
  obtain ⟨p, _, enriched⟩ := becomes.exists_of_mem entry
  exact ⟨p, enriched.rawName ▸ enriched⟩

structure Handler.Enriched (known : List String) (kind packageRoot key : String) (h h' : Handler) :
    Prop where
  rawName : h'.rawName = key
  name : h'.name = Naming.upperCamel key
  packageRoot : h'.packageRoot = packageRoot
  input : Section.Enriched known (kind ++ " " ++ key ++ " input") h.input.sorted h'.input
  output : Section.Enriched known (kind ++ " " ++ key ++ " output") h.output.sorted h'.output
  rest : h' = { h with
    rawName := h'.rawName
    name := h'.name
    packageRoot := h'.packageRoot
    input := h'.input
    output := h'.output }

theorem Handler.enriched_of_ok {h h' : Handler}
    (ok : h.enrich known kind packageRoot key = .ok h') :
    Handler.Enriched known kind packageRoot key h h' := by
  rw [Handler.enrich] at ok
  split at ok
  · cases ok
  · next input inputOk =>
    split at ok
    · cases ok
    · next output outputOk =>
      cases ok
      exact ⟨rfl, rfl, rfl, enrichSection_eq_ok.mp inputOk, enrichSection_eq_ok.mp outputOk, rfl⟩

theorem handlers_of_traverse {handlers handlers' : Section Handler}
    (ok : handlers.sorted.traverse (Handler.enrich known kind packageRoot) = .ok handlers') :
    Along (Handler.Enriched known kind packageRoot) handlers.sorted.entries handlers'.entries :=
  (Section.traverse_eq_ok.mp ok).imp fun _ _ _ => Handler.enriched_of_ok

/-- What becomes of a spec. Fields of custom types stay in the order in which they are declared; all
else is in the order of its names. -/
structure Spec.Enriched (spec enriched : Spec) : Prop where
  types : Along (fun name => Section.Enriched spec.rawTypes.names ("type " ++ name))
    spec.rawTypes.sorted.entries enriched.rawTypes.entries
  customTypes : Along
    (fun name fields (t : CustomType) =>
      t.rawName = name ∧ t.name = Naming.upperCamel name ∧ t.fields = fields)
    enriched.rawTypes.entries enriched.customTypes.entries
  connection : Section.Enriched spec.rawTypes.names "connection" spec.connection.sorted
    enriched.connection
  actions : Along (Handler.Enriched spec.rawTypes.names "action" spec.packageRoot)
    spec.actions.sorted.entries enriched.actions.entries
  triggers : Along (Handler.Enriched spec.rawTypes.names "trigger" spec.packageRoot)
    spec.triggers.sorted.entries enriched.triggers.entries
  /-- All other fields are kept, but for those that are derived from the connection and the settings
  of the server. -/
  rest : enriched = { spec with
    rawTypes := enriched.rawTypes
    customTypes := enriched.customTypes
    connection := enriched.connection
    connectionKey := enriched.connectionKey
    actions := enriched.actions
    triggers := enriched.triggers
    http := enriched.http }

theorem Spec.Enriched.ordered {spec enriched : Spec} (becomes : spec.Enriched enriched) :
    Section.Ordered spec.rawTypes enriched.rawTypes ∧
    Section.Ordered spec.rawTypes enriched.customTypes ∧
    Section.Ordered spec.connection enriched.connection ∧
    Section.Ordered spec.actions enriched.actions ∧
    Section.Ordered spec.triggers enriched.triggers := by
  have types := (Section.ordered_sorted spec.rawTypes).along becomes.types
  exact ⟨types, types.along becomes.customTypes,
    (Section.ordered_sorted spec.connection).along becomes.connection,
    (Section.ordered_sorted spec.actions).along becomes.actions,
    (Section.ordered_sorted spec.triggers).along becomes.triggers⟩

theorem Spec.enriched_of_ok {spec enriched : Spec} (ok : spec.enrich = .ok enriched) :
    spec.Enriched enriched := by
  rw [enrich] at ok
  split at ok
  · cases ok
  · next types typesOk =>
    split at ok
    · cases ok
    · next connection connectionOk =>
      split at ok
      · cases ok
      · next actions actionsOk =>
        split at ok
        · cases ok
        · next triggers triggersOk =>
          cases ok
          exact {
            types := (Section.traverse_eq_ok.mp typesOk).imp fun _ _ _ => enrichSection_eq_ok.mp
            customTypes := Section.along_mapEntries types fun _ _ => ⟨rfl, rfl, rfl⟩
            connection := enrichSection_eq_ok.mp connectionOk
            actions := handlers_of_traverse actionsOk
            triggers := handlers_of_traverse triggersOk
            rest := rfl }

theorem Spec.derived_of_ok {spec enriched : Spec} (ok : spec.enrich = .ok enriched) :
    enriched.customTypes = enriched.rawTypes.mapEntries CustomType.ofFields ∧
      enriched.connectionKey = keyExpression enriched.connection.values := by
  rw [enrich] at ok
  split at ok
  · cases ok
  · split at ok
    · cases ok
    · split at ok
      · cases ok
      · split at ok
        · cases ok
        · cases ok
          exact ⟨rfl, rfl⟩

/-- A spec is enriched exactly if every parameter has a type and constants for its allowed values;
otherwise the first parameter that has not is what is reported, unless what spoils it is a value that
cannot be written. -/
theorem Spec.enrich_decided_by_sites (spec : Spec) :
    ((∃ enriched, spec.enrich = .ok enriched) ↔
      ∀ s ∈ spec.sites, s.Sound spec.rawTypes.names) ∧
    (∀ abort, spec.enrich = .error abort ↔
      ∃ before s after, spec.sites = before ++ s :: after ∧
        (∀ earlier ∈ before, earlier.Sound spec.rawTypes.names) ∧
          s.Refused spec.rawTypes.names abort) ∧
    (∀ enriched, spec.enrich = .ok enriched → spec.Enriched enriched) :=
  ⟨spec.exists_enrich_iff, fun _ => enrich_eq_error, fun _ => enriched_of_ok⟩

/-- The fields of types come before the connection, and the token of a field before its values. -/
example :
    ({ connection := ⟨[("port", { type := "prt" })], by decide⟩
       rawTypes := ⟨[("row", ⟨[("cell", { type := "cel", enum := [.text "a", .text "a"] })],
        by decide⟩)], by decide⟩ } : Spec).enrich =
      .error (.failure (.unresolvedType "cel" "type row.cell")) := rfl

/-- A connection that allows a number of too many digits. -/
def Spec.overlong : Spec where
  connection := ⟨[("level", { type := "int", enum := [.int Text.leastExcess] })], by decide⟩

theorem Spec.not_enrich_decided :
    ¬ ∀ spec : Spec, (∃ enriched, spec.enrich = .ok enriched) ∨
      (∃ token entity, spec.enrich = .error (.failure (.unresolvedType token entity))) ∨
      ∃ entity value reason, spec.enrich = .error (.failure (.enumValue entity value reason)) := by
  intro answers
  let level : Site := ⟨"connection", "level", { type := "int", enum := [.int Text.leastExcess] }⟩
  have refused : level.enrich [] = .error (.defect (.digits .writing)) := by
    have typed (isInternal : Bool) : resolveType [] (entityOf "connection" "level") isInternal "int" =
        .ok "int" := by
      cases isInternal <;> rfl
    simp only [level, Site.enrich, Parameter.enrich, typed, allowedLiterals_of_excess]
  have escaped : overlong.enrich = .error (.defect (.digits .writing)) :=
    enrich_eq_error.mpr ⟨[], level, [], rfl, fun _ member => absurd member List.not_mem_nil,
      Site.enrich_eq_error.mp refused⟩
  rcases answers overlong with ⟨enriched, same⟩ | ⟨token, entity, same⟩ | ⟨entity, value, reason, same⟩ <;>
    cases escaped.symm.trans same

end PluginCompiler
