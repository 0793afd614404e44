import PluginCompiler.Proofs.Plan.Alike
import PluginCompiler.Proofs.Section.Traverse
import PluginCompiler.Spec.Enrich

/-! The order of keys in a document. It shows neither in what a spec is enriched to nor in what it is
refused with: sections are looked at in the order of their names, and of the declared types only
which they are counts. -/

set_option autoImplicit false

namespace PluginCompiler

open Section (Along)

structure Handler.Rearranged (h h' : Handler) : Prop where
  input : h.input.entries.Perm h'.input.entries
  output : h.output.entries.Perm h'.output.entries
  rest : h' = { h with input := h'.input, output := h'.output }

/-- Specs that differ in the order of their sections, and of those of their handlers, only. The fields
of a custom type have the same order in both. -/
structure Spec.Rearranged (spec spec' : Spec) : Prop where
  connection : spec.connection.entries.Perm spec'.connection.entries
  rawTypes : spec.rawTypes.entries.Perm spec'.rawTypes.entries
  actions : spec.actions.Rearranged Handler.Rearranged spec'.actions
  triggers : spec.triggers.Rearranged Handler.Rearranged spec'.triggers
  rest : spec' = { spec with
    connection := spec'.connection
    rawTypes := spec'.rawTypes
    actions := spec'.actions
    triggers := spec'.triggers }

section

variable {known known' : List String} (same : ∀ name, name ∈ known ↔ name ∈ known')

include same

theorem resolveType_congr (entity : String) (isInternal : Bool) (token : String) :
    resolveType known entity isInternal token = resolveType known' entity isInternal token := by
  simp only [resolveType, Go.GoType.ofToken, Go.GoType.ofName?, same]

theorem Parameter.enrich_congr (owner name : String) (p : Parameter) :
    p.enrich known owner name = p.enrich known' owner name := by
  simp only [enrich, resolveType_congr same]

theorem enrichSection_congr (owner : String) (s : Section Parameter) :
    enrichSection known owner s = enrichSection known' owner s := by
  simp only [enrichSection, Parameter.enrich_congr same]

theorem enrichType_congr : enrichType known = enrichType known' := by
  funext name fields
  exact enrichSection_congr same ("type " ++ name) fields

theorem Handler.Rearranged.enrich_eq {h h' : Handler} (rearranged : h.Rearranged h')
    (kind packageRoot name : String) :
    h.enrich known kind packageRoot name = h'.enrich known' kind packageRoot name := by
  have input := Section.sorted_eq_of_perm rearranged.input
  have output := Section.sorted_eq_of_perm rearranged.output
  simp only [Handler.enrich, input, output, enrichSection_congr same]
  rw [rearranged.rest]

theorem enrich_handlers_of_rearranged {handlers handlers' : Section Handler}
    (rearranged : handlers.Rearranged Handler.Rearranged handlers') (kind packageRoot : String) :
    handlers.sorted.traverse (Handler.enrich known kind packageRoot) =
      handlers'.sorted.traverse (Handler.enrich known' kind packageRoot) :=
  Section.traverse_congr <| rearranged.sorted.imp fun _ _ _ related =>
    related.enrich_eq same kind packageRoot _

end

theorem Spec.Rearranged.enrich_eq {spec spec' : Spec} (rearranged : spec.Rearranged spec') :
    spec.enrich = spec'.enrich := by
  have same (name : String) : name ∈ spec.rawTypes.names ↔ name ∈ spec'.rawTypes.names :=
    (rearranged.rawTypes.map (·.1)).mem_iff
  have packageRoot : spec'.packageRoot = spec.packageRoot := by rw [rearranged.rest]
  simp only [enrich]
  rw [packageRoot, Section.sorted_eq_of_perm rearranged.rawTypes, enrichType_congr same,
    Section.sorted_eq_of_perm rearranged.connection, enrichSection_congr same,
    enrich_handlers_of_rearranged same rearranged.actions,
    enrich_handlers_of_rearranged same rearranged.triggers, rearranged.rest]

/-- Specs that differ in the order of their keys are refused with the same failure or enriched to the
same spec. So their plans fail alike or have the same files, with the same texts but for the copies of
the documents themselves. -/
theorem Spec.enrich_of_rearranged {spec spec' : Spec} (rearranged : spec.Rearranged spec') :
    spec.enrich = spec'.enrich ∧
    ∀ enriched enriched', spec.enrich = .ok enriched → spec'.enrich = .ok enriched' →
      ∀ source source', Plan.Alike (enriched.plan source) (enriched'.plan source') := by
  refine ⟨rearranged.enrich_eq, fun enriched enriched' ok ok' source source' => ?_⟩
  have same : enriched = enriched' := Except.ok.inj (ok.symm.trans (rearranged.enrich_eq.trans ok'))
  rw [← same]
  exact enriched.plan_alike source source'

def Spec.mailing : Spec where
  connection := ⟨[("user", { type := "string" }), ("host", { type := "[]string" })], by decide⟩
  rawTypes := ⟨[("mail", .empty), ("box", ⟨[("mails", { type := "[]mail" })], by decide⟩)], by decide⟩
  actions := ⟨[("send", { input := ⟨[("to", { type := "box" }), ("body", { type := "mail" })],
    by decide⟩ }), ("fetch", {})], by decide⟩

def Spec.mailingReversed : Spec where
  connection := ⟨[("host", { type := "[]string" }), ("user", { type := "string" })], by decide⟩
  rawTypes := ⟨[("box", ⟨[("mails", { type := "[]mail" })], by decide⟩), ("mail", .empty)], by decide⟩
  actions := ⟨[("fetch", {}), ("send", { input := ⟨[("body", { type := "mail" }),
    ("to", { type := "box" })], by decide⟩ })], by decide⟩

theorem Spec.mailing_rearranged : mailing.Rearranged mailingReversed where
  connection := .swap _ _ _
  rawTypes := .swap _ _ _
  actions := ⟨_, .swap _ _ _, .cons ⟨rfl, .refl _, .refl _, rfl⟩
    (.cons ⟨rfl, .swap _ _ _, .refl _, rfl⟩ .nil)⟩
  triggers := ⟨_, .refl _, .nil⟩
  rest := rfl

theorem Spec.enrich_of_rearranged_mailing :
    mailing.Rearranged mailingReversed ∧ mailing.enrich = mailingReversed.enrich ∧
    ∃ enriched, mailing.enrich = .ok enriched ∧ mailingReversed.enrich = .ok enriched ∧
      ∀ source source', Plan.Alike (enriched.plan source) (enriched.plan source') := by
  obtain ⟨same, alike⟩ := enrich_of_rearranged mailing_rearranged
  obtain ⟨enriched, ok⟩ : ∃ enriched, mailing.enrich = .ok enriched := ⟨_, rfl⟩
  have ok' : mailingReversed.enrich = .ok enriched := same.symm.trans ok
  exact ⟨mailing_rearranged, same, enriched, ok, ok', alike enriched enriched ok ok'⟩

end PluginCompiler
