import PluginCompiler.Proofs.Naming.Normal
import PluginCompiler.Proofs.Plan.Plain
import PluginCompiler.Proofs.Spec.Parameters

/-! The identifiers of an enriched spec. Each key of the document gives one, which is a word without a
small letter at its start. It is one that other packages can refer to exactly if a letter comes first in
the key. -/

set_option autoImplicit false

namespace PluginCompiler

open Naming (IsNormal isWordChar upperCamel)
open Section (Along)

/-- An identifier that other packages see: ASCII letters and digits, the first of them a capital. -/
structure Go.IsExported (s : String) : Prop where
  word : Naming.IsWord s
  capital : s.toList.head?.any Char.isUpper = true

instance (s : String) : Decidable (Go.IsExported s) :=
  decidable_of_iff (Naming.IsWord s ∧ s.toList.head?.any Char.isUpper = true)
    ⟨fun ⟨word, capital⟩ => ⟨word, capital⟩, fun exported => ⟨exported.word, exported.capital⟩⟩

namespace Naming

variable {name : String}

/-- The first letter or digit of a name is a letter. -/
def LeadsWithLetter (name : String) : Prop := (name.toList.find? isWordChar).any Char.isAlpha = true

instance (name : String) : Decidable (LeadsWithLetter name) :=
  inferInstanceAs (Decidable (_ = true))

theorem head?_camelChars (cs : List Char) :
    (camelChars cs).head? = (cs.find? isWordChar).map Char.toUpper := by
  rw [camelChars]
  induction cs with
  | nil => rfl
  | cons c cs ih =>
    rw [camelFrom]
    split
    · next word => simp [List.find?_cons_of_pos word]
    · next other => rw [ih, List.find?_cons_of_neg other]

theorem isExported_upperCamel_iff : Go.IsExported (upperCamel name) ↔ LeadsWithLetter name := by
  have capital : (upperCamel name).toList.head?.any Char.isUpper =
      (name.toList.find? isWordChar).any Char.isAlpha := by
    rw [toList_upperCamel, head?_camelChars, Option.any_map]
    simp only [Char.isUpper_toUpper_eq_isAlpha]
  constructor
  · intro exported
    rw [LeadsWithLetter, ← capital]
    exact exported.capital
  · intro letter
    rw [LeadsWithLetter, ← capital] at letter
    exact ⟨isWord_upperCamel name, letter⟩

def identified (key : String) : String × String := (key, upperCamel key)

end Naming

open Naming (identified)

def Section.identifiers {α : Type} (name : α → String) (s : Section α) : List (String × String) :=
  s.entries.map fun e => (e.1, name e.2)

def Handler.keys (h : Handler) : List String := h.input.names ++ h.output.names

def Handler.identifiers (h : Handler) : List (String × String) :=
  h.input.identifiers Parameter.name ++ h.output.identifiers Parameter.name

namespace Spec

/-- Every key of a document: of its custom types and their fields, of its connection, and of its actions
and triggers and their parameters. -/
def keys (spec : Spec) : List String :=
  spec.rawTypes.names ++ spec.rawTypes.values.flatMap Section.names ++ spec.connection.names ++
    (spec.actions.names ++ spec.actions.values.flatMap Handler.keys) ++
    (spec.triggers.names ++ spec.triggers.values.flatMap Handler.keys)

def identifiers (spec : Spec) : List (String × String) :=
  spec.customTypes.identifiers CustomType.name ++
    (spec.customTypes.values.flatMap fun t => t.fields.identifiers Parameter.name) ++
    spec.connection.identifiers Parameter.name ++
    (spec.actions.identifiers Handler.name ++ spec.actions.values.flatMap Handler.identifiers) ++
    (spec.triggers.identifiers Handler.name ++ spec.triggers.values.flatMap Handler.identifiers)

end Spec

section
variable {α β δ : Type} {R : String → α → β → Prop} {s : Section α} {t : Section β}

theorem Section.perm_values_sorted (s : Section α) : s.sorted.values.Perm s.values :=
  (arrange_perm s.entries).map Prod.snd

theorem Section.perm_names_sorted (s : Section α) : s.sorted.names.Perm s.names :=
  (arrange_perm s.entries).map Prod.fst

theorem Section.identifiers_of_along {name : β → String} (along : Along R s.entries t.entries)
    (named : ∀ key a b, R key a b → name b = upperCamel key) :
    t.identifiers name = s.names.map identified := by
  have names : s.names = t.names := along.names_eq
  rw [names, Section.names, List.map_map]
  apply List.map_congr_left
  rintro ⟨key, b⟩ entry
  obtain ⟨a, _, related⟩ := along.exists_of_mem entry
  rw [named key a b related]
  rfl

theorem Section.perm_flatMap_of_along {f : α → List δ} {g : β → List δ} (along : Along R s.entries t.entries)
    (each : ∀ key a b, R key a b → (g b).Perm (f a)) :
    (t.values.flatMap g).Perm (s.values.flatMap f) := by
  have lists : ∀ {entries : List (String × α)} {others : List (String × β)}, Along R entries others →
      ((others.map (·.2)).flatMap g).Perm ((entries.map (·.2)).flatMap f) := by
    intro entries others along
    induction along with
    | nil => exact .refl _
    | cons first _ ih => exact (each _ _ _ first.2).append ih
  exact lists along

end

variable {known : List String} {owner kind packageRoot key : String} {s s' : Section Parameter}
  {h h' : Handler}

theorem Section.Enriched.identifiers (becomes : Section.Enriched known owner s s') :
    s'.identifiers Parameter.name = s.names.map identified :=
  Section.identifiers_of_along becomes fun _ _ _ own => own.name

theorem Section.Enriched.perm_identifiers (becomes : Section.Enriched known owner s.sorted s') :
    (s'.identifiers Parameter.name).Perm (s.names.map identified) := by
  rw [becomes.identifiers]
  exact s.perm_names_sorted.map identified

theorem Handler.Enriched.perm_identifiers (becomes : Handler.Enriched known kind packageRoot key h h') :
    h'.identifiers.Perm (h.keys.map identified) := by
  rw [Handler.keys, List.map_append]
  exact becomes.input.perm_identifiers.append becomes.output.perm_identifiers

theorem perm_identifiers_of_handlers {handlers handlers' : Section Handler}
    (along : Along (Handler.Enriched known kind packageRoot) handlers.sorted.entries handlers'.entries) :
    (handlers'.identifiers Handler.name ++ handlers'.values.flatMap Handler.identifiers).Perm
      ((handlers.names ++ handlers.values.flatMap Handler.keys).map identified) := by
  rw [List.map_append, List.map_flatMap]
  refine List.Perm.append ?_ ?_
  · rw [Section.identifiers_of_along along fun _ _ _ own => own.name]
    exact handlers.perm_names_sorted.map identified
  · exact (Section.perm_flatMap_of_along along fun _ _ _ own => own.perm_identifiers).trans
      (handlers.perm_values_sorted.flatMap_right _)

namespace Spec

variable {spec enriched : Spec}

theorem perm_identifiers_of_types (ok : spec.enrich = .ok enriched) :
    (enriched.customTypes.identifiers CustomType.name ++
        enriched.customTypes.values.flatMap fun t => t.fields.identifiers Parameter.name).Perm
      ((spec.rawTypes.names ++ spec.rawTypes.values.flatMap Section.names).map identified) := by
  have becomes := enriched_of_ok ok
  have names : spec.rawTypes.sorted.names = enriched.rawTypes.names := becomes.types.names_eq
  rw [List.map_append, List.map_flatMap]
  refine List.Perm.append ?_ ?_
  · rw [Section.identifiers_of_along becomes.customTypes fun _ _ _ own => own.2.1, ← names]
    exact spec.rawTypes.perm_names_sorted.map identified
  · -- a type has the fields that stand under its name after they were enriched
    have fields := Section.perm_flatMap_of_along becomes.customTypes
      (g := fun t => t.fields.identifiers Parameter.name) (f := Section.identifiers Parameter.name)
      fun _ _ _ own => by rw [own.2.2]
    have declared := Section.perm_flatMap_of_along becomes.types
      (f := fun s => s.names.map identified) fun _ _ _ own => .of_eq own.identifiers
    exact fields.trans (declared.trans (spec.rawTypes.perm_values_sorted.flatMap_right _))

theorem perm_identifiers_of_ok (ok : spec.enrich = .ok enriched) :
    enriched.identifiers.Perm (spec.keys.map identified) := by
  have becomes := enriched_of_ok ok
  have types := perm_identifiers_of_types ok
  have connection := becomes.connection.perm_identifiers
  have actions := perm_identifiers_of_handlers becomes.actions
  have triggers := perm_identifiers_of_handlers becomes.triggers
  rw [keys, identifiers, List.map_append, List.map_append, List.map_append]
  exact ((types.append connection).append actions).append triggers

/-- All identifiers of a spec are words without a small letter at their start. They are exported exactly
if a letter comes before any digit in every key of the document. -/
theorem identifiers_exported_iff (ok : spec.enrich = .ok enriched) :
    enriched.identifiers.Perm (spec.keys.map identified) ∧
    (∀ e ∈ enriched.identifiers, IsNormal e.2 ∧
      (Go.IsExported e.2 ↔ Naming.LeadsWithLetter e.1)) ∧
    ((∀ e ∈ enriched.identifiers, Go.IsExported e.2) ↔
      ∀ key ∈ spec.keys, Naming.LeadsWithLetter key) := by
  have perm := perm_identifiers_of_ok ok
  refine ⟨perm, ?_, ?_⟩
  · intro e member
    obtain ⟨key, _, rfl⟩ := List.mem_map.mp (perm.mem_iff.mp member)
    exact ⟨Naming.isNormal_upperCamel key, Naming.isExported_upperCamel_iff⟩
  · simp only [perm.mem_iff, List.forall_mem_map]
    exact forall₂_congr fun _ _ => Naming.isExported_upperCamel_iff

theorem identifiers_exported_iff_messaging :
    messaging.enrich = .ok messagingEnriched ∧
    messagingEnriched.identifiers.Perm (messaging.keys.map identified) ∧
    (∀ e ∈ messagingEnriched.identifiers, IsNormal e.2 ∧
      (Go.IsExported e.2 ↔ Naming.LeadsWithLetter e.1)) ∧
    ((∀ e ∈ messagingEnriched.identifiers, Go.IsExported e.2) ↔
      ∀ key ∈ messaging.keys, Naming.LeadsWithLetter key) :=
  ⟨enrich_messaging, identifiers_exported_iff enrich_messaging⟩

/-- A connection whose keys have no letters in them. -/
def wordless : Spec where
  connection := ⟨[("-", { type := "int" }), ("2", { type := "int" })], by decide⟩

def wordlessEnriched : Spec :=
  { wordless with
    connection :=
      ⟨[("-", { rawName := "-", name := "", type := "int", internalType := "int" }),
        ("2", { rawName := "2", name := "2", type := "int", internalType := "int" })], by decide⟩
    connectionKey := "\"\""
    http := ⟨10001, 2, 2⟩ }

theorem enrich_wordless : wordless.enrich = .ok wordlessEnriched := rfl

theorem not_identifiers_exported :
    ¬ ∀ spec enriched : Spec, spec.enrich = .ok enriched →
      ∀ e ∈ enriched.identifiers, Go.IsExported e.2 := by
  intro exported
  exact absurd (exported _ _ enrich_wordless) (by decide)

end Spec

end PluginCompiler
