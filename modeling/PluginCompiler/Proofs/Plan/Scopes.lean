import PluginCompiler.Proofs.Emit.Records
import PluginCompiler.Proofs.Naming.Normal
import PluginCompiler.Proofs.Plan.Names
import PluginCompiler.Proofs.Plan.Plain

/-! Names in one scope of the generated packages. Every declaration gives its identifier to what is
generated for it, so a scope has a name twice exactly if two names that are declared side by side have
one identifier. A plan compares paths; that tells single words apart, and no others. -/

set_option autoImplicit false

namespace PluginCompiler

open Naming (IsWord upperCamel)

namespace Naming

variable {names others : List String} {name other : String}

/-- Names with different identifiers. -/
def Apart (names : List String) : Prop :=
  ∀ name ∈ names, ∀ other ∈ names, name ≠ other → upperCamel name ≠ upperCamel other

instance (names : List String) : Decidable (Apart names) :=
  inferInstanceAs (Decidable (∀ name ∈ names, ∀ other ∈ names, _))

theorem nodup_upperCamel_iff (distinct : names.Nodup) :
    (names.map upperCamel).Nodup ↔ Apart names := by
  rw [List.nodup_map_iff_inj_on distinct]
  constructor
  · exact fun injective name member other member' different same =>
      different (injective name member other member' same)
  · intro apart name member other member' same
    by_contra different
    exact apart name member other member' different same

/-- What separates words does not show. -/
example : ¬ Apart ["post-message", "post_message"] := by decide

theorem apart_of_words (words : ∀ name ∈ names, IsWord name)
    (apart : ∀ name ∈ names, ∀ other ∈ names, name ≠ other → Text.lower name ≠ Text.lower other) :
    Apart names := by
  intro name member other member' different same
  apply apart name member other member' different
  rw [← lower_upperCamel_of_isWord (words name member), same,
    lower_upperCamel_of_isWord (words other member')]

end Naming

/-- A scope in which each of some keys declares what `written` makes of its identifier, next to what is
always declared. It has a name twice exactly if two of the keys have one identifier. -/
structure Scope (fixed : List String) (written : String → List String) (keys names : List String) :
    Prop where
  made : names = fixed ++ keys.flatMap fun key => written (upperCamel key)
  distinct : names.Nodup ↔ Naming.Apart keys

variable {fixed keys names : List String} {written : String → List String}

structure Tells (written : String → List String) : Prop where
  filled : ∀ name, written name ≠ []
  nodup : ∀ name, (written name).Nodup
  own : ∀ name other entry, entry ∈ written name → entry ∈ written other → name = other

theorem Tells.nodup_flatMap_iff (tells : Tells written) (names : List String) :
    (names.flatMap written).Nodup ↔ names.Nodup := by
  have disjoint (name other : String) : List.Disjoint (written name) (written other) ↔ name ≠ other := by
    constructor
    · rintro apart rfl
      obtain ⟨entry, member⟩ := List.exists_mem_of_ne_nil _ (tells.filled name)
      exact apart member member
    · exact fun different entry left right => different (tells.own name other entry left right)
  rw [List.nodup_flatMap]
  constructor
  · rintro ⟨_, apart⟩
    exact apart.imp fun {name other} => (disjoint name other).mp
  · intro distinct
    exact ⟨fun name _ => tells.nodup name, distinct.imp fun {name other} => (disjoint name other).mpr⟩

theorem Tells.scope (tells : Tells written) (distinct : keys.Nodup) (nodup : fixed.Nodup)
    (other : ∀ name, ∀ entry ∈ written name, entry ∉ fixed)
    (same : names = fixed ++ keys.flatMap fun key => written (upperCamel key)) :
    Scope fixed written keys names where
  made := same
  distinct := by
    have moved : (keys.flatMap fun key => written (upperCamel key)) =
        (keys.map upperCamel).flatMap written := by rw [List.flatMap_map]
    rw [same, moved, List.nodup_append, tells.nodup_flatMap_iff, Naming.nodup_upperCamel_iff distinct]
    refine ⟨fun ⟨_, apart, _⟩ => apart, fun apart => ⟨nodup, apart, ?_⟩⟩
    rintro entry member _ inside rfl
    obtain ⟨name, _, made⟩ := List.mem_flatMap.mp inside
    exact other name entry made member

theorem tells_single {f : String → String} (injective : Function.Injective f) :
    Tells fun name => [f name] where
  filled _ := List.cons_ne_nil _ _
  nodup _ := List.nodup_singleton _
  own name other entry left right := by
    rw [List.mem_singleton] at left right
    exact injective (left.symm.trans right)

theorem tells_prefixed (start : String) : Tells fun name => [start ++ name] :=
  tells_single fun _ _ => (String.append_right_inj start).mp

theorem tells_self : Tells fun name => [name] := tells_single Function.injective_id

def typeEndings (kind : HandlerKind) : List String := ["Input", kind.outputSuffix, kind.typeSuffix]

theorem eq_of_append_ending {kind : HandlerKind} {name other s t : String} (first : s ∈ typeEndings kind)
    (second : t ∈ typeEndings kind) (same : name ++ s = other ++ t) : s = t := by
  -- No ending is the end of another one.
  have table : ∀ s ∈ typeEndings kind, ∀ t ∈ typeEndings kind, s.toList <:+ t.toList → s = t := by
    cases kind <;> decide
  have chars : name.toList ++ s.toList = other.toList ++ t.toList := by
    simpa using congrArg String.toList same
  have inside : s.toList <:+ other.toList ++ t.toList := ⟨name.toList, chars⟩
  rcases List.suffix_or_suffix_of_suffix inside ⟨other.toList, rfl⟩ with shorter | longer
  · exact table s first t second shorter
  · exact (table t second s first longer).symm

theorem tells_typeNames (kind : HandlerKind) : Tells (Emit.typeNames kind) where
  filled _ := List.cons_ne_nil _ _
  nodup name := by
    have endings : (typeEndings kind).Nodup := by cases kind <;> decide
    exact endings.map fun _ _ => (String.append_right_inj name).mp
  own name other entry left right := by
    obtain ⟨s, first, rfl⟩ : ∃ s ∈ typeEndings kind, name ++ s = entry := List.mem_map.mp left
    obtain ⟨t, second, same⟩ : ∃ t ∈ typeEndings kind, other ++ t = name ++ s := List.mem_map.mp right
    have ending := eq_of_append_ending first second same.symm
    subst ending
    exact (String.append_left_inj s).mp same.symm

namespace Plan

def records (package : String) (os : List Output) : List String :=
  (files package os).flatMap Go.declaredRecords

def functions (package : String) (os : List Output) : List String :=
  (files package os).flatMap Go.declaredFunctions

variable {spec : Spec} {source : List UInt8}

theorem records_handlers {kind : HandlerKind}
    (words : ∀ h ∈ (spec.handlers kind).values, IsWord h.name) :
    records kind.package (outputs spec source) =
      (spec.handlers kind).values.flatMap fun h => Emit.typeNames kind h.name := by
  rw [records, files_handlers, List.flatMap_assoc]
  apply List.flatMap_congr
  intro h member
  rw [List.flatMap_cons, List.flatMap_singleton, Emit.declaredRecords_handlerLines kind (words h member),
    Emit.declaredRecords_stubLines, List.append_nil]

theorem records_types (words : ∀ t ∈ spec.customTypes.values, IsWord t.name) :
    records "types" (outputs spec source) = spec.customTypes.values.map CustomType.name := by
  rw [records, files_types, List.flatMap_map, ← List.flatMap_singleton' (List.map _ _),
    List.flatMap_map]
  exact List.flatMap_congr fun t member => Emit.declaredRecords_typeLines (words t member) spec

theorem functions_server (words : ∀ h ∈ spec.actions.values, IsWord h.name) :
    functions "server" (outputs spec source) =
      "New" :: spec.actions.values.map fun h => "Handle" ++ h.name := by
  have routes : (spec.actions.values.map Emit.routeLines).flatMap Go.declaredFunctions =
      spec.actions.values.map fun h => "Handle" ++ h.name := by
    rw [List.flatMap_map, ← List.flatMap_singleton' (List.map _ _), List.flatMap_map]
    exact List.flatMap_congr fun h member => Emit.declaredFunctions_routeLines (words h member)
  rw [functions, files_server, List.flatMap_cons, Emit.declaredFunctions_serverLines, routes]
  rfl

/-- The names in the scopes of a plan: types and functions of packages, and fields of records. Records
of custom types name an embedded field by its type. -/
structure Scopes (spec : Spec) (os : List Output) : Prop where
  handlers : ∀ kind,
    Scope [] (Emit.typeNames kind) (spec.handlers kind).names (records kind.package os)
  routes : Scope ["New"] (fun name => ["Handle" ++ name]) spec.actions.names (functions "server" os)
  types : Scope [] (fun name => [name]) spec.customTypes.names (records "types" os)
  fields : ∀ kind, ∀ h ∈ (spec.handlers kind).values,
    Emit.handlerLines kind h ∈ files kind.package os ∧
      Scope [] (fun name => [name]) h.input.names
        ((Go.declaredFields (h.name ++ "Input") (Emit.handlerLines kind h)).map Go.Field.name) ∧
      Scope [] (fun name => [name]) h.output.names
        ((Go.declaredFields (h.name ++ kind.outputSuffix) (Emit.handlerLines kind h)).map Go.Field.name)
  connection : Emit.connectionLines spec ∈ files "connection" os ∧
    Scope [] (fun name => [name]) spec.connection.names
      ((Go.declaredFields "Data" (Emit.connectionLines spec)).map Go.Field.name)
  members : ∀ t ∈ spec.customTypes.values, Emit.typeLines t spec ∈ files "types" os ∧
    Scope [] (fun name => [name]) (t.sortedFields.map Parameter.rawName)
      (t.sortedFields.map Parameter.name) ∧
    (Go.declaredMembers t.name (Emit.typeLines t spec)).map Go.Field.name =
      t.sortedFields.map fun p => if p.embed then Go.unqualified p.internalType else p.name

end Plan

namespace Spec

variable {spec enriched : Spec} {source : List UInt8} {os : List Output}

theorem identifiers_of_handlers (ok : spec.enrich = .ok enriched) (kind : HandlerKind) :
    (enriched.handlers kind).values.map Handler.name = (enriched.handlers kind).names.map upperCamel := by
  rw [Section.values, Section.names, List.map_map, List.map_map]
  apply List.map_congr_left
  rintro ⟨key, h⟩ entry
  obtain ⟨_, _, becomes⟩ := enriched_handler_of_ok ok entry
  exact becomes.name

theorem identifiers_of_types (ok : spec.enrich = .ok enriched) :
    enriched.customTypes.values.map CustomType.name = enriched.customTypes.names.map upperCamel := by
  rw [Section.values, Section.names, List.map_map, List.map_map]
  apply List.map_congr_left
  rintro ⟨key, t⟩ entry
  exact (enriched_type_of_ok ok entry).2.1

theorem readable_of_ok (ok : spec.enrich = .ok enriched) {p : Parameter}
    (member : p ∈ enriched.parameters) :
    (IsWord p.name ∧ ' ' ∉ p.type.toList) ∧ ' ' ∉ p.internalType.toList := by
  have derived := derived_parameter_of_ok ok member
  exact ⟨⟨derived.isWord_name, not_mem_of_typeChars derived.isTypeChar (by decide)⟩,
    not_mem_of_typeChars derived.isTypeChar_internal (by decide)⟩

end Spec

theorem scope_of_section {known : List String} {owner : String} {s s' : Section Parameter}
    (becomes : Section.Enriched known owner s s') {fields : List Go.Field}
    (read : fields = s'.values.map fun p => Emit.declared p.type p) :
    Scope [] (fun name => [name]) s'.names (fields.map Go.Field.name) := by
  have same : fields.map Go.Field.name = [] ++ s'.names.flatMap fun key => [upperCamel key] := by
    rw [read, List.nil_append, ← List.map_eq_flatMap, Section.values, Section.names, List.map_map,
      List.map_map, List.map_map]
    apply List.map_congr_left
    rintro ⟨key, p⟩ entry
    obtain ⟨_, _, own⟩ := becomes.exists_of_mem entry
    exact own.name
  exact tells_self.scope s'.distinct List.nodup_nil (fun _ _ _ => List.not_mem_nil) same

namespace Spec

variable {spec enriched : Spec} {source : List UInt8} {os : List Output}

theorem scopes_of_outputs (ok : spec.enrich = .ok enriched) (source : List UInt8) :
    Plan.Scopes enriched (Plan.outputs enriched source) where
  handlers kind := by
    have words (h : Handler) (member : h ∈ (enriched.handlers kind).values) := (handler_of_ok ok member).1
    refine (tells_typeNames kind).scope (enriched.handlers kind).distinct List.nodup_nil
      (fun _ _ _ => List.not_mem_nil) ?_
    rw [Plan.records_handlers words, List.nil_append, ← List.flatMap_map (f := Handler.name),
      identifiers_of_handlers ok kind, List.flatMap_map]
  routes := by
    have words (h : Handler) (member : h ∈ enriched.actions.values) : IsWord h.name :=
      (handler_of_ok ok (show h ∈ (enriched.handlers .action).values from member)).1
    -- The function that makes the server shares the package with those of the routes.
    have other (name : String) : ∀ entry ∈ ["Handle" ++ name], entry ∉ ["New"] := by
      intro entry member inside
      rw [List.mem_singleton] at member inside
      have chars := congrArg String.toList (member.symm.trans inside)
      simp at chars
    have routed : (enriched.actions.values.map fun h => "Handle" ++ h.name) =
        enriched.actions.names.map fun key => "Handle" ++ upperCamel key := by
      have identifiers := congrArg (List.map ("Handle" ++ ·)) (identifiers_of_handlers ok .action)
      rwa [List.map_map, List.map_map] at identifiers
    refine (tells_prefixed "Handle").scope enriched.actions.distinct (List.nodup_singleton _) other ?_
    rw [Plan.functions_server words, routed, List.map_eq_flatMap]
    rfl
  types := by
    have words (t : CustomType) (member : t ∈ enriched.customTypes.values) :=
      (customType_of_ok ok member).1
    refine tells_self.scope enriched.customTypes.distinct List.nodup_nil
      (fun _ _ _ => List.not_mem_nil) ?_
    rw [Plan.records_types words, identifiers_of_types ok, List.nil_append, List.map_eq_flatMap]
  fields kind h member := by
    have readable : ∀ p ∈ h.parameters, IsWord p.name ∧ ' ' ∉ p.type.toList := fun p inside =>
      (readable_of_ok ok (mem_parameters_of_handler member inside)).1
    obtain ⟨input, output⟩ := Emit.declaredFields_handlerLines kind readable
    obtain ⟨⟨key, h⟩, entry, rfl⟩ := List.mem_map.mp member
    obtain ⟨_, _, becomes⟩ := enriched_handler_of_ok ok entry
    refine ⟨?_, scope_of_section becomes.input input, scope_of_section becomes.output output⟩
    rw [Plan.files_handlers]
    exact List.mem_flatMap.mpr ⟨h, member, List.mem_cons_self⟩
  connection := by
    have becomes := (enriched_of_ok ok).connection
    refine ⟨?_, scope_of_section becomes (declaredFields_connectionLines becomes.declarable)⟩
    rw [Plan.files_connection]
    exact List.mem_cons_self
  members t member := by
    have readable : ∀ p ∈ t.sortedFields, IsWord p.name ∧ ' ' ∉ p.internalType.toList :=
      fun p inside =>
        have own := readable_of_ok ok (mem_parameters_of_type member inside)
        ⟨own.1.1, own.2⟩
    obtain ⟨_, named, perm⟩ := customType_of_ok ok member
    -- Fields with embedded types come first, and keep their names.
    have sorted := named.perm perm.symm
    refine ⟨?_, ?_, ?_⟩
    · rw [Plan.files_types]
      exact List.mem_map_of_mem member
    · refine tells_self.scope sorted.distinct List.nodup_nil (fun _ _ _ => List.not_mem_nil) ?_
      rw [List.nil_append, ← List.map_eq_flatMap, List.map_map]
      exact List.map_congr_left sorted.name
    · rw [Emit.declaredMembers_typeLines enriched readable, List.map_map]
      apply List.map_congr_left
      intro p _
      rw [Function.comp_apply, Emit.declaredMember]
      split <;> rfl

theorem apart_of_words (words : ∀ key ∈ enriched.declared, IsWord key)
    (planned : enriched.plan source = .ok os) :
    (∀ kind, Naming.Apart (enriched.handlers kind).names) ∧ Naming.Apart enriched.customTypes.names := by
  have slashless : enriched.Slashless := fun key member => (words key member).not_mem (by decide)
  -- Paths are compared without case, which says something of ASCII names only.
  have ascii : enriched.Ascii := fun key member => Naming.isAscii_of_isWord (words key member)
  have apart := (plan_ok_iff_namesApart slashless ascii).mp ⟨os, planned⟩
  exact ⟨fun kind => Naming.apart_of_words
      (fun key member => words key (mem_declared_of_handler kind member)) (apart.handlers kind),
    Naming.apart_of_words (fun key member => words key (mem_declared_of_type member)) apart.types⟩

/-- A scope of a plan has a name twice exactly if two keys that are declared side by side have one
identifier. Handlers and custom types that are named by single words have none in common. -/
theorem scopes_of_plan (ok : spec.enrich = .ok enriched) (planned : enriched.plan source = .ok os) :
    Plan.Scopes enriched os ∧
    ((∀ key ∈ enriched.declared, IsWord key) →
      (∀ kind, Naming.Apart (enriched.handlers kind).names) ∧
        Naming.Apart enriched.customTypes.names) ∧
    (enriched.Plain → ∀ o ∈ os, o.isGo = true → ∀ ls, o.lines? = some ls → o.ReadsAs ls) := by
  have same := (plan_eq_ok.mp planned).1
  subst same
  exact ⟨scopes_of_outputs ok source, fun words => apart_of_words words planned,
    fun plain o member go ls written => readsAs_of_breakless ok plain.toBreakless member go written⟩

theorem scopes_of_plan_messaging :
    messaging.enrich = .ok messagingEnriched ∧
      messagingEnriched.plan [] = .ok (Plan.outputs messagingEnriched []) ∧
      Plan.Scopes messagingEnriched (Plan.outputs messagingEnriched []) ∧
      Naming.Apart messagingEnriched.actions.names ∧ messagingEnriched.Plain ∧
      ∀ o ∈ Plan.outputs messagingEnriched [], o.isGo = true → ∀ ls, o.lines? = some ls →
        o.ReadsAs ls := by
  obtain ⟨scopes, words, reads⟩ := scopes_of_plan enrich_messaging plan_messaging
  exact ⟨enrich_messaging, plan_messaging, scopes, (words (by decide)).1 .action, plain_messaging,
    reads plain_messaging⟩

def twins : Spec where
  actions := ⟨[("post-message", {}), ("post_message", {})], by decide⟩

def twinsEnriched : Spec :=
  { twins with
    actions :=
      ⟨[("post-message", { rawName := "post-message", name := "PostMessage" }),
        ("post_message", { rawName := "post_message", name := "PostMessage" })], by decide⟩
    connectionKey := "\"\""
    http := ⟨10001, 2, 2⟩ }

/-- Two actions that only a separator tells apart have files of their own, which declare the same types. -/
theorem not_scopes_apart :
    ¬ ∀ (spec enriched : Spec) (source : List UInt8) (os : List Output),
      spec.enrich = .ok enriched → enriched.plan source = .ok os →
        (enriched.actions.values.map Handler.name).Nodup := by
  intro apart
  have planned : twinsEnriched.plan [] = .ok (Plan.outputs twinsEnriched []) :=
    plan_eq_ok.mpr ⟨rfl, by decide +kernel⟩
  exact absurd (apart twins twinsEnriched [] _ rfl planned) (by decide)

end Spec

end PluginCompiler
