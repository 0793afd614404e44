import PluginCompiler.Proofs.Enrich.Rearranged

/-! The raw fields of a spec, which are those that a document is meant to give. What else stands in its
records has no say in what it is enriched to, or refused with. -/

set_option autoImplicit false

namespace PluginCompiler

namespace Section

variable {α β γ ε : Type}

theorem names_mapEntries (f : String → α → β) (s : Section α) : (s.mapEntries f).names = s.names := by
  rw [names, mapEntries, List.map_map]
  rfl

theorem place_map (f : String → α → β) (e : String × α) (entries : List (String × α)) :
    place (e.1, f e.1 e.2) (entries.map fun d => (d.1, f d.1 d.2)) =
      (place e entries).map fun d => (d.1, f d.1 d.2) := by
  induction entries with
  | nil => rfl
  | cons d rest ih =>
    rw [List.map_cons, place, place]
    split
    · rfl
    · rw [ih, List.map_cons]

theorem arrange_map (f : String → α → β) (entries : List (String × α)) :
    arrange (entries.map fun d => (d.1, f d.1 d.2)) =
      (arrange entries).map fun d => (d.1, f d.1 d.2) := by
  induction entries with
  | nil => rfl
  | cons e rest ih =>
    have further : arrange (e :: rest) = place e (arrange rest) := rfl
    rw [further, ← place_map, ← ih]
    rfl

theorem sorted_mapEntries (f : String → α → β) (s : Section α) :
    (s.mapEntries f).sorted = s.sorted.mapEntries f :=
  ext_entries (arrange_map f s.entries)

theorem traverse_mapEntries (f : String → α → β) (g : String → β → Except ε γ) (s : Section α) :
    (s.mapEntries f).traverse g = s.traverse fun name a => g name (f name a) :=
  traverse_congr (List.forall₂_map_left_iff.mpr (List.forall₂_same.mpr fun _ _ => ⟨rfl, rfl⟩))

end Section

def Parameter.raw (p : Parameter) : Parameter :=
  { p with rawName := "", name := "", internalType := "", enumLiterals := [] }

def rawSection (s : Section Parameter) : Section Parameter := s.mapEntries fun _ p => p.raw

def Handler.raw (h : Handler) : Handler :=
  { h with rawName := "", name := "", packageRoot := "", input := rawSection h.input
           output := rawSection h.output }

def Spec.raw (spec : Spec) : Spec :=
  { spec with
    connection := rawSection spec.connection
    rawTypes := spec.rawTypes.mapEntries fun _ fields => rawSection fields
    actions := spec.actions.mapEntries fun _ h => h.raw
    triggers := spec.triggers.mapEntries fun _ h => h.raw
    customTypes := .empty
    connectionKey := "" }

variable {known : List String}

theorem Parameter.enrich_raw (owner name : String) (p : Parameter) :
    p.raw.enrich known owner name = p.enrich known owner name := by
  simp only [enrich, raw]

theorem enrichSection_raw (owner : String) (s : Section Parameter) :
    enrichSection known owner (rawSection s) = enrichSection known owner s := by
  rw [enrichSection, rawSection, Section.traverse_mapEntries]
  simp only [Parameter.enrich_raw]
  rfl

theorem sorted_rawSection (s : Section Parameter) : (rawSection s).sorted = rawSection s.sorted :=
  Section.sorted_mapEntries _ s

theorem Handler.enrich_raw (kind packageRoot name : String) (h : Handler) :
    h.raw.enrich known kind packageRoot name = h.enrich known kind packageRoot name := by
  have input : h.raw.input.sorted = rawSection h.input.sorted := sorted_rawSection h.input
  have output : h.raw.output.sorted = rawSection h.output.sorted := sorted_rawSection h.output
  rw [enrich, enrich, input, output, enrichSection_raw, enrichSection_raw]
  rfl

theorem enrich_handlers_raw (known : List String) (kind packageRoot : String) (handlers : Section Handler) :
    (handlers.mapEntries fun _ h => h.raw).sorted.traverse (Handler.enrich known kind packageRoot) =
      handlers.sorted.traverse (Handler.enrich known kind packageRoot) := by
  rw [Section.sorted_mapEntries, Section.traverse_mapEntries]
  simp only [Handler.enrich_raw]

theorem Spec.enrich_raw (spec : Spec) : spec.raw.enrich = spec.enrich := by
  have known : spec.raw.rawTypes.names = spec.rawTypes.names := Section.names_mapEntries _ _
  have types : spec.raw.rawTypes.sorted.traverse (enrichType spec.rawTypes.names) =
      spec.rawTypes.sorted.traverse (enrichType spec.rawTypes.names) := by
    have sorted : spec.raw.rawTypes.sorted = spec.rawTypes.sorted.mapEntries fun _ => rawSection :=
      Section.sorted_mapEntries _ _
    rw [sorted, Section.traverse_mapEntries]
    simp only [enrichType, enrichSection_raw]
    rfl
  have connection : spec.raw.connection.sorted = rawSection spec.connection.sorted :=
    sorted_rawSection spec.connection
  -- The package root of a handler comes from the spec, not from what the handler had.
  have actions : spec.raw.actions.sorted.traverse
      (Handler.enrich spec.rawTypes.names "action" spec.packageRoot) = _ :=
    enrich_handlers_raw _ "action" spec.packageRoot spec.actions
  have triggers : spec.raw.triggers.sorted.traverse
      (Handler.enrich spec.rawTypes.names "trigger" spec.packageRoot) = _ :=
    enrich_handlers_raw _ "trigger" spec.packageRoot spec.triggers
  have packageRoot : spec.raw.packageRoot = spec.packageRoot := rfl
  simp only [enrich]
  rw [known, packageRoot, types, connection, enrichSection_raw, actions, triggers]
  rfl

/-- Specs with the same raw fields are refused with the same failure or enriched to the same spec, so that
nothing else that stood in them is in a planned file. -/
theorem Spec.enrich_of_same_raw {spec spec' : Spec} (same : spec.raw = spec'.raw) :
    spec.enrich = spec'.enrich ∧
    ∀ enriched enriched', spec.enrich = .ok enriched → spec'.enrich = .ok enriched' →
      ∀ source source', Plan.Alike (enriched.plan source) (enriched'.plan source') := by
  have agree : spec.enrich = spec'.enrich := by rw [← spec.enrich_raw, same, spec'.enrich_raw]
  refine ⟨agree, fun enriched enriched' ok ok' source source' => ?_⟩
  cases Except.ok.inj (ok.symm.trans (agree.trans ok'))
  exact enriched.plan_alike source source'

def Spec.texting : Spec where
  packageRoot := "acme/chat"
  connection := ⟨[("server", { type := "string" })], by decide⟩
  actions := ⟨[("post", { input := ⟨[("text", { type := "[]string" })], by decide⟩ })], by decide⟩

def Spec.textingSmuggled : Spec where
  packageRoot := "acme/chat"
  connection := ⟨[("server", { type := "string", name := "Evil", internalType := "evil.Type" })],
    by decide⟩
  actions := ⟨[("post",
    { rawName := "evil", packageRoot := "evil"
      input := ⟨[("text", { type := "[]string", rawName := "evil", enumLiterals := [⟨"Evil", "1"⟩] })],
        by decide⟩ })], by decide⟩
  customTypes := ⟨[("evil", ⟨"evil", "Evil", .empty, []⟩)], by decide⟩
  connectionKey := "evil()"

theorem Spec.enrich_of_same_raw_texting :
    texting.raw = textingSmuggled.raw ∧ texting.enrich = textingSmuggled.enrich ∧
    ∃ enriched, texting.enrich = .ok enriched ∧ textingSmuggled.enrich = .ok enriched ∧
      enriched.connectionKey = "c.Server" := by
  have same : texting.raw = textingSmuggled.raw := rfl
  obtain ⟨agree, _⟩ := enrich_of_same_raw same
  obtain ⟨enriched, ok, key⟩ : ∃ enriched, texting.enrich = .ok enriched ∧
      enriched.connectionKey = "c.Server" := ⟨_, rfl, rfl⟩
  exact ⟨same, agree, enriched, ok, agree.symm.trans ok, key⟩

end PluginCompiler
