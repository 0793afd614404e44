import PluginCompiler.Proofs.Enrich.Raw
import PluginCompiler.Proofs.Spec.Keys

/-! Which fields of a spec come from its document. The records of a spec are read with all their fields,
so that a document can give those that are meant to be derived. -/

set_option autoImplicit false

namespace PluginCompiler

variable {α : Type}

namespace Section

def last? (name : String) : List (String × α) → Option α
  | [] => none
  | (n, a) :: rest => (last? name rest).or (if n = name then some a else none)

theorem mem_put {name other : String} {a b : α} {entries : List (String × α)}
    (distinct : (entries.map (·.1)).Nodup) :
    (other, b) ∈ put name a entries ↔
      if other = name then b = a else (other, b) ∈ entries := by
  induction entries with
  | nil => 
    rw [put, List.mem_singleton, Prod.mk.injEq]
    split <;> simp_all
  | cons e rest ih =>
    obtain ⟨n, v⟩ := e
    rw [List.map_cons, List.nodup_cons] at distinct
    -- The head is the only entry under its name.
    have absent : ∀ v, (n, v) ∉ rest := fun _ member => distinct.1 (List.mem_map.mpr ⟨_, member, rfl⟩)
    rw [put]
    by_cases own : n = name
    · subst own
      rw [if_pos rfl, List.mem_cons, List.mem_cons, Prod.mk.injEq, Prod.mk.injEq]
      by_cases same : other = n
      · subst same
        simp [absent]
      · simp [same]
    · rw [if_neg own, List.mem_cons, List.mem_cons, ih distinct.2, Prod.mk.injEq]
      by_cases same : other = name
      · subst same
        simp [Ne.symm own]
      · simp [same]

theorem mem_foldl_insert {name : String} {a : α} {drafts : List (String × α)} (s : Section α) :
    (name, a) ∈ (drafts.foldl (fun s e => s.insert e.1 e.2) s).entries ↔
      last? name drafts = some a ∨ last? name drafts = none ∧ (name, a) ∈ s.entries := by
  induction drafts generalizing s with
  | nil => simp [last?]
  | cons e rest ih =>
    obtain ⟨n, v⟩ := e
    have inserted : (name, a) ∈ (s.insert n v).entries ↔ if name = n then a = v else (name, a) ∈ s.entries :=
      mem_put s.distinct
    rw [List.foldl_cons, ih, inserted, last?]
    cases last? name rest with
    | some later => simp
    | none =>
      by_cases same : n = name
      · simp [same, eq_comm]
      · have other : name ≠ n := Ne.symm same
        simp [same, other]

theorem mem_ofList {name : String} {a : α} {drafts : List (String × α)} :
    (name, a) ∈ (ofList drafts).entries ↔ last? name drafts = some a := by
  rw [ofList, mem_foldl_insert]
  simp [empty]

end Section

namespace Value

variable {check : Value → Checked α}

/-- The value that a section has under a name: that of the last entry whose key is read as the name. -/
def lastUnder? (name : String) : List (Value × Value) → Option Value
  | [] => none
  | (k, v) :: rest => (lastUnder? name rest).or <|
    match k.asText with
    | .valid s => if s = name then some v else none
    | .invalid _ => none

def Each (good : Value → Prop) (v : Value) : Prop :=
  ∀ entries, v.opened = .map entries → ∀ name w, lastUnder? name entries = some w → good w

def At (entries : List (Value × Value)) (name : String) (good : Value → Prop) : Prop :=
  ∀ w, find? name entries = some w → good w

def Blank (entries : List (Value × Value)) (name : String) : Prop :=
  At entries name fun w => w.asText = .valid ""

theorem lastUnder?_of_asEntries {entries : List (Value × Value)} {drafts : List (String × α)}
    (checked : asEntries check entries = .valid drafts) (name : String) :
    Option.Rel (fun w a => check w = .valid a) (lastUnder? name entries) (Section.last? name drafts) := by
  have along := asEntries_eq_valid checked
  clear checked
  induction along with
  | nil => exact .none
  | @cons e d _ _ first _ ih =>
    obtain ⟨k, v⟩ := e
    obtain ⟨n, a⟩ := d
    obtain ⟨key, value⟩ : k.asText = .valid n ∧ check v = .valid a := first
    rw [lastUnder?, Section.last?, key]
    generalize lastUnder? name _ = found, Section.last? name _ = drafted at ih ⊢
    cases ih with
    | some later => exact .some later
    | none =>
      rw [Option.none_or, Option.none_or]
      by_cases same : n = name
      · simpa only [same, ↓reduceIte] using .some value
      · simpa only [same, ↓reduceIte] using .none

theorem each_iff {v : Value} {s : Section α} {fine : α → Prop} {good : Value → Prop}
    (agree : ∀ w a, check w = .valid a → (fine a ↔ good w)) (checked : asSection check v = .valid s) :
    (∀ a ∈ s.values, fine a) ↔ Each good v := by
  obtain ⟨entries, drafts, opened, accepted, rfl⟩ := asSection_eq_valid checked
  constructor
  -- An entry counts if it is the last one of its name, on both sides.
  · intro all entries' opened' name w found
    cases Value.map.inj (opened.symm.trans opened')
    have read := lastUnder?_of_asEntries accepted name
    rw [found] at read
    cases last : Section.last? name drafts with
    | none =>
      rw [last] at read
      cases read
    | some a =>
      rw [last] at read
      cases read with
      | some valid =>
        exact (agree w a valid).mp (all a (List.mem_map.mpr ⟨(name, a), Section.mem_ofList.mpr last, rfl⟩))
  · intro each a member
    obtain ⟨⟨name, a⟩, inside, rfl⟩ := List.mem_map.mp member
    have read := lastUnder?_of_asEntries accepted name
    rw [Section.mem_ofList.mp inside] at read
    cases found : lastUnder? name entries with
    | none =>
      rw [found] at read
      cases read
    | some w =>
      rw [found] at read
      cases read with
      | some valid => exact (agree w a valid).mpr (each entries opened name w found)

theorem each_iff_of_orIfNull {v : Value} {s : Section α} {fine : α → Prop} {good : Value → Prop}
    (agree : ∀ w a, check w = .valid a → (fine a ↔ good w))
    (checked : orIfNull (.map []) (asSection check) v = .valid s) :
    (∀ a ∈ s.values, fine a) ↔ Each good v := by
  by_cases null : v = .null
  · subst null
    have none_ : ∀ a ∈ s.values, fine a := by
      cases checked
      exact fun _ => nofun
    exact iff_of_true none_ nofun
  · rw [orIfNull_of_ne null] at checked
    exact each_iff agree checked

theorem at_iff {entries : List (Value × Value)} {name : String} {default_ a : α} (fine : α → Prop)
    {good : Value → Prop} (absent : fine default_)
    (agree : ∀ w a, check w = .valid a → (fine a ↔ good w))
    (checked : field entries name default_ check = .valid a) : fine a ↔ At entries name good := by
  rw [field] at checked
  cases found : find? name entries with
  | none =>
    rw [found] at checked
    cases checked
    exact iff_of_true absent fun w present => by
      rw [found] at present
      cases present
  | some w =>
    rw [found] at checked
    rw [agree w a (Checked.under_eq_valid.mp checked)]
    constructor
    · intro good_ w' found'
      cases found.symm.trans found'
      exact good_
    · exact fun all => all w found

theorem blank_iff {entries : List (Value × Value)} {name text : String}
    (checked : field entries name "" asText = .valid text) : text = "" ↔ Blank entries name := by
  refine at_iff (· = "") rfl (fun w a valid => ?_) checked
  rw [valid, Checked.valid.injEq]

theorem all_eq_valid_nil {items : List Value} {i : Int} {done : List α}
    (checked : Checked.all check i items = .valid done) : done = [] ↔ items = [] := by
  -- An item that is read gives an item.
  cases items with
  | nil =>
    cases checked
    exact ⟨fun _ => rfl, fun _ => rfl⟩
  | cons v rest =>
    rw [Checked.all, Checked.seq_eq_valid] at checked
    obtain ⟨_, _, first, _, rfl⟩ := checked
    obtain ⟨_, _, rfl⟩ := Checked.map_eq_valid.mp first
    exact ⟨nofun, nofun⟩

theorem asList_eq_valid_nil {v : Value} {done : List α} (checked : asList check v = .valid done) :
    done = [] ↔ asList asAny v = .valid [] := by
  have any (items : List Value) (i : Int) : Checked.all asAny i items = .valid items := by
    induction items generalizing i with
    | nil => rfl
    | cons v rest ih => rw [Checked.all, ih]; rfl
  unfold asList at checked ⊢
  split at checked
  case h_4 => cases checked
  all_goals rw [all_eq_valid_nil checked, any, Checked.valid.injEq]

end Value

open Value

theorem Parameter.raw_eq_self_iff (p : Parameter) :
    p.raw = p ↔ ((p.rawName = "" ∧ p.name = "") ∧ p.internalType = "") ∧ p.enumLiterals = [] := by
  obtain ⟨⟩ := p
  simp [raw, and_assoc, eq_comm]

def Value.RawParameter (v : Value) : Prop :=
  ∀ entries, v.opened = .map entries →
    ((Blank entries "raw_name" ∧ Blank entries "name") ∧ Blank entries "internal_type") ∧
      At entries "enum_literals" fun w => asList asAny w = .valid []

theorem Parameter.raw_iff_of_decode {v : Value} {p : Parameter} (checked : decode v = .valid p) :
    p.raw = p ↔ v.RawParameter := by
  obtain ⟨entries, opened, decoded⟩ := decoded_of_decode checked
  have listed := at_iff (· = []) rfl (fun w _ => asList_eq_valid_nil) decoded.enumLiterals
  rw [raw_eq_self_iff, blank_iff decoded.rawName, blank_iff decoded.name,
    blank_iff decoded.internalType, listed, RawParameter, opened]
  exact ⟨fun raw _ same => Value.map.inj same ▸ raw, fun all => all entries rfl⟩

theorem Section.mapEntries_eq_self_iff {f : α → α} (s : Section α) :
    s.mapEntries (fun _ => f) = s ↔ ∀ a ∈ s.values, f a = a := by
  have entries : s.mapEntries (fun _ => f) = s ↔ s.entries.map (fun e => (e.1, f e.2)) = s.entries :=
    ⟨fun same => congrArg Section.entries same, fun same => ext_entries same⟩
  have unchanged : s.entries.map (fun e => (e.1, f e.2)) = s.entries.map id ↔ _ := List.map_inj_left
  rw [List.map_id] at unchanged
  rw [entries, unchanged, values, List.forall_mem_map]
  exact forall₂_congr fun e _ => ⟨fun same => congrArg Prod.snd same, fun same => Prod.ext rfl same⟩

theorem rawSection_iff_of_decode {v : Value} {s : Section Parameter}
    (checked : orIfNull (.map []) decodeParameters v = .valid s) :
    rawSection s = s ↔ Each RawParameter v := by
  rw [rawSection, Section.mapEntries_eq_self_iff]
  exact each_iff_of_orIfNull (fun w p => Parameter.raw_iff_of_decode) checked

theorem rawSection_iff_of_field {entries : List (Value × Value)} {name : String} {s : Section Parameter}
    (checked : field entries name .empty (orIfNull (.map []) decodeParameters) = .valid s) :
    rawSection s = s ↔ At entries name (Each RawParameter) :=
  at_iff (fun s => rawSection s = s) rfl (fun _ _ => rawSection_iff_of_decode) checked

theorem Handler.raw_eq_self_iff (h : Handler) :
    h.raw = h ↔ (((h.rawName = "" ∧ h.name = "") ∧ rawSection h.input = h.input) ∧
      rawSection h.output = h.output) ∧ h.packageRoot = "" := by
  obtain ⟨⟩ := h
  simp only [raw, Handler.mk.injEq, true_and]
  tauto

/-- A handler that is given without what derives from it, or from its parameters. -/
def Value.RawHandler (v : Value) : Prop :=
  ∀ entries, v.opened = .map entries →
    (((Blank entries "raw_name" ∧ Blank entries "name") ∧ At entries "input" (Each RawParameter)) ∧
      At entries "output" (Each RawParameter)) ∧ Blank entries "package_root"

theorem Handler.raw_iff_of_decode {v : Value} {h : Handler} (checked : decode v = .valid h) :
    h.raw = h ↔ v.RawHandler := by
  obtain ⟨entries, opened, decoded⟩ := decoded_of_decode checked
  rw [raw_eq_self_iff, blank_iff decoded.rawName, blank_iff decoded.name,
    rawSection_iff_of_field decoded.input, rawSection_iff_of_field decoded.output,
    blank_iff decoded.packageRoot, RawHandler, opened]
  exact ⟨fun raw _ same => Value.map.inj same ▸ raw, fun all => all entries rfl⟩

/-- A document that is given without what derives from it. -/
structure Value.RawSpec (entries : List (Value × Value)) : Prop where
  connection : At entries "connection" (Each RawParameter)
  types : ∀ w, (find? "types" entries).or (find? "raw_types" entries) = some w →
    Each (Each RawParameter) w
  actions : At entries "actions" (Each RawHandler)
  triggers : At entries "triggers" (Each RawHandler)
  customTypes : At entries "custom_types" (Each fun _ => False)
  connectionKey : Blank entries "connection_data_key"

theorem rawHandlers_iff_of_field {entries : List (Value × Value)} {name : String} {s : Section Handler}
    (checked : field entries name .empty (orIfNull (.map []) (asSection Handler.decode)) = .valid s) :
    s.mapEntries (fun _ h => h.raw) = s ↔ At entries name (Each RawHandler) := by
  refine at_iff (fun s => s.mapEntries (fun _ h => h.raw) = s) rfl (fun w s read => ?_) checked
  rw [Section.mapEntries_eq_self_iff]
  exact each_iff_of_orIfNull (fun w h => Handler.raw_iff_of_decode) read

theorem rawTypes_iff_of_decode {v : Value} {s : Section (Section Parameter)}
    (checked : orIfNull (.map []) decodeTypes v = .valid s) :
    s.mapEntries (fun _ => rawSection) = s ↔ Each (Each RawParameter) v := by
  rw [Section.mapEntries_eq_self_iff]
  exact each_iff_of_orIfNull (fun _ _ => rawSection_iff_of_decode) checked

theorem rawTypes_iff_of_field {entries : List (Value × Value)} {s : Section (Section Parameter)}
    (checked : typesField entries = .valid s) :
    s.mapEntries (fun _ => rawSection) = s ↔
      ∀ w, (find? "types" entries).or (find? "raw_types" entries) = some w →
        Each (Each RawParameter) w := by
  unfold typesField at checked
  split at checked
  · next v found =>
    rw [rawTypes_iff_of_decode (Checked.under_eq_valid.mp checked), found, Option.some_or]
    exact ⟨fun each _ same => Option.some.inj same ▸ each, fun all => all v rfl⟩
  · next absent =>
    rw [absent, Option.none_or]
    exact at_iff (fun s => s.mapEntries (fun _ => rawSection) = s) rfl
      (fun _ _ => rawTypes_iff_of_decode) checked

theorem Section.eq_empty_iff (s : Section α) : s = .empty ↔ ∀ a ∈ s.values, False := by
  constructor
  · rintro rfl
    exact fun _ => nofun
  · intro none_
    refine ext_entries (List.eq_nil_iff_forall_not_mem.mpr fun e member => ?_)
    exact none_ e.2 (List.mem_map_of_mem member)

theorem Spec.raw_eq_self_iff (spec : Spec) :
    spec.raw = spec ↔ rawSection spec.connection = spec.connection ∧
      spec.rawTypes.mapEntries (fun _ => rawSection) = spec.rawTypes ∧
      spec.actions.mapEntries (fun _ h => h.raw) = spec.actions ∧
      spec.triggers.mapEntries (fun _ h => h.raw) = spec.triggers ∧
      spec.customTypes = .empty ∧ spec.connectionKey = "" := by
  obtain ⟨⟩ := spec
  simp only [raw, Spec.mk.injEq, true_and]
  simp only [eq_comm]

theorem Spec.raw_iff_of_decode {v : Value} {spec : Spec} {entries : List (Value × Value)}
    (opened : v.opened = .map entries) (checked : decode v = .valid spec) :
    spec.raw = spec ↔ RawSpec entries := by
  obtain ⟨entries', opened', decoded⟩ := decoded_of_decode checked
  cases Value.map.inj (opened.symm.trans opened')
  -- Custom types that are given have names of their own, whatever else is in them.
  have declared := at_iff (· = .empty) rfl
    (fun w (s : Section CustomType) read =>
      (Section.eq_empty_iff s).trans (each_iff (fun _ _ _ => Iff.rfl) read)) decoded.customTypes
  rw [raw_eq_self_iff, rawSection_iff_of_field decoded.connection, rawTypes_iff_of_field decoded.rawTypes,
    rawHandlers_iff_of_field decoded.actions, rawHandlers_iff_of_field decoded.triggers, declared,
    blank_iff decoded.connectionKey]
  constructor
  · rintro ⟨connection, types, actions, triggers, customTypes, connectionKey⟩
    exact ⟨connection, types, actions, triggers, customTypes, connectionKey⟩
  · rintro ⟨connection, types, actions, triggers, customTypes, connectionKey⟩
    exact ⟨connection, types, actions, triggers, customTypes, connectionKey⟩

/-- The data of a document with package root and location in place, as it is checked. -/
def Spec.amended (data : Value) (packageRoot location : String) : Value :=
  (data.withEntry "package_root" (.text packageRoot)).withEntry "spec_location" (.text location)

namespace Spec

/-- A document is read into raw fields only exactly if it gives no other ones. -/
theorem parse_raw_iff {source : Source} {packageRoot location : String} {spec : Spec}
    (parsed : parse source packageRoot location = .ok spec) :
    ∃ text data own entries, source.toText = .ok text ∧ Yaml.load text.toList = .ok data ∧
      data.opened = .map own ∧
      (amended data (effectiveRoot packageRoot own) location).opened = .map entries ∧
      (spec.raw = spec ↔ RawSpec entries) := by
  obtain ⟨text, data, decoded, read, accepted⟩ := parse_eq_ok parsed
  obtain ⟨own, opened, valid⟩ := ofData_eq_ok accepted
  obtain ⟨entries, within, _⟩ := decoded_of_decode valid
  exact ⟨text, data, own, entries, decoded, dataOf_eq_ok read, opened, within,
    raw_iff_of_decode within valid⟩

/-- A document that gives the key of connections itself. -/
def keyed : String := "\x7bconnection_data_key: x\x7d"

def keyedGraph : Yaml.Graph :=
  ⟨[⟨.map, .mapping [(1, 2)], ⟨0, 0, 0⟩⟩, ⟨.str, .scalar "connection_data_key", ⟨1, 0, 1⟩⟩,
    ⟨.str, .scalar "x", ⟨22, 0, 22⟩⟩].toArray, some 0⟩

open Yaml in
theorem ofText_keyed : Graph.ofText keyed.toList = .ok keyedGraph := by
  apply ofText_of_tokens [Kind.flowMappingStart.token 0 1, Kind.key.token 1 1,
    (Kind.scalar "connection_data_key" true).token 1 20, Kind.value.token 20 21,
    (Kind.scalar "x" true).token 22 23, Kind.flowMappingEnd.token 23 24, Kind.streamEnd.token 24 24]
  · decide +kernel
  · decide +kernel

theorem load_keyed :
    Yaml.load keyed.toList = .ok (.map [(.text "connection_data_key", .text "x")]) := by
  rw [Yaml.load, Yaml.loadBy_of_root ofText_keyed rfl]
  rfl

theorem dataOf_keyed : dataOf keyed = .ok (.map [(.text "connection_data_key", .text "x")]) := by
  have filled : keyed.toList.all Text.isBlank = false := by decide
  rw [dataOf, filled, load_keyed]
  rfl

theorem parse_keyed : parse (.text keyed) "" "" = .ok { connectionKey := "x" } := by
  rw [parse, Source.toText]
  dsimp only
  rw [dataOf_keyed]
  rfl

theorem parse_raw_iff_keyed :
    ∃ spec entries, parse (.text keyed) "" "" = .ok spec ∧
      (amended (.map [(.text "connection_data_key", .text "x")]) "" "").opened = .map entries ∧
      spec.raw ≠ spec ∧ ¬ RawSpec entries := by
  obtain ⟨_, _, _, entries, decoded, loaded, opened, within, raw⟩ := parse_raw_iff parse_keyed
  cases decoded
  cases load_keyed.symm.trans loaded
  cases opened
  have smuggled : ({ connectionKey := "x" } : Spec).raw ≠ { connectionKey := "x" } := by
    intro same
    exact absurd (congrArg connectionKey same) (by decide)
  exact ⟨_, entries, parse_keyed, within, smuggled, fun given => smuggled (raw.mpr given)⟩

/-- The key of the document is in its spec before anything is derived. -/
theorem not_parse_raw :
    ¬ ∀ (source : Source) (packageRoot location : String) (spec : Spec),
      parse source packageRoot location = .ok spec → spec.raw = spec := by
  intro raw
  exact absurd (congrArg connectionKey (raw _ _ _ _ parse_keyed)) (by decide)

end Spec

end PluginCompiler
