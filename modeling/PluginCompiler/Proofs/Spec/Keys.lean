import Mathlib.Data.List.Nodup
import PluginCompiler.Proofs.Spec.Decoded
import PluginCompiler.Proofs.Yaml.Loading
import PluginCompiler.Proofs.Yaml.Outline
import PluginCompiler.Spec.Parse

/-! The keys of a document in its spec. A document whose mappings repeat a key is refused; one that is
read gives its sections an entry for every key, unless two keys of a section give the same name. -/

set_option autoImplicit false

namespace PluginCompiler

open Yaml Value

variable {α : Type} {g : Graph} {root : Nat}

namespace Yaml.Graph

/-- The name of an entry whose key is a node: a text, or the one that bytes encode. -/
def keyName (g : Graph) (key : Nat) : Option String :=
  match g.scalarValue key with
  | .ok (.text s) => some s
  | .ok (.bytes b) => (Text.Utf8.decode b).toOption
  | _ => none

def Named (g : Graph) (pairs : List (Nat × Nat)) : Prop :=
  (pairs.map fun p => g.keyName p.1).Nodup

instance (g : Graph) (pairs : List (Nat × Nat)) : Decidable (g.Named pairs) :=
  inferInstanceAs (Decidable (List.Nodup _))

def pairsAt (g : Graph) : Option Nat → List (Nat × Nat)
  | some id => if (g.node id).tag = .map then g.pairs id else []
  | none => []

/-- One entry for every pair, in the same order, under the name that its key gives. -/
def Lists (g : Graph) (inner : Nat → α → Prop) (pairs : List (Nat × Nat)) (s : Section α) : Prop :=
  List.Forall₂ (fun p e => g.keyName p.1 = some e.1 ∧ inner p.2 e.2) pairs s.entries

end Yaml.Graph

section
variable {check : Value → Checked α} {inner : Nat → α → Prop} {good : Nat → Prop}

theorem keyName_of_asText {k : Value} {key : Nat} {name : String} (depicts : Depicts g root k key)
    (checked : k.asText = .valid name) : g.keyName key = some name := by
  have opened := depicts_opened depicts
  unfold asText at checked
  split at checked
  · next s text =>
    cases checked
    rw [text] at opened
    rw [Graph.keyName, opened.2]
  · next b bytes =>
    rw [bytes] at opened
    rw [Graph.keyName, opened.2]
    split at checked
    · next s decoded =>
      cases checked
      simp only [decoded, Except.toOption]
    · cases checked
  · cases checked

theorem pairs_along_drafts {entries : List (Value × Value)} {pairs : List (Nat × Nat)}
    {drafts : List (String × α)}
    (depicts : List.Forall₂ (fun e p => Depicts g root e.1 p.1 ∧ Depicts g root e.2 p.2) entries pairs)
    (checked : asEntries check entries = .valid drafts) :
    List.Forall₂ (fun p d => g.keyName p.1 = some d.1 ∧
      ∃ w, Depicts g root w p.2 ∧ check w = .valid d.2) pairs drafts := by
  have along := asEntries_eq_valid checked
  clear checked
  induction depicts generalizing drafts with
  | nil =>
    cases along
    exact .nil
  | cons first _ ih =>
    cases along with
    | cons second rest =>
      exact .cons ⟨keyName_of_asText first.1 second.1, _, first.2, second.2⟩ (ih rest)

theorem names_of_forall₂ {R : Nat × Nat → String × α → Prop} {pairs : List (Nat × Nat)}
    {drafts : List (String × α)}
    (along : List.Forall₂ (fun p d => g.keyName p.1 = some d.1 ∧ R p d) pairs drafts) :
    (pairs.map fun p => g.keyName p.1) = (drafts.map (·.1)).map some := by
  induction along with
  | nil => rfl
  | cons first _ ih => simp only [List.map_cons, first.1, ih]

theorem named_iff {R : Nat × Nat → String × α → Prop} {pairs : List (Nat × Nat)}
    {drafts : List (String × α)}
    (along : List.Forall₂ (fun p d => g.keyName p.1 = some d.1 ∧ R p d) pairs drafts) :
    g.Named pairs ↔ (drafts.map (·.1)).Nodup := by
  rw [Graph.Named, names_of_forall₂ along]
  exact List.nodup_map_iff fun _ _ => Option.some.inj

theorem lists_ofList_iff {pairs : List (Nat × Nat)} {drafts : List (String × α)}
    (along : List.Forall₂ (fun p d => g.keyName p.1 = some d.1 ∧
      ∃ w, Depicts g root w p.2 ∧ check w = .valid d.2) pairs drafts)
    (agree : ∀ w id a, Depicts g root w id → check w = .valid a → (inner id a ↔ good id)) :
    g.Lists inner pairs (.ofList drafts) ↔ g.Named pairs ∧ ∀ p ∈ pairs, good p.2 := by
  constructor
  · intro lists
    have named : g.Named pairs := (named_iff lists).mpr (Section.ofList drafts).distinct
    rw [Graph.Lists, Section.entries_ofList ((named_iff along).mp named)] at lists
    refine ⟨named, ?_⟩
    clear named
    induction along with
    | nil => simp
    | cons first _ ih =>
      obtain ⟨_, w, depicts, checked⟩ := first
      cases lists with
      | cons here rest =>
        exact List.forall_mem_cons.mpr ⟨(agree w _ _ depicts checked).mp here.2, ih rest⟩
  · rintro ⟨named, all⟩
    rw [Graph.Lists, Section.entries_ofList ((named_iff along).mp named)]
    clear named
    induction along with
    | nil => exact .nil
    | cons first _ ih =>
      obtain ⟨name, w, depicts, checked⟩ := first
      obtain ⟨here, rest⟩ := List.forall_mem_cons.mp all
      exact .cons ⟨name, (agree w _ _ depicts checked).mpr here⟩ (ih rest)

theorem lists_asSection_iff {v : Value} {id : Nat} {s : Section α} (depicts : Depicts g root v id)
    (proper : ∀ t a, check (.text t) ≠ .valid a)
    (agree : ∀ w id a, Depicts g root w id → check w = .valid a → (inner id a ↔ good id))
    (checked : asSection check v = .valid s) :
    g.Lists inner (g.pairsAt (some id)) s ↔
      g.Named (g.pairsAt (some id)) ∧ ∀ p ∈ g.pairsAt (some id), good p.2 := by
  obtain ⟨entries, drafts, opened, accepted, rfl⟩ := asSection_eq_valid checked
  have inside := depicts_opened depicts
  rw [opened] at inside
  obtain ⟨tag, amended, inside⟩ := inside
  -- The outermost mapping has an amended text, which the check would have refused.
  have within : id ≠ root := fun outermost => by
    obtain ⟨t, member⟩ := amended outermost
    obtain ⟨a, valid⟩ := valid_of_mem accepted member
    exact proper t a valid
  rw [Graph.pairsAt, if_pos tag]
  exact lists_ofList_iff (pairs_along_drafts (depicts_of_depictsEntries within inside) accepted)
    agree

theorem lists_orIfNull_iff {v : Value} {id : Nat} {s : Section α} (depicts : Depicts g root v id)
    (proper : ∀ t a, check (.text t) ≠ .valid a)
    (agree : ∀ w id a, Depicts g root w id → check w = .valid a → (inner id a ↔ good id))
    (checked : orIfNull (.map []) (asSection check) v = .valid s) :
    g.Lists inner (g.pairsAt (some id)) s ↔
      g.Named (g.pairsAt (some id)) ∧ ∀ p ∈ g.pairsAt (some id), good p.2 := by
  by_cases null : v = .null
  · subst null
    have single := depicts.1
    have none : g.pairsAt (some id) = [] := by
      rw [Graph.pairsAt, if_neg]
      intro tag
      rw [tag] at single
      cases single
    cases checked
    rw [none]
    simp [Graph.Named, Graph.Lists, Section.ofList, Section.empty]
  · rw [orIfNull_of_ne null] at checked
    exact lists_asSection_iff depicts proper agree checked

theorem lists_field_iff {entries : List (Value × Value)} {name : String} {id? : Option Nat}
    {s : Section α} (found : Option.Rel (Depicts g root) (find? name entries) id?)
    (proper : ∀ t a, check (.text t) ≠ .valid a)
    (agree : ∀ w id a, Depicts g root w id → check w = .valid a → (inner id a ↔ good id))
    (checked : field entries name .empty (orIfNull (.map []) (asSection check)) = .valid s) :
    g.Lists inner (g.pairsAt id?) s ↔ g.Named (g.pairsAt id?) ∧ ∀ p ∈ g.pairsAt id?, good p.2 := by
  rw [field] at checked
  generalize find? name entries = value at checked found
  cases found with
  | none =>
    cases checked
    simp [Graph.pairsAt, Graph.Named, Graph.Lists, Section.empty]
  | some depicts =>
    exact lists_orIfNull_iff depicts proper agree (Checked.under_eq_valid.mp checked)

end

/-! ## Specs -/

namespace Yaml.Graph

structure MirrorsHandler (g : Graph) (id : Nat) (handler : Handler) : Prop where
  input : g.Lists (fun _ _ => True) (g.pairsAt (g.field? id "input")) handler.input
  output : g.Lists (fun _ _ => True) (g.pairsAt (g.field? id "output")) handler.output

def typesAt (g : Graph) (root : Nat) : Option Nat :=
  (g.field? root "types").or (g.field? root "raw_types")

/-- Every section of a spec has one entry for every key of its node, in the order of the document. -/
structure Mirrors (g : Graph) (root : Nat) (spec : Spec) : Prop where
  connection : g.Lists (fun _ _ => True) (g.pairsAt (g.field? root "connection")) spec.connection
  types : g.Lists (fun id body => g.Lists (fun _ _ => True) (g.pairsAt (some id)) body)
    (g.pairsAt (g.typesAt root)) spec.rawTypes
  actions : g.Lists g.MirrorsHandler (g.pairsAt (g.field? root "actions")) spec.actions
  triggers : g.Lists g.MirrorsHandler (g.pairsAt (g.field? root "triggers")) spec.triggers

def handlerSections (g : Graph) (handlers : List (Nat × Nat)) : List (List (Nat × Nat)) :=
  handlers.flatMap fun p => [g.pairsAt (g.field? p.2 "input"), g.pairsAt (g.field? p.2 "output")]

def sections (g : Graph) (root : Nat) : List (List (Nat × Nat)) :=
  let types := g.pairsAt (g.typesAt root)
  let actions := g.pairsAt (g.field? root "actions")
  let triggers := g.pairsAt (g.field? root "triggers")
  [g.pairsAt (g.field? root "connection"), types, actions, triggers] ++
    types.map (fun p => g.pairsAt (some p.2)) ++ g.handlerSections actions ++
    g.handlerSections triggers

theorem named_handlerSections_iff (handlers : List (Nat × Nat)) :
    (∀ pairs ∈ g.handlerSections handlers, g.Named pairs) ↔
      ∀ p ∈ handlers, g.Named (g.pairsAt (g.field? p.2 "input")) ∧
        g.Named (g.pairsAt (g.field? p.2 "output")) := by
  simp only [handlerSections, List.mem_flatMap, List.mem_cons, List.not_mem_nil, or_false]
  constructor
  · intro all p member
    exact ⟨all _ ⟨p, member, .inl rfl⟩, all _ ⟨p, member, .inr rfl⟩⟩
  · rintro all pairs ⟨p, member, rfl | rfl⟩
    · exact (all p member).1
    · exact (all p member).2

theorem named_sections_iff :
    (∀ pairs ∈ g.sections root, g.Named pairs) ↔
      g.Named (g.pairsAt (g.field? root "connection")) ∧
      (g.Named (g.pairsAt (g.typesAt root)) ∧
        ∀ p ∈ g.pairsAt (g.typesAt root), g.Named (g.pairsAt (some p.2))) ∧
      (g.Named (g.pairsAt (g.field? root "actions")) ∧
        ∀ p ∈ g.pairsAt (g.field? root "actions"), g.Named (g.pairsAt (g.field? p.2 "input")) ∧
          g.Named (g.pairsAt (g.field? p.2 "output"))) ∧
      g.Named (g.pairsAt (g.field? root "triggers")) ∧
        ∀ p ∈ g.pairsAt (g.field? root "triggers"), g.Named (g.pairsAt (g.field? p.2 "input")) ∧
          g.Named (g.pairsAt (g.field? p.2 "output")) := by
  simp only [sections, List.forall_mem_append, List.forall_mem_cons, List.forall_mem_map,
    named_handlerSections_iff, List.not_mem_nil, false_implies, implies_true, and_true]
  constructor
  · rintro ⟨⟨⟨⟨connection, types, actions, triggers⟩, bodies⟩, acting⟩, triggering⟩
    exact ⟨connection, ⟨types, bodies⟩, ⟨actions, acting⟩, triggers, triggering⟩
  · rintro ⟨connection, ⟨types, bodies⟩, ⟨actions, acting⟩, triggers, triggering⟩
    exact ⟨⟨⟨⟨connection, types, actions, triggers⟩, bodies⟩, acting⟩, triggering⟩

end Yaml.Graph

theorem not_isAmended {name : String} (root : name ≠ "package_root")
    (location : name ≠ "spec_location") : ¬ IsAmended (.text name) := by
  rintro (same | same)
  · exact root (Value.text.inj same)
  · exact location (Value.text.inj same)

theorem parameter_of_text (t : String) (p : Parameter) : Parameter.decode (.text t) ≠ .valid p := by
  simp [Parameter.decode, asRecord, opened, Checked.fault]

theorem handler_of_text (t : String) (h : Handler) : Handler.decode (.text t) ≠ .valid h := by
  simp [Handler.decode, asRecord, opened, Checked.fault]

theorem body_of_text (t : String) (s : Section Parameter) :
    orIfNull (.map []) decodeParameters (.text t) ≠ .valid s := by
  simp [orIfNull, decodeParameters, asSection, opened, Checked.fault]

theorem lists_parameters_iff {entries : List (Value × Value)} {name : String} {id? : Option Nat}
    {s : Section Parameter} (found : Option.Rel (Depicts g root) (find? name entries) id?)
    (checked : field entries name .empty (orIfNull (.map []) decodeParameters) = .valid s) :
    g.Lists (fun _ _ => True) (g.pairsAt id?) s ↔ g.Named (g.pairsAt id?) := by
  have iff : g.Lists (fun _ _ => True) (g.pairsAt id?) s ↔
      g.Named (g.pairsAt id?) ∧ ∀ p ∈ g.pairsAt id?, True :=
    lists_field_iff found parameter_of_text (fun _ _ _ _ _ => Iff.rfl) checked
  simpa using iff

theorem mirrorsHandler_iff {w : Value} {id : Nat} {handler : Handler}
    (depicts : Depicts g root w id) (checked : Handler.decode w = .valid handler) :
    g.MirrorsHandler id handler ↔ g.Named (g.pairsAt (g.field? id "input")) ∧
      g.Named (g.pairsAt (g.field? id "output")) := by
  obtain ⟨entries, opened, decoded⟩ := Handler.decoded_of_decode checked
  have inside := depicts_opened depicts
  rw [opened] at inside
  have found {name : String} (plain : ¬ IsAmended (.text name)) := find?_depicts plain inside.2.2
  have inputs := lists_parameters_iff (found (not_isAmended (by decide) (by decide))) decoded.input
  have outputs := lists_parameters_iff (found (not_isAmended (by decide) (by decide))) decoded.output
  exact ⟨fun mirrors => ⟨inputs.mp mirrors.input, outputs.mp mirrors.output⟩,
    fun named => ⟨inputs.mpr named.1, outputs.mpr named.2⟩⟩

theorem found_typesField {entries : List (Value × Value)} {s : Section (Section Parameter)}
    {amended : Prop} (inside : DepictsEntries g root amended entries (g.pairs root))
    (checked : typesField entries = .valid s) :
    ∃ name, Option.Rel (Depicts g root) (find? name entries) (g.typesAt root) ∧
      field entries name .empty (orIfNull (.map []) decodeTypes) = .valid s := by
  have found (name : String) (plain : ¬ IsAmended (.text name)) :
      Option.Rel (Depicts g root) (find? name entries) (g.field? root name) :=
    find?_depicts plain inside
  have first := found "types" (not_isAmended (by decide) (by decide))
  have second := found "raw_types" (not_isAmended (by decide) (by decide))
  unfold typesField at checked
  rw [Graph.typesAt]
  split at checked
  · next v here =>
    refine ⟨"types", ?_, by rw [field, here]; exact checked⟩
    rw [here] at first ⊢
    generalize g.field? root "types" = node at first
    cases first with
    | some depicts => exact .some depicts
  · next absent =>
    refine ⟨"raw_types", ?_, checked⟩
    rw [absent] at first
    generalize g.field? root "types" = node at first
    cases first with
    | none => exact second

theorem lists_body_iff {w : Value} {id : Nat} {s : Section Parameter} (depicts : Depicts g root w id)
    (checked : orIfNull (.map []) decodeParameters w = .valid s) :
    g.Lists (fun _ _ => True) (g.pairsAt (some id)) s ↔ g.Named (g.pairsAt (some id)) := by
  have iff : g.Lists (fun _ _ => True) (g.pairsAt (some id)) s ↔
      g.Named (g.pairsAt (some id)) ∧ ∀ p ∈ g.pairsAt (some id), True :=
    lists_orIfNull_iff depicts parameter_of_text (fun _ _ _ _ _ => Iff.rfl) checked
  simpa using iff

theorem mirrors_iff {data : Value} {spec : Spec} (depicts : Depicts g root data root)
    (checked : Spec.decode data = .valid spec) :
    g.Mirrors root spec ↔ ∀ pairs ∈ g.sections root, g.Named pairs := by
  obtain ⟨entries, opened, decoded⟩ := Spec.decoded_of_decode checked
  have inside := depicts_opened depicts
  rw [opened] at inside
  have found {name : String} (plain : ¬ IsAmended (.text name)) :
      Option.Rel (Depicts g root) (find? name entries) (g.field? root name) :=
    find?_depicts plain inside.2.2
  obtain ⟨name, typesFound, types⟩ := found_typesField inside.2.2 decoded.rawTypes
  have connections :=
    lists_parameters_iff (found (not_isAmended (by decide) (by decide))) decoded.connection
  have typed := lists_field_iff typesFound body_of_text (fun _ _ _ => lists_body_iff) types
  have acting := lists_field_iff (found (not_isAmended (by decide) (by decide))) handler_of_text
    (fun _ _ _ => mirrorsHandler_iff) decoded.actions
  have triggering := lists_field_iff (found (not_isAmended (by decide) (by decide))) handler_of_text
    (fun _ _ _ => mirrorsHandler_iff) decoded.triggers
  rw [Graph.named_sections_iff]
  constructor
  · intro mirrors
    exact ⟨connections.mp mirrors.connection, typed.mp mirrors.types, acting.mp mirrors.actions,
      triggering.mp mirrors.triggers⟩
  · rintro ⟨connection, types, actions, triggers⟩
    exact ⟨connections.mpr connection, typed.mpr types, acting.mpr actions,
      triggering.mpr triggers⟩

/-! ## Documents -/

theorem load_eq_ok {source : List Char} {data : Value} (loaded : load source = .ok data) :
    data = .null ∨ ∃ g root v, Graph.ofText source = .ok g ∧ g.root = some root ∧
      g.Visited root (fun id => g.Apart (g.pairs id) ∧ g.Ordinary (g.pairs id)) v ∧
      data = v.value root := by
  cases composed : Graph.ofText source with
  | error stop =>
    rw [load, loadBy_of_stop composed] at loaded
    cases loaded
  | ok g =>
    cases rooted : g.root with
    | none =>
      rw [load, loadBy_of_empty composed rooted] at loaded
      cases loaded
      exact .inl rfl
    | some root =>
      rw [load, loadBy_of_root composed rooted] at loaded
      obtain ⟨v, visit, same⟩ := bind_eq_ok loaded
      cases same
      exact .inr ⟨g, root, v, rfl, rooted,
        Graph.visited_of_visit (fun _ _ dict => Graph.reads_distinctly dict) visit, rfl⟩

theorem depicts_amended {v : Visit} {P : Nat → Prop} {entries : List (Value × Value)}
    (visited : g.Visited root P v) (opened : (v.value root).opened = .map entries)
    (packageRoot location : String) :
    Depicts g root (((v.value root).withEntry "package_root" (.text packageRoot)).withEntry
      "spec_location" (.text location)) root := by
  rcases depicts_value visited with ⟨other, depicts⟩ | ⟨tag, own, shape, inside⟩
  · have depicts := depicts_opened depicts
    rw [opened] at depicts
    exact absurd depicts.1 other
  · have whole : Depicts g root (.map (put (.text "spec_location") (.text location)
        (put (.text "package_root") (.text packageRoot) own))) root :=
      ⟨tag, fun _ => ⟨packageRoot, mem_put_of_other (by decide) (mem_put_text own)⟩,
        depictsEntries_put rfl (.inr rfl) (depictsEntries_put rfl (.inl rfl) (inside _))⟩
    rcases shape with shape | shape <;> rw [shape]
    · exact whole
    · exact ⟨rfl, by rw [tag]; rfl, whole⟩

namespace Spec

theorem dataOf_eq_ok {text : String} {data : Value} (read : dataOf text = .ok data) :
    Yaml.load text.toList = .ok data := by
  unfold dataOf at read
  split at read
  · cases read
  · split at read
    · cases read
      assumption
    · cases read
    · split at read <;> cases read
    · cases read
    · cases read

theorem dataOf_eq_duplicateKey {text : String} {key : Value} {mark : Mark}
    (read : dataOf text = refuse (.duplicateKey key mark)) :
    Yaml.load text.toList = .error (.duplicateKey key mark) := by
  unfold dataOf at read
  split at read
  · cases read
  · split at read
    · cases read
    · cases read
    · split at read <;> cases read
      assumption
    · cases read
    · cases read

theorem ofData_eq_ok {data : Value} {packageRoot location : String} {spec : Spec}
    (accepted : ofData data packageRoot location = .ok spec) :
    ∃ entries, data.opened = .map entries ∧
      Spec.decode ((data.withEntry "package_root" (.text (effectiveRoot packageRoot entries))).withEntry
        "spec_location" (.text location)) = .valid spec := by
  unfold ofData at accepted
  split at accepted
  · next entries opened =>
    refine ⟨entries, opened, ?_⟩
    split at accepted
    · dsimp only at accepted
      split at accepted
      · next decoded =>
        cases accepted
        exact decoded
      · cases accepted
    · cases accepted
  · cases accepted
  · cases accepted

theorem parse_eq_ok {source : Source} {packageRoot location : String} {spec : Spec}
    (parsed : parse source packageRoot location = .ok spec) :
    ∃ text data, source.toText = .ok text ∧ dataOf text = .ok data ∧
      ofData data packageRoot location = .ok spec := by
  unfold parse at parsed
  split at parsed
  · cases parsed
  · next text decoded =>
    split at parsed
    · cases parsed
    · next data read => exact ⟨text, data, decoded, read, parsed⟩

theorem parse_eq_duplicateKey {source : Source} {packageRoot location : String} {key : Value}
    {mark : Mark} (parsed : parse source packageRoot location = refuse (.duplicateKey key mark)) :
    ∃ text, source.toText = .ok text ∧ dataOf text = refuse (.duplicateKey key mark) := by
  unfold parse at parsed
  split at parsed
  · next problem unread =>
    cases parsed
    unfold Source.toText at unread
    split at unread
    · cases unread
    · next bytes =>
      cases decoded : Text.Utf8.decode bytes <;> rw [decoded] at unread <;> cases unread
  · next text decoded =>
    split at parsed
    · next abort read =>
      cases parsed
      exact ⟨text, decoded, read⟩
    · next data read =>
      unfold ofData at parsed
      split at parsed
      · split at parsed
        · dsimp only at parsed
          split at parsed <;> cases parsed
        · cases parsed
      · cases parsed
      · cases parsed

/-- A document is read only if no mapping in it repeats a key, and its sections have an entry for
every key exactly if the keys of each give different names. A key is reported as repeated only if it
is the first of its mapping that is equal to an earlier one. -/
theorem parse_keeps_keys_iff (source : Source) (packageRoot location : String) :
    (∀ spec, parse source packageRoot location = .ok spec →
      ∃ text g root, source.toText = .ok text ∧ Graph.ofText text.toList = .ok g ∧
        g.root = some root ∧ (∀ id, g.Reached root id → g.Readable id) ∧ g.Distinct root ∧
        (g.Mirrors root spec ↔ ∀ pairs ∈ g.sections root, g.Named pairs)) ∧
    (∀ key mark, parse source packageRoot location = refuse (.duplicateKey key mark) →
      ∃ text g root id, source.toText = .ok text ∧ Graph.ofText text.toList = .ok g ∧
        g.root = some root ∧ g.Reached root id ∧ g.IsDict id ∧ g.FirstRepeat id key mark) := by
  constructor
  · intro spec parsed
    obtain ⟨text, data, decoded, read, accepted⟩ := parse_eq_ok parsed
    obtain ⟨entries, opened, valid⟩ := ofData_eq_ok accepted
    rcases load_eq_ok (dataOf_eq_ok read) with rfl | ⟨g, root, v, composed, rooted, visited, rfl⟩
    · cases opened
    · exact ⟨text, g, root, decoded, composed, rooted, visited.readable,
        fun id reached dict => (visited.dicts id reached dict).1,
        mirrors_iff (depicts_amended visited opened _ _) valid⟩
  · intro key mark refused
    obtain ⟨text, decoded, read⟩ := parse_eq_duplicateKey refused
    obtain ⟨g, root, id, composed, rooted, repeated⟩ :=
      firstRepeat_of_load (dataOf_eq_duplicateKey read)
    exact ⟨text, g, root, id, decoded, composed, rooted, repeated⟩

theorem parse_of_graph {text : String} (packageRoot location : String) {g : Graph} {root : Nat}
    (filled : text.toList.all Text.isBlank = false) (composed : Graph.ofText text.toList = .ok g)
    (rooted : g.root = some root)
    (accepted : ((g.visit Visit.distinctly root).toOption.bind fun v =>
      (ofData (v.value root) packageRoot location).toOption).isSome = true) :
    ∃ spec, parse (.text text) packageRoot location = .ok spec := by
  obtain ⟨spec, accepted⟩ := Option.isSome_iff_exists.mp accepted
  obtain ⟨v, visit, accepted⟩ := Option.bind_eq_some_iff.mp accepted
  have loaded : Yaml.load text.toList = .ok (v.value root) := by
    rw [Yaml.load, loadBy_of_root composed rooted, ok_of_toOption visit]
    rfl
  refine ⟨spec, ?_⟩
  simp only [parse, Source.toText, dataOf, filled, Bool.false_eq_true, ↓reduceIte, loaded,
    ok_of_toOption accepted]

/-- The keys `a` and `!!binary YQ==` differ, but both are the name `a` of a connection. -/
theorem not_parse_keeps_keys :
    ¬ ∀ (source : Source) (packageRoot location : String) (spec : Spec),
      parse source packageRoot location = .ok spec →
        ∃ text g root, source.toText = .ok text ∧ Graph.ofText text.toList = .ok g ∧
          g.root = some root ∧ g.Mirrors root spec := by
  intro keeps
  have composed : Graph.ofText "{connection: {a: {}, !!binary YQ==: {}}}".toList = .ok ⟨[
      ⟨.map, .mapping [(1, 2)], ⟨0, 0, 0⟩⟩, ⟨.str, .scalar "connection", ⟨1, 0, 1⟩⟩,
      ⟨.map, .mapping [(3, 4), (5, 6)], ⟨13, 0, 13⟩⟩, ⟨.str, .scalar "a", ⟨14, 0, 14⟩⟩,
      ⟨.map, .mapping [], ⟨17, 0, 17⟩⟩, ⟨.binary, .scalar "YQ==", ⟨21, 0, 21⟩⟩,
      ⟨.map, .mapping [], ⟨36, 0, 36⟩⟩].toArray, some 0⟩ := by
    apply ofText_of_tokens [Kind.flowMappingStart.token 0 1, Kind.key.token 1 1,
      (Kind.scalar "connection" true).token 1 11, Kind.value.token 11 12,
      Kind.flowMappingStart.token 13 14, Kind.key.token 14 14, (Kind.scalar "a" true).token 14 15,
      Kind.value.token 15 16, Kind.flowMappingStart.token 17 18, Kind.flowMappingEnd.token 18 19,
      Kind.flowEntry.token 19 20, Kind.key.token 21 21, (Kind.tag (some "!!") "binary").token 21 29,
      (Kind.scalar "YQ==" true).token 30 34, Kind.value.token 34 35,
      Kind.flowMappingStart.token 36 37, Kind.flowMappingEnd.token 37 38,
      Kind.flowMappingEnd.token 38 39, Kind.flowMappingEnd.token 39 40, Kind.streamEnd.token 40 40]
    · decide +kernel
    · decide +kernel
  obtain ⟨spec, parsed⟩ := parse_of_graph "" "" (by decide +kernel) composed rfl
    (by decide +kernel)
  obtain ⟨text, g, root, decoded, composed', rooted, mirrors⟩ := keeps _ _ _ _ parsed
  cases decoded
  cases composed.symm.trans composed'
  cases rooted
  have named := (named_iff mirrors.connection).mpr spec.connection.distinct
  revert named
  decide +kernel

end Spec

end PluginCompiler
