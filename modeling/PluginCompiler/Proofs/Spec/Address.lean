import PluginCompiler.Proofs.Spec.Raw
import PluginCompiler.Proofs.Yaml.Alias

/-! Where a spec belongs: the package root that is asked for, and the location that its document was read
from. Neither has a say in whether a document is refused, what for, or what else is in its spec. -/

set_option autoImplicit false

namespace PluginCompiler

open Value

variable {α β γ ε : Type}

namespace Value

variable {name other : String} {v : Value} {entries : List (Value × Value)} {check : Value → Checked α}

theorem find?_put : find? name (put (.text other) v entries) =
    if name = other then some v else find? name entries := by
  induction entries with
  | nil => simp [put, find?, eq_comm]
  | cons e rest ih =>
    obtain ⟨k, w⟩ := e
    rw [put]
    split
    · next same =>
      rw [Yaml.eq_of_sameKey_text same]
      by_cases here : other = name
      · simp [find?, here]
      · simp [find?, here, Ne.symm here]
    · next apart =>
      by_cases here : k = .text name
      · subst here
        have different : name ≠ other := by
          rintro rfl
          simp [sameKey] at apart
        rw [Yaml.find?_cons_self, Yaml.find?_cons_self, if_neg different]
      · rw [Yaml.find?_cons_of_ne here, Yaml.find?_cons_of_ne here, ih]

theorem field_put_of_ne {default_ : α} (different : name ≠ other) :
    field (put (.text other) v entries) name default_ check = field entries name default_ check := by
  rw [field, field, find?_put, if_neg different]

theorem field_put_self {s default_ : String} :
    field (put (.text name) (.text s) entries) name default_ asText = .valid s := by
  rw [field, find?_put, if_pos rfl]
  rfl

theorem typesField_put (first : "types" ≠ other) (second : "raw_types" ≠ other) :
    typesField (put (.text other) v entries) = typesField entries := by
  rw [typesField, typesField, find?_put, if_neg first, field_put_of_ne second]

end Value

namespace Spec

def settled (packageRoot location : String) (spec : Spec) : Spec :=
  { spec with packageRoot, location }

theorem settled_of_seq {make : Checked (String → String → α → β → Spec)} {types : Checked α}
    {key : Checked β} {packageRoot location : String}
    (fixed : ∀ f, make = .valid f → ∀ a b,
      f packageRoot location a b = settled packageRoot location (f "" "" a b)) :
    make <*> .valid packageRoot <*> .valid location <*> types <*> key =
      settled packageRoot location <$> (make <*> .valid "" <*> .valid "" <*> types <*> key) := by
  cases make with
  | invalid issues => cases types <;> cases key <;> rfl
  | valid f =>
    cases types with
    | invalid issues => cases key <;> rfl
    | valid a =>
      cases key with
      | invalid issues => rfl
      | valid b => exact congrArg Checked.valid (fixed f rfl a b)

theorem decode_amended (entries : List (Value × Value)) (packageRoot location : String) :
    decode (amended (.map entries) packageRoot location) =
      settled packageRoot location <$> decode (amended (.map entries) "" "") := by
  simp only [decode, asRecord, amended, withEntry, opened]
  simp (disch := decide) only [field_put_of_ne, field_put_self, typesField_put]
  refine settled_of_seq fun make checked => ?_
  simp only [Checked.seq_eq_valid, Checked.map_eq_valid] at checked
  -- The fourteen fields before the package root, of which nothing need be known.
  iterate 13 obtain ⟨_, _, checked, _, rfl⟩ := checked
  obtain ⟨_, _, rfl⟩ := checked
  exact fun _ _ => rfl

/-- No alias leads back to the mapping that the document is. -/
def Source.Unaliased (source : Source) : Prop :=
  ∀ text, source.toText = .ok text → Yaml.InDocument text.toList Yaml.Graph.Unaliased

/-- The document is a mapping whose package root has a number with too many digits to be written. -/
def Source.Unrooted (source : Source) : Prop :=
  ∃ text data entries, source.toText = .ok text ∧ dataOf text = .ok data ∧
    data.opened = .map entries ∧ hasRoot "" entries = false

theorem hasRoot_eq (asked : String) (entries : List (Value × Value)) :
    hasRoot asked entries = (asked != "" || hasRoot "" entries) := by
  simp [hasRoot]

def outcomeOf : Checked Spec → Except Abort Spec
  | .valid spec => .ok spec
  | .invalid issues => refuse (.malformed issues)

theorem ofData_settled {data : Value}
    (plain : ∀ entries, data.opened = .map entries → data = .map entries) :
    ∃ entries outcome,
      (hasRoot "" entries = false ↔ ∃ own, data.opened = .map own ∧ hasRoot "" own = false) ∧
      ∀ packageRoot location, ofData data packageRoot location =
        if hasRoot packageRoot entries then
          Except.map (settled (effectiveRoot packageRoot entries) location) outcome
        else .error (.defect (.digits .writing)) := by
  cases opened : data.opened with
  -- Only a mapping has a package root to fall back on.
  | map entries =>
    cases plain entries opened
    have amends := decode_amended entries
    simp only [amended] at amends
    refine ⟨entries, outcomeOf (decode (((Value.map entries).withEntry "package_root" (.text "")).withEntry
      "spec_location" (.text ""))), by simp, fun packageRoot location => ?_⟩
    rw [ofData, opened]
    simp only [amends (effectiveRoot _ entries)]
    cases decode (((Value.map entries).withEntry "package_root" (.text "")).withEntry
      "spec_location" (.text "")) <;> rfl
  | null =>
    exact ⟨[], refuse (.notMapping none), by simp [hasRoot, find?],
      fun _ _ => by rw [ofData, opened]; simp [hasRoot, find?, refuse, Except.map]⟩
  | _ =>
    exact ⟨[], refuse (.notMapping (some _)), by simp [hasRoot, find?],
      fun _ _ => by rw [ofData, opened]; simp [hasRoot, find?, refuse, Except.map]; rfl⟩

/-- What a text is read to, or refused with, is settled before it is asked where it belongs, but for a
package root of the document that cannot be written. -/
theorem parse_settled {source : Source} (unaliased : source.Unaliased) :
    ∃ entries outcome, (hasRoot "" entries = false ↔ source.Unrooted) ∧
      ∀ packageRoot location, parse source packageRoot location =
        if hasRoot packageRoot entries then
          Except.map (settled (effectiveRoot packageRoot entries) location) outcome
        else .error (.defect (.digits .writing)) := by
  have rootless : ∀ asked, hasRoot asked [] = true := by simp [hasRoot, find?]
  cases decoded : source.toText with
  | error problem =>
    refine ⟨[], refuse problem, by simp [rootless, Source.Unrooted, decoded], fun _ _ => ?_⟩
    rw [parse, decoded, rootless]
    rfl
  | ok text =>
    cases read : dataOf text with
    | error abort =>
      refine ⟨[], .error abort, by simp [rootless, Source.Unrooted, decoded, read], fun _ _ => ?_⟩
      simp only [parse, decoded, read, rootless]
      rfl
    | ok data =>
      have plain : ∀ entries, data.opened = .map entries → data = .map entries := by
        intro entries opened
        rcases load_eq_ok (dataOf_eq_ok read) with rfl | ⟨g, root, v, composed, rooted, visited, rfl⟩
        · cases opened
        · exact Yaml.value_of_unaliased visited (unaliased text decoded g root composed rooted) opened
      obtain ⟨entries, outcome, own, given⟩ := ofData_settled plain
      refine ⟨entries, outcome, ?_, fun _ _ => ?_⟩
      · simp [own, Source.Unrooted, decoded, read]
      · simp only [parse, decoded, read, given]

end Spec

namespace Section

theorem traverseList_map (f : String → α → Except ε β) (g : β → γ) (entries : List (String × α)) :
    traverseList (fun name a => (f name a).map g) entries =
      (traverseList f entries).map (List.map fun e => (e.1, g e.2)) := by
  induction entries with
  | nil => rfl
  | cons e rest ih =>
    obtain ⟨name, a⟩ := e
    rw [traverseList, traverseList, ih]
    cases f name a with
    | error e => rfl
    | ok b => cases traverseList f rest <;> rfl

theorem traverse_map (f : String → α → Except ε β) (g : β → γ) (s : Section α) :
    s.traverse (fun name a => (f name a).map g) = (s.traverse f).map (mapEntries fun _ => g) := by
  have lists := traverseList_map f g s.entries
  cases ended : s.traverse f with
  | error e =>
    rw [traverse_error.mp ended] at lists
    exact traverse_error.mpr lists
  | ok t =>
    rw [traverse_ok.mp ended] at lists
    exact traverse_ok.mpr lists

theorem mapEntries_mapEntries (f : α → β) (g : β → γ) (s : Section α) :
    (s.mapEntries fun _ => f).mapEntries (fun _ => g) = s.mapEntries fun _ a => g (f a) := by
  apply ext_entries
  simp only [mapEntries, List.map_map, Function.comp_def]

end Section

def Handler.addressed (packageRoot : String) (h : Handler) : Handler := { h with packageRoot }

theorem Handler.enrich_addressed (known : List String) (kind root packageRoot name : String)
    (h : Handler) : h.enrich known kind packageRoot name =
      (h.enrich known kind root name).map (addressed packageRoot) := by
  simp only [enrich]
  split
  · rfl
  · split <;> rfl

theorem enrich_handlers_addressed (known : List String) (kind root packageRoot : String)
    (handlers : Section Handler) : handlers.traverse (Handler.enrich known kind packageRoot) =
      (handlers.traverse (Handler.enrich known kind root)).map
        (Section.mapEntries fun _ => Handler.addressed packageRoot) := by
  have each : Handler.enrich known kind packageRoot = fun name h =>
      (Handler.enrich known kind root name h).map (Handler.addressed packageRoot) := by
    funext name h
    exact h.enrich_addressed known kind root packageRoot name
  rw [each, Section.traverse_map]

namespace Spec

/-- An enriched spec under another package root, its handlers with it, and from another location. -/
def addressed (packageRoot location : String) (spec : Spec) : Spec :=
  { spec.settled packageRoot location with
    actions := spec.actions.mapEntries fun _ h => h.addressed packageRoot
    triggers := spec.triggers.mapEntries fun _ h => h.addressed packageRoot }

theorem addressed_addressed (packageRoot location packageRoot' location' : String) (spec : Spec) :
    (spec.addressed packageRoot location).addressed packageRoot' location' =
      spec.addressed packageRoot' location' := by
  have handlers (s : Section Handler) : (s.mapEntries fun _ => Handler.addressed packageRoot).mapEntries
      (fun _ => Handler.addressed packageRoot') = s.mapEntries fun _ => Handler.addressed packageRoot' :=
    Section.mapEntries_mapEntries _ _ s
  simp only [addressed, settled, handlers]

theorem enrich_settled (packageRoot location : String) (spec : Spec) :
    (spec.settled packageRoot location).enrich = spec.enrich.map (addressed packageRoot location) := by
  -- The root reaches the handlers only, and neither their names nor what they can fail with.
  have handlers (kind : String) (s : Section Handler) :=
    enrich_handlers_addressed spec.rawTypes.names kind spec.packageRoot packageRoot s
  simp only [enrich, settled, handlers]
  cases spec.rawTypes.sorted.traverse (enrichType spec.rawTypes.names) with
  | error f => rfl
  | ok types =>
    cases enrichSection spec.rawTypes.names "connection" spec.connection.sorted with
    | error f => rfl
    | ok connection =>
      cases spec.actions.sorted.traverse
          (Handler.enrich spec.rawTypes.names "action" spec.packageRoot) with
      | error f => rfl
      | ok actions =>
        cases spec.triggers.sorted.traverse
            (Handler.enrich spec.rawTypes.names "trigger" spec.packageRoot) with
        | error f => rfl
        | ok triggers => rfl

def parseEnriched (source : Source) (packageRoot location : String) : Except Abort Spec :=
  match parse source packageRoot location with
  | .error abort => .error abort
  | .ok spec => spec.enrich

theorem parseEnriched_addressed {source : Source} (unaliased : source.Unaliased) :
    ∃ entries outcome, (hasRoot "" entries = false ↔ source.Unrooted) ∧
      ∀ packageRoot location, parseEnriched source packageRoot location =
        if hasRoot packageRoot entries then
          Except.map (addressed (effectiveRoot packageRoot entries) location) outcome
        else .error (.defect (.digits .writing)) := by
  obtain ⟨entries, outcome, own, given⟩ := parse_settled unaliased
  refine ⟨entries, outcome.bind enrich, own, fun packageRoot location => ?_⟩
  rw [parseEnriched, given]
  split_ifs
  · cases outcome with
    | error abort => rfl
    | ok spec => exact enrich_settled _ _ spec
  · rfl

/-- The outcome is the same under all addresses, up to the address itself, unless only one of them falls
back on the package root of the document and that cannot be written. -/
theorem parseEnriched_map_addressed {source : Source} (unaliased : source.Unaliased)
    {packageRoot packageRoot' : String} (location location' : String)
    (rooted : source.Unrooted → (packageRoot = "" ↔ packageRoot' = "")) :
    (parseEnriched source packageRoot location).map (addressed "" "") =
      (parseEnriched source packageRoot' location').map (addressed "" "") := by
  obtain ⟨entries, outcome, own, given⟩ := parseEnriched_addressed unaliased
  have alike : hasRoot packageRoot entries = hasRoot packageRoot' entries := by
    rw [hasRoot_eq, hasRoot_eq packageRoot']
    cases root : hasRoot "" entries with
    | true => simp
    | false => simp [bne, rooted (own.mp root)]
  rw [given, given, alike]
  split
  · cases outcome with
    | error abort => rfl
    | ok spec => simp only [Except.map, addressed_addressed]
  · rfl

theorem parseEnriched_of_unrooted {source : Source} (unaliased : source.Unaliased)
    (unrooted : source.Unrooted) (location : String) :
    parseEnriched source "" location = .error (.defect (.digits .writing)) := by
  obtain ⟨entries, outcome, own, given⟩ := parseEnriched_addressed unaliased
  rw [given, if_neg (by simp [own.mpr unrooted])]

end Spec

end PluginCompiler
