import PluginCompiler.Proofs.Null.Checks
import PluginCompiler.Proofs.Null.Loading
import PluginCompiler.Proofs.Null.Unshared
import PluginCompiler.Proofs.Yaml.Blank

/-! Specs of documents with null sections. They are those of the same documents with empty sections, and
where one document is refused the other one is refused for the same issues. -/

set_option autoImplicit false

namespace PluginCompiler

open Yaml (Graph Kind load_of_blank load_of_empties ofText_of_tokens)

def SpecProblem.issues? : SpecProblem → Option (List Validation.Issue)
  | .malformed issues => some issues
  | _ => none

/-- Aborts of one kind and with the same issues; the words of a message may differ. -/
inductive Abort.Alike : Abort → Abort → Prop where
  | same (abort : Abort) : Alike abort abort
  | spec {p q : SpecProblem} (issues : q.issues? = p.issues?) :
      Alike (.failure (.spec p)) (.failure (.spec q))

namespace Spec

inductive SameOutcome : Except Abort Spec → Except Abort Spec → Prop where
  | parsed (spec : Spec) : SameOutcome (.ok spec) (.ok spec)
  | refused {abort abort' : Abort} (alike : abort.Alike abort') :
      SameOutcome (.error abort) (.error abort')

variable {source source' : Source} {text text' packageRoot location : String} {data data' : Value}

theorem SameOutcome.refl (outcome : Except Abort Spec) : SameOutcome outcome outcome := by
  cases outcome with
  | ok spec => exact .parsed spec
  | error abort => exact .refused (.same abort)

theorem sameOutcome_refuse {p q : SpecProblem} (issues : q.issues? = p.issues?) :
    SameOutcome (refuse p) (refuse q) :=
  .refused (.spec issues)

theorem ofData_of_blank {g : Graph} (blank : text.toList.all Text.isBlank = true)
    (composed : Graph.ofText text.toList = .ok g) (loaded : Yaml.load text.toList = .ok data) :
    ∃ kind, ofData data packageRoot location = refuse (.notMapping kind) := by
  obtain ⟨own, found, rfl | ⟨text, rfl⟩⟩ := load_of_blank blank composed <;>
    cases loaded.symm.trans found
  · exact ⟨none, rfl⟩
  · exact ⟨_, rfl⟩

theorem filled_of_fault {g : Graph} {fault : Yaml.Fault} (composed : Graph.ofText text.toList = .ok g)
    (failed : Yaml.load text.toList = .error fault) : ¬ text.toList.all Text.isBlank = true := by
  intro blank
  obtain ⟨_, loaded, _⟩ := load_of_blank blank composed
  cases failed.symm.trans loaded

/-- White space is refused before it is read, but its data would be refused as well. -/
theorem parse_of_notMapping {kind : Option String} (decoded : source.toText = .ok text)
    (loaded : Yaml.load text.toList = .ok data)
    (other : ofData data packageRoot location = refuse (.notMapping kind)) :
    ∃ problem, parse source packageRoot location = refuse problem ∧ problem.issues? = none := by
  by_cases blank : text.toList.all Text.isBlank = true
  · exact ⟨.empty, by simp only [parse, decoded, dataOf, if_pos blank, refuse], rfl⟩
  · exact ⟨.notMapping kind, by simp only [parse, decoded, dataOf, if_neg blank, loaded, other], rfl⟩

theorem parse_of_ofData (decoded : source.toText = .ok text) (decoded' : source'.toText = .ok text')
    (filled : ¬ text.toList.all Text.isBlank = true) (filled' : ¬ text'.toList.all Text.isBlank = true)
    (loaded : Yaml.load text.toList = .ok data) (loaded' : Yaml.load text'.toList = .ok data')
    (same : ofData data packageRoot location = ofData data' packageRoot location) :
    parse source packageRoot location = parse source' packageRoot location := by
  simp only [parse, decoded, decoded', dataOf, if_neg filled, if_neg filled', loaded, loaded', same]

theorem parse_of_fault {fault fault' : Yaml.Fault} (decoded : source.toText = .ok text)
    (decoded' : source'.toText = .ok text') (filled : ¬ text.toList.all Text.isBlank = true)
    (filled' : ¬ text'.toList.all Text.isBlank = true) (failed : Yaml.load text.toList = .error fault)
    (failed' : Yaml.load text'.toList = .error fault') (alike : fault.Alike fault') :
    SameOutcome (parse source packageRoot location) (parse source' packageRoot location) := by
  cases alike with
  | same =>
    have same : parse source packageRoot location = parse source' packageRoot location := by
      simp only [parse, decoded, decoded', dataOf, if_neg filled, if_neg filled', failed, failed']
    rw [same]
    exact .refl _
  | moved key mark mark' =>
    simp only [parse, decoded, decoded', dataOf, if_neg filled, if_neg filled', failed, failed']
    by_cases shown : key.isWritable = true
    · simp only [if_pos shown]
      exact sameOutcome_refuse rfl
    · simp only [if_neg shown]
      exact .refl _

/-- Null sections that become empty ones, any number of them and at any places, change neither the spec
of a document nor the issues that it is refused for. Among them may be every null section that no alias
shares, and a shared one that is used as a section of one kind only. -/
theorem parse_of_empties (decoded : source.toText = .ok text) (decoded' : source'.toText = .ok text')
    (empties : Yaml.Empties text.toList text'.toList) (packageRoot location : String) :
    SameOutcome (parse source packageRoot location) (parse source' packageRoot location) := by
  have ⟨g, g', composed, composed', _⟩ := empties
  rcases load_of_empties empties with
    ⟨roles, data, data', loaded, loaded', emptied⟩ | ⟨fault, fault', failed, failed', alike⟩
  · have same := Value.ofData_emptied emptied packageRoot location
    -- One text may be white space and the other one hold a comment, with no data in either.
    by_cases blank : text.toList.all Text.isBlank = true ∨ text'.toList.all Text.isBlank = true
    · have refused : ∃ kind, ofData data packageRoot location = refuse (.notMapping kind) := by
        rcases blank with blank | blank
        · exact ofData_of_blank blank composed loaded
        · exact (ofData_of_blank blank composed' loaded').imp fun _ => same.trans
      obtain ⟨kind, refused⟩ := refused
      obtain ⟨p, outcome, none_⟩ := parse_of_notMapping decoded loaded refused
      obtain ⟨q, outcome', none'⟩ := parse_of_notMapping decoded' loaded' (same ▸ refused)
      rw [outcome, outcome']
      exact sameOutcome_refuse (none'.trans none_.symm)
    · obtain ⟨filled, filled'⟩ := not_or.mp blank
      rw [parse_of_ofData decoded decoded' filled filled' loaded loaded' same]
      exact .refl _
  · exact parse_of_fault decoded decoded' (filled_of_fault composed failed)
      (filled_of_fault composed' failed') failed failed' alike

/-! A document with null tags, and a null input of an action, beside the one where both are empty. -/

def nullSections : Graph :=
  ⟨[⟨.map, .mapping [(1, 2), (3, 4)], ⟨0, 0, 0⟩⟩, ⟨.str, .scalar "tags", ⟨1, 0, 1⟩⟩,
    ⟨.null, .scalar "~", ⟨7, 0, 7⟩⟩, ⟨.str, .scalar "actions", ⟨10, 0, 10⟩⟩,
    ⟨.map, .mapping [(5, 6)], ⟨19, 0, 19⟩⟩, ⟨.str, .scalar "go", ⟨20, 0, 20⟩⟩,
    ⟨.map, .mapping [(7, 8)], ⟨24, 0, 24⟩⟩, ⟨.str, .scalar "input", ⟨25, 0, 25⟩⟩,
    ⟨.null, .scalar "~", ⟨32, 0, 32⟩⟩].toArray, some 0⟩

def emptySections : Graph :=
  ⟨[⟨.map, .mapping [(1, 2), (3, 4)], ⟨0, 0, 0⟩⟩, ⟨.str, .scalar "tags", ⟨1, 0, 1⟩⟩,
    ⟨.seq, .sequence [], ⟨7, 0, 7⟩⟩, ⟨.str, .scalar "actions", ⟨11, 0, 11⟩⟩,
    ⟨.map, .mapping [(5, 6)], ⟨20, 0, 20⟩⟩, ⟨.str, .scalar "go", ⟨21, 0, 21⟩⟩,
    ⟨.map, .mapping [(7, 8)], ⟨25, 0, 25⟩⟩, ⟨.str, .scalar "input", ⟨26, 0, 26⟩⟩,
    ⟨.map, .mapping [], ⟨33, 0, 33⟩⟩].toArray, some 0⟩

theorem ofText_nullSections :
    Graph.ofText "{tags: ~, actions: {go: {input: ~}}}".toList = .ok nullSections := by
  apply ofText_of_tokens [Kind.flowMappingStart.token 0 1, Kind.key.token 1 1,
    (Kind.scalar "tags" true).token 1 5, Kind.value.token 5 6, (Kind.scalar "~" true).token 7 8,
    Kind.flowEntry.token 8 9, Kind.key.token 10 10, (Kind.scalar "actions" true).token 10 17,
    Kind.value.token 17 18, Kind.flowMappingStart.token 19 20, Kind.key.token 20 20,
    (Kind.scalar "go" true).token 20 22, Kind.value.token 22 23, Kind.flowMappingStart.token 24 25,
    Kind.key.token 25 25, (Kind.scalar "input" true).token 25 30, Kind.value.token 30 31,
    (Kind.scalar "~" true).token 32 33, Kind.flowMappingEnd.token 33 34,
    Kind.flowMappingEnd.token 34 35, Kind.flowMappingEnd.token 35 36, Kind.streamEnd.token 36 36]
  · decide +kernel
  · decide +kernel

theorem ofText_emptySections :
    Graph.ofText "{tags: [], actions: {go: {input: {}}}}".toList = .ok emptySections := by
  apply ofText_of_tokens [Kind.flowMappingStart.token 0 1, Kind.key.token 1 1,
    (Kind.scalar "tags" true).token 1 5, Kind.value.token 5 6, Kind.flowSequenceStart.token 7 8,
    Kind.flowSequenceEnd.token 8 9, Kind.flowEntry.token 9 10, Kind.key.token 11 11,
    (Kind.scalar "actions" true).token 11 18, Kind.value.token 18 19,
    Kind.flowMappingStart.token 20 21, Kind.key.token 21 21, (Kind.scalar "go" true).token 21 23,
    Kind.value.token 23 24, Kind.flowMappingStart.token 25 26, Kind.key.token 26 26,
    (Kind.scalar "input" true).token 26 31, Kind.value.token 31 32, Kind.flowMappingStart.token 33 34,
    Kind.flowMappingEnd.token 34 35, Kind.flowMappingEnd.token 35 36, Kind.flowMappingEnd.token 36 37,
    Kind.flowMappingEnd.token 37 38, Kind.streamEnd.token 38 38]
  · decide +kernel
  · decide +kernel

theorem emptied_nullSections : nullSections.Emptied emptySections 0 := by
  have root : nullSections.Alone 0 .spec 0 := Graph.alone_root (by decide)
  have tags : nullSections.Alone 0 .tags 2 := .value (p := (1, 2)) root (by decide) (by decide)
  have actions : nullSections.Alone 0 .handlers 4 := .value (p := (3, 4)) root (by decide) (by decide)
  have go : nullSections.Alone 0 .handler 6 := .value (p := (5, 6)) actions (by decide) (by decide)
  have input : nullSections.Alone 0 .parameters 8 := .value (p := (7, 8)) go (by decide) (by decide)
  refine ⟨rfl, fun id => ?_⟩
  match id with
  | 2 => exact .inr ⟨.list, tags.emptiedAt rfl rfl ⟨_, rfl⟩ rfl rfl⟩
  | 8 => exact .inr ⟨.map, input.emptiedAt rfl rfl ⟨_, rfl⟩ rfl rfl⟩
  | 0 | 1 | 3 | 4 | 5 | 6 | 7 | _ + 9 => exact .inl ⟨rfl, rfl⟩

theorem parse_of_empties_action :
    Yaml.Empties "{tags: ~, actions: {go: {input: ~}}}".toList
        "{tags: [], actions: {go: {input: {}}}}".toList ∧
      SameOutcome (parse (.text "{tags: ~, actions: {go: {input: ~}}}") "" "")
        (parse (.text "{tags: [], actions: {go: {input: {}}}}") "" "") := by
  have empties : Yaml.Empties "{tags: ~, actions: {go: {input: ~}}}".toList
      "{tags: [], actions: {go: {input: {}}}}".toList := by
    refine ⟨_, _, ofText_nullSections, ofText_emptySections, rfl, fun root rooted => ?_⟩
    cases rooted
    exact emptied_nullSections
  exact ⟨empties, parse_of_empties rfl rfl empties "" ""⟩

end Spec

end PluginCompiler
