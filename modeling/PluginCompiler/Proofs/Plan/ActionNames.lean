import PluginCompiler.Proofs.Go.Evaluation
import PluginCompiler.Proofs.Plan.References

/-! The names of actions in generated code. The file of an action and the command quote the name, so their
literals stand for it whatever it is. The server puts it between quotes as it is, which gives the path of
the action exactly if nothing in the name has another meaning there. The command and the server answer for
the same actions exactly if this holds of every name. -/

set_option autoImplicit false

namespace PluginCompiler

open Naming (IsWord isWordChar)
open Text.Utf8 (encode)

namespace Go

variable {line pattern function subject : String} {bytes : List UInt8} {block ls : List String} {c : Case}

/-- The bytes of the pattern of a registered route. The function that answers stands after it. -/
def pattern? (line : String) : Option (List UInt8) :=
  match "\tmux.HandleFunc(".toList.isPrefixOf? line.toList with
  | none => none
  | some cs =>
    match evaluate? cs with
    | none => none
    | some (bytes, rest) =>
      match ", ".toList.isPrefixOf? rest with
      | none => none
      | some end_ =>
        if end_.getLast? = some ')' ∧ end_.dropLast.all isWordChar = true then some bytes else none

def patterns (ls : List String) : List (List UInt8) := (registrations ls).filterMap pattern?

def Case.value? (c : Case) : Option (List UInt8) :=
  match evaluate? c.label.toList with
  | some (bytes, []) => some bytes
  | _ => none

def accepted (subject : String) (ls : List String) : List (List UInt8) :=
  (cases subject ls).filterMap Case.value?

theorem value?_of_evaluates (evaluates : Evaluates c.label bytes) : c.value? = some bytes := by
  rw [Case.value?, evaluates.evaluated]

/-- What is read is what is wanted under a condition, and shorter without it. -/
structure Approximates (read : Option (List UInt8)) (want : List UInt8) (own : Prop) : Prop where
  itself : own → read = some want
  bounded : ∀ bytes, read = some bytes →
    bytes.length ≤ want.length ∧ (bytes.length = want.length → own)

theorem Approximates.eq_some_iff {read : Option (List UInt8)} {want : List UInt8} {own : Prop}
    (approximates : Approximates read want own) : read = some want ↔ own :=
  ⟨fun same => (approximates.bounded want same).2 rfl, approximates.itself⟩

theorem approximates_pattern? (word : IsWord function)
    (chars : line.toList = "\tmux.HandleFunc(".toList ++
      ((Emit.quoted pattern).toList ++ (", ".toList ++ (function.toList ++ [')'])))) :
    Approximates (pattern? line) (encode pattern) (IsVerbatim pattern) := by
  have unquoted : '"' ∉ ", ".toList ++ (function.toList ++ [')']) := by
    have own : '"' ∉ function.toList := word.not_mem (by decide)
    simp [own]
  obtain ⟨itself, bounded⟩ := evaluate?_quoted (s := pattern) unquoted
  rw [pattern?, chars, Text.isPrefixOf?_append]
  dsimp only
  constructor
  · intro verbatim
    have all : function.toList.all isWordChar = true := List.all_eq_true.mpr word
    rw [itself verbatim]
    dsimp only
    rw [Text.isPrefixOf?_append]
    simp [all]
  · intro bytes read
    split at read
    · cases read
    · next other rest evaluated =>
      split at read
      · cases read
      · split at read
        · cases read
          exact bounded _ _ evaluated
        · cases read

theorem eq_of_caseLabel? {label : String} (read : caseLabel? line = some label) :
    line = "\tcase " ++ label ++ ":" := by
  rw [caseLabel?] at read
  split at read
  · next cs dropped =>
    split at read
    · next ended =>
      cases read
      obtain ⟨front, rfl⟩ := List.getLast?_eq_some_iff.mp ended
      apply String.toList_inj.mp
      rw [Text.isPrefixOf?_eq_some.mp dropped]
      simp
    · cases read
  · cases read

theorem label_mem_of_casesOf (member : c ∈ casesOf ls) : "\tcase " ++ c.label ++ ":" ∈ ls := by
  induction ls with
  | nil => cases member
  | cons l ls ih =>
    rw [casesOf] at member
    split at member
    · next label read =>
      rcases List.mem_cons.mp member with rfl | later
      · rw [← eq_of_caseLabel? read]
        exact List.mem_cons_self
      · exact List.mem_cons_of_mem l (ih later)
    · exact List.mem_cons_of_mem l (ih member)

theorem label_mem_of_cases (member : c ∈ cases subject ls) : "\tcase " ++ c.label ++ ":" ∈ ls := by
  have inside := label_mem_of_casesOf member
  rw [enclosed] at inside
  exact List.dropWhile_subset _ (List.mem_of_mem_drop (List.takeWhile_subset _ inside))

theorem infix_lines (single : ∀ l ∈ block, IsLine l) (inside : block <:+: ls) :
    block <:+: lines (Emit.unlines ls) := by
  obtain ⟨before, after, rfl⟩ := inside
  have own : (block.flatMap fun l => (l.toList.splitOn '\n').map String.ofList) = block := by
    rw [← lines_unlines_eq, lines_unlines single]
  rw [lines_unlines_eq, List.flatMap_append, List.flatMap_append, own]
  exact List.infix_append _ _ _

end Go

namespace Emit

theorem encloses_name (kind : HandlerKind) (h : Handler) :
    Go.Encloses (method kind h "Name() string") ["return " ++ Go.quote h.rawName]
      (handlerLines kind h) := by
  have own : Go.lead (method kind h "Name() string" ++ " \x7b") = some 'f' := by simp [method, Go.lead]
  unfold handlerLines
  refine .append (.append (Go.encloses_braces (Each.not_mem (c := 'f') ?_ own) _))
  have note : Each (Go.lead · ≠ some 'f') ["", kind.outputNote h] := by
    rw [each_cons, each_cons, lead_outputNote]
    exact ⟨by decide, by decide, each_nil⟩
  have types (name : String) (body : List String) : Each (Go.lead · ≠ some 'f') (structType name body) :=
    clear_structType (by decide) name body
  simp only [each_append, each_cons, each_nil, note, types, clear_constantBlock (by decide : 'f' ∉ _),
    clear_importBlock (by decide : 'f' ∉ _), lead_generatedFrom, lead_package, and_true]
  simp [Go.lead]

theorem isLine_caseLabel (s : String) : Go.IsLine ("\tcase " ++ Go.quote s ++ ":") := by
  rw [Go.isLine_append, Go.isLine_append]
  exact ⟨⟨Go.isLine_literal rfl, isLine_quote s⟩, Go.isLine_literal rfl⟩

theorem approximates_route {h : Handler} (word : IsWord h.name) :
    Go.Approximates (Go.pattern? ("\t" ++ route h)) (encode ("/actions/" ++ h.rawName))
      (Go.IsVerbatim h.rawName) := by
  have path : Go.IsVerbatim ("/actions/" ++ h.rawName) ↔ Go.IsVerbatim h.rawName := by
    simp [Go.IsVerbatim]
  have function : IsWord ("Handle" ++ h.name) := Naming.IsWord.append (by decide) word
  rw [← path]
  exact Go.approximates_pattern? function (toList_route h)

end Emit

/-- If everything wanted is read somewhere, then everything is read where it is wanted. -/
theorem all_of_served {α : Type} {as : List α} {read : α → Option (List UInt8)} {want : α → List UInt8}
    {Own : α → Prop} (apart : ∀ a b, want a = want b → Own a → Own b)
    (approximates : ∀ a ∈ as, Go.Approximates (read a) (want a) (Own a))
    (served : ∀ a ∈ as, want a ∈ as.filterMap read) : ∀ a ∈ as, Own a := by
  classical
  by_contra other
  obtain ⟨a, member, foreign⟩ : ∃ a ∈ as, ¬ Own a := by simpa using other
  -- The longest that is not read where it is wanted is read at one that is longer and not read either.
  obtain ⟨longest, inside, maximal⟩ :=
    (as.toFinset.filter fun a => ¬ Own a).exists_max_image (fun a => (want a).length)
      ⟨a, by simp [member, foreign]⟩
  obtain ⟨listed, foreign⟩ : longest ∈ as ∧ ¬ Own longest := by simpa using inside
  obtain ⟨place, present, taken⟩ := List.mem_filterMap.mp (served longest listed)
  have strange : ¬ Own place := by
    intro own
    have same := (approximates place present).itself own
    rw [taken, Option.some.injEq] at same
    exact foreign (apart place longest same.symm own)
  obtain ⟨shorter, whole⟩ := (approximates place present).bounded _ taken
  have least := maximal place (by simp [present, strange])
  exact strange (whole (by omega))

namespace Plan

/-- The file of an action has a method that returns the name of the action. It is read as it is written,
whatever the other texts of the file are. -/
def NamedBy (os : List Output) (key : String) (h : Handler) : Prop :=
  ∃ ls g, Provides os (declarationPath .action key) "actions" ls ∧
    Go.returned? (Emit.method .action h "Name() string") ls = some g ∧ Go.Evaluates g (encode key) ∧
    Emit.braces (Emit.method .action h "Name() string") ["return " ++ g] <:+: Go.lines (Emit.unlines ls)

structure LabelledBy (program : List String) (key : String) (c : Go.Case) : Prop where
  evaluates : Go.Evaluates c.label (encode key)
  written : "\tcase " ++ c.label ++ ":" ∈ Go.lines (Emit.unlines program)

structure Accepts (spec : Spec) (program server : List String) : Prop where
  labels : List.Forall₂ (LabelledBy program) spec.actions.names (Go.cases "m.Body.Action" program)
  routes : List.Forall₂
    (fun key line => Go.pattern? line = some (encode ("/actions/" ++ key)) ↔ Go.IsVerbatim key)
    spec.actions.names (Go.registrations server)
  agree : (∀ name, name ∈ Go.accepted "m.Body.Action" program ↔
      encode "/actions/" ++ name ∈ Go.patterns server) ↔ ∀ key ∈ spec.actions.names, Go.IsVerbatim key

/-- The literals that carry the names of the actions of a plugin. -/
structure NamesActions (spec : Spec) (os : List Output) : Prop where
  methods : ∀ e ∈ spec.actions.entries, NamedBy os e.1 e.2
  dispatch : ∃ program server, Provides os (inDirectory ["cmd"] "main.go") "main" program ∧
    Provides os (inDirectory ["server", "http"] "server.go") "server" server ∧
    Accepts spec program server

end Plan

namespace Spec

variable {spec enriched : Spec} {source : List UInt8} {key : String} {h : Handler}

theorem namedBy_of_ok (ok : spec.enrich = .ok enriched) (source : List UInt8)
    (entry : (key, h) ∈ enriched.actions.entries) :
    Plan.NamedBy (Plan.outputs enriched source) key h := by
  have listed : (key, h) ∈ (enriched.handlers .action).entries := entry
  obtain ⟨rawName, name⟩ := handler_named_of_ok ok .action _ listed
  dsimp only at rawName name
  have encloses := Emit.encloses_name .action h
  rw [rawName] at encloses
  refine ⟨Emit.handlerLines .action h, Go.quote key, Plan.provides_of_goFile source (.declaration listed) rfl
    (Emit.package?_handlerLines .action h), encloses.returned?_eq, Go.evaluates_quote key, ?_⟩
  have word : Go.IsLine h.name := Go.isLine_of_isWord (name ▸ Naming.isWord_upperCamel key)
  have single : Emit.Each Go.IsLine
      (Emit.braces (Emit.method .action h "Name() string") ["return " ++ Go.quote key]) := by
    simp only [Emit.single_braces, Emit.isLine_method _ word, Emit.each_cons, Emit.each_nil,
      Go.isLine_append, Emit.isLine_quote, and_true]
    constructor <;> exact Go.isLine_literal rfl
  obtain ⟨before, after, lines, _⟩ := encloses
  exact Go.infix_lines single ⟨before, after, by rw [lines, List.append_assoc]⟩

theorem cases_of_ok (ok : spec.enrich = .ok enriched) :
    Go.cases "m.Body.Action" (Emit.programLines enriched) =
      enriched.actions.entries.map fun e => ⟨Go.quote e.1, Emit.indent (Emit.caseLines .action e.2).tail⟩ := by
  have written : Go.cases "m.Body.Action" (Emit.programLines enriched) = _ :=
    Emit.cases_programLines .action
  rw [Section.values, List.map_map] at written
  refine written.trans (List.map_congr_left fun e entry => ?_)
  rw [Function.comp_apply, (handler_named_of_ok ok .action e entry).1]

theorem registrations_of_ok :
    Go.registrations (Emit.serverLines enriched) =
      enriched.actions.entries.map fun e => "\t" ++ Emit.route e.2 := by
  rw [Emit.registrations_serverLines, Emit.indent, Section.values, List.map_map, List.map_map]
  rfl

theorem labels_of_ok (ok : spec.enrich = .ok enriched) :
    List.Forall₂ (Plan.LabelledBy (Emit.programLines enriched)) enriched.actions.names
      (Go.cases "m.Body.Action" (Emit.programLines enriched)) := by
  have inside {c : Go.Case} (member : c ∈ Go.cases "m.Body.Action" (Emit.programLines enriched)) :=
    Go.label_mem_of_cases member
  rw [cases_of_ok ok] at inside
  rw [cases_of_ok ok, Section.names, List.forall₂_map_left_iff, List.forall₂_map_right_iff,
    List.forall₂_same]
  intro e entry
  have member := inside (List.mem_map_of_mem entry)
  exact ⟨Go.evaluates_quote _, (Go.mem_lines_iff member).mpr (Emit.isLine_caseLabel _)⟩

theorem accepted_of_ok (ok : spec.enrich = .ok enriched) :
    Go.accepted "m.Body.Action" (Emit.programLines enriched) = enriched.actions.names.map encode := by
  have label (e : String × Handler) (body : List String) :
      Go.Case.value? ⟨Go.quote e.1, body⟩ = some (encode e.1) :=
    Go.value?_of_evaluates (Go.evaluates_quote e.1)
  rw [Go.accepted, cases_of_ok ok, Section.names, List.filterMap_map, List.map_map,
    ← List.filterMap_eq_map]
  refine List.filterMap_congr fun e _ => ?_
  rw [Function.comp_apply, label e]
  rfl

theorem accepts_of_ok (ok : spec.enrich = .ok enriched) :
    Plan.Accepts enriched (Emit.programLines enriched) (Emit.serverLines enriched) := by
  have approximates (e : String × Handler) (entry : e ∈ enriched.actions.entries) :
      Go.Approximates (Go.pattern? ("\t" ++ Emit.route e.2)) (encode ("/actions/" ++ e.1))
        (Go.IsVerbatim e.1) := by
    obtain ⟨rawName, name⟩ := handler_named_of_ok ok .action e entry
    rw [← rawName]
    exact Emit.approximates_route (name ▸ Naming.isWord_upperCamel e.1)
  have patterns : Go.patterns (Emit.serverLines enriched) =
      enriched.actions.entries.filterMap fun e => Go.pattern? ("\t" ++ Emit.route e.2) := by
    rw [Go.patterns, registrations_of_ok, List.filterMap_map]
    rfl
  refine ⟨labels_of_ok ok, ?_, ?_⟩
  · rw [registrations_of_ok, Section.names, List.forall₂_map_left_iff, List.forall₂_map_right_iff,
      List.forall₂_same]
    exact fun e entry => (approximates e entry).eq_some_iff
  · rw [accepted_of_ok ok, patterns, Section.names, List.map_map, List.forall_mem_map]
    constructor
    · intro agree
      refine all_of_served ?_ approximates fun e entry => ?_
      · intro a b same own
        rwa [← (String.append_right_inj _).mp (Text.Utf8.encode_inj.mp same)]
      · rw [Text.Utf8.encode_append]
        exact (agree (encode e.1)).mp (List.mem_map_of_mem entry)
    · intro verbatim name
      have all : (enriched.actions.entries.filterMap fun e => Go.pattern? ("\t" ++ Emit.route e.2)) =
          (enriched.actions.entries.map fun e => encode "/actions/" ++ encode e.1) := by
        rw [← List.filterMap_eq_map]
        refine List.filterMap_congr fun e entry => ?_
        rw [(approximates e entry).itself (verbatim e entry), Text.Utf8.encode_append]
        rfl
      simp [all]

/-- The literals that carry the name of an action in its file and in the command stand for the name. The
route of an action stands for its path exactly if its name is written as it is, and the command and the
server answer for the same actions exactly if all names are. -/
theorem names_of_actions (ok : spec.enrich = .ok enriched) (source : List UInt8) :
    Plan.NamesActions enriched (Plan.outputs enriched source) ∧
      (enriched.Breakless → ∀ o ∈ Plan.outputs enriched source, o.isGo = true → ∀ ls,
        o.lines? = some ls → o.ReadsAs ls) :=
  ⟨⟨fun _ entry => namedBy_of_ok ok source entry, _, _,
    Plan.provides_of_goFile source .program rfl (Emit.package?_programLines enriched),
    Plan.provides_of_goFile source .server rfl (Emit.package?_serverLines enriched), accepts_of_ok ok⟩,
    fun breakless _ member go _ written => readsAs_of_breakless ok breakless member go written⟩

theorem names_of_actions_messaging :
    messaging.enrich = .ok messagingEnriched ∧
      Plan.NamesActions messagingEnriched (Plan.outputs messagingEnriched []) ∧
      messagingEnriched.Breakless ∧
      ∀ o ∈ Plan.outputs messagingEnriched [], o.isGo = true → ∀ ls, o.lines? = some ls →
        o.ReadsAs ls := by
  obtain ⟨names, reads⟩ := names_of_actions enrich_messaging []
  exact ⟨enrich_messaging, names, plain_messaging.toBreakless, reads plain_messaging.toBreakless⟩

def slashing : Spec where
  actions := ⟨[("a\\tb", {})], by decide⟩

def slashingEnriched : Spec :=
  { slashing with
    actions := ⟨[("a\\tb", { rawName := "a\\tb", name := "ATb" })], by decide⟩
    connectionKey := "\"\""
    http := ⟨10001, 2, 2⟩ }

/-- The server has a route for another name: a backslash is an escape there. -/
theorem not_routed_by_name :
    ¬ ∀ (spec enriched : Spec) (path : Option String) (text : String), spec.enrich = .ok enriched →
      Template.server.render { spec := some enriched } path = .ok text →
        ∀ key ∈ enriched.actions.names,
          encode ("/actions/" ++ key) ∈ Go.patterns (Go.lines text) := by
  intro routed
  have writable : slashingEnriched.http.isWritable := by decide +kernel
  have rendered : Template.server.render { spec := some slashingEnriched } none =
      .ok (Emit.unlines (Emit.serverLines slashingEnriched)) :=
    Template.render_of_body (Template.serverBody_lines rfl writable) none
  have member := routed slashing slashingEnriched none _ rfl rendered "a\\tb" List.mem_cons_self
  have lines : Go.lines (Emit.unlines (Emit.serverLines slashingEnriched)) =
      Emit.serverLines slashingEnriched := Go.lines_unlines (by decide +kernel : Emit.Each Go.IsLine _)
  have pattern : Go.patterns (Emit.serverLines slashingEnriched) =
      [encode "/actions/a\tb"] := by
    rw [Text.Utf8.encode_eq]
    decide +kernel
  rw [lines, pattern, List.mem_singleton, Text.Utf8.encode_inj] at member
  have chars := congrArg String.toList member
  simp at chars

end Spec

end PluginCompiler
