import PluginCompiler.Proofs.Emit.Records
import PluginCompiler.Proofs.Go.Switch
import PluginCompiler.Proofs.Plan.Plain

/-! The command and the server of a plugin read back: what they import, the cases of the two switches
with the types that they take from the packages of handlers, and the routes of the actions. -/

set_option autoImplicit false

namespace PluginCompiler

open Naming (IsWord)

namespace HandlerKind

def subject : HandlerKind → String
  | action => "m.Body.Action"
  | trigger => "m.Body.Trigger"

end HandlerKind

namespace Emit

variable {start cs : List Char} {ls more : List String} {l head : String} {kind : HandlerKind}
  {spec : Spec} {h : Handler}

abbrev Lacks (start : List Char) (l : String) : Prop := ¬ start <+: l.toList

theorem not_mem_of_lacks (lacks : Each (Lacks start) ls) (own : start <+: head.toList) : head ∉ ls :=
  fun member => lacks head member own

theorem lacks_longer {more : List Char} (lacks : Each (Lacks start) ls) (longer : start <+: more) :
    Each (Lacks more) ls :=
  fun l member inside => lacks l member (longer.trans inside)

theorem lacks_indent : Each (Lacks ('\t' :: start)) (indent ls) ↔ Each (Lacks start) ls := by
  simp [Each, Lacks, indent]

theorem lacks_indent_of_ne {c : Char} (other : c ≠ '\t') : Each (Lacks (c :: start)) (indent ls) := by
  simp [Each, Lacks, indent, other]

theorem not_starts_literal (differ : start.isPrefixOf cs = false) :
    ¬ start <+: (String.ofList cs).toList := by
  rw [String.toList_ofList, ← List.isPrefixOf_iff_prefix, differ]
  exact Bool.false_ne_true

theorem not_starts_append (s : String) (differ : start.isPrefixOf cs = false)
    (long : start.length ≤ cs.length) : ¬ start <+: (String.ofList cs ++ s).toList := by
  intro inside
  rw [String.toList_append, String.toList_ofList] at inside
  have shorter := List.prefix_of_prefix_length_le inside (List.prefix_append cs s.toList) long
  rw [← List.isPrefixOf_iff_prefix, differ] at shorter
  exact Bool.false_ne_true shorter

theorem lacks_braces {c : Char} (other : c ∉ ['\t', '\x7d']) :
    Each (Lacks (c :: start)) (braces head ls) ↔ ¬ c :: start <+: (head ++ " \x7b").toList := by
  rw [List.mem_cons, List.mem_singleton, not_or] at other
  have closing : "\x7d".toList = ['\x7d'] := rfl
  simp [Go.braces_eq, Lacks, lacks_indent_of_ne other.1, closing, other.2]

theorem lacks_braces_indented :
    Each (Lacks ('\t' :: start)) (braces head ls) ↔
      ¬ '\t' :: start <+: (head ++ " \x7b").toList ∧ Each (Lacks start) ls := by
  have closing : "\x7d".toList = ['\x7d'] := rfl
  simp [Go.braces_eq, Lacks, lacks_indent, closing]

/-! ## The switches of the command -/

def caseLines : HandlerKind → Handler → List String
  | .action => actionCase
  | .trigger => triggerCase

theorem caseLines_eq (kind : HandlerKind) (h : Handler) :
    ∃ body, caseLines kind h = ("case " ++ Go.quote h.rawName ++ ":") :: indent body := by
  cases kind <;> exact ⟨_, rfl⟩

def switchHead (kind : HandlerKind) : String := "\tswitch " ++ kind.subject ++ " \x7b"

theorem indent_switch (kind : HandlerKind) (cases_ : List String) :
    indent (switch kind.subject cases_) = switchHead kind :: (indent cases_ ++ ["\t\x7d"]) := by
  have head : "\t" ++ ("switch " ++ kind.subject ++ " \x7b") = switchHead kind := by
    rw [switchHead]
    apply String.toList_inj.mp
    simp
  simp [switch, indent, head]

theorem bracesOf_switches (head : String) (first last cs ds : List String) :
    bracesOf head [first, switch HandlerKind.action.subject cs, switch HandlerKind.trigger.subject ds,
      last] = [head ++ " \x7b"] ++ indent first ++ [""] ++
      (switchHead .action :: (indent cs ++ "\t\x7d" :: "" :: switchHead .trigger ::
        (indent ds ++ "\t\x7d" :: "" :: (indent last ++ ["\x7d"])))) := by
  rw [bracesOf, paragraphs_cons_cons, paragraphs_cons_cons, paragraphs_cons_cons, paragraphs_singleton,
    indent_switch, indent_switch]
  simp only [List.append_assoc, List.cons_append, List.nil_append]

theorem dispatchFunction_eq (spec : Spec) :
    ∃ opening closing, dispatchFunction spec = opening ++
      (switchHead .action :: (indent (spec.actions.values.flatMap (caseLines .action)) ++
        "\t\x7d" :: "" :: switchHead .trigger ::
          (indent (spec.triggers.values.flatMap (caseLines .trigger)) ++ "\t\x7d" :: closing))) ∧
      Each (Lacks "\tsw".toList) opening := by
  refine ⟨_, _, bracesOf_switches _ _ _ _ _, ?_⟩
  have tab : "\tsw".toList = ['\t', 's', 'w'] := rfl
  simp only [tab, each_append, each_cons, lacks_indent, each_nil, lacks_braces (by decide : 's' ∉ _),
    and_true]
  and_intros
  all_goals
    first
    | with_reducible exact not_starts_literal (by decide)
    | with_reducible exact not_starts_append _ (by decide) (by decide)

theorem lacks_programImports (spec : Spec) : Each (Lacks ['s', 'w']) (programImports spec) := by
  have entry (path : String) : ¬ ['s', 'w'] <+: (quoted path).toList := by
    simp [quoted]
  rw [programImports]
  split <;> split <;> simp [Lacks, entry]

theorem lacks_entryFunction (spec : Spec) : Each (Lacks ['\t', 's', 'w']) (entryFunction spec) := by
  simp only [entryFunction, bracesOf, paragraphs_cons_cons, paragraphs_singleton, each_append,
    each_cons, each_nil, lacks_indent, lacks_braces (by decide : 's' ∉ _), String.append_assoc,
    and_true]
  and_intros
  all_goals
    first
    | with_reducible exact not_starts_literal (by decide)
    | with_reducible exact not_starts_append _ (by decide) (by decide)

theorem lacks_messageTypes : Each (Lacks ['\t', 's', 'w']) messageTypes := by
  simp only [messageTypes, structType, each_append, each_cons, each_nil, lacks_braces_indented,
    String.append_assoc, and_true]
  and_intros
  all_goals
    first
    | with_reducible exact not_starts_literal (by decide)
    | with_reducible exact not_starts_append _ (by decide) (by decide)

theorem lacks_importGroup (spec : Spec) : Each (Lacks ['\t', 's', 'w']) (parensOf "import"
    [["encoding/json", "flag", "fmt", "log", "os"].map quoted, programImports spec]) := by
  have entry (path : String) : ¬ ['s', 'w'] <+: (quoted path).toList := by
    simp [quoted]
  simp only [parensOf, paragraphs_cons_cons, paragraphs_singleton, each_append, each_cons, each_nil,
    lacks_indent, List.map_cons, List.map_nil, Lacks, entry, lacks_programImports, not_false_eq_true, true_and,
    and_true]
  and_intros
  all_goals
    first
    | with_reducible exact not_starts_literal (by decide)
    | with_reducible exact not_starts_append _ (by decide) (by decide)

theorem programLines_eq (spec : Spec) :
    ∃ before after, programLines spec = before ++
      (switchHead .action :: (indent (spec.actions.values.flatMap (caseLines .action)) ++
        "\t\x7d" :: "" :: switchHead .trigger ::
          (indent (spec.triggers.values.flatMap (caseLines .trigger)) ++ "\t\x7d" :: after))) ∧
      Each (Lacks "\tsw".toList) before := by
  obtain ⟨opening, closing, lines, lacks⟩ := dispatchFunction_eq spec
  -- Everything before the function that switches is passed over, whatever the names in it are.
  refine ⟨[generatedFrom (spec.name ++ " plugin spec"), "", "package main", ""] ++ parensOf "import"
    [["encoding/json", "flag", "fmt", "log", "os"].map quoted, programImports spec] ++ [""] ++
    messageTypes ++ [""] ++ entryFunction spec ++ [""] ++ opening, closing ++ "" :: decodeFunction, ?_, ?_⟩
  · rw [programLines, lines]
    simp only [List.append_assoc, List.cons_append, List.nil_append]
  · have tab : "\tsw".toList = ['\t', 's', 'w'] := rfl
    have header : ¬ ['\t', 's', 'w'] <+: (generatedFrom (spec.name ++ " plugin spec")).toList := by
      unfold generatedFrom
      simp
    rw [tab] at lacks ⊢
    simp only [each_append, each_cons, each_nil, lacks, header, lacks_importGroup, lacks_messageTypes,
      lacks_entryFunction, Lacks, not_false_eq_true, true_and, and_true]
    and_intros
    all_goals with_reducible exact not_starts_literal (by decide)

theorem lacks_caseLines {c : Char} (indented : c ≠ '\t') (word : c ≠ 'c') (hs : List Handler) :
    Each (Lacks (c :: start)) (hs.flatMap (caseLines kind)) := by
  refine each_flatMap.mpr fun h _ => ?_
  obtain ⟨body, written⟩ := caseLines_eq kind h
  rw [written, each_cons]
  exact ⟨by simp [Lacks, word], lacks_indent_of_ne indented⟩

theorem not_mem_caseLines (hs : List Handler) : "\t\x7d" ∉ indent (hs.flatMap (caseLines kind)) := by
  have closing : Each (Lacks ['\x7d']) (hs.flatMap (caseLines kind)) :=
    lacks_caseLines (by decide) (by decide) hs
  exact not_mem_of_lacks (lacks_indent.mpr closing) (List.prefix_refl _)

theorem cases_programLines (kind : HandlerKind) :
    Go.cases kind.subject (programLines spec) =
      (spec.handlers kind).values.map fun h => ⟨Go.quote h.rawName, indent (caseLines kind h).tail⟩ := by
  obtain ⟨before, after, lines, lacks⟩ := programLines_eq spec
  have own (kind : HandlerKind) {start : List Char} (same : start.isPrefixOf (switchHead kind).toList = true) :
      start <+: (switchHead kind).toList := List.isPrefixOf_iff_prefix.mp same
  have head : ("\tswitch " ++ kind.subject ++ " \x7b") = switchHead kind := rfl
  rw [Go.cases, head, lines, ← Go.casesOf_indent _ (caseLines_eq kind)]
  congr 1
  cases kind with
  | action =>
    have absent : switchHead .action ∉ before := not_mem_of_lacks lacks (own .action (by decide))
    rw [Go.enclosed_append absent (not_mem_caseLines _)]
    rfl
  | trigger =>
    -- The switch on actions comes first, and its head differs from the one that is looked for.
    have tab : "\tswitch m.Body.T".toList = '\t' :: 's' :: "witch m.Body.T".toList := rfl
    have earlier : Each (Lacks "\tswitch m.Body.T".toList) (before ++ (switchHead .action ::
        (indent (spec.actions.values.flatMap (caseLines .action)) ++ ["\t\x7d", ""]))) := by
      rw [each_append]
      refine ⟨lacks_longer lacks (List.isPrefixOf_iff_prefix.mp (by decide)), ?_⟩
      rw [tab, each_cons, each_append, lacks_indent, each_cons, each_cons, ← tab]
      refine ⟨?_, lacks_caseLines (by decide) (by decide) _, ?_, ?_, each_nil⟩
      · rw [Lacks, ← List.isPrefixOf_iff_prefix]
        decide
      all_goals with_reducible exact not_starts_literal (by decide)
    have absent := not_mem_of_lacks earlier (own .trigger (by decide))
    have split : before ++ (switchHead .action :: (indent (spec.actions.values.flatMap (caseLines .action)) ++
        "\t\x7d" :: "" :: switchHead .trigger ::
          (indent (spec.triggers.values.flatMap (caseLines .trigger)) ++ "\t\x7d" :: after))) =
        (before ++ (switchHead .action ::
          (indent (spec.actions.values.flatMap (caseLines .action)) ++ ["\t\x7d", ""]))) ++
        (switchHead .trigger ::
          (indent (spec.triggers.values.flatMap (caseLines .trigger)) ++ "\t\x7d" :: after)) := by
      simp only [List.append_assoc, List.cons_append, List.nil_append]
    rw [split, Go.enclosed_append absent (not_mem_caseLines _)]
    rfl

def takenNames (kind : HandlerKind) (name : String) : List String :=
  match kind with
  | .action => [name ++ "Input", name ++ "Action"]
  | .trigger => [name ++ "Input", name ++ "Event", name ++ "Trigger"]

theorem takenNames_subset (kind : HandlerKind) (name : String) :
    takenNames kind name ⊆ typeNames kind name := by
  cases kind <;> simp [takenNames, typeNames, HandlerKind.outputSuffix, HandlerKind.typeSuffix]

variable {package : String}

theorem flatMap_selected_indent :
    (indent ls).flatMap (Go.selected package) = ls.flatMap (Go.selected package) := by
  simp [indent, List.flatMap_map, Go.selected_indent]

theorem flatMap_selected_braces (none_ : Go.selected package (head ++ " \x7b") = []) :
    (braces head ls).flatMap (Go.selected package) = ls.flatMap (Go.selected package) := by
  have closing : Go.selected package "\x7d" = [] := Go.selected_literal rfl
  rw [Go.braces_eq, List.flatMap_cons, none_, List.nil_append, List.flatMap_append,
    flatMap_selected_indent, List.flatMap_singleton, closing, List.append_nil]

theorem selected_decodeStep (kind : HandlerKind) :
    decodeStep.flatMap (Go.selected kind.package) = [] := by
  rw [decodeStep, flatMap_selected_braces (by
    cases kind <;> exact Go.selected_append_literal (by decide)), List.flatMap_singleton]
  cases kind <;> exact Go.selected_literal (by decide)

theorem selected_actionCase (word : IsWord h.name) :
    (indent (actionCase h).tail).flatMap (Go.selected "actions") = takenNames .action h.name := by
  have decode : decodeStep.flatMap (Go.selected "actions") = [] := selected_decodeStep .action
  have input : Go.selected "actions" ("input := &actions." ++ h.name ++ "Input\x7b\x7d") =
      [h.name ++ "Input"] := by
    with_reducible apply Go.selected_append word <;> decide
  have type : Go.selected "actions" ("a := &actions." ++ h.name ++ "Action\x7bConn: conn\x7d") =
      [h.name ++ "Action"] := by
    with_reducible apply Go.selected_append word <;> decide
  have run : Go.selected "actions" "output, err := a.Run(input)" = [] :=
    Go.selected_literal (by decide)
  have answer : Go.selected "actions" "return json.NewEncoder(os.Stdout).Encode(output)" = [] :=
    Go.selected_literal (by decide)
  have check : returnOnError.flatMap (Go.selected "actions") = [] := by
    rw [returnOnError, flatMap_selected_braces (Go.selected_append_literal (by decide)),
      List.flatMap_singleton]
    exact Go.selected_literal (by decide)
  rw [actionCase, List.cons_append, List.nil_append, List.tail_cons, flatMap_selected_indent,
    flatMap_selected_indent]
  simp only [List.flatMap_append, List.flatMap_cons, List.flatMap_nil, input, decode, type, run, check,
    answer, List.append_nil, List.nil_append, takenNames, List.cons_append]

theorem selected_triggerCase (word : IsWord h.name) :
    (indent (triggerCase h).tail).flatMap (Go.selected "triggers") = takenNames .trigger h.name := by
  have decode : decodeStep.flatMap (Go.selected "triggers") = [] := selected_decodeStep .trigger
  have input : Go.selected "triggers" ("input := &triggers." ++ h.name ++ "Input\x7b\x7d") =
      [h.name ++ "Input"] := by
    with_reducible apply Go.selected_append word <;> decide
  have event : Go.selected "triggers" ("events := make(chan *triggers." ++ h.name ++ "Event)") =
      [h.name ++ "Event"] := by
    with_reducible apply Go.selected_append word <;> decide
  have type : Go.selected "triggers"
      ("t := &triggers." ++ h.name ++ "Trigger\x7bConn: conn, Input: input, Events: events\x7d") =
        [h.name ++ "Trigger"] := by
    with_reducible apply Go.selected_append word <;> decide
  have silent : Go.selected "triggers" "done := make(chan error, 1)" = [] ∧
      Go.selected "triggers" "go func() \x7b" = [] ∧ Go.selected "triggers" "done <- t.Run()" = [] ∧
      Go.selected "triggers" "close(events)" = [] ∧ Go.selected "triggers" "\x7d()" = [] ∧
      Go.selected "triggers" "return <-done" = [] := by
    and_intros
    all_goals with_reducible exact Go.selected_literal (by decide)
  have loop : (braces "for event := range events"
      (braces "if err := json.NewEncoder(os.Stdout).Encode(event); err != nil" ["return err"])).flatMap
        (Go.selected "triggers") = [] := by
    rw [flatMap_selected_braces (Go.selected_append_literal (by decide)),
      flatMap_selected_braces (Go.selected_append_literal (by decide)), List.flatMap_singleton]
    exact Go.selected_literal (by decide)
  rw [triggerCase, List.cons_append, List.nil_append, List.tail_cons, flatMap_selected_indent,
    flatMap_selected_indent]
  simp only [List.flatMap_append, List.flatMap_cons, List.flatMap_nil, input, decode, type, event, loop,
    silent, flatMap_selected_indent, List.append_nil, List.nil_append, takenNames, List.cons_append]

theorem selected_caseLines (kind : HandlerKind) (word : IsWord h.name) :
    (indent (caseLines kind h).tail).flatMap (Go.selected kind.package) = takenNames kind h.name :=
  match kind with
  | .action => selected_actionCase word
  | .trigger => selected_triggerCase word

/-! ## Imports -/

theorem imports_parensOf (absent : "import (" ∉ ls) (first second more : List String) :
    Go.imports (ls ++ (parensOf "import" [first, second] ++ more)) = first ++ second := by
  have within : ")" ∉ indent first ++ "" :: indent second := by
    rw [List.mem_append, List.mem_cons, not_or, not_or]
    exact ⟨Go.close_not_mem_indent _ (by decide), by decide, Go.close_not_mem_indent _ (by decide)⟩
  have split : ls ++ (parensOf "import" [first, second] ++ more) =
      ls ++ ("import (" :: ((indent first ++ "" :: indent second) ++ ")" :: more)) := by
    rw [parensOf, paragraphs_cons_cons, paragraphs_singleton, List.append_assoc, List.append_assoc]
    rfl
  have empty : Go.imported? "" = none := rfl
  rw [Go.imports, split, Go.enclosed_append absent within, List.filterMap_append, Go.imported_indent,
    List.filterMap_cons, empty, Go.imported_indent]

theorem imports_programLines (spec : Spec) : Go.imports (programLines spec) =
    ["encoding/json", "flag", "fmt", "log", "os"].map quoted ++ programImports spec := by
  have absent : "import (" ∉ [generatedFrom (spec.name ++ " plugin spec"), "", "package main", ""] := by
    refine Each.not_mem (c := 'i') ?_ rfl
    rw [each_cons, lead_generatedFrom]
    exact ⟨by decide, by simp [Go.lead]⟩
  have whole := imports_parensOf absent (["encoding/json", "flag", "fmt", "log", "os"].map quoted)
    (programImports spec) ([""] ++ (messageTypes ++ ([""] ++ (entryFunction spec ++ ([""] ++
      (dispatchFunction spec ++ ([""] ++ decodeFunction)))))))
  rw [← whole, programLines]
  simp only [List.append_assoc]

theorem mem_imports_programLines (kind : HandlerKind) :
    quoted (spec.packageRoot ++ "/" ++ kind.package) ∈ Go.imports (programLines spec) ↔
      (spec.handlers kind).values ≠ [] := by
  have standard : quoted (spec.packageRoot ++ "/" ++ kind.package) ∉
      ["encoding/json", "flag", "fmt", "log", "os"].map quoted := by
    intro member
    obtain ⟨path, inside, same⟩ := List.mem_map.mp member
    have ends : ("/" ++ kind.package).toList <:+ path.toList := by
      rw [quoted_inj.mp same, String.append_assoc, String.toList_append (s := spec.packageRoot)]
      exact List.suffix_append _ _
    have none_ : ∀ path ∈ ["encoding/json", "flag", "fmt", "log", "os"],
        ¬ ("/" ++ kind.package).toList <:+ path.toList := by
      cases kind <;> decide
    exact none_ path inside ends
  -- The import of the server has a name before its path.
  have server : quoted (spec.packageRoot ++ "/" ++ kind.package) ≠
      "server " ++ quoted (spec.packageRoot ++ "/server/http") := by
    intro same
    have chars := congrArg String.toList same
    simp [quoted] at chars
  have filled {hs : Section Handler} : hs.isEmpty = false ↔ hs.values ≠ [] := by
    simp [Section.isEmpty, Section.values]
  rw [imports_programLines, List.mem_append, or_iff_right standard, programImports]
  cases kind with
  | action =>
    have path : spec.packageRoot ++ "/" ++ HandlerKind.action.package = spec.packageRoot ++ "/actions" := by
      rw [String.append_assoc]
      rfl
    rw [path] at server ⊢
    simp [server, filled, Spec.handlers]
  | trigger =>
    have path : spec.packageRoot ++ "/" ++ HandlerKind.trigger.package = spec.packageRoot ++ "/triggers" := by
      rw [String.append_assoc]
      rfl
    rw [path] at server ⊢
    simp [server, filled, Spec.handlers]

/-! ## Routes -/

theorem toList_route (h : Handler) : ("\t" ++ route h).toList = "\tmux.HandleFunc(".toList ++
    ((quoted ("/actions/" ++ h.rawName)).toList ++
      (", ".toList ++ (("Handle" ++ h.name).toList ++ [')']))) := by
  have front : "\t".toList ++ "mux.HandleFunc(\"/actions/".toList =
      "\tmux.HandleFunc(".toList ++ ("\"".toList ++ "/actions/".toList) := by simp
  have middle : "\", Handle".toList = "\"".toList ++ (", ".toList ++ "Handle".toList) := by simp
  have close : ")".toList = [')'] := rfl
  unfold route quoted
  repeat rw [String.toList_append]
  rw [middle, close]
  repeat rw [← List.append_assoc]
  rw [front]
  repeat rw [← List.append_assoc]

theorem registrations_serverLines (spec : Spec) :
    Go.registrations (serverLines spec) = indent (spec.actions.values.map route) := by
  have head : "func New() *http.Server \x7b" = "func New() *http.Server" ++ " \x7b" :=
    String.toList_inj.mp (by simp)
  have own : ∀ l ∈ indent (spec.actions.values.map route),
      "\tmux.HandleFunc(".toList.isPrefixOf l.toList = true := by
    intro l member
    obtain ⟨l, inside, rfl⟩ := List.mem_map.mp member
    obtain ⟨h, -, rfl⟩ := List.mem_map.mp inside
    rw [toList_route, List.isPrefixOf_iff_prefix]
    exact List.prefix_append _ _
  have other (ls : List String) (lacks : Each (Lacks "mux.H".toList) ls) :
      (indent ls).filter (fun l => "\tmux.HandleFunc(".toList.isPrefixOf l.toList) = [] := by
    rw [List.filter_eq_nil_iff]
    intro l member inside
    rw [List.isPrefixOf_iff_prefix] at inside
    have shorter : '\t' :: "mux.H".toList <+: "\tmux.HandleFunc(".toList :=
      List.isPrefixOf_iff_prefix.mp (by decide)
    exact lacks_indent.mpr lacks l member (shorter.trans inside)
  -- The body of the function, of which the lines before and after the routes register nothing.
  have encloses : Go.Encloses "func New() *http.Server" _ (serverLines spec) :=
    Go.encloses_braces ((clear_serverFront spec).not_mem (by simp [Go.lead])) _
  have before : Each (Lacks "mux.H".toList) ["mux := http.NewServeMux()"] := by
    rw [each_cons]
    exact ⟨not_starts_literal (by decide), each_nil⟩
  have after (ls : List String) :
      Each (Lacks "mux.H".toList) (["return &http.Server\x7b"] ++ indent ls ++ ["\x7d"]) := by
    have start : "mux.H".toList = 'm' :: "ux.H".toList := rfl
    rw [each_append, each_append, each_cons, each_cons, start]
    refine ⟨⟨⟨?_, each_nil⟩, lacks_indent_of_ne (by decide)⟩, ?_, each_nil⟩
    all_goals with_reducible exact not_starts_literal (by decide)
  have split (before middle after : List String) :
      indent (before ++ middle ++ after) = indent before ++ (indent middle ++ indent after) := by
    simp [indent]
  rw [Go.registrations, head, encloses.enclosed_eq, List.append_assoc, List.append_assoc, split,
    List.filter_append, List.filter_append, other _ before, List.filter_eq_self.mpr own,
    ← List.append_assoc ["return &http.Server\x7b"], other _ (after _), List.append_nil, List.nil_append]

theorem routes_serverLines_iff (words : ∀ h ∈ spec.actions.values, IsWord h.name) :
    Go.routes (serverLines spec) =
        spec.actions.values.map (fun h => ("/actions/" ++ h.rawName, "Handle" ++ h.name)) ↔
      ∀ h ∈ spec.actions.values, Go.IsVerbatim h.rawName := by
  have made (h : Handler) (word : IsWord h.name) :
      Go.route? ("\t" ++ route h) = some ("/actions/" ++ h.rawName, "Handle" ++ h.name) ↔
        Go.IsVerbatim h.rawName := by
    have path : Go.IsVerbatim ("/actions/" ++ h.rawName) ↔ Go.IsVerbatim h.rawName := by
      simp [Go.IsVerbatim]
    have function : IsWord ("Handle" ++ h.name) := Naming.IsWord.append (by decide) word
    rw [Go.route?_eq_some_iff function (toList_route h), path]
  rw [Go.routes, registrations_serverLines, indent, List.map_map, List.filterMap_map,
    List.filterMap_eq_map_iff_forall_eq_some]
  refine forall₂_congr fun h member => ?_
  rw [Function.comp_apply, Function.comp_apply, made h (words h member)]

end Emit

end PluginCompiler
