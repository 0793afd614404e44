import PluginCompiler.Proofs.Emit.Comments
import PluginCompiler.Proofs.Plan.Folders
import PluginCompiler.Proofs.Plan.Plain

/-! Comments in the planned files of generated code. The name of the plugin and the names of declarations
are copied into them as they are, while descriptions are joined into one line. -/

set_option autoImplicit false

namespace PluginCompiler

open Go (IsLine)

/-- Whether a line says that its file is generated. -/
def Go.marksGenerated (line : String) : Bool :=
  "// Code generated by plugspec ".toList.isPrefixOf line.toList &&
    " DO NOT EDIT.".toList.isSuffixOf line.toList

namespace Output

/-- Every comment of a file is a line of the text that is rendered for it. -/
def KeepsComments (o : Output) : Prop :=
  ∃ ls, o.lines? = some ls ∧ (∀ target, o.render target = .ok (Text.Utf8.encode (Emit.unlines ls))) ∧
    ∀ l ∈ ls, Go.isComment l = true → l ∈ Go.lines (Emit.unlines ls)

/-- The text of a file starts with a line that says that the file is generated. -/
def StartsGenerated (o : Output) : Prop :=
  ∃ ls, o.lines? = some ls ∧ (∀ target, o.render target = .ok (Text.Utf8.encode (Emit.unlines ls))) ∧
    ∃ line rest, Go.lines (Emit.unlines ls) = line :: rest ∧ Go.marksGenerated line = true

end Output

/-- Texts that are copied into comments: none has a break. -/
structure Spec.Commentable (spec : Spec) : Prop where
  name : IsLine spec.name
  declared : ∀ key ∈ spec.declared, IsLine key
  constants : Emit.ConstantsNamed spec.parameters

namespace Plan

variable {spec enriched : Spec} {source : List UInt8} {path : Path} {policy : WritePolicy} {t : Template}
  {context : Context} {ls : List String} {o : Output}

theorem keepsComments_iff (member : o ∈ outputs spec source) (writable : spec.http.isWritable)
    (written : o.lines? = some ls) : o.KeepsComments ↔ Emit.Each Emit.Whole ls := by
  constructor
  · rintro ⟨_, same, _, kept⟩ l member comment
    cases written.symm.trans same
    exact (Go.mem_lines_iff member).mp (kept l member comment)
  · intro whole
    exact ⟨ls, written, render_of_mem member writable written, fun l member comment =>
      (Go.mem_lines_iff member).mpr (whole l member comment)⟩

theorem lines?_of_goFile (body : o.body = .template t context) (filled : t.lines context = .ok ls) :
    o.lines? = some ls := by
  rw [Output.lines?, body]
  simp only [filled, Except.toOption]

theorem suffix_intercalate {α : Type} (sep : List α) (front : List (List α)) (last : List α) :
    last <:+ sep.intercalate (front ++ [last]) := by
  induction front with
  | nil => rw [List.nil_append, List.intercalate_singleton]
  | cons part front ih =>
    obtain ⟨next, rest, more⟩ := List.exists_cons_of_ne_nil (List.append_ne_nil_of_right_ne_nil front
      (List.cons_ne_nil last []))
    rw [List.cons_append, more, List.intercalate_cons_cons, ← more]
    exact ih.trans (List.suffix_append _ _)

theorem suffix_toString {path : Path} {front : List String} {file : String}
    (parts : path.parts = front ++ [file]) : file.toList <:+ path.toString.toList := by
  have body : file.toList <:+ ("/".intercalate path.parts).toList := by
    rw [parts, String.toList_intercalate, List.map_append, List.map_singleton]
    exact suffix_intercalate _ _ _
  have filled : path.parts.isEmpty = false := by simp [parts]
  rw [Path.toString]
  cases path.root with
  | relative => simpa [filled] using body
  | single =>
    rw [String.toList_append]
    exact body.trans (List.suffix_append _ _)
  | double =>
    rw [String.toList_append]
    exact body.trans (List.suffix_append _ _)

theorem isGo_inDirectory {directory : List String} {stem : String}
    (path : o.path = inDirectory directory (stem ++ ".go")) : o.isGo = true := by
  obtain ⟨file, _, ends, parts⟩ := Path.partsOf_append stem plainName_go
  have whole : ∃ front, (inDirectory directory (stem ++ ".go")).parts = front ++ [file] := by
    rw [inDirectory, Path.child, Path.join, Path.ofString, parts]
    split
    · exact ⟨directory ++ Path.folders stem, (List.append_assoc _ _ _).symm⟩
    · exact ⟨Path.folders stem, rfl⟩
  obtain ⟨front, whole⟩ := whole
  rw [Output.isGo, List.isSuffixOf_iff_suffix, path]
  exact ends.trans (suffix_toString whole)

theorem isGo_of_goFile (file : GoFile spec path policy t context) (same : o.path = path) :
    o.isGo = true := by
  cases file with
  | declaration => exact isGo_inDirectory same
  | @stub kind name _ _ =>
    rw [stubPath, show name ++ "_run.go" = name ++ "_run" ++ ".go" by rw [String.append_assoc]; rfl] at same
    exact isGo_inDirectory same
  | route => exact isGo_inDirectory same
  | customType => exact isGo_inDirectory same
  | _ =>
    rw [Output.isGo, same]
    decide

section
variable (ok : spec.enrich = .ok enriched)
include ok

theorem whole_declaration (kind : HandlerKind) {key : String} {h : Handler}
    (entry : (key, h) ∈ (enriched.handlers kind).entries) :
    Emit.Each Emit.Whole (Emit.handlerLines kind h) ↔ IsLine key ∧ Emit.ConstantsNamed h.parameters := by
  have member := List.mem_map_of_mem (f := Prod.snd) entry
  obtain ⟨_, _, becomes⟩ := Spec.enriched_handler_of_ok ok entry
  rw [← becomes.rawName]
  exact Emit.whole_handlerLines kind (Spec.handler_of_ok ok member).1 fun p inside =>
    Spec.derived_parameter_of_ok ok (Spec.mem_parameters_of_handler member inside)

theorem whole_stub (kind : HandlerKind) {key : String} {h : Handler}
    (entry : (key, h) ∈ (enriched.handlers kind).entries) :
    Emit.Each Emit.Whole (Emit.stubLines kind h) ↔ IsLine key := by
  obtain ⟨_, _, becomes⟩ := Spec.enriched_handler_of_ok ok entry
  rw [← becomes.rawName]
  exact Emit.whole_stubLines kind

theorem whole_route {key : String} {h : Handler}
    (entry : (key, h) ∈ (enriched.handlers .action).entries) :
    Emit.Each Emit.Whole (Emit.routeLines h) ↔ IsLine key := by
  have member := List.mem_map_of_mem (f := Prod.snd) entry
  obtain ⟨_, _, becomes⟩ := Spec.enriched_handler_of_ok ok entry
  rw [← becomes.rawName]
  exact Emit.whole_routeLines (Go.isLine_of_isWord (Spec.handler_of_ok ok member).1)

theorem whole_customType {key : String} {type : CustomType}
    (entry : (key, type) ∈ enriched.customTypes.entries) :
    Emit.Each Emit.Whole (Emit.typeLines type enriched) ↔
      (IsLine key ∧ IsLine enriched.name) ∧ Emit.ConstantsNamed type.sortedFields := by
  have member := List.mem_map_of_mem (f := Prod.snd) entry
  rw [← (Spec.enriched_type_of_ok ok entry).1]
  exact Emit.whole_typeLines (Spec.customType_of_ok ok member).1 fun p inside =>
    Spec.derived_parameter_of_ok ok (Spec.mem_parameters_of_type member inside)

theorem whole_connection : Emit.Each Emit.Whole (Emit.connectionLines enriched) ↔
    IsLine enriched.name ∧ Emit.ConstantsNamed enriched.connection.values :=
  Emit.whole_connectionLines fun _ inside =>
    Spec.derived_parameter_of_ok ok (Spec.mem_parameters_of_connection inside)

theorem whole_of_commentable (fit : enriched.Commentable)
    (file : GoFile enriched path policy t context) (filled : t.lines context = .ok ls) :
    Emit.Each Emit.Whole ls := by
  have named (kind : HandlerKind) {key : String} {h : Handler}
      (entry : (key, h) ∈ (enriched.handlers kind).entries) : IsLine key :=
    fit.declared key (Spec.mem_declared_of_handler kind (List.mem_map_of_mem entry))
  have constants {params : List Parameter} (inside : ∀ p ∈ params, p ∈ enriched.parameters) :
      Emit.ConstantsNamed params :=
    fun p member => fit.constants p (inside p member)
  -- Each file asks for the names in its comments only; the two stubs without names ask for nothing.
  cases file with
  | @declaration kind key h entry =>
    cases filled
    exact (whole_declaration ok kind entry).mpr ⟨named kind entry,
      constants fun p => Spec.mem_parameters_of_handler (List.mem_map_of_mem entry)⟩
  | @stub kind key h entry =>
    cases filled
    exact (whole_stub ok kind entry).mpr (named kind entry)
  | connection =>
    cases filled
    exact (whole_connection ok).mpr
      ⟨fit.name, constants fun p => Spec.mem_parameters_of_connection⟩
  | connect =>
    cases filled
    exact Emit.whole_connectLines
  | cache =>
    cases filled
    exact Emit.whole_cacheLines
  | program =>
    cases filled
    exact (Emit.whole_programLines fun kind h member => (Spec.handler_of_ok ok member).1).mpr fit.name
  | server =>
    cases filled
    exact (Emit.whole_serverLines enriched).mpr fit.name
  | @route key h entry =>
    cases filled
    exact (whole_route ok entry).mpr (named .action entry)
  | @customType key type entry =>
    cases filled
    have line : IsLine key := fit.declared key (Spec.mem_declared_of_type (List.mem_map_of_mem entry))
    exact (whole_customType ok entry).mpr ⟨⟨line, fit.name⟩,
      constants fun p => Spec.mem_parameters_of_type (List.mem_map_of_mem entry)⟩

theorem commentable_of_whole (whole : ∀ {path policy t context ls},
    GoFile enriched path policy t context → t.lines context = .ok ls → Emit.Each Emit.Whole ls) :
    enriched.Commentable := by
  -- The file of the connection is always planned, and has the name of the plugin in it.
  obtain ⟨name, connection⟩ := (whole_connection ok).mp (whole .connection rfl)
  have handler {kind : HandlerKind} {key : String} {h : Handler}
      (entry : (key, h) ∈ (enriched.handlers kind).entries) :=
    (whole_declaration ok kind entry).mp (whole (.declaration entry) rfl)
  have type {key : String} {own : CustomType} (entry : (key, own) ∈ enriched.customTypes.entries) :=
    (whole_customType ok entry).mp (whole (.customType entry) rfl)
  refine ⟨name, fun key member => ?_, fun p member filled => ?_⟩
  · rcases Spec.mem_declared.mp member with ⟨kind, member⟩ | member
    · obtain ⟨⟨key, h⟩, entry, rfl⟩ := List.mem_map.mp member
      exact (handler entry).1
    · obtain ⟨⟨key, own⟩, entry, rfl⟩ := List.mem_map.mp member
      exact (type entry).1.1
  · rcases Spec.mem_parameters.mp member with inside | ⟨kind, h, member, inside⟩ | ⟨own, member, inside⟩
    · exact connection p inside filled
    · obtain ⟨⟨key, h⟩, entry, rfl⟩ := List.mem_map.mp member
      exact (handler entry).2 p inside filled
    · obtain ⟨⟨key, own⟩, entry, rfl⟩ := List.mem_map.mp member
      exact (type entry).2 p inside filled

end

theorem starts_of_goFile (file : GoFile spec path .always t context) (filled : t.lines context = .ok ls) :
    ∃ origin rest, ls = Emit.generatedFrom origin :: rest := by
  cases file <;> cases filled <;> exact ⟨_, _, rfl⟩

theorem marksGenerated_generatedFrom (origin : String) :
    Go.marksGenerated (Emit.generatedFrom origin) = true := by
  have chars : (Emit.generatedFrom origin).toList = "// Code generated by plugspec ".toList ++
      ("from the ".toList ++ (origin.toList ++ ('.' :: " DO NOT EDIT.".toList))) := by
    unfold Emit.generatedFrom
    simp
  rw [Go.marksGenerated, chars, Bool.and_eq_true, List.isPrefixOf_iff_prefix, List.isSuffixOf_iff_suffix]
  refine ⟨List.prefix_append _ _, ?_⟩
  rw [← List.append_assoc, ← List.append_assoc]
  exact (List.suffix_cons '.' _).trans (List.suffix_append _ _)

theorem startsGenerated_of_whole {origin : String} (member : o ∈ outputs spec source)
    (writable : spec.http.isWritable) (written : o.lines? = some (Emit.generatedFrom origin :: ls))
    (whole : Emit.Each Emit.Whole (Emit.generatedFrom origin :: ls)) : o.StartsGenerated := by
  have line : IsLine (Emit.generatedFrom origin) :=
    whole _ List.mem_cons_self (Emit.isComment_generatedFrom origin)
  refine ⟨_, written, render_of_mem member writable written, Emit.generatedFrom origin,
    Go.lines (Emit.unlines ls), ?_, marksGenerated_generatedFrom origin⟩
  rw [Go.lines_unlines_eq, List.flatMap_cons, Go.pieces_of_isLine line, Go.lines_unlines_eq]
  rfl

end Plan

namespace Spec

variable {spec enriched : Spec} {source : List UInt8} {os : List Output}

/-- The comments of planned files are lines of them exactly if no name that is copied into one has a
break, whatever the descriptions are. Then files that follow the spec say so in their first lines. -/
theorem comments_of_plan (ok : spec.enrich = .ok enriched) (planned : enriched.plan source = .ok os)
    (writable : enriched.http.isWritable) :
    ((∀ o ∈ os, o.isGo = true → o.KeepsComments) ↔ enriched.Commentable) ∧
      (enriched.Commentable → ∀ o ∈ os, o.isGo = true → o.policy = .always → o.StartsGenerated) := by
  have same := (plan_eq_ok.mp planned).1
  subst same
  refine ⟨⟨fun kept => ?_, fun fit o member go => ?_⟩, fun fit o member go always => ?_⟩
  · refine Plan.commentable_of_whole ok fun {path policy t context ls} file filled => ?_
    obtain ⟨o, member, same, _, body⟩ := Plan.exists_of_goFile source file
    exact (Plan.keepsComments_iff member writable (Plan.lines?_of_goFile body filled)).mp
      (kept o member (Plan.isGo_of_goFile file same))
  · obtain ⟨t, context, body, file⟩ := Plan.goFile_of_mem member go
    obtain ⟨ls, filled⟩ := Plan.lines_of_goFile file
    exact (Plan.keepsComments_iff member writable (Plan.lines?_of_goFile body filled)).mpr
      (Plan.whole_of_commentable ok fit file filled)
  · obtain ⟨t, context, body, file⟩ := Plan.goFile_of_mem member go
    obtain ⟨ls, filled⟩ := Plan.lines_of_goFile file
    rw [always] at file
    obtain ⟨origin, rest, rfl⟩ := Plan.starts_of_goFile file filled
    exact Plan.startsGenerated_of_whole member writable (Plan.lines?_of_goFile body filled)
      (Plan.whole_of_commentable ok fit file filled)

theorem commentable_messaging : messagingEnriched.Commentable :=
  ⟨by decide, by decide, by decide⟩

theorem comments_of_plan_messaging :
    messaging.enrich = .ok messagingEnriched ∧
      messagingEnriched.plan [] = .ok (Plan.outputs messagingEnriched []) ∧
      messagingEnriched.http.isWritable ∧
      (∀ o ∈ Plan.outputs messagingEnriched [], o.isGo = true → o.KeepsComments) ∧
      ∀ o ∈ Plan.outputs messagingEnriched [], o.isGo = true → o.policy = .always →
        o.StartsGenerated := by
  have writable := plain_messaging.writable
  obtain ⟨kept, starts⟩ := comments_of_plan enrich_messaging plan_messaging writable
  exact ⟨enrich_messaging, plan_messaging, writable, kept.mpr commentable_messaging, starts commentable_messaging⟩

def broken : Spec where
  name := "x\ny"
  description := some "one\ntwo"

def brokenEnriched : Spec := { broken with connectionKey := "\"\"", http := ⟨10001, 2, 2⟩ }

theorem enrich_broken : broken.enrich = .ok brokenEnriched := rfl

theorem plan_broken : brokenEnriched.plan [] = .ok (Plan.outputs brokenEnriched []) :=
  plan_eq_ok.mpr ⟨rfl, by decide +kernel⟩

/-- The break in the name ends the first line of the file of the connection. -/
theorem not_starts_generated :
    ¬ ∀ (spec enriched : Spec) (source : List UInt8) (os : List Output), spec.enrich = .ok enriched →
      enriched.plan source = .ok os → ∀ o ∈ os, o.isGo = true → o.policy = .always →
        o.StartsGenerated := by
  intro starts
  have file : Plan.GoFile brokenEnriched _ _ _ _ := .connection
  obtain ⟨o, member, path, policy, body⟩ := Plan.exists_of_goFile [] file
  have written : o.lines? = some (Emit.connectionLines brokenEnriched) := Plan.lines?_of_goFile body rfl
  obtain ⟨ls, same, _, line, rest, first, marked⟩ := starts broken brokenEnriched [] _ enrich_broken
    plan_broken o member (Plan.isGo_of_goFile file path) policy
  cases written.symm.trans same
  have pieces : ((Emit.generatedFrom "x\ny connection").toList.splitOn '\n').map String.ofList =
      ["// Code generated by plugspec from the x", "y connection. DO NOT EDIT."] := by decide
  obtain ⟨more, lines⟩ : ∃ more, Emit.connectionLines brokenEnriched =
      Emit.generatedFrom "x\ny connection" :: more := ⟨_, rfl⟩
  rw [lines, Go.lines_unlines_eq, List.flatMap_cons, pieces] at first
  cases first
  exact absurd marked (by decide)

end Spec

end PluginCompiler
