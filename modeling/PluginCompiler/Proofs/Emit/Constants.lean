import PluginCompiler.Proofs.Emit.Layout
import PluginCompiler.Proofs.Emit.Lines
import PluginCompiler.Proofs.Enrich.Literals
import PluginCompiler.Proofs.Plan.Listing

/-! The constants of a generated file. A name of a constant joins two words of any length, so two
parameters of one section declare the same constant if what the longer identifier has more is how the
suffix of the other begins. Nothing else makes a file declare a constant twice. -/

set_option autoImplicit false

namespace PluginCompiler

open Naming (IsWord upperCamel constantSuffix)

variable {p q : Parameter} {params : List Parameter} {start : String}

structure Named (params : List Parameter) : Prop where
  distinct : (params.map Parameter.rawName).Nodup
  name : ∀ p ∈ params, p.name = upperCamel p.rawName
  constant : ∀ p ∈ params, ∀ l ∈ p.enumLiterals, l.name = p.name ++ constantSuffix l.literal
  apart : ∀ p ∈ params, (p.enumLiterals.map EnumLiteral.name).Nodup

theorem Section.Enriched.rawNames {known : List String} {owner : String} {s s' : Section Parameter}
    (becomes : Section.Enriched known owner s s') : s'.values.map Parameter.rawName = s'.names := by
  rw [Section.values, Section.names, List.map_map]
  apply List.map_congr_left
  rintro ⟨name, p'⟩ entry
  obtain ⟨p, _, enriched⟩ := becomes.exists_of_mem entry
  exact enriched.rawName

theorem Section.Enriched.named {known : List String} {owner : String} {s s' : Section Parameter}
    (becomes : Section.Enriched known owner s s') : Named s'.values where
  distinct := by
    rw [becomes.rawNames]
    exact s'.distinct
  name p' member := by
    obtain ⟨p, enriched⟩ := becomes.of_mem member
    exact enriched.name
  constant p' member l literal := by
    obtain ⟨p, enriched⟩ := becomes.of_mem member
    obtain ⟨v, _, expresses⟩ := enriched.expresses literal
    rw [expresses.name, enriched.name]
  apart p' member := by
    obtain ⟨p, enriched⟩ := becomes.of_mem member
    exact enriched.nodup_names

namespace Named

theorem isWord (named : Named params) (member : p ∈ params) {l : EnumLiteral}
    (literal : l ∈ p.enumLiterals) : IsWord l.name := by
  rw [named.constant p member l literal, named.name p member]
  exact (Naming.isWord_upperCamel _).append (Naming.isWord_constantSuffix _)

theorem perm {others : List Parameter} (named : Named params) (perm : params.Perm others) :
    Named others where
  distinct := (perm.map _).nodup_iff.mp named.distinct
  name p member := named.name p (perm.mem_iff.mpr member)
  constant p member := named.constant p (perm.mem_iff.mpr member)
  apart p member := named.apart p (perm.mem_iff.mpr member)

end Named

/-- The identifier of `q` is longer than that of `p`, or the same, and some constant of `p` has the rest
of it before what ends a constant of `q`. -/
def Parameter.Meets (p q : Parameter) : Prop :=
  ∃ l ∈ p.enumLiterals, ∃ m ∈ q.enumLiterals, ∃ rest,
    upperCamel q.rawName = upperCamel p.rawName ++ rest ∧
      constantSuffix l.literal = rest ++ constantSuffix m.literal

/-- No two parameters of a section meet. -/
def Section.Unambiguous (s : Section Parameter) : Prop :=
  ∀ p ∈ s.values, ∀ q ∈ s.values, p.rawName ≠ q.rawName → ¬ p.Meets q

def constantNames (start : String) (params : List Parameter) : List String :=
  params.flatMap fun p => p.enumLiterals.map fun l => start ++ l.name

theorem append_eq_append_iff {a b c d : String} :
    a ++ b = c ++ d ↔
      (∃ rest, c = a ++ rest ∧ b = rest ++ d) ∨ ∃ rest, a = c ++ rest ∧ d = rest ++ b := by
  have lift {s t : String} {cs : List Char} (same : s.toList = t.toList ++ cs) :
      s = t ++ String.ofList cs := String.toList_inj.mp (by simpa using same)
  constructor
  · intro same
    have chars := congrArg String.toList same
    rw [String.toList_append, String.toList_append, List.append_eq_append_iff] at chars
    obtain ⟨cs, left, right⟩ | ⟨cs, left, right⟩ := chars
    · exact .inl ⟨String.ofList cs, lift left, String.toList_inj.mp (by simpa using right)⟩
    · exact .inr ⟨String.ofList cs, lift left, String.toList_inj.mp (by simpa using right)⟩
  · rintro (⟨rest, rfl, rfl⟩ | ⟨rest, rfl, rfl⟩)
    · exact (String.append_assoc ..).symm
    · exact String.append_assoc ..

namespace Named

theorem meets_iff (named : Named params) (first : p ∈ params) (second : q ∈ params) :
    (∃ l ∈ p.enumLiterals, ∃ m ∈ q.enumLiterals, l.name = m.name) ↔ p.Meets q ∨ q.Meets p := by
  have same {l m : EnumLiteral} (literal : l ∈ p.enumLiterals) (other : m ∈ q.enumLiterals) :
      l.name = m.name ↔
        (∃ rest, upperCamel q.rawName = upperCamel p.rawName ++ rest ∧
          constantSuffix l.literal = rest ++ constantSuffix m.literal) ∨
        ∃ rest, upperCamel p.rawName = upperCamel q.rawName ++ rest ∧
          constantSuffix m.literal = rest ++ constantSuffix l.literal := by
    rw [named.constant p first l literal, named.constant q second m other, named.name p first,
      named.name q second]
    exact append_eq_append_iff
  constructor
  · rintro ⟨l, literal, m, other, equal⟩
    rcases (same literal other).mp equal with longer | shorter
    · exact .inl ⟨l, literal, m, other, longer⟩
    · exact .inr ⟨m, other, l, literal, shorter⟩
  · rintro (⟨l, literal, m, other, longer⟩ | ⟨m, other, l, literal, shorter⟩)
    · exact ⟨l, literal, m, other, (same literal other).mpr (.inl longer)⟩
    · exact ⟨l, literal, m, other, (same literal other).mpr (.inr shorter)⟩

theorem nodup_constants (named : Named params) (member : p ∈ params) (start : String) :
    (p.enumLiterals.map fun l => start ++ l.name).Nodup := by
  have apart := (named.apart p member).map fun _ _ => (String.append_right_inj start).mp
  rwa [List.map_map] at apart

theorem disjoint_constants_iff {p q : Parameter} (start : String) :
    List.Disjoint (p.enumLiterals.map fun l => start ++ l.name)
        (q.enumLiterals.map fun l => start ++ l.name) ↔
      ¬ ∃ l ∈ p.enumLiterals, ∃ m ∈ q.enumLiterals, l.name = m.name := by
  constructor
  · rintro disjoint ⟨l, literal, m, other, same⟩
    exact disjoint (List.mem_map_of_mem literal) (by rw [same]; exact List.mem_map_of_mem other)
  · intro apart name left right
    obtain ⟨l, literal, rfl⟩ := List.mem_map.mp left
    obtain ⟨m, other, same⟩ := List.mem_map.mp right
    exact apart ⟨l, literal, m, other, ((String.append_right_inj start).mp same).symm⟩

/-- The constants of a parameter have different names anyway. -/
theorem nodup_constantNames_iff (named : Named params) (start : String) :
    (constantNames start params).Nodup ↔
      ∀ p ∈ params, ∀ q ∈ params, p.rawName ≠ q.rawName → ¬ p.Meets q := by
  rw [constantNames, List.nodup_flatMap]
  constructor
  · rintro ⟨_, disjoint⟩ p first q second different meets
    -- Disjointness does not depend on which of two parameters comes first.
    have symmetric : Std.Symm (Function.onFun List.Disjoint
        fun p : Parameter => p.enumLiterals.map fun l => start ++ l.name) :=
      ⟨fun _ _ => List.Disjoint.symm⟩
    have apart := disjoint.forall first second (by rintro rfl; exact different rfl)
    rw [Function.onFun, disjoint_constants_iff, named.meets_iff first second] at apart
    exact apart (.inl meets)
  · intro apart
    refine ⟨fun p member => named.nodup_constants member start, ?_⟩
    have distinct := List.pairwise_map.mp named.distinct
    refine distinct.imp_of_mem fun {p q} first second different => ?_
    rw [Function.onFun, disjoint_constants_iff, named.meets_iff first second]
    rintro (meets | meets)
    · exact apart p first q second different meets
    · exact apart q second p first different.symm meets

end Named

/-! ## The group of constants of a file -/

namespace Emit

def Grouped (constants ls : List String) : Prop :=
  ∃ before after, ls = before ++ (constantBlock constants ++ after) ∧
    Each (Go.lead · ≠ some 'c') before ∧ Each (Go.lead · ≠ some 'c') after

variable {constants ls more : List String}

theorem grouped_constantBlock (clear : Each (Go.lead · ≠ some 'c') ls) :
    Grouped constants (ls ++ constantBlock constants) :=
  ⟨ls, [], by simp, clear, each_nil⟩

theorem Grouped.append (grouped : Grouped constants ls) (clear : Each (Go.lead · ≠ some 'c') more) :
    Grouped constants (ls ++ more) := by
  obtain ⟨before, after, rfl, front, back⟩ := grouped
  exact ⟨before, after ++ more, by simp, front, each_append.mpr ⟨back, clear⟩⟩

theorem Grouped.enclosed_eq (grouped : Grouped constants ls) :
    Go.enclosed "const (" ")" ls = indent constants := by
  obtain ⟨before, after, rfl, front, back⟩ := grouped
  cases constants with
  | nil =>
    have absent : "const (" ∉ before ++ after := (each_append.mpr ⟨front, back⟩).not_mem rfl
    exact Go.enclosed_of_not_mem absent
  | cons l rest =>
    have block : constantBlock (l :: rest) = [""] ++ parens "const" (l :: rest) := by
      simp [constantBlock, apart, Go.parens_eq]
    have absent : "const" ++ " (" ∉ before ++ [""] := by
      apply Each.not_mem (c := 'c') _ rfl
      exact each_append.mpr ⟨front, by simp [Go.lead]⟩
    rw [block, List.append_assoc, ← List.append_assoc before]
    exact Go.enclosed_parens absent (l :: rest)

theorem Grouped.declaredConstants (grouped : Grouped constants ls) :
    Go.declaredConstants ls = (indent constants).filterMap Go.constantName? := by
  rw [Go.declaredConstants, grouped.enclosed_eq]

theorem Grouped.count_head (grouped : Grouped constants ls) :
    ls.count "const (" = if constants.isEmpty then 0 else 1 := by
  obtain ⟨before, after, rfl, front, back⟩ := grouped
  have first : before.count "const (" = 0 := List.count_eq_zero.mpr (front.not_mem rfl)
  have last : after.count "const (" = 0 := List.count_eq_zero.mpr (back.not_mem rfl)
  have inside : (indent constants).count "const (" = 0 :=
    List.count_eq_zero.mpr (Go.close_not_mem_indent _ (by decide))
  cases constants with
  | nil => simp [constantBlock, first, last]
  | cons l rest => simp [constantBlock, apart, Go.parens_eq, first, last, inside]

variable {h : Handler} {t : CustomType} {spec : Spec}

theorem constantNames_of_group (owner : Parameter → String)
    (words : ∀ p ∈ params, ∀ l ∈ p.enumLiterals, IsWord (start ++ l.name)) :
    (indent (params.flatMap fun p => Emit.constants start (owner p) p.enumLiterals)).filterMap
        Go.constantName? = constantNames start params := by
  rw [indent, List.map_flatMap, List.filterMap_flatMap, constantNames]
  apply List.flatMap_congr
  intro p member
  exact constantNames_of_constants (words p member)

theorem lead_inputNote (kind : HandlerKind) (h : Handler) :
    Go.lead ("// " ++ h.name ++ "Input are the inputs of the " ++ h.rawName ++ " " ++ kind.word) =
      some '/' := by
  simp only [String.append_assoc]
  exact Go.lead_append (Go.lead_literal _ _) _

theorem lead_outputNote (kind : HandlerKind) (h : Handler) : Go.lead (kind.outputNote h) = some '/' := by
  cases kind
  all_goals
    simp only [HandlerKind.outputNote, String.append_assoc]
    exact Go.lead_append (Go.lead_literal _ _) _

theorem lead_typeNote (t : CustomType) (spec : Spec) :
    Go.lead ("// " ++ t.name ++ " is the " ++ t.rawName ++ " type declared by the " ++ spec.name ++
      " plugin") = some '/' := by
  simp only [String.append_assoc]
  exact Go.lead_append (Go.lead_literal _ _) _

section

variable {c : Char}

theorem clear_method (other : c ∉ ['f', '\t', '\x7d']) (kind : HandlerKind) (h : Handler)
    (signature : String) (body : List String) :
    Each (Go.lead · ≠ some c) (braces (method kind h signature) body) := by
  rw [List.mem_cons, not_or] at other
  have own : Go.lead (method kind h signature ++ " \x7b") = some 'f' := by
    unfold method
    simp only [String.append_assoc]
    exact Go.lead_append (Go.lead_literal _ _) _
  rw [clear_braces other.2, own]
  exact fun same => other.1 (Option.some.inj same).symm

theorem clear_stubLines (other : c ∉ ['f', '\t', '\x7d', 'p', '/']) (kind : HandlerKind) (h : Handler) :
    Each (Go.lead · ≠ some c) (stubLines kind h) := by
  have method := clear_method (fun member => other (List.mem_append_left ['p', '/'] member)) kind h
  have package : 'p' ≠ c := by
    rintro rfl
    exact other (by decide)
  have comment : '/' ≠ c := by
    rintro rfl
    exact other (by decide)
  cases kind with
  | action =>
    have front : Each (Go.lead · ≠ some c)
        ["package actions", "", "// Run executes the " ++ h.rawName ++ " action."] :=
      clear_cons_literal package
        (clear_note comment (Go.lead_append (Go.lead_append (Go.lead_literal _ _) _) _))
    exact each_append.mpr ⟨each_append.mpr ⟨front, clear_ownedNote comment⟩, method _ _⟩
  | trigger =>
    have first : Go.lead ("// Run starts the " ++ h.rawName ++ " trigger. Send each event to t.Events") =
        some '/' := Go.lead_append (Go.lead_append (Go.lead_literal _ _) _) _
    have last : Each (Go.lead · ≠ some c) ["// and return when the trigger is done or fails."] :=
      clear_cons_literal comment each_nil
    have front : Each (Go.lead · ≠ some c) ("package triggers" ::
        (["", "// Run starts the " ++ h.rawName ++ " trigger. Send each event to t.Events"] ++
          ["// and return when the trigger is done or fails."])) :=
      clear_cons_literal package (each_append.mpr ⟨clear_note comment first, last⟩)
    exact each_append.mpr ⟨each_append.mpr ⟨front, clear_ownedNote comment⟩, method _ _⟩

theorem clear_keyHelper (other : c ∉ ['f', '\t', '\x7d']) (spec : Spec) :
    Each (Go.lead · ≠ some c)
      (if readsOptionalText spec.connection then apart optionalTextHelper else []) := by
  rw [List.mem_cons, not_or] at other
  split
  · rw [each_apart lead_empty_ne, optionalTextHelper, clear_braces other.2]
    exact lead_literal_append_ne (Ne.symm other.1)
  · exact each_nil

end

theorem grouped_handlerLines (kind : HandlerKind) (h : Handler) :
    Grouped (handlerConstants kind h) (handlerLines kind h) := by
  have types (name : String) (body : List String) : Each (Go.lead · ≠ some 'c') (structType name body) :=
    clear_structType (by decide) name body
  have methods := clear_method (by decide : 'c' ∉ ['f', '\t', '\x7d']) kind h
  have note {l : String} (own : Go.lead l = some '/') : Each (Go.lead · ≠ some 'c') ["", l] :=
    clear_note (by decide) own
  unfold handlerLines
  apply Grouped.append _ (methods _ _)
  apply Grouped.append _ (note (Go.lead_append (Go.lead_literal _ _) _))
  apply Grouped.append _ (methods _ _)
  apply Grouped.append _ (note (Go.lead_append (Go.lead_append (Go.lead_literal _ _) _) _))
  apply Grouped.append _ (types _ _)
  apply Grouped.append _ (note (by simp [Go.lead]))
  apply grouped_constantBlock
  rw [each_append, each_append, each_append]
  exact ⟨⟨⟨clear_header (by decide) _ _ (Go.lead_append (Go.lead_literal _ _) _) (lead_inputNote kind h),
    types _ _⟩, note (lead_outputNote kind h)⟩, types _ _⟩

theorem grouped_connectionLines (spec : Spec) :
    Grouped (sectionConstants "Data" spec.connection) (connectionLines spec) := by
  have key : Each (Go.lead · ≠ some 'c')
      (braces "func (c *Data) Key() string" ["return " ++ spec.connectionKey]) :=
    (clear_braces (by decide)).mpr (lead_literal_append_ne (by decide))
  unfold connectionLines
  apply Grouped.append _ (clear_keyHelper (by decide) spec)
  apply Grouped.append _ key
  apply Grouped.append _ (clear_note (by decide) (Go.lead_literal _ _))
  apply grouped_constantBlock
  rw [each_append]
  exact ⟨clear_header (by decide) _ _ rfl (lead_dataNote spec), clear_structType (by decide) _ _⟩

theorem grouped_typeLines (t : CustomType) (spec : Spec) :
    Grouped (typeConstants t) (typeLines t spec) := by
  unfold typeLines
  apply grouped_constantBlock
  rw [each_append]
  exact ⟨clear_header (by decide) _ _ rfl (lead_typeNote t spec), clear_structType (by decide) _ _⟩

theorem constantNames_of_section {s : Section Parameter} (named : Named s.values)
    (word : IsWord start) :
    (indent (sectionConstants start s)).filterMap Go.constantName? = constantNames start s.values :=
  constantNames_of_group Parameter.rawName fun _ member _ literal =>
    word.append (named.isWord member literal)

theorem declaredConstants_handlerLines (kind : HandlerKind) (word : IsWord h.name)
    (input : Named h.input.values) (output : Named h.output.values) :
    Go.declaredConstants (handlerLines kind h) =
      constantNames (h.name ++ "Input") h.input.values ++
        constantNames (h.name ++ kind.outputSuffix) h.output.values := by
  have suffix : IsWord kind.outputSuffix := by cases kind <;> decide
  rw [(grouped_handlerLines kind h).declaredConstants, handlerConstants, indent, List.map_append,
    List.filterMap_append]
  exact congrArg₂ _ (constantNames_of_section input (word.append (by decide)))
    (constantNames_of_section output (word.append suffix))

theorem declaredConstants_connectionLines (named : Named spec.connection.values) :
    Go.declaredConstants (connectionLines spec) = constantNames "Data" spec.connection.values := by
  rw [(grouped_connectionLines spec).declaredConstants]
  exact constantNames_of_section named (by decide)

theorem declaredConstants_typeLines (spec : Spec) (word : IsWord t.name)
    (named : Named t.sortedFields) :
    Go.declaredConstants (typeLines t spec) = constantNames t.name t.sortedFields := by
  rw [(grouped_typeLines t spec).declaredConstants]
  exact constantNames_of_group (fun p => t.rawName ++ "." ++ p.rawName) fun _ member _ literal =>
    word.append (named.isWord member literal)

theorem input_ne_output (kind : HandlerKind) (owner name other : String) :
    owner ++ "Input" ++ name ≠ owner ++ kind.outputSuffix ++ other := by
  intro same
  rw [String.append_assoc, String.append_assoc, String.append_right_inj] at same
  have chars := congrArg String.toList same
  -- The letters after the name of the handler differ at once.
  cases kind <;> simp [HandlerKind.outputSuffix] at chars

theorem nodup_handler_iff (kind : HandlerKind) (input : Named h.input.values)
    (output : Named h.output.values) :
    (constantNames (h.name ++ "Input") h.input.values ++
        constantNames (h.name ++ kind.outputSuffix) h.output.values).Nodup ↔
      h.input.Unambiguous ∧ h.output.Unambiguous := by
  rw [List.nodup_append, input.nodup_constantNames_iff, output.nodup_constantNames_iff]
  have apart : ∀ a ∈ constantNames (h.name ++ "Input") h.input.values,
      ∀ b ∈ constantNames (h.name ++ kind.outputSuffix) h.output.values, a ≠ b := by
    intro a first b second
    obtain ⟨p, _, own⟩ := List.mem_flatMap.mp first
    obtain ⟨q, _, other⟩ := List.mem_flatMap.mp second
    obtain ⟨l, _, rfl⟩ := List.mem_map.mp own
    obtain ⟨m, _, rfl⟩ := List.mem_map.mp other
    exact input_ne_output kind h.name l.name m.name
  exact ⟨fun ⟨left, right, _⟩ => ⟨left, right⟩, fun ⟨left, right⟩ => ⟨left, right, apart⟩⟩

end Emit

theorem sortFields_perm (fields : List Parameter) : (sortFields fields).Perm fields :=
  List.filter_append_perm _ fields

namespace Spec

variable {spec enriched : Spec}

theorem enriched_handler_of_ok (ok : spec.enrich = .ok enriched) {kind : HandlerKind} {key : String}
    {h : Handler} (entry : (key, h) ∈ (enriched.handlers kind).entries) :
    ∃ raw, (key, raw) ∈ (spec.handlers kind).entries ∧
      Handler.Enriched spec.rawTypes.names kind.word spec.packageRoot key raw h := by
  obtain ⟨_, _, _, actions, triggers, _⟩ := enriched_of_ok ok
  have along : Section.Along (Handler.Enriched spec.rawTypes.names kind.word spec.packageRoot)
      (spec.handlers kind).sorted.entries (enriched.handlers kind).entries := by
    cases kind with
    | action => exact actions
    | trigger => exact triggers
  obtain ⟨raw, listed, becomes⟩ := along.exists_of_mem entry
  exact ⟨raw, (Section.arrange_perm _).mem_iff.mp listed, becomes⟩

theorem ordered_handlers_of_ok (ok : spec.enrich = .ok enriched) (kind : HandlerKind) :
    Section.Ordered (spec.handlers kind) (enriched.handlers kind) := by
  obtain ⟨_, _, _, actions, triggers⟩ := (enriched_of_ok ok).ordered
  cases kind with
  | action => exact actions
  | trigger => exact triggers

theorem enriched_type_of_ok (ok : spec.enrich = .ok enriched) {key : String} {t : CustomType}
    (entry : (key, t) ∈ enriched.customTypes.entries) :
    t.rawName = key ∧ t.name = Naming.upperCamel key ∧ t.sortedFields = sortFields t.fields.values ∧
      ∃ raw, (key, raw) ∈ spec.rawTypes.entries ∧
        Section.Enriched spec.rawTypes.names ("type " ++ key) raw t.fields := by
  rw [(derived_of_ok ok).1] at entry
  obtain ⟨⟨name, fields⟩, declared, same⟩ := List.mem_map.mp entry
  cases same
  obtain ⟨raw, listed, own⟩ := (enriched_of_ok ok).types.exists_of_mem declared
  exact ⟨rfl, rfl, rfl, raw, (Section.arrange_perm _).mem_iff.mp listed, own⟩

theorem handler_of_ok (ok : spec.enrich = .ok enriched) {kind : HandlerKind} {h : Handler}
    (member : h ∈ (enriched.handlers kind).values) :
    IsWord h.name ∧ Named h.input.values ∧ Named h.output.values := by
  obtain ⟨⟨key, h⟩, entry, rfl⟩ := List.mem_map.mp member
  obtain ⟨_, _, own⟩ := enriched_handler_of_ok ok entry
  refine ⟨?_, own.input.named, own.output.named⟩
  rw [own.name]
  exact Naming.isWord_upperCamel key

theorem customType_of_ok (ok : spec.enrich = .ok enriched) {t : CustomType}
    (member : t ∈ enriched.customTypes.values) :
    IsWord t.name ∧ Named t.fields.values ∧ t.sortedFields.Perm t.fields.values := by
  obtain ⟨⟨key, t⟩, entry, rfl⟩ := List.mem_map.mp member
  obtain ⟨_, name, sorted, _, _, own⟩ := enriched_type_of_ok ok entry
  refine ⟨?_, own.named, sorted ▸ sortFields_perm _⟩
  rw [name]
  exact Naming.isWord_upperCamel key

/-- A generated file declares the constants of its parameters, and one of them twice exactly if two
parameters of one section meet. -/
theorem constants_distinct_iff (ok : spec.enrich = .ok enriched) :
    (∀ kind, ∀ h ∈ (enriched.handlers kind).values,
      Go.declaredConstants (Emit.handlerLines kind h) =
          constantNames (h.name ++ "Input") h.input.values ++
            constantNames (h.name ++ kind.outputSuffix) h.output.values ∧
        ((Go.declaredConstants (Emit.handlerLines kind h)).Nodup ↔
          h.input.Unambiguous ∧ h.output.Unambiguous)) ∧
    (Go.declaredConstants (Emit.connectionLines enriched) =
        constantNames "Data" enriched.connection.values ∧
      ((Go.declaredConstants (Emit.connectionLines enriched)).Nodup ↔
        enriched.connection.Unambiguous)) ∧
    ∀ t ∈ enriched.customTypes.values,
      Go.declaredConstants (Emit.typeLines t enriched) = constantNames t.name t.sortedFields ∧
        ((Go.declaredConstants (Emit.typeLines t enriched)).Nodup ↔ t.fields.Unambiguous) := by
  refine ⟨fun kind h member => ?_, ?_, fun t member => ?_⟩
  · obtain ⟨word, input, output⟩ := handler_of_ok ok member
    have names := Emit.declaredConstants_handlerLines kind word input output
    exact ⟨names, names ▸ Emit.nodup_handler_iff kind input output⟩
  · have named := (enriched_of_ok ok).connection.named
    have names := Emit.declaredConstants_connectionLines named
    exact ⟨names, names ▸ named.nodup_constantNames_iff "Data"⟩
  · obtain ⟨word, named, perm⟩ := customType_of_ok ok member
    have names := Emit.declaredConstants_typeLines enriched word (named.perm perm.symm)
    have moved : (constantNames t.name t.sortedFields).Perm (constantNames t.name t.fields.values) :=
      perm.flatMap_right _
    exact ⟨names, names ▸ moved.nodup_iff.trans (named.nodup_constantNames_iff t.name)⟩

/-- Two parameters of a connection, of which the second continues the first. -/
def overlapping : Spec where
  connection := ⟨[("a", { type := "string", enum := [.text "bC"] }),
    ("a_b", { type := "string", enum := [.text "c"] })], by decide⟩

def overlappingEnriched : Spec :=
  { overlapping with
    connection :=
      ⟨[("a", { rawName := "a", name := "A", type := "string", internalType := "string",
                enum := [.text "bC"], enumLiterals := [⟨"ABC", "\"bC\""⟩] }),
        ("a_b", { rawName := "a_b", name := "AB", type := "string", internalType := "string",
                  enum := [.text "c"], enumLiterals := [⟨"ABC", "\"c\""⟩] })], by decide⟩
    connectionKey := "c.A + c.AB"
    http := ⟨10001, 2, 2⟩ }

theorem enrich_overlapping : overlapping.enrich = .ok overlappingEnriched := rfl

theorem constants_distinct_overlapping :
    overlapping.enrich = .ok overlappingEnriched ∧
      Go.declaredConstants (Emit.connectionLines overlappingEnriched) =
        constantNames "Data" overlappingEnriched.connection.values ∧
      ((Go.declaredConstants (Emit.connectionLines overlappingEnriched)).Nodup ↔
        overlappingEnriched.connection.Unambiguous) :=
  ⟨enrich_overlapping, (constants_distinct_iff enrich_overlapping).2.1⟩

/-- The words of a name do not show in its identifier. -/
theorem not_constants_distinct :
    ¬ ∀ spec enriched : Spec, spec.enrich = .ok enriched →
      (Go.declaredConstants (Emit.connectionLines enriched)).Nodup := by
  intro distinct
  have twice : Go.declaredConstants (Emit.connectionLines overlappingEnriched) =
      ["DataABC", "DataABC"] := by decide +kernel
  have apart := distinct overlapping overlappingEnriched enrich_overlapping
  rw [twice] at apart
  simp at apart

end Spec

end PluginCompiler
