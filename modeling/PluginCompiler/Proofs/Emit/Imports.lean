import PluginCompiler.Proofs.Emit.Records

/-! The imports of files with records, which are what the fields of the records are built on. -/

set_option autoImplicit false

namespace PluginCompiler

open Go (GoType)
open Naming (IsWord)

/-- The group of imports of a file lists the packages that its fields are built on and those that it
always needs, and nothing else. There is none if there is nothing to list. -/
structure Go.ImportsFit (root : String) (always : List String) (fields : List Go.Field)
    (ls : List String) : Prop where
  distinct : (Go.imports ls).Nodup
  time : Emit.quoted "time" ∈ Go.imports ls ↔ ∃ f ∈ fields, Go.base f.type = "time.Time"
  types : Emit.quoted (Go.typesPath root) ∈ Go.imports ls ↔
    ∃ f ∈ fields, ∃ name, Go.qualified? GoType.typesPackage f.type = some name
  needed : ∀ path ∈ always, Emit.quoted path ∈ Go.imports ls
  only : ∀ entry ∈ Go.imports ls, entry ∈ (["time", Go.typesPath root] ++ always).map Emit.quoted
  group : "import (" ∈ ls ↔ Go.imports ls ≠ []

namespace Emit

variable {ls more paths always expressions : List String} {root path : String} {isInternal : Bool}
  {fields : List Go.Field} {known : List String} {p : Parameter} {params : List Parameter}

def Importing (paths ls : List String) : Prop :=
  ∃ before after, ls = before ++ (importBlock paths ++ after) ∧
    Each (Go.lead · ≠ some 'i') before ∧ Each (Go.lead · ≠ some 'i') after

theorem importing_importBlock (clear : Each (Go.lead · ≠ some 'i') ls) (paths : List String) :
    Importing paths (ls ++ importBlock paths) :=
  ⟨ls, [], by simp, clear, each_nil⟩

namespace Importing

theorem append (importing : Importing paths ls) (clear : Each (Go.lead · ≠ some 'i') more) :
    Importing paths (ls ++ more) := by
  obtain ⟨before, after, rfl, front, back⟩ := importing
  exact ⟨before, after ++ more, by simp, front, each_append.mpr ⟨back, clear⟩⟩

theorem imports_eq (importing : Importing paths ls) :
    Go.imports ls = paths.map quoted ∧ ("import (" ∈ ls ↔ Go.imports ls ≠ []) := by
  obtain ⟨before, after, rfl, front, back⟩ := importing
  cases paths with
  | nil =>
    -- No paths, no group: the parts around it have none either.
    have absent : "import (" ∉ before ++ after := (each_append.mpr ⟨front, back⟩).not_mem rfl
    have none_ : Go.imports (before ++ after) = [] := by simp [Go.imports, Go.enclosed_of_not_mem absent]
    have block : importBlock [] = [] := rfl
    rw [block, List.nil_append, none_]
    exact ⟨rfl, iff_of_false absent (not_not_intro rfl)⟩
  | cons path rest =>
    have block : importBlock (path :: rest) = [""] ++ parens "import" ((path :: rest).map quoted) := by
      simp [importBlock, apart, Go.parens_eq]
    have absent : "import" ++ " (" ∉ before ++ [""] := by
      apply Each.not_mem (c := 'i') _ rfl
      exact each_append.mpr ⟨front, by simp [Go.lead]⟩
    -- The group is the first one, and ends where its own parenthesis closes.
    have inner : Go.enclosed ("import" ++ " (") ")"
        (before ++ [""] ++ (parens "import" ((path :: rest).map quoted) ++ after)) =
          indent ((path :: rest).map quoted) := Go.enclosed_parens absent _
    have listed : Go.imports (before ++ [""] ++ (parens "import" ((path :: rest).map quoted) ++ after)) =
        (path :: rest).map quoted :=
      (congrArg (List.filterMap Go.imported?) inner).trans (Go.imported_indent _)
    have head : "import (" ∈ parens "import" ((path :: rest).map quoted) := by
      rw [Go.parens_eq]
      exact List.mem_cons_self
    rw [block, List.append_assoc, ← List.append_assoc before, listed]
    exact ⟨rfl, iff_of_true (List.mem_append_right _ (List.mem_append_left _ head)) (List.cons_ne_nil _ _)⟩

end Importing

theorem typesPath_ne_time (root : String) : Go.typesPath root ≠ "time" := by
  intro same
  have ends : "/types".toList <:+ "time".toList := by
    rw [← same, Go.typesPath, String.append_assoc, String.toList_append]
    exact List.suffix_append _ _
  exact absurd ends (by decide)

theorem typeImports_perm (isInternal : Bool) (root : String) (expressions : List String) :
    (Go.typeImports isInternal root expressions).Perm
      ((if expressions.any (Go.mentions "time.Time") then ["time"] else []) ++
        if !isInternal && expressions.any (Go.mentions (GoType.typesPackage ++ ".")) then
          [Go.typesPath root] else []) := by
  unfold Go.typeImports
  dsimp only
  split
  · exact List.perm_append_comm
  · exact List.Perm.refl _

theorem mem_typeImports : path ∈ Go.typeImports isInternal root expressions ↔
    (expressions.any (Go.mentions "time.Time") = true ∧ path = "time") ∨
      (isInternal = false ∧ expressions.any (Go.mentions (GoType.typesPackage ++ ".")) = true ∧
        path = Go.typesPath root) := by
  rw [(typeImports_perm _ _ _).mem_iff, List.mem_append, List.mem_ite_nil_right, List.mem_ite_nil_right,
    List.mem_singleton, List.mem_singleton, Bool.and_eq_true, Bool.not_eq_true', and_assoc]

theorem nodup_typeImports : (Go.typeImports isInternal root expressions).Nodup := by
  rw [(typeImports_perm _ _ _).nodup_iff]
  have apart := (typesPath_ne_time root).symm
  split <;> split <;> simp [apart]

theorem Importing.fit (importing : Importing (Go.typeImports isInternal root expressions ++ always) ls)
    (distinct : always.Nodup) (other : ∀ path ∈ always, path ≠ "time" ∧ path ≠ Go.typesPath root)
    (time : expressions.any (Go.mentions "time.Time") = true ↔ ∃ f ∈ fields, Go.base f.type = "time.Time")
    (types : isInternal = false ∧ expressions.any (Go.mentions (GoType.typesPackage ++ ".")) = true ↔
      ∃ f ∈ fields, ∃ name, Go.qualified? GoType.typesPackage f.type = some name) :
    Go.ImportsFit root always fields ls := by
  obtain ⟨listed, group⟩ := importing.imports_eq
  have member (path : String) : quoted path ∈ Go.imports ls ↔
      path ∈ Go.typeImports isInternal root expressions ∨ path ∈ always := by
    rw [listed, List.mem_map_of_injective fun _ _ => quoted_inj.mp, List.mem_append]
  -- The two paths that are searched for differ, so that each entry tells which search found it.
  have apart := typesPath_ne_time root
  refine ⟨?_, ?_, ?_, fun path needed => (member path).mpr (.inr needed), ?_, group⟩
  · rw [listed]
    refine List.Nodup.map (fun _ _ => quoted_inj.mp) (List.nodup_append.mpr ⟨nodup_typeImports, distinct, ?_⟩)
    rintro path found _ needed rfl
    obtain ⟨_, rfl⟩ | ⟨_, _, rfl⟩ := mem_typeImports.mp found
    · exact (other _ needed).1 rfl
    · exact (other _ needed).2 rfl
  · rw [member, mem_typeImports, ← time]
    have foreign : "time" ∉ always := fun needed => (other _ needed).1 rfl
    simp [foreign, apart.symm]
  · rw [member, mem_typeImports, ← types]
    have foreign : Go.typesPath root ∉ always := fun needed => (other _ needed).2 rfl
    simp [foreign, apart]
  · intro entry inside
    rw [listed] at inside
    obtain ⟨path, found, rfl⟩ := List.mem_map.mp inside
    refine List.mem_map_of_mem ?_
    rcases List.mem_append.mp found with found | needed
    · obtain ⟨_, rfl⟩ | ⟨_, _, rfl⟩ := mem_typeImports.mp found <;> simp
    · exact List.mem_append_right _ needed

variable {h : Handler} {t : CustomType} {spec : Spec}

theorem importing_handlerLines (kind : HandlerKind) (h : Handler) :
    Importing (handlerImports h) (handlerLines kind h) := by
  have types (name : String) (body : List String) : Each (Go.lead · ≠ some 'i') (structType name body) :=
    clear_structType (by decide) name body
  have methods := clear_method (by decide : 'i' ∉ ['f', '\t', '\x7d']) kind h
  have note {l : String} (own : Go.lead l = some '/') : Each (Go.lead · ≠ some 'i') ["", l] :=
    clear_note (by decide) own
  -- From the last part of the file to the first, none of which has a line that starts like an import.
  unfold handlerLines
  apply Importing.append _ (methods _ _)
  apply Importing.append _ (note (Go.lead_append (Go.lead_literal _ _) _))
  apply Importing.append _ (methods _ _)
  apply Importing.append _ (note (Go.lead_append (Go.lead_append (Go.lead_literal _ _) _) _))
  apply Importing.append _ (types _ _)
  apply Importing.append _ (note (by simp [Go.lead]))
  apply Importing.append _ (clear_constantBlock (by decide))
  apply Importing.append _ (types _ _)
  apply Importing.append _ (note (lead_outputNote kind h))
  apply Importing.append _ (types _ _)
  apply Importing.append _ (note (lead_inputNote kind h))
  apply importing_importBlock
  rw [each_cons, lead_generatedFrom]
  exact ⟨by decide, by simp [Go.lead]⟩

theorem importing_connectionLines (spec : Spec) :
    Importing (connectionImports spec) (connectionLines spec) := by
  have key : Each (Go.lead · ≠ some 'i')
      (braces "func (c *Data) Key() string" ["return " ++ spec.connectionKey]) :=
    (clear_braces (by decide)).mpr (lead_literal_append_ne (by decide))
  unfold connectionLines
  apply Importing.append _ (clear_keyHelper (by decide) spec)
  apply Importing.append _ key
  apply Importing.append _ (clear_note (by decide) (Go.lead_literal _ _))
  apply Importing.append _ (clear_constantBlock (by decide))
  apply Importing.append _ (clear_structType (by decide) _ _)
  apply Importing.append _ (clear_note (by decide) (lead_dataNote spec))
  apply importing_importBlock
  rw [each_cons, lead_generatedFrom]
  exact ⟨by decide, by simp [Go.lead]⟩

theorem importing_typeLines (t : CustomType) (spec : Spec) :
    Importing (typeImports t spec) (typeLines t spec) := by
  unfold typeLines
  apply Importing.append _ (clear_constantBlock (by decide))
  apply Importing.append _ (clear_structType (by decide) _ _)
  apply Importing.append _ (clear_note (by decide) (lead_typeNote t spec))
  apply importing_importBlock
  rw [each_cons, lead_generatedFrom]
  exact ⟨by decide, by simp [Go.lead]⟩

theorem base_declared (type : String) (p : Parameter) : Go.base (declared type p).type = Go.base type := by
  have pointed : Go.base (pointerMark p ++ type) = Go.base type := by
    rw [pointerMark]
    split
    · exact Go.base_pointer type
    · rw [String.empty_append]
  exact pointed

theorem qualified?_declared (package type : String) (p : Parameter) :
    Go.qualified? package (declared type p).type = Go.qualified? package type := by
  rw [Go.qualified?_eq_base, base_declared, ← Go.qualified?_eq_base]

theorem any_mentions_iff (derived : ∀ p ∈ params, p.Derived known) :
    ((params.map Parameter.type).any (Go.mentions "time.Time") = true ↔
        ∃ f ∈ params.map (fun p => declared p.type p), Go.base f.type = "time.Time") ∧
      ((params.map Parameter.type).any (Go.mentions (GoType.typesPackage ++ ".")) = true ↔
        ∃ f ∈ params.map (fun p => declared p.type p), ∃ name,
          Go.qualified? GoType.typesPackage f.type = some name) := by
  simp only [List.any_map, List.any_eq_true, List.mem_map, exists_exists_and_eq_and, Function.comp_apply,
    base_declared, qualified?_declared]
  constructor
  · exact exists_congr fun p => and_congr_right fun member => (derived p member).mentions_time.1
  · exact exists_congr fun p => and_congr_right fun member => (derived p member).mentions_types

theorem other_connection (root : String) :
    ∀ path ∈ [root ++ "/connection"], path ≠ "time" ∧ path ≠ Go.typesPath root := by
  have ends (text : String) (same : root ++ "/connection" = text) :
      "/connection".toList <:+ text.toList := by
    rw [← same, String.toList_append]
    exact List.suffix_append _ _
  intro path member
  rw [List.mem_singleton.mp member]
  refine ⟨fun same => absurd (ends _ same) (by decide), fun same => ?_⟩
  rw [Go.typesPath, String.append_assoc, String.append_right_inj] at same
  exact absurd same (by decide)

theorem importsFit_handlerLines (kind : HandlerKind) (derived : ∀ p ∈ h.parameters, p.Derived known) :
    Go.ImportsFit h.packageRoot [h.packageRoot ++ "/connection"]
      (Go.declaredFields (h.name ++ "Input") (handlerLines kind h) ++
        Go.declaredFields (h.name ++ kind.outputSuffix) (handlerLines kind h)) (handlerLines kind h) := by
  obtain ⟨input, output⟩ := declaredFields_handlerLines (h := h) kind fun p member =>
    ⟨(derived p member).isWord_name, not_mem_of_typeChars (derived p member).isTypeChar (by decide)⟩
  obtain ⟨time, types⟩ := any_mentions_iff derived
  rw [input, output, ← List.map_append]
  exact (importing_handlerLines kind h).fit (List.nodup_singleton _) (other_connection _) time
    ((and_iff_right rfl).trans types)

theorem importsFit_connectionLines (derived : ∀ p ∈ spec.connection.values, p.Derived known) :
    Go.ImportsFit spec.packageRoot [] (Go.declaredFields "Data" (connectionLines spec))
      (connectionLines spec) := by
  obtain ⟨time, types⟩ := any_mentions_iff derived
  have declarable : Declarable spec.connection.values := fun p member =>
    ⟨(derived p member).isWord_name, (derived p member).isTypeChar⟩
  have importing : Importing (connectionImports spec ++ []) (connectionLines spec) := by
    rw [List.append_nil]
    exact importing_connectionLines spec
  rw [declaredFields_connectionLines declarable]
  exact importing.fit List.nodup_nil (fun _ => nofun) time ((and_iff_right rfl).trans types)

theorem base_declaredMember (p : Parameter) :
    Go.base (declaredMember p).type = Go.base p.internalType := by
  rw [declaredMember]
  split
  · rfl
  · exact base_declared _ p

theorem importsFit_typeLines (spec : Spec) (derived : ∀ p ∈ t.sortedFields, p.Derived known) :
    Go.ImportsFit spec.packageRoot [] (Go.declaredMembers t.name (typeLines t spec)) (typeLines t spec) ∧
      ∀ f ∈ Go.declaredMembers t.name (typeLines t spec), Go.qualified? GoType.typesPackage f.type = none := by
  have members := declaredMembers_typeLines (t := t) spec fun p member =>
    ⟨(derived p member).isWord_name, not_mem_of_typeChars (derived p member).isTypeChar_internal (by decide)⟩
  -- A type as seen from its own package mentions no package.
  have bare : ∀ f ∈ t.sortedFields.map declaredMember,
      Go.qualified? GoType.typesPackage f.type = none := by
    intro f member
    obtain ⟨p, inside, rfl⟩ := List.mem_map.mp member
    rw [Go.qualified?_eq_base, base_declaredMember, ← Go.qualified?_eq_base, ← Option.not_isSome_iff_eq_none,
      Option.isSome_iff_exists]
    rintro ⟨name, qualified⟩
    have found := Go.mentions_of_qualified qualified
    rw [(derived p inside).mentions_types_internal] at found
    cases found
  have importing : Importing (typeImports t spec ++ []) (typeLines t spec) := by
    rw [List.append_nil]
    exact importing_typeLines t spec
  have time : (t.sortedFields.map Parameter.internalType).any (Go.mentions "time.Time") = true ↔
      ∃ f ∈ t.sortedFields.map declaredMember, Go.base f.type = "time.Time" := by
    simp only [List.any_map, List.any_eq_true, List.mem_map, exists_exists_and_eq_and, Function.comp_apply,
      base_declaredMember]
    exact exists_congr fun p => and_congr_right fun member => (derived p member).mentions_time.2
  rw [members]
  refine ⟨importing.fit List.nodup_nil (fun _ => nofun) time (iff_of_false (fun found => nomatch found.1) ?_),
    bare⟩
  rintro ⟨f, member, name, qualified⟩
  rw [bare f member] at qualified
  cases qualified

end Emit

end PluginCompiler
