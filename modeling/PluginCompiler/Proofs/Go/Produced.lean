import PluginCompiler.Proofs.Go.Expression

/-! Expressions that tokens resolve to, beside those that are mapped back to a token. All of the former
are mapped back. So is the identifier of every declared name, even of one that no token can end with. -/

set_option autoImplicit false

namespace PluginCompiler

namespace Go.GoType

open Text (trim)

variable {known : List String} {expression name twin : String} {depth : Nat} {isInternal : Bool}

def Produced (known : List String) (expression : String) : Prop :=
  ∃ token isInternal, ∀ entity, resolveType known entity isInternal token = .ok expression

/-- A name that can stand for a custom type in a token, after a number of signs of lists. Signs at its
start would count as more of them, and a sign needs something after it. -/
structure Writable (depth : Nat) (name : String) : Prop where
  trimmed : trim name = name
  unsigned : ∀ rest, name ≠ "[]" ++ rest
  custom : name ∉ primitiveNames
  filled : depth = 0 ∨ name ≠ ""

theorem Produced.of_primitive (p : Primitive) (depth : Nat) :
    Produced known (signs depth ++ p.expression) :=
  have peels : Peels (signs depth ++ p.token) depth p.token :=
    (bare_primitive p).peels (.inr (primitive_token_ne_empty p))
  ⟨_, false, fun _ => resolveType_of_primitive peels (mem_tokens_primitive p)⟩

theorem Writable.produced (writable : Writable depth name) (declared : name ∈ known)
    (isInternal : Bool) :
    Produced known (signs depth ++ (GoType.custom name).expression isInternal) := by
  have bare : Bare name := ⟨writable.trimmed, fun rest same => absurd same (writable.unsigned rest)⟩
  have word : name ≠ "[]" := fun same => writable.unsigned "" same
  have named := ofName?_of_custom writable.custom word declared
  exact ⟨_, isInternal, fun _ => resolveType_of_name (bare.peels writable.filled) named⟩

theorem Peels.writable {token : String} (peels : Peels token depth name) (word : name ≠ "[]")
    (other : name ∉ primitiveNames) : Writable depth name where
  trimmed := peels.bare_base.trimmed
  unsigned rest same := word (by rw [same, peels.bare_base.last rest same, String.append_empty])
  custom := other
  filled := peels.filled

theorem Produced.cases (produced : Produced known expression) :
    ∃ depth, (∃ p : Primitive, expression = signs depth ++ p.expression) ∨
      ∃ name ∈ known, Writable depth name ∧
        ∃ isInternal, expression = signs depth ++ (GoType.custom name).expression isInternal := by
  obtain ⟨token, isInternal, resolved⟩ := produced
  obtain ⟨depth, base, peels⟩ := exists_peels token
  have named : Names known base := (exists_resolveType_iff peels).mp ⟨_, resolved ""⟩
  refine ⟨depth, ?_⟩
  by_cases primitive : base ∈ primitiveNames
  · obtain ⟨⟨base, p⟩, entry, rfl⟩ := List.mem_map.mp primitive
    have same := (resolved "").symm.trans (resolveType_of_primitive peels entry)
    exact .inl ⟨p, Except.ok.inj same⟩
  · have declared := named.2.resolve_left primitive
    have custom := ofName?_of_custom primitive named.1 declared
    have same := (resolved "").symm.trans (resolveType_of_name peels custom)
    exact .inr ⟨base, declared, peels.writable named.1 primitive, isInternal, Except.ok.inj same⟩

theorem token?_signs_ne_none (inner : token? known expression ≠ none) (other : expression ≠ "byte")
    (depth : Nat) : token? known (signs depth ++ expression) ≠ none := by
  rwa [token?_signs_append other, ne_eq, Option.map_eq_none_iff]

theorem token?_custom_ne_none (declared : name ∈ known) (isInternal : Bool) :
    token? known ((custom name).expression isInternal) ≠ none := by
  rw [token?_custom, ne_eq, List.find?_eq_none]
  intro missing
  have own := missing name (List.mem_reverse.mpr declared)
  simp at own

theorem eq_of_ofExpression? {p : Primitive} (found : Primitive.ofExpression? expression = some p) :
    expression = p.expression := by
  rw [Primitive.ofExpression?] at found
  have entry := List.find?_some found
  exact (beq_iff_eq.mp entry).symm

theorem customToken?_eq_some {cs : List Char} (found : customToken? known cs = some name) :
    name ∈ known ∧ ∃ isInternal, String.ofList cs = (custom name).expression isInternal := by
  rw [customToken?] at found
  have declared := List.mem_reverse.mp (List.mem_of_find?_eq_some found)
  have entry := List.find?_some found
  rw [beq_iff_eq] at entry
  refine ⟨declared, ?_⟩
  cases dropped : (typesPackage ++ ".").toList.isPrefixOf? cs with
  | none =>
    rw [dropped, Option.getD_none] at entry
    exact ⟨true, by rw [GoType.expression, if_pos rfl, Naming.upperCamel, entry]⟩
  | some rest =>
    rw [dropped, Option.getD_some] at entry
    refine ⟨false, ?_⟩
    rw [GoType.expression, if_neg Bool.false_ne_true, Naming.upperCamel, entry,
      Text.isPrefixOf?_eq_some.mp dropped, String.ofList_append, String.ofList_toList]

theorem tokenChars?_cases {cs : List Char} (mapped : tokenChars? known cs ≠ none) :
    ∃ depth, (∃ p : Primitive, String.ofList cs = signs depth ++ p.expression) ∨
      ∃ name ∈ known, ∃ isInternal,
        String.ofList cs = signs depth ++ (custom name).expression isInternal := by
  have zero (s : String) : s = signs 0 ++ s := by simp [signs]
  fun_induction tokenChars? known cs with
  | case1 rest p found => exact ⟨0, .inl ⟨p, (eq_of_ofExpression? found).trans (zero _)⟩⟩
  | case2 rest absent ih =>
    have sign : String.ofList ('[' :: ']' :: rest) = "[]" ++ String.ofList rest := by
      apply String.toList_inj.mp
      simp
    rw [ne_eq, Option.map_eq_none_iff] at mapped
    obtain ⟨depth, inner⟩ := ih mapped
    refine ⟨depth + 1, ?_⟩
    rw [sign, signs_succ]
    rcases inner with ⟨p, same⟩ | ⟨name, declared, isInternal, same⟩
    · exact .inl ⟨p, by rw [same, String.append_assoc]⟩
    · exact .inr ⟨name, declared, isInternal, by rw [same, String.append_assoc]⟩
  | case3 cs _ p found => exact ⟨0, .inl ⟨p, (eq_of_ofExpression? found).trans (zero _)⟩⟩
  | case4 cs _ absent =>
    obtain ⟨name, found⟩ := Option.ne_none_iff_exists'.mp mapped
    obtain ⟨declared, isInternal, same⟩ := customToken?_eq_some found
    exact ⟨0, .inr ⟨name, declared, isInternal, same.trans (zero _)⟩⟩

theorem length_signs (depth : Nat) : (signs depth).length = 2 * depth := by
  induction depth with
  | zero => rfl
  | succ depth ih =>
    rw [signs_succ, String.length_append, ih]
    show 2 + 2 * depth = 2 * (depth + 1)
    omega

theorem eq_of_signs_custom {m n : Nat} {i j : Bool}
    (same : signs m ++ (custom name).expression i = signs n ++ (custom twin).expression j) :
    m = n ∧ Naming.upperCamel twin = Naming.upperCamel name := by
  -- Of the two names only one is declared, so that it is what both are mapped back to.
  have mapped := congrArg (token? [twin]) same
  rw [token?_signs_append custom_ne_byte, token?_signs_append custom_ne_byte,
    token?_custom_of_injective (List.mem_singleton.mpr rfl) (by simp), Option.map_some,
    Option.map_eq_some_iff] at mapped
  obtain ⟨other, found, tokens⟩ := mapped
  rw [token?_custom] at found
  have declared := List.mem_reverse.mp (List.mem_of_find?_eq_some found)
  obtain rfl := List.mem_singleton.mp declared
  have alike := List.find?_some found
  have lengths := congrArg String.length tokens
  rw [String.length_append, String.length_append, length_signs, length_signs] at lengths
  refine ⟨by omega, ?_⟩
  rw [Naming.upperCamel, Naming.upperCamel, beq_iff_eq.mp alike]

theorem signs_primitive_ne (p : Primitive) (m n : Nat) :
    signs m ++ p.expression ≠ signs n ++ (custom name).expression isInternal := by
  -- Where nothing is declared, only primitive types are mapped back.
  intro same
  have mapped := congrArg (token? []) same
  rw [token?_signs_append (primitive_ne_byte p), token?_signs_append custom_ne_byte, token?_primitive,
    token?_custom] at mapped
  cases mapped

theorem produced_custom_iff :
    Produced known (signs depth ++ (custom name).expression isInternal) ↔
      ∃ twin ∈ known, Writable depth twin ∧ Naming.upperCamel twin = Naming.upperCamel name := by
  constructor
  · intro produced
    obtain ⟨depth', ⟨p, same⟩ | ⟨twin, declared, writable, isInternal', same⟩⟩ := produced.cases
    · exact absurd same.symm (signs_primitive_ne p depth' depth)
    · obtain ⟨rfl, alike⟩ := eq_of_signs_custom same
      exact ⟨twin, declared, writable, alike⟩
  · rintro ⟨twin, declared, writable, alike⟩
    have same : (custom twin).expression isInternal = (custom name).expression isInternal := by
      rw [expression, expression, alike]
    exact same ▸ writable.produced declared isInternal

theorem mapped_back_of_produced (produced : Produced known expression) :
    token? known expression ≠ none := by
  obtain ⟨depth, ⟨p, rfl⟩ | ⟨name, declared, _, isInternal, rfl⟩⟩ := produced.cases
  · refine token?_signs_ne_none ?_ (primitive_ne_byte p) depth
    rw [token?_primitive]
    exact Option.some_ne_none _
  · exact token?_signs_ne_none (token?_custom_ne_none declared isInternal) custom_ne_byte depth

theorem qualified_eq (name : String) :
    "types." ++ Naming.upperCamel name = signs 0 ++ (custom name).expression false := by
  rw [expression, if_neg Bool.false_ne_true]
  simp [signs, typesPackage]

end Go.GoType

open Go Go.GoType

/-- Whatever a token resolves to is mapped back. The converse fails exactly for lists of types under the
identifier of a declared name, if no declared name with this identifier can be written in a token. -/
theorem mapped_back_produced_iff (known : List String) (expression : String) :
    (Produced known expression → token? known expression ≠ none) ∧
    ((token? known expression ≠ none → Produced known expression) ↔
      ∀ depth isInternal, ∀ name ∈ known,
        expression = signs depth ++ (GoType.custom name).expression isInternal →
          ∃ twin ∈ known, Writable depth twin ∧ Naming.upperCamel twin = Naming.upperCamel name) ∧
    ∀ name ∈ known, token? known ("types." ++ Naming.upperCamel name) ≠ none ∧
      (Produced known ("types." ++ Naming.upperCamel name) ↔
        ∃ twin ∈ known, Writable 0 twin ∧ Naming.upperCamel twin = Naming.upperCamel name) := by
  refine ⟨mapped_back_of_produced, ⟨?_, ?_⟩, fun name declared => ?_⟩
  · rintro only depth isInternal name declared rfl
    have mapped := token?_signs_ne_none (token?_custom_ne_none declared isInternal) custom_ne_byte depth
    exact produced_custom_iff.mp (only mapped)
  · intro twins mapped
    obtain ⟨depth, ⟨p, same⟩ | ⟨name, declared, isInternal, same⟩⟩ := tokenChars?_cases mapped
    · rw [String.ofList_toList] at same
      exact same ▸ .of_primitive p depth
    · rw [String.ofList_toList] at same
      exact same ▸ produced_custom_iff.mpr (twins depth isInternal name declared same)
  · rw [qualified_eq]
    exact ⟨token?_signs_ne_none (token?_custom_ne_none declared false) custom_ne_byte 0,
      produced_custom_iff⟩

/-- The name of a primitive type cannot be written for a custom one, while a name without letters can. -/
theorem mapped_back_produced_iff_irregular :
    ("string" ∈ irregularNames ∧ "_" ∈ irregularNames) ∧
    (token? irregularNames "types.String" ≠ none ∧ ¬ Produced irregularNames "types.String") ∧
    token? irregularNames "types." ≠ none ∧ Produced irregularNames "types." := by
  have primitive : "string" ∈ irregularNames := by decide
  have letterless : "_" ∈ irregularNames := by decide
  obtain ⟨_, _, names⟩ := mapped_back_produced_iff irregularNames "types.String"
  have string := names "string" primitive
  have blank := names "_" letterless
  refine ⟨⟨primitive, letterless⟩, ⟨string.1, fun produced => ?_⟩, blank.1, blank.2.mpr ?_⟩
  · obtain ⟨twin, declared, writable, alike⟩ := string.2.mp produced
    have only : ∀ twin ∈ irregularNames,
        Naming.upperCamel twin = Naming.upperCamel "string" → twin ∈ primitiveNames := by decide
    exact writable.custom (only twin declared alike)
  · refine ⟨"_", letterless, ⟨rfl, fun rest same => ?_, by decide, .inl rfl⟩, rfl⟩
    have chars := congrArg String.toList same
    rw [toList_sign_append] at chars
    cases chars

theorem not_mapped_back_produced :
    ¬ ∀ known expression, token? known expression ≠ none → Produced known expression := by
  intro only
  have same : "types.String" = signs 0 ++ (GoType.custom "string").expression false := by decide
  have produced := only ["string"] "types.String" (by decide)
  rw [same, produced_custom_iff] at produced
  obtain ⟨twin, declared, writable, _⟩ := produced
  obtain rfl := List.mem_singleton.mp declared
  exact writable.custom (by decide)

end PluginCompiler
