import Mathlib.Data.List.TakeWhile
import PluginCompiler.Proofs.Go.Token
import PluginCompiler.Proofs.Naming

/-! Expressions of types and the tokens they are mapped back to. An expression that some token resolves
to is mapped back to a token that resolves to it again. -/

set_option autoImplicit false

namespace PluginCompiler

namespace Go.GoType

open Text (isBlank trim trimBy trimRight)

variable {known : List String} {base rest expression name : String} {depth : Nat}

/-- A text that is left of a token after its signs of lists. -/
structure Bare (base : String) : Prop where
  trimmed : trim base = base
  last : ∀ rest, base = "[]" ++ rest → rest = ""

theorem trim_trim (s : String) : trim (trim s) = trim s := by
  apply String.toList_inj.mp
  rw [Text.toList_trim, Text.toList_trim]
  exact Text.trimBy_eq_self (Text.trimRight_trimBy _) fun c => Text.head_trimBy

theorem Peels.bare_base {token : String} (peels : Peels token depth base) : Bare base := by
  induction peels with
  | bare last => exact ⟨trim_trim _, last⟩
  | sign _ _ _ ih => exact ih

theorem trim_ne_empty (trimmed : trimRight isBlank rest.toList = rest.toList) (more : rest ≠ "") :
    trim rest ≠ "" := by
  intro empty
  have chars : trimBy isBlank rest.toList = [] := by rw [← Text.toList_trim, empty]; rfl
  rw [trimBy, ← Text.dropWhile_trimRight, trimmed, List.dropWhile_eq_nil_iff] at chars
  rw [Text.trimRight_eq_rdropWhile, List.rdropWhile_eq_nil_iff.mpr chars] at trimmed
  exact more (String.toList_eq_nil_iff.mp trimmed.symm)

theorem Peels.filled {token : String} (peels : Peels token depth base) : depth = 0 ∨ base ≠ "" := by
  induction peels with
  | bare => exact .inl rfl
  | sign first more inner ih =>
    right
    cases inner with
    | bare => exact trim_ne_empty (trimmed_of_sign first) more
    | sign => exact ih.resolve_left (Nat.succ_ne_zero _)

theorem trim_sign (trimmed : trim rest = rest) : trim ("[]" ++ rest) = "[]" ++ rest := by
  apply String.toList_inj.mp
  have chars : trimRight isBlank rest.toList = rest.toList := by
    rw [← trimmed, Text.toList_trim, Text.trimRight_trimBy]
  rw [Text.toList_trim, toList_sign_append]
  apply Text.trimBy_eq_self
  · rw [Text.trimRight_cons_of_not (by decide), Text.trimRight_cons_of_not (by decide), chars]
  · rintro c ⟨⟩
    decide

theorem trim_signs_append (trimmed : trim base = base) (depth : Nat) :
    trim (signs depth ++ base) = signs depth ++ base := by
  induction depth with
  | zero => simpa [signs] using trimmed
  | succ depth ih => rw [signs_succ, String.append_assoc, trim_sign ih]

theorem Bare.peels (bare : Bare base) (filled : depth = 0 ∨ base ≠ "") :
    Peels (signs depth ++ base) depth base := by
  induction depth with
  | zero =>
    have peels : Peels base 0 (trim base) := .bare fun rest same => bare.last rest (bare.trimmed ▸ same)
    simpa [signs, bare.trimmed] using peels
  | succ depth ih =>
    have more : base ≠ "" := filled.resolve_left (Nat.succ_ne_zero depth)
    have first := trim_signs_append bare.trimmed (depth + 1)
    rw [signs_succ, String.append_assoc] at first ⊢
    exact .sign first (fun empty => more (String.append_eq_empty_iff.mp empty).2) (ih (.inr more))

def token : GoType → String
  | primitive p => p.token
  | custom name => name
  | list item => "[]" ++ item.token

theorem token?_primitive (p : Primitive) : token? known p.expression = some p.token := by
  cases p <;> rfl

theorem ofExpression?_eq_none {cs : List Char} (other : ∀ p : Primitive, p.expression.toList ≠ cs) :
    Primitive.ofExpression? (String.ofList cs) = none := by
  rw [Primitive.ofExpression?, List.find?_eq_none]
  intro p _ same
  exact other p (by rw [beq_iff_eq.mp same, String.toList_ofList])

theorem token?_sign (other : expression ≠ "byte") :
    token? known ("[]" ++ expression) = (token? known expression).map ("[]" ++ ·) := by
  have absent : Primitive.ofExpression? (String.ofList ('[' :: ']' :: expression.toList)) = none := by
    apply ofExpression?_eq_none
    rintro p same
    -- Of the primitive types only that of bytes is written with a sign.
    cases p with
    | bytes => exact other (String.toList_inj.mp (List.cons.inj (List.cons.inj same).2).2.symm)
    | _ => cases same
  rw [token?, toList_sign_append, tokenChars?, absent, token?]

theorem token?_signs_append (other : expression ≠ "byte") (depth : Nat) :
    token? known (signs depth ++ expression) = (token? known expression).map (signs depth ++ ·) := by
  induction depth with
  | zero => simp [signs]
  | succ depth ih =>
    have apart : signs depth ++ expression ≠ "byte" := by
      cases depth with
      | zero => simpa [signs] using other
      | succ depth =>
        intro same
        have chars := congrArg String.toList same
        rw [signs_succ, String.append_assoc, toList_sign_append] at chars
        cases chars
    rw [signs_succ, String.append_assoc, token?_sign apart, ih, Option.map_map]
    simp only [Function.comp_def, String.append_assoc]

theorem token?_signs {t : String} (other : expression ≠ "byte")
    (inner : token? known expression = some t) (depth : Nat) :
    token? known (signs depth ++ expression) = some (signs depth ++ t) := by
  rw [token?_signs_append other, inner, Option.map_some]

theorem customToken?_eq {cs : List Char} (identifier : List Char)
    (same : ((typesPackage ++ ".").toList.isPrefixOf? cs).getD cs = identifier) :
    customToken? known cs =
      known.reverse.find? fun other => Naming.camelChars other.toList == identifier := by
  rw [customToken?, same]

theorem tokenChars?_eq_customToken? {cs : List Char} (start : ∀ rest, cs ≠ '[' :: ']' :: rest)
    (other : ∀ p : Primitive, p.expression.toList ≠ cs) :
    tokenChars? known cs = customToken? known cs := by
  rw [tokenChars?, ofExpression?_eq_none other]
  exact start

/-- What stands for a custom type is neither a list nor a primitive type. It is taken for the type's
identifier, whether that is qualified or not. -/
theorem token?_custom (known : List String) (name : String) (isInternal : Bool) :
    token? known ((custom name).expression isInternal) = known.reverse.find? fun other =>
      Naming.camelChars other.toList == Naming.camelChars name.toList := by
  cases isInternal with
  | false =>
    rw [expression, if_neg Bool.false_ne_true, token?, String.toList_append, Naming.toList_upperCamel,
      tokenChars?_eq_customToken?]
    · exact customToken?_eq _ (by rw [Text.isPrefixOf?_append, Option.getD_some])
    · intro rest same
      cases same
    · intro p same
      cases p <;> cases same
  | true =>
    -- A name starts with a capital or a digit, which none of the other forms of a type does.
    have start (c : Char) (rest : List Char) (same : Naming.camelChars name.toList = c :: rest) :
        Naming.isStart c = true := Naming.isStart_of_head (by rw [same]; rfl)
    rw [expression, if_pos rfl, token?, Naming.toList_upperCamel, tokenChars?_eq_customToken?]
    · apply customToken?_eq
      cases chars : Naming.camelChars name.toList with
      | nil => rfl
      | cons c rest =>
        have small : ¬ 't' = c := by
          rintro rfl
          exact absurd (start _ _ chars) (by decide)
        have unqualified : (typesPackage ++ ".").toList.isPrefixOf? (c :: rest) = none := by
          simp [typesPackage, List.isPrefixOf?, small]
        rw [unqualified, Option.getD_none]
    · intro rest same
      exact absurd (start _ _ same) (by decide)
    · intro p same
      cases p <;> exact absurd (start _ _ same.symm) (by decide)

theorem token?_custom_of_injective (declared : name ∈ known)
    (injective : ∀ other ∈ known, Naming.upperCamel other = Naming.upperCamel name → other = name)
    (isInternal : Bool) : token? known ((custom name).expression isInternal) = some name := by
  rw [token?_custom]
  cases found : known.reverse.find? fun other =>
      Naming.camelChars other.toList == Naming.camelChars name.toList with
  | none =>
    have missing := List.find?_eq_none.mp found name (List.mem_reverse.mpr declared)
    simp at missing
  | some other =>
    have member := List.mem_reverse.mp (List.mem_of_find?_eq_some found)
    have entry := List.find?_some found
    have chars : Naming.camelChars other.toList = Naming.camelChars name.toList := beq_iff_eq.mp entry
    rw [injective other member (by rw [Naming.upperCamel, Naming.upperCamel, chars])]

def isTypeChar (c : Char) : Bool := Naming.isWordChar c || "[].\x7b\x7d".toList.contains c

variable {t : GoType} {isInternal : Bool}

theorem isTypeChar_of_mem_expression : ∀ c ∈ (t.expression isInternal).toList, isTypeChar c = true := by
  have word (name : String) : ∀ c ∈ (Naming.upperCamel name).toList, isTypeChar c = true := by
    intro c member
    rw [isTypeChar, Naming.isWord_upperCamel name c member, Bool.true_or]
  induction t with
  | primitive p =>
    rw [expression, ← List.all_eq_true]
    cases p <;> rfl
  | custom name =>
    rw [expression]
    split
    · exact word name
    · have package : (typesPackage ++ ".").toList.all isTypeChar = true := rfl
      rw [String.toList_append, List.forall_mem_append]
      exact ⟨List.all_eq_true.mp package, word name⟩
  | list item ih =>
    have sign : "[]".toList.all isTypeChar = true := rfl
    rw [expression, String.toList_append, List.forall_mem_append]
    exact ⟨List.all_eq_true.mp sign, ih⟩

theorem ofName?_cases (named : ofName? known name = some t) :
    (∃ p, t = primitive p) ∨ t = custom name ∧ name ∈ known := by
  rw [ofName?] at named
  split at named
  · next p _ => exact .inl ⟨p, (Option.some.inj named).symm⟩
  · split at named
    · next declared => exact .inr ⟨(Option.some.inj named).symm, declared.2⟩
    · cases named

theorem bare_primitive (p : Primitive) : Bare p.token where
  trimmed := by cases p <;> rfl
  last rest same := by
    have chars := congrArg String.toList same
    rw [toList_sign_append] at chars
    cases p <;> cases chars

theorem primitive_token_ne_empty (p : Primitive) : p.token ≠ "" := by
  cases p <;> decide

theorem mem_tokens_primitive (p : Primitive) : (p.token, p) ∈ Primitive.tokens := by
  cases p <;> decide

theorem ofName?_token (named : ofName? known name = some t) (bare : Bare name)
    (filled : depth = 0 ∨ name ≠ "") :
    ofName? known t.token = some t ∧ Bare t.token ∧ (depth = 0 ∨ t.token ≠ "") := by
  obtain ⟨p, rfl⟩ | ⟨rfl, _⟩ := ofName?_cases named
  · exact ⟨ofName?_of_primitive (mem_tokens_primitive p), bare_primitive p,
      .inr (primitive_token_ne_empty p)⟩
  · exact ⟨named, bare, filled⟩

theorem token?_expression (named : ofName? known name = some t)
    (injective : ∀ name ∈ known, ∀ other ∈ known,
      Naming.upperCamel name = Naming.upperCamel other → name = other) :
    token? known (t.expression isInternal) = some t.token := by
  obtain ⟨p, rfl⟩ | ⟨rfl, declared⟩ := ofName?_cases named
  · exact token?_primitive p
  · exact token?_custom_of_injective declared (fun other member => injective other member name declared) _

theorem primitive_ne_byte (p : Primitive) : p.expression ≠ "byte" := by
  cases p <;> decide

theorem custom_ne_byte : (custom name).expression isInternal ≠ "byte" := by
  intro same
  have chars := congrArg String.toList same
  cases isInternal with
  | false =>
    rw [expression, if_neg Bool.false_ne_true, String.toList_append] at chars
    cases chars
  | true =>
    rw [expression, if_pos rfl, Naming.toList_upperCamel] at chars
    exact absurd (Naming.isStart_of_head (congrArg List.head? chars)) (by decide)

theorem expression_ne_byte (named : ofName? known name = some t) :
    t.expression isInternal ≠ "byte" := by
  obtain ⟨p, rfl⟩ | ⟨rfl, _⟩ := ofName?_cases named
  · exact primitive_ne_byte p
  · exact custom_ne_byte

end Go.GoType

open Go Go.GoType

theorem isTypeChar_of_resolveType {known : List String} {entity token type : String} {isInternal : Bool}
    (resolved : resolveType known entity isInternal token = .ok type) :
    ∀ c ∈ type.toList, isTypeChar c = true := by
  rw [resolveType] at resolved
  split at resolved
  · cases resolved
  · cases resolved
    exact isTypeChar_of_mem_expression

/-- If the declared names have different identifiers, an expression that some token resolves to is
mapped back to a token, and that one resolves to the expression again. -/
theorem resolveType_mapped_back {known : List String} {entity token expression : String}
    {isInternal : Bool}
    (injective : ∀ name ∈ known, ∀ other ∈ known,
      Naming.upperCamel name = Naming.upperCamel other → name = other)
    (resolved : resolveType known entity isInternal token = .ok expression) :
    ∃ token', token? known expression = some token' ∧
      ∀ entity', resolveType known entity' isInternal token' = .ok expression := by
  obtain ⟨depth, base, peels⟩ := exists_peels token
  obtain ⟨t, named⟩ := ((exists_resolveType_iff peels).mp ⟨_, resolved⟩).ofName?_eq
  rw [resolveType_of_name peels named] at resolved
  cases resolved
  obtain ⟨again, bare, filled⟩ := ofName?_token named peels.bare_base peels.filled
  exact ⟨signs depth ++ t.token,
    token?_signs (expression_ne_byte named) (token?_expression named injective) depth,
    fun entity' => resolveType_of_name (bare.peels filled) again⟩

/-- Declared names of which one is that of a primitive type, two can be written in no token, and one
has no letters for an identifier. -/
def irregularNames : List String := ["string", "[]row", " a b", "_"]

theorem resolveType_mapped_back_irregular :
    (resolveType irregularNames "connection.rows" true "[] [] _ " = .ok "[][]" ∧
      ∃ token', token? irregularNames "[][]" = some token' ∧
        ∀ entity', resolveType irregularNames entity' true token' = .ok "[][]") ∧
    (resolveType irregularNames "connection.rows" false " []file" = .ok "[][]byte" ∧
      ∃ token', token? irregularNames "[][]byte" = some token' ∧
        ∀ entity', resolveType irregularNames entity' false token' = .ok "[][]byte") := by
  have injective : ∀ name ∈ irregularNames, ∀ other ∈ irregularNames,
      Naming.upperCamel name = Naming.upperCamel other → name = other := by decide
  have rows : resolveType irregularNames "connection.rows" true "[] [] _ " = .ok "[][]" := rfl
  have files : resolveType irregularNames "connection.rows" false " []file" = .ok "[][]byte" := rfl
  exact ⟨⟨rows, resolveType_mapped_back injective rows⟩, files, resolveType_mapped_back injective files⟩

end PluginCompiler
