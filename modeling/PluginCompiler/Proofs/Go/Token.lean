import Mathlib.Data.List.Basic
import PluginCompiler.Proofs.Text.Characters
import PluginCompiler.Spec.Enrich

/-! Tokens of types. A token is resolved by what is left of it after its signs of lists: that has a type
or is reported, and the signs come back before the expression of its type. -/

set_option autoImplicit false

namespace PluginCompiler

namespace Go.GoType

open Text (isBlank trim trimBy trimRight)

/-- `base` is what is left of a token after `depth` signs of lists. Blanks around what is left do not
count at any point, and a sign is taken off only if something is left after it. -/
inductive Peels : String → Nat → String → Prop where
  | bare {token : String} (last : ∀ rest, trim token = "[]" ++ rest → rest = "") :
      Peels token 0 (trim token)
  | sign {token rest base : String} {depth : Nat} (first : trim token = "[]" ++ rest)
      (more : rest ≠ "") (inner : Peels rest depth base) : Peels token (depth + 1) base

theorem toList_sign_append (rest : String) : ("[]" ++ rest).toList = '[' :: ']' :: rest.toList := by
  simp

theorem peel_cons_of_blank {c : Char} (blank : isBlank c = true) (cs : List Char) :
    peel (c :: cs) = peel cs := by
  cases cs with
  | nil => simp [peel, blank]
  | cons d rest => rw [peel, if_pos blank]

theorem peel_dropWhile (cs : List Char) : peel (cs.dropWhile isBlank) = peel cs := by
  induction cs with
  | nil => rfl
  | cons c cs ih =>
    by_cases blank : isBlank c = true
    · rw [List.dropWhile_cons_of_pos blank, ih, peel_cons_of_blank blank]
    · rw [List.dropWhile_cons_of_neg blank]

theorem peel_trimRight (cs : List Char) : peel (trimRight isBlank cs) = peel (trimBy isBlank cs) := by
  rw [trimBy, ← Text.dropWhile_trimRight, peel_dropWhile]

theorem peel_of_bare {cs : List Char} (start : ∀ c, cs.head? = some c → isBlank c = false)
    (last : ∀ rest, cs = '[' :: ']' :: rest → rest = []) : peel cs = (0, cs) := by
  match cs with
  | [] => rfl
  | [c] => simp [peel, start c rfl]
  | c :: d :: rest =>
    have single : ¬ (c = '[' ∧ d = ']' ∧ rest ≠ []) := by
      rintro ⟨rfl, rfl, more⟩
      exact more (last rest rfl)
    rw [peel, if_neg (by simp [start c rfl]), if_neg single]

theorem peel_sign {rest : List Char} (more : rest ≠ []) :
    peel ('[' :: ']' :: rest) = ((peel rest).1 + 1, (peel rest).2) := by
  rw [peel, if_neg (by decide), if_pos ⟨rfl, rfl, more⟩]

variable {token base rest : String} {depth : Nat}

theorem trimmed_of_sign (first : trim token = "[]" ++ rest) :
    trimRight isBlank rest.toList = rest.toList := by
  have trimmed := Text.trimRight_trimBy (p := isBlank) token.toList
  rw [← Text.toList_trim, first, toList_sign_append] at trimmed
  exact Text.trimRight_eq_self_of_cons (Text.trimRight_eq_self_of_cons trimmed)

theorem Peels.peel_eq (peels : Peels token depth base) :
    peel (trimRight isBlank token.toList) = (depth, base.toList) := by
  induction peels with
  | @bare token last =>
    rw [peel_trimRight, Text.toList_trim]
    apply peel_of_bare (fun c => Text.head_trimBy)
    intro rest same
    have sign : trim token = "[]" ++ String.ofList rest := by
      apply String.toList_inj.mp
      rw [Text.toList_trim, same, toList_sign_append, String.toList_ofList]
    simpa using last _ sign
  | @sign token rest base depth first more inner ih =>
    have chars : trimBy isBlank token.toList = '[' :: ']' :: rest.toList := by
      rw [← Text.toList_trim, first, toList_sign_append]
    -- The end is trimmed once: what is left after a sign ends as the token does.
    rw [trimmed_of_sign first] at ih
    rw [peel_trimRight, chars, peel_sign (by simpa using more), ih]

theorem exists_peels (token : String) : ∃ depth base, Peels token depth base := by
  -- A token gets shorter with every sign that is taken off.
  induction size : token.length using Nat.strongRecOn generalizing token with
  | ind n ih =>
    by_cases bare : ∀ rest, trim token = "[]" ++ rest → rest = ""
    · exact ⟨0, trim token, .bare bare⟩
    · push Not at bare
      obtain ⟨rest, first, more⟩ := bare
      have shorter : rest.length < n := by
        have total := Text.length_trimBy_le (p := isBlank) token.toList
        rw [← Text.toList_trim, first, toList_sign_append] at total
        simp only [List.length_cons, String.length_toList] at total
        omega
      obtain ⟨depth, base, inner⟩ := ih rest.length shorter rest rfl
      exact ⟨depth + 1, base, .sign first more inner⟩

theorem Peels.unique {depth' : Nat} {base' : String} (peels : Peels token depth base)
    (others : Peels token depth' base') : depth' = depth ∧ base' = base := by
  have same := others.peel_eq.symm.trans peels.peel_eq
  rw [Prod.mk.injEq, String.toList_inj] at same
  exact same

theorem Peels.ofToken_eq (peels : Peels token depth base) (known : List String) :
    ofToken known token = match ofName? known base with
      | some t => .ok (nest depth t)
      | none => .error base := by
  cases named : ofName? known base with
  | some t => simp only [ofToken, peels.peel_eq, String.ofList_toList, named]
  | none => simp only [ofToken, peels.peel_eq, String.ofList_toList, named]

/-- The signs of lists before an expression. -/
def signs (depth : Nat) : String := String.join (List.replicate depth "[]")

theorem signs_succ (depth : Nat) : signs (depth + 1) = "[]" ++ signs depth := by
  simp [signs, List.replicate_succ, String.join_cons]

theorem expression_nest (isInternal : Bool) (depth : Nat) (t : GoType) :
    (nest depth t).expression isInternal = signs depth ++ t.expression isInternal := by
  induction depth with
  | zero => simp [nest, signs]
  | succ depth ih => rw [nest, expression, ih, signs_succ, String.append_assoc]

def primitiveNames : List String := Primitive.tokens.map Prod.fst

def Names (known : List String) (name : String) : Prop :=
  name ≠ "[]" ∧ (name ∈ primitiveNames ∨ name ∈ known)

variable {known : List String} {name : String}

theorem ofName?_of_primitive {p : Primitive} (entry : (name, p) ∈ Primitive.tokens) :
    ofName? known name = some (primitive p) := by
  have table : ∀ e ∈ Primitive.tokens, Primitive.ofToken? e.1 = some e.2 := by decide
  rw [ofName?, table _ entry]

theorem ofName?_of_custom (other : name ∉ primitiveNames) (word : name ≠ "[]")
    (declared : name ∈ known) : ofName? known name = some (custom name) := by
  have absent : Primitive.ofToken? name = none := by
    rw [Primitive.ofToken?, List.lookup_eq_none_iff]
    intro e entry
    rw [bne_iff_ne]
    rintro rfl
    exact other (List.mem_map.mpr ⟨e, entry, rfl⟩)
  rw [ofName?, absent]
  exact if_pos ⟨word, declared⟩

theorem ofName?_of_unnamed (unnamed : ¬ Names known name) : ofName? known name = none := by
  rw [ofName?]
  split
  · next p entry =>
    have sign : "[]" ∉ primitiveNames := by decide
    obtain ⟨front, back, same, _⟩ := List.lookup_eq_some_iff.mp entry
    have member : name ∈ primitiveNames := List.mem_map.mpr ⟨(name, p), by simp [same], rfl⟩
    exact absurd ⟨fun same => sign (same ▸ member), .inl member⟩ unnamed
  · exact if_neg fun ⟨word, declared⟩ => unnamed ⟨word, .inr declared⟩

theorem Names.ofName?_eq (named : Names known name) : ∃ t, ofName? known name = some t := by
  by_cases primitive : name ∈ primitiveNames
  · obtain ⟨⟨name, p⟩, entry, rfl⟩ := List.mem_map.mp primitive
    exact ⟨_, ofName?_of_primitive entry⟩
  · exact ⟨_, ofName?_of_custom primitive named.1 (named.2.resolve_left primitive)⟩

end Go.GoType

open Go Go.GoType

variable {known : List String} {token base entity : String} {depth : Nat} {isInternal : Bool}

theorem resolveType_of_name {t : GoType} (peels : Peels token depth base)
    (named : ofName? known base = some t) :
    resolveType known entity isInternal token =
      .ok (signs depth ++ t.expression isInternal) := by
  rw [resolveType, peels.ofToken_eq, named]
  simp only [expression_nest]

theorem resolveType_of_primitive {p : Primitive} (peels : Peels token depth base)
    (entry : (base, p) ∈ Primitive.tokens) :
    resolveType known entity isInternal token = .ok (signs depth ++ p.expression) :=
  resolveType_of_name peels (ofName?_of_primitive entry)

theorem resolveType_of_custom (peels : Peels token depth base) (other : base ∉ primitiveNames)
    (word : base ≠ "[]") (declared : base ∈ known) :
    resolveType known entity isInternal token =
      .ok (signs depth ++ ((if isInternal then "" else "types.") ++ Naming.upperCamel base)) := by
  rw [resolveType_of_name peels (ofName?_of_custom other word declared), expression]
  cases isInternal with
  | true => simp
  | false => rfl

theorem resolveType_of_unnamed (peels : Peels token depth base) (unnamed : ¬ Names known base) :
    resolveType known entity isInternal token = .error (.unresolvedType base entity) := by
  rw [resolveType, peels.ofToken_eq, ofName?_of_unnamed unnamed]

theorem exists_resolveType_iff (peels : Peels token depth base) :
    (∃ expression, resolveType known entity isInternal token = .ok expression) ↔
      Names known base := by
  constructor
  · rintro ⟨expression, resolved⟩
    by_contra unnamed
    rw [resolveType_of_unnamed peels unnamed] at resolved
    cases resolved
  · intro named
    obtain ⟨t, same⟩ := named.ofName?_eq
    exact ⟨_, resolveType_of_name peels same⟩

theorem resolveType_eq_error_iff {failure : Failure} (peels : Peels token depth base) :
    resolveType known entity isInternal token = .error failure ↔
      ¬ Names known base ∧ failure = .unresolvedType base entity := by
  constructor
  · intro failed
    have unnamed : ¬ Names known base := by
      intro named
      obtain ⟨expression, resolved⟩ := (exists_resolveType_iff peels).mpr named
      rw [resolved] at failed
      cases failed
    rw [resolveType_of_unnamed peels unnamed] at failed
    exact ⟨unnamed, (Except.error.inj failed).symm⟩
  · rintro ⟨unnamed, rfl⟩
    exact resolveType_of_unnamed peels unnamed

/-- What is left of a token after its signs of lists decides about it. The token has a type exactly if
that is the name of one, primitive or declared, and otherwise that is what is reported. Seen from
inside or outside the package of custom types it fails alike, and its expressions differ in the
qualifier of a custom type only. -/
theorem resolveType_decided_by_base (known : List String) (entity token : String) :
    ∃ depth base, Peels token depth base ∧
      (∀ depth' base', Peels token depth' base' → depth' = depth ∧ base' = base) ∧
      (∀ isInternal, (∃ expression, resolveType known entity isInternal token = .ok expression) ↔
        base ≠ "[]" ∧ (base ∈ primitiveNames ∨ base ∈ known)) ∧
      (∀ isInternal failure, resolveType known entity isInternal token = .error failure ↔
        ¬ (base ≠ "[]" ∧ (base ∈ primitiveNames ∨ base ∈ known)) ∧
          failure = .unresolvedType base entity) ∧
      (∀ failure, resolveType known entity true token = .error failure ↔
        resolveType known entity false token = .error failure) ∧
      (∀ isInternal p, (base, p) ∈ Primitive.tokens →
        resolveType known entity isInternal token = .ok (signs depth ++ p.expression)) ∧
      (base ∉ primitiveNames → base ≠ "[]" → base ∈ known →
        resolveType known entity true token = .ok (signs depth ++ Naming.upperCamel base) ∧
        resolveType known entity false token =
          .ok (signs depth ++ ("types." ++ Naming.upperCamel base))) := by
  obtain ⟨depth, base, peels⟩ := exists_peels token
  refine ⟨depth, base, peels, fun _ _ => peels.unique, fun _ => exists_resolveType_iff peels,
    fun _ _ => resolveType_eq_error_iff peels, fun failure => ?_,
    fun _ _ => resolveType_of_primitive peels, ?_⟩
  · rw [resolveType_eq_error_iff peels, resolveType_eq_error_iff peels]
  · intro other word declared
    have expressions (isInternal : Bool) :=
      @resolveType_of_custom known token base entity depth isInternal peels other word declared
    exact ⟨by simpa using expressions true, expressions false⟩

/-- Blanks between signs do not count, and a sign alone is no name even if it is declared. -/
example :
    resolveType ["a b", "[]"] "connection.rows" false " [] []\ta b " = .ok "[][]types.AB" ∧
    resolveType ["a b", "[]"] "connection.rows" false "[][] " =
      .error (.unresolvedType "[]" "connection.rows") := ⟨rfl, rfl⟩

end PluginCompiler
