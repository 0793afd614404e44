import PluginCompiler.Go.Type
import PluginCompiler.Proofs.Go.Declarations
import PluginCompiler.Proofs.Go.Expression

/-! What types are built on, and the search for the text of a package in their expressions, which finds
it exactly in the types that are built on a name of the package. -/

set_option autoImplicit false

namespace PluginCompiler.Go

open Naming (IsWord upperCamel isWord_upperCamel)

variable {type : String} {part cs front back : List Char} {known : List String} {name : String}

theorem base_pointer (type : String) : base ("*" ++ type) = base type := by
  have chars : ("*" ++ type).toList = '*' :: type.toList := by simp
  rw [base, base, chars, baseOf]

theorem base_sign (type : String) : base ("[]" ++ type) = base type := by
  rw [base, base, GoType.toList_sign_append, baseOf]

theorem baseOf_of_head (other : ∀ c, cs.head? = some c → c ≠ '*' ∧ c ≠ '[') : baseOf cs = cs := by
  cases cs with
  | nil => rfl
  | cons c cs =>
    obtain ⟨star, bracket⟩ := other c rfl
    unfold baseOf
    split
    · next same => exact absurd (List.cons.inj same).1 star
    · next same => exact absurd (List.cons.inj same).1 bracket
    · rfl

theorem qualified?_eq_base (package type : String) : qualified? package type =
    ((package ++ ".").toList.isPrefixOf? (base type).toList).map String.ofList := by
  rw [base, String.toList_ofList]
  rfl

theorem occursIn_iff : occursIn part cs = true ↔ part <:+: cs := by
  induction cs with
  | nil => simp [occursIn]
  | cons c cs ih => rw [occursIn, Bool.or_eq_true, List.isPrefixOf_iff_prefix, ih, List.infix_cons_iff]

theorem baseOf_suffix (cs : List Char) : baseOf cs <:+ cs := by
  fun_induction baseOf cs with
  | case1 cs ih => exact ih.trans (List.suffix_cons _ _)
  | case2 cs ih => exact ih.trans ⟨['[', ']'], rfl⟩
  | case3 => exact List.suffix_refl _

theorem mentions_of_qualified {package : String} (qualified : qualified? package type = some name) :
    mentions (package ++ ".") type = true := by
  obtain ⟨rest, dropped, _⟩ := Option.map_eq_some_iff.mp qualified
  rw [mentions, occursIn_iff]
  have start : (package ++ ".").toList <+: baseOf type.toList :=
    ⟨rest, (Text.isPrefixOf?_eq_some.mp dropped).symm⟩
  exact start.isInfix.trans (baseOf_suffix _).isInfix

theorem infix_dot_iff {before after : List Char} (first : '.' ∉ before) (last : '.' ∉ after) :
    front ++ '.' :: back <:+: before ++ '.' :: after ↔ front <:+ before ∧ back <+: after := by
  constructor
  · rintro ⟨s, t, same⟩
    have whole : before ++ '.' :: after = s ++ front ++ '.' :: (back ++ t) := by
      simpa using same.symm
    obtain ⟨left, _, right⟩ := (List.append_cons_inj_of_notMem first last).mp whole
    exact ⟨⟨s, left.symm⟩, ⟨t, right.symm⟩⟩
  · rintro ⟨⟨s, rfl⟩, ⟨t, rfl⟩⟩
    exact ⟨s, t, by simp⟩

namespace GoType

variable {t : GoType} {isInternal : Bool}

def custom? : GoType → Option String
  | primitive _ => none
  | custom name => some name
  | list item => item.custom?

/-- Whether a type is built on the time. -/
def isTimed : GoType → Bool
  | primitive p => p == .time
  | custom _ => false
  | list item => item.isTimed

theorem custom?_nest (depth : Nat) (t : GoType) : (nest depth t).custom? = t.custom? := by
  induction depth with
  | zero => rfl
  | succ depth ih => exact ih

theorem mem_of_ofToken {token : String} (made : ofToken known token = .ok t)
    (custom : t.custom? = some name) : name ∈ known := by
  unfold ofToken at made
  dsimp only at made
  split at made
  · next named =>
    cases made
    rw [custom?_nest] at custom
    obtain ⟨p, rfl⟩ | ⟨rfl, declared⟩ := ofName?_cases named
    · cases custom
    · cases custom
      exact declared
  · cases made

theorem toList_qualified (name : String) :
    ((custom name).expression false).toList = "types".toList ++ '.' :: (upperCamel name).toList := by
  simp [expression, typesPackage]

theorem base_custom (name : String) (isInternal : Bool) :
    base ((custom name).expression isInternal) = (custom name).expression isInternal := by
  rw [base, baseOf_of_head, String.ofList_toList]
  intro c first
  cases isInternal with
  | false =>
    rw [toList_qualified] at first
    cases first
    decide
  | true =>
    have word := isWord_upperCamel name c (List.mem_of_mem_head? first)
    constructor <;> rintro rfl <;> exact absurd word (by decide)

theorem qualified?_expression (t : GoType) :
    qualified? typesPackage (t.expression false) = t.custom?.map upperCamel := by
  induction t with
  | primitive p => cases p <;> decide
  | custom name =>
    have chars : ((custom name).expression false).toList =
        (typesPackage ++ ".").toList ++ (upperCamel name).toList := by simp [expression]
    rw [qualified?_eq_base, base_custom, chars, Text.isPrefixOf?_append, Option.map_some, String.ofList_toList]
    rfl
  | list item ih =>
    rw [qualified?_eq_base] at ih ⊢
    rw [expression, base_sign, ih, custom?]

theorem occursIn_sign {a : Char} (other : a ≠ '[' ∧ a ≠ ']') :
    occursIn (a :: part) ('[' :: ']' :: cs) = occursIn (a :: part) cs := by
  simp [occursIn, List.isPrefixOf, beq_false_of_ne other.1, beq_false_of_ne other.2]

theorem mentions_word {text : String} (dot : '.' ∈ text.toList) (word : IsWord type) :
    mentions text type = false := by
  rw [Bool.eq_false_iff, ne_eq, mentions, occursIn_iff]
  exact fun inside => word.not_mem (by decide) (inside.subset dot)

theorem mentions_time (t : GoType) (isInternal : Bool) :
    mentions "time.Time" (t.expression isInternal) = t.isTimed := by
  have time : "time.Time".toList = "time".toList ++ '.' :: "Time".toList := rfl
  induction t with
  | primitive p => cases p <;> cases isInternal <;> decide
  | custom name =>
    cases isInternal with
    | true => exact mentions_word (by decide) (isWord_upperCamel name)
    | false =>
      rw [isTimed, Bool.eq_false_iff, ne_eq, mentions, occursIn_iff, toList_qualified, time,
        infix_dot_iff (by decide) ((isWord_upperCamel name).not_mem (by decide))]
      exact fun parts => absurd parts.1 (by decide)
  | list item ih =>
    rw [expression, isTimed, ← ih, mentions, toList_sign_append]
    exact occursIn_sign (by decide)

theorem mentions_types (t : GoType) :
    mentions (typesPackage ++ ".") (t.expression false) = t.custom?.isSome := by
  have types : (typesPackage ++ ".").toList = "types".toList ++ '.' :: [] := rfl
  induction t with
  | primitive p => cases p <;> decide
  | custom name =>
    rw [custom?, Option.isSome_some, mentions, occursIn_iff, toList_qualified, types,
      infix_dot_iff (by decide) ((isWord_upperCamel name).not_mem (by decide))]
    exact ⟨List.suffix_refl _, List.nil_prefix⟩
  | list item ih =>
    rw [expression, custom?, ← ih, mentions, toList_sign_append]
    exact occursIn_sign (by decide)

theorem mentions_types_internal (t : GoType) :
    mentions (typesPackage ++ ".") (t.expression true) = false := by
  induction t with
  | primitive p => cases p <;> decide
  | custom name => exact mentions_word (by decide) (isWord_upperCamel name)
  | list item ih =>
    rw [expression, ← ih, mentions, toList_sign_append]
    exact occursIn_sign (by decide)

theorem base_eq_time_iff (t : GoType) (isInternal : Bool) :
    base (t.expression isInternal) = "time.Time" ↔ t.isTimed = true := by
  induction t with
  | primitive p => cases p <;> cases isInternal <;> decide
  | custom name =>
    have silent := mentions_time (custom name) isInternal
    rw [base_custom]
    refine ⟨fun same => ?_, fun timed => absurd timed Bool.false_ne_true⟩
    rw [same, isTimed] at silent
    exact absurd silent (by decide)
  | list item ih => rw [expression, base_sign, ih, isTimed]

end GoType

end PluginCompiler.Go
