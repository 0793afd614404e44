import PluginCompiler.Proofs.Enrich.Outcome
import PluginCompiler.Proofs.Go.Expression
import PluginCompiler.Proofs.Text.Characters

/-! The key of a connection as the sum that its expression is. The expression is read back into its
operands, which are the texts among the fields of the connection in their order, and its value follows
from theirs. -/

set_option autoImplicit false

namespace PluginCompiler

open Naming (isWordChar IsWord)

/-- An operand of a key: a field that holds a text, or a text that may be absent, for which a helper
gives an empty one. -/
inductive KeyOperand where
  | text (field : String)
  | optional (field : String)
  deriving DecidableEq, Repr

structure ConnectionData where
  texts : String → String
  optionals : String → Option String

namespace KeyOperand

def helper : String := "stringValue"

def field? (cs : List Char) : Option String :=
  if cs.all isWordChar then some (String.ofList cs) else none

def read? (cs : List Char) : Option KeyOperand :=
  match "c.".toList.isPrefixOf? cs with
  | some name => (field? name).map text
  | none =>
    match (helper ++ "(c.").toList.isPrefixOf? cs with
    | some name => if name.getLast? = some ')' then (field? name.dropLast).map optional else none
    | none => none

def readEach? : List (List Char) → Option (List KeyOperand)
  | [] => some []
  | cs :: rest => (read? cs).bind fun o => (readEach? rest).map (o :: ·)

def summands (cs : List Char) : List (List Char) :=
  (cs.splitOn '+').map (Text.trimBy (· == ' '))

/-- The operands of an expression. An empty literal has none. -/
def readAll? (expression : String) : Option (List KeyOperand) :=
  if expression = "\"\"" then some [] else readEach? (summands expression.toList)

def value (d : ConnectionData) : KeyOperand → String
  | text field => d.texts field
  | optional field => (d.optionals field).getD ""

def isOptional : KeyOperand → Bool
  | text _ => false
  | optional _ => true

def field : KeyOperand → String
  | text field => field
  | optional field => field

def expression : KeyOperand → String
  | text field => "c." ++ field
  | optional field => helper ++ "(c." ++ field ++ ")"

end KeyOperand

def keyOf? (expression : String) (d : ConnectionData) : Option String :=
  (KeyOperand.readAll? expression).map fun os => String.join (os.map (·.value d))

def Parameter.operand (p : Parameter) : KeyOperand :=
  if p.nullable then .optional p.name else .text p.name

namespace KeyOperand

variable {o : KeyOperand} {os : List KeyOperand} {params : List Parameter}

theorem field?_of_isWord {s : String} (word : IsWord s) : field? s.toList = some s := by
  have all : s.toList.all isWordChar = true := List.all_eq_true.mpr word
  simp [field?, all]

theorem read?_expression (word : IsWord o.field) : read? o.expression.toList = some o := by
  cases o with
  | text field =>
    have chars : (expression (text field)).toList = "c.".toList ++ field.toList := by
      simp [expression]
    rw [read?, chars, Text.isPrefixOf?_append]
    simp [field?_of_isWord (s := field) word]
  | optional field =>
    have chars : (expression (optional field)).toList =
        (helper ++ "(c.").toList ++ (field.toList ++ [')']) := by
      simp [expression]
    have other : "c.".toList.isPrefixOf? (expression (optional field)).toList = none := by
      rw [chars]
      rfl
    rw [read?, other]
    dsimp only
    rw [chars, Text.isPrefixOf?_append]
    simp [field?_of_isWord (s := field) word]

theorem not_mem_expression (word : IsWord o.field) {c : Char} (sign : c = '+' ∨ c = ' ') :
    c ∉ o.expression.toList := by
  have other : c ∉ o.field.toList := word.not_mem (by rcases sign with rfl | rfl <;> decide)
  cases o with
  | text name =>
    rcases sign with rfl | rfl <;> simpa [expression, KeyOperand.field] using other
  | optional name =>
    rcases sign with rfl | rfl <;> simpa [expression, helper, KeyOperand.field] using other

def sum (os : List KeyOperand) : List Char := " + ".toList.intercalate (os.map (·.expression.toList))

theorem trimBy_expression (word : IsWord o.field) (before after : List Char)
    (front : ∀ c ∈ before, c = ' ') (back : ∀ c ∈ after, c = ' ') :
    Text.trimBy (· == ' ') (before ++ (o.expression.toList ++ after)) = o.expression.toList := by
  apply Text.trimBy_append
  · simpa using front
  · simpa using back
  · intro c member
    simp only [beq_eq_false_iff_ne]
    rintro rfl
    exact not_mem_expression word (.inr rfl) member

/-- The blank after a sign of addition stands before the next operand, so the induction is over sums
with blanks before them. -/
theorem readEach?_summands (before : List Char) (front : ∀ c ∈ before, c = ' ')
    (words : ∀ p ∈ o :: os, IsWord p.field) :
    readEach? (summands (before ++ sum (o :: os))) = some (o :: os) := by
  have unsigned : '+' ∉ before := fun member => absurd (front _ member) (by decide)
  induction os generalizing o before with
  | nil =>
    have word := words o List.mem_cons_self
    have whole := trimBy_expression word before [] front (by simp)
    have single : '+' ∉ before ++ o.expression.toList := by
      simp [unsigned, not_mem_expression word (.inl rfl)]
    rw [List.append_nil] at whole
    rw [summands, sum, List.map_singleton, List.intercalate_singleton,
      List.splitOn_eq_singleton single, List.map_singleton, whole]
    simp [readEach?, read?_expression word]
  | cons next rest ih =>
    obtain ⟨word, words⟩ := List.forall_mem_cons.mp words
    have first : '+' ∉ before ++ (o.expression.toList ++ [' ']) := by
      simp [unsigned, not_mem_expression word (.inl rfl)]
    have chars : before ++ sum (o :: next :: rest) =
        (before ++ (o.expression.toList ++ [' '])) ++ '+' :: ([' '] ++ sum (next :: rest)) := by
      simp [sum, List.intercalate_cons_cons]
    have later := ih [' '] (by simp) words (by decide)
    rw [summands, List.singleton_append] at later
    rw [summands, chars, List.splitOn_append_cons_self_of_not_mem first, List.map_cons,
      trimBy_expression word before [' '] front (by simp)]
    simp [readEach?, read?_expression word, later]

theorem expression_operand (p : Parameter) : p.operand.expression = p.keyOperand := by
  rw [Parameter.operand, Parameter.keyOperand]
  cases p.nullable <;> rfl

theorem field_operand (p : Parameter) : p.operand.field = p.name := by
  rw [Parameter.operand]
  cases p.nullable <;> rfl

theorem isOptional_operand (p : Parameter) : p.operand.isOptional = p.nullable := by
  rw [Parameter.operand]
  cases p.nullable <;> rfl

theorem keyExpression_eq {p : Parameter} {rest : List Parameter}
    (params_eq : keyParameters params = p :: rest) :
    (keyExpression params).toList = sum ((p :: rest).map Parameter.operand) := by
  rw [keyExpression, params_eq, sum, List.map_map]
  simp [String.toList_intercalate, Function.comp_def, expression_operand]

theorem sum_ne_empty (o : KeyOperand) (os : List KeyOperand) : sum (o :: os) ≠ ['"', '"'] := by
  have start : ∀ rest, o.expression.toList ++ rest ≠ ['"', '"'] := by
    intro rest same
    cases o <;> simp [expression, helper] at same
  cases os with
  | nil => simpa [sum] using start []
  | cons next rest =>
    rw [sum, List.map_cons, List.map_cons, List.intercalate_cons_cons, List.append_assoc]
    exact start _

theorem keyExpression_eq_empty : keyExpression params = "\"\"" ↔ keyParameters params = [] := by
  constructor
  · intro empty
    cases found : keyParameters params with
    | nil => rfl
    | cons p rest =>
      have chars := keyExpression_eq found
      rw [empty] at chars
      exact absurd chars.symm (sum_ne_empty _ _)
  · intro none
    simp [keyExpression, none]

theorem readAll?_keyExpression (words : ∀ p ∈ params, IsWord p.name) :
    readAll? (keyExpression params) = some ((keyParameters params).map Parameter.operand) := by
  rw [readAll?]
  split
  · next empty => simp [keyExpression_eq_empty.mp empty]
  · next filled =>
    rw [keyExpression_eq_empty] at filled
    obtain ⟨p, rest, found⟩ := List.exists_cons_of_ne_nil filled
    have fields : ∀ o ∈ (p :: rest).map Parameter.operand, IsWord o.field := by
      intro o member
      obtain ⟨q, inside, rfl⟩ := List.mem_map.mp member
      rw [field_operand]
      rw [← found] at inside
      exact words q (List.mem_filter.mp inside).1
    rw [keyExpression_eq found, found]
    exact readEach?_summands [] (by simp) fields

end KeyOperand

end PluginCompiler
