import Mathlib
import PluginCompiler.Go.Text

/-! Identifiers of generated code. What an identifier starts with tells it apart from the words of the
language, and it holds nothing that ends a word. -/

set_option autoImplicit false

namespace PluginCompiler.Naming

variable {c : Char} {cs : List Char}

/-- What an identifier may start with: no small letter, since the first letter of a word is changed. -/
def isStart (c : Char) : Bool := c.isUpper || c.isDigit

theorem isStart_toUpper (word : isWordChar c = true) : isStart c.toUpper = true := by
  rw [isWordChar, Char.isAlphanum, Bool.or_eq_true] at word
  rw [isStart, Bool.or_eq_true]
  by_cases letter : c.isAlpha = true
  · left
    rw [Char.isUpper_toUpper_eq_isAlpha, letter]
  · right
    have digit : c.isDigit = true := word.resolve_left letter
    have small : ¬ c.isLower = true := by
      intro lower
      exact letter (by rw [Char.isAlpha, lower, Bool.or_true])
    rwa [Char.toUpper_eq_of_not_isLower small]

theorem isStart_of_head (head : (camelChars cs).head? = some c) : isStart c = true := by
  rw [camelChars] at head
  induction cs with
  | nil => cases head
  | cons d cs ih =>
    rw [camelFrom] at head
    split at head
    · next word =>
      cases head
      exact isStart_toUpper word
    · exact ih head

theorem isWordChar_toUpper (word : isWordChar c = true) : isWordChar c.toUpper = true := by
  have start := isStart_toUpper word
  rw [isStart, Bool.or_eq_true] at start
  rw [isWordChar, Char.isAlphanum, Char.isAlpha]
  obtain upper | digit := start
  · simp [upper]
  · simp [digit]

theorem isWordChar_of_mem_camelFrom {atStart : Bool} (member : c ∈ camelFrom atStart cs) :
    isWordChar c = true := by
  induction cs generalizing atStart with
  | nil => simp [camelFrom] at member
  | cons d cs ih =>
    rw [camelFrom] at member
    split at member
    · next word =>
      rcases List.mem_cons.mp member with rfl | later
      · split
        · exact isWordChar_toUpper word
        · exact word
      · exact ih later
    · exact ih member

def IsWord (s : String) : Prop := ∀ c ∈ s.toList, isWordChar c = true

instance (s : String) : Decidable (IsWord s) :=
  decidable_of_iff (s.toList.all isWordChar = true) List.all_eq_true

theorem IsWord.append {s t : String} (left : IsWord s) (right : IsWord t) : IsWord (s ++ t) := by
  intro c member
  rw [String.toList_append, List.mem_append] at member
  exact member.elim (left c) (right c)

theorem IsWord.not_mem {s : String} (word : IsWord s) (other : isWordChar c = false) :
    c ∉ s.toList := by
  intro member
  simp [word c member] at other

theorem toList_upperCamel (name : String) : (upperCamel name).toList = camelChars name.toList :=
  String.toList_ofList

theorem isWord_upperCamel (name : String) : IsWord (upperCamel name) := by
  intro c member
  rw [toList_upperCamel] at member
  exact isWordChar_of_mem_camelFrom member

end PluginCompiler.Naming
