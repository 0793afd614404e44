import Mathlib.Data.List.TakeDrop
import PluginCompiler.Json.Reader
import PluginCompiler.Proofs.Text.Characters

/-! Integers in JSON that have too many digits. They are no fault of form, and are refused wherever a value
may stand, before what follows them is looked at. -/

set_option autoImplicit false

namespace PluginCompiler

variable {c d : Char} {cs rest : List Char} {i fuel : Nat}

theorem Text.decimalDigit?_of_isDigit (digit : c.isDigit = true) :
    decimalDigit? c = some (c.toNat - 0x30) := by
  have small : c.toNat < 0x80 := Nat.lt_of_le_of_lt (Char.isDigit_iff_toNat.mp digit).2 (by decide)
  rw [decimalDigit?, if_pos small, if_pos digit]

theorem Text.isNumberBlank_of_isDigit (digit : c.isDigit = true) : isNumberBlank c = false := by
  obtain ⟨_, high⟩ := Char.isDigit_iff_toNat.mp digit
  have table : ∀ n ≤ '9'.toNat, (Char.ofNat n).isDigit = true → isNumberBlank (Char.ofNat n) = false := by
    decide
  have entry := table c.toNat high
  rw [Char.ofNat_toNat] at entry
  exact entry digit

theorem Text.signAndBody_of_digits (digits : ∀ c ∈ cs, c.isDigit = true) :
    signAndBody cs = (false, cs) := by
  have whole : trimBy isNumberBlank cs = cs := trimBy_eq_self_iff.mpr
    ⟨fun c first => isNumberBlank_of_isDigit (digits c (List.mem_of_head? first)),
      fun c last => isNumberBlank_of_isDigit (digits c (List.mem_of_getLast? last))⟩
  rw [signAndBody, whole]
  cases cs with
  | nil => rfl
  | cons c cs =>
    have digit := digits c List.mem_cons_self
    split
    · next same =>
      cases same
      exact absurd digit (by decide)
    · next same =>
      cases same
      exact absurd digit (by decide)
    · rfl

theorem Text.excessDigits?_of_digits (digits : ∀ c ∈ cs, c.isDigit = true)
    (many : digitLimit < cs.length) : excessDigits? cs = some cs.length := by
  have all : cs.takeWhile (fun c => (decimalDigit? c).isSome) = cs :=
    List.takeWhile_eq_self_iff.mpr fun c member => by rw [decimalDigit?_of_isDigit (digits c member)]; rfl
  rw [excessDigits?, signAndBody_of_digits digits]
  dsimp only
  rw [all, if_pos many]

namespace Json

/-- What can stand after an integer. -/
def Stops (rest : List Char) : Prop :=
  ∀ c, rest.head? = some c → c.isDigit = false ∧ c ≠ '.' ∧ c ≠ 'e' ∧ c ≠ 'E'

theorem spanDigits_append (digits : ∀ c ∈ cs, c.isDigit = true) (stops : Stops rest) :
    spanDigits (cs ++ rest) = (cs, rest) := by
  rw [spanDigits, List.span_eq_takeWhile_dropWhile, List.takeWhile_append_of_pos digits,
    List.dropWhile_append_of_pos digits]
  cases rest with
  | nil => simp
  | cons c rest =>
    have kept : ¬ c.isDigit = true := by simp [(stops c rfl).1]
    rw [List.takeWhile_cons_of_neg kept, List.dropWhile_cons_of_neg kept, List.append_nil]

theorem fraction_of_stops (stops : Stops rest) : fraction rest = ([], rest) := by
  fun_cases fraction rest with
  | case1 => exact absurd rfl (stops _ rfl).2.1
  | case2 => rfl
  | case3 => rfl

theorem tenPower_of_stops (stops : Stops rest) : tenPower rest = ([], rest) := by
  cases rest with
  | nil => rfl
  | cons c rest => simp only [tenPower, if_neg (not_or.mpr (stops c rfl).2.2)]

theorem numeral_of_excess (digits : ∀ c ∈ d :: cs, c.isDigit = true) (filled : d ≠ '0')
    (many : Text.digitLimit < (d :: cs).length) (stops : Stops rest) :
    numeral i (d :: cs ++ rest) = .error (.digits (.reading (d :: cs).length)) := by
  have unsigned : d ≠ '-' := by
    rintro rfl
    exact absurd (digits '-' List.mem_cons_self) (by decide)
  have whole : spanDigits (d :: (cs ++ rest)) = (d :: cs, rest) := spanDigits_append digits stops
  have excess := Text.excessDigits?_of_digits digits many
  -- Neither a sign nor a lone zero comes first.
  rw [List.cons_append, numeral, whole]
  · dsimp only
    rw [fraction_of_stops stops]
    dsimp only
    rw [tenPower_of_stops stops]
    simp only [integerOf, List.nil_append, List.append_nil, List.isEmpty_nil, List.isEmpty_cons, excess,
      Bool.and_self, Bool.false_eq_true, ↓reduceIte]
    rfl
  · exact fun tail same => unsigned (List.cons.inj same).1
  · exact fun tail same => filled (List.cons.inj same).1

theorem named?_of_isDigit (cs : List Char) (digit : d.isDigit = true) : named? (d :: cs) = none := by
  have other {word : Char} (letter : word.isDigit = false) : word ≠ d := by
    rintro rfl
    exact absurd digit (by simp [letter])
  simp [named?, named, List.isPrefixOf?, other]

theorem valueFrom_of_excess (digits : ∀ c ∈ d :: cs, c.isDigit = true) (filled : d ≠ '0')
    (many : Text.digitLimit < (d :: cs).length) (stops : Stops rest) :
    valueFrom (fuel + 1) i (d :: cs ++ rest) = .error (.digits (.reading (d :: cs).length)) := by
  have digit := digits d List.mem_cons_self
  have other {mark : Char} (sign : mark.isDigit = false) : d ≠ mark := by
    rintro rfl
    exact absurd digit (by simp [sign])
  have unnamed := named?_of_isDigit (cs ++ rest) digit
  rw [List.cons_append, valueFrom]
  · simp only [unnamed]
    exact numeral_of_excess digits filled many stops
  · exact fun tail same => other (by decide) (List.cons.inj same).1
  · exact fun tail same => other (by decide) (List.cons.inj same).1
  · exact fun tail same => other (by decide) (List.cons.inj same).1

/-- A character that stands for itself between quotes. -/
def IsPlain (c : Char) : Prop := c ≠ '"' ∧ c ≠ '\\' ∧ 0x20 ≤ c.toNat

instance (c : Char) : Decidable (IsPlain c) :=
  inferInstanceAs (Decidable (_ ∧ _ ∧ _))

theorem stringFrom_of_plain {start : Nat} {name done : List Char} (plain : ∀ c ∈ name, IsPlain c) :
    stringFrom start i done (name ++ '"' :: rest) =
      .ok (String.ofList (done.reverse ++ name), i + name.length + 1, rest) := by
  induction name generalizing i done with
  | nil =>
    rw [List.nil_append, stringFrom, if_pos rfl]
    all_goals simp
  | cons c name ih =>
    obtain ⟨⟨quote, escape, printed⟩, later⟩ := List.forall_mem_cons.mp plain
    rw [List.cons_append, stringFrom, if_neg quote, if_neg (Nat.not_lt.mpr printed), ih later]
    · simp [Nat.add_assoc, Nat.add_comm 1]
    · exact fun same _ => escape same
    · exact fun _ _ _ _ _ _ same _ => escape same
    · exact fun _ same _ => escape same
    · exact fun _ _ same _ => escape same

/-- An object with one member, a number. -/
def sole (name digits : List Char) : List Char :=
  '\x7b' :: '"' :: (name ++ '"' :: ':' :: (digits ++ ['\x7d']))

theorem read_sole_of_excess {name : List Char} (plain : ∀ c ∈ name, IsPlain c)
    (digits : ∀ c ∈ d :: cs, c.isDigit = true) (filled : d ≠ '0')
    (many : Text.digitLimit < (d :: cs).length) :
    read (sole name (d :: cs)) = .error (.digits (.reading (d :: cs).length)) := by
  have stops : Stops ['\x7d'] := by
    rintro c ⟨⟩
    decide
  have blank : ¬ (d = ' ' ∨ d = '\t' ∨ d = '\n' ∨ d = '\r') := by
    have digit := digits d List.mem_cons_self
    rintro (rfl | rfl | rfl | rfl) <;> exact absurd digit (by decide)
  have unblank (i : Nat) : skipBlanks i (d :: (cs ++ ['\x7d'])) = (i, d :: (cs ++ ['\x7d'])) :=
    if_neg blank
  have mark (i : Nat) {m : Char} (kept : ¬ (m = ' ' ∨ m = '\t' ∨ m = '\n' ∨ m = '\r'))
      (rest : List Char) : skipBlanks i (m :: rest) = (i, m :: rest) := if_neg kept
  have value (fuel i : Nat) : valueFrom (fuel + 1) i (d :: (cs ++ ['\x7d'])) =
      .error (.digits (.reading (d :: cs).length)) := valueFrom_of_excess digits filled many stops
  have member (fuel i : Nat) : membersFrom (fuel + 2) i
      ('"' :: (name ++ '"' :: ':' :: (d :: (cs ++ ['\x7d'])))) [] =
        .error (.digits (.reading (d :: cs).length)) := by
    rw [membersFrom, stringFrom_of_plain plain]
    simp only [Except.mapError, bind, Except.bind, mark _ (by decide : ¬ (':' = ' ' ∨ _)), unblank, value]
  -- The reader has fuel for the object, its member and the value of that.
  obtain ⟨fuel, enough⟩ : ∃ fuel, 2 * (sole name (d :: cs)).length + 2 = fuel + 3 :=
    ⟨2 * (sole name (d :: cs)).length - 1, by simp [sole]; omega⟩
  have object : valueFrom (fuel + 3) 0 (sole name (d :: cs)) =
      .error (.digits (.reading (d :: cs).length)) := by
    rw [sole, valueFrom, mark _ (by decide)]
    exact member fuel 1
  rw [read]
  · rw [enough, sole, mark _ (by decide), ← sole]
    simp only [object, bind, Except.bind]
  · intro rest same
    cases same

end Json

end PluginCompiler
