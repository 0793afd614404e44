import PluginCompiler.Proofs.Emit.Layout
import PluginCompiler.Proofs.Go.Reading
import PluginCompiler.Text.Digits

/-! Interpreted literals of generated code read back. A quoted text is read as the text and leaves what
follows it, so different texts have different literals. A text that is put between quotes as it is comes
back only if nothing in it has a meaning of its own there. -/

set_option autoImplicit false

namespace PluginCompiler.Go

def shortEscape? (e : Char) : Option Char :=
  if e = 'a' then some '\x07'
  else if e = 'b' then some '\x08'
  else if e = 'f' then some '\x0c'
  else if e = 'n' then some '\n'
  else if e = 'r' then some '\r'
  else if e = 't' then some '\t'
  else if e = 'v' then some '\x0b'
  else if e = '\\' ∨ e = '"' then some e
  else none

def prepend (c : Char) (read : Option (List Char × List Char)) : Option (List Char × List Char) :=
  read.map fun (text, rest) => (c :: text, rest)

/-- The text of a literal after its opening quote, and what follows the literal. Of the escapes by a
code, those of four digits are read. -/
def literalFrom : List Char → Option (List Char × List Char)
  | [] => none
  | c :: cs =>
    if c = '"' then some ([], cs)
    else if c = '\n' then none
    else if c = '\\' then
      match cs with
      | [] => none
      | e :: cs =>
        match shortEscape? e with
        | some s => prepend s (literalFrom cs)
        | none =>
          match cs with
          | i :: j :: k :: l :: cs =>
            if e = 'u' then
              match Text.digitsValue? 16 0 [i, j, k, l] with
              | some n => prepend (Char.ofNat n) (literalFrom cs)
              | none => none
            else none
          | _ => none
    else prepend c (literalFrom cs)

def literal? : List Char → Option (String × List Char)
  | [] => none
  | c :: cs =>
    if c = '"' then (literalFrom cs).map fun (text, rest) => (String.ofList text, rest) else none

theorem literalFrom_cons {c : Char} (quote : c ≠ '"') (line : c ≠ '\n') (slash : c ≠ '\\')
    (cs : List Char) : literalFrom (c :: cs) = prepend c (literalFrom cs) := by
  rw [literalFrom.eq_def]
  simp only [quote, line, slash, ↓reduceIte]

theorem literalFrom_close (cs : List Char) : literalFrom ('"' :: cs) = some ([], cs) := by
  rw [literalFrom.eq_def]
  rfl

theorem literalFrom_code {c : Char} (control : c.toNat < 0x20) (cs : List Char) :
    literalFrom ('\\' :: 'u' :: Text.hexDigits 4 c.toNat ++ cs) = prepend c (literalFrom cs) := by
  have table : ∀ n < 0x20, ∃ i j k l, Text.hexDigits 4 n = [i, j, k, l] ∧
      Text.digitsValue? 16 0 [i, j, k, l] = some n := by
    intro n small
    interval_cases n <;> exact ⟨_, _, _, _, rfl, rfl⟩
  obtain ⟨i, j, k, l, digits, value⟩ := table c.toNat control
  rw [digits]
  simp [literalFrom, shortEscape?, value, Char.ofNat_toNat]

theorem literalFrom_escaped (c : Char) (cs : List Char) :
    literalFrom (Json.escaped c ++ cs) = prepend c (literalFrom cs) := by
  unfold Json.escaped
  split_ifs with quote slash line return_ tab feed back control
  · subst quote
    rfl
  · subst slash
    rfl
  · subst line
    rfl
  · subst return_
    rfl
  · subst tab
    rfl
  · subst feed
    rfl
  · subst back
    rfl
  · exact literalFrom_code control cs
  · rw [List.singleton_append, literalFrom_cons quote line slash]

theorem literalFrom_quoted (text rest : List Char) :
    literalFrom (text.flatMap Json.escaped ++ '"' :: rest) = some (text, rest) := by
  induction text with
  | nil => exact literalFrom_close rest
  | cons c text ih =>
    rw [List.flatMap_cons, List.append_assoc, literalFrom_escaped, ih]
    rfl

theorem literal?_quote (s : String) (rest : List Char) :
    literal? ((quote s).toList ++ rest) = some (s, rest) := by
  have chars : (quote s).toList ++ rest = '"' :: (s.toList.flatMap Json.escaped ++ '"' :: rest) := by
    simp [quote, Json.quote, Json.quoteChars]
  rw [chars, literal?, if_pos rfl, literalFrom_quoted]
  simp

theorem quote_injective {s t : String} (same : quote s = quote t) : s = t := by
  have left := literal?_quote s []
  rw [same, literal?_quote] at left
  cases left
  rfl

/-- A text that stands for itself between quotes. -/
def IsVerbatim (s : String) : Prop := ∀ c ∈ s.toList, c ≠ '"' ∧ c ≠ '\\' ∧ c ≠ '\n'

instance (s : String) : Decidable (IsVerbatim s) :=
  inferInstanceAs (Decidable (∀ c ∈ s.toList, _))

theorem literalFrom_verbatim {text : List Char} (verbatim : ∀ c ∈ text, c ≠ '"' ∧ c ≠ '\\' ∧ c ≠ '\n')
    (rest : List Char) : literalFrom (text ++ '"' :: rest) = some (text, rest) := by
  induction text with
  | nil => exact literalFrom_close rest
  | cons c text ih =>
    obtain ⟨⟨quote, slash, line⟩, later⟩ := List.forall_mem_cons.mp verbatim
    rw [List.cons_append, literalFrom_cons quote line slash, ih later]
    rfl

theorem exists_of_prepend {c : Char} {read : Option (List Char × List Char)} {text rest : List Char}
    (some_ : prepend c read = some (text, rest)) : ∃ inner, read = some (inner, rest) ∧ text = c :: inner := by
  obtain ⟨⟨inner, after⟩, own, same⟩ := Option.map_eq_some_iff.mp some_
  cases same
  exact ⟨inner, own, rfl⟩

/-- Every escape is longer than what it stands for, so a text is no shorter than its literal only if it
has none. -/
theorem literalFrom_length {cs text rest : List Char} (read : literalFrom cs = some (text, rest)) :
    text.length + rest.length < cs.length ∧
      (cs.length = text.length + rest.length + 1 → ∀ c ∈ text, c ≠ '"' ∧ c ≠ '\\' ∧ c ≠ '\n') := by
  -- The reader stops at a quote (2), reads an escape (5, 6) or a character as it is (10), or fails.
  fun_induction literalFrom cs generalizing text rest with
  | case2 cs =>
    cases read
    simp
  | case5 e cs s _ _ _ ih =>
    obtain ⟨inner, later, rfl⟩ := exists_of_prepend read
    have shorter := (ih later).1
    simp only [List.length_cons]
    exact ⟨by omega, fun same => by omega⟩
  | case6 i j k l cs n _ _ _ _ ih =>
    obtain ⟨inner, later, rfl⟩ := exists_of_prepend read
    have shorter := (ih later).1
    simp only [List.length_cons]
    exact ⟨by omega, fun same => by omega⟩
  | case10 c cs quote line slash ih =>
    obtain ⟨inner, later, rfl⟩ := exists_of_prepend read
    obtain ⟨shorter, verbatim⟩ := ih later
    simp only [List.length_cons, List.forall_mem_cons]
    exact ⟨by omega, fun same => ⟨⟨quote, slash, line⟩, verbatim (by omega)⟩⟩
  | _ => cases read

theorem literal?_quoted_iff (s : String) (rest : List Char) :
    literal? ((Emit.quoted s).toList ++ rest) = some (s, rest) ↔ IsVerbatim s := by
  have chars : (Emit.quoted s).toList ++ rest = '"' :: (s.toList ++ '"' :: rest) := by
    simp [Emit.quoted]
  rw [chars, literal?, if_pos rfl]
  constructor
  · intro read
    obtain ⟨⟨text, after⟩, inner, same⟩ := Option.map_eq_some_iff.mp read
    rw [Prod.mk.injEq] at same
    obtain ⟨rfl, rfl⟩ := same
    rw [String.toList_ofList] at inner
    -- The literal is two quotes longer than its text, which leaves no room for an escape.
    have verbatim := (literalFrom_length inner).2 (by simp [Nat.add_assoc])
    rwa [IsVerbatim, String.toList_ofList]
  · intro verbatim
    rw [literalFrom_verbatim verbatim]
    simp

end PluginCompiler.Go
