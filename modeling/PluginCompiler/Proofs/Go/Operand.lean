import PluginCompiler.Proofs.Go.Literal
import PluginCompiler.Proofs.Json.Texts
import PluginCompiler.Spec.Enrich

/-! Constants of generated code as operands of Go. The text of a value is a literal of its own for a text,
a number or a truth value. What Go has no constant for is kept as a string literal of its text: a raw one,
in which everything stands for itself, or an interpreted one if the sign that ends a raw one is inside. -/

set_option autoImplicit false

namespace PluginCompiler

namespace Go

variable {c : Char} {cs ds text : List Char} {g s t : String} {n : Nat}

/-- What stands for a character in an interpreted literal. Of the escapes by a code, those of control
characters are here. -/
inductive Spells : List Char → Char → Prop where
  | itself {c : Char} (quote : c ≠ '"') (slash : c ≠ '\\') (line : c ≠ '\n') : Spells [c] c
  | letter {e c : Char} (known : shortEscape? e = some c) : Spells ['\\', e] c
  | code {c : Char} (control : c.toNat < 0x20) : Spells ('\\' :: 'u' :: Text.hexDigits 4 c.toNat) c

inductive SpellsAll : List Char → List Char → Prop where
  | nil : SpellsAll [] []
  | cons {cs ds text : List Char} {c : Char} (first : Spells cs c) (rest : SpellsAll ds text) :
      SpellsAll (cs ++ ds) (c :: text)

/-- An interpreted string literal of a text. -/
def Interpreted (g s : String) : Prop :=
  ∃ inner, g.toList = '"' :: (inner ++ ['"']) ∧ SpellsAll inner s.toList

/-- A raw string literal of a text. Nothing is escaped, and carriage returns do not count. -/
def Raw (g s : String) : Prop :=
  ∃ inner, g.toList = '\x60' :: (inner ++ ['\x60']) ∧ '\x60' ∉ inner ∧
    s.toList = inner.filter (· ≠ '\r')

theorem spells_escaped (c : Char) : Spells (Json.escaped c) c := by
  unfold Json.escaped
  split_ifs with quote slash line return_ tab feed back control
  · exact .letter (by rw [quote]; rfl)
  · exact .letter (by rw [slash]; rfl)
  · exact line ▸ .letter rfl
  · exact return_ ▸ .letter rfl
  · exact tab ▸ .letter rfl
  · exact feed ▸ .letter rfl
  · exact back ▸ .letter rfl
  · exact .code control
  · exact .itself quote slash line

theorem spellsAll_escaped (text : List Char) : SpellsAll (text.flatMap Json.escaped) text := by
  induction text with
  | nil => exact .nil
  | cons c text ih => exact .cons (spells_escaped c) ih

theorem interpreted_quote (s : String) : Interpreted (quote s) s :=
  ⟨s.toList.flatMap Json.escaped, by simp [quote, Json.quote, Json.quoteChars],
    spellsAll_escaped s.toList⟩

theorem raw_enclosed (clean : Json.Clean s.toList) (unended : '\x60' ∉ s.toList) :
    Raw ("\x60" ++ s ++ "\x60") s := by
  have noReturn : ∀ c ∈ s.toList, c ≠ '\r' := by
    rintro c member rfl
    exact absurd (clean _ member) (by decide)
  have kept : s.toList.filter (· ≠ '\r') = s.toList :=
    List.filter_eq_self.mpr fun c member => by simpa using noReturn c member
  exact ⟨s.toList, by simp, unended, kept.symm⟩

theorem literalFrom_of_spells (spells : Spells ds c) (cs : List Char) :
    literalFrom (ds ++ cs) = prepend c (literalFrom cs) := by
  cases spells with
  | itself quote slash line => exact literalFrom_cons quote line slash cs
  | letter known =>
    rw [literalFrom.eq_def]
    simp [known]
  | code control => exact literalFrom_code control cs

theorem literalFrom_of_spellsAll (spells : SpellsAll ds text) (cs : List Char) :
    literalFrom (ds ++ '"' :: cs) = some (text, cs) := by
  induction spells with
  | nil => exact literalFrom_close cs
  | cons first rest ih =>
    rw [List.append_assoc, literalFrom_of_spells first, ih]
    rfl

theorem Interpreted.literal? (read : Interpreted g s) : literal? g.toList = some (s, []) := by
  obtain ⟨inner, chars, spells⟩ := read
  rw [chars, Go.literal?, if_pos rfl, literalFrom_of_spellsAll spells]
  simp

/-! ## Numbers -/

def AllDigits (cs : List Char) : Prop := ∀ c ∈ cs, c.isDigit

inductive Power : List Char → Prop where
  | up {cs : List Char} (some_ : cs ≠ []) (digits : AllDigits cs) : Power ('e' :: '+' :: cs)
  | down {cs : List Char} (some_ : cs ≠ []) (digits : AllDigits cs) : Power ('e' :: '-' :: cs)

/-- A decimal number without a sign. No zero stands before the digits of an integer, since it would make
them octal. -/
inductive Numeral : List Char → Prop where
  | zero : Numeral ['0']
  | integer {c : Char} {cs : List Char} (nonzero : c ≠ '0') (digits : AllDigits (c :: cs)) :
      Numeral (c :: cs)
  | fraction {front back power : List Char} (some_ : front ≠ []) (digits : AllDigits (front ++ back))
      (scaled : power = [] ∨ Power power) : Numeral (front ++ '.' :: back ++ power)
  | scaled {front power : List Char} (some_ : front ≠ []) (digits : AllDigits front)
      (scaled : Power power) : Numeral (front ++ power)

inductive Number : List Char → Prop where
  | plain {cs : List Char} (numeral : Numeral cs) : Number cs
  | negative {cs : List Char} (numeral : Numeral cs) : Number ('-' :: cs)

@[simp] theorem allDigits_nil : AllDigits [] := by
  simp [AllDigits]

@[simp] theorem allDigits_append : AllDigits (cs ++ ds) ↔ AllDigits cs ∧ AllDigits ds := by
  simp [AllDigits, or_imp, forall_and]

@[simp] theorem allDigits_cons : AllDigits (c :: cs) ↔ c.isDigit ∧ AllDigits cs := by
  simp [AllDigits]

theorem AllDigits.subset (digits : AllDigits cs) (sub : ds ⊆ cs) : AllDigits ds :=
  fun c member => digits c (sub member)

theorem allDigits_toDigits (n : Nat) : AllDigits (Nat.toDigits 10 n) :=
  fun _ member => Nat.isDigit_of_mem_toDigits (by decide) (by decide) member

theorem allDigits_zeros (n : Nat) : AllDigits (List.replicate n '0') := by
  intro c member
  rw [List.eq_of_mem_replicate member]
  decide

theorem toDigits_lead (positive : 0 < n) : ∃ c cs, Nat.toDigits 10 n = c :: cs ∧ c ≠ '0' := by
  have single : ∀ n < 10, 0 < n → n.digitChar ≠ '0' := by decide
  -- The first digit is that of a tenth of the number, down to a number of one digit.
  induction n using Nat.strongRecOn with
  | ind n ih =>
    rw [Nat.toDigits_eq_if (by decide)]
    split
    · next small => exact ⟨_, _, rfl, single n small positive⟩
    · next large =>
      obtain ⟨c, cs, digits, nonzero⟩ := ih (n / 10) (by omega) (by omega)
      exact ⟨c, cs ++ [(n % 10).digitChar], by rw [digits, List.cons_append], nonzero⟩

theorem numeral_toDigits (n : Nat) : Numeral (Nat.toDigits 10 n) := by
  rcases n.eq_zero_or_pos with rfl | positive
  · exact .zero
  · obtain ⟨c, cs, digits, nonzero⟩ := toDigits_lead positive
    have all := allDigits_toDigits n
    rw [digits] at all ⊢
    exact .integer nonzero all

theorem number_toString (i : Int) : Number (toString i).toList := by
  rw [Int.toString_eq_repr]
  cases i with
  | ofNat n => simpa [Int.repr] using Number.plain (numeral_toDigits n)
  | negSucc n => simpa [Int.repr] using Number.negative (numeral_toDigits (n + 1))

theorem power_exponentText (e : Int) : Power ('e' :: Decimal.exponentText e) := by
  have all := allDigits_toDigits e.natAbs
  have written : ∀ cs, cs = (if (Nat.toDigits 10 e.natAbs).length < 2 then '0' :: Nat.toDigits 10 e.natAbs
      else Nat.toDigits 10 e.natAbs) → cs ≠ [] ∧ AllDigits cs := by
    rintro cs rfl
    split
    · exact ⟨by simp, allDigits_cons.mpr ⟨by decide, all⟩⟩
    · exact ⟨Nat.toDigits_ne_nil, all⟩
  obtain ⟨some_, digits⟩ := written _ rfl
  rw [Decimal.exponentText]
  split
  · exact .down some_ digits
  · exact .up some_ digits

theorem numeral_fraction {front back : List Char} (some_ : front ≠ [])
    (digits : AllDigits (front ++ back)) : Numeral (front ++ '.' :: back) := by
  simpa using Numeral.fraction some_ digits (.inl rfl)

theorem numeral_layOut (d : Nat) (e : Int) : Numeral (Decimal.layOut d e) := by
  have all := allDigits_toDigits d
  have front (n : Nat) : (Nat.toDigits 10 d).take (n + 1) ≠ [] := by simp
  have parts (n : Nat) : AllDigits ((Nat.toDigits 10 d).take n ++ (Nat.toDigits 10 d).drop n) := by
    rwa [List.take_append_drop]
  rw [Decimal.layOut]
  dsimp only
  split
  · split
    · rw [List.append_nil]
      exact .scaled (front 0) (all.subset (List.take_subset 1 _)) (power_exponentText _)
    · exact .fraction (front 0) (parts 1) (.inr (power_exponentText _))
  · split
    · rw [List.cons_append, List.cons_append]
      exact numeral_fraction (List.cons_ne_nil '0' []) (by simp [all, allDigits_zeros])
    · split
      · exact numeral_fraction (by simp) (by simp [all, allDigits_zeros])
      · exact numeral_fraction (front _) (parts _)

theorem number_numberText {x : Float} (ok : Json.numberText x = .ok s) : Number s.toList := by
  rw [Json.numberText] at ok
  split at ok
  · next negative m e read =>
    cases ok
    have body : Numeral (if m = 0 then ['0', '.', '0'] else
        Decimal.layOut (Decimal.shortest m e).1 (Decimal.shortest m e).2) := by
      split
      · exact numeral_fraction (List.cons_ne_nil '0' []) (allDigits_zeros 2)
      · exact numeral_layOut _ _
    rw [Decimal.floatText, read]
    dsimp only
    rw [String.toList_ofList]
    split
    · exact .negative body
    · exact .plain body
  · cases ok

/-- A single operand of Go as far as constants are concerned; only a number has a sign. -/
inductive Operand (g : String) : Prop where
  | interpreted (s : String) (read : Interpreted g s)
  | raw (s : String) (read : Raw g s)
  | number (number : Number g.toList)
  | truth (b : Bool) (same : g = if b then "true" else "false")

/-- How a constant gives a value and its JSON text back. -/
def Gives (g text : String) : Value → Prop
  | .text s => Interpreted g s
  | .null | .list _ | .map _ => Raw g text ∨ Interpreted g text
  | _ => g = text

/-- A constant for a value: on one line, one operand, and with the value or its text in it. -/
structure ConstantFor (v : Value) (text g : String) : Prop where
  clean : Json.Clean g.toList
  operand : Operand g
  gives : Gives g text v

theorem Number.head (number : Number cs) : ∃ c ds, cs = c :: ds ∧ (c.isDigit ∨ c = '-') := by
  have numeral {cs : List Char} (numeral : Numeral cs) : ∃ c ds, cs = c :: ds ∧ c.isDigit := by
    cases numeral with
    | zero => exact ⟨'0', [], rfl, rfl⟩
    | integer _ digits => exact ⟨_, _, rfl, (allDigits_cons.mp digits).1⟩
    | @fraction front _ _ some_ digits _ =>
      obtain ⟨c, ds, rfl⟩ := List.exists_cons_of_ne_nil some_
      exact ⟨c, _, rfl, (allDigits_cons.mp digits).1⟩
    | @scaled front _ some_ digits _ =>
      obtain ⟨c, ds, rfl⟩ := List.exists_cons_of_ne_nil some_
      exact ⟨c, _, rfl, (allDigits_cons.mp digits).1⟩
  cases number with
  | plain own =>
    obtain ⟨c, ds, same, digit⟩ := numeral own
    exact ⟨c, ds, same, .inl digit⟩
  | negative _ => exact ⟨'-', _, rfl, .inr rfl⟩

theorem constant_of_head (chars : s.toList = c :: cs) (simple : c ≠ 'n' ∧ c ≠ '[' ∧ c ≠ '\x7b') :
    constant s = s := by
  have notNull : s ≠ "null" := by
    rintro rfl
    cases chars
    exact simple.1 rfl
  simp [constant, isCompound, notNull, chars, simple.2]

theorem constant_number (number : Number s.toList) : constant s = s := by
  obtain ⟨c, ds, chars, lead⟩ := number.head
  refine constant_of_head chars ⟨?_, ?_, ?_⟩ <;> rintro rfl <;> revert lead <;> decide

theorem constant_quote (s : String) : constant (quote s) = quote s :=
  constant_of_head (by rw [quote, Json.quote, String.toList_ofList, Json.quoteChars, List.cons_append])
    (by decide)

theorem constantFor_number {v : Value} (number : Number s.toList) (clean : Json.Clean s.toList)
    (gives : Gives s s v) : ConstantFor v s (constant s) := by
  rw [constant_number number]
  exact ⟨clean, .number number, gives⟩

theorem constant_compound (compound : isCompound s = true) (clean : Json.Clean s.toList) :
    Json.Clean (constant s).toList ∧ (Raw (constant s) s ∨ Interpreted (constant s) s) := by
  rw [constant, if_pos compound]
  split
  · exact ⟨Json.clean_quote s, .inr (interpreted_quote s)⟩
  · next unended =>
    have enclosed : Json.Clean ("\x60" ++ s ++ "\x60").toList :=
      Json.clean_enclosed (by decide) (by decide) clean
    exact ⟨enclosed, .inl (raw_enclosed clean (by simpa using unended))⟩

theorem constantFor_compound {v : Value} (compound : isCompound s = true) (clean : Json.Clean s.toList)
    (gives : ∀ g, Raw g s ∨ Interpreted g s → Gives g s v) : ConstantFor v s (constant s) := by
  obtain ⟨printed, read⟩ := constant_compound compound clean
  exact ⟨printed, read.elim (.raw s) (.interpreted s), gives _ read⟩

end Go

/-! ## Values -/

/-- Values that have a JSON text: finite numbers within the limit of digits, and mappings with texts as
keys. -/
inductive Value.IsData : Value → Prop where
  | null : IsData .null
  | bool (b : Bool) : IsData (.bool b)
  | int {n : Int} (writable : Text.isWritable n) : IsData (.int n)
  | float {x : Float} {negative : Bool} {mantissa : Nat} {exponent : Int}
      (finite : Decimal.reading x = .finite negative mantissa exponent) : IsData (.float x)
  | text (s : String) : IsData (.text s)
  | list {items : List Value} (each : ∀ v ∈ items, IsData v) : IsData (.list items)
  | map {entries : List (Value × Value)} (named : ∀ e ∈ entries, ∃ s, e.1 = .text s)
      (each : ∀ e ∈ entries, IsData e.2) : IsData (.map entries)

namespace Json

variable {around : List Nat}

theorem compactIn_of_isData {v : Value} (data : v.IsData) : ∃ text, compactIn around v = .ok text := by
  induction data with
  | null => exact ⟨_, rfl⟩
  | bool b => exact ⟨_, rfl⟩
  | int writable => exact ⟨_, integerText_eq_ok.mpr ⟨writable, rfl⟩⟩
  | @float x _ _ _ finite => exact ⟨Decimal.floatText x, by rw [compactIn, numberText, finite]⟩
  | text s => exact ⟨_, rfl⟩
  | list _ ih =>
    obtain ⟨texts, inner⟩ := exists_compactAll_iff.mpr ih
    exact ⟨_, by rw [compactIn, inner]; rfl⟩
  | @map entries named _ ih =>
    have names : ∀ e ∈ entries, ∃ name, key e.1 = .ok name := by
      intro e member
      obtain ⟨s, same⟩ := named e member
      exact ⟨s, by rw [same, key]⟩
    obtain ⟨texts, inner⟩ := exists_compactEntries_iff.mpr fun e member => ⟨names e member, ih e member⟩
    exact ⟨_, by rw [compactIn, inner]; rfl⟩

theorem compact_of_isData {v : Value} (data : v.IsData) : ∃ text, compact v = .ok text :=
  compactIn_of_isData data

end Json

open Go

theorem constantFor_of_compact {v : Value} {text : String} (data : v.IsData)
    (made : Json.compact v = .ok text) : ConstantFor v text (Go.constant text) := by
  have clean := Json.clean_compact made
  -- Compounds are written as strings that hold their text; the others are operands by themselves.
  cases data with
  | null =>
    cases made
    exact constantFor_compound rfl clean fun _ read => read
  | bool b =>
    cases made
    cases b with
    | false => exact ⟨by decide, .truth false rfl, rfl⟩
    | true => exact ⟨by decide, .truth true rfl, rfl⟩
  | @int n _ =>
    obtain ⟨_, rfl⟩ := Json.integerText_eq_ok.mp made
    exact constantFor_number (number_toString n) clean rfl
  | float _ => exact constantFor_number (number_numberText made) clean rfl
  | text s =>
    cases made
    have own := constant_quote s
    rw [Go.quote] at own
    rw [own]
    exact ⟨clean, .interpreted s (interpreted_quote s), interpreted_quote s⟩
  | list _ =>
    obtain ⟨texts, _, ended⟩ := bind_eq_ok made
    cases ended
    exact constantFor_compound (by simp [isCompound]) clean fun _ read => read
  | map _ _ =>
    obtain ⟨texts, _, ended⟩ := bind_eq_ok made
    cases ended
    exact constantFor_compound (by simp [isCompound]) clean fun _ read => read

/-- Every value with a JSON text has a constant, which is one operand and gives the value back. -/
theorem EnumLiteral.constant_of_isData (identifier : String) {v : Value} (data : v.IsData) :
    ∃ l, EnumLiteral.ofValue identifier v = .ok l ∧
      ConstantFor v l.literal (Go.constant l.literal) := by
  obtain ⟨text, made⟩ := Json.compact_of_isData data
  exact ⟨⟨identifier ++ Naming.constantSuffix text, text⟩, by rw [ofValue, made]; rfl,
    constantFor_of_compact data made⟩

/-- A value with the sign that ends a raw literal, a fraction and a break. -/
def Value.marked : Value :=
  .map [(.text "\x60", .list [.null, .float (Float.ofBits 0x3FF8000000000000), .text "\n"])]

theorem EnumLiteral.constant_of_isData_marked :
    Value.marked.IsData ∧ ∃ l, EnumLiteral.ofValue "Kind" Value.marked = .ok l ∧
      ConstantFor Value.marked l.literal (Go.constant l.literal) := by
  have half : Decimal.reading (Float.ofBits 0x3FF8000000000000) = .finite false 0x18000000000000 (-52) :=
    rfl
  have inner : (Value.list [.null, .float (Float.ofBits 0x3FF8000000000000), .text "\n"]).IsData := by
    refine .list ?_
    simp only [List.forall_mem_cons]
    exact ⟨.null, .float half, .text _, by simp⟩
  have data : Value.marked.IsData :=
    .map (by simp) (by simpa using inner)
  exact ⟨data, EnumLiteral.constant_of_isData "Kind" data⟩

example : Go.constant "[\"\x60\"]" = "\"[\\\"\x60\\\"]\"" := by decide

end PluginCompiler
