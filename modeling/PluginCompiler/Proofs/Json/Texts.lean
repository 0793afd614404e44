import PluginCompiler.Proofs.Json.Characters

/-! Which values have a compact text. A value has none exactly if something inside it has none: bytes, a
date, a set, a number that is not finite or has too many digits, a mapping with a key that is no name, or
a container that contains itself. -/

set_option autoImplicit false

namespace PluginCompiler

namespace Value

/-- What is inside a value, the value itself among it. The lists hold the labels of the containers around
the value and around what is inside. -/
inductive Inside (x : Value) (within : List Nat) : List Nat → Value → Prop where
  | self : Inside x within within x
  | item {around : List Nat} {items : List Value} {v : Value} (member : v ∈ items)
      (inside : Inside x within around v) : Inside x within around (.list items)
  | component {around : List Nat} {items : List Value} {v : Value} (member : v ∈ items)
      (inside : Inside x within around v) : Inside x within around (.tuple items)
  | entry {around : List Nat} {entries : List (Value × Value)} {e : Value × Value} (member : e ∈ entries)
      (inside : Inside x within around e.2) : Inside x within around (.map entries)
  | body {around : List Nat} {label : Nat} {body : Value}
      (inside : Inside x within (label :: around) body) : Inside x within around (.knot label body)

def IsFinite (x : Float) : Prop :=
  ∃ negative mantissa exponent, Decimal.reading x = .finite negative mantissa exponent

inductive IsName : Value → Prop where
  | null : IsName .null
  | bool (b : Bool) : IsName (.bool b)
  | int {n : Int} (writable : Text.isWritable n = true) : IsName (.int n)
  | float {x : Float} (finite : IsFinite x) : IsName (.float x)
  | text (s : String) : IsName (.text s)

/-- What has no text whatever it holds. A container inside itself is met again by its label. -/
inductive IsTextless (around : List Nat) : Value → Prop where
  | bytes (b : List UInt8) : IsTextless around (.bytes b)
  | date (d : Date) : IsTextless around (.date d)
  | moment (m : Moment) : IsTextless around (.moment m)
  | set (items : List Value) : IsTextless around (.set items)
  | float {x : Float} (infinite : ¬ IsFinite x) : IsTextless around (.float x)
  | int {n : Int} (long : Text.isWritable n = false) : IsTextless around (.int n)
  | map {entries : List (Value × Value)} {e : Value × Value} (member : e ∈ entries)
      (unnamed : ¬ IsName e.1) : IsTextless around (.map entries)
  | again (label : Nat) : IsTextless around (.again label)
  | knot {label : Nat} (body : Value) (inside : label ∈ around) : IsTextless around (.knot label body)

/-- Nothing inside a value is without a text. -/
def IsTextual (around : List Nat) (v : Value) : Prop :=
  ∀ x within, Inside x within around v → ¬ IsTextless within x

variable {around : List Nat} {items : List Value} {entries : List (Value × Value)} {v : Value}

theorem isTextual_of_single (single : ∀ x within, Inside x within around v → x = v ∧ within = around) :
    IsTextual around v ↔ ¬ IsTextless around v := by
  constructor
  · exact fun textual => textual v around .self
  · intro fit x within inside
    obtain ⟨rfl, rfl⟩ := single x within inside
    exact fit

theorem isTextual_list : IsTextual around (.list items) ↔ ∀ v ∈ items, IsTextual around v := by
  constructor
  · exact fun textual v member x within inside => textual x within (.item member inside)
  · intro each x within inside
    cases inside with
    | self => nofun
    | item member inside => exact each _ member x within inside

theorem isTextual_tuple : IsTextual around (.tuple items) ↔ ∀ v ∈ items, IsTextual around v := by
  constructor
  · exact fun textual v member x within inside => textual x within (.component member inside)
  · intro each x within inside
    cases inside with
    | self => nofun
    | component member inside => exact each _ member x within inside

theorem isTextual_map :
    IsTextual around (.map entries) ↔ ∀ e ∈ entries, IsName e.1 ∧ IsTextual around e.2 := by
  constructor
  · intro textual e member
    refine ⟨?_, fun x within inside => textual x within (.entry member inside)⟩
    by_contra unnamed
    exact textual _ _ .self (.map member unnamed)
  · intro each x within inside
    cases inside with
    | self =>
      intro textless
      cases textless with
      | map member unnamed => exact unnamed (each _ member).1
    | entry member inside => exact (each _ member).2 x within inside

theorem isTextual_knot {label : Nat} {body : Value} :
    IsTextual around (.knot label body) ↔ label ∉ around ∧ IsTextual (label :: around) body := by
  constructor
  · exact fun textual => ⟨fun inside => textual _ _ .self (.knot body inside),
      fun x within inside => textual x within (.body inside)⟩
  · rintro ⟨fresh, inner⟩ x within inside
    cases inside with
    | self =>
      intro textless
      cases textless with
      | knot _ again => exact fresh again
    | body inside => exact inner x within inside

end Value

namespace Json

open Value (IsFinite IsName IsTextless IsTextual Inside)

variable {around : List Nat} {v : Value}

theorem exists_numberText_iff {x : Float} : (∃ text, numberText x = .ok text) ↔ IsFinite x := by
  rw [numberText]
  constructor
  · rintro ⟨text, ok⟩
    split at ok
    · next negative mantissa exponent read => exact ⟨negative, mantissa, exponent, read⟩
    · cases ok
  · rintro ⟨negative, mantissa, exponent, read⟩
    exact ⟨_, by rw [read]⟩

theorem exists_integerText_iff {n : Int} :
    (∃ text, integerText n = .ok text) ↔ Text.isWritable n = true := by
  simp [integerText_eq_ok]

theorem exists_key_iff : (∃ text, key v = .ok text) ↔ IsName v := by
  constructor
  · rintro ⟨text, ok⟩
    cases v with
    | null => exact .null
    | bool b => exact .bool b
    | int n => exact .int (exists_integerText_iff.mp ⟨text, ok⟩)
    | float x => exact .float (exists_numberText_iff.mp ⟨text, ok⟩)
    | text s => exact .text s
    | _ => cases ok
  · intro name
    cases name with
    | float finite => exact exists_numberText_iff.mpr finite
    | int writable => exact exists_integerText_iff.mpr writable
    | _ => exact ⟨_, rfl⟩

theorem exists_compactAll_iff {items : List Value} :
    (∃ texts, compactAll around items = .ok texts) ↔
      ∀ v ∈ items, ∃ text, compactIn around v = .ok text := by
  induction items with
  | nil => simp [compactAll]
  | cons v rest ih =>
    rw [List.forall_mem_cons, ← ih]
    constructor
    · rintro ⟨texts, ok⟩
      obtain ⟨text, own, ok⟩ := bind_eq_ok ok
      obtain ⟨more, later, _⟩ := bind_eq_ok ok
      exact ⟨⟨text, own⟩, more, later⟩
    · rintro ⟨⟨text, own⟩, more, later⟩
      exact ⟨text :: more, by rw [compactAll, own, later]; rfl⟩

theorem exists_compactEntries_iff {entries : List (Value × Value)} :
    (∃ texts, compactEntries around entries = .ok texts) ↔
      ∀ e ∈ entries, (∃ name, key e.1 = .ok name) ∧ ∃ text, compactIn around e.2 = .ok text := by
  induction entries with
  | nil => simp [compactEntries]
  | cons e rest ih =>
    obtain ⟨k, v⟩ := e
    rw [List.forall_mem_cons, ← ih]
    constructor
    · rintro ⟨texts, ok⟩
      obtain ⟨name, named, ok⟩ := bind_eq_ok ok
      obtain ⟨text, own, ok⟩ := bind_eq_ok ok
      obtain ⟨more, later, _⟩ := bind_eq_ok ok
      exact ⟨⟨⟨name, named⟩, text, own⟩, more, later⟩
    · rintro ⟨⟨⟨name, named⟩, text, own⟩, more, later⟩
      dsimp only at named own
      exact ⟨(quote name ++ ":" ++ text) :: more, by rw [compactEntries, named, own, later]; rfl⟩

theorem exists_bind_iff {ε α β : Type} {x : Except ε α} {f : α → β} :
    (∃ b, (do return f (← x) : Except ε β) = .ok b) ↔ ∃ a, x = .ok a := by
  cases x with
  | error e => constructor <;> rintro ⟨_, ⟨⟩⟩
  | ok a => exact ⟨fun _ => ⟨a, rfl⟩, fun _ => ⟨f a, rfl⟩⟩

theorem sizeOf_snd_lt_of_mem {e : Value × Value} {entries : List (Value × Value)} (member : e ∈ entries) :
    sizeOf e.2 < sizeOf entries := by
  have inside := List.sizeOf_lt_of_mem member
  obtain ⟨k, v⟩ := e
  rw [Prod.mk.sizeOf_spec] at inside
  dsimp only
  omega

/-- A value has a text inside the labelled containers exactly if everything inside it has one. -/
theorem exists_compactIn_iff (around : List Nat) (v : Value) :
    (∃ text, compactIn around v = .ok text) ↔ IsTextual around v := by
  match v with
  | .null | .bool _ | .text _ =>
    refine iff_of_true ⟨_, rfl⟩ ?_
    intro x within inside
    cases inside
    nofun
  | .float x =>
    rw [Value.isTextual_of_single (by rintro _ _ ⟨⟩; exact ⟨rfl, rfl⟩), compactIn, exists_numberText_iff]
    constructor
    · rintro finite ⟨⟩
      contradiction
    · intro fit
      by_contra infinite
      exact fit (.float infinite)
  | .int n =>
    rw [Value.isTextual_of_single (by rintro _ _ ⟨⟩; exact ⟨rfl, rfl⟩), compactIn, exists_integerText_iff]
    constructor
    · rintro writable ⟨⟩
      simp_all
    · intro fit
      by_contra long
      exact fit (.int (Bool.not_eq_true _ ▸ long))
  | .bytes _ | .date _ | .moment _ | .set _ | .again _ =>
    refine iff_of_false (by rintro ⟨_, ⟨⟩⟩) fun textual => textual _ _ .self ?_
    constructor
  | .list items =>
    have each : ∀ v ∈ items, (∃ text, compactIn around v = .ok text) ↔ IsTextual around v :=
      fun v _ => exists_compactIn_iff around v
    rw [compactIn, exists_bind_iff, exists_compactAll_iff, Value.isTextual_list]
    exact forall₂_congr each
  | .tuple items =>
    have each : ∀ v ∈ items, (∃ text, compactIn around v = .ok text) ↔ IsTextual around v :=
      fun v _ => exists_compactIn_iff around v
    rw [compactIn, exists_bind_iff, exists_compactAll_iff, Value.isTextual_tuple]
    exact forall₂_congr each
  | .map entries =>
    have each : ∀ e ∈ entries, (∃ text, compactIn around e.2 = .ok text) ↔ IsTextual around e.2 :=
      fun e member =>
        have smaller : sizeOf e.2 < sizeOf entries := sizeOf_snd_lt_of_mem member
        exists_compactIn_iff around e.2
    rw [compactIn, exists_bind_iff, exists_compactEntries_iff, Value.isTextual_map]
    exact forall₂_congr fun e member => and_congr exists_key_iff (each e member)
  | .knot label body =>
    -- A container inside itself has no text, whatever else is in it.
    have inner := exists_compactIn_iff (label :: around) body
    rw [Value.isTextual_knot, ← inner, compactIn]
    by_cases inside : label ∈ around
    · simp [inside]
    · simp [inside]
termination_by v

theorem exists_compact_iff : (∃ text, compact v = .ok text) ↔ IsTextual [] v := exists_compactIn_iff [] v

end Json

end PluginCompiler
