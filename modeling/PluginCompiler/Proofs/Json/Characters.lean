import Mathlib.Data.List.Basic
import PluginCompiler.Json.Compact
import PluginCompiler.Proofs.Section.Traverse
import PluginCompiler.Proofs.Text.Characters

/-! The characters of compact JSON. No control character is among them: those of a text are escaped,
and nothing else has any. -/

set_option autoImplicit false

namespace PluginCompiler.Json

open Decimal

def Clean (cs : List Char) : Prop := ∀ c ∈ cs, 0x20 ≤ c.toNat

variable {cs ds : List Char} {c : Char} {text : String} {texts : List String} {v : Value}

instance (cs : List Char) : Decidable (Clean cs) :=
  decidable_of_iff (cs.all fun c => decide (0x20 ≤ c.toNat)) (by simp [Clean])

@[simp] theorem clean_nil : Clean [] := by
  simp [Clean]

@[simp] theorem clean_cons : Clean (c :: cs) ↔ 0x20 ≤ c.toNat ∧ Clean cs := by
  simp [Clean]

@[simp] theorem clean_append : Clean (cs ++ ds) ↔ Clean cs ∧ Clean ds := by
  simp [Clean, or_imp, forall_and]

theorem Clean.subset (clean : Clean cs) (sub : ds ⊆ cs) : Clean ds :=
  fun c member => clean c (sub member)

theorem clean_toDigits (n : Nat) : Clean (Nat.toDigits 10 n) := by
  intro c member
  have digit := Nat.isDigit_of_mem_toDigits (by decide) (by decide) member
  exact Nat.le_trans (by decide) (Char.isDigit_iff_toNat.mp digit).1

theorem clean_zeros (n : Nat) : Clean (List.replicate n '0') := by
  intro c member
  rw [List.eq_of_mem_replicate member]
  decide

theorem clean_exponentText (e : Int) : Clean (exponentText e) := by
  have digits := clean_toDigits e.natAbs
  rw [exponentText, clean_cons]
  constructor
  · split <;> decide
  · split
    · exact clean_cons.mpr ⟨by decide, digits⟩
    · exact digits

theorem clean_layOut (d : Nat) (e : Int) : Clean (layOut d e) := by
  have digits := clean_toDigits d
  have front (n : Nat) : Clean ((Nat.toDigits 10 d).take n) := digits.subset (List.take_subset n _)
  have back (n : Nat) : Clean ((Nat.toDigits 10 d).drop n) := digits.subset (List.drop_subset n _)
  have power : 0x20 ≤ 'e'.toNat := by decide
  rw [layOut]
  dsimp only
  split
  · rw [clean_append, clean_append, clean_cons]
    refine ⟨⟨front 1, ?_⟩, power, clean_exponentText _⟩
    split
    · exact clean_nil
    · exact clean_cons.mpr ⟨by decide, back 1⟩
  · split
    · simp [digits, clean_zeros]
    · split
      · simp [digits, clean_zeros]
      · simp [front, back]

theorem clean_floatText (x : Float) : Clean (floatText x).toList := by
  rw [floatText]
  split
  · decide
  · split <;> decide
  · next negative m e _ =>
    have body : Clean (if m = 0 then ['0', '.', '0'] else layOut (shortest m e).1 (shortest m e).2) := by
      split
      · decide
      · exact clean_layOut _ _
    dsimp only
    rw [String.toList_ofList]
    split
    · exact clean_cons.mpr ⟨by decide, body⟩
    · exact body

theorem clean_numberText {x : Float} (ok : numberText x = .ok text) : Clean text.toList := by
  rw [numberText] at ok
  split at ok
  · cases ok
    exact clean_floatText x
  · cases ok

theorem clean_toString (n : Int) : Clean (toString n).toList := by
  rw [Int.toString_eq_repr]
  cases n with
  | ofNat n => simpa [Int.repr] using clean_toDigits n
  | negSucc n => simpa [Int.repr] using clean_toDigits (n + 1)

theorem clean_bool (b : Bool) : Clean (if b then "true" else "false").toList := by
  cases b <;> decide

theorem clean_escaped (c : Char) : Clean (escaped c) := by
  -- Control characters that have no short escape are written by their code.
  have table : ∀ n < 0x20, Clean (Text.hexDigits 4 n) := by decide
  unfold escaped
  split_ifs with quote slash line return_ tab feed back control
  · decide
  · decide
  · decide
  · decide
  · decide
  · decide
  · decide
  · simpa using table c.toNat control
  · simpa using control

theorem clean_quote (s : String) : Clean (quote s).toList := by
  have inner : Clean (s.toList.flatMap escaped) := by
    intro c member
    obtain ⟨d, _, inside⟩ := List.mem_flatMap.mp member
    exact clean_escaped d c inside
  rw [quote, String.toList_ofList, quoteChars]
  simp [inner]

theorem integerText_eq_ok {n : Int} {text : String} :
    integerText n = .ok text ↔ Text.isWritable n = true ∧ text = toString n := by
  rw [integerText]
  split
  · next writable => exact ⟨fun ok => ⟨writable, (Except.ok.inj ok).symm⟩, fun same => by rw [same.2]⟩
  · next long => exact ⟨nofun, fun same => absurd same.1 long⟩

theorem clean_joined (all : ∀ t ∈ texts, Clean t.toList) : Clean (",".intercalate texts).toList := by
  intro c member
  rcases Text.mem_of_mem_intercalate member with between | ⟨t, inside, found⟩
  · exact (by decide : Clean ",".toList) c between
  · exact all t inside c found

theorem clean_enclosed {first last s : String} (front : Clean first.toList) (back : Clean last.toList)
    (inner : Clean s.toList) : Clean (first ++ s ++ last).toList := by
  rw [String.toList_append, String.toList_append, clean_append, clean_append]
  exact ⟨⟨front, inner⟩, back⟩

mutual
theorem clean_compactIn (around : List Nat) (v : Value) {text : String}
    (ok : compactIn around v = .ok text) : Clean text.toList := by
  cases v with
  | null =>
    cases ok
    decide
  | bool b =>
    cases ok
    exact clean_bool b
  | int n =>
    obtain ⟨_, rfl⟩ := integerText_eq_ok.mp ok
    exact clean_toString n
  | float x => exact clean_numberText ok
  | text s =>
    cases ok
    exact clean_quote s
  | list items | tuple items =>
    obtain ⟨texts, inner, ended⟩ := bind_eq_ok ok
    cases ended
    exact clean_enclosed (by decide) (by decide) (clean_joined (clean_compactAll around items inner))
  | map entries =>
    obtain ⟨texts, inner, ended⟩ := bind_eq_ok ok
    cases ended
    exact clean_enclosed (by decide) (by decide)
      (clean_joined (clean_compactEntries around entries inner))
  | knot l body =>
    -- Inside itself a container has no text, so this one is met for the first time.
    rw [compactIn] at ok
    split at ok
    · cases ok
    · exact clean_compactIn (l :: around) body ok
  | again _ | bytes _ | date _ | moment _ | set _ => cases ok

theorem clean_compactAll (around : List Nat) (vs : List Value) {texts : List String}
    (ok : compactAll around vs = .ok texts) : ∀ t ∈ texts, Clean t.toList := by
  cases vs with
  | nil =>
    cases ok
    simp
  | cons v vs =>
    obtain ⟨first, own, rest⟩ := bind_eq_ok ok
    obtain ⟨more, later, ended⟩ := bind_eq_ok rest
    cases ended
    exact List.forall_mem_cons.mpr ⟨clean_compactIn around v own, clean_compactAll around vs later⟩

theorem clean_compactEntries (around : List Nat) (entries : List (Value × Value))
    {texts : List String} (ok : compactEntries around entries = .ok texts) :
    ∀ t ∈ texts, Clean t.toList := by
  cases entries with
  | nil =>
    cases ok
    simp
  | cons e entries =>
    obtain ⟨k, v⟩ := e
    obtain ⟨name, _, rest⟩ := bind_eq_ok ok
    obtain ⟨value, own, rest⟩ := bind_eq_ok rest
    obtain ⟨more, later, ended⟩ := bind_eq_ok rest
    cases ended
    have entry : Clean (quote name ++ ":" ++ value).toList := by
      simp [clean_quote, clean_compactIn around v own]
    exact List.forall_mem_cons.mpr ⟨entry, clean_compactEntries around entries later⟩
end

theorem clean_compact (ok : compact v = .ok text) : Clean text.toList := clean_compactIn [] v ok

end PluginCompiler.Json
