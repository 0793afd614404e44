import PluginCompiler.Json.Reader
import PluginCompiler.Proofs.Section.Traverse
import PluginCompiler.Proofs.Yaml.Outline

/-! Objects that are read from JSON. Their names are texts, and no name stands in one of them twice. -/

set_option autoImplicit false

namespace PluginCompiler.Json

open Value (put)

variable {entries : List (Value × Value)} {name : String} {v : Value} {fuel i : Nat} {cs : List Char}

/-- The entries of an object: each under a name of its own. -/
structure IsObject (entries : List (Value × Value)) : Prop where
  named : ∀ e ∈ entries, ∃ name, e.1 = .text name
  distinct : (entries.map Prod.fst).Nodup

theorem isObject_nil : IsObject [] := ⟨nofun, List.nodup_nil⟩

theorem fst_mem_put {k : Value} (member : k ∈ (put (.text name) v entries).map Prod.fst) :
    k = .text name ∨ k ∈ entries.map Prod.fst := by
  induction entries with
  | nil => exact .inl (List.mem_singleton.mp member)
  | cons e rest ih =>
    rw [put] at member
    split at member
    · exact .inr member
    · rcases List.mem_cons.mp member with rfl | later
      · exact .inr List.mem_cons_self
      · exact (ih later).imp_right (List.mem_cons_of_mem _)

theorem IsObject.put (object : IsObject entries) (name : String) (v : Value) :
    IsObject (put (.text name) v entries) := by
  constructor
  · intro e member
    rcases fst_mem_put (List.mem_map_of_mem member) with same | old
    · exact ⟨name, same⟩
    · obtain ⟨e', inside, same⟩ := List.mem_map.mp old
      rw [← same]
      exact object.named e' inside
  · have distinct := object.distinct
    clear object
    induction entries with
    | nil => exact List.pairwise_singleton _ _
    | cons e rest ih =>
      rw [List.map_cons, List.nodup_cons] at distinct
      rw [Value.put]
      split
      · rwa [List.map_cons, List.nodup_cons]
      · next apart =>
        rw [List.map_cons, List.nodup_cons]
        refine ⟨fun later => ?_, ih distinct.2⟩
        rcases fst_mem_put later with same | old
        · exact apart (by rw [same, Value.sameKey, beq_self_eq_true])
        · exact distinct.1 old

theorem isObject_of_membersFrom {done : List (Value × Value)} {rest : Nat × List Char}
    (object : IsObject done) (read : membersFrom fuel i cs done = .ok (v, rest)) :
    ∃ entries, v = .map entries ∧ IsObject entries := by
  induction fuel generalizing i cs done with
  | zero => simp [membersFrom] at read
  | succ fuel ih =>
    unfold membersFrom at read
    split at read
    · obtain ⟨⟨name, i, after⟩, _, read⟩ := bind_eq_ok read
      dsimp only at read
      split at read
      · obtain ⟨⟨member, i, after⟩, _, read⟩ := bind_eq_ok read
        dsimp only at read
        split at read
        · cases read
          exact ⟨_, rfl, object.put name member⟩
        · exact ih (object.put name member) read
        · cases read
      · cases read
    · cases read

theorem named?_ne_map {after : Nat × List Char} : named? cs ≠ some (.map entries, after) := by
  intro found
  obtain ⟨⟨word, w⟩, listed, same⟩ := List.exists_of_findSome?_eq_some found
  obtain ⟨rest, _, same⟩ := Option.map_eq_some_iff.mp same
  cases same
  simp [named] at listed

theorem integerOf_ne_map : integerOf i cs ≠ .ok (.map entries) := by
  rw [integerOf]
  split <;> nofun

theorem numeral_ne_map {rest : Nat × List Char} : numeral i cs ≠ .ok (.map entries, rest) := by
  fun_cases numeral i cs with
  | case1 => exact nofun
  | case2 _ _ _ _ _ _ _ _ _ _ _ _ _ lexeme value =>
    intro ended
    obtain ⟨v, found, same⟩ := map_eq_ok ended
    cases same
    -- The value is an integer or a float.
    unfold value at found
    split at found
    · exact integerOf_ne_map found
    · split at found <;> cases found

theorem itemsFrom_ne_map {done : List Value} {rest : Nat × List Char} :
    itemsFrom fuel i cs done ≠ .ok (.map entries, rest) := by
  induction fuel generalizing i cs done with
  | zero => simp [itemsFrom]
  | succ fuel ih =>
    intro read
    unfold itemsFrom at read
    obtain ⟨⟨item, i, after⟩, _, read⟩ := bind_eq_ok read
    dsimp only at read
    split at read
    · cases read
    · exact ih read
    · cases read

theorem isObject_of_valueFrom {rest : Nat × List Char}
    (read : valueFrom fuel i cs = .ok (.map entries, rest)) : IsObject entries := by
  cases fuel with
  | zero => simp [valueFrom] at read
  | succ fuel =>
    unfold valueFrom at read
    split at read
    · obtain ⟨text, _, read⟩ := bind_eq_ok read
      cases read
    · split at read
      · cases read
      · exact absurd read itemsFrom_ne_map
    · split at read
      · cases read
        exact isObject_nil
      · obtain ⟨entries', same, object⟩ := isObject_of_membersFrom isObject_nil read
        cases same
        exact object
    · split at read
      · next found =>
        cases read
        exact absurd found named?_ne_map
      · exact absurd read numeral_ne_map

theorem isObject_of_read (read : Json.read cs = .ok (.map entries)) : IsObject entries := by
  unfold Json.read at read
  split at read
  · cases read
  · obtain ⟨⟨w, i, rest⟩, value, read⟩ := bind_eq_ok read
    dsimp only at read
    split at read
    · cases read
      exact isObject_of_valueFrom value
    · cases read

end PluginCompiler.Json
