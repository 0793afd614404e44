import Mathlib.Data.List.Nodup
import PluginCompiler.Plan

/-! When a plan fails: at the first output whose key is taken, in favour of the output that took it. -/

set_option autoImplicit false

namespace PluginCompiler

namespace Plan

variable {seen os : List Output} {earlier o : Output}

/-- An output whose key an earlier one has taken, with no such output before it. -/
def FirstCollision (os : List Output) (earlier o : Output) : Prop :=
  ∃ before between rest, os = before ++ earlier :: between ++ o :: rest ∧
    ((before ++ earlier :: between).map Output.key).Nodup ∧ earlier.key = o.key

theorem find?_key_eq_none : (seen.find? fun p => p.key == o.key) = none ↔
    o.key ∉ seen.map Output.key := by
  simp

theorem find?_key_eq_some (distinct : (seen.map Output.key).Nodup) :
    (seen.find? fun p => p.key == o.key) = some earlier ↔
      ∃ before between, seen = before ++ earlier :: between ∧ earlier.key = o.key := by
  rw [List.find?_eq_some_iff_append]
  constructor
  · rintro ⟨same, before, between, rfl, _⟩
    exact ⟨before, between, rfl, by simpa using same⟩
  · rintro ⟨before, between, rfl, same⟩
    refine ⟨by simpa using same, before, between, rfl, fun p member => ?_⟩
    rw [List.map_append, List.nodup_append] at distinct
    have apart := distinct.2.2 p.key (List.mem_map.mpr ⟨p, member, rfl⟩) earlier.key
      (List.mem_map.mpr ⟨earlier, List.mem_cons_self, rfl⟩)
    simpa [same] using apart

theorem mem_keys_of_find? (found : (seen.find? fun p => p.key == o.key) = some earlier) :
    o.key ∈ seen.map Output.key := by
  by_contra fresh
  rw [find?_key_eq_none.mpr fresh] at found
  cases found

theorem not_nodup_keys (taken : o.key ∈ seen.map Output.key) (rest : List Output) :
    ¬ ((seen ++ o :: rest).map Output.key).Nodup := by
  rw [List.map_append, List.map_cons, List.nodup_append]
  rintro ⟨_, _, apart⟩
  exact apart o.key taken o.key List.mem_cons_self rfl

theorem nodup_keys_concat (distinct : (seen.map Output.key).Nodup)
    (found : (seen.find? fun p => p.key == o.key) = none) : ((seen ++ [o]).map Output.key).Nodup := by
  rw [List.map_append, List.map_singleton, ← List.concat_eq_append]
  exact distinct.concat (find?_key_eq_none.mp found)

theorem collisionFrom_eq_none (distinct : (seen.map Output.key).Nodup) :
    collisionFrom seen os = none ↔ ((seen ++ os).map Output.key).Nodup := by
  induction os generalizing seen with
  | nil => simpa [collisionFrom] using distinct
  | cons o rest ih =>
    rw [collisionFrom]
    cases found : seen.find? fun p => p.key == o.key with
    | some earlier => exact iff_of_false nofun (not_nodup_keys (mem_keys_of_find? found) rest)
    | none => rw [ih (nodup_keys_concat distinct found), List.append_assoc, List.singleton_append]

theorem collisionFrom_eq_some (distinct : (seen.map Output.key).Nodup) :
    collisionFrom seen os = some (earlier, o) ↔
      ∃ between rest, os = between ++ o :: rest ∧ ((seen ++ between).map Output.key).Nodup ∧
        ((seen ++ between).find? fun p => p.key == o.key) = some earlier := by
  induction os generalizing seen with
  | nil => simp [collisionFrom]
  | cons next os ih =>
    rw [collisionFrom]
    cases found : seen.find? fun p => p.key == next.key with
    | some taken =>
      constructor
      · rintro ⟨⟩
        exact ⟨[], os, rfl, by simpa using distinct, by simpa using found⟩
      · rintro ⟨between, rest, split, apart, first⟩
        cases between with
        | nil =>
          cases split
          rw [List.append_nil, found] at first
          cases first
          rfl
        | cons head between =>
          -- The next output is then one of those with keys of their own.
          cases split
          exact absurd apart (not_nodup_keys (mem_keys_of_find? found) between)
    | none =>
      rw [ih (nodup_keys_concat distinct found)]
      constructor
      · rintro ⟨between, rest, rfl, apart, first⟩
        rw [List.append_assoc, List.singleton_append] at apart first
        exact ⟨next :: between, rest, rfl, apart, first⟩
      · rintro ⟨between, rest, split, apart, first⟩
        cases between with
        | nil =>
          cases split
          rw [List.append_nil, found] at first
          cases first
        | cons head between =>
          cases split
          rw [← List.singleton_append, ← List.append_assoc] at apart first
          exact ⟨between, rest, rfl, apart, first⟩

theorem collision?_eq_none : collision? os = none ↔ (os.map Output.key).Nodup :=
  collisionFrom_eq_none (by simp)

theorem collision?_eq_some : collision? os = some (earlier, o) ↔ FirstCollision os earlier o := by
  rw [collision?, collisionFrom_eq_some (by simp)]
  constructor
  · rintro ⟨front, rest, rfl, apart, first⟩
    obtain ⟨before, between, rfl, same⟩ := (find?_key_eq_some apart).mp first
    exact ⟨before, between, rest, rfl, apart, same⟩
  · rintro ⟨before, between, rest, rfl, apart, same⟩
    exact ⟨before ++ earlier :: between, rest, rfl, apart,
      (find?_key_eq_some apart).mpr ⟨before, between, rfl, same⟩⟩

end Plan

variable {spec : Spec} {source : List UInt8}

theorem Spec.plan_eq_ok {os : List Output} :
    spec.plan source = .ok os ↔
      os = Plan.outputs spec source ∧ ((Plan.outputs spec source).map Output.key).Nodup := by
  simp only [plan]
  cases collided : Plan.collision? (Plan.outputs spec source) with
  | none => simp [Plan.collision?_eq_none.mp collided, eq_comm]
  | some pair =>
    have taken : ¬ ((Plan.outputs spec source).map Output.key).Nodup := by
      rw [← Plan.collision?_eq_none, collided]
      simp
    simp [taken]

theorem Spec.plan_eq_error {failure : Failure} :
    spec.plan source = .error failure ↔
      ∃ earlier o, Plan.FirstCollision (Plan.outputs spec source) earlier o ∧
        failure = .collision o.path.toString earlier.owner o.owner := by
  simp only [plan, ← Plan.collision?_eq_some]
  cases collided : Plan.collision? (Plan.outputs spec source) with
  | none => simp
  | some pair =>
    obtain ⟨earlier, o⟩ := pair
    simp [eq_comm]

end PluginCompiler
