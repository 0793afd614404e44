import PluginCompiler.Proofs.Enrich.Outcome
import PluginCompiler.Proofs.Naming

/-! The constants for the allowed values of a parameter. Values have constants exactly if each of them
has a text and no two of the constants share a name. -/

set_option autoImplicit false

namespace PluginCompiler

variable {identifier : String} {v : Value} {values : List Value} {l : EnumLiteral}
  {taken literals : List EnumLiteral}

structure EnumLiteral.Expresses (identifier : String) (v : Value) (l : EnumLiteral) : Prop where
  text : Json.compact v = .ok l.literal
  name : l.name = identifier ++ Naming.constantSuffix l.literal

namespace EnumLiteral

theorem ofValue_eq_ok : ofValue identifier v = .ok l ↔ Expresses identifier v l := by
  unfold ofValue
  cases made : Json.compact v with
  | error fault =>
    constructor
    · intro ok
      cases ok
    · intro expresses
      cases made.symm.trans expresses.text
  | ok text =>
    constructor
    · intro ok
      cases ok
      exact ⟨made, rfl⟩
    · intro expresses
      obtain ⟨name, literal⟩ := l
      have same := made.symm.trans expresses.text
      cases same
      have named := expresses.name
      dsimp only at named
      rw [named]
      rfl

theorem Expresses.unique {m : EnumLiteral} (first : Expresses identifier v l)
    (second : Expresses identifier v m) : l = m := by
  have same := ofValue_eq_ok.mpr first
  rw [ofValue_eq_ok.mpr second] at same
  exact (Except.ok.inj same).symm

end EnumLiteral

open EnumLiteral (Expresses)

inductive EnumProblem.Arises (identifier : String) (earlier : List EnumLiteral) (v : Value) :
    EnumProblem → Prop where
  | noText {fault : Json.Fault} (failed : Json.compact v = .error fault) :
      Arises identifier earlier v (.noText fault)
  | taken {l e : EnumLiteral} (own : Expresses identifier v l) (member : e ∈ earlier)
      (same : e.name = l.name) : Arises identifier earlier v (.taken l.name e.literal)

theorem fits_or_arises (identifier : String) (taken : List EnumLiteral) (v : Value) :
    (∃ l, Expresses identifier v l ∧ l.name ∉ taken.map EnumLiteral.name) ∨
      ∃ problem, EnumProblem.Arises identifier taken v problem := by
  cases made : Json.compact v with
  | error fault => exact .inr ⟨_, .noText made⟩
  | ok text =>
    have own : Expresses identifier v ⟨identifier ++ Naming.constantSuffix text, text⟩ := ⟨made, rfl⟩
    by_cases fresh : identifier ++ Naming.constantSuffix text ∈ taken.map EnumLiteral.name
    · obtain ⟨e, member, same⟩ := List.mem_map.mp fresh
      exact .inr ⟨_, .taken own member same⟩
    · exact .inl ⟨_, own, fresh⟩

theorem literalsFrom_of_fits (own : Expresses identifier v l)
    (fresh : l.name ∉ taken.map EnumLiteral.name) (rest : List Value) :
    literalsFrom identifier taken (v :: rest) =
      (literalsFrom identifier (taken ++ [l]) rest).map (l :: ·) := by
  have absent : (taken.find? fun t => t.name == l.name) = none := by
    rw [List.find?_eq_none]
    intro t member
    simpa using fun same => fresh (List.mem_map.mpr ⟨t, member, same⟩)
  rw [literalsFrom, EnumLiteral.ofValue_eq_ok.mpr own]
  dsimp only
  rw [absent]

theorem literalsFrom_of_arises {problem : EnumProblem} (distinct : (taken.map EnumLiteral.name).Nodup)
    (arises : problem.Arises identifier taken v) (rest : List Value) :
    literalsFrom identifier taken (v :: rest) = .error (v, problem) := by
  rw [literalsFrom]
  cases arises with
  | noText failed => rw [EnumLiteral.ofValue, failed, Except.map]
  | @taken l e own member same =>
    -- Names are distinct, so the constant that is found is the one that is meant.
    have found : (taken.find? fun t => t.name == l.name) = some e := by
      cases search : taken.find? fun t => t.name == l.name with
      | none => exact absurd (by simpa using same) (List.find?_eq_none.mp search e member)
      | some t =>
        have named : t.name = l.name := by simpa using List.find?_some search
        rw [List.inj_on_of_nodup_map distinct (List.mem_of_find?_eq_some search) member
          (named.trans same.symm)]
    rw [EnumLiteral.ofValue_eq_ok.mpr own]
    dsimp only
    rw [found]

theorem distinct_concat (distinct : (taken.map EnumLiteral.name).Nodup)
    (fresh : l.name ∉ taken.map EnumLiteral.name) : ((taken ++ [l]).map EnumLiteral.name).Nodup := by
  rw [List.map_append, List.map_singleton, ← List.concat_eq_append]
  exact distinct.concat fresh

theorem literalsFrom_eq_ok (distinct : (taken.map EnumLiteral.name).Nodup) :
    literalsFrom identifier taken values = .ok literals ↔
      List.Forall₂ (Expresses identifier) values literals ∧
        ((taken ++ literals).map EnumLiteral.name).Nodup := by
  induction values generalizing taken literals with
  | nil =>
    rw [literalsFrom, List.forall₂_nil_left_iff]
    constructor
    · intro ok
      cases ok
      exact ⟨rfl, by simpa using distinct⟩
    · rintro ⟨rfl, _⟩
      rfl
  | cons v rest ih =>
    rw [List.forall₂_cons_left_iff]
    obtain ⟨l, own, fresh⟩ | ⟨problem, arises⟩ := fits_or_arises identifier taken v
    · have longer := distinct_concat distinct fresh
      rw [literalsFrom_of_fits own fresh]
      constructor
      · intro ok
        obtain ⟨further, later, rfl⟩ := map_eq_ok ok
        obtain ⟨along, apart⟩ := (ih longer).mp later
        rw [List.append_assoc, List.singleton_append] at apart
        exact ⟨⟨l, further, own, along, rfl⟩, apart⟩
      · rintro ⟨⟨other, further, expresses, along, rfl⟩, apart⟩
        cases own.unique expresses
        rw [← List.singleton_append, ← List.append_assoc] at apart
        rw [(ih longer).mpr ⟨along, apart⟩]
        rfl
    · rw [literalsFrom_of_arises distinct arises]
      constructor
      · intro ok
        cases ok
      · rintro ⟨⟨other, further, expresses, _, rfl⟩, apart⟩
        cases arises with
        | noText failed =>
          rw [expresses.text] at failed
          cases failed
        | @taken l e own member same =>
          -- The name is taken, so no list of constants goes on with it.
          rw [List.map_append, List.nodup_append] at apart
          have clash := apart.2.2 e.name (List.mem_map_of_mem member) other.name (by simp)
          rw [same, own.unique expresses] at clash
          exact absurd rfl clash

theorem literalsOf_eq_ok :
    literalsOf identifier values = .ok literals ↔
      List.Forall₂ (Expresses identifier) values literals ∧
        (literals.map EnumLiteral.name).Nodup :=
  literalsFrom_eq_ok List.nodup_nil

theorem Naming.isWord_constantSuffix (literal : String) : IsWord (constantSuffix literal) := by
  unfold constantSuffix
  dsimp only
  split
  · decide
  · exact isWord_upperCamel literal

namespace Parameter.Enriched

variable {known : List String} {owner key : String} {p p' : Parameter}

theorem expresses (becomes : Parameter.Enriched known owner key p p') (member : l ∈ p'.enumLiterals) :
    ∃ v ∈ p.enum, EnumLiteral.Expresses (Naming.upperCamel key) v l := by
  exact Section.exists_of_forall₂ (literalsOf_eq_ok.mp becomes.enumLiterals).1 member

theorem nodup_names (becomes : Parameter.Enriched known owner key p p') :
    (p'.enumLiterals.map EnumLiteral.name).Nodup :=
  (literalsOf_eq_ok.mp becomes.enumLiterals).2

theorem isWord_name (becomes : Parameter.Enriched known owner key p p')
    (member : l ∈ p'.enumLiterals) : Naming.IsWord l.name := by
  obtain ⟨v, _, expresses⟩ := becomes.expresses member
  rw [expresses.name]
  exact (Naming.isWord_upperCamel key).append (Naming.isWord_constantSuffix _)

end Parameter.Enriched

end PluginCompiler
