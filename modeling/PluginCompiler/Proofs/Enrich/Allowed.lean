import PluginCompiler.Proofs.Enrich.Literals
import PluginCompiler.Proofs.Json.Texts

/-! The allowed values of a parameter. They have constants exactly if everything in them has a text and
no two of them have constants of one name; otherwise the first value that spoils this is reported. -/

set_option autoImplicit false

namespace PluginCompiler

open EnumLiteral (Expresses)

variable {identifier entity : String} {v w : Value} {values rest : List Value} {l : EnumLiteral}
  {taken literals : List EnumLiteral}

/-- The constants of two values have different names. -/
def Value.NamedApart (identifier : String) (v w : Value) : Prop :=
  ∀ l m, Expresses identifier v l → Expresses identifier w m → l.name ≠ m.name

theorem exists_expresses_iff : (∃ l, Expresses identifier v l) ↔ ∃ text, Json.compact v = .ok text :=
  ⟨fun ⟨_, own⟩ => ⟨_, own.text⟩,
    fun ⟨text, made⟩ => ⟨⟨identifier ++ Naming.constantSuffix text, text⟩, made, rfl⟩⟩

theorem exists_forall₂_expresses_iff :
    (∃ literals, List.Forall₂ (Expresses identifier) values literals) ↔
      ∀ v ∈ values, ∃ l, Expresses identifier v l := by
  induction values with
  | nil => simp
  | cons v rest ih =>
    rw [List.forall_mem_cons, ← ih]
    constructor
    · rintro ⟨_, along⟩
      cases along with
      | cons own along => exact ⟨⟨_, own⟩, _, along⟩
    · rintro ⟨⟨l, own⟩, further, along⟩
      exact ⟨l :: further, .cons own along⟩

theorem nodup_names_iff (along : List.Forall₂ (Expresses identifier) values literals) :
    (literals.map EnumLiteral.name).Nodup ↔ values.Pairwise (Value.NamedApart identifier) := by
  induction along with
  | nil => simp
  | @cons v l rest further own along ih =>
    have first : l.name ∉ further.map EnumLiteral.name ↔ ∀ w ∈ rest, v.NamedApart identifier w := by
      constructor
      · intro fresh w member l' m own' other
        obtain ⟨m', inside, expresses⟩ := Section.exists_of_forall₂ along.flip member
        rw [own'.unique own, other.unique expresses]
        exact fun same => fresh (same ▸ List.mem_map_of_mem inside)
      · intro apart taken
        obtain ⟨m, inside, same⟩ := List.mem_map.mp taken
        obtain ⟨w, member, expresses⟩ := Section.exists_of_forall₂ along inside
        exact apart w member l m own expresses same.symm
    rw [List.map_cons, List.nodup_cons, List.pairwise_cons, first, ih]

theorem exists_literalsOf_iff :
    (∃ literals, literalsOf identifier values = .ok literals) ↔
      (∀ v ∈ values, v.IsTextual []) ∧ values.Pairwise (Value.NamedApart identifier) := by
  have texts : (∀ v ∈ values, v.IsTextual []) ↔ ∀ v ∈ values, ∃ l, Expresses identifier v l :=
    forall₂_congr fun v _ => Json.exists_compact_iff.symm.trans exists_expresses_iff.symm
  rw [texts, ← exists_forall₂_expresses_iff]
  constructor
  · rintro ⟨literals, ok⟩
    obtain ⟨along, distinct⟩ := literalsOf_eq_ok.mp ok
    exact ⟨⟨literals, along⟩, (nodup_names_iff along).mp distinct⟩
  · rintro ⟨⟨literals, along⟩, apart⟩
    exact ⟨literals, literalsOf_eq_ok.mpr ⟨along, (nodup_names_iff along).mpr apart⟩⟩

theorem literalsFrom_append {before : List Value} (ok : literalsFrom identifier taken before = .ok literals)
    (distinct : (taken.map EnumLiteral.name).Nodup) (rest : List Value) :
    literalsFrom identifier taken (before ++ rest) =
      (literalsFrom identifier (taken ++ literals) rest).map (literals ++ ·) := by
  induction before generalizing taken literals with
  | nil =>
    cases ok
    rw [List.nil_append, List.append_nil]
    cases literalsFrom identifier taken rest <;> rfl
  | cons v before ih =>
    obtain ⟨l, own, fresh⟩ | ⟨problem, arises⟩ := fits_or_arises identifier taken v
    · rw [literalsFrom_of_fits own fresh] at ok
      obtain ⟨further, later, rfl⟩ := map_eq_ok ok
      rw [List.cons_append, literalsFrom_of_fits own fresh,
        ih later (distinct_concat distinct fresh), List.append_assoc, List.singleton_append]
      cases literalsFrom identifier (taken ++ l :: further) rest <;> rfl
    · rw [literalsFrom_of_arises distinct arises] at ok
      cases ok

/-- The run ends with a value exactly if those before it have constants and something is wrong with it. -/
theorem literalsFrom_eq_error {problem : EnumProblem} (distinct : (taken.map EnumLiteral.name).Nodup) :
    literalsFrom identifier taken values = .error (v, problem) ↔
      ∃ before literals after, values = before ++ v :: after ∧
        literalsFrom identifier taken before = .ok literals ∧
          problem.Arises identifier (taken ++ literals) v := by
  constructor
  · intro failed
    induction values generalizing taken with
    | nil => cases failed
    | cons w rest ih =>
      obtain ⟨l, own, fresh⟩ | ⟨own, arises⟩ := fits_or_arises identifier taken w
      · rw [literalsFrom_of_fits own fresh] at failed
        obtain ⟨before, literals, after, rfl, ok, arises⟩ :=
          ih (distinct_concat distinct fresh) (map_eq_error failed)
        refine ⟨w :: before, l :: literals, after, rfl, ?_, ?_⟩
        · rw [literalsFrom_of_fits own fresh, ok]
          rfl
        · rwa [List.append_assoc, List.singleton_append] at arises
      · rw [literalsFrom_of_arises distinct arises] at failed
        cases failed
        exact ⟨[], [], rest, rfl, rfl, by rwa [List.append_nil]⟩
  · rintro ⟨before, literals, after, rfl, ok, arises⟩
    have together := ((literalsFrom_eq_ok distinct).mp ok).2
    rw [literalsFrom_append ok distinct, literalsFrom_of_arises together arises]
    rfl

theorem literalsOf_eq_error {problem : EnumProblem} :
    literalsOf identifier values = .error (v, problem) ↔
      ∃ before literals after, values = before ++ v :: after ∧
        literalsOf identifier before = .ok literals ∧ problem.Arises identifier literals v :=
  literalsFrom_eq_error List.nodup_nil

/-- Allowed values have constants exactly if everything inside them has a text and their names are all
different. The constants are then those of the values, one by one. Otherwise the failure names the
parameter and the first value without a text or with the name of an earlier one, unless that value cannot
be written. -/
theorem allowedLiterals_decided (identifier entity : String) (values : List Value) :
    (∀ v, (∃ text, Json.compact v = .ok text) ↔ v.IsTextual []) ∧
    ((∃ literals, allowedLiterals identifier entity values = .ok literals) ↔
      (∀ v ∈ values, v.IsTextual []) ∧ values.Pairwise (Value.NamedApart identifier)) ∧
    (∀ literals, allowedLiterals identifier entity values = .ok literals ↔
      List.Forall₂ (Expresses identifier) values literals ∧ (literals.map EnumLiteral.name).Nodup) ∧
    (∀ abort, allowedLiterals identifier entity values = .error abort ↔
      ∃ before v after earlier problem, values = before ++ v :: after ∧
        allowedLiterals identifier entity before = .ok earlier ∧
        EnumProblem.Arises identifier earlier v problem ∧
        problem.Reported entity v abort) := by
  refine ⟨fun v => Json.exists_compact_iff, ?_, fun literals => ?_, fun abort => ?_⟩
  · simp only [allowedLiterals_eq_ok]
    exact exists_literalsOf_iff
  · rw [allowedLiterals_eq_ok, literalsOf_eq_ok]
  · rw [allowedLiterals_eq_error]
    simp only [allowedLiterals_eq_ok]
    constructor
    · rintro ⟨v, problem, failed, reported⟩
      obtain ⟨before, earlier, after, cut, ok, arises⟩ := literalsOf_eq_error.mp failed
      exact ⟨before, v, after, earlier, problem, cut, ok, arises, reported⟩
    · rintro ⟨before, v, after, earlier, problem, cut, ok, arises, reported⟩
      exact ⟨v, problem, literalsOf_eq_error.mpr ⟨before, earlier, after, cut, ok, arises⟩, reported⟩

/-- Allowed values need not be refused as such to have no constants. -/
theorem not_allowedLiterals_decided :
    ¬ ∀ (identifier entity : String) (values : List Value),
      (∃ literals, allowedLiterals identifier entity values = .ok literals) ∨
        ∃ value reason, allowedLiterals identifier entity values =
          .error (.failure (.enumValue entity value reason)) := by
  intro answers
  have escaped := allowedLiterals_of_excess "Level" "connection.level"
  rcases answers "Level" "connection.level" [.int Text.leastExcess] with
    ⟨literals, same⟩ | ⟨value, reason, same⟩ <;>
      cases escaped.symm.trans same

example : allowedLiterals "Mode" "connection.mode" [.text "a", .bool true, .text "A", .bytes []] =
    .error (.failure (.enumValue "connection.mode" (.text "A")
      "constant ModeA is already used by \"a\"")) := rfl

end PluginCompiler
