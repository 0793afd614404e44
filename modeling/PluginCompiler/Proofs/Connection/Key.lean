import PluginCompiler.Proofs.Connection.Operands

/-! What the key of a connection tells apart. The texts of a connection follow each other in its key
with nothing between them, so where one ends does not show, and two texts under different names can
trade places for others with the same key. -/

set_option autoImplicit false

namespace PluginCompiler

section Pieces

variable {α : Type} {os : List α} {g g' : α → List Char} {x x' : List Char}

theorem eq_of_flatMap_eq (same : os.flatMap g = os.flatMap g')
    (lengths : ∀ o ∈ os, (g o).length = (g' o).length) : ∀ o ∈ os, g o = g' o := by
  induction os with
  | nil => simp
  | cons o os ih =>
    rw [List.forall_mem_cons] at lengths ⊢
    rw [List.flatMap_cons, List.flatMap_cons] at same
    obtain ⟨first, rest⟩ := List.append_inj same lengths.1
    exact ⟨first, ih rest lengths.2⟩

theorem length_flatMap_lt (pieces : ∀ o ∈ os, g o = g' o ∨ g o = x ∧ g' o = x')
    (some_ : ∃ o ∈ os, g o = x ∧ g' o = x') (shorter : x.length < x'.length) :
    (os.flatMap g).length < (os.flatMap g').length := by
  rw [List.length_flatMap, List.length_flatMap]
  apply List.sum_lt_sum
  · intro o member
    rcases pieces o member with same | ⟨left, right⟩
    · rw [same]
    · rw [left, right]
      exact shorter.le
  · obtain ⟨o, member, left, right⟩ := some_
    exact ⟨o, member, by rwa [left, right]⟩

theorem eq_of_flatMap_eq_of_pieces (pieces : ∀ o ∈ os, g o = g' o ∨ g o = x ∧ g' o = x')
    (some_ : ∃ o ∈ os, g o = x ∧ g' o = x') (same : os.flatMap g = os.flatMap g') : x = x' := by
  have lengths := congrArg List.length same
  -- A text that is shorter makes the whole shorter, since all the others are the same.
  rcases lt_trichotomy x.length x'.length with shorter | equal | longer
  · exact absurd lengths (length_flatMap_lt pieces some_ shorter).ne
  · obtain ⟨o, member, left, right⟩ := some_
    rw [← left, ← right]
    refine eq_of_flatMap_eq same (fun other inside => ?_) o member
    rcases pieces other inside with alike | ⟨left, right⟩
    · rw [alike]
    · rw [left, right, equal]
  · have flipped : ∀ o ∈ os, g' o = g o ∨ g' o = x' ∧ g o = x := fun o member =>
      (pieces o member).imp Eq.symm And.symm
    obtain ⟨o, member, both⟩ := some_
    exact absurd lengths (length_flatMap_lt flipped ⟨o, member, both.symm⟩ longer).ne'

theorem flatMap_replicate (chosen : α → Bool) (n : Nat) :
    (os.flatMap fun o => if chosen o then List.replicate n 'x' else []) =
      List.replicate (os.countP chosen * n) 'x' := by
  induction os with
  | nil => simp
  | cons o os ih =>
    rw [List.flatMap_cons, ih, List.countP_cons]
    cases chosen o with
    | false => simp
    | true => simp [Nat.succ_mul, Nat.add_comm]

end Pieces

def plainTexts (params : List Parameter) : List Parameter :=
  (keyParameters params).filter (!·.nullable)

/-- Connections with the same optional texts have different keys if any other text of theirs differs. -/
def TellsApart (params : List Parameter) (expression : String) : Prop :=
  ∀ d d' : ConnectionData, d.optionals = d'.optionals →
    (∃ p ∈ plainTexts params, d.texts p.name ≠ d'.texts p.name) →
      keyOf? expression d ≠ keyOf? expression d'

variable {params : List Parameter} {expression : String} {p q : Parameter}

def joinedTexts (params : List Parameter) (d : ConnectionData) : String :=
  String.join ((keyParameters params).map fun p => p.operand.value d)

def pieces (d : ConnectionData) (p : Parameter) : List Char := (p.operand.value d).toList

theorem toList_joinedTexts (params : List Parameter) (d : ConnectionData) :
    (joinedTexts params d).toList = (keyParameters params).flatMap (pieces d) := by
  rw [joinedTexts, String.toList_join, List.flatMap_map]
  rfl

theorem mem_plainTexts : p ∈ plainTexts params ↔ p ∈ keyParameters params ∧ p.nullable = false := by
  simp [plainTexts, List.mem_filter]

theorem value_of_plain {d : ConnectionData} (plain : p.nullable = false) :
    p.operand.value d = d.texts p.name := by
  rw [Parameter.operand, plain]
  rfl

theorem value_of_nullable {d : ConnectionData} (nullable : p.nullable = true) :
    p.operand.value d = (d.optionals p.name).getD "" := by
  rw [Parameter.operand, nullable]
  rfl

theorem tellsApart_of_single (single : ∀ p ∈ plainTexts params, ∀ q ∈ plainTexts params,
      p.name = q.name) (joined : ∀ d, keyOf? expression d = some (joinedTexts params d)) :
    TellsApart params expression := by
  rintro d d' optionals ⟨p, plain, differs⟩ same
  rw [joined, joined, Option.some_inj, ← String.toList_inj, toList_joinedTexts,
    toList_joinedTexts] at same
  apply differs
  apply String.toList_inj.mp
  obtain ⟨member, present⟩ := mem_plainTexts.mp plain
  have own : pieces d p = (d.texts p.name).toList ∧ pieces d' p = (d'.texts p.name).toList := by
    simp [pieces, value_of_plain present]
  apply eq_of_flatMap_eq_of_pieces ?_ ⟨p, member, own⟩ same
  intro q inside
  cases nullable : q.nullable with
  | true => simp [pieces, value_of_nullable nullable, optionals]
  | false =>
    right
    simp [pieces, value_of_plain nullable, single q (mem_plainTexts.mpr ⟨inside, nullable⟩) p plain]

/-- A connection that holds a text of length `n` under a name and nothing else. -/
def repeated (name : String) (n : Nat) : ConnectionData where
  texts other := if other = name then String.ofList (List.replicate n 'x') else ""
  optionals _ := none

def holds (name : String) (p : Parameter) : Bool := !p.nullable && p.name == name

theorem joinedTexts_repeated (params : List Parameter) (name : String) (n : Nat) :
    (joinedTexts params (repeated name n)).toList =
      List.replicate ((keyParameters params).countP (holds name) * n) 'x' := by
  rw [toList_joinedTexts, ← flatMap_replicate]
  congr 1
  funext p
  cases nullable : p.nullable with
  | true => simp [pieces, value_of_nullable nullable, repeated, holds, nullable]
  | false =>
    by_cases same : p.name = name
    · simp [pieces, value_of_plain nullable, repeated, holds, nullable, same]
    · simp [pieces, value_of_plain nullable, repeated, holds, nullable, same]

theorem countP_holds_pos (plain : p ∈ plainTexts params) :
    0 < (keyParameters params).countP (holds p.name) := by
  obtain ⟨member, present⟩ := mem_plainTexts.mp plain
  exact List.countP_pos_iff.mpr ⟨p, member, by simp [holds, present]⟩

/-- Of two names each can hold a text that makes the same key: as many letters as the other has
operands. -/
theorem not_tellsApart (plain : p ∈ plainTexts params) (other : q ∈ plainTexts params)
    (names : p.name ≠ q.name) (joined : ∀ d, keyOf? expression d = some (joinedTexts params d)) :
    ¬ TellsApart params expression := by
  intro apart
  -- Either key consists of `m * n` letters.
  let m := (keyParameters params).countP (holds p.name)
  let n := (keyParameters params).countP (holds q.name)
  have filled : 0 < n := countP_holds_pos other
  refine apart (repeated p.name n) (repeated q.name m) rfl ⟨p, plain, ?_⟩ ?_
  · intro same
    have chars := congrArg String.toList same
    simp [repeated, names, filled.ne'] at chars
  · rw [joined, joined, Option.some_inj]
    apply String.toList_inj.mp
    rw [joinedTexts_repeated, joinedTexts_repeated]
    exact congrArg (List.replicate · 'x') (Nat.mul_comm m n)

theorem tellsApart_iff (joined : ∀ d, keyOf? expression d = some (joinedTexts params d)) :
    TellsApart params expression ↔
      ∀ p ∈ plainTexts params, ∀ q ∈ plainTexts params, p.name = q.name := by
  constructor
  · intro apart p plain q other
    by_contra names
    exact not_tellsApart plain other names joined apart
  · exact fun single => tellsApart_of_single single joined

namespace Spec

variable {spec enriched : Spec}

theorem isWord_name_of_ok (ok : spec.enrich = .ok enriched) :
    ∀ p ∈ enriched.connection.values, Naming.IsWord p.name := by
  intro p member
  obtain ⟨_, becomes⟩ := (enriched_of_ok ok).connection.of_mem member
  rw [becomes.name]
  exact Naming.isWord_upperCamel _

/-- The key of a connection is its texts one after the other, in the order of the names of their
parameters. It tells connections apart exactly if at most one text is always there, or if all that are
share an identifier. -/
theorem key_tells_apart_iff (ok : spec.enrich = .ok enriched) :
    (∀ d, keyOf? enriched.connectionKey d = some (joinedTexts enriched.connection.values d)) ∧
    (TellsApart enriched.connection.values enriched.connectionKey ↔
      ∀ p ∈ plainTexts enriched.connection.values, ∀ q ∈ plainTexts enriched.connection.values,
        p.name = q.name) := by
  have joined (d : ConnectionData) :
      keyOf? enriched.connectionKey d = some (joinedTexts enriched.connection.values d) := by
    rw [(derived_of_ok ok).2, keyOf?, KeyOperand.readAll?_keyExpression (isWord_name_of_ok ok)]
    simp [joinedTexts, List.map_map, Function.comp_def]
  exact ⟨joined, tellsApart_iff joined⟩

def hostAndUser : Spec where
  name := "db"
  connection := ⟨[("host", { type := "string" }), ("user", { type := "password" })], by decide⟩

def hostAndUserEnriched : Spec :=
  { hostAndUser with
    connection :=
      ⟨[("host", { rawName := "host", name := "Host", type := "string", internalType := "string" }),
        ("user", { rawName := "user", name := "User", type := "string", internalType := "string" })],
        by decide⟩
    connectionKey := "c.Host + c.User"
    http := ⟨10001, 2, 2⟩ }

theorem key_tells_apart_hostAndUser :
    hostAndUser.enrich = .ok hostAndUserEnriched ∧
    (∀ d, keyOf? hostAndUserEnriched.connectionKey d =
      some (joinedTexts hostAndUserEnriched.connection.values d)) ∧
    (TellsApart hostAndUserEnriched.connection.values hostAndUserEnriched.connectionKey ↔
      ∀ p ∈ plainTexts hostAndUserEnriched.connection.values,
        ∀ q ∈ plainTexts hostAndUserEnriched.connection.values, p.name = q.name) := by
  have ok : hostAndUser.enrich = .ok hostAndUserEnriched := rfl
  exact ⟨ok, key_tells_apart_iff ok⟩

/-- The letters of a host may as well be the first of the name of a user. -/
theorem not_key_tells_apart :
    ¬ ∀ spec enriched : Spec, spec.enrich = .ok enriched →
      TellsApart enriched.connection.values enriched.connectionKey := by
  intro apart
  let first : ConnectionData := ⟨fun name => if name = "Host" then "a" else "bc", fun _ => none⟩
  let second : ConnectionData := ⟨fun name => if name = "Host" then "ab" else "c", fun _ => none⟩
  let host : Parameter :=
    { rawName := "host", name := "Host", type := "string", internalType := "string" }
  have differ : first.texts host.name ≠ second.texts host.name := by decide
  have key : keyOf? hostAndUserEnriched.connectionKey first = some "abc" := by decide
  have same : keyOf? hostAndUserEnriched.connectionKey second = some "abc" := by decide
  exact apart hostAndUser hostAndUserEnriched rfl first second rfl
    ⟨host, List.mem_cons_self, differ⟩ (key.trans same.symm)

end Spec

end PluginCompiler
