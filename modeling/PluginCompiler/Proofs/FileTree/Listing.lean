import Mathlib.Data.List.Nodup
import PluginCompiler.Proofs.FileTree.Path

/-! What is listed below a place. In a tree that lists no place twice, these are the names of all that
stands there, each once; and no operation lists a place twice that was not before. -/

set_option autoImplicit false

namespace PluginCompiler

open Place

namespace FileTree

variable {t t' : FileTree} {at_ place : Place} {names : List String} {entry : Entry}

def Proper (t : FileTree) : Prop := (t.entries.map Prod.fst).Nodup

instance (t : FileTree) : Decidable t.Proper := inferInstanceAs (Decidable (List.Nodup _))

theorem mem_keys_putEntry {entries : List (Place × Entry)} {x : Place} :
    x ∈ (putEntry place entry entries).map Prod.fst ↔ x = place ∨ x ∈ entries.map Prod.fst := by
  induction entries with
  | nil => simp [putEntry]
  | cons e rest ih =>
    obtain ⟨p, e⟩ := e
    rw [putEntry]
    split
    · next here => simp [here]
    · simp only [List.map_cons, List.mem_cons, ih]
      exact or_left_comm

theorem Proper.put (proper : t.Proper) (place : Place) (entry : Entry) :
    (t.put place entry).Proper := by
  obtain ⟨entries⟩ := t
  simp only [Proper, FileTree.put] at proper ⊢
  induction entries with
  | nil => simp [putEntry]
  | cons e rest ih =>
    obtain ⟨p, e⟩ := e
    rw [List.map_cons, List.nodup_cons] at proper
    rw [putEntry]
    split
    · rw [List.map_cons, List.nodup_cons]
      exact proper
    · next apart =>
      rw [List.map_cons, List.nodup_cons, mem_keys_putEntry, not_or]
      exact ⟨⟨apart, proper.1⟩, ih proper.2⟩

theorem Proper.makeLast (proper : t.Proper) (at_ : Place) (names : List String) :
    (t.makeLast at_ names).1.Proper := by
  rw [FileTree.makeLast]
  split
  · next made same =>
    obtain ⟨_, _, rfl⟩ := makeDir_eq_ok.mp same
    exact proper.put _ _
  · split <;> exact proper

theorem Proper.makeDirsReversed (proper : t.Proper) (at_ : Place) (reversed : List String) :
    (t.makeDirsReversed at_ reversed).1.Proper := by
  induction reversed with
  | nil => exact proper
  | cons last up ih =>
    by_cases missing : t.makeDir at_ (last :: up).reverse = .error .notFound
    · rw [makeDirsReversed_of_missing missing]
      split
      · next same => rwa [same] at ih
      · next above same =>
        rw [same] at ih
        exact ih.makeLast at_ _
    · rw [makeDirsReversed_of_known missing]
      exact proper.makeLast at_ _

theorem mem_entries_iff {x : Place} (inside : x ≠ []) :
    (∃ e, (x, e) ∈ t.entries) ↔ t.find? x ≠ none := by
  rw [find?, if_neg inside, Ne, List.lookup_eq_none_iff]
  push Not
  constructor
  · rintro ⟨e, member⟩
    exact ⟨(x, e), member, by simp⟩
  · rintro ⟨⟨p, e⟩, member, same⟩
    have here : x = p := by simpa using same
    exact ⟨e, here ▸ member⟩

theorem mem_below :
    names ∈ (t.below place).map Prod.fst ↔ names ≠ [] ∧ t.find? (place ++ names) ≠ none := by
  have listed : names ∈ (t.below place).map Prod.fst ↔
      names ≠ [] ∧ ∃ e, (place ++ names, e) ∈ t.entries := by
    simp only [below, List.mem_map, List.mem_filterMap, Prod.exists, exists_and_right,
      exists_eq_right, Option.ite_none_right_eq_some, Option.some.injEq, Prod.mk.injEq]
    constructor
    · rintro ⟨e, p, _, member, ⟨inside, apart⟩, rest, rfl⟩
      obtain ⟨further, rfl⟩ := List.isPrefixOf_iff_prefix.mp inside
      rw [List.drop_left] at rest
      subst rest
      exact ⟨fun none => apart (by simp [none]), _, member⟩
    · rintro ⟨filled, e, member⟩
      exact ⟨e, place ++ names, e, member, ⟨by simp, by simpa using filled⟩, by simp, rfl⟩
  rw [listed]
  exact and_congr_right fun filled => mem_entries_iff (by simp [filled])

theorem Proper.mem_entries_iff (proper : t.Proper) {x : Place} (inside : x ≠ []) :
    (x, entry) ∈ t.entries ↔ t.find? x = some entry := by
  rw [find?, if_neg inside, List.lookup_eq_some_iff]
  constructor
  · intro member
    obtain ⟨front, rest, split⟩ := List.append_of_mem member
    refine ⟨front, rest, split, fun p earlier => ?_⟩
    have distinct := proper
    rw [Proper, split, List.map_append, List.nodup_append] at distinct
    have other := distinct.2.2 p.1 (List.mem_map_of_mem earlier) x (by simp)
    simpa using Ne.symm other
  · rintro ⟨front, rest, split, _⟩
    simp [split]

theorem Proper.mem_below_iff (proper : t.Proper) :
    (names, entry) ∈ t.below place ↔ names ≠ [] ∧ t.find? (place ++ names) = some entry := by
  have listed : (names, entry) ∈ t.below place ↔
      names ≠ [] ∧ (place ++ names, entry) ∈ t.entries := by
    simp only [below, List.mem_filterMap, Prod.exists, Option.ite_none_right_eq_some,
      Option.some.injEq, Prod.mk.injEq]
    constructor
    · rintro ⟨p, _, member, ⟨inside, apart⟩, rest, rfl⟩
      obtain ⟨further, rfl⟩ := List.isPrefixOf_iff_prefix.mp inside
      rw [List.drop_left] at rest
      subst rest
      exact ⟨fun none => apart (by simp [none]), member⟩
    · rintro ⟨filled, member⟩
      exact ⟨place ++ names, entry, member, ⟨by simp, by simpa using filled⟩, by simp, rfl⟩
  rw [listed]
  exact and_congr_right fun filled => proper.mem_entries_iff (by simp [filled])

theorem Proper.nodup_below (proper : t.Proper) (place : Place) :
    ((t.below place).map Prod.fst).Nodup := by
  have names : (t.below place).map Prod.fst = (t.entries.map Prod.fst).filterMap fun p =>
      if place.isPrefixOf p ∧ p ≠ place then some (p.drop place.length) else none := by
    rw [below, List.map_filterMap, List.filterMap_map]
    refine List.filterMap_congr fun e _ => ?_
    obtain ⟨p, e⟩ := e
    simp only [Function.comp_apply]
    split <;> rfl
  rw [names]
  refine List.Nodup.filterMap (fun p p' rest here here' => ?_) proper
  simp only [Option.mem_def, Option.ite_none_right_eq_some, Option.some.injEq,
    List.isPrefixOf_iff_prefix] at here here'
  obtain ⟨⟨⟨further, rfl⟩, _⟩, rfl⟩ := here
  obtain ⟨⟨⟨further', rfl⟩, _⟩, same⟩ := here'
  simpa using same.symm

end FileTree

namespace Path

variable {cwd : Place} {t t' : FileTree} {as bs cs : List String}

theorem proper_makeDirs (p : Path) (cwd : Place) (proper : t.Proper) :
    (p.makeDirs cwd t).1.Proper := by
  have made := proper.makeDirsReversed (p.start cwd) p.parts.reverse
  rw [makeDirs, FileTree.makeDirs]
  split
  · exact proper
  · split
    · exact proper
    · split
      · next same => rwa [same] at made
      · next same => rwa [same] at made

theorem precedes_trans (first : precedes as bs = true) (second : precedes bs cs = true) :
    precedes as cs = true := by
  induction as generalizing bs cs with
  | nil => rfl
  | cons a as ih =>
    cases bs with
    | nil => cases first
    | cons b bs =>
      cases cs with
      | nil => cases second
      | cons c cs =>
        simp only [precedes, Bool.or_eq_true, Bool.and_eq_true, decide_eq_true_eq, beq_iff_eq]
          at first second ⊢
        rcases first with less | ⟨rfl, first⟩
        · rcases second with less' | ⟨rfl, _⟩
          · exact .inl (String.lt_trans less less')
          · exact .inl less
        · rcases second with less' | ⟨rfl, second⟩
          · exact .inl less'
          · exact .inr ⟨rfl, ih first second⟩

theorem precedes_total (as bs : List String) : (precedes as bs || precedes bs as) = true := by
  induction as generalizing bs with
  | nil => rfl
  | cons a as ih =>
    cases bs with
    | nil => rfl
    | cons b bs =>
      have further := ih bs
      simp only [precedes, Bool.or_eq_true, Bool.and_eq_true, decide_eq_true_eq, beq_iff_eq]
        at further ⊢
      by_cases less : a < b
      · exact .inl (.inl less)
      · by_cases more : b < a
        · exact .inr (.inl more)
        · have same : a = b := String.le_antisymm (String.not_lt.mp more) (String.not_lt.mp less)
          subst same
          exact further.imp (fun before => .inr ⟨rfl, before⟩) fun after => .inr ⟨rfl, after⟩

end Path

end PluginCompiler
