import Mathlib.Data.List.Forall2
import PluginCompiler.Validation

/-! Sections that come out of a check. What a check accepts is taken apart again, down to the entries
of the data; all of them are in the section as long as their names differ. -/

set_option autoImplicit false

namespace PluginCompiler

variable {α β : Type}

namespace Checked

theorem map_eq_valid {f : α → β} {x : Checked α} {b : β} :
    f <$> x = .valid b ↔ ∃ a, x = .valid a ∧ f a = b := by
  cases x with
  | valid a => exact ⟨fun mapped => ⟨a, rfl, Checked.valid.inj mapped⟩, by rintro ⟨_, ⟨⟩, rfl⟩; rfl⟩
  | invalid issues => exact ⟨fun mapped => (nomatch mapped), by rintro ⟨_, ⟨⟩, _⟩⟩

theorem seq_eq_valid {f : Checked (α → β)} {x : Checked α} {b : β} :
    f <*> x = .valid b ↔ ∃ h a, f = .valid h ∧ x = .valid a ∧ h a = b := by
  cases f with
  | invalid issues => cases x <;> exact ⟨fun both => (nomatch both), by rintro ⟨_, _, ⟨⟩, _⟩⟩
  | valid h =>
    cases x with
    | invalid issues => exact ⟨fun both => (nomatch both), by rintro ⟨_, _, _, ⟨⟩, _⟩⟩
    | valid a =>
      exact ⟨fun both => ⟨h, a, rfl, rfl, Checked.valid.inj both⟩, by rintro ⟨_, _, ⟨⟩, ⟨⟩, rfl⟩; rfl⟩

theorem under_eq_valid {step : Validation.Step} {x : Checked α} {a : α} :
    x.under step = .valid a ↔ x = .valid a := by
  cases x with
  | valid b => exact Iff.rfl
  | invalid issues => exact ⟨nofun, nofun⟩

end Checked

namespace Section

theorem put_of_absent {name : String} {value : α} {entries : List (String × α)}
    (absent : name ∉ entries.map (·.1)) : put name value entries = entries ++ [(name, value)] := by
  induction entries with
  | nil => rfl
  | cons e rest ih =>
    rw [List.map_cons, List.mem_cons, not_or] at absent
    rw [put, if_neg (Ne.symm absent.1), ih absent.2, List.cons_append]

theorem entries_foldl_insert {s : Section α} {entries : List (String × α)}
    (distinct : ((s.entries ++ entries).map (·.1)).Nodup) :
    (entries.foldl (fun s e => s.insert e.1 e.2) s).entries = s.entries ++ entries := by
  induction entries generalizing s with
  | nil => simp
  | cons e rest ih =>
    have split : s.entries ++ e :: rest = (s.entries ++ [e]) ++ rest := by simp
    have absent : e.1 ∉ s.entries.map (·.1) := by
      rw [List.map_append, List.nodup_append] at distinct
      exact fun member => distinct.2.2 e.1 member e.1 (by simp) rfl
    have grown : (s.insert e.1 e.2).entries = s.entries ++ [e] := put_of_absent absent
    rw [List.foldl_cons, ih (by rw [grown, ← split]; exact distinct), grown, split]

theorem entries_ofList {entries : List (String × α)} (distinct : (entries.map (·.1)).Nodup) :
    (ofList entries).entries = entries :=
  entries_foldl_insert (s := empty) distinct

end Section

namespace Value

variable {check : Value → Checked α}

theorem asEntries_eq_valid {entries : List (Value × Value)} {drafts : List (String × α)}
    (checked : asEntries check entries = .valid drafts) :
    List.Forall₂ (fun e d => e.1.asText = .valid d.1 ∧ check e.2 = .valid d.2) entries drafts := by
  induction entries generalizing drafts with
  | nil =>
    cases checked
    exact .nil
  | cons e rest ih =>
    obtain ⟨k, v⟩ := e
    simp only [asEntries, Checked.seq_eq_valid, Checked.map_eq_valid, Checked.under_eq_valid] at checked
    obtain ⟨_, done, ⟨_, a, ⟨name, key, rfl⟩, value, rfl⟩, further, rfl⟩ := checked
    exact .cons ⟨key, value⟩ (ih further)

theorem valid_of_mem {entries : List (Value × Value)} {drafts : List (String × α)} {k v : Value}
    (checked : asEntries check entries = .valid drafts) (member : (k, v) ∈ entries) :
    ∃ a, check v = .valid a := by
  have along := asEntries_eq_valid checked
  clear checked
  induction along with
  | nil => cases member
  | cons first _ ih =>
    rcases List.mem_cons.mp member with rfl | later
    · exact ⟨_, first.2⟩
    · exact ih later

theorem asSection_eq_valid {v : Value} {s : Section α} (checked : asSection check v = .valid s) :
    ∃ entries drafts, v.opened = .map entries ∧ asEntries check entries = .valid drafts ∧
      Section.ofList drafts = s := by
  unfold asSection at checked
  split at checked
  · next entries opened =>
    obtain ⟨drafts, checked, same⟩ := Checked.map_eq_valid.mp checked
    exact ⟨entries, drafts, opened, checked, same⟩
  · cases checked

theorem orIfNull_of_ne {other v : Value} {check : Value → Checked β} (present : v ≠ .null) :
    orIfNull other check v = check v := by
  cases v <;> first | rfl | exact absurd rfl present

end Value

end PluginCompiler
