import PluginCompiler.Plan
import PluginCompiler.Proofs.Spec.Address
import PluginCompiler.Proofs.Spec.Decoded
import PluginCompiler.Proofs.Text.Characters

/-! The package root of a spec. It is the one asked for without slashes at its end, or else the one of
the document as it stands there; the name of the directory is either without slashes at both ends. -/

set_option autoImplicit false

namespace PluginCompiler

open Value

/-- No slash stands at either end of a text. -/
def Unslashed (s : String) : Prop := s.toList.head? ≠ some '/' ∧ s.toList.getLast? ≠ some '/'

instance (s : String) : Decidable (Unslashed s) := inferInstanceAs (Decidable (_ ∧ _))

theorem unslashed_iff {s : String} :
    Unslashed s ↔ Text.trimBy (· == '/') s.toList = s.toList := by
  rw [Text.trimBy_eq_self_iff, Unslashed]
  simp only [beq_eq_false_iff_ne]
  constructor
  · rintro ⟨head, last⟩
    exact ⟨fun c here same => head (same ▸ here), fun c here same => last (same ▸ here)⟩
  · rintro ⟨head, last⟩
    exact ⟨fun here => head _ here rfl, fun here => last _ here rfl⟩

namespace Value

variable {label : Nat} {tied : Value} {name : String} {entries : List (Value × Value)}

theorem replace_text (s : String) : replace label tied (.text s) = .text s := by
  simp [replace]

theorem replace_eq_text {v : Value} {t : String} (other : ∀ s, tied ≠ .text s) :
    replace label tied v = .text t ↔ v = .text t := by
  cases v with
  | again l =>
    rw [replace]
    split
    · exact iff_of_false (other t) nofun
    · exact iff_of_false nofun nofun
  | text s => rw [replace_text]
  | _ => simp [replace]

theorem find?_replaceEntries (other : ∀ s, tied ≠ .text s) (name : String)
    (entries : List (Value × Value)) :
    find? name (replaceEntries label tied entries) = (find? name entries).map (replace label tied) := by
  induction entries with
  | nil => simp [replaceEntries, find?]
  | cons e rest ih =>
    obtain ⟨k, v⟩ := e
    rw [replaceEntries]
    by_cases here : k = .text name
    · rw [here, replace_text, Yaml.find?_cons_self, Yaml.find?_cons_self, Option.map_some]
    · have apart : replace label tied k ≠ .text name := fun same => here ((replace_eq_text other).mp same)
      rw [Yaml.find?_cons_of_ne apart, Yaml.find?_cons_of_ne here, ih]

theorem opened_withEntry {data : Value} (opened : data.opened = .map entries) (name s : String) :
    ∃ entries', (data.withEntry name (.text s)).opened = .map entries' ∧
      find? name entries' = some (.text s) ∧
      ∀ other t, other ≠ name → find? other entries = some (.text t) →
        find? other entries' = some (.text t) := by
  cases data with
  | map own =>
    cases opened
    refine ⟨_, rfl, by rw [find?_put, if_pos rfl], fun other t apart found => ?_⟩
    rw [find?_put, if_neg apart, found]
  | knot label body =>
    have tied (body : Value) : ∀ s, knot label body ≠ .text s := fun _ => nofun
    cases body with
    | map own =>
      -- Both bodies are opened by tying what they are again.
      have rewritten (own : List (Value × Value)) : (knot label (map own)).opened =
          .map (replaceEntries label (knot label (map own)) own) := by simp [Value.opened, replace]
      rw [rewritten] at opened
      cases opened
      refine ⟨_, rewritten _, ?_, fun other t apart found => ?_⟩
      · rw [find?_replaceEntries (tied _), find?_put, if_pos rfl, Option.map_some, replace_text]
      · rw [find?_replaceEntries (tied _), Option.map_eq_some_iff] at found
        obtain ⟨v, found, same⟩ := found
        rw [replace_eq_text (tied _)] at same
        rw [find?_replaceEntries (tied _), find?_put, if_neg apart, found, same, Option.map_some,
          replace_text]
    | again l =>
      rw [Value.opened, replace] at opened
      split at opened <;> cases opened
    | _ => simp [Value.opened, replace] at opened
  | _ => cases opened

end Value

namespace Spec

variable {spec : Spec} {entries : List (Value × Value)} {asked location : String}

theorem packageRoot_of_decode {v : Value} {root : String} (checked : decode v = .valid spec)
    (opened : v.opened = .map entries) (found : find? "package_root" entries = some (.text root)) :
    spec.packageRoot = root := by
  obtain ⟨entries', opened', decoded⟩ := decoded_of_decode checked
  cases Value.map.inj (opened.symm.trans opened')
  have read := decoded.packageRoot
  rw [field, found] at read
  exact (Checked.valid.inj read).symm

/-- The root in force is the root of the spec, also where the document contains itself. -/
theorem packageRoot_of_ofData {data : Value} (accepted : ofData data asked location = .ok spec) :
    ∃ entries, data.opened = .map entries ∧ spec.packageRoot = effectiveRoot asked entries := by
  obtain ⟨entries, opened, checked⟩ := ofData_eq_ok accepted
  refine ⟨entries, opened, ?_⟩
  obtain ⟨rooted, openedRoot, found, _⟩ :=
    opened_withEntry opened "package_root" (effectiveRoot asked entries)
  obtain ⟨located, openedLocation, _, kept⟩ := opened_withEntry openedRoot "spec_location" location
  exact packageRoot_of_decode checked openedLocation (kept _ _ (by decide) found)

theorem unslashed_rootName (spec : Spec) : Unslashed spec.rootName := by
  rw [unslashed_iff, rootName, String.toList_ofList]
  refine Text.trimBy_eq_self (Text.trimRight_trimBy _) fun c => Text.head_trimBy

theorem packageRoot_eq_rootName_iff : spec.packageRoot = spec.rootName ↔ Unslashed spec.packageRoot := by
  rw [unslashed_iff, rootName, ← String.toList_inj, String.toList_ofList, eq_comm]

/-- A root that is asked for is kept unless it starts with a slash, and one of a document unless it
starts or ends with one. -/
theorem unslashed_effectiveRoot_iff (filled : effectiveRoot asked entries ≠ "") :
    Unslashed (effectiveRoot asked entries) ↔
      if asked = "" then Unslashed (effectiveRoot "" entries) else asked.toList.head? ≠ some '/' := by
  by_cases none_ : asked = ""
  · rw [if_pos none_, none_]
  · have given : effectiveRoot asked entries = dropSlashes asked := if_pos none_
    rw [given] at filled ⊢
    have chars : (dropSlashes asked).toList = Text.trimRight (· == '/') asked.toList :=
      String.toList_ofList
    have rest : Text.trimRight (· == '/') asked.toList ≠ [] := by
      rw [← chars]
      simpa using filled
    have last : (dropSlashes asked).toList.getLast? ≠ some '/' := by
      rw [chars]
      intro slash
      have kept := Text.trimRight_eq_self_iff.mp (List.rdropWhile_idempotent (p := (· == '/')) asked.toList)
      simpa using kept '/' slash
    rw [if_neg none_, Unslashed, and_iff_left last, chars, Text.head?_trimRight rest]

end Spec

end PluginCompiler
