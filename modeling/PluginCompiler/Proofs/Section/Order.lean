import Mathlib.Data.List.Forall2
import Mathlib.Data.List.Sort
import PluginCompiler.Section

/-! The order of sections. A sorted section has the entries of the section that it comes from, in the
order of their names, so it is the same whatever order they had. -/

set_option autoImplicit false

namespace PluginCompiler.Section

variable {α β γ : Type}

/-- Entries under the same names, in the same order, with related values. -/
def Along (R : String → α → β → Prop) (entries : List (String × α)) (others : List (String × β)) :
    Prop :=
  List.Forall₂ (fun d e => d.1 = e.1 ∧ R d.1 d.2 e.2) entries others

theorem Along.names_eq {R : String → α → β → Prop} {entries : List (String × α)}
    {others : List (String × β)} (along : Along R entries others) :
    entries.map (·.1) = others.map (·.1) := by
  induction along with
  | nil => rfl
  | cons first _ ih => rw [List.map_cons, List.map_cons, first.1, ih]

theorem Along.imp {R S : String → α → β → Prop} {entries : List (String × α)}
    {others : List (String × β)} (along : Along R entries others)
    (imp : ∀ name a b, R name a b → S name a b) : Along S entries others :=
  List.Forall₂.imp (fun d e related => ⟨related.1, imp d.1 d.2 e.2 related.2⟩) along

theorem exists_of_forall₂ {R : α → β → Prop} {as : List α} {bs : List β} (along : List.Forall₂ R as bs)
    {b : β} (member : b ∈ bs) : ∃ a ∈ as, R a b := by
  induction along with
  | nil => cases member
  | cons first _ ih =>
    rcases List.mem_cons.mp member with rfl | later
    · exact ⟨_, List.mem_cons_self, first⟩
    · obtain ⟨a, inside, related⟩ := ih later
      exact ⟨a, List.mem_cons_of_mem _ inside, related⟩

theorem Along.exists_of_mem {R : String → α → β → Prop} {entries : List (String × α)}
    {others : List (String × β)} (along : Along R entries others) {name : String} {b : β}
    (member : (name, b) ∈ others) : ∃ a, (name, a) ∈ entries ∧ R name a b := by
  obtain ⟨⟨other, a⟩, inside, rfl, related⟩ := exists_of_forall₂ along member
  exact ⟨a, inside, related⟩

theorem along_mapEntries {R : String → α → β → Prop} {f : String → α → β} (s : Section α)
    (related : ∀ name a, R name a (f name a)) : Along R s.entries (s.mapEntries f).entries :=
  List.forall₂_map_right_iff.mpr (List.forall₂_same.mpr fun d _ => ⟨rfl, related d.1 d.2⟩)

def Rising (entries : List (String × α)) : Prop := entries.Pairwise fun d e => d.1 < e.1

def NameLe (d e : String × α) : Prop := d.1 ≤ e.1

instance : DecidableRel (NameLe (α := α)) := fun d e => inferInstanceAs (Decidable (d.1 ≤ e.1))

instance : Std.Total (NameLe (α := α)) := ⟨fun d e => String.le_total d.1 e.1⟩

instance : IsTrans (String × α) NameLe := ⟨fun _ _ _ => String.le_trans⟩

theorem place_eq_orderedInsert (e : String × α) (entries : List (String × α)) :
    place e entries = entries.orderedInsert NameLe e := by
  induction entries with
  | nil => rfl
  | cons d rest ih => rw [place, ih]; rfl

theorem arrange_eq_insertionSort (entries : List (String × α)) :
    arrange entries = entries.insertionSort NameLe := by
  induction entries with
  | nil => rfl
  | cons e rest ih => exact (congrArg (place e) ih).trans (place_eq_orderedInsert e _)

theorem rising_arrange {entries : List (String × α)} (distinct : (entries.map (·.1)).Nodup) :
    Rising (arrange entries) := by
  have sorted := List.pairwise_insertionSort NameLe entries
  have apart := List.pairwise_map.mp (((arrange_perm entries).map (·.1)).nodup_iff.mpr distinct)
  rw [← arrange_eq_insertionSort] at sorted
  exact (sorted.and apart).imp fun both =>
    String.not_le.mp fun above => both.2 (String.le_antisymm both.1 above)

theorem arrange_eq_of_perm {entries others : List (String × α)} (perm : entries.Perm others)
    (distinct : (entries.map (·.1)).Nodup) : arrange entries = arrange others := by
  have distinct' : (others.map (·.1)).Nodup := (perm.map (·.1)).nodup_iff.mp distinct
  have same := (arrange_perm entries).trans (perm.trans (arrange_perm others).symm)
  -- Of the lists with given entries only one has rising names.
  exact same.eq_of_pairwise (fun _ _ _ _ below above => absurd above (String.lt_asymm below))
    (rising_arrange distinct) (rising_arrange distinct')

/-- The names of `s`, in their order, with other values. -/
structure Ordered (s : Section α) (t : Section β) : Prop where
  names : t.names.Perm s.names
  rising : Rising t.entries

theorem ordered_sorted (s : Section α) : Ordered s s.sorted :=
  ⟨(arrange_perm s.entries).map Prod.fst, rising_arrange s.distinct⟩

theorem Ordered.along {R : String → β → γ → Prop} {s : Section α} {t : Section β} {u : Section γ}
    (ordered : Ordered s t) (along : Along R t.entries u.entries) : Ordered s u := by
  have same : t.names = u.names := along.names_eq
  have rising : (t.entries.map (·.1)).Pairwise (· < ·) := List.pairwise_map.mpr ordered.rising
  rw [along.names_eq] at rising
  exact ⟨same ▸ ordered.names, List.pairwise_map.mp rising⟩

theorem sorted_eq_of_perm {s t : Section α} (perm : s.entries.Perm t.entries) :
    s.sorted = t.sorted :=
  ext_entries (arrange_eq_of_perm perm s.distinct)

/-- The same names in any order, with related values. -/
def Rearranged (R : α → α → Prop) (s t : Section α) : Prop :=
  ∃ entries, s.entries.Perm entries ∧ Along (fun _ => R) entries t.entries

variable {R : α → α → Prop}

theorem along_place {d e : String × α} {entries others : List (String × α)} (name : d.1 = e.1)
    (value : R d.2 e.2) (along : Along (fun _ => R) entries others) :
    Along (fun _ => R) (place d entries) (place e others) := by
  induction along with
  | nil => exact .cons ⟨name, value⟩ .nil
  | cons first rest ih =>
    -- Only names are compared, and they are the same on both sides.
    rw [place, place, name, first.1]
    split
    · exact .cons ⟨name, value⟩ (.cons first rest)
    · exact .cons first ih

theorem along_arrange {entries others : List (String × α)}
    (along : Along (fun _ => R) entries others) :
    Along (fun _ => R) (arrange entries) (arrange others) := by
  induction along with
  | nil => exact .nil
  | cons first _ ih => exact along_place first.1 first.2 ih

theorem Rearranged.sorted {s t : Section α} (rearranged : Rearranged R s t) :
    Along (fun _ => R) s.sorted.entries t.sorted.entries := by
  obtain ⟨entries, perm, along⟩ := rearranged
  have same : s.sorted.entries = arrange entries := arrange_eq_of_perm perm s.distinct
  rw [same]
  exact along_arrange along

end PluginCompiler.Section
