import PluginCompiler.Proofs.Plan.Bodies

/-! The fields of custom types. Embedded types are written first; apart from that, fields keep the order
in which they are declared. A rendered file has them in this order, and after them the constants for
their allowed values. -/

set_option autoImplicit false

namespace PluginCompiler

variable {α : Type} {first : α → Bool} {l sorted : List α}

/-- A list rearranged so that what passes a test comes first. Among themselves, the elements that pass and
those that fail stay in their order. -/
structure StablePartition (first : α → Bool) (l sorted : List α) : Prop where
  perm : sorted.Perm l
  before : sorted.Pairwise fun a b => first b = true → first a = true
  passing : sorted.filter first = l.filter first
  failing : sorted.filter (!first ·) = l.filter (!first ·)

theorem eq_append_of_before (before : l.Pairwise fun a b => first b = true → first a = true) :
    l = l.filter first ++ l.filter (!first ·) := by
  induction before with
  | nil => rfl
  | @cons a l above _ ih =>
    cases passes : first a with
    | true => simpa [passes] using ih
    | false =>
      have fail : ∀ b ∈ l, first b = false := by
        intro b member
        by_contra pass
        have own := above b member (by simpa using pass)
        rw [passes] at own
        cases own
      have none_ : l.filter first = [] := by simpa using fail
      have all : l.filter (!first ·) = l := by simpa using fail
      simp [passes, none_, all]

theorem stablePartition_iff :
    StablePartition first l sorted ↔ sorted = l.filter first ++ l.filter (!first ·) := by
  constructor
  · intro partition
    rw [← partition.passing, ← partition.failing]
    exact eq_append_of_before partition.before
  · rintro rfl
    refine ⟨List.filter_append_perm first l, ?_, ?_, ?_⟩
    · rw [List.pairwise_append]
      refine ⟨?_, ?_, fun a passes b _ _ => (List.mem_filter.mp passes).2⟩
      · exact List.pairwise_of_forall_mem_list fun a passes _ _ _ => (List.mem_filter.mp passes).2
      · refine List.pairwise_of_forall_mem_list fun a _ b fails passes => ?_
        have own := (List.mem_filter.mp fails).2
        rw [passes] at own
        cases own
    · simp [List.filter_filter]
    · simp [List.filter_filter]

theorem stablePartition_mergeSort (first : α → Bool) (l : List α) :
    StablePartition first l (l.mergeSort fun a b => first a || !first b) := by
  have trans (a b c : α) (lower : (first a || !first b) = true) (upper : (first b || !first c) = true) :
      (first a || !first c) = true := by
    revert lower upper
    cases first a <;> cases first b <;> cases first c <;> decide
  have total (a b : α) : (first a || !first b || (first b || !first a)) = true := by
    cases first a <;> cases first b <;> rfl
  have perm := List.mergeSort_perm l fun a b => first a || !first b
  -- A group of elements that the order takes for equal goes through the sort as it is.
  have group (test : α → Bool) (equal : ∀ a b, test a = true → test b = true → (first a || !first b) = true) :
      (l.mergeSort fun a b => first a || !first b).filter test = l.filter test := by
    have level : (l.filter test).Pairwise fun a b => (first a || !first b) = true :=
      List.pairwise_of_forall_mem_list fun a one b other =>
        equal a b (List.mem_filter.mp one).2 (List.mem_filter.mp other).2
    have inside := (List.sublist_mergeSort trans total level List.filter_sublist).filter test
    simp only [List.filter_filter, Bool.and_self] at inside
    exact (inside.eq_of_length (perm.filter test).length_eq.symm).symm
  refine ⟨perm, ?_, ?_, ?_⟩
  · refine (List.pairwise_mergeSort trans total l).imp ?_
    intro a b ordered passes
    simpa [passes] using ordered
  · exact group first fun a b passes _ => by simp [passes]
  · exact group (!first ·) fun a b _ fails => by simp [fails]

theorem stablePartition_sortFields (fields : List Parameter) :
    StablePartition Parameter.embed fields (sortFields fields) :=
  stablePartition_iff.mpr rfl

theorem sortFields_eq_mergeSort (fields : List Parameter) :
    sortFields fields = fields.mergeSort fun p q => p.embed || !q.embed :=
  (stablePartition_iff.mp (stablePartition_mergeSort Parameter.embed fields)).symm

/-- A custom type of the fields that are declared for it, which are written with the embedded ones
first. -/
structure CustomType.Arranges (raw : Section Parameter) (t : CustomType) : Prop where
  declared : t.fields.names = raw.names
  parameters : ParametersFor raw.names t.fields.values
  embeds : t.fields.values.map Parameter.embed = raw.values.map Parameter.embed
  partition : StablePartition Parameter.embed t.fields.values t.sortedFields
  stable : t.sortedFields = t.fields.values.mergeSort fun p q => p.embed || !q.embed

/-- The files of custom types have all fields of their types. -/
structure Plan.TypeBodies (spec enriched : Spec) (os : List Output) : Prop where
  ordered : Section.Ordered spec.rawTypes enriched.customTypes
  types : ∀ e ∈ enriched.customTypes.entries, ∃ raw, (e.1, raw) ∈ spec.rawTypes.entries ∧
    e.2.Arranges raw ∧
    Plan.Shows os (Plan.typePath e.1) .customType { type := some e.2, spec := some enriched }
      (Emit.DeclaresType e.2)

theorem Section.Enriched.arranges {known : List String} {owner : String} {raw : Section Parameter}
    {t : CustomType} (becomes : Section.Enriched known owner raw t.fields)
    (sorted : t.sortedFields = sortFields t.fields.values) : t.Arranges raw where
  declared := becomes.names_eq.symm
  parameters := by
    have same : raw.names = t.fields.names := becomes.names_eq
    rw [same]
    exact becomes.parametersFor
  embeds := by
    have each : List.Forall₂ (fun d e => e.2.embed = d.2.embed) raw.entries t.fields.entries :=
      List.Forall₂.imp (fun d e related => by rw [related.2.rest]) becomes
    have same : t.fields.values.map Parameter.embed = raw.values.map Parameter.embed := by
      rw [Section.values, Section.values, List.map_map, List.map_map, ← List.forall₂_eq_eq_eq,
        List.forall₂_map_left_iff, List.forall₂_map_right_iff]
      exact each.flip
    exact same
  partition := sorted ▸ stablePartition_sortFields t.fields.values
  stable := sorted ▸ sortFields_eq_mergeSort t.fields.values

namespace Spec

variable {spec enriched : Spec} {key : String} {t : CustomType}

theorem arranges_of_ok (ok : spec.enrich = .ok enriched) (entry : (key, t) ∈ enriched.customTypes.entries) :
    ∃ raw, (key, raw) ∈ spec.rawTypes.entries ∧ t.Arranges raw := by
  obtain ⟨_, _, sorted, raw, listed, becomes⟩ := enriched_type_of_ok ok entry
  exact ⟨raw, listed, becomes.arranges sorted⟩

theorem shows_type_of_ok (ok : spec.enrich = .ok enriched) (breakless : enriched.Breakless)
    (source : List UInt8) (entry : (key, t) ∈ enriched.customTypes.entries) :
    Plan.Shows (Plan.outputs enriched source) (Plan.typePath key) .customType
      { type := some t, spec := some enriched } (Emit.DeclaresType t) := by
  have listed : t ∈ enriched.customTypes.values := List.mem_map_of_mem entry
  have derived (p : Parameter) (member : p ∈ t.sortedFields) : p.Derived spec.rawTypes.names :=
    derived_parameter_of_ok ok (mem_parameters_of_type listed member)
  exact shows_of_goFile ok breakless source (.customType entry) rfl <|
    Emit.declaresType_typeLines enriched (customType_of_ok ok listed).1
      (fun p member => ⟨(derived p member).isWord_name, (derived p member).isTypeChar_internal⟩)
      fun p member l literal => ((derived p member).literals l literal).1

/-- The fields of a custom type are the declared ones, the embedded ones first, and its rendered file
declares them in this order and then their allowed values. -/
theorem typeBodies_of_ok (ok : spec.enrich = .ok enriched) (breakless : enriched.Breakless)
    (source : List UInt8) : Plan.TypeBodies spec enriched (Plan.outputs enriched source) where
  ordered := (enriched_of_ok ok).ordered.2.1
  types := by
    rintro ⟨key, t⟩ entry
    obtain ⟨raw, listed, arranges⟩ := arranges_of_ok ok entry
    exact ⟨raw, listed, arranges, shows_type_of_ok ok breakless source entry⟩

theorem typeBodies_of_ok_desk :
    desk.enrich = .ok deskEnriched ∧ deskEnriched.Breakless ∧
      Plan.TypeBodies desk deskEnriched (Plan.outputs deskEnriched []) :=
  ⟨enrich_desk, breakless_desk, typeBodies_of_ok enrich_desk breakless_desk []⟩

end Spec

end PluginCompiler
