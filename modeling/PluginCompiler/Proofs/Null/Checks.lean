import PluginCompiler.Proofs.Null.Data
import PluginCompiler.Proofs.Spec.Root

/-! Checks of data with null sections. Every check that a spec is made of gives the same record or the same
issues for the data with empty sections, up to the spec as a whole. -/

set_option autoImplicit false

namespace PluginCompiler

namespace Value

variable {α : Type} {roles : Nat → Role → Prop} {r : Role} {v w : Value} {check : Value → Checked α}
  {entries entries' : List (Value × Value)}

/-- A check that takes a value in a role as it takes the same value with emptied sections. -/
def Agrees (roles : Nat → Role → Prop) (r : Role) (check : Value → Checked α) : Prop :=
  ∀ v w, Emptied roles r v w → check v = check w

theorem agrees_other : Agrees roles .other check := fun v w emptied => by
  rw [eq_of_emptied v w emptied]

theorem asSection_of_other (other : ∀ entries, v.opened ≠ map entries) :
    asSection check v = .fault .mapType := by
  unfold asSection
  split
  · next opened => exact absurd opened (other _)
  · rfl

theorem asRecord_of_other {check : List (Value × Value) → Checked α}
    (other : ∀ entries, v.opened ≠ map entries) : asRecord check v = .fault .recordType := by
  unfold asRecord
  split
  · next opened => exact absurd opened (other _)
  · rfl

theorem asEntries_emptied (agrees : ∀ name, Agrees roles (r.entry name) check)
    (inside : EmptiedEntries roles r entries entries') :
    asEntries check entries = asEntries check entries' := by
  induction entries generalizing entries' with
  | nil => rw [show entries' = [] from inside]
  | cons e rest ih =>
    obtain ⟨k, v⟩ := e
    obtain ⟨w, rest', rfl, _, first, further⟩ := inside
    rw [asEntries, asEntries, agrees _ v w first, ih further]

theorem asSection_emptied (agrees : ∀ name, Agrees roles (r.entry name) check)
    (emptied : Emptied roles r v w) (filled : v ≠ null ∨ r.hollow? = none) :
    asSection check v = asSection check w := by
  rcases map_of_emptied emptied filled with ⟨entries, entries', first, second, inside⟩ | ⟨first, second⟩
  · rw [asSection, asSection, first, second]
    simp only [asEntries_emptied agrees inside]
  · rw [asSection_of_other first, asSection_of_other second]

theorem asRecord_emptied {check : List (Value × Value) → Checked α}
    (agrees : ∀ entries entries', EmptiedEntries roles r entries entries' →
      check entries = check entries')
    (emptied : Emptied roles r v w) (filled : v ≠ null ∨ r.hollow? = none) :
    asRecord check v = asRecord check w := by
  rcases map_of_emptied emptied filled with ⟨entries, entries', first, second, inside⟩ | ⟨first, second⟩
  · rw [asRecord, asRecord, first, second]
    exact agrees entries entries' inside
  · rw [asRecord_of_other first, asRecord_of_other second]

theorem all_emptied (agrees : Agrees roles r check) {vs ws : List Value} (i : Int)
    (inside : EmptiedAll roles r vs ws) : Checked.all check i vs = Checked.all check i ws := by
  induction vs generalizing ws i with
  | nil => rw [show ws = [] from inside]
  | cons v rest ih =>
    obtain ⟨w, rest', rfl, first, further⟩ := inside
    rw [Checked.all, Checked.all, agrees v w first, ih (i + 1) further]

theorem asList_emptied (agrees : Agrees roles r.item check) (emptied : Emptied roles r v w)
    (filled : v ≠ null ∨ r.hollow? = none) : asList check v = asList check w := by
  have opened := emptied_opened emptied
  rw [asList, asList]
  cases look : v.opened with
  | list items =>
    rw [look] at opened
    obtain ⟨items', same, inside⟩ := opened
    rw [same]
    exact all_emptied agrees 0 inside
  | tuple items | set items =>
    rw [look] at opened
    obtain ⟨items', same, inside⟩ := opened
    rw [same, eq_of_emptiedAll items items' inside]
  | null => rw [opened_eq_null emptied filled look]
  | map | knot =>
    rw [look] at opened
    obtain ⟨inner, same, _⟩ := opened
    rw [same]
  | again =>
    rw [look] at opened
    rw [opened.1]
  | _ =>
    rw [look] at opened
    rw [show w.opened = _ from opened]

theorem agrees_orIfNull (hollow : Hollow) (known : r.hollow? = some hollow)
    (agrees : ∀ v w, Emptied roles r v w → v ≠ null → check v = check w) :
    Agrees roles r (orIfNull hollow.value check) := by
  intro v w emptied
  have filled : hollow.value ≠ null := by cases hollow <;> nofun
  by_cases null : v = .null
  · subst null
    rcases emptied with rfl | ⟨hollow', known', rfl⟩
    · rfl
    · cases known.symm.trans known'
      rw [orIfNull_of_ne filled]
      rfl
  · rw [orIfNull_of_ne null, orIfNull_of_ne (ne_null_of_emptied emptied null),
      agrees v w emptied null]

theorem find?_emptied (name : String) (inside : EmptiedEntries roles r entries entries') :
    Option.Rel (Emptied roles (r.entry (some name))) (find? name entries) (find? name entries') := by
  induction entries generalizing entries' with
  | nil =>
    rw [show entries' = [] from inside]
    exact .none
  | cons e rest ih =>
    obtain ⟨k, v⟩ := e
    obtain ⟨w, rest', rfl, _, first, further⟩ := inside
    by_cases same : k = .text name
    · subst same
      rw [Yaml.find?_cons_self, Yaml.find?_cons_self]
      exact .some first
    · rw [Yaml.find?_cons_of_ne same, Yaml.find?_cons_of_ne same]
      exact ih further

theorem field_emptied (name : String) {default_ : α}
    (inside : EmptiedEntries roles r entries entries')
    (agrees : Agrees roles (r.entry (some name)) check) :
    field entries name default_ check = field entries' name default_ check := by
  have found := find?_emptied name inside
  rw [field, field]
  generalize find? name entries = a, find? name entries' = b at found
  cases found with
  | none => rfl
  | some emptied => exact congrArg (Checked.under (.name name)) (agrees _ _ emptied)

theorem field_plain {name : String} {default_ : α}
    (inside : EmptiedEntries roles r entries entries') (plain : r.entry (some name) = .other) :
    field entries name default_ check = field entries' name default_ check :=
  field_emptied name inside (plain ▸ agrees_other)

theorem requiredField_plain {name : String} (inside : EmptiedEntries roles r entries entries')
    (plain : r.entry (some name) = .other) :
    requiredField entries name check = requiredField entries' name check := by
  have found := find?_emptied name inside
  rw [plain] at found
  rw [requiredField, requiredField]
  generalize find? name entries = a, find? name entries' = b at found
  cases found with
  | none => rfl
  | some emptied => rw [eq_of_emptied _ _ emptied]

theorem agrees_section (known : r.hollow? = some .map)
    (agrees : ∀ name, Agrees roles (r.entry name) check) :
    Agrees roles r (orIfNull (.map []) (asSection check)) :=
  agrees_orIfNull .map known fun _ _ emptied present => asSection_emptied agrees emptied (.inl present)

theorem agrees_list (known : r.hollow? = some .list) (agrees : Agrees roles r.item check) :
    Agrees roles r (orIfNull (.list []) (asList check)) :=
  agrees_orIfNull .list known fun _ _ emptied present => asList_emptied agrees emptied (.inl present)

theorem agrees_parameter : Agrees roles .parameter Parameter.decode := by
  intro v w emptied
  refine asRecord_emptied (fun entries entries' inside => ?_) emptied (.inr rfl)
  simp (disch := decide) only [field_plain inside]
  rw [field_emptied "enum" inside (agrees_list rfl agrees_other)]

theorem agrees_parameters : Agrees roles .parameters (orIfNull (.map []) decodeParameters) :=
  agrees_section rfl fun _ => agrees_parameter

theorem agrees_types : Agrees roles .types (orIfNull (.map []) decodeTypes) :=
  agrees_section rfl fun _ => agrees_parameters

theorem agrees_handler : Agrees roles .handler Handler.decode := by
  intro v w emptied
  refine asRecord_emptied (fun entries entries' inside => ?_) emptied (.inr rfl)
  simp (disch := decide) only [field_plain inside]
  rw [field_emptied "input" inside agrees_parameters, field_emptied "output" inside agrees_parameters]

theorem agrees_handlers : Agrees roles .handlers (orIfNull (.map []) (asSection Handler.decode)) :=
  agrees_section rfl fun _ => agrees_handler

theorem agrees_http : Agrees roles .http (orIfNull (.map []) HttpSettings.decode) :=
  agrees_orIfNull .map rfl fun v w emptied present =>
    asRecord_emptied (fun entries entries' inside => by
      simp (disch := decide) only [field_plain inside]) emptied (.inl present)

theorem agrees_customType : Agrees roles .customType CustomType.decode := by
  intro v w emptied
  refine asRecord_emptied (fun entries entries' inside => ?_) emptied (.inr rfl)
  have fields : Agrees roles .fields decodeParameters := fun v w emptied =>
    asSection_emptied (fun _ => agrees_parameter) emptied (.inr rfl)
  have sorted : Agrees roles .sortedFields (asList Parameter.decode) := fun v w emptied =>
    asList_emptied agrees_parameter emptied (.inr rfl)
  simp (disch := decide) only [requiredField_plain inside]
  rw [field_emptied "fields" inside fields, field_emptied "sorted_fields" inside sorted]

theorem agrees_customTypes : Agrees roles .customTypes (asSection CustomType.decode) :=
  fun _ _ emptied => asSection_emptied (fun _ => agrees_customType) emptied (.inr rfl)

theorem typesField_emptied (inside : EmptiedEntries roles .spec entries entries') :
    typesField entries = typesField entries' := by
  have found := find?_emptied "types" inside
  rw [typesField, typesField, field_emptied "raw_types" inside agrees_types]
  generalize find? "types" entries = a, find? "types" entries' = b at found
  cases found with
  | none => rfl
  | some emptied => exact congrArg (Checked.under (.name "types")) (agrees_types _ _ emptied)

theorem agrees_spec : Agrees roles .spec Spec.decode := by
  intro v w emptied
  refine asRecord_emptied (fun entries entries' inside => ?_) emptied (.inr rfl)
  simp (disch := decide) only [field_plain inside]
  rw [field_emptied "tags" inside (agrees_list rfl agrees_other),
    field_emptied "connection" inside agrees_parameters, typesField_emptied inside,
    field_emptied "actions" inside agrees_handlers, field_emptied "triggers" inside agrees_handlers,
    field_emptied "http" inside agrees_http, field_emptied "custom_types" inside agrees_customTypes]

theorem find?_root_emptied (inside : EmptiedEntries roles .spec entries entries') :
    find? "package_root" entries = find? "package_root" entries' := by
  have found := find?_emptied "package_root" inside
  generalize find? "package_root" entries = a, find? "package_root" entries' = b at found
  cases found with
  | none => rfl
  | some emptied => rw [eq_of_emptied _ _ emptied]

theorem effectiveRoot_emptied (asked : String) (inside : EmptiedEntries roles .spec entries entries') :
    Spec.effectiveRoot asked entries = Spec.effectiveRoot asked entries' := by
  rw [Spec.effectiveRoot, Spec.effectiveRoot, find?_root_emptied inside]

theorem hasRoot_emptied (asked : String) (inside : EmptiedEntries roles .spec entries entries') :
    Spec.hasRoot asked entries = Spec.hasRoot asked entries' := by
  rw [Spec.hasRoot, Spec.hasRoot, find?_root_emptied inside]

theorem put_emptied (name s : String) (inside : EmptiedEntries roles r entries entries') :
    EmptiedEntries roles r (put (.text name) (.text s) entries) (put (.text name) (.text s) entries') := by
  induction entries generalizing entries' with
  | nil =>
    rw [show entries' = [] from inside]
    exact ⟨.text s, [], rfl, rfl, rfl, rfl⟩
  | cons e rest ih =>
    obtain ⟨k, v⟩ := e
    obtain ⟨w, rest', rfl, key, first, further⟩ := inside
    rw [put, put]
    split
    · exact ⟨.text s, rest', rfl, key, rfl, further⟩
    · exact ⟨w, _, rfl, key, first, ih further⟩

theorem isSingle_withEntry (name s : String) :
    Yaml.IsSingle (v.withEntry name (.text s)) = Yaml.IsSingle v := by
  cases v <;> rfl

theorem withEntry_emptied (name s : String) : (v w : Value) → (r : Role) → Emptied roles r v w →
    v ≠ null ∨ r.hollow? = none →
      Emptied roles r (v.withEntry name (.text s)) (w.withEntry name (.text s))
  | .null, w, r, emptied, filled => by
    rcases emptied with rfl | ⟨hollow, known, _⟩
    · exact .inl rfl
    · rw [filled.resolve_left fun present => present rfl] at known
      cases known
  | .map entries, w, r, emptied, _ => by
    obtain ⟨entries', rfl, inside⟩ := emptied
    exact ⟨_, rfl, put_emptied name s inside⟩
  | .knot label body, w, r, emptied, _ => by
    obtain ⟨body', rfl, other, known, inside⟩ := emptied
    refine ⟨_, rfl, (isSingle_withEntry name s).trans other, known, fun r known =>
      withEntry_emptied name s body body' r (inside r known) (.inl ?_)⟩
    rintro rfl
    cases other
  | .list _, w, r, emptied, _ | .tuple _, w, r, emptied, _ | .set _, w, r, emptied, _ => by
    obtain ⟨inner, rfl, inside⟩ := emptied
    exact ⟨inner, rfl, inside⟩
  | .again _, w, r, emptied, _ => by
    obtain ⟨rfl, known⟩ := emptied
    exact ⟨rfl, known⟩
  | .bool _, _, _, rfl, _ | .int _, _, _, rfl, _ | .float _, _, _, rfl, _ | .text _, _, _, rfl, _
  | .bytes _, _, _, rfl, _ | .date _, _, _, rfl, _ | .moment _, _, _, rfl, _ => emptied_of_single rfl

theorem kindName_emptied : (v w : Value) → (r : Role) → Emptied roles r v w → v ≠ null →
    v.kindName = w.kindName
  | .null, _, _, _, present => absurd rfl present
  | .knot label body, w, r, emptied, _ => by
    obtain ⟨body', rfl, other, known, inside⟩ := emptied
    refine kindName_emptied body body' r (inside r known) ?_
    rintro rfl
    cases other
  | .list _, w, r, emptied, _ | .tuple _, w, r, emptied, _ | .set _, w, r, emptied, _
  | .map _, w, r, emptied, _ => by
    obtain ⟨inner, rfl, _⟩ := emptied
    rfl
  | .again _, w, r, emptied, _ => by rw [emptied.1]
  | .bool _, _, _, rfl, _ | .int _, _, _, rfl, _ | .float _, _, _, rfl, _ | .text _, _, _, rfl, _
  | .bytes _, _, _, rfl, _ | .date _, _, _, rfl, _ | .moment _, _, _, rfl, _ => rfl

theorem ofData_of_other {data : Value} (packageRoot location : String) (present : data.opened ≠ null)
    (other : ∀ entries, data.opened ≠ map entries) : Spec.ofData data packageRoot location =
      Spec.refuse (.notMapping (some data.opened.kindName)) := by
  unfold Spec.ofData
  split
  · next opened => exact absurd opened (other _)
  · next opened => exact absurd opened present
  · rfl

theorem ofData_emptied {data data' : Value} (emptied : Emptied roles .spec data data')
    (packageRoot location : String) :
    Spec.ofData data packageRoot location = Spec.ofData data' packageRoot location := by
  rcases map_of_emptied emptied (.inr rfl) with
    ⟨entries, entries', first, second, inside⟩ | ⟨first, second⟩
  · have amended (root : String) : Emptied roles .spec
        ((data.withEntry "package_root" (.text root)).withEntry "spec_location" (.text location))
        ((data'.withEntry "package_root" (.text root)).withEntry "spec_location" (.text location)) :=
      withEntry_emptied "spec_location" location _ _ .spec
        (withEntry_emptied "package_root" root data data' .spec emptied (.inr rfl)) (.inr rfl)
    rw [Spec.ofData, Spec.ofData, first, second]
    simp only [effectiveRoot_emptied packageRoot inside, hasRoot_emptied packageRoot inside,
      agrees_spec _ _ (amended _)]
  · by_cases null : data.opened = .null
    · cases eq_null_of_opened emptied null
      rcases emptied with rfl | ⟨_, known, _⟩
      · rfl
      · cases known
    · have opened := emptied_opened emptied
      rw [ofData_of_other packageRoot location null first,
        ofData_of_other packageRoot location (ne_null_of_emptied opened null) second,
        kindName_emptied _ _ .spec opened null]

end Value

end PluginCompiler
