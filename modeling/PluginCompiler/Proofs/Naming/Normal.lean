import PluginCompiler.Proofs.Naming
import PluginCompiler.Proofs.Text.Characters

/-! Identifiers as the normal form of names. A name is its own identifier exactly if it is a single word
without a small letter at its start. What separates words leaves no trace, and apart from case an
identifier is all that is left of its name without it. -/

set_option autoImplicit false

namespace PluginCompiler.Naming

variable {c : Char} {cs ds : List Char} {atStart : Bool} {s t name : String}

theorem toNat_lt_of_isWordChar (word : isWordChar c = true) : c.toNat < 0x80 := by
  simp only [isWordChar, Char.isAlphanum, Char.isAlpha, Char.isUpper, Char.isLower, Char.isDigit,
    Bool.or_eq_true, Bool.and_eq_true, decide_eq_true_eq, UInt32.le_iff_toNat_le] at word
  have last : 'Z'.val.toNat < 0x80 ∧ 'z'.val.toNat < 0x80 ∧ '9'.val.toNat < 0x80 := by decide
  simp only [Char.toNat]
  omega

theorem isAscii_of_isWord (word : IsWord name) : Text.IsAscii name :=
  fun c member => toNat_lt_of_isWordChar (word c member)

theorem toLower_toUpper (small : c.toNat < 0x80) : c.toUpper.toLower = c.toLower := by
  have table : ∀ n < 0x80, (Char.ofNat n).toUpper.toLower = (Char.ofNat n).toLower := by decide
  have entry := table c.toNat small
  rwa [Char.ofNat_toNat] at entry

theorem isLower_of_isStart (start : isStart c = true) : c.isLower = false := by
  rw [isStart, Bool.or_eq_true] at start
  by_contra small
  simp only [Char.isUpper, Char.isDigit, Char.isLower, Bool.and_eq_true, decide_eq_true_eq,
    Bool.not_eq_false, UInt32.le_iff_toNat_le] at start small
  have between : 'Z'.val.toNat < 'a'.val.toNat ∧ '9'.val.toNat < 'a'.val.toNat := by decide
  omega

structure IsNormal (s : String) : Prop where
  word : IsWord s
  start : ∀ c ∈ s.toList.head?, c.isLower = false

theorem camelFrom_of_word (word : ∀ c ∈ cs, isWordChar c = true) : camelFrom false cs = cs := by
  induction cs with
  | nil => rfl
  | cons c cs ih =>
    obtain ⟨first, later⟩ := List.forall_mem_cons.mp word
    rw [camelFrom, if_pos first, ih later]
    rfl

theorem isNormal_upperCamel (name : String) : IsNormal (upperCamel name) where
  word := isWord_upperCamel name
  start c head := by
    rw [toList_upperCamel, Option.mem_def] at head
    exact isLower_of_isStart (isStart_of_head head)

theorem upperCamel_of_isNormal (normal : IsNormal s) : upperCamel s = s := by
  apply String.toList_inj.mp
  rw [toList_upperCamel, camelChars]
  have word := normal.word
  have start := normal.start
  unfold IsWord at word
  cases chars : s.toList with
  | nil => rfl
  | cons c cs =>
    rw [chars] at word start
    obtain ⟨first, later⟩ := List.forall_mem_cons.mp word
    have large : ¬ c.isLower = true := by simp [start c rfl]
    rw [camelFrom, if_pos first, if_pos rfl, camelFrom_of_word later,
      Char.toUpper_eq_of_not_isLower large]

theorem upperCamel_eq_self_iff : upperCamel s = s ↔ IsNormal s :=
  ⟨fun same => same ▸ isNormal_upperCamel s, upperCamel_of_isNormal⟩

/-- No character of a text belongs to a word. -/
def Separates (s : String) : Prop := ∀ c ∈ s.toList, isWordChar c = false

theorem camelFrom_separated (apart : ∀ c ∈ ds, isWordChar c = false) (cs : List Char) :
    camelFrom true (ds ++ cs) = camelFrom true cs := by
  induction ds with
  | nil => rfl
  | cons d ds ih =>
    obtain ⟨first, later⟩ := List.forall_mem_cons.mp apart
    rw [List.cons_append, camelFrom, first, if_neg Bool.false_ne_true, ih later]

theorem camelFrom_append_cons (apart : isWordChar c = false) (atStart : Bool) (cs ds : List Char) :
    camelFrom atStart (cs ++ c :: ds) = camelFrom atStart cs ++ camelFrom true ds := by
  induction cs generalizing atStart with
  | nil => simp [camelFrom, apart]
  | cons d cs ih =>
    rw [List.cons_append, camelFrom, camelFrom]
    split
    · rw [ih, List.cons_append]
    · rw [ih]

theorem upperCamel_append {d : String} (some_ : d ≠ "") (apart : Separates d) (s t : String) :
    upperCamel (s ++ d ++ t) = upperCamel s ++ upperCamel t := by
  apply String.toList_inj.mp
  rw [Separates] at apart
  simp only [String.toList_append, toList_upperCamel, camelChars, List.append_assoc]
  cases chars : d.toList with
  | nil => exact absurd (String.toList_eq_nil_iff.mp chars) some_
  | cons c ds =>
    rw [chars] at apart
    obtain ⟨first, later⟩ := List.forall_mem_cons.mp apart
    rw [List.cons_append, camelFrom_append_cons first, camelFrom_separated later]

def joined (name : String) : String := String.ofList (name.toList.filter isWordChar)

theorem isWord_joined (name : String) : IsWord (joined name) := by
  intro c member
  rw [joined, String.toList_ofList] at member
  exact (List.mem_filter.mp member).2

theorem joined_of_isWord (word : IsWord name) : joined name = name := by
  rw [joined, List.filter_eq_self.mpr word, String.ofList_toList]

theorem map_toLower_camelFrom (atStart : Bool) (cs : List Char) :
    (camelFrom atStart cs).map Char.toLower = (cs.filter isWordChar).map Char.toLower := by
  induction cs generalizing atStart with
  | nil => rfl
  | cons c cs ih =>
    rw [camelFrom]
    split
    · next word =>
      have same : (if atStart then c.toUpper else c).toLower = c.toLower := by
        split
        · exact toLower_toUpper (toNat_lt_of_isWordChar word)
        · rfl
      rw [List.filter_cons_of_pos word, List.map_cons, List.map_cons, same, ih]
    · next other => rw [List.filter_cons_of_neg other, ih]

/-- Only the case of letters tells an identifier from what its name is made of. -/
theorem lower_upperCamel (name : String) : Text.lower (upperCamel name) = Text.lower (joined name) := by
  apply String.toList_inj.mp
  rw [Text.toList_lower (isAscii_of_isWord (isWord_upperCamel name)),
    Text.toList_lower (isAscii_of_isWord (isWord_joined name)), toList_upperCamel, joined,
    String.toList_ofList]
  exact map_toLower_camelFrom true name.toList

theorem lower_upperCamel_of_isWord (word : IsWord name) :
    Text.lower (upperCamel name) = Text.lower name := by
  rw [lower_upperCamel, joined_of_isWord word]

/-- Identifiers are normal, and normal names stay as they are. Where a name is cut at what separates its
words, its identifier is cut as well, and without regard to case it has the same letters and digits. -/
theorem upperCamel_normalizes (s t d : String) (some_ : d ≠ "") (apart : Separates d) :
    IsNormal (upperCamel s) ∧
    (upperCamel s = s ↔ s = "" ∨ IsNormal s) ∧
    upperCamel (upperCamel s) = upperCamel s ∧
    upperCamel (s ++ d ++ t) = upperCamel s ++ upperCamel t ∧
    Text.lower (upperCamel s) = Text.lower (joined s) := by
  have normal := isNormal_upperCamel s
  refine ⟨normal, ?_, upperCamel_of_isNormal normal, upperCamel_append some_ apart s t,
    lower_upperCamel s⟩
  rw [upperCamel_eq_self_iff]
  constructor
  · exact .inr
  · rintro (rfl | own)
    · exact upperCamel_eq_self_iff.mp rfl
    · exact own

theorem upperCamel_normalizes_accented :
    "-é_" ≠ "" ∧ Separates "-é_" ∧
    IsNormal (upperCamel "__get URL") ∧
    (upperCamel "__get URL" = "__get URL" ↔ "__get URL" = "" ∨ IsNormal "__get URL") ∧
    upperCamel (upperCamel "__get URL") = upperCamel "__get URL" ∧
    upperCamel ("__get URL" ++ "-é_" ++ "2fa") = upperCamel "__get URL" ++ upperCamel "2fa" ∧
    Text.lower (upperCamel "__get URL") = Text.lower (joined "__get URL") :=
  have each : isWordChar '-' = false ∧ isWordChar 'é' = false ∧ isWordChar '_' = false := by decide
  have apart : Separates "-é_" := by simpa [Separates] using each
  ⟨by decide, apart, upperCamel_normalizes "__get URL" "2fa" "-é_" (by decide) apart⟩

example : upperCamel "__get URL-_2fa" = "GetURL2fa" := by decide

end PluginCompiler.Naming
