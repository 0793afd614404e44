import Mathlib.Data.List.Basic
import PluginCompiler.Proofs.Plan.Listing
import PluginCompiler.Proofs.Text.Characters

/-! Keys of plain names. Two outputs have one key when their paths have the same parts, case
ignored. -/

set_option autoImplicit false

namespace PluginCompiler

open Text (IsAscii lower)

/-- The declared names have none but the first 128 characters. -/
def Spec.Ascii (spec : Spec) : Prop := ∀ name ∈ spec.declared, IsAscii name

instance (spec : Spec) : Decidable spec.Ascii :=
  inferInstanceAs (Decidable (∀ name ∈ spec.declared, IsAscii name))

def Output.folded (o : Output) : List String := o.path.parts.map lower

namespace Plan

theorem segments_ne_nil (cs : List Char) : Path.segments cs ≠ [] := by
  cases cs with
  | nil => simp [Path.segments]
  | cons c cs =>
    rw [Path.segments]
    split
    · simp
    · split <;> simp

theorem segments_append {front : List Char} (whole : '/' ∉ front) (rest : List Char) :
    Path.segments (front ++ '/' :: rest) = front :: Path.segments rest := by
  induction front with
  | nil =>
    rw [List.nil_append, Path.segments]
    cases same : Path.segments rest with
    | nil => exact absurd same (segments_ne_nil rest)
    | cons part parts => simp
  | cons c front ih =>
    rw [List.mem_cons, not_or] at whole
    simp [Path.segments, ih whole.2, Ne.symm whole.1]

theorem segments_intercalate {parts : List String} (filled : parts ≠ [])
    (whole : ∀ part ∈ parts, '/' ∉ part.toList) :
    Path.segments ("/".intercalate parts).toList = parts.map String.toList := by
  induction parts with
  | nil => exact absurd rfl filled
  | cons part rest ih =>
    rw [List.forall_mem_cons] at whole
    cases rest with
    | nil => simpa using segments_of_whole whole.1
    | cons next rest =>
      have slash : "/".toList = ['/'] := rfl
      rw [String.intercalate_cons_cons, String.toList_append, String.toList_append, slash,
        List.append_assoc, List.singleton_append, segments_append whole.1, ih (by simp) whole.2]
      rfl

theorem intercalate_inj {parts others : List String} (filled : parts ≠ []) (filled' : others ≠ [])
    (whole : ∀ part ∈ parts, '/' ∉ part.toList) (whole' : ∀ part ∈ others, '/' ∉ part.toList) :
    "/".intercalate parts = "/".intercalate others ↔ parts = others := by
  constructor
  · intro same
    have split := congrArg (fun s => Path.segments s.toList) same
    simp only [segments_intercalate filled whole, segments_intercalate filled' whole'] at split
    exact List.map_injective_iff.mpr (fun _ _ => String.toList_inj.mp) split
  · rintro rfl
    rfl

theorem isAscii_intercalate {parts : List String} (ascii : ∀ part ∈ parts, IsAscii part) :
    IsAscii ("/".intercalate parts) := by
  intro c member
  rcases Text.mem_of_mem_intercalate member with between | ⟨part, inside, found⟩
  · have slash : IsAscii "/" := by decide
    exact slash c between
  · exact ascii part inside c found

theorem lower_intercalate {parts : List String} (ascii : ∀ part ∈ parts, IsAscii part) :
    lower ("/".intercalate parts) = "/".intercalate (parts.map lower) := by
  induction parts with
  | nil => simp [lower, Text.lowerFrom]
  | cons part rest ih =>
    rw [List.forall_mem_cons] at ascii
    cases rest with
    | nil => simp
    | cons next rest =>
      have slash : IsAscii "/" := by simp [IsAscii]
      have same : lower "/" = "/" := by decide
      rw [String.intercalate_cons_cons,
        Text.lower_append (Text.isAscii_append.mpr ⟨ascii.1, slash⟩) (isAscii_intercalate ascii.2),
        Text.lower_append ascii.1 slash, same, ih ascii.2]
      simp only [List.map_cons, String.intercalate_cons_cons]

theorem whole_lower {part : String} (ascii : IsAscii part) (whole : '/' ∉ part.toList) :
    '/' ∉ (lower part).toList := by
  rw [Text.toList_lower ascii, List.mem_map]
  rintro ⟨c, member, same⟩
  exact whole (Text.toLower_eq_slash (ascii c member) same ▸ member)

variable {spec : Spec} {source : List UInt8} {policy : WritePolicy} {path : Path}

theorem Listed.ascii (slashless : spec.Slashless) (ascii : spec.Ascii)
    (listed : Listed spec policy path) : ∀ part ∈ path.parts, IsAscii part :=
  listed.forall_parts slashless (by decide) fun name member =>
    ⟨Text.isAscii_append.mpr ⟨ascii name member, by decide⟩,
      Text.isAscii_append.mpr ⟨ascii name member, by decide⟩⟩

theorem Regular.key {o : Output} (regular : Regular o.path) :
    o.key = lower ("/".intercalate o.path.parts) := by
  obtain ⟨head, rest, parts, _⟩ := regular.parts
  simp [Output.key, Path.toString, regular.relative, parts]

theorem key_eq_iff {o o' : Output} (slashless : spec.Slashless) (ascii : spec.Ascii)
    (member : o ∈ outputs spec source) (member' : o' ∈ outputs spec source) :
    o.key = o'.key ↔ o.folded = o'.folded := by
  have listed := listed_of_mem member
  have listed' := listed_of_mem member'
  have filled {p : Path} (regular : Regular p) : p.parts.map lower ≠ [] := by
    obtain ⟨head, rest, parts, _⟩ := regular.parts
    simp [parts]
  have whole {p : Path} {policy : WritePolicy} (listed : Listed spec policy p) :
      ∀ part ∈ p.parts.map lower, '/' ∉ part.toList := by
    rw [List.forall_mem_map]
    exact fun part member => whole_lower (listed.ascii slashless ascii part member)
      ((listed.regular slashless).whole part member)
  rw [(listed.regular slashless).key, (listed'.regular slashless).key,
    lower_intercalate (listed.ascii slashless ascii),
    lower_intercalate (listed'.ascii slashless ascii),
    intercalate_inj (filled (listed.regular slashless)) (filled (listed'.regular slashless))
      (whole listed) (whole listed')]
  rfl

theorem nodup_key_iff (slashless : spec.Slashless) (ascii : spec.Ascii) :
    ((outputs spec source).map Output.key).Nodup ↔
      ((outputs spec source).map Output.folded).Nodup := by
  rw [List.Nodup, List.Nodup, List.pairwise_map, List.pairwise_map]
  exact List.Pairwise.iff_of_mem fun member member' =>
    not_congr (key_eq_iff slashless ascii member member')

end Plan

end PluginCompiler
