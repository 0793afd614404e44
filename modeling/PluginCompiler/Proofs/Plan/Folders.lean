import PluginCompiler.Proofs.FileTree.Path
import PluginCompiler.Proofs.Plan.Listing

/-! The paths of arbitrary names. A name with slashes leads through folders of its own, and one that
starts with a slash leads away from the directory of its file. -/

set_option autoImplicit false

namespace PluginCompiler

namespace Path

def folders (name : String) : List String :=
  ((segments name.toList).dropLast.filter fun p => p != [] && p != ['.']).map String.ofList

theorem segments_append (cs : List Char) : ∃ front last, segments cs = front ++ [last] ∧
    ∀ ending, '/' ∉ ending → segments (cs ++ ending) = front ++ [last ++ ending] := by
  -- A character goes to the first segment, which is the last one only while there is no other.
  induction cs with
  | nil => exact ⟨[], [], rfl, fun ending whole => Plan.segments_of_whole whole⟩
  | cons c cs ih =>
    obtain ⟨front, last, split, further⟩ := ih
    by_cases slash : c = '/'
    · refine ⟨[] :: front, last, ?_, fun ending whole => ?_⟩
      · cases front <;> simp [segments, split, slash]
      · have longer := further ending whole
        cases front <;> simp_all [segments]
    · cases front with
      | nil =>
        refine ⟨[], c :: last, by simp [segments, split, slash], fun ending whole => ?_⟩
        simp [segments, further ending whole, slash]
      | cons part front =>
        refine ⟨(c :: part) :: front, last, by simp [segments, split, slash],
          fun ending whole => ?_⟩
        simp [segments, further ending whole, slash]

theorem partsOf_append (name : String) {ending : String} (plain : Plan.PlainName ending) :
    ∃ file, file ≠ ".." ∧ ending.toList <:+ file.toList ∧
      partsOf (name ++ ending).toList = folders name ++ [file] := by
  obtain ⟨front, last, split, further⟩ := segments_append name.toList
  have long : 2 < (last ++ ending.toList).length := by
    have := plain.long
    rw [List.length_append]
    omega
  have filled : last ++ ending.toList ≠ [] := by
    intro same
    simp [same] at long
  have other : last ++ ending.toList ≠ ['.'] := by
    intro same
    simp [same] at long
  refine ⟨String.ofList (last ++ ending.toList), ?_, by simp, ?_⟩
  · intro same
    have up : last ++ ending.toList = ['.', '.'] := by
      rw [← String.toList_ofList (l := last ++ ending.toList), same]
      rfl
    simp [up] at long
  · rw [String.toList_append, partsOf, folders, split, further _ plain.whole]
    simp [filled, other]

theorem rootOf_append (name : String) {ending : String} (plain : Plan.PlainName ending) :
    rootOf (name ++ ending).toList = .relative ↔ name.toList.head? ≠ some '/' := by
  rw [String.toList_append]
  cases name.toList with
  | nil => simp [plain.rootOf]
  | cons c cs =>
    by_cases slash : c = '/'
    · subst slash
      simp only [List.cons_append, rootOf, List.head?_cons, ne_eq, not_true_eq_false, iff_false]
      split <;> simp_all
    · simp [rootOf, slash]

end Path

namespace Plan

/-- A name that becomes a file in a directory of the plan. -/
inductive Named (spec : Spec) : List String → String → Prop where
  | handler {kind : HandlerKind} {name : String} (member : name ∈ (spec.handlers kind).names) :
      Named spec [kind.package] name
  | route {name : String} (member : name ∈ spec.actions.names) :
      Named spec ["server", "http"] name
  | customType {name : String} (member : name ∈ spec.customTypes.names) :
      Named spec ["types"] name

variable {spec : Spec} {policy : WritePolicy} {path : Path} {directory : List String}
  {name ending : String}

theorem inDirectory_root (plain : PlainName ending) :
    (inDirectory directory (name ++ ending)).root = .relative ↔ name.toList.head? ≠ some '/' := by
  rw [← Path.rootOf_append name plain, inDirectory, Path.child, Path.join, Path.ofString]
  split
  · next relative => exact iff_of_true rfl relative
  · rfl

theorem inDirectory_parts (directory : List String) (plain : PlainName ending)
    (relative : name.toList.head? ≠ some '/') :
    ∃ file, file ≠ ".." ∧
      (inDirectory directory (name ++ ending)).parts = directory ++ Path.folders name ++ [file] := by
  obtain ⟨file, down, _, parts⟩ := Path.partsOf_append name plain
  refine ⟨file, down, ?_⟩
  have root : (Path.ofString (name ++ ending)).root = .relative :=
    (Path.rootOf_append name plain).mpr relative
  rw [inDirectory, Path.child, Path.join_of_relative root, Path.ofString, parts, List.append_assoc]

theorem Listed.named (listed : Listed spec policy path) :
    (∃ directory name ending, Named spec directory name ∧ PlainName ending ∧
      path = inDirectory directory (name ++ ending)) ∨
    path.root = .relative ∧ ".." ∉ path.parts ∧ path.parts ≠ [] := by
  cases listed with
  | declaration member => exact .inl ⟨_, _, _, .handler member, plainName_go, rfl⟩
  | stub member => exact .inl ⟨_, _, _, .handler member, plainName_run_go, rfl⟩
  | route member => exact .inl ⟨_, _, _, .route member, plainName_go, rfl⟩
  | customType member => exact .inl ⟨_, _, _, .customType member, plainName_go, rfl⟩
  | _ => exact .inr (by decide)

theorem Named.listed (named : Named spec directory name) :
    Listed spec .always (inDirectory directory (name ++ ".go")) := by
  cases named with
  | handler member => exact .declaration member
  | route member => exact .route member
  | customType member => exact .customType member

theorem Named.down (named : Named spec directory name) : ".." ∉ directory := by
  cases named with
  | @handler kind => cases kind <;> decide
  | _ => decide

end Plan

end PluginCompiler
