import PluginCompiler.Proofs.Generate.Emission
import PluginCompiler.Proofs.Plan.Listing

/-! Outputs with plain paths do not get in each other's way. A step leaves the places of the others as
they are, and whether it writes depends on what stands at its own place alone. -/

set_option autoImplicit false

namespace PluginCompiler

open FileTree

variable {root : Path} {cwd : Place} {t t' : FileTree} {o o' : Output}

namespace Output

def Rendered (o : Output) (root : Path) (cwd : Place) (t : FileTree) : Prop :=
  ∃ content, o.render (root.join o.path) = .ok content ∧
    t.find? (o.place root cwd) = some (.file content)

/-- The output is left to the developer, who has something at its place. -/
def Owned (o : Output) (root : Path) (cwd : Place) (t : FileTree) : Prop :=
  o.policy = .once ∧ t.find? (o.place root cwd) ≠ none

instance (o : Output) (root : Path) (cwd : Place) (t : FileTree) :
    Decidable (o.Owned root cwd t) :=
  inferInstanceAs (Decidable (_ ∧ _))

/-- The directory of the output can be reached. -/
def Sheltered (o : Output) (root : Path) (cwd : Place) (t : FileTree) : Prop :=
  (root.join o.path.parent).Passable cwd t ∧
    t.find? ((root.join o.path.parent).place cwd) = some .directory

theorem place_eq (regular : Plan.Regular o.path) :
    o.place root cwd = root.place cwd ++ o.path.parts :=
  Path.place_join_down regular.relative regular.down root

theorem join_parts (root : Path) (cwd : Place) (regular : Plan.Regular o.path) :
    ∃ name, (root.join o.path).parts = (root.join o.path.parent).parts ++ [name] ∧
      (root.join o.path).parent = root.join o.path.parent ∧
      (root.join o.path).start cwd = (root.join o.path.parent).start cwd := by
  obtain ⟨head, rest, parts, _⟩ := regular.parts
  have filled : o.path.parts ≠ [] := by simp [parts]
  have relative : o.path.parent.root = .relative := regular.relative
  rw [Path.join_of_relative regular.relative, Path.join_of_relative relative]
  refine ⟨o.path.parts.getLast filled, ?_, ?_, rfl⟩
  · simp [Path.parent, List.dropLast_concat_getLast filled]
  · simp [Path.parent, List.dropLast_append_of_ne_nil filled]

theorem path_eq_of_place (regular : Plan.Regular o.path) (regular' : Plan.Regular o'.path)
    (same : o.place root cwd = o'.place root cwd) : o.path = o'.path := by
  rw [place_eq regular, place_eq regular', List.append_cancel_left_eq] at same
  exact regular.eq_of_prefix regular' (same ▸ List.prefix_rfl)

theorem mem_trail_cases (regular : Plan.Regular o.path) {x : Place}
    (member : x ∈ (root.join o.path).parent.trail cwd) :
    x ∈ root.trail cwd ∨ ∃ front, front <+: o.path.parts.dropLast ∧ x = root.place cwd ++ front := by
  obtain ⟨_, _, parent, _⟩ := join_parts root cwd regular
  have relative : o.path.parent.root = .relative := regular.relative
  have down : ".." ∉ o.path.parent.parts := fun up =>
    regular.down ((List.dropLast_prefix o.path.parts).subset up)
  rw [parent, Path.join_of_relative relative, Path.trail, Place.trail_append, List.mem_append]
    at member
  refine member.imp_right fun member => ?_
  obtain ⟨front, _, inside, same⟩ := Place.mem_trail_down down member
  exact ⟨front, inside, same⟩

/-- The way to an output meets another one only on the way to the root. -/
theorem path_eq_of_mem_trail (regular : Plan.Regular o.path) (regular' : Plan.Regular o'.path)
    (member : o'.place root cwd ∈ (root.join o.path).parent.trail cwd)
    (aside : o'.place root cwd ∉ root.trail cwd) : o'.path = o.path := by
  obtain ⟨front, inside, same⟩ := (mem_trail_cases regular member).resolve_left aside
  rw [place_eq regular', List.append_cancel_left_eq] at same
  exact regular'.eq_of_prefix regular (same ▸ inside.trans (List.dropLast_prefix o.path.parts))

theorem Sheltered.grows {written : Place → Prop}
    (sheltered : o.Sheltered root cwd t) (grows : Grows written t t') : o.Sheltered root cwd t' :=
  ⟨sheltered.1.grows grows, grows.directories _ sheltered.2⟩

theorem sheltered_of_passable (regular : Plan.Regular o.path)
    (passable : (root.join o.path).Passable cwd t) : o.Sheltered root cwd t := by
  obtain ⟨_, parts, parent, _⟩ := join_parts root cwd regular
  have above := passable.parent parts
  rwa [parent] at above

end Output

namespace Generate

variable {p p' : Progress}

theorem write_find? {content : List UInt8} {made : FileTree}
    (above : (root.join o.path).parent.makeDirs cwd p.tree = (made, none))
    (put : (root.join o.path).write cwd content made = .ok t) (x : Place) :
    t.find? x =
      if x = o.place root cwd then some (.file content)
      else if x ∈ (root.join o.path).parent.trail cwd then some .directory
      else p.tree.find? x := by
  obtain ⟨_, _, other, rfl⟩ := Path.write_eq_ok.mp put
  rw [find?_put_of_not_directory other, (Path.makeDirs_eq_none above).find?]
  rfl

theorem Emitted.find?_of_ne (emitted : Emitted root cwd o p p')
    (home : ∀ x ∈ root.trail cwd, p.tree.find? x = some .directory)
    (regular : Plan.Regular o.path) (regular' : Plan.Regular o'.path) (apart : o.path ≠ o'.path) :
    p'.tree.find? (o'.place root cwd) = p.tree.find? (o'.place root cwd) := by
  cases emitted with
  | keep _ _ tree => rw [tree]
  | write content made _ _ above put =>
    have elsewhere : o'.place root cwd ≠ o.place root cwd := fun same =>
      apart (Output.path_eq_of_place regular regular' same.symm)
    rw [write_find? above put, if_neg elsewhere]
    split
    · next member =>
      -- Only the way to the root is shared, and its places are directories before the step too.
      by_cases inside : o'.place root cwd ∈ root.trail cwd
      · rw [home _ inside]
      · exact absurd (Output.path_eq_of_mem_trail regular regular' member inside).symm apart
    · rfl

theorem Emitted.reached (emitted : Emitted root cwd o p p') :
    (root.join o.path).hasNul = false ∧ (root.join o.path).Passable cwd p'.tree := by
  cases emitted with
  | keep _ there tree =>
    obtain ⟨clean, passable, _⟩ := Path.exists?_eq_true.mp there
    rw [tree]
    exact ⟨clean, passable⟩
  | write content made _ _ above put =>
    obtain ⟨clean, passable, other, same⟩ := Path.write_eq_ok.mp put
    rw [same]
    exact ⟨clean, passable.grows (grows_put_file other content)⟩

theorem absent_of_write {content : List UInt8} {made : FileTree} (regular : Plan.Regular o.path)
    (sheltered : o.Sheltered root cwd t)
    (missing : (root.join o.path).exists? cwd t = .ok false)
    (put : (root.join o.path).write cwd content made = .ok t') :
    t.find? (o.place root cwd) = none := by
  obtain ⟨name, parts, _, start⟩ := Output.join_parts root cwd regular
  obtain ⟨clean, passable, _, _⟩ := Path.write_eq_ok.mp put
  -- The last name fits, as the file could be written; the way to it is open already.
  have fits : name = ".." ∨ name.utf8ByteSize ≤ longestName := by
    rw [Path.Passable, parts, passable_concat] at passable
    exact passable.2.2.2
  apply Path.absent_of_exists? clean _ missing
  rw [Path.Passable, parts, passable_concat, start]
  exact ⟨passable.1, sheltered.1.2, sheltered.2, fits⟩

theorem Emitted.outcome (emitted : Emitted root cwd o p p') (regular : Plan.Regular o.path)
    (sheltered : o.policy = .once → o.Sheltered root cwd p.tree) :
    o.Owned root cwd p.tree ∧ p'.tree = p.tree ∧
        p'.written = p.written ∧ p'.kept = o.path :: p.kept ∨
      ¬ o.Owned root cwd p.tree ∧ o.Rendered root cwd p'.tree ∧
        p'.written = o.path :: p.written ∧ p'.kept = p.kept := by
  cases emitted with
  | keep once there tree written kept =>
    obtain ⟨_, _, entry, here⟩ := Path.exists?_eq_true.mp there
    have stands : p.tree.find? (o.place root cwd) ≠ none := by
      rw [Output.place, here]
      exact Option.some_ne_none entry
    exact .inl ⟨⟨once, stands⟩, tree, written, kept⟩
  | write content made free rendered above put written kept =>
    refine .inr ⟨?_, ⟨content, rendered, ?_⟩, written, kept⟩
    · rintro ⟨once, stands⟩
      rcases free with always | ⟨_, missing⟩
      · simp [once] at always
      · exact stands (absent_of_write regular (sheltered once) missing put)
    · rw [write_find? above put, if_pos rfl]

end Generate

end PluginCompiler
