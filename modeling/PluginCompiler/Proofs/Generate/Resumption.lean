import PluginCompiler.Proofs.Generate.Abort

/-! Runs after one that stopped. Whether a run succeeds is decided by what stands on the way to its
outputs and at their places before it; a run that stopped changes nothing about that, so that the next
one ends as a first run would have. -/

set_option autoImplicit false

namespace PluginCompiler

open FileTree

variable {root : Path} {cwd : Place} {t t' made : FileTree} {o o' : Output} {os rest : List Output}

/-- Nothing is in the way of an output: it can be reached, and there is something to write at its place
unless it is left to the developer. -/
structure Output.Open (o : Output) (root : Path) (cwd : Place) (t : FileTree) : Prop where
  clean : (root.join o.path).hasNul = false
  short : (root.join o.path).isLong = false
  fits : ∀ name ∈ (root.join o.path).parts, name = ".." ∨ name.utf8ByteSize ≤ longestName
  way : ∀ x ∈ o.way root cwd, t.find? x = none ∨ t.find? x = some .directory
  body : ¬ o.Owned root cwd t →
    (∃ content, o.render (root.join o.path) = .ok content) ∧
      t.find? (o.place root cwd) ≠ some .directory

namespace Output

theorem start_join (regular : Plan.Regular o.path) (root : Path) (cwd : Place) :
    (root.join o.path).start cwd = root.start cwd := by
  rw [Path.join_of_relative regular.relative]
  rfl

theorem mem_trail_of_mem_way (regular : Plan.Regular o.path)
    (member : o.place root cwd ∈ o.way root cwd) : o.place root cwd ∈ root.trail cwd := by
  refine (mem_trail_cases regular member).resolve_right ?_
  rintro ⟨front, inside, same⟩
  rw [place_eq regular, List.append_cancel_left_eq] at same
  obtain ⟨head, tail, parts, _⟩ := regular.parts
  have short := inside.length_le
  rw [← same, List.length_dropLast, parts, List.length_cons] at short
  omega

theorem mem_trail_of_other (regular : Plan.Regular o.path) (regular' : Plan.Regular o'.path)
    (member : o.place root cwd ∈ o'.way root cwd) : o.place root cwd ∈ root.trail cwd := by
  by_contra aside
  have same := path_eq_of_mem_trail regular' regular member aside
  have own : o.place root cwd ∈ o.way root cwd := by
    rw [way, same]
    exact member
  exact aside (mem_trail_of_mem_way regular own)

end Output

namespace Generate

variable {p p' : Progress} {abort : Abort} {before after before' after' : FileTree}
  {report : Report}

theorem start_of_emit (regular : Plan.Regular o.path) (ended : emit root cwd p o = (p', none)) :
    p.tree.find? (root.start cwd) = some .directory := by
  have started {t : FileTree} (passable : (root.join o.path).Passable cwd t) :
      t.find? (root.start cwd) = some .directory := by
    obtain ⟨name, parts, _⟩ := Output.join_parts root cwd regular
    have way := passable.2
    rw [Output.start_join regular] at way
    cases names : (root.join o.path).parts with
    | nil => simp [names] at parts
    | cons name rest =>
      rw [names] at way
      exact way.1
  cases emit_eq_none ended with
  | keep _ there => exact started (Path.exists?_eq_true.mp there).2.1
  | write content made _ _ above put =>
    have here := started (Path.write_eq_ok.mp put).2.1
    have changed := (root.join o.path).parent.makeDirs_changed cwd p.tree
    rw [above] at changed
    rcases changed.directory_of_find? here with there | ⟨_, member⟩
    · exact there
    · -- Something was made, and directories are made below one that is there.
      have clear := (Path.makeDirs_eq_none_iff.mp ⟨made, above⟩).way
      have filled : (root.join o.path).parent.parts ≠ [] := by
        intro empty
        simp [Path.trail, empty, Place.trail] at member
      have start := clear.start filled
      rwa [show (root.join o.path).parent.start cwd = root.start cwd from
        Output.start_join regular root cwd] at start

theorem open_of_ran (ran : Ran root cwd os p p') (regular : ∀ o ∈ os, Plan.Regular o.path)
    (changed : Changed (fun x => ∃ o ∈ os, x ∈ o.way root cwd)
      (fun x => ∃ o ∈ os, x = o.place root cwd) p.tree p'.tree) (member : o ∈ os) :
    o.Open root cwd p.tree := by
  obtain ⟨clean, short, passable⟩ := ran.reached o member
  refine ⟨clean, short, passable.fits, fun x inside => changed.open_of_find? (.inr ?_), fun free => ?_⟩
  · obtain ⟨name, parts, parent, start⟩ := Output.join_parts root cwd (regular o member)
    rw [parts, start] at passable
    rw [Output.way, parent] at inside
    exact passable.directory inside
  · obtain ⟨content, renders, here⟩ := ran.rendered o member free
    refine ⟨⟨content, renders⟩, fun directory => ?_⟩
    rw [ran.grows.directories _ directory] at here
    cases here

theorem write_of_open (regular : Plan.Regular o.path)
    (home : ∀ x ∈ root.trail cwd, p.tree.find? x = some .directory)
    (started : p.tree.find? (root.start cwd) = some .directory) (open_ : o.Open root cwd p.tree)
    (other : p.tree.find? (o.place root cwd) ≠ some .directory) (content : List UInt8) :
    ∃ made tree, (root.join o.path).parent.makeDirs cwd p.tree = (made, none) ∧
      (root.join o.path).write cwd content made = .ok tree := by
  obtain ⟨name, parts, parent, _⟩ := Output.join_parts root cwd regular
  have below := Output.start_join regular root cwd
  have clear : (root.join o.path).parent.Clear cwd p.tree := by
    refine ⟨Path.hasNul_parent open_.clean, Path.isLong_parent open_.short, fun _ => ?_,
      fun part member => ?_, open_.way⟩
    · exact below ▸ started
    · exact open_.fits part ((List.dropLast_prefix (root.join o.path).parts).subset member)
  obtain ⟨made, above⟩ := Path.makeDirs_eq_none_iff.mpr clear
  have directories := Path.makeDirs_eq_none above
  refine ⟨made, _, above, Path.write_eq_ok.mpr ⟨open_.clean, ?_, ?_, rfl⟩⟩
  · have under : (root.join o.path).parent.parts = (root.join o.path.parent).parts := by rw [parent]
    rw [Path.Passable, parts, passable_concat, ← under]
    exact ⟨open_.short, directories.passable, directories.end_ (below ▸ started),
      open_.fits name (by simp [parts])⟩
  · intro directory
    rw [directories.find?] at directory
    split at directory
    · next inside => exact other (home _ (Output.mem_trail_of_mem_way regular inside))
    · exact other directory

theorem emit_of_open (regular : Plan.Regular o.path)
    (home : ∀ x ∈ root.trail cwd, p.tree.find? x = some .directory)
    (started : p.tree.find? (root.start cwd) = some .directory)
    (sheltered : o.policy = .once → o.Sheltered root cwd p.tree)
    (open_ : o.Open root cwd p.tree) : ∃ p', emit root cwd p o = (p', none) := by
  obtain ⟨name, parts, _, start⟩ := Output.join_parts root cwd regular
  have fits := open_.fits name (by simp [parts])
  -- Only a file that is written once is looked at first, so only its directories must be there.
  have reachable (once : o.policy = .once) : (root.join o.path).Passable cwd p.tree := by
    rw [Path.Passable, parts, passable_concat, start]
    exact ⟨open_.short, (sheltered once).1.2, (sheltered once).2, fits⟩
  by_cases owned : o.Owned root cwd p.tree
  · obtain ⟨once, stands⟩ := owned
    obtain ⟨entry, here⟩ := Option.ne_none_iff_exists'.mp stands
    have keeps : o.willWrite root cwd p.tree = .ok false := by
      rw [Output.willWrite, once,
        Path.exists?_eq_true.mpr ⟨open_.clean, reachable once, entry, here⟩]
      rfl
    simp only [emit, keeps]
    exact ⟨_, rfl⟩
  · obtain ⟨⟨content, renders⟩, other⟩ := open_.body owned
    have writes : o.willWrite root cwd p.tree = .ok true := by
      cases policy : o.policy with
      | always => rw [Output.willWrite, policy]
      | once =>
        have absent : p.tree.find? (o.place root cwd) = none := by
          by_contra stands
          exact owned ⟨policy, stands⟩
        rw [Output.willWrite, policy, Path.exists?_of_absent open_.clean (reachable policy) absent]
        rfl
    obtain ⟨made, tree, above, put⟩ := write_of_open regular home started open_ other content
    simp only [emit, writes, renders, above, put]
    exact ⟨_, rfl⟩

theorem open_of_step (open_ : o'.Open root cwd p.tree) (ran : Ran root cwd [o] p p')
    (changed : Changed (· ∈ o.way root cwd) (· = o.place root cwd) p.tree p'.tree)
    (home : ∀ x ∈ root.trail cwd, p.tree.find? x = some .directory)
    (regular : Plan.Regular o.path) (regular' : Plan.Regular o'.path) (apart : o'.path ≠ o.path) :
    o'.Open root cwd p'.tree := by
  have same := ran.others o' regular' (by simpa using apart)
  refine ⟨open_.clean, open_.short, open_.fits, fun x member => ?_, fun free => ?_⟩
  · cases changed x with
    | same same => exact same ▸ open_.way x member
    | directory _ _ made => exact .inr made
    | file here other =>
      subst here
      exact absurd (home _ (Output.mem_trail_of_other regular regular' member)) other
  · rw [Output.Owned, same] at free
    rw [same]
    exact open_.body free

theorem emitAll_of_open {seen : List Output} (regular : ∀ o ∈ os, Plan.Regular o.path)
    (distinct : (os.map Output.path).Nodup)
    (home : ∀ x ∈ root.trail cwd, p.tree.find? x = some .directory)
    (started : p.tree.find? (root.start cwd) = some .directory)
    (accompanied : Plan.Accompanied seen os)
    (sheltered : ∀ o ∈ seen, o.Sheltered root cwd p.tree)
    (open_ : ∀ o ∈ os, o.Open root cwd p.tree) : ∃ p', emitAll root cwd p os = (p', none) := by
  -- What a step keeps is all that the outputs after it need: the home, the start, their open places.
  induction os generalizing p seen with
  | nil => exact ⟨p, rfl⟩
  | cons o rest ih =>
    have here := regular o List.mem_cons_self
    have above := sheltered_of_accompanied accompanied sheltered
    obtain ⟨middle, stepped⟩ := emit_of_open here home started above (open_ o List.mem_cons_self)
    have first := ran_of_emit stepped here home above
    have changed := emit_changed root cwd p o
    rw [stepped] at changed
    obtain ⟨absent, distinct⟩ := List.nodup_cons.mp distinct
    obtain ⟨p', ran⟩ := ih (fun o' member => regular o' (List.mem_cons_of_mem o member)) distinct
      (fun x member => first.grows.directories x (home x member))
      (first.grows.directories _ started) accompanied.2 (first.sheltered here sheltered)
      fun o' member =>
        open_of_step (open_ o' (List.mem_cons_of_mem o member)) first changed home here
          (regular o' (List.mem_cons_of_mem o member)) fun same =>
            absent (List.mem_map.mpr ⟨o', member, same⟩)
    rw [emitAll, stepped]
    exact ⟨p', ran⟩

end Generate

end PluginCompiler
