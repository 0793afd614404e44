import PluginCompiler.Proofs.Generate.Resumption

/-! Runs that meet an obstacle. Whatever was in the way is taken away afterwards, and the next run
leaves the files that a run would have left that did not meet it. -/

set_option autoImplicit false

namespace PluginCompiler

open FileTree

variable {root : Path} {cwd : Place} {o o' : Output} {os done rest : List Output}
  {before after before' after' made made' : FileTree}

/-- The same is done to two trees: a place that is touched holds the same in both from now on. -/
def SameChange (before after before' after' : FileTree) : Prop :=
  ∀ x, after'.find? x = before'.find? x ∨
    before'.find? x = before.find? x ∧ after'.find? x = after.find? x

theorem FileTree.find?_remove (t : FileTree) {place : Place} (inside : place ≠ []) (x : Place) :
    (t.remove place).find? x = if place.isPrefixOf x then none else t.find? x := by
  by_cases root : x = []
  · subst root
    cases place with
    | nil => exact absurd rfl inside
    | cons name rest => rfl
  · simp only [find?, root, ↓reduceIte, remove]
    induction t.entries with
    | nil => simp
    | cons e entries ih =>
      obtain ⟨p, entry⟩ := e
      by_cases under : place.isPrefixOf p = true
      · rw [List.filter_cons_of_neg (by simp [under]), ih]
        by_cases same : x = p
        · simp [same, under]
        · have other : (x == p) = false := by simpa using same
          simp [List.lookup_cons, other]
      · rw [List.filter_cons_of_pos (by simp [under])]
        by_cases same : x = p
        · simp [same, under]
        · have other : (x == p) = false := by simpa using same
          simp [List.lookup_cons, other, ih]

theorem sameChange_remove (before after : FileTree) {place : Place} (inside : place ≠ []) :
    SameChange before after (before.remove place) (after.remove place) := fun x => by
  rw [find?_remove before inside, find?_remove after inside]
  split
  · exact .inl rfl
  · exact .inr ⟨rfl, rfl⟩

namespace Generate

structure Interrupted (root : Path) (cwd : Place) (os done : List Output) (o : Output)
    (before after : FileTree) : Prop where
  regular : ∀ o' ∈ os, Plan.Regular o'.path
  distinct : (os.map Output.path).Nodup
  sub : ∀ o' ∈ done ++ [o], o' ∈ os
  clear : root.Clear cwd before
  stopped : Stopped root cwd done o before after
  changed : Changed (fun x => ∃ o' ∈ done ++ [o], x ∈ o'.way root cwd)
    (fun x => ∃ o' ∈ done, x = o'.place root cwd) before after

theorem Interrupted.done_of_changed (interrupted : Interrupted root cwd os done o before after)
    (member : o' ∈ os) (aside : o'.place root cwd ∉ root.trail cwd)
    (other : after.find? (o'.place root cwd) ≠ before.find? (o'.place root cwd)) : o' ∈ done := by
  have regular := interrupted.regular o' member
  cases interrupted.changed (o'.place root cwd) with
  | same same => exact absurd same other
  | directory inside =>
    obtain ⟨o₁, member₁, inside⟩ := inside
    have regular₁ := interrupted.regular o₁ (interrupted.sub o₁ member₁)
    exact absurd (Output.mem_trail_of_other regular regular₁ inside) aside
  | file here =>
    obtain ⟨o₁, member₁, here⟩ := here
    have inside₁ := interrupted.sub o₁ (List.mem_append_left _ member₁)
    have same := Output.path_eq_of_place regular (interrupted.regular o₁ inside₁) here
    have equal : o' = o₁ := List.inj_on_of_nodup_map interrupted.distinct member inside₁ same
    exact equal ▸ member₁

theorem Interrupted.rendered_of_changed
    (interrupted : Interrupted root cwd os done o before after) (member : o' ∈ os)
    (once : o'.policy = .once) (aside : o'.place root cwd ∉ root.trail cwd)
    (other : after.find? (o'.place root cwd) ≠ before.find? (o'.place root cwd)) :
    before.find? (o'.place root cwd) = none ∧ o'.Rendered root cwd after := by
  have earlier := interrupted.done_of_changed member aside other
  obtain ⟨_, completed⟩ := interrupted.stopped.finished
  have missing : before.find? (o'.place root cwd) = none := by
    by_contra stood
    exact other (completed.existing o' earlier once stood)
  exact ⟨missing, completed.missing o' earlier once missing aside⟩

theorem clear_of_sameChange (change : SameChange before after before' after')
    (clear : root.Clear cwd before) (clear' : root.Clear cwd after') : root.Clear cwd before' := by
  refine ⟨clear.clean, clear.short, fun filled => ?_, clear.way.fits, fun x member => ?_⟩
  · rcases change (root.start cwd) with same | ⟨same, _⟩
    · exact same ▸ clear'.way.start filled
    · exact same ▸ clear.way.start filled
  · rcases change x with same | ⟨same, _⟩
    · exact same ▸ clear'.way.free x member
    · exact same ▸ clear.way.free x member

theorem start_of_home {t : FileTree} (above : root.makeDirs cwd t = (made, none))
    (started : made.find? (root.start cwd) = some .directory) :
    t.find? (root.start cwd) = some .directory := by
  have changed := root.makeDirs_changed cwd t
  rw [above] at changed
  rcases changed.directory_of_find? started with there | ⟨_, member⟩
  · exact there
  · refine (Path.makeDirs_eq_none_iff.mp ⟨made, above⟩).way.start fun empty => ?_
    simp [Path.trail, empty, Place.trail] at member

theorem Interrupted.start (interrupted : Interrupted root cwd os done o before after)
    (change : SameChange before after before' after')
    (started : after'.find? (root.start cwd) = some .directory) :
    before'.find? (root.start cwd) = some .directory := by
  rcases change (root.start cwd) with same | ⟨same, same'⟩
  · exact same ▸ started
  · rw [same]
    rcases interrupted.changed.directory_of_find? (same' ▸ started) with there | ⟨_, inside⟩
    · exact there
    · by_cases filled : root.parts = []
      · -- Then the way to an output leads down from the start.
        obtain ⟨o₁, member, inside⟩ := inside
        have regular := interrupted.regular o₁ (interrupted.sub o₁ member)
        obtain ⟨_, _, parent, _⟩ := Output.join_parts root cwd regular
        have relative : o₁.path.parent.root = .relative := regular.relative
        have down : ".." ∉ o₁.path.parent.parts := fun up =>
          regular.down ((List.dropLast_prefix o₁.path.parts).subset up)
        rw [Output.way, parent, Path.join_of_relative relative, Path.trail, filled,
          List.nil_append] at inside
        obtain ⟨front, long, _, same⟩ := Place.mem_trail_down down inside
        exact absurd (List.self_eq_append_right.mp same) long
      · exact interrupted.clear.way.start filled

/-- A place that is free, or a directory, after the run that stopped was so without it. -/
theorem Interrupted.free_of_made (interrupted : Interrupted root cwd os done o before after)
    (change : SameChange before after before' after')
    (above : Made (root.start cwd) root.parts before' made)
    (above' : Made (root.start cwd) root.parts after' made') {x : Place}
    (free : made'.find? x = none ∨ made'.find? x = some .directory) :
    made.find? x = none ∨ made.find? x = some .directory := by
  by_cases crossed : x ∈ root.trail cwd
  · exact .inr (above.find?_of_mem crossed)
  · rw [above'.find?_of_not_mem crossed] at free
    rw [above.find?_of_not_mem crossed]
    rcases change x with same | ⟨same, same'⟩
    · exact same ▸ free
    · rw [same]
      exact interrupted.changed.open_of_find? (same' ▸ free)

theorem Interrupted.directory_of_made (interrupted : Interrupted root cwd os done o before after)
    (change : SameChange before after before' after')
    (above : Made (root.start cwd) root.parts before' made)
    (above' : Made (root.start cwd) root.parts after' made') {x : Place}
    (directory : made.find? x = some .directory) : made'.find? x = some .directory := by
  by_cases crossed : x ∈ root.trail cwd
  · exact above'.find?_of_mem crossed
  · rw [above.find?_of_not_mem crossed] at directory
    rw [above'.find?_of_not_mem crossed]
    rcases change x with same | ⟨same, same'⟩
    · exact same.trans directory
    · exact same'.trans (interrupted.stopped.stay _ (same ▸ directory))

theorem Interrupted.rendered_of_owned (interrupted : Interrupted root cwd os done o before after)
    (change : SameChange before after before' after')
    (above : Made (root.start cwd) root.parts before' made)
    (above' : Made (root.start cwd) root.parts after' made') (member : o' ∈ os)
    (owned : o'.Owned root cwd made') (free : ¬ o'.Owned root cwd made) :
    made.find? (o'.place root cwd) = none ∧ o'.Rendered root cwd after := by
  obtain ⟨once, stands⟩ := owned
  have absent : made.find? (o'.place root cwd) = none := by
    by_contra here
    exact free ⟨once, here⟩
  have aside : o'.place root cwd ∉ root.trail cwd := fun crossed => by
    rw [above.find?_of_mem crossed] at absent
    cases absent
  have absent' := absent
  rw [above.find?_of_not_mem aside] at absent'
  rw [above'.find?_of_not_mem aside] at stands
  refine ⟨absent, ?_⟩
  rcases change (o'.place root cwd) with same | ⟨same, same'⟩
  · exact absurd (same.trans absent') stands
  · refine (interrupted.rendered_of_changed member once aside ?_).2
    rw [← same, absent', ← same']
    exact stands

theorem Interrupted.open_ (interrupted : Interrupted root cwd os done o before after)
    (change : SameChange before after before' after')
    (above : Made (root.start cwd) root.parts before' made)
    (above' : Made (root.start cwd) root.parts after' made')
    (member : o' ∈ os) (open_ : o'.Open root cwd made') : o'.Open root cwd made := by
  refine ⟨open_.clean, open_.short, open_.fits,
    fun x onWay => interrupted.free_of_made change above above' (open_.way x onWay), fun free => ?_⟩
  by_cases owned : o'.Owned root cwd made'
  · obtain ⟨absent, content, renders, _⟩ :=
      interrupted.rendered_of_owned change above above' member owned free
    exact ⟨⟨content, renders⟩, by simp [absent]⟩
  · obtain ⟨renders, other⟩ := open_.body owned
    exact ⟨renders, fun directory =>
      other (interrupted.directory_of_made change above above' directory)⟩

/-- With the obstacle gone both runs leave the same files. -/
theorem Interrupted.alike {final final' : FileTree} {report report' : Report}
    (interrupted : Interrupted root cwd os done o before after)
    (change : SameChange before after before' after')
    (completed : Completed root cwd os before' final report)
    (completed' : Completed root cwd os after' final' report') (x : Place) (content : List UInt8) :
    final'.find? x = some (.file content) ↔ final.find? x = some (.file content) := by
  by_cases planned : ∃ o' ∈ os, x = o'.place root cwd
  · obtain ⟨o', member, rfl⟩ := planned
    by_cases found : o'.policy = .once → o'.place root cwd ∉ root.trail cwd →
        before'.find? (o'.place root cwd) = after'.find? (o'.place root cwd)
    · rw [completed'.agree completed member member found]
    · -- Only a run that stopped after the output was done could make a difference.
      simp only [not_forall] at found
      obtain ⟨once, aside, differ⟩ := found
      obtain ⟨same, same'⟩ := (change _).resolve_left (Ne.symm differ)
      rw [same, same'] at differ
      obtain ⟨missing, _, renders, here⟩ :=
        interrupted.rendered_of_changed member once aside (Ne.symm differ)
      obtain ⟨_, renders', here'⟩ := completed.missing o' member once (same.trans missing) aside
      cases renders.symm.trans renders'
      rw [here', completed'.existing o' member once (by simp [same', here]), same', here]
  · have apart : ∀ o' ∈ os, x ≠ o'.place root cwd := fun o' member here =>
      planned ⟨o', member, here⟩
    rw [completed'.elsewhere x apart content, completed.elsewhere x apart content]
    rcases change x with same | ⟨same, same'⟩
    · rw [same]
    · rw [same, same']
      obtain ⟨_, done⟩ := interrupted.stopped.finished
      exact done.elsewhere x (fun o' member =>
        apart o' (interrupted.sub o' (List.mem_append_left _ member))) content

theorem Interrupted.resumes {p' : Progress}
    (interrupted : Interrupted root cwd os done o before after)
    (accompanied : Plan.Accompanied [] os) (filled : os ≠ [])
    (change : SameChange before after before' after')
    (above' : root.makeDirs cwd after' = (made', none))
    (ran' : emitAll root cwd ⟨made', [], [], []⟩ os = (p', none)) :
    ∃ made p, root.makeDirs cwd before' = (made, none) ∧
      emitAll root cwd ⟨made, [], [], []⟩ os = (p, none) := by
  have regular := interrupted.regular
  have home {t made : FileTree} (above : root.makeDirs cwd t = (made, none)) :
      ∀ x ∈ root.trail cwd, made.find? x = some .directory :=
    fun x => (Path.makeDirs_eq_none above).find?_of_mem
  -- The way to the root is as open before the change as the run after it has found it.
  have clear' : root.Clear cwd after' := Path.makeDirs_eq_none_iff.mp ⟨made', above'⟩
  obtain ⟨made, above⟩ := Path.makeDirs_eq_none_iff.mpr
    (clear_of_sameChange change interrupted.clear clear')
  -- That some output was written tells that the place where the run starts is a directory.
  have started' : made'.find? (root.start cwd) = some .directory := by
    cases os with
    | nil => exact absurd rfl filled
    | cons first rest =>
      rw [emitAll] at ran'
      split at ran'
      · cases ran'
      · next stepped => exact start_of_emit (regular first List.mem_cons_self) stepped
  have started : made.find? (root.start cwd) = some .directory := by
    have start := interrupted.start change (start_of_home above' started')
    have grows := root.makeDirs_grows cwd before'
    rw [above] at grows
    exact grows.directories _ start
  have ran := ran_of_emitAll ran' regular interrupted.distinct (home above') accompanied (by simp)
  have changed := emitAll_changed root cwd ⟨made', [], [], []⟩ os
  rw [ran'] at changed
  obtain ⟨p, done⟩ := emitAll_of_open (p := ⟨made, [], [], []⟩) regular interrupted.distinct
    (home above) started accompanied (by simp) fun o' member =>
      interrupted.open_ change (Path.makeDirs_eq_none above) (Path.makeDirs_eq_none above') member
        (open_of_ran ran regular changed member)
  exact ⟨made, p, above, done⟩

end Generate

namespace Spec

variable {spec : Spec} {source : List UInt8} {workspace : Path} {abort : Abort}
  {report : Generate.Report}

open Generate

theorem accompanied_of_plan (slashless : spec.Slashless) (planned : spec.plan source = .ok os) :
    Plan.Accompanied [] os := by
  obtain ⟨rfl, _⟩ := plan_eq_ok.mp planned
  exact Plan.accompanied_outputs slashless source

theorem interrupted_of_generate (slashless : spec.Slashless)
    (home : spec.outputRoot workspace = .ok root) (planned : spec.plan source = .ok os)
    (above : root.makeDirs cwd before = (made, none))
    (failed : (spec.generate source workspace cwd before).result = .error abort) :
    ∃ done o rest mid p, os = done ++ o :: rest ∧
      emitAll root cwd ⟨made, [], [], []⟩ done = (mid, none) ∧
      emit root cwd mid o = (p, some abort) ∧
      Interrupted root cwd os done o before (spec.generate source workspace cwd before).tree := by
  have regular := regular_of_plan slashless planned
  have distinct := nodup_path_of_plan planned
  have accompanied := accompanied_of_plan slashless planned
  rw [generate_of_plan home planned] at failed ⊢
  obtain ⟨p, stopped, same⟩ := write_eq_abort above failed
  obtain ⟨done, o, rest, mid, rfl, ran, last⟩ := emitAll_eq_abort stopped
  have sub : ∀ o' ∈ done ++ [o], o' ∈ done ++ o :: rest := fun o' member => by
    rcases List.mem_append.mp member with member | member
    · exact List.mem_append_left _ member
    · exact List.mem_append_right _ (by simp [List.mem_singleton.mp member])
  have changed := changed_of_stop above (fun o' member => regular o' (sub o' member)) ran last
  -- The outputs before the obstacle are a whole run of their own.
  have earlier := ran_of_emitAll ran (fun o' member => regular o' (List.mem_append_left _ member))
    (List.Nodup.sublist ((List.sublist_append_left done _).map _) distinct)
    (fun x => (Path.makeDirs_eq_none above).find?_of_mem) accompanied.of_append (by simp)
  have grows := (write_grows root (done ++ o :: rest) cwd before)
  rw [same] at grows ⊢
  exact ⟨done, o, rest, mid, p, rfl, ran, last, regular, distinct, sub,
    Path.makeDirs_eq_none_iff.mp ⟨made, above⟩,
    ⟨⟨_, (completed_of_ran above earlier).changed (changed_of_abort last)⟩, grows.directories,
      fun x here => changed.directory_of_find? here⟩, changed⟩

/-- A run that stops at an output has done those before it as a run that succeeds does them, and has
touched nothing else but directories on their ways and on its own. Once the obstacle is gone, by
whatever change that it is to both trees, the next run succeeds only if a run without the obstacle
does, and leaves the same files. -/
theorem generate_stops (spec : Spec) (source : List UInt8) (workspace root : Path) (cwd : Place)
    (before made : FileTree) (os : List Output) (abort : Abort) (slashless : spec.Slashless)
    (home : spec.outputRoot workspace = .ok root) (planned : spec.plan source = .ok os)
    (above : root.makeDirs cwd before = (made, none))
    (failed : (spec.generate source workspace cwd before).result = .error abort) :
    let after := (spec.generate source workspace cwd before).tree
    ∃ done o rest mid p, os = done ++ o :: rest ∧
      emitAll root cwd ⟨made, [], [], []⟩ done = (mid, none) ∧
      emit root cwd mid o = (p, some abort) ∧
      Stopped root cwd done o before after ∧
      (∀ t report, (∀ o' ∈ done, t.find? (o'.place root cwd) = before.find? (o'.place root cwd)) →
        (spec.generate source workspace cwd t).result = .ok report →
        ∀ o' ∈ done, after.find? (o'.place root cwd) =
          (spec.generate source workspace cwd t).tree.find? (o'.place root cwd)) ∧
      ∀ before' after' report, SameChange before after before' after' →
        (spec.generate source workspace cwd after').result = .ok report →
        (∃ report', (spec.generate source workspace cwd before').result = .ok report') ∧
        ∀ x content,
          (spec.generate source workspace cwd after').tree.find? x = some (.file content) ↔
            (spec.generate source workspace cwd before').tree.find? x = some (.file content) := by
  obtain ⟨done, o, rest, mid, p, split, ran, last, interrupted⟩ :=
    interrupted_of_generate slashless home planned above failed
  refine ⟨done, o, rest, mid, p, split, ran, last, interrupted.stopped, ?_, ?_⟩
  -- What was done is what any run does that finds the same at the places.
  · intro t report same finished o' member
    obtain ⟨_, completed⟩ := interrupted.stopped.finished
    exact completed.agree (completed_of_generate slashless home planned finished) member
      (interrupted.sub o' (List.mem_append_left _ member)) fun _ _ => same o' member
  · intro before' after' report change finished
    have filled : os ≠ [] := by simp [split]
    have finished' := finished
    rw [generate_of_plan home planned] at finished'
    obtain ⟨made', p', above', ran', _⟩ := write_eq_ok finished'
    obtain ⟨made'', p'', above'', ran''⟩ :=
      interrupted.resumes (accompanied_of_plan slashless planned) filled change above' ran'
    have succeeds : ∃ report', (spec.generate source workspace cwd before').result = .ok report' := by
      simp only [generate_of_plan home planned, Generate.write, above'', ran'']
      exact ⟨_, rfl⟩
    obtain ⟨report', succeeded⟩ := succeeds
    exact ⟨⟨report', succeeded⟩, interrupted.alike change
      (completed_of_generate slashless home planned succeeded)
      (completed_of_generate slashless home planned finished)⟩

/-- A directory stands where the program is to be written. -/
def blocked : FileTree :=
  ⟨[(["p"], .directory), (["p", "cmd"], .directory), (["p", "cmd", "main.go"], .directory)]⟩

/-- The run stops at the program; without the directory in its place the next one makes up for it. -/
theorem generate_stops_blocked :
    let run := (posting "post").generate [] ⟨.relative, []⟩ []
    let after := (run blocked).tree
    ∃ abort done o, (run blocked).result = .error abort ∧
      Stopped ⟨.relative, ["p"]⟩ [] done o blocked after ∧
      (∃ report, (run (after.remove ["p", "cmd", "main.go"])).result = .ok report) ∧
      ∀ x content,
        (run (after.remove ["p", "cmd", "main.go"])).tree.find? x = some (.file content) ↔
          (run (blocked.remove ["p", "cmd", "main.go"])).tree.find? x = some (.file content) := by
  intro run after
  have above : (⟨.relative, ["p"]⟩ : Path).makeDirs [] blocked = (blocked, none) := by decide
  obtain ⟨abort, failed⟩ : ∃ abort, (run blocked).result = .error abort := by
    have stopped : (run blocked).result.toOption.isNone = true := by decide +kernel
    cases ended : (run blocked).result with
    | ok report => simp [ended, Except.toOption] at stopped
    | error abort => exact ⟨abort, rfl⟩
  obtain ⟨report, finished⟩ : ∃ report,
      (run (after.remove ["p", "cmd", "main.go"])).result = .ok report :=
    exists_ok_of_isSome (by decide +kernel)
  obtain ⟨os, planned⟩ : ∃ os, (posting "post").plan [] = .ok os :=
    exists_ok_of_isSome (by decide +kernel)
  obtain ⟨done, o, _, _, _, _, _, _, stopped, _, resumed⟩ :=
    generate_stops (posting "post") [] ⟨.relative, []⟩ ⟨.relative, ["p"]⟩ [] blocked blocked os abort
      (by decide) rfl planned above failed
  exact ⟨abort, done, o, failed, stopped, ⟨report, finished⟩,
    (resumed _ _ report (sameChange_remove blocked after (by simp)) finished).2⟩

end Spec

end PluginCompiler
