import PluginCompiler.Proofs.FileTree.Extent
import PluginCompiler.Proofs.Generate.Completion

/-! What a run leaves behind that stops at an output. The outputs before it are as a run that succeeds
leaves them; the output itself and those after it are as before, directories on its way apart. -/

set_option autoImplicit false

namespace PluginCompiler

open FileTree

variable {root : Path} {cwd : Place} {o o' : Output} {os done : List Output}

def Abort.IsSystem : Abort → Prop
  | .failure (.filesystem _ _) | .defect _ => True
  | .failure _ => False

def Output.way (o : Output) (root : Path) (cwd : Place) : List Place :=
  (root.join o.path).parent.trail cwd

theorem Output.trail_subset_way (regular : Plan.Regular o.path) {x : Place}
    (member : x ∈ root.trail cwd) : x ∈ o.way root cwd := by
  obtain ⟨_, _, parent, _⟩ := Output.join_parts root cwd regular
  have relative : o.path.parent.root = .relative := regular.relative
  rw [Output.way, parent, Path.join_of_relative relative, Path.trail, Place.trail_append]
  exact List.mem_append_left _ member

namespace Generate

variable {p p' : Progress} {abort : Abort} {before after mid : FileTree} {report : Report}

theorem emit_changed (root : Path) (cwd : Place) (p : Progress) (o : Output) :
    Changed (· ∈ o.way root cwd) (· = o.place root cwd) p.tree (emit root cwd p o).1.tree := by
  have above : Changed (· ∈ o.way root cwd) (· = o.place root cwd) p.tree
      ((root.join o.path).parent.makeDirs cwd p.tree).1 :=
    ((root.join o.path).parent.makeDirs_changed cwd p.tree).weaken (fun _ member => member)
      fun _ none => none.elim
  simp only [emit]
  split
  · exact .refl _ _ _
  · exact .refl _ _ _
  · split
    · exact .refl _ _ _
    · next content _ =>
      split
      · next same => rwa [same] at above
      · next made same =>
        rw [same] at above
        split
        · exact above
        · next tree put =>
          obtain ⟨_, _, other, rfl⟩ := Path.write_eq_ok.mp put
          exact above.trans ((changed_put_file other content).weaken (fun _ none => none.elim)
            fun _ member => member)

theorem emitAll_changed (root : Path) (cwd : Place) (p : Progress) (os : List Output) :
    Changed (fun x => ∃ o ∈ os, x ∈ o.way root cwd) (fun x => ∃ o ∈ os, x = o.place root cwd)
      p.tree (emitAll root cwd p os).1.tree := by
  induction os generalizing p with
  | nil => exact .refl _ _ _
  | cons o rest ih =>
    have first : Changed (fun x => ∃ o' ∈ o :: rest, x ∈ o'.way root cwd)
        (fun x => ∃ o' ∈ o :: rest, x = o'.place root cwd) p.tree (emit root cwd p o).1.tree :=
      (emit_changed root cwd p o).weaken (fun _ member => ⟨o, List.mem_cons_self, member⟩)
        fun _ same => ⟨o, List.mem_cons_self, same⟩
    rw [emitAll]
    split
    · next same => rwa [same] at first
    · next p' same =>
      rw [same] at first
      refine first.trans ((ih p').weaken (fun x inside => ?_) fun x here => ?_)
      · obtain ⟨o', member, inside⟩ := inside
        exact ⟨o', List.mem_cons_of_mem o member, inside⟩
      · obtain ⟨o', member, here⟩ := here
        exact ⟨o', List.mem_cons_of_mem o member, here⟩

theorem changed_of_abort (ended : emit root cwd p o = (p', some abort)) :
    Changed (· ∈ o.way root cwd) (fun _ => False) p.tree p'.tree := by
  have above := (root.join o.path).parent.makeDirs_changed cwd p.tree
  simp only [emit] at ended
  split at ended
  · cases ended
    exact .refl _ _ _
  · cases ended
  · split at ended
    · cases ended
      exact .refl _ _ _
    · split at ended
      · next same =>
        cases ended
        rwa [same] at above
      · next made same =>
        split at ended
        · cases ended
          rwa [same] at above
        · cases ended

theorem emitAll_eq_abort (ended : emitAll root cwd p os = (p', some abort)) :
    ∃ done o rest mid, os = done ++ o :: rest ∧ emitAll root cwd p done = (mid, none) ∧
      emit root cwd mid o = (p', some abort) := by
  induction os generalizing p with
  | nil => cases ended
  | cons o rest ih =>
    rw [emitAll] at ended
    split at ended
    · next stepped =>
      cases ended
      exact ⟨[], o, rest, p, rfl, rfl, stepped⟩
    · next middle stepped =>
      obtain ⟨done, o', rest', mid, rfl, ran, stopped⟩ := ih ended
      refine ⟨o :: done, o', rest', mid, rfl, ?_, stopped⟩
      rw [emitAll, stepped]
      exact ran

theorem write_eq_abort {made : FileTree} (above : root.makeDirs cwd before = (made, none))
    (failed : (write root os cwd before).result = .error abort) :
    ∃ p, emitAll root cwd ⟨made, [], [], []⟩ os = (p, some abort) ∧
      (write root os cwd before).tree = p.tree := by
  simp only [write, above] at failed ⊢
  generalize emitAll root cwd ⟨made, [], [], []⟩ os = ran at failed ⊢
  obtain ⟨p, ending⟩ := ran
  cases ending with
  | none => cases failed
  | some stopped =>
    cases failed
    exact ⟨p, rfl, rfl⟩

theorem isSystem_makeAbort (path : Path) (fault : Path.MakeFault) : (makeAbort path fault).IsSystem := by
  cases fault <;> trivial

theorem cause_of_emit (ended : emit root cwd p o = (p', some abort)) :
    abort.IsSystem ∨ o.render (root.join o.path) = .error abort := by
  simp only [emit] at ended
  split at ended
  · cases ended
    exact .inl trivial
  · cases ended
  · split at ended
    · next failed =>
      cases ended
      exact .inr failed
    · split at ended
      · cases ended
        exact .inl (isSystem_makeAbort _ _)
      · split at ended
        · cases ended
          exact .inl (isSystem_makeAbort _ _)
        · cases ended

theorem cause_of_write {t : FileTree} (failed : (write root os cwd t).result = .error abort) :
    abort.IsSystem ∨ ∃ o ∈ os, o.render (root.join o.path) = .error abort := by
  rw [write] at failed
  split at failed
  · cases failed
    exact .inl (isSystem_makeAbort _ _)
  · split at failed
    · next ended =>
      cases failed
      obtain ⟨done, o, rest, _, rfl, _, stopped⟩ := emitAll_eq_abort ended
      refine (cause_of_emit stopped).imp id fun cause => ⟨o, ?_, cause⟩
      exact List.mem_append_right done List.mem_cons_self
    · cases failed

theorem Completed.changed {directories : Place → Prop}
    (completed : Completed root cwd done before mid report)
    (changed : Changed directories (fun _ => False) mid after) :
    Completed root cwd done before after report := by
  have stays {x : Place} {entry : Entry} (here : mid.find? x = some entry) :
      after.find? x = some entry := by
    cases changed x with
    | same same => exact same.trans here
    | directory _ absent => simp [absent] at here
    | file none => exact none.elim
  have rendered {o : Output} (holds : o.Rendered root cwd mid) : o.Rendered root cwd after := by
    obtain ⟨content, renders, here⟩ := holds
    exact ⟨content, renders, stays here⟩
  refine ⟨fun o member always => rendered (completed.always o member always),
    fun o member once absent aside => rendered (completed.missing o member once absent aside),
    fun o member once stood => ?_, fun o member once inside =>
      stays (completed.crossed o member once inside), fun x apart content => ?_, completed.home,
    completed.written, completed.kept⟩
  · obtain ⟨entry, here⟩ := Option.ne_none_iff_exists'.mp stood
    rw [here]
    exact stays ((completed.existing o member once stood).trans here)
  · rw [← completed.elsewhere x apart content]
    refine ⟨fun here => ?_, stays⟩
    cases changed x with
    | same same => exact same.symm.trans here
    | directory _ _ made => simp [made] at here
    | file none => exact none.elim

/-- Two runs leave the same at the place of an output if it did not matter what they found there, or
they found the same. -/
theorem Completed.agree {os' : List Output} {before' after' : FileTree} {report' : Report}
    (completed : Completed root cwd os before after report)
    (completed' : Completed root cwd os' before' after' report') (member : o ∈ os)
    (member' : o ∈ os')
    (same : o.policy = .once → o.place root cwd ∉ root.trail cwd →
      before'.find? (o.place root cwd) = before.find? (o.place root cwd)) :
    after.find? (o.place root cwd) = after'.find? (o.place root cwd) := by
  have alike (rendered : o.Rendered root cwd after) (rendered' : o.Rendered root cwd after') :
      after.find? (o.place root cwd) = after'.find? (o.place root cwd) := by
    obtain ⟨content, renders, here⟩ := rendered
    obtain ⟨content', renders', here'⟩ := rendered'
    cases renders.symm.trans renders'
    exact here.trans here'.symm
  cases policy : o.policy with
  | always => exact alike (completed.always o member policy) (completed'.always o member' policy)
  | once =>
    by_cases inside : o.place root cwd ∈ root.trail cwd
    · rw [completed.crossed o member policy inside, completed'.crossed o member' policy inside]
    · have same := same policy inside
      by_cases absent : before.find? (o.place root cwd) = none
      · exact alike (completed.missing o member policy absent inside)
          (completed'.missing o member' policy (same.trans absent) inside)
      · rw [completed.existing o member policy absent,
          completed'.existing o member' policy (same ▸ absent), same]

/-- What a run left behind that stopped at an output `o`, after it was done with those before. -/
structure Stopped (root : Path) (cwd : Place) (done : List Output) (o : Output)
    (before after : FileTree) : Prop where
  finished : ∃ report, Completed root cwd done before after report
  stay : ∀ x, before.find? x = some .directory → after.find? x = some .directory
  added : ∀ x, after.find? x = some .directory →
    before.find? x = some .directory ∨
      before.find? x = none ∧ ∃ o' ∈ done ++ [o], x ∈ o'.way root cwd

theorem changed_of_stop {made : FileTree} (above : root.makeDirs cwd before = (made, none))
    (regular : ∀ o' ∈ done ++ [o], Plan.Regular o'.path)
    (ran : emitAll root cwd ⟨made, [], [], []⟩ done = (p, none))
    (stopped : emit root cwd p o = (p', some abort)) :
    Changed (fun x => ∃ o' ∈ done ++ [o], x ∈ o'.way root cwd)
      (fun x => ∃ o' ∈ done, x = o'.place root cwd) before p'.tree := by
  have home := root.makeDirs_changed cwd before
  have outputs := emitAll_changed root cwd ⟨made, [], [], []⟩ done
  rw [above] at home
  rw [ran] at outputs
  have final := changed_of_abort stopped
  have last : o ∈ done ++ [o] := by simp
  exact ((home.weaken (fun x member => ⟨o, last, Output.trail_subset_way (regular o last) member⟩)
      fun _ none => none.elim).trans
    (outputs.weaken (fun x ⟨o', member, here⟩ => ⟨o', List.mem_append_left _ member, here⟩)
      fun _ here => here)).trans
    (final.weaken (fun x member => ⟨o, last, member⟩) fun _ none => none.elim)

end Generate

end PluginCompiler
