import PluginCompiler.Generate
import PluginCompiler.Proofs.FileTree.Path

/-! One step of a run, and what every run leaves alone. A run touches only the places of its outputs,
directories apart, however it ends. -/

set_option autoImplicit false

namespace PluginCompiler

open FileTree

def Output.place (o : Output) (root : Path) (cwd : Place) : Place := (root.join o.path).place cwd

namespace Generate

variable {root : Path} {cwd : Place} {p p' : Progress} {o : Output}

/-- What a step did that did not abort: it kept what was there, or it wrote the output. -/
inductive Emitted (root : Path) (cwd : Place) (o : Output) (p p' : Progress) : Prop where
  | keep (once : o.policy = .once)
      (there : (root.join o.path).exists? cwd p.tree = .ok true)
      (tree : p'.tree = p.tree) (written : p'.written = p.written)
      (kept : p'.kept = o.path :: p.kept)
  | write (content : List UInt8) (made : FileTree)
      (free : o.policy = .always ∨
        o.policy = .once ∧ (root.join o.path).exists? cwd p.tree = .ok false)
      (rendered : o.render (root.join o.path) = .ok content)
      (above : (root.join o.path).parent.makeDirs cwd p.tree = (made, none))
      (put : (root.join o.path).write cwd content made = .ok p'.tree)
      (written : p'.written = o.path :: p.written) (kept : p'.kept = p.kept)

theorem willWrite_eq_ok {t : FileTree} {answer : Bool}
    (same : o.willWrite root cwd t = .ok answer) :
    o.policy = .always ∧ answer = true ∨
      o.policy = .once ∧ (root.join o.path).exists? cwd t = .ok !answer := by
  rw [Output.willWrite] at same
  cases policy : o.policy with
  | always =>
    rw [policy] at same
    cases same
    exact .inl ⟨rfl, rfl⟩
  | once =>
    rw [policy] at same
    cases there : (root.join o.path).exists? cwd t with
    | error defect => simp [there, Except.map] at same
    | ok found =>
      simp only [there, Except.map, Except.ok.injEq] at same
      exact .inr ⟨rfl, by rw [← same, Bool.not_not]⟩

theorem emit_eq_none (ended : emit root cwd p o = (p', none)) : Emitted root cwd o p p' := by
  simp only [emit] at ended
  split at ended
  · cases ended
  · next same =>
    cases ended
    obtain ⟨_, impossible⟩ | ⟨once, there⟩ := willWrite_eq_ok same
    · cases impossible
    · exact .keep once there rfl rfl rfl
  · next same =>
    split at ended
    · cases ended
    · next content rendered =>
      split at ended
      · cases ended
      · next made above =>
        split at ended
        · cases ended
        · next tree put =>
          cases ended
          refine .write content made ?_ rendered above put rfl rfl
          exact (willWrite_eq_ok same).imp (·.1) id

theorem emit_grows (root : Path) (cwd : Place) (p : Progress) (o : Output) :
    Grows (· = o.place root cwd) p.tree (emit root cwd p o).1.tree := by
  have above : Grows (· = o.place root cwd) p.tree
      ((root.join o.path).parent.makeDirs cwd p.tree).1 :=
    ((root.join o.path).parent.makeDirs_grows cwd p.tree).weaken fun _ none => none.elim
  simp only [emit]
  split
  · exact .refl _ _
  · exact .refl _ _
  · split
    · exact .refl _ _
    · next content _ =>
      split
      · next same => rwa [same] at above
      · next made same =>
        rw [same] at above
        split
        · exact above
        · next tree put =>
          obtain ⟨_, _, other, rfl⟩ := Path.write_eq_ok.mp put
          exact above.trans (grows_put_file other content)

theorem emitAll_grows (root : Path) (cwd : Place) (p : Progress) (os : List Output) :
    Grows (fun x => ∃ o ∈ os, x = o.place root cwd) p.tree (emitAll root cwd p os).1.tree := by
  induction os generalizing p with
  | nil => exact .refl _ _
  | cons o rest ih =>
    have first : Grows (fun x => ∃ o' ∈ o :: rest, x = o'.place root cwd) p.tree
        (emit root cwd p o).1.tree :=
      (emit_grows root cwd p o).weaken fun x same => ⟨o, List.mem_cons_self, same⟩
    rw [emitAll]
    split
    · next p' abort same => rwa [same] at first
    · next p' same =>
      rw [same] at first
      refine first.trans ((ih p').weaken fun x member => ?_)
      obtain ⟨o', further, here⟩ := member
      exact ⟨o', List.mem_cons_of_mem o further, here⟩

theorem write_grows (root : Path) (os : List Output) (cwd : Place) (t : FileTree) :
    Grows (fun x => ∃ o ∈ os, x = o.place root cwd) t (write root os cwd t).tree := by
  have home : Grows (fun x => ∃ o ∈ os, x = o.place root cwd) t (root.makeDirs cwd t).1 :=
    (root.makeDirs_grows cwd t).weaken fun _ none => none.elim
  rw [write]
  split
  · next same => rwa [same] at home
  · next made same =>
    rw [same] at home
    have outputs := home.trans (emitAll_grows root cwd ⟨made, [], [], []⟩ os)
    split
    · next same => rwa [same] at outputs
    · next same => rwa [same] at outputs

end Generate

/-- However a run ends, it changes nothing but the places of the planned outputs, directories apart;
without a plan it changes nothing at all. -/
theorem Spec.generate_grows (spec : Spec) (source : List UInt8) (workspace : Path) (cwd : Place)
    (t : FileTree) :
    Grows (fun x => ∃ root, spec.outputRoot workspace = .ok root ∧
        ∃ o ∈ Plan.outputs spec source, x = o.place root cwd)
      t (spec.generate source workspace cwd t).tree := by
  rw [generate]
  split
  · exact .refl _ _
  · next root home =>
    split
    · exact .refl _ _
    · next os planned =>
      have same : Plan.outputs spec source = os := by
        simp only [plan] at planned
        split at planned
        · cases planned
        · exact Except.ok.inj planned
      exact (Generate.write_grows root os cwd t).weaken
        fun x member => ⟨root, home, same ▸ member⟩

end PluginCompiler
