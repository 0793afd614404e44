import PluginCompiler.Invocation
import PluginCompiler.Proofs.Generate.Emission
import PluginCompiler.Proofs.Plan.Folders

/-! What the user's machine keeps of a run apart from its result. Only a run that meets an unexpected
situation leaves something of its own, a log, and never in place of a planned file. -/

set_option autoImplicit false

namespace PluginCompiler

open FileTree

namespace Host

variable {host : Host}

def LogsAt (host : Host) (x : Place) : Prop :=
  ∃ directory, host.environment.dataDirectory = .ok directory ∧
    x = ((directory.child "logs").child s!"crash-{host.time}.log").place host.environment.cwd

theorem logDefect_grows (host : Host) (t : FileTree) (defect : Defect) :
    Grows host.LogsAt t (Invocation.logDefect host t defect).1 := by
  have directories {p : Path} {t' t'' : FileTree} {fault : Option Path.MakeFault}
      (made : p.makeDirs host.environment.cwd t' = (t'', fault)) : Grows host.LogsAt t' t'' := by
    have grows := p.makeDirs_grows host.environment.cwd t'
    rw [made] at grows
    exact grows.weaken fun _ none => none.elim
  rw [Invocation.logDefect, Environment.makeDataDirectory]
  cases data : host.environment.dataDirectory with
  | error defect => exact .refl _ t
  | ok directory =>
    dsimp only
    cases above : directory.makeDirs host.environment.cwd t with
    | mk t' fault =>
      have first := directories above
      cases fault with
      | some fault => exact first
      | none =>
        dsimp only
        split
        · next logs => exact first.trans (directories logs)
        · next t'' logs =>
          have second := first.trans (directories logs)
          split
          · exact second
          · next written put =>
            obtain ⟨_, _, other, rfl⟩ := Path.write_eq_ok.mp put
            exact second.trans ((grows_put_file other _).weaken fun x here => ⟨directory, data, here⟩)

theorem ofPerformance_grows (host : Host) (screen : Screen) (p : Performance) :
    Grows host.LogsAt p.tree (Invocation.ofPerformance host screen p).tree := by
  rw [Invocation.ofPerformance]
  split
  · exact .refl _ _
  · exact .refl _ _
  · next defect _ =>
    have log := logDefect_grows host p.tree defect
    split
    · next same => rwa [same] at log
    · next same =>
      rw [same] at log
      split <;> exact log

theorem ofPerformance_tree {p : Performance} (screen : Screen)
    (expected : ∀ defect, p.abort ≠ some (.defect defect)) :
    (Invocation.ofPerformance host screen p).tree = p.tree := by
  rw [Invocation.ofPerformance]
  split
  · rfl
  · rfl
  · next defect crashed => exact absurd crashed (expected defect)

theorem ofPerformance_exit {p q : Performance} (screen : Screen) (tree : p.tree = q.tree)
    (abort : p.abort = q.abort) : (Invocation.ofPerformance host screen p).exit =
      (Invocation.ofPerformance host screen q).exit := by
  rw [Invocation.ofPerformance, Invocation.ofPerformance, tree, abort]
  split
  · rfl
  · rfl
  · split
    · rfl
    · split <;> rfl

theorem ofPerformance_of_failure {p : Performance} {screen : Screen} {failure : Failure}
    (ended : p.abort = some (.failure failure)) : Invocation.ofPerformance host screen p =
      ⟨p.tree, (p.table.bind fun t => (screen.tableLines t).toOption).getD [],
        screen.shownLines p.messages, p.commands, .ok failure.exitCode⟩ := by
  simp only [Invocation.ofPerformance, ended]

/-- An unexpected situation has an exit code of its own, or none if it could not be logged or the log not
be told. -/
theorem ofPerformance_exit_of_defect {p : Performance} {screen : Screen} {defect : Defect}
    (crashed : p.abort = some (.defect defect)) :
    (Invocation.ofPerformance host screen p).exit = .ok 1 ∨
      ∃ defect, (Invocation.ofPerformance host screen p).exit = .error defect := by
  simp only [Invocation.ofPerformance, crashed]
  split
  · exact .inr ⟨_, rfl⟩
  · split
    · exact .inr ⟨_, rfl⟩
    · exact .inl rfl

theorem not_logsAt_of_listed {spec : Spec} {o : Output} {root : Path} (slashless : spec.Slashless)
    (listed : Plan.Listed spec o.policy o.path) :
    ¬ host.LogsAt (o.place root host.environment.cwd) := by
  have other {name ending : String} (short : ending.toList.length ≤ ".log".toList.length)
      (apart : ¬ ending.toList <:+ ".log".toList) : ¬ ".log".toList <:+ (name ++ ending).toList := by
    intro ends
    rw [String.toList_append] at ends
    exact apart (List.suffix_of_suffix_length_le (List.suffix_append _ _) ends short)
  have apart : ∀ part ∈ o.path.parts, ¬ ".log".toList <:+ part.toList := by
    refine listed.forall_parts slashless (by decide) fun name _ => ⟨other (by decide) (by decide), ?_⟩
    have longer : name ++ "_run.go" = (name ++ "_run") ++ ".go" := by simp [String.append_assoc]
    rw [longer]
    exact other (by decide) (by decide)
  -- The last part on the way to a crash log ends in `.log`, whatever the time has in it.
  rintro ⟨directory, _, same⟩
  have plain : Plan.PlainName ".log" := ⟨by decide, by decide⟩
  obtain ⟨file, down, ends, parts⟩ := Path.partsOf_append ("crash-" ++ host.time) plain
  have relative : (Path.ofString s!"crash-{host.time}.log").root = .relative :=
    (Path.rootOf_append ("crash-" ++ host.time) plain).mpr (by simp)
  have split : (Path.ofString s!"crash-{host.time}.log").parts =
      Path.folders ("crash-" ++ host.time) ++ [file] := parts
  have regular := listed.regular slashless
  obtain ⟨head, rest, filled, _⟩ := regular.parts
  rw [Output.place, Path.place_join_down regular.relative regular.down, Path.child,
    Path.place_join relative, split, Place.walk_append, Place.walk_cons, Place.walk_nil,
    Place.step_name down] at same
  have long : o.path.parts ≠ [] := by simp [filled]
  have last := congrArg List.getLast? same
  simp only [List.getLast?_append, List.getLast?_eq_some_getLast long, Option.some_or,
    List.getLast?_singleton, Option.some.injEq] at last
  exact apart file (last ▸ List.getLast_mem long) ends

end Host

end PluginCompiler
