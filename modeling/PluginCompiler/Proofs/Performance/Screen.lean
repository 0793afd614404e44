import PluginCompiler.Performance

/-! What a screen can show. Nothing that a task says touches a file or starts a command, but a message
or a table that the screen cannot show ends the task. -/

set_option autoImplicit false

namespace PluginCompiler

namespace Screen

variable {s : Screen} {m : Message} {ms : List Message} {t : Table}

/-- A message is shown, or hidden because nobody wants to know. -/
def Takes (s : Screen) (m : Message) : Prop := ∃ ls, s.lines m = .ok ls

def Shows (s : Screen) (t : Table) : Prop := ∃ ls, s.tableLines t = .ok ls

structure Calm (s : Screen) : Prop where
  takes : ∀ m, s.Takes m
  shows : ∀ t, s.Shows t

theorem takes_of_hidden (hidden : m.isShown s.verbosity = false) : s.Takes m :=
  ⟨[], by simp [lines, hidden]⟩

theorem takes_of_colorless (colorless : s.hasColor = false) (m : Message) : s.Takes m := by
  cases shown : m.isShown s.verbosity with
  | false => exact takes_of_hidden shown
  | true => exact ⟨[m.line], by simp [lines, shown, colorless]⟩

theorem shows_of_not_rich (undecorated : s.format ≠ .rich) (t : Table) : s.Shows t := by
  rw [Shows, tableLines]
  cases format : s.format with
  | json => exact ⟨_, rfl⟩
  | plain => exact ⟨_, rfl⟩
  | rich => exact absurd format undecorated

theorem calm_of_colorless (colorless : s.hasColor = false) (undecorated : s.format ≠ .rich) : s.Calm :=
  ⟨takes_of_colorless colorless, shows_of_not_rich undecorated⟩

theorem deliver_of_takes (takes : ∀ m ∈ ms, s.Takes m) : s.deliver ms = (ms, none) := by
  induction ms with
  | nil => rfl
  | cons m rest ih =>
    obtain ⟨⟨ls, shown⟩, later⟩ := List.forall_mem_cons.mp takes
    rw [deliver, shown, ih later]

theorem deliver_snd_eq_none : (s.deliver ms).2 = none ↔ ∀ m ∈ ms, s.Takes m := by
  induction ms with
  | nil => simp [deliver]
  | cons m rest ih =>
    rw [deliver, List.forall_mem_cons, ← ih]
    cases shown : s.lines m with
    | error defect => simp [Takes, shown]
    | ok ls => simp [Takes, shown]

/-- What a task ends with that has failed: the failure, or else that a message about it cannot be
shown. -/
def ending (s : Screen) (advice : List Message) : Abort → Abort
  | .defect d => .defect d
  | .failure f =>
    match (s.deliver (.error (s.wording f) :: advice)).2 with
    | some d => .defect d
    | none => .failure f

def report (s : Screen) (advice : List Message) : Abort → List Message
  | .defect _ => []
  | .failure f => (s.deliver (.error (s.wording f) :: advice)).1

variable {advice : List Message} {f : Failure}

theorem ending_eq_failure {abort : Abort} : s.ending advice abort = .failure f ↔
    abort = .failure f ∧ ∀ m ∈ .error (s.wording f) :: advice, s.Takes m := by
  cases abort with
  | defect d => simp [ending]
  | failure g =>
    rw [ending, ← deliver_snd_eq_none]
    cases refused : (s.deliver (.error (s.wording g) :: advice)).2 with
    | some d =>
      simp only [reduceCtorEq, Abort.failure.injEq, false_iff, not_and]
      rintro rfl
      simp [refused]
    | none =>
      simp only [Abort.failure.injEq, iff_self_and]
      rintro rfl
      exact refused

theorem report_of_takes (takes : ∀ m ∈ .error (s.wording f) :: advice, s.Takes m) :
    s.report advice (.failure f) = .error (s.wording f) :: advice := by
  rw [report, deliver_of_takes takes]

theorem ending_of_takes (takes : ∀ m ∈ .error (s.wording f) :: advice, s.Takes m) :
    s.ending advice (.failure f) = .failure f :=
  ending_eq_failure.mpr ⟨rfl, takes⟩

end Screen

namespace Performance

variable {p : Performance} {screen : Screen} {ms advice : List Message} {abort : Abort}

@[simp] theorem tell_tree (p : Performance) (screen : Screen) (ms : List Message) :
    (p.tell screen ms).tree = p.tree := rfl

@[simp] theorem tell_commands (p : Performance) (screen : Screen) (ms : List Message) :
    (p.tell screen ms).commands = p.commands := rfl

@[simp] theorem log_nil (p : Performance) : p.log [] = p := by
  simp [log]

@[simp] theorem log_tree (p : Performance) (records : List Record) : (p.log records).tree = p.tree := rfl

@[simp] theorem log_commands (p : Performance) (records : List Record) :
    (p.log records).commands = p.commands := rfl

theorem tell_of_takes (takes : ∀ m ∈ ms, screen.Takes m) (p : Performance) :
    p.tell screen ms = { p with messages := p.messages ++ ms, abort := none } := by
  rw [tell, Screen.deliver_of_takes takes]
  rfl

theorem tell_of_untaken (untaken : ¬ ∀ m ∈ ms, screen.Takes m) (p : Performance) :
    ∃ defect, (p.tell screen ms).abort = some (.defect defect) := by
  rw [← Screen.deliver_snd_eq_none] at untaken
  obtain ⟨defect, refused⟩ := Option.ne_none_iff_exists'.mp untaken
  exact ⟨defect, by simp [tell, refused]⟩

theorem tell_abort (p : Performance) (screen : Screen) (ms : List Message) :
    (p.tell screen ms).abort = none ∨ ∃ defect, (p.tell screen ms).abort = some (.defect defect) := by
  by_cases takes : ∀ m ∈ ms, screen.Takes m
  · exact .inl (by rw [tell_of_takes takes])
  · exact .inr (tell_of_untaken takes p)

theorem andThen_of_going (going : p.abort = none) (next : Performance → Performance) :
    p.andThen next = next p := by
  simp [andThen, going]

theorem andThen_of_ended (ended : p.abort = some abort) (next : Performance → Performance) :
    p.andThen next = p := by
  simp [andThen, ended]

theorem andThen_cases {P : Performance → Prop} {next : Performance → Performance}
    (ended : ∀ abort, p.abort = some abort → P p) (going : p.abort = none → P (next p)) :
    P (p.andThen next) := by
  cases state : p.abort with
  | none =>
    rw [andThen_of_going state]
    exact going state
  | some abort =>
    rw [andThen_of_ended state]
    exact ended abort state

theorem andThen_tree {t : FileTree} {next : Performance → Performance} (here : p.tree = t)
    (later : (next p).tree = t) : (p.andThen next).tree = t :=
  andThen_cases (P := fun q => q.tree = t) (fun _ _ => here) fun _ => later

theorem andThen_commands {cs : List Command} {next : Performance → Performance}
    (here : p.commands = cs) (later : (next p).commands = cs) : (p.andThen next).commands = cs :=
  andThen_cases (P := fun q => q.commands = cs) (fun _ _ => here) fun _ => later

@[simp] theorem fail_tree (p : Performance) (screen : Screen) (advice : List Message) (abort : Abort) :
    (p.fail screen advice abort).tree = p.tree := by
  cases abort with
  | defect d => rfl
  | failure f => exact andThen_tree rfl rfl

@[simp] theorem fail_commands (p : Performance) (screen : Screen) (advice : List Message)
    (abort : Abort) : (p.fail screen advice abort).commands = p.commands := by
  cases abort with
  | defect d => rfl
  | failure f => exact andThen_commands rfl rfl

@[simp] theorem fail_abort (p : Performance) (screen : Screen) (advice : List Message) (abort : Abort) :
    (p.fail screen advice abort).abort = some (screen.ending advice abort) := by
  cases abort with
  | defect d => rfl
  | failure f =>
    rw [fail, Screen.ending]
    cases refused : (screen.deliver (.error (screen.wording f) :: advice)).2 with
    | none => simp [andThen, tell, refused]
    | some d => simp [andThen, tell, refused]

theorem fail_messages (p : Performance) (screen : Screen) (advice : List Message) (abort : Abort) :
    (p.fail screen advice abort).messages = p.messages ++ screen.report advice abort := by
  cases abort with
  | defect d => simp [fail, Screen.report]
  | failure f =>
    rw [fail, andThen]
    split <;> rfl

theorem fail_of_takes {f : Failure} (takes : ∀ m ∈ .error (screen.wording f) :: advice, screen.Takes m)
    (p : Performance) : p.fail screen advice (.failure f) =
      { p with messages := p.messages ++ .error (screen.wording f) :: advice, abort := some (.failure f) } := by
  simp only [fail, tell_of_takes takes, andThen, Option.isSome_none, Bool.false_eq_true, ↓reduceIte]

variable {table : Table}

@[simp] theorem display_tree (p : Performance) (screen : Screen) (table : Option Table) :
    (p.display screen table).tree = p.tree := by
  rw [display]
  split <;> rfl

theorem display_of_shows (shows : screen.Shows table) (p : Performance) :
    p.display screen (some table) = { p with table := some table } := by
  obtain ⟨ls, shown⟩ := shows
  have all : (some table).mapM screen.tableLines = .ok (some ls) := by
    change some <$> screen.tableLines table = _
    rw [shown]
    rfl
  rw [display, all]

end Performance

end PluginCompiler
