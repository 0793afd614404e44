import PluginCompiler.Proofs.Performance.Inspection
import PluginCompiler.Proofs.Yaml.Foreseen

/-! How a document that is no spec ends a run. Reading it gives a spec or a failure to read one unless the
loader meets a fault that nobody expects, or a number has to be written that cannot be, and then the run is
logged as a crash. So it is where the user cannot be shown what is wrong. -/

set_option autoImplicit false

namespace PluginCompiler

namespace Spec

variable {source : Source} {packageRoot location : String}

/-- The faults that the document is refused for, if it is, are foreseen. -/
def Source.Foreseen (source : Source) : Prop :=
  ∀ text, source.toText = .ok text → ¬ text.toList.all Text.isBlank → ∀ fault,
    Yaml.load text.toList = .error fault → fault.IsForeseen

/-- A number of too many digits has to be written, in a key that is repeated or as the package root. -/
inductive Source.Crowded (source : Source) (packageRoot : String) : Prop where
  | key {text : String} {key : Value} {mark : Yaml.Mark} (decoded : source.toText = .ok text)
    (filled : ¬ text.toList.all Text.isBlank)
    (repeated : Yaml.load text.toList = .error (.duplicateKey key mark))
    (long : key.isWritable = false) : Crowded source packageRoot
  | root (unasked : packageRoot = "") (unrooted : source.Unrooted) : Crowded source packageRoot

/-- A spec or a failure to read one. -/
def IsAnswer (outcome : Except Abort Spec) : Prop :=
  (∃ spec, outcome = .ok spec) ∨ ∃ problem, outcome = .error (.failure (.spec problem))

theorem not_isAnswer_of_defect {outcome : Except Abort Spec} {defect : Defect}
    (escaped : outcome = .error (.defect defect)) : ¬ IsAnswer outcome := by
  rintro (⟨spec, same⟩ | ⟨problem, same⟩) <;> cases escaped.symm.trans same

/-- An outcome is an answer exactly under a condition, and a defect otherwise. -/
structure AnswersIf (outcome : Except Abort Spec) (condition : Prop) : Prop where
  answers : IsAnswer outcome ↔ condition
  escapes : ¬ IsAnswer outcome → ∃ defect, outcome = .error (.defect defect)

theorem AnswersIf.of_answer {outcome : Except Abort Spec} {condition : Prop} (given : IsAnswer outcome)
    (holds : condition) : AnswersIf outcome condition :=
  ⟨iff_of_true given holds, absurd given⟩

theorem AnswersIf.of_defect {outcome : Except Abort Spec} {condition : Prop} {defect : Defect}
    (given : outcome = .error (.defect defect)) (fails : ¬ condition) : AnswersIf outcome condition :=
  ⟨iff_of_false (not_isAnswer_of_defect given) fails, fun _ => ⟨defect, given⟩⟩

/-- Data is answered, or its package root is needed and cannot be written. -/
theorem ofData_cases (data : Value) (packageRoot location : String) :
    ((∀ entries, data.opened = .map entries → hasRoot packageRoot entries = true) ∧
        IsAnswer (ofData data packageRoot location)) ∨
      ∃ entries, data.opened = .map entries ∧ hasRoot packageRoot entries = false ∧
        ofData data packageRoot location = .error (.defect (.digits .writing)) := by
  rw [ofData]
  cases opened : data.opened with
  | map entries =>
    dsimp only
    split
    · next rooted =>
      refine .inl ⟨fun own same => (Value.map.inj same) ▸ rooted, ?_⟩
      split
      · exact .inl ⟨_, rfl⟩
      · exact .inr ⟨_, rfl⟩
    · next rootless => exact .inr ⟨entries, rfl, Bool.eq_false_iff.mpr rootless, rfl⟩
  | _ => exact .inl ⟨fun _ same => (by cases same), .inr ⟨_, rfl⟩⟩

section

variable {text : String}

theorem foreseen_of_data {data : Value} (decoded : source.toText = .ok text)
    (loaded : Yaml.load text.toList = .ok data) : source.Foreseen := by
  intro text' decoded' _ fault failed
  cases decoded.symm.trans decoded'
  cases loaded.symm.trans failed

theorem foreseen_iff_of_fault {fault : Yaml.Fault} (decoded : source.toText = .ok text)
    (filled : ¬ text.toList.all Text.isBlank) (loaded : Yaml.load text.toList = .error fault) :
    source.Foreseen ↔ fault.IsForeseen := by
  refine ⟨fun foreseen => foreseen text decoded filled fault loaded, fun known => ?_⟩
  intro text' decoded' _ fault' failed
  cases decoded.symm.trans decoded'
  cases loaded.symm.trans failed
  exact known

theorem crowded_iff_of_data (packageRoot : String) {data : Value} (decoded : source.toText = .ok text)
    (filled : ¬ text.toList.all Text.isBlank) (loaded : Yaml.load text.toList = .ok data) :
    source.Crowded packageRoot ↔
      ∃ entries, data.opened = .map entries ∧ hasRoot packageRoot entries = false := by
  have read : dataOf text = .ok data := by
    rw [dataOf, if_neg filled, loaded]
  constructor
  · rintro (⟨decoded', _, repeated, _⟩ | ⟨rfl, text', data', entries, decoded', read', opened, rootless⟩)
    · cases decoded.symm.trans decoded'
      cases loaded.symm.trans repeated
    · cases decoded.symm.trans decoded'
      cases read.symm.trans read'
      exact ⟨entries, opened, rootless⟩
  · rintro ⟨entries, opened, rootless⟩
    have unasked : packageRoot = "" := by
      by_contra asked
      simp [hasRoot, asked] at rootless
    subst unasked
    exact .root rfl ⟨text, data, entries, decoded, read, opened, rootless⟩

theorem crowded_iff_of_fault {fault : Yaml.Fault} (decoded : source.toText = .ok text)
    (filled : ¬ text.toList.all Text.isBlank) (loaded : Yaml.load text.toList = .error fault) :
    source.Crowded packageRoot ↔ ∃ key mark, fault = .duplicateKey key mark ∧ key.isWritable = false := by
  constructor
  · rintro (⟨decoded', _, repeated, long⟩ | ⟨_, text', data, entries, decoded', read, _⟩)
    · cases decoded.symm.trans decoded'
      cases loaded.symm.trans repeated
      exact ⟨_, _, rfl, long⟩
    · cases decoded.symm.trans decoded'
      cases loaded.symm.trans (dataOf_eq_ok read)
  · rintro ⟨key, mark, rfl, long⟩
    exact .key decoded filled loaded long

theorem foreseen_of_unfilled (unfilled : ∀ text, source.toText = .ok text → text.toList.all Text.isBlank) :
    source.Foreseen ∧ ¬ source.Crowded packageRoot := by
  refine ⟨fun text decoded filled => absurd (unfilled text decoded) filled, ?_⟩
  rintro (⟨decoded, filled, _⟩ | ⟨_, text, data, entries, decoded, read, _⟩)
  · exact filled (unfilled _ decoded)
  · rw [dataOf, if_pos (unfilled text decoded)] at read
    cases read

theorem parse_answersIf_of_data {data : Value} (decoded : source.toText = .ok text)
    (filled : ¬ text.toList.all Text.isBlank) (loaded : Yaml.load text.toList = .ok data) :
    AnswersIf (parse source packageRoot location) (source.Foreseen ∧ ¬ source.Crowded packageRoot) := by
  have parsed : parse source packageRoot location = ofData data packageRoot location := by
    simp only [parse, decoded, dataOf, if_neg filled, loaded]
  have crowded := crowded_iff_of_data packageRoot decoded filled loaded
  rw [parsed]
  obtain ⟨rooted, given⟩ | ⟨entries, opened, rootless, given⟩ := ofData_cases data packageRoot location
  · refine .of_answer given ⟨foreseen_of_data decoded loaded, fun long => ?_⟩
    obtain ⟨entries, opened, rootless⟩ := crowded.mp long
    cases (rooted entries opened).symm.trans rootless
  · exact .of_defect given fun both => both.2 (crowded.mpr ⟨entries, opened, rootless⟩)

theorem parse_answersIf_of_fault {fault : Yaml.Fault} (decoded : source.toText = .ok text)
    (filled : ¬ text.toList.all Text.isBlank) (loaded : Yaml.load text.toList = .error fault) :
    AnswersIf (parse source packageRoot location) (source.Foreseen ∧ ¬ source.Crowded packageRoot) := by
  rw [foreseen_iff_of_fault decoded filled loaded, crowded_iff_of_fault decoded filled loaded]
  have parsed : parse source packageRoot location = (dataOf text).bind fun data =>
      ofData data packageRoot location := by
    simp only [parse, decoded]
    cases dataOf text <;> rfl
  rw [dataOf, if_neg filled, loaded] at parsed
  cases fault with
  | malformed => exact .of_answer (.inr ⟨_, parsed⟩) ⟨trivial, by rintro ⟨_, _, ⟨⟩, _⟩⟩
  | noSuchCharacter number => exact .of_defect parsed fun both => both.1
  | value fault => exact .of_defect parsed fun both => both.1
  | duplicateKey key mark =>
    -- The report of a repeated key has the key in it, so it can fail where the fault is foreseen.
    dsimp only at parsed
    split at parsed
    · next short =>
      refine .of_answer (.inr ⟨_, parsed⟩) ⟨trivial, ?_⟩
      rintro ⟨_, _, ⟨⟩, long⟩
      cases short.symm.trans long
    · next long =>
      exact .of_defect parsed fun both => both.2 ⟨_, _, rfl, Bool.eq_false_iff.mpr long⟩

end

theorem parse_answersIf (source : Source) (packageRoot location : String) :
    AnswersIf (parse source packageRoot location) (source.Foreseen ∧ ¬ source.Crowded packageRoot) := by
  cases decoded : source.toText with
  | error problem =>
    refine .of_answer (.inr ⟨problem, by simp only [parse, decoded]; rfl⟩) (foreseen_of_unfilled ?_)
    intro text decoded'
    cases decoded.symm.trans decoded'
  | ok text =>
    by_cases blank : text.toList.all Text.isBlank = true
    · refine .of_answer (.inr ⟨.empty, by simp only [parse, decoded, dataOf, if_pos blank]; rfl⟩)
        (foreseen_of_unfilled ?_)
      intro text' decoded'
      cases decoded.symm.trans decoded'
      exact blank
    · cases loaded : Yaml.load text.toList with
      | ok data => exact parse_answersIf_of_data decoded blank loaded
      | error fault => exact parse_answersIf_of_fault decoded blank loaded

end Spec

namespace Performance

variable {screen : Screen} {host : Host} {task : Task} {content : List UInt8} {abort : Abort}

/-- The spec of a task is a file that can be opened, and its configuration resolves. -/
structure Opens (host : Host) (task : Task) (content : List UInt8) : Prop where
  named : task.file.hasNul = false
  configured : task.Configured host
  read : Spec.readFile task.file task.file.toString host.environment.cwd host.tree = .ok content

/-- A document is answered, and the screen can show what a task says up to the answer. -/
structure Tells (screen : Screen) (host : Host) (task : Task) (source : Spec.Source) : Prop where
  foreseen : source.Foreseen
  sparse : ¬ source.Crowded task.package
  heard : task.IsHeard screen host
  shown : ∀ problem, Spec.parse source task.package task.file.toString =
    .error (.failure (.spec problem)) → screen.Takes (.error (screen.wording (.spec problem)))

theorem perform_of_refused (opens : Opens host task content) (heard : task.IsHeard screen host)
    (refused : Spec.parse (.bytes content) task.package task.file.toString = .error abort) :
    ∃ said, task.perform screen host =
      { start host with messages := said }.fail screen [] abort := by
  have unread : task.file.loaded task.package host = .error abort := by
    rw [Path.loaded, if_neg (by simp [opens.named]), Spec.loadEnriched_of_content _ opens.read,
      Spec.parseEnriched, refused]
    rfl
  obtain ⟨said, ended, _⟩ := perform_of_unread opens.configured heard unread
  exact ⟨said, ended⟩

theorem defect_of_unheard (unheard : ¬ task.IsHeard screen host) :
    ∃ defect, (task.perform screen host).abort = some (.defect defect) := by
  cases task with
  | generate file package workspace skip => exact (crashed_of_unheard package unheard).1
  | plan => exact absurd trivial unheard
  | inspect => exact absurd trivial unheard

structure Refuses (host : Host) (run : Invocation) (told : Prop) : Prop where
  reported : told → run.exit = .ok 7 ∧ run.tree = host.tree ∧ run.commands = []
  /-- The exit code for crashes, or none if the crash could not be logged or told. -/
  crashed : ¬ told → run.exit = .ok 1 ∨ ∃ defect, run.exit = .error defect

theorem reported_of_refused (opens : Opens host task content)
    (refused : ∀ spec, Spec.parse (.bytes content) task.package task.file.toString ≠ .ok spec)
    (tells : Tells screen host task (.bytes content)) :
    let run := Invocation.ofPerformance host screen (task.perform screen host)
    run.exit = .ok 7 ∧ run.tree = host.tree ∧ run.commands = [] := by
  obtain ⟨spec, read⟩ | ⟨problem, failed⟩ :=
    (Spec.parse_answersIf (.bytes content) task.package task.file.toString).answers.mpr
      ⟨tells.foreseen, tells.sparse⟩
  · exact absurd read (refused spec)
  · obtain ⟨said, ended⟩ := perform_of_refused opens tells.heard failed
    have takes : ∀ m ∈ [Message.error (screen.wording (.spec problem))], screen.Takes m := by
      simpa using tells.shown problem failed
    have failing : (task.perform screen host).abort = some (.failure (.spec problem)) := by
      rw [ended, fail_abort, Screen.ending_of_takes takes]
    simp only [Host.ofPerformance_of_failure failing]
    rw [ended]
    exact ⟨rfl, fail_tree .., fail_commands ..⟩

theorem crashed_of_refused (opens : Opens host task content)
    (refused : ∀ spec, Spec.parse (.bytes content) task.package task.file.toString ≠ .ok spec)
    (untold : ¬ Tells screen host task (.bytes content)) :
    ∃ defect, (task.perform screen host).abort = some (.defect defect) := by
  by_cases heard : task.IsHeard screen host
  · obtain ⟨answered, escapes⟩ :=
      Spec.parse_answersIf (.bytes content) task.package task.file.toString
    by_cases answer : Spec.IsAnswer (Spec.parse (.bytes content) task.package task.file.toString)
    · obtain ⟨spec, read⟩ | ⟨problem, failed⟩ := answer
      · exact absurd read (refused spec)
      · obtain ⟨foreseen, sparse⟩ := answered.mp (.inr ⟨problem, failed⟩)
        obtain ⟨said, ended⟩ := perform_of_refused opens heard failed
        have untaken : ¬ screen.Takes (.error (screen.wording (.spec problem))) := by
          intro takes
          refine untold ⟨foreseen, sparse, heard, fun problem' failed' => ?_⟩
          cases failed.symm.trans failed'
          exact takes
        rw [ended, fail_abort]
        cases kind : screen.ending [] (.failure (.spec problem)) with
        | defect defect => exact ⟨defect, rfl⟩
        | failure failure =>
          obtain ⟨same, takes⟩ := Screen.ending_eq_failure.mp kind
          cases same
          exact absurd (takes _ List.mem_cons_self) untaken
    · obtain ⟨defect, escaped⟩ := escapes answer
      obtain ⟨said, ended⟩ := perform_of_refused opens heard escaped
      exact ⟨defect, by rw [ended, fail_abort]; rfl⟩
  · exact defect_of_unheard heard

theorem refuses_of_refused (opens : Opens host task content)
    (refused : ∀ spec, Spec.parse (.bytes content) task.package task.file.toString ≠ .ok spec) :
    Refuses host (.ofPerformance host screen (task.perform screen host))
      (Tells screen host task (.bytes content)) where
  reported tells := reported_of_refused opens refused tells
  crashed untold := by
    obtain ⟨defect, crashed⟩ := crashed_of_refused opens refused untold
    exact Host.ofPerformance_exit_of_defect crashed

/-- A document is read to a spec or refused as none, wherever it comes from, exactly if the loader meets no
fault that nobody expects and no number has to be written that is too long. Such a fault lies in the
document; one that has no other faults is never refused. A run about a file that is no spec ends by the
same condition, provided that the screen can show what it says. -/
theorem refuses_iff_foreseen (source : Spec.Source) (packageRoot location : String) :
    (source.Foreseen ∧ ¬ source.Crowded packageRoot ↔
      (∃ spec, Spec.parse source packageRoot location = .ok spec) ∨
        ∃ problem, Spec.parse source packageRoot location = .error (.failure (.spec problem))) ∧
    (∀ text, source.toText = .ok text → ¬ text.toList.all Text.isBlank →
      (¬ source.Foreseen → Yaml.HasUnforeseen text.toList) ∧
        (Yaml.HasUnforeseen text.toList →
          (∀ fault, Yaml.HasFault text.toList fault → ¬ fault.IsForeseen) → ¬ source.Foreseen)) ∧
    ∀ screen host task content, source = .bytes content → Opens host task content →
      (∀ spec, Spec.parse source task.package task.file.toString ≠ .ok spec) →
      Refuses host (.ofPerformance host screen (task.perform screen host))
        (Tells screen host task source) := by
  refine ⟨(Spec.parse_answersIf source packageRoot location).answers.symm,
    fun text decoded filled => ⟨fun unforeseen => ?_, fun has only foreseen => ?_⟩, ?_⟩
  · simp only [Spec.Source.Foreseen, Classical.not_forall] at unforeseen
    obtain ⟨text', decoded', _, fault, loaded, unknown⟩ := unforeseen
    cases decoded.symm.trans decoded'
    exact Yaml.hasUnforeseen_of_load loaded unknown
  · obtain ⟨fault, loaded, unknown⟩ := Yaml.load_of_unforeseen has only
    exact unknown (foreseen text decoded filled fault loaded)
  · rintro screen host task content rfl opens refused
    exact refuses_of_refused opens refused

def holding (text : String) : Host where
  tree := ⟨[(["s.yaml"], .file (Text.Utf8.encode text))]⟩

def unlettered : String := "\"\\U00110000\""

theorem refuses_iff_foreseen_unlettered :
    let task := Task.inspect .summary "s.yaml"
    let run := Invocation.ofPerformance (holding unlettered) {} (task.perform {} (holding unlettered))
    ¬ (Spec.Source.bytes (Text.Utf8.encode unlettered)).Foreseen ∧
      (run.exit = .ok 1 ∨ ∃ defect, run.exit = .error defect) := by
  intro task run
  have stopped : Yaml.Graph.ofText unlettered.toList = .error (.noSuchCharacter 0x110000) :=
    failure?_eq_some.mp (by decide +kernel)
  have only : ∀ fault, Yaml.HasFault unlettered.toList fault → ¬ fault.IsForeseen := by
    rintro fault (stopped' | ⟨composed, _, _⟩)
    · cases stopped.symm.trans stopped'
      exact id
    · cases stopped.symm.trans composed
  obtain ⟨answers, documents, runs⟩ :=
    refuses_iff_foreseen (.bytes (Text.Utf8.encode unlettered)) task.package task.file.toString
  have unforeseen : ¬ (Spec.Source.bytes (Text.Utf8.encode unlettered)).Foreseen :=
    (documents unlettered rfl (by decide)).2 (.character stopped) only
  have opens : Opens (holding unlettered) task (Text.Utf8.encode unlettered) := ⟨rfl, trivial, rfl⟩
  have refuses := runs {} (holding unlettered) task _ rfl opens fun spec read =>
    unforeseen (answers.mpr (.inl ⟨spec, read⟩)).1
  exact ⟨unforeseen, refuses.crashed fun tells => unforeseen tells.foreseen⟩

def isDefect : Except Abort Spec → Bool
  | .error (.defect _) => true
  | _ => false

/-- A date without a month is neither read nor refused. -/
theorem not_refuses :
    ¬ ∀ (source : Spec.Source) packageRoot location,
      (∃ spec, Spec.parse source packageRoot location = .ok spec) ∨
        ∃ problem, Spec.parse source packageRoot location = .error (.failure (.spec problem)) := by
  intro answers
  have escapes : isDefect (Spec.parse (.text "a: 2020-13-01\n") "" "") = true := by decide +kernel
  rcases answers (.text "a: 2020-13-01\n") "" "" with ⟨spec, same⟩ | ⟨problem, same⟩
  · rw [same] at escapes
    cases escapes
  · rw [same] at escapes
    cases escapes

end Performance

end PluginCompiler
