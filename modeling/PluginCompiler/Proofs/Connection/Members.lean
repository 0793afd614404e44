import PluginCompiler.Proofs.Plan.Plain

/-! The members of the data of a connection. Its fields are named by the keys of the connection, its
methods by the files of the package, and both share one scope, so a key whose identifier is that of a
method makes a file that does not compile. -/

set_option autoImplicit false

namespace PluginCompiler

open Naming (IsWord upperCamel)

namespace Go

structure Method where
  receiver : String
  name : String
  deriving DecidableEq, Repr

/-- The method that a line starts. The receiver stands in parentheses before the name. -/
def method? (line : String) : Option Method :=
  match pieces line with
  | ['f', 'u', 'n', 'c'] :: ('(' :: _) :: ('*' :: receiver) :: signature :: _ =>
    some ⟨String.ofList (receiver.takeWhile (· != ')')), String.ofList (signature.takeWhile (· != '('))⟩
  | _ => none

/-- The methods that a file declares on references to a type, in their order. -/
def methodsOn (receiver : String) (ls : List String) : List String :=
  ((ls.filterMap method?).filter (·.receiver == receiver)).map Method.name

variable {line receiver name : String} {ls : List String}

theorem bne_of_word {c : Char} (word : IsWord name) (other : Naming.isWordChar c = false) :
    ∀ d ∈ name.toList, (d != c) = true := by
  intro d member
  rw [bne_iff_ne]
  rintro rfl
  exact word.not_mem other member

theorem method?_head (typed : IsWord receiver) (word : IsWord name) (rest : List Char)
    (chars : line.toList = "func".toList ++ ' ' :: ("(c".toList ++ ' ' ::
      (('*' :: receiver.toList ++ [')']) ++ ' ' :: ((name.toList ++ ['(', ')']) ++ ' ' :: rest)))) :
    method? line = some ⟨receiver, name⟩ := by
  have first : ' ' ∉ "func".toList := by decide
  have second : ' ' ∉ "(c".toList := by decide
  have third : ' ' ∉ '*' :: receiver.toList ++ [')'] := by simp [blank_not_mem typed]
  have fourth : ' ' ∉ name.toList ++ ['(', ')'] := by simp [blank_not_mem word]
  have owner : (receiver.toList ++ [')']).takeWhile (· != ')') = receiver.toList := by
    rw [List.takeWhile_append_of_pos (bne_of_word typed (by decide)), List.takeWhile_cons_of_neg (by simp),
      List.append_nil]
  have called : (name.toList ++ ['(', ')']).takeWhile (· != '(') = name.toList := by
    rw [List.takeWhile_append_of_pos (bne_of_word word (by decide)), List.takeWhile_cons_of_neg (by simp),
      List.append_nil]
  rw [method?, pieces, chars, List.splitOn_append_cons_self_of_not_mem first,
    List.splitOn_append_cons_self_of_not_mem second, List.splitOn_append_cons_self_of_not_mem third,
    List.splitOn_append_cons_self_of_not_mem fourth]
  simp [owner, called]

theorem method?_of_lead (other : lead line ≠ some 'f') : method? line = none := by
  rw [method?]
  split
  · next split => exact absurd (lead_of_pieces split) other
  · rfl

end Go

namespace Emit

variable {receiver head : String} {ls more : List String}

theorem methodsOn_append (receiver : String) (ls more : List String) :
    Go.methodsOn receiver (ls ++ more) = Go.methodsOn receiver ls ++ Go.methodsOn receiver more := by
  rw [Go.methodsOn, List.filterMap_append, List.filter_append, List.map_append]
  rfl

theorem methodsOn_of_clear (receiver : String) (clear : Each (Go.lead · ≠ some 'f') ls) :
    Go.methodsOn receiver ls = [] := by
  have none_ : ls.filterMap Go.method? = [] := by
    rw [List.filterMap_eq_nil_iff]
    exact fun l member => Go.method?_of_lead (clear l member)
  rw [Go.methodsOn, none_]
  rfl

theorem methodsOn_braces (receiver head : String) (body : List String) :
    Go.methodsOn receiver (braces head body) = Go.methodsOn receiver [head ++ " \x7b"] := by
  have rest : Each (Go.lead · ≠ some 'f') (indent body ++ ["\x7d"]) :=
    each_append.mpr ⟨clear_indent (by decide), by simp [Go.lead]⟩
  rw [Go.braces_eq, ← List.singleton_append, methodsOn_append, methodsOn_of_clear receiver rest,
    List.append_nil]

theorem methodsOn_head {line name : String} (typed : IsWord receiver) (word : IsWord name)
    (rest : List Char) (chars : line.toList = "func".toList ++ ' ' :: ("(c".toList ++ ' ' ::
      (('*' :: receiver.toList ++ [')']) ++ ' ' :: ((name.toList ++ ['(', ')']) ++ ' ' :: rest)))) :
    Go.methodsOn receiver [line] = [name] := by
  simp [Go.methodsOn, Go.method?_head typed word rest chars]

theorem methodsOn_connectionLines (spec : Spec) :
    Go.methodsOn "Data" (connectionLines spec) = ["Key"] := by
  have key : Go.methodsOn "Data" [keyMethod ++ " \x7b"] = ["Key"] :=
    methodsOn_head (by decide) (by decide) "string \x7b".toList (by simp [keyMethod])
  have helper : Go.methodsOn "Data" (apart optionalTextHelper) = [] := by decide
  obtain ⟨before, lines, clear⟩ := connectionLines_eq spec
  rw [lines, methodsOn_append, methodsOn_append, methodsOn_of_clear _ clear, methodsOn_braces, key]
  split
  · rw [helper]
    rfl
  · rfl

theorem methodsOn_connectLines : Go.methodsOn "Data" connectLines = ["Connect"] := by
  have own : Go.methodsOn "Data" ["func (c *Data) Connect() (Client, error)" ++ " \x7b"] = ["Connect"] :=
    methodsOn_head (by decide) (by decide) "(Client, error) \x7b".toList (by simp)
  have front : Each (Go.lead · ≠ some 'f') ["package connection", "",
      "// Client is whatever Connect builds from the connection data, shared by",
      "// every action and trigger that uses the same connection.",
      "type Client interface\x7b\x7d", "",
      "// Connect validates the connection data and returns a client for it."] :=
    clear_cons_literal (by decide) <| clear_cons_empty <| clear_cons_literal (by decide) <|
      clear_cons_literal (by decide) <| clear_cons_literal (by decide) <| clear_cons_empty <|
        clear_cons_literal (by decide) each_nil
  have before := each_append.mpr ⟨front, clear_ownedNote (by decide)⟩
  unfold connectLines
  rw [methodsOn_append, methodsOn_of_clear _ before, methodsOn_braces, own]
  rfl

theorem methodsOn_cacheLines : Go.methodsOn "Data" cacheLines = ["Cached"] := by
  have own : Go.methodsOn "Data" ["func (c *Data) Cached() (Client, error)" ++ " \x7b"] = ["Cached"] :=
    methodsOn_head (by decide) (by decide) "(Client, error) \x7b".toList (by simp)
  have front : Each (Go.lead · ≠ some 'f') ["package connection", "", "import \"sync\"", ""] :=
    clear_cons_literal (by decide) <| clear_cons_empty <| clear_cons_literal (by decide) <|
      clear_cons_empty each_nil
  have globals : Each (Go.lead · ≠ some 'f')
      (parens "var" ["cacheMu sync.Mutex", "cache   = map[string]Client\x7b\x7d"]) :=
    (clear_parens (by decide)).mpr (by decide)
  have note : Each (Go.lead · ≠ some 'f')
      ["", "// Cached returns the client for c, calling Connect only the first time a",
      "// connection with the same Key is seen."] :=
    clear_cons_empty <| clear_cons_literal (by decide) <| clear_cons_literal (by decide) each_nil
  have before := each_append.mpr
    ⟨each_append.mpr ⟨each_append.mpr ⟨front, globals⟩, note⟩, clear_ownedNote (by decide)⟩
  unfold cacheLines
  rw [methodsOn_append, methodsOn_of_clear _ before, methodsOn_braces, own]
  rfl

theorem declaredFields_stubs :
    Go.declaredFields "Data" connectLines = [] ∧ Go.declaredFields "Data" cacheLines = [] := by
  have absent (ls : List String) (missing : "type Data struct \x7b" ∉ ls) :
      Go.declaredFields "Data" ls = [] := by
    have head : "type " ++ "Data" ++ " struct \x7b" ∉ ls := missing
    rw [Go.declaredFields, Go.enclosed_of_not_mem head]
    rfl
  exact ⟨absent _ (by decide), absent _ (by decide)⟩

end Emit

namespace Plan

def fieldsOf (record : String) (files : List (List String)) : List String :=
  files.flatMap fun ls => (Go.declaredFields record ls).map Go.Field.name

def methodsOf (receiver : String) (files : List (List String)) : List String :=
  files.flatMap (Go.methodsOn receiver)

theorem methodsOf_connection (spec : Spec) (source : List UInt8) :
    methodsOf "Data" (files "connection" (outputs spec source)) = ["Key", "Connect", "Cached"] := by
  rw [methodsOf, files_connection, List.flatMap_cons, List.flatMap_cons, List.flatMap_singleton,
    Emit.methodsOn_connectionLines, Emit.methodsOn_connectLines, Emit.methodsOn_cacheLines]
  rfl

end Plan

namespace Spec

variable {spec enriched : Spec}

theorem fieldsOf_connection (ok : spec.enrich = .ok enriched) (source : List UInt8) :
    Plan.fieldsOf "Data" (Plan.files "connection" (Plan.outputs enriched source)) =
      enriched.connection.names.map upperCamel := by
  have becomes := (enriched_of_ok ok).connection
  rw [Plan.fieldsOf, Plan.files_connection, List.flatMap_cons, List.flatMap_cons,
    List.flatMap_singleton, Emit.declaredFields_stubs.1, Emit.declaredFields_stubs.2,
    declaredFields_connectionLines becomes.declarable, List.map_nil, List.append_nil, List.append_nil,
    Section.names, Section.values, List.map_map, List.map_map, List.map_map]
  apply List.map_congr_left
  rintro ⟨key, p⟩ entry
  obtain ⟨_, _, own⟩ := becomes.exists_of_mem entry
  exact own.name

theorem disjoint_members_iff (ok : spec.enrich = .ok enriched) (source : List UInt8) :
    let package := Plan.files "connection" (Plan.outputs enriched source)
    (Plan.fieldsOf "Data" package).Disjoint (Plan.methodsOf "Data" package) ↔
      ∀ key ∈ spec.connection.names, upperCamel key ∉ ["Key", "Connect", "Cached"] := by
  have names := (enriched_of_ok ok).ordered.2.2.1.names
  intro package
  rw [fieldsOf_connection ok, Plan.methodsOf_connection, List.disjoint_left, List.forall_mem_map]
  exact forall_congr' fun key => by rw [names.mem_iff]

/-- The fields of the data of a connection are those of its keys, and its methods are always the same
three. No field has the name of a method exactly if no key has the identifier of one. -/
theorem members_of_data (ok : spec.enrich = .ok enriched) (source : List UInt8) :
    let package := Plan.files "connection" (Plan.outputs enriched source)
    Plan.fieldsOf "Data" package = enriched.connection.names.map upperCamel ∧
    Plan.methodsOf "Data" package = ["Key", "Connect", "Cached"] ∧
    ((Plan.fieldsOf "Data" package).Disjoint (Plan.methodsOf "Data" package) ↔
      ∀ key ∈ spec.connection.names, upperCamel key ∉ ["Key", "Connect", "Cached"]) ∧
    (enriched.Breakless → ∀ o ∈ Plan.outputs enriched source, o.isGo = true →
      ∀ ls, o.lines? = some ls → o.ReadsAs ls) :=
  ⟨fieldsOf_connection ok source, Plan.methodsOf_connection enriched source,
    disjoint_members_iff ok source,
    fun breakless _ member go _ written => readsAs_of_breakless ok breakless member go written⟩

theorem members_of_data_messaging :
    messaging.enrich = .ok messagingEnriched ∧ messagingEnriched.Breakless ∧
    let package := Plan.files "connection" (Plan.outputs messagingEnriched [])
    Plan.fieldsOf "Data" package = ["Host"] ∧
    Plan.methodsOf "Data" package = ["Key", "Connect", "Cached"] ∧
    (Plan.fieldsOf "Data" package).Disjoint (Plan.methodsOf "Data" package) ∧
    ∀ o ∈ Plan.outputs messagingEnriched [], o.isGo = true →
      ∀ ls, o.lines? = some ls → o.ReadsAs ls := by
  obtain ⟨fields, methods, apart, reads⟩ := members_of_data enrich_messaging []
  exact ⟨enrich_messaging, plain_messaging.toBreakless, fields, methods, apart.mpr (by decide),
    reads plain_messaging.toBreakless⟩

/-- A connection with a parameter named like a method. -/
def selfKeyed : Spec where
  connection := ⟨[("key", { type := "string" })], by decide⟩

def selfKeyedEnriched : Spec :=
  { selfKeyed with
    connection :=
      ⟨[("key", { rawName := "key", name := "Key", type := "string", internalType := "string" })],
        by decide⟩
    connectionKey := "c.Key"
    http := ⟨10001, 2, 2⟩ }

theorem enrich_selfKeyed : selfKeyed.enrich = .ok selfKeyedEnriched := rfl

theorem not_members_apart :
    ¬ ∀ (spec enriched : Spec) (source : List UInt8), spec.enrich = .ok enriched →
      let package := Plan.files "connection" (Plan.outputs enriched source)
      (Plan.fieldsOf "Data" package).Disjoint (Plan.methodsOf "Data" package) := by
  intro apart
  exact absurd ((disjoint_members_iff enrich_selfKeyed []).mp (apart _ _ [] enrich_selfKeyed)) (by decide)

end Spec

end PluginCompiler
