import PluginCompiler.Plan

/-! What is planned for a spec: the policy and the path of every output by the declaration that it
comes from. Names without a slash give paths of plain names, none of which leads through another. -/

set_option autoImplicit false

namespace PluginCompiler

def Spec.handlers (spec : Spec) : HandlerKind → Section Handler
  | .action => spec.actions
  | .trigger => spec.triggers

def Spec.declared (spec : Spec) : List String :=
  spec.actions.names ++ spec.triggers.names ++ spec.customTypes.names

namespace Plan

def declarationPath (kind : HandlerKind) (name : String) : Path :=
  inDirectory [kind.package] (name ++ ".go")

def stubPath (kind : HandlerKind) (name : String) : Path :=
  inDirectory [kind.package] (name ++ "_run.go")

def routePath (name : String) : Path := inDirectory ["server", "http"] (name ++ ".go")

def typePath (name : String) : Path := inDirectory ["types"] (name ++ ".go")

/-- The policy and the path of a planned output, by what it is generated for. -/
inductive Listed (spec : Spec) : WritePolicy → Path → Prop where
  | declaration {kind : HandlerKind} {name : String} (member : name ∈ (spec.handlers kind).names) :
      Listed spec .always (declarationPath kind name)
  | stub {kind : HandlerKind} {name : String} (member : name ∈ (spec.handlers kind).names) :
      Listed spec .once (stubPath kind name)
  | connection : Listed spec .always (inDirectory ["connection"] "connection.go")
  | connect : Listed spec .once (inDirectory ["connection"] "connect.go")
  | cache : Listed spec .once (inDirectory ["connection"] "cache.go")
  | program : Listed spec .always (inDirectory ["cmd"] "main.go")
  | server : Listed spec .always (inDirectory ["server", "http"] "server.go")
  | route {name : String} (member : name ∈ spec.actions.names) :
      Listed spec .always (routePath name)
  | customType {name : String} (member : name ∈ spec.customTypes.names) :
      Listed spec .always (typePath name)
  | image : Listed spec .always (inDirectory [] "Dockerfile")
  | makefile : Listed spec .always (inDirectory [] "Makefile")
  | vendor : Listed spec .always (inDirectory [vendorDirectory] ".gitkeep")
  | copy : Listed spec .always (inDirectory [] specCopy)

variable {spec : Spec} {source : List UInt8} {o : Output}

theorem listed_of_handler (kind : HandlerKind)
    (member : o ∈ handlerOutputs kind (spec.handlers kind)) : Listed spec o.policy o.path := by
  simp only [handlerOutputs, List.mem_flatMap] at member
  obtain ⟨⟨name, h⟩, entry, member⟩ := member
  have named : name ∈ (spec.handlers kind).names := List.mem_map.mpr ⟨(name, h), entry, rfl⟩
  simp only [List.mem_cons, List.not_mem_nil, or_false] at member
  rcases member with rfl | rfl
  · exact .declaration named
  · exact .stub named

theorem mem_outputs : o ∈ outputs spec source ↔
    (∃ kind, o ∈ handlerOutputs kind (spec.handlers kind)) ∨ o ∈ connectionOutputs spec ∨
      o ∈ programOutputs spec ∨ o ∈ routeOutputs spec ∨ o ∈ typeOutputs spec ∨
      o ∈ buildOutputs spec source := by
  have kinds : (∃ kind, o ∈ handlerOutputs kind (spec.handlers kind)) ↔
      o ∈ handlerOutputs .action spec.actions ∨ o ∈ handlerOutputs .trigger spec.triggers :=
    ⟨fun | ⟨.action, member⟩ => .inl member | ⟨.trigger, member⟩ => .inr member,
      fun | .inl member => ⟨.action, member⟩ | .inr member => ⟨.trigger, member⟩⟩
  -- Only the triggers stand elsewhere, after the connection.
  simp only [outputs, List.mem_append, kinds, or_assoc]
  exact or_congr_right or_left_comm

theorem listed_of_mem (member : o ∈ outputs spec source) : Listed spec o.policy o.path := by
  rcases mem_outputs.mp member with ⟨kind, member⟩ | member | member | member | member | member
  · exact listed_of_handler kind member
  · simp only [connectionOutputs, List.mem_cons, List.not_mem_nil, or_false] at member
    rcases member with rfl | rfl | rfl
    · exact .connection
    · exact .connect
    · exact .cache
  · simp only [programOutputs, List.mem_cons, List.not_mem_nil, or_false] at member
    rcases member with rfl | rfl
    · exact .program
    · exact .server
  · obtain ⟨⟨name, h⟩, entry, rfl⟩ := List.mem_map.mp member
    exact .route (List.mem_map.mpr ⟨(name, h), entry, rfl⟩)
  · obtain ⟨⟨name, type⟩, entry, rfl⟩ := List.mem_map.mp member
    exact .customType (List.mem_map.mpr ⟨(name, type), entry, rfl⟩)
  · simp only [buildOutputs, List.mem_cons, List.not_mem_nil, or_false] at member
    rcases member with rfl | rfl | rfl | rfl
    · exact .image
    · exact .makefile
    · exact .vendor
    · exact .copy

theorem exists_of_listed {policy : WritePolicy} {path : Path} (source : List UInt8)
    (listed : Listed spec policy path) :
    ∃ o ∈ outputs spec source, o.policy = policy ∧ o.path = path := by
  have connection {o : Output} (member : o ∈ connectionOutputs spec) : o ∈ outputs spec source :=
    mem_outputs.mpr (.inr (.inl member))
  have program {o : Output} (member : o ∈ programOutputs spec) : o ∈ outputs spec source :=
    mem_outputs.mpr (.inr (.inr (.inl member)))
  have build {o : Output} (member : o ∈ buildOutputs spec source) : o ∈ outputs spec source :=
    mem_outputs.mpr (.inr (.inr (.inr (.inr (.inr member)))))
  -- Every case names the family of outputs that the path is in.
  cases listed with
  | @declaration kind name member =>
    obtain ⟨⟨_, h⟩, entry, rfl⟩ := List.mem_map.mp member
    exact ⟨_, mem_outputs.mpr (.inl ⟨kind, List.mem_flatMap.mpr ⟨_, entry, List.mem_cons_self⟩⟩), rfl, rfl⟩
  | @stub kind name member =>
    obtain ⟨⟨_, h⟩, entry, rfl⟩ := List.mem_map.mp member
    exact ⟨_, mem_outputs.mpr (.inl ⟨kind, List.mem_flatMap.mpr ⟨_, entry,
      List.mem_cons_of_mem _ List.mem_cons_self⟩⟩), rfl, rfl⟩
  | connection => exact ⟨_, connection List.mem_cons_self, rfl, rfl⟩
  | connect => exact ⟨_, connection (List.mem_cons_of_mem _ List.mem_cons_self), rfl, rfl⟩
  | cache =>
    exact ⟨_, connection (List.mem_cons_of_mem _ (List.mem_cons_of_mem _ List.mem_cons_self)), rfl, rfl⟩
  | program => exact ⟨_, program List.mem_cons_self, rfl, rfl⟩
  | server => exact ⟨_, program (List.mem_cons_of_mem _ List.mem_cons_self), rfl, rfl⟩
  | @route name member =>
    obtain ⟨entry, entered, rfl⟩ := List.mem_map.mp member
    exact ⟨_, mem_outputs.mpr (.inr (.inr (.inr (.inl (List.mem_map.mpr ⟨entry, entered, rfl⟩))))), rfl, rfl⟩
  | @customType name member =>
    obtain ⟨entry, entered, rfl⟩ := List.mem_map.mp member
    exact ⟨_, mem_outputs.mpr (.inr (.inr (.inr (.inr (.inl (List.mem_map.mpr ⟨entry, entered, rfl⟩)))))),
      rfl, rfl⟩
  | image => exact ⟨_, build List.mem_cons_self, rfl, rfl⟩
  | makefile => exact ⟨_, build (List.mem_cons_of_mem _ List.mem_cons_self), rfl, rfl⟩
  | vendor =>
    exact ⟨_, build (List.mem_cons_of_mem _ (List.mem_cons_of_mem _ List.mem_cons_self)), rfl, rfl⟩
  | copy =>
    exact ⟨_, build (List.mem_cons_of_mem _ (List.mem_cons_of_mem _ (List.mem_cons_of_mem _
      List.mem_cons_self))), rfl, rfl⟩

/-- A name that a path takes as one part and that is no step upwards. -/
structure PlainName (name : String) : Prop where
  whole : '/' ∉ name.toList
  long : 2 < name.toList.length

theorem segments_of_whole {cs : List Char} (whole : '/' ∉ cs) : Path.segments cs = [cs] := by
  induction cs with
  | nil => rfl
  | cons c cs ih =>
    rw [List.mem_cons, not_or] at whole
    simp [Path.segments, ih whole.2, Ne.symm whole.1]

theorem PlainName.partsOf {name : String} (plain : PlainName name) :
    Path.partsOf name.toList = [name] := by
  have filled : name.toList ≠ [] := by
    intro same
    simpa [same] using plain.long
  have other : name.toList ≠ ['.'] := by
    intro same
    simpa [same] using plain.long
  simp [Path.partsOf, segments_of_whole plain.whole, filled, other]

theorem PlainName.ne_up {name : String} (plain : PlainName name) : name ≠ ".." := by
  rintro rfl
  exact absurd plain.long (by decide)

theorem PlainName.rootOf {name : String} (plain : PlainName name) :
    Path.rootOf name.toList = .relative := by
  cases same : name.toList with
  | nil => rfl
  | cons c cs =>
    have other : c ≠ '/' := by
      rintro rfl
      exact plain.whole (by simp [same])
    simp [Path.rootOf, other]

theorem PlainName.inDirectory {name : String} (plain : PlainName name) (directory : List String) :
    inDirectory directory name = ⟨.relative, directory ++ [name]⟩ := by
  simp [Plan.inDirectory, Path.child, Path.join, Path.ofString, plain.rootOf, plain.partsOf]

theorem plainName_append {name ending : String} (whole : '/' ∉ name.toList)
    (plain : PlainName ending) : PlainName (name ++ ending) where
  whole := by simp [whole, plain.whole]
  long := by
    have := plain.long
    rw [String.toList_append, List.length_append]
    omega

theorem plainName_go : PlainName ".go" := ⟨by decide, by decide⟩

theorem plainName_run_go : PlainName "_run.go" := ⟨by decide, by decide⟩

def letters (n : Nat) : String := String.ofList (List.replicate n 'a')

theorem toList_letters (n : Nat) : (letters n).toList = List.replicate n 'a' := String.toList_ofList

theorem utf8ByteSize_letters (n : Nat) : (letters n).utf8ByteSize = n := by
  induction n with
  | zero => rfl
  | succ n ih =>
    rw [letters] at ih ⊢
    rw [List.replicate_succ, String.ofList_cons, String.utf8ByteSize_append, ih]
    exact Nat.add_comm 1 n

theorem plainName_letters {n : Nat} (long : 2 < n) : PlainName (letters n) where
  whole := by
    rw [toList_letters]
    exact fun slash => absurd (List.eq_of_mem_replicate slash) (by decide)
  long := by rwa [toList_letters, List.length_replicate]

theorem nul_not_mem_letters (n : Nat) : '\x00' ∉ (letters n).toList := by
  rw [toList_letters]
  exact fun nul => absurd (List.eq_of_mem_replicate nul) (by decide)

end Plan

def Spec.Slashless (spec : Spec) : Prop := ∀ name ∈ spec.declared, '/' ∉ name.toList

instance (spec : Spec) : Decidable spec.Slashless :=
  inferInstanceAs (Decidable (∀ name ∈ spec.declared, '/' ∉ name.toList))

theorem Spec.mem_declared {spec : Spec} {name : String} : name ∈ spec.declared ↔
    (∃ kind, name ∈ (spec.handlers kind).names) ∨ name ∈ spec.customTypes.names := by
  simp only [declared, List.mem_append]
  constructor
  · rintro ((action | trigger) | type)
    · exact .inl ⟨.action, action⟩
    · exact .inl ⟨.trigger, trigger⟩
    · exact .inr type
  · rintro (⟨kind | kind, member⟩ | type)
    · exact .inl (.inl member)
    · exact .inl (.inr member)
    · exact .inr type

theorem Spec.mem_declared_of_handler {spec : Spec} (kind : HandlerKind) {name : String}
    (member : name ∈ (spec.handlers kind).names) : name ∈ spec.declared :=
  mem_declared.mpr (.inl ⟨kind, member⟩)

theorem Spec.mem_declared_of_type {spec : Spec} {name : String}
    (member : name ∈ spec.customTypes.names) : name ∈ spec.declared :=
  mem_declared.mpr (.inr member)

namespace Plan

variable {spec : Spec} {policy : WritePolicy} {path other : Path}

theorem declarationPath_eq (kind : HandlerKind) {name : String} (whole : '/' ∉ name.toList) :
    declarationPath kind name = ⟨.relative, [kind.package, name ++ ".go"]⟩ :=
  (plainName_append whole plainName_go).inDirectory [kind.package]

theorem stubPath_eq (kind : HandlerKind) {name : String} (whole : '/' ∉ name.toList) :
    stubPath kind name = ⟨.relative, [kind.package, name ++ "_run.go"]⟩ :=
  (plainName_append whole plainName_run_go).inDirectory [kind.package]

theorem routePath_eq {name : String} (whole : '/' ∉ name.toList) :
    routePath name = ⟨.relative, ["server", "http", name ++ ".go"]⟩ :=
  (plainName_append whole plainName_go).inDirectory ["server", "http"]

theorem typePath_eq {name : String} (whole : '/' ∉ name.toList) :
    typePath name = ⟨.relative, ["types", name ++ ".go"]⟩ :=
  (plainName_append whole plainName_go).inDirectory ["types"]

def fixedParts : List String :=
  ["actions", "triggers", "connection", "connection.go", "connect.go", "cache.go", "cmd", "main.go",
   "server", "http", "server.go", "types", "Dockerfile", "Makefile", vendorDirectory, ".gitkeep",
   specCopy]

theorem Listed.forall_parts {P : String → Prop} (slashless : spec.Slashless)
    (listed : Listed spec policy path) (fixed : ∀ part ∈ fixedParts, P part)
    (named : ∀ name ∈ spec.declared, P (name ++ ".go") ∧ P (name ++ "_run.go")) :
    ∀ part ∈ path.parts, P part := by
  have package (kind : HandlerKind) : P kind.package := by
    cases kind <;> exact fixed _ (by decide)
  cases listed with
  | @declaration kind name member =>
    have declared := Spec.mem_declared_of_handler kind member
    rw [declarationPath_eq _ (slashless name declared)]
    simp [package, named name declared]
  | @stub kind name member =>
    have declared := Spec.mem_declared_of_handler kind member
    rw [stubPath_eq _ (slashless name declared)]
    simp [package, named name declared]
  | @route name member =>
    have declared := Spec.mem_declared_of_handler .action member
    rw [routePath_eq (slashless name declared)]
    simp [named name declared, fixed "server" (by decide), fixed "http" (by decide)]
  | @customType name member =>
    have declared := Spec.mem_declared_of_type member
    rw [typePath_eq (slashless name declared)]
    simp [named name declared, fixed "types" (by decide)]
  | _ => exact fun part member => fixed part (by revert part; decide)

/-- How many parts a path has that starts with a name: directories of a plan hold files only, or
directories only. -/
def partCount (head : String) : Nat :=
  if head = "server" then 3
  else if head ∈ ["actions", "triggers", "connection", "cmd", "types", vendorDirectory] then 2
  else 1

structure Regular (path : Path) : Prop where
  relative : path.root = .relative
  whole : ∀ part ∈ path.parts, '/' ∉ part.toList
  down : ".." ∉ path.parts
  parts : ∃ head rest, path.parts = head :: rest ∧ path.parts.length = partCount head

theorem Listed.partCount (slashless : spec.Slashless) (listed : Listed spec policy path) :
    path.root = .relative ∧
      ∃ head rest, path.parts = head :: rest ∧ path.parts.length = partCount head := by
  cases listed with
  | @declaration kind name member =>
    rw [declarationPath_eq _ (slashless name (Spec.mem_declared_of_handler kind member))]
    cases kind <;> exact ⟨rfl, _, _, rfl, rfl⟩
  | @stub kind name member =>
    rw [stubPath_eq _ (slashless name (Spec.mem_declared_of_handler kind member))]
    cases kind <;> exact ⟨rfl, _, _, rfl, rfl⟩
  | @route name member =>
    rw [routePath_eq (slashless name (Spec.mem_declared_of_handler .action member))]
    exact ⟨rfl, _, _, rfl, rfl⟩
  | @customType name member =>
    rw [typePath_eq (slashless name (Spec.mem_declared_of_type member))]
    exact ⟨rfl, _, _, rfl, rfl⟩
  | _ => exact ⟨rfl, _, _, rfl, by decide⟩

theorem Listed.regular (slashless : spec.Slashless) (listed : Listed spec policy path) :
    Regular path := by
  have down : ∀ part ∈ path.parts, part ≠ ".." :=
    listed.forall_parts slashless (by decide) fun name member =>
      ⟨(plainName_append (slashless name member) plainName_go).ne_up,
        (plainName_append (slashless name member) plainName_run_go).ne_up⟩
  have whole : ∀ part ∈ path.parts, '/' ∉ part.toList :=
    listed.forall_parts slashless (by decide) fun name member =>
      ⟨(plainName_append (slashless name member) plainName_go).whole,
        (plainName_append (slashless name member) plainName_run_go).whole⟩
  obtain ⟨relative, parts⟩ := listed.partCount slashless
  exact ⟨relative, whole, fun member => down _ member rfl, parts⟩

theorem Regular.eq_of_prefix (first : Regular path) (second : Regular other)
    (inside : path.parts <+: other.parts) : path = other := by
  obtain ⟨head, rest, parts, count⟩ := first.parts
  obtain ⟨head', rest', parts', count'⟩ := second.parts
  have same : head = head' := by
    rw [parts, parts', List.cons_prefix_cons] at inside
    exact inside.1
  have equal : path.parts = other.parts := inside.eq_of_length (by rw [count, count', same])
  have roots : path.root = other.root := first.relative.trans second.relative.symm
  cases path
  cases other
  cases equal
  cases roots
  rfl

end Plan

end PluginCompiler
