import PluginCompiler.Value.Basic

/-! What the parts of a spec's document are read as. A section that is there but null is taken for an
empty one, which is a list or a mapping; for other parts null means something else, or is a fault. -/

set_option autoImplicit false

namespace PluginCompiler

inductive Role where
  | spec
  | tags
  | parameters
  | parameter
  | enum
  | types
  | handlers
  | handler
  | http
  | customTypes
  | customType
  /-- The parameters of a custom type that the document gives as a whole; they may not be null. -/
  | fields
  | sortedFields
  /-- Keys, and everything that has no sections in it. -/
  | other
  deriving DecidableEq, Repr

namespace Role

def fieldsOf : Role → List (String × Role)
  | spec =>
    [("tags", tags), ("connection", parameters), ("types", types), ("raw_types", types),
     ("actions", handlers), ("triggers", handlers), ("http", http), ("custom_types", customTypes)]
  | parameter => [("enum", enum)]
  | handler => [("input", parameters), ("output", parameters)]
  | customType => [("fields", fields), ("sorted_fields", sortedFields)]
  | _ => []

/-- What the value under a key is read as. Sections read all their values alike, and records by the name
that the key is, if it is a text. -/
def entry (r : Role) (name : Option String) : Role :=
  match r with
  | parameters | fields => parameter
  | types => parameters
  | handlers => handler
  | customTypes => customType
  | r => (name.bind fun n => r.fieldsOf.lookup n).getD other

def item : Role → Role
  | sortedFields => parameter
  | _ => other

@[simp] theorem entry_other (name : Option String) : entry other name = other := by
  cases name <;> rfl

end Role

inductive Hollow where
  | list
  | map
  deriving DecidableEq, Repr

def Hollow.value : Hollow → Value
  | list => .list []
  | map => .map []

/-- The collection that null is taken for. -/
def Role.hollow? : Role → Option Hollow
  | tags | enum => some .list
  | parameters | types | handlers | http => some .map
  | _ => none

end PluginCompiler
