import PluginCompiler.Proofs.Section.Order

/-! Values that may fail, section by section. A traversal gives a value for every entry or ends with
the failure of the first entry that has one. -/

set_option autoImplicit false

namespace PluginCompiler

variable {α β γ ε : Type}

def failure? : Except ε α → Option ε
  | .error e => some e
  | .ok _ => none

@[simp] theorem failure?_error (e : ε) : failure? (.error e : Except ε α) = some e := rfl

@[simp] theorem failure?_ok (a : α) : failure? (.ok a : Except ε α) = none := rfl

theorem failure?_eq_some {x : Except ε α} {e : ε} : failure? x = some e ↔ x = .error e := by
  cases x <;> simp

theorem failure?_eq_none {x : Except ε α} : failure? x = none ↔ ∃ a, x = .ok a := by
  cases x <;> simp

section
variable {x : Except ε α} {b : β} {e : ε}

theorem map_eq_ok {f : α → β} (mapped : x.map f = .ok b) : ∃ a, x = .ok a ∧ f a = b := by
  cases x with
  | error e => cases mapped
  | ok a =>
    cases mapped
    exact ⟨a, rfl, rfl⟩

theorem map_eq_error {f : α → β} (mapped : x.map f = .error e) : x = .error e := by
  cases x with
  | error e' =>
    cases mapped
    rfl
  | ok a => cases mapped

theorem bind_eq_ok {f : α → Except ε β} (run : x >>= f = .ok b) : ∃ a, x = .ok a ∧ f a = .ok b := by
  cases x with
  | error e => cases run
  | ok a => exact ⟨a, rfl, run⟩

theorem bind_eq_error {f : α → Except ε β} (run : x >>= f = .error e) :
    x = .error e ∨ ∃ a, x = .ok a ∧ f a = .error e := by
  cases x with
  | error e' =>
    cases run
    exact .inl rfl
  | ok a => exact .inr ⟨a, rfl, run⟩

end

namespace Section

theorem traverseList_eq_ok {f : String → α → Except ε β} {entries : List (String × α)}
    {done : List (String × β)} :
    traverseList f entries = .ok done ↔ Along (fun name a b => f name a = .ok b) entries done := by
  induction entries generalizing done with
  | nil => cases done <;> simp [traverseList, Along]
  | cons e rest ih =>
    obtain ⟨name, value⟩ := e
    rw [traverseList]
    constructor
    · intro ok
      split at ok
      · cases ok
      · next b first =>
        split at ok
        · cases ok
        · next restDone restOk =>
          cases ok
          exact .cons ⟨rfl, first⟩ (ih.mp restOk)
    · intro along
      cases along with
      | @cons _ d _ others first rest =>
        obtain ⟨other, b⟩ := d
        obtain ⟨rfl, ok⟩ : name = other ∧ f name value = .ok b := first
        rw [ok, ih.mpr rest]

theorem traverse_eq_ok {f : String → α → Except ε β} {s : Section α} {t : Section β} :
    s.traverse f = .ok t ↔ Along (fun name a b => f name a = .ok b) s.entries t.entries :=
  traverse_ok.trans traverseList_eq_ok

theorem failure?_traverseList (f : String → α → Except ε β) (entries : List (String × α)) :
    failure? (traverseList f entries) = entries.findSome? fun e => failure? (f e.1 e.2) := by
  induction entries with
  | nil => rfl
  | cons e rest ih =>
    obtain ⟨name, value⟩ := e
    rw [List.findSome?_cons, ← ih, traverseList]
    cases f name value with
    | error failure => rfl
    | ok b => cases traverseList f rest <;> rfl

theorem failure?_traverse (f : String → α → Except ε β) (s : Section α) :
    failure? (s.traverse f) = s.entries.findSome? fun e => failure? (f e.1 e.2) := by
  rw [← failure?_traverseList]
  cases ended : s.traverse f with
  | error e => rw [traverse_error.mp ended]; rfl
  | ok t => rw [traverse_ok.mp ended]; rfl

theorem traverseList_congr {f : String → α → Except ε γ} {g : String → β → Except ε γ}
    {entries : List (String × α)} {others : List (String × β)}
    (agree : Along (fun name a b => f name a = g name b) entries others) :
    traverseList f entries = traverseList g others := by
  induction agree with
  | nil => rfl
  | @cons d e _ _ first _ ih =>
    obtain ⟨name, a⟩ := d
    obtain ⟨other, b⟩ := e
    obtain ⟨rfl, same⟩ : name = other ∧ f name a = g name b := first
    rw [traverseList, traverseList, same, ih]

theorem traverse_congr {f : String → α → Except ε γ} {g : String → β → Except ε γ} {s : Section α}
    {t : Section β} (agree : Along (fun name a b => f name a = g name b) s.entries t.entries) :
    s.traverse f = t.traverse g := by
  have lists := traverseList_congr agree
  cases ended : t.traverse g with
  | error e => exact traverse_error.mpr (lists.trans (traverse_error.mp ended))
  | ok u => exact traverse_ok.mpr (lists.trans (traverse_ok.mp ended))

end Section

end PluginCompiler
