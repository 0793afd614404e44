/-! Sections of a spec: entries with distinct names in a fixed order. -/

set_option autoImplicit false

namespace PluginCompiler

variable {α β ε : Type}

structure Section (α : Type) where
  entries : List (String × α)
  distinct : (entries.map (·.1)).Nodup

namespace Section

def empty : Section α := ⟨[], List.nodup_nil⟩

instance : Inhabited (Section α) := ⟨empty⟩

def names (s : Section α) : List String := s.entries.map (·.1)

def values (s : Section α) : List α := s.entries.map (·.2)

def size (s : Section α) : Nat := s.entries.length

def isEmpty (s : Section α) : Bool := s.entries.isEmpty

def find? (s : Section α) (name : String) : Option α := s.entries.lookup name

theorem ext_entries {s t : Section α} (same : s.entries = t.entries) : s = t := by
  cases s; cases t; cases same; rfl

/-- A name that is there keeps its place and takes the new value. -/
def put (name : String) (value : α) : List (String × α) → List (String × α)
  | [] => [(name, value)]
  | (n, v) :: rest => if n = name then (n, value) :: rest else (n, v) :: put name value rest

theorem names_put (name : String) (value : α) (entries : List (String × α)) :
    (put name value entries).map (·.1) =
      if name ∈ entries.map (·.1) then entries.map (·.1) else entries.map (·.1) ++ [name] := by
  induction entries with
  | nil => simp [put]
  | cons e rest ih =>
    rw [put]
    by_cases same : e.1 = name
    · simp [same]
    · have other : ¬ name = e.1 := fun h => same h.symm
      simp only [same, ↓reduceIte, List.map_cons, ih, List.mem_cons, other, false_or]
      split <;> simp

def insert (s : Section α) (name : String) (value : α) : Section α where
  entries := put name value s.entries
  distinct := by
    rw [names_put]
    split
    · exact s.distinct
    · next fresh =>
      rw [List.nodup_append]
      refine ⟨s.distinct, by simp, ?_⟩
      intro a ha b hb same
      simp only [List.mem_singleton] at hb
      exact fresh (hb ▸ same ▸ ha)

/-- Later entries of a repeated name win. -/
def ofList (entries : List (String × α)) : Section α :=
  entries.foldl (fun s e => s.insert e.1 e.2) empty

def mapEntries (f : String → α → β) (s : Section α) : Section β where
  entries := s.entries.map fun e => (e.1, f e.1 e.2)
  distinct := by simpa [List.map_map, Function.comp_def] using s.distinct

def traverseList (f : String → α → Except ε β) : List (String × α) → Except ε (List (String × β))
  | [] => .ok []
  | (name, value) :: rest =>
    match f name value with
    | .error e => .error e
    | .ok b =>
      match traverseList f rest with
      | .error e => .error e
      | .ok done => .ok ((name, b) :: done)

theorem names_traverseList {f : String → α → Except ε β} {entries : List (String × α)}
    {done : List (String × β)} (ok : traverseList f entries = .ok done) :
    done.map (·.1) = entries.map (·.1) := by
  induction entries generalizing done with
  | nil => simp only [traverseList, Except.ok.injEq] at ok; subst ok; rfl
  | cons e rest ih =>
    obtain ⟨name, value⟩ := e
    rw [traverseList] at ok
    split at ok
    · cases ok
    · split at ok
      · cases ok
      · next restOk =>
        cases ok
        simp [ih restOk]

def traverse (f : String → α → Except ε β) (s : Section α) : Except ε (Section β) :=
  match h : traverseList f s.entries with
  | .error e => .error e
  | .ok done => .ok ⟨done, by rw [names_traverseList h]; exact s.distinct⟩

theorem traverse_ok {f : String → α → Except ε β} {s : Section α} {t : Section β} :
    s.traverse f = .ok t ↔ traverseList f s.entries = .ok t.entries := by
  unfold traverse
  split
  · next e h => simp [h]
  · next done h =>
    constructor
    · intro same; cases same; exact h
    · intro same
      exact congrArg Except.ok (ext_entries (Except.ok.inj (h.symm.trans same)))

theorem traverse_error {f : String → α → Except ε β} {s : Section α} {e : ε} :
    s.traverse f = .error e ↔ traverseList f s.entries = .error e := by
  unfold traverse
  split
  · next d h => simp [h]
  · next done h => simp [h]

def place (e : String × α) : List (String × α) → List (String × α)
  | [] => [e]
  | d :: rest => if e.1 ≤ d.1 then e :: d :: rest else d :: place e rest

def arrange (entries : List (String × α)) : List (String × α) :=
  entries.foldr place []

theorem place_perm (e : String × α) (entries : List (String × α)) :
    (place e entries).Perm (e :: entries) := by
  induction entries with
  | nil => exact .refl _
  | cons d rest ih =>
    rw [place]
    split
    · exact .refl _
    · exact (ih.cons d).trans (.swap e d rest)

theorem arrange_perm (entries : List (String × α)) : (arrange entries).Perm entries := by
  induction entries with
  | nil => exact .refl _
  | cons e rest ih => exact (place_perm e _).trans (ih.cons e)

def sorted (s : Section α) : Section α where
  entries := arrange s.entries
  distinct := ((arrange_perm s.entries).map (·.1)).nodup_iff.2 s.distinct

end Section

end PluginCompiler
