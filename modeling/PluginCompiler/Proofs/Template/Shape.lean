import PluginCompiler.Proofs.Template.Pieces
import Mathlib.Data.List.Forall2

/-! What a template is filled in with, by the shapes of the data, and a check of its body against them
that looks into every branch, loop and macro. A body that passes gives a text wherever the data have
their shapes, unless it writes a number that has too many digits. -/

set_option autoImplicit false

namespace PluginCompiler

namespace Template

inductive Shape where
  | text
  | optional
  | truth
  | number
  | data
  | list (item : Shape)
  | members (item : Shape)
  | spec
  | http
  | handler
  | type
  | parameter
  | literal
  | loop
  deriving DecidableEq, Repr

abbrev Sketch := List (String × Shape)

def Shape.fields : Shape → Sketch
  | spec =>
    [("name", text), ("package_root", text), ("version", optional), ("vendor", optional), ("http", http),
     ("connection", members parameter), ("actions", members handler), ("triggers", members handler),
     ("connection_data_key", text), ("custom_types", members type),
     ("raw_types", members (members parameter)), ("plugin_spec_version", optional), ("title", optional),
     ("description", optional), ("tags", list text), ("icon", optional), ("help", optional),
     ("spec_location", text)]
  | http => [("port", number), ("read_timeout", number), ("write_timeout", number)]
  | handler =>
    [("raw_name", text), ("name", text), ("title", optional), ("description", optional),
     ("input", members parameter), ("output", members parameter), ("package_root", text)]
  | type =>
    [("raw_name", text), ("name", text), ("fields", members parameter), ("sorted_fields", list parameter)]
  | parameter =>
    [("raw_name", text), ("name", text), ("type", text), ("internal_type", text), ("title", optional),
     ("required", truth), ("description", optional), ("enum", list data), ("default", data),
     ("embed", truth), ("nullable", truth), ("enum_literals", list literal)]
  | literal => [("name", text), ("literal_value", text)]
  | loop => [("first", truth)]
  | _ => []

inductive Datum.Has : Datum → Shape → Prop where
  | text (s : String) : Has (.text s) .text
  | optional (s : Option String) : Has (.optional s) .optional
  | truth (b : Bool) : Has (.truth b) .truth
  | number (n : Int) : Has (.number n) .number
  | data (v : Value) : Has (.value v) .data
  | list {ds : List Datum} {a : Shape} (all : ∀ d ∈ ds, Has d a) : Has (.list ds) (.list a)
  | members {es : List (String × Datum)} {a : Shape} (all : ∀ e ∈ es, Has e.2 a) :
      Has (.members es) (.members a)
  | spec (s : Spec) : Has (.spec s) .spec
  | http (h : HttpSettings) : Has (.http h) .http
  | handler (h : Handler) : Has (.handler h) .handler
  | type (t : CustomType) : Has (.type t) .type
  | parameter (p : Parameter) : Has (.parameter p) .parameter
  | literal (l : EnumLiteral) : Has (.literal l) .literal
  | loop (isFirst : Bool) : Has (.loop isFirst) .loop

def Shape.written (numbers : Bool) : Shape → Bool
  | text => true
  | number => numbers
  | _ => false

def Filter.shape : Filter → Shape → Option Shape
  | comment, .text | comment, .optional | quote, .text | quote, .optional | constant, .text => some .text
  | list, .list a => some (.list a)
  | having field, .list a | equal field _, .list a => (a.fields.lookup field).map fun _ => .list a
  | _, _ => none

section
variable (numbers : Bool) (takes : Macro → List Shape → Bool)

/-- The shape of what an expression stands for; none if it reads a name that is not there, or computes
with data of another shape. -/
def Expr.shape (Γ : Sketch) : Expr → Option Shape
  | var x => Γ.lookup x
  | quoted _ => some .text
  | field e name => do (← e.shape Γ).fields.lookup name
  | values e =>
    match e.shape Γ with
    | some (.members a) => some (.list a)
    | _ => none
  | filter f e => do f.shape (← e.shape Γ)
  | or a b =>
    match a.shape Γ, b.shape Γ with
    | some .text, some .text | some .optional, some .text => some .text
    | _, _ => none
  | not e => (e.shape Γ).map fun _ => .truth
  | plus a b =>
    match a.shape Γ, b.shape Γ with
    | some (.list c), some (.list d) => if c = d then some (.list c) else none
    | _, _ => none
  | joined a b =>
    match a.shape Γ, b.shape Γ with
    | some .text, some .text => some .text
    | _, _ => none
  | single e => (e.shape Γ).map .list
  | imports _ parameters root =>
    match parameters.shape Γ, root.shape Γ with
    | some (.list .parameter), some .text => some (.list .text)
    | _, _ => none
  | call m argument => do if takes m [← argument.shape Γ] then some .text else none
  | callWith m first second => do
    if takes m [← first.shape Γ, ← second.shape Γ] then some .text else none

def Body.fits : Sketch → Body → Bool
  | _, done => true
  | Γ, text _ rest => rest.fits Γ
  | Γ, out e rest => (e.shape takes Γ).any (Shape.written numbers) && rest.fits Γ
  | Γ, bind x e rest =>
    match e.shape takes Γ with
    | some a => rest.fits ((x, a) :: Γ)
    | none => false
  | Γ, each x items keep body rest =>
    match items.shape takes Γ with
    | some (.list a) =>
      (keep.all fun e => (e.shape takes ((x, a) :: Γ)).isSome) &&
        body.fits (("loop", .loop) :: (x, a) :: Γ) && rest.fits Γ
    | _ => false
  | Γ, cond test yes no rest =>
    (test.shape takes Γ).isSome && yes.fits Γ && no.fits Γ && rest.fits Γ

end

def Macro.fits (numbers : Bool) (m : Macro) (shapes : List Shape) : Bool :=
  m.body.fits numbers (fun _ _ => false) (m.parameters.zip shapes)

/-- What was asked for, or the fault of a number with too many digits where numbers are written. -/
def Sound (numbers : Bool) {α : Type} (P : α → Prop) : Except Fault α → Prop
  | .ok a => P a
  | .error fault => numbers = true ∧ fault = .digits .writing

variable {numbers : Bool} {α β : Type} {P : α → Prop} {Q : β → Prop}

theorem Sound.bind {x : Except Fault α} {f : α → Except Fault β} (first : Sound numbers P x)
    (next : ∀ a, P a → Sound numbers Q (f a)) : Sound numbers Q (x >>= f) := by
  cases x with
  | ok a => exact next a first
  | error fault => exact first

theorem Sound.mono {R : α → Prop} {x : Except Fault α} (sound : Sound numbers P x)
    (implies : ∀ a, P a → R a) : Sound numbers R x := by
  cases x with
  | ok a => exact implies a sound
  | error fault => exact sound

/-- Names and data of a scope, as they are in a sketch. -/
def Fitting : Scope → Sketch → Prop := List.Forall₂ fun x y => x.1 = y.1 ∧ x.2.Has y.2

theorem Fitting.lookup {scope : Scope} {Γ : Sketch} (fitting : Fitting scope Γ) {x : String} {a : Shape}
    (found : Γ.lookup x = some a) : ∃ d, scope.lookup x = some d ∧ d.Has a := by
  induction fitting with
  | nil => cases found
  | @cons d e ds es pair _ ih =>
    obtain ⟨name, own⟩ := d
    obtain ⟨rfl, has⟩ := pair
    rw [List.lookup_cons] at found ⊢
    split at found <;> simp_all

theorem Fitting.extend {scope : Scope} {Γ : Sketch} {d : Datum} {a : Shape} (fitting : Fitting scope Γ)
    (x : String) (has : d.Has a) : Fitting ((x, d) :: scope) ((x, a) :: Γ) :=
  .cons ⟨rfl, has⟩ fitting

theorem Fitting.of_zip {names : List String} {ds : List Datum} {as : List Shape}
    (fitting : List.Forall₂ Datum.Has ds as) : Fitting (names.zip ds) (names.zip as) := by
  induction fitting generalizing names with
  | nil => cases names <;> exact .nil
  | cons has _ ih =>
    cases names with
    | nil => exact .nil
    | cons name names => exact .cons ⟨rfl, has⟩ ih

theorem Datum.has_ofSection {wrap : α → Datum} {a : Shape} (each : ∀ x, (wrap x).Has a) (s : Section α) :
    (Datum.ofSection wrap s).Has (.members a) := by
  refine .members fun e member => ?_
  obtain ⟨entry, _, rfl⟩ := List.mem_map.mp member
  exact each entry.2

theorem Datum.has_list {wrap : α → Datum} {a : Shape} (each : ∀ x, (wrap x).Has a) (xs : List α) :
    (Datum.list (xs.map wrap)).Has (.list a) := by
  refine .list fun d member => ?_
  obtain ⟨x, _, rfl⟩ := List.mem_map.mp member
  exact each x

theorem Datum.Has.fields {d : Datum} {a : Shape} (has : d.Has a) : Fitting d.fields a.fields := by
  have section_ (s : Section Parameter) : (Datum.ofSection .parameter s).Has (.members .parameter) :=
    has_ofSection .parameter s
  cases has with
  | text s | truth b | number n | data v | list all | members all => exact .nil
  | optional s => cases s <;> exact .nil
  | spec s =>
    simp [Fitting, Datum.fields, Shape.fields, text, optional, http, section_, has_ofSection handler,
      has_ofSection type, has_ofSection section_, has_list text]
  | http h => simp [Fitting, Datum.fields, Shape.fields, number]
  | handler h => simp [Fitting, Datum.fields, Shape.fields, text, optional, section_]
  | type t => simp [Fitting, Datum.fields, Shape.fields, text, section_, has_list parameter]
  | parameter p =>
    simp [Fitting, Datum.fields, Shape.fields, text, optional, truth, data, has_list data, has_list literal]
  | literal l => simp [Fitting, Datum.fields, Shape.fields, text]
  | loop isFirst => simp [Fitting, Datum.fields, Shape.fields, truth]

theorem Datum.Has.field {d : Datum} {a b : Shape} {name : String} (has : d.Has a)
    (known : a.fields.lookup name = some b) : ∃ e, d.field name = .ok e ∧ e.Has b := by
  obtain ⟨e, found, own⟩ := has.fields.lookup known
  exact ⟨e, by rw [Datum.field, found], own⟩

theorem Datum.Has.of_members {d : Datum} {a : Shape} (has : d.Has (.members a)) :
    ∃ es, d = .members es ∧ ∀ e ∈ es, e.2.Has a := by
  cases has with
  | members all => exact ⟨_, rfl, all⟩

theorem Datum.Has.of_list {d : Datum} {a : Shape} (has : d.Has (.list a)) :
    ∃ ds, d = .list ds ∧ ∀ e ∈ ds, e.Has a := by
  cases has with
  | list all => exact ⟨_, rfl, all⟩

theorem Datum.Has.of_parameters {d : Datum} (has : d.Has (.list .parameter)) :
    ∃ ps : List Parameter, d = .list (ps.map .parameter) := by
  obtain ⟨ds, rfl, all⟩ := has.of_list
  suffices ∃ ps : List Parameter, ds = ps.map .parameter by
    obtain ⟨ps, rfl⟩ := this
    exact ⟨ps, rfl⟩
  clear has
  induction ds with
  | nil => exact ⟨[], rfl⟩
  | cons d ds ih =>
    have rest := fun e member => all e (List.mem_cons_of_mem d member)
    obtain ⟨ps, rfl⟩ := ih rest
    cases all d List.mem_cons_self with
    | parameter p => exact ⟨p :: ps, rfl⟩

theorem Datum.Has.of_joined {ds es : List Datum} {a : Shape} (first : (Datum.list ds).Has (.list a))
    (second : (Datum.list es).Has (.list a)) : (Datum.list (ds ++ es)).Has (.list a) := by
  obtain ⟨ds', same, all⟩ := first.of_list
  obtain ⟨es', same', more⟩ := second.of_list
  cases same
  cases same'
  exact .list fun f member => (List.mem_append.mp member).elim (all f) (more f)

theorem Datum.has_list_snd {es : List (String × Datum)} {a : Shape} (all : ∀ e ∈ es, e.2.Has a) :
    (Datum.list (es.map Prod.snd)).Has (.list a) := by
  refine .list fun d member => ?_
  obtain ⟨entry, inside, rfl⟩ := List.mem_map.mp member
  exact all entry inside

theorem Datum.Has.of_text {d : Datum} (has : d.Has .text) : ∃ s, d = .text s := by
  cases has with
  | text s => exact ⟨s, rfl⟩

theorem Datum.Has.of_optional {d : Datum} (has : d.Has .optional) : ∃ s, d = .optional s := by
  cases has with
  | optional s => exact ⟨s, rfl⟩

theorem Datum.Has.written {d : Datum} {a : Shape} (has : d.Has a) (plain : a.written numbers) :
    Sound numbers (fun _ => True) d.written := by
  cases has with
  | text s => trivial
  | number n =>
    simp only [Datum.number, Datum.written]
    split
    · trivial
    · exact ⟨plain, rfl⟩
  | _ => cases plain

theorem filterM_field {ds : List Datum} {a b : Shape} {name : String} (all : ∀ d ∈ ds, d.Has a)
    (known : a.fields.lookup name = some b) (test : Datum → Bool) :
    ∃ es, ds.filterM (fun d => do return test (← d.field name)) = .ok es ∧ ∀ e ∈ es, e.Has a := by
  let tested (d : Datum) : Bool := (d.fields.lookup name).any test
  have kept : ∀ d ∈ ds, (do return test (← d.field name)) = (.ok (tested d) : Except Fault Bool) := by
    intro d member
    obtain ⟨e, found, _⟩ := (all d member).fields.lookup known
    simp only [Datum.field, tested, found, Option.any_some]
    rfl
  exact ⟨_, filterM_ok kept, fun e member => all e (List.mem_of_mem_filter member)⟩

theorem exists_mapM_textUnder (isInternal : Bool) (ps : List Parameter) :
    ∃ types, (ps.map Datum.parameter).mapM
      (Datum.textUnder (if isInternal then "internal_type" else "type")) = .ok types := by
  rw [List.mapM_map]
  cases isInternal
  · exact ⟨_, mapM_type ps⟩
  · exact ⟨_, mapM_internalType ps⟩

theorem Filter.apply_sound {f : Filter} {d : Datum} {a b : Shape} (has : d.Has a)
    (known : f.shape a = some b) : ∃ e, f.apply d = .ok e ∧ e.Has b := by
  cases f with
  | comment =>
    cases has with
    | text s => cases known; exact ⟨_, rfl, .text _⟩
    | optional s => cases known; exact ⟨_, comment_optional s, .text _⟩
    | _ => cases known
  | quote =>
    cases has with
    | text s => cases known; exact ⟨_, rfl, .text _⟩
    | optional s => cases known; exact ⟨_, quote_optional s, .text _⟩
    | _ => cases known
  | constant =>
    cases has with
    | text s => cases known; exact ⟨_, rfl, .text _⟩
    | _ => cases known
  | list =>
    cases has with
    | list all => cases known; exact ⟨_, rfl, .list all⟩
    | _ => cases known
  | having field =>
    cases has with
    | @list ds a all =>
      obtain ⟨c, found, rfl⟩ := Option.map_eq_some_iff.mp known
      obtain ⟨es, picked, own⟩ := filterM_field all found Datum.isTrue
      refine ⟨.list es, ?_, .list own⟩
      simp only [apply, items_list, ok_bind, picked]
      rfl
    | _ => cases known
  | equal field text =>
    cases has with
    | @list ds a all =>
      obtain ⟨c, found, rfl⟩ := Option.map_eq_some_iff.mp known
      obtain ⟨es, picked, own⟩ := filterM_field all found (Datum.isText text)
      refine ⟨.list es, ?_, .list own⟩
      simp only [apply, items_list, ok_bind, picked]
      rfl
    | _ => cases known

/-- Macros give texts wherever they are said to take the shapes of their arguments. -/
def Agreeing (numbers : Bool) (takes : Macro → List Shape → Bool) (calls : Calls) : Prop :=
  ∀ m {ds as}, List.Forall₂ Datum.Has ds as → takes m as = true → Sound numbers (fun _ => True) (calls m ds)

section
variable {calls : Calls} {takes : Macro → List Shape → Bool} {scope : Scope} {Γ : Sketch}

theorem Expr.eval_sound (agree : Agreeing numbers takes calls) (fitting : Fitting scope Γ) {e : Expr}
    {a : Shape} (known : e.shape takes Γ = some a) : Sound numbers (·.Has a) (e.eval calls scope) := by
  -- The scope is the same for all parts of an expression, so only the shape is generalized.
  induction e generalizing a with
  | var x =>
    obtain ⟨d, found, has⟩ := fitting.lookup known
    rw [eval, found]
    exact has
  | quoted s =>
    cases known
    exact .text s
  | field e name ih =>
    obtain ⟨b, own, found⟩ := Option.bind_eq_some_iff.mp known
    refine (ih own).bind fun d has => ?_
    obtain ⟨f, read, fits⟩ := has.field found
    rw [read]
    exact fits
  | values e ih =>
    simp only [shape] at known
    split at known
    next b own =>
      cases known
      refine (ih own).bind fun d has => ?_
      obtain ⟨es, rfl, all⟩ := has.of_members
      exact Datum.has_list_snd all
    · cases known
  | filter f e ih =>
    obtain ⟨b, own, fits⟩ := Option.bind_eq_some_iff.mp known
    refine (ih own).bind fun d has => ?_
    obtain ⟨f, applied, result⟩ := Filter.apply_sound has fits
    rw [applied]
    exact result
  | or a b iha ihb =>
    simp only [shape] at known
    split at known
    next first second =>
      cases known
      refine (iha first).bind fun d has => ?_
      split
      · exact has
      · exact ihb second
    next first second =>
      cases known
      refine (iha first).bind fun d has => ?_
      obtain ⟨s, rfl⟩ := has.of_optional
      cases s with
      | none => exact ihb second
      | some s =>
        split
        · exact .text s
        · exact ihb second
    · cases known
  | not e ih =>
    obtain ⟨b, own, rfl⟩ := Option.map_eq_some_iff.mp known
    exact (ih own).bind fun d _ => .truth _
  | plus a b iha ihb =>
    simp only [shape] at known
    split at known
    next c d first second =>
      obtain ⟨rfl, same⟩ := Option.ite_none_right_eq_some.mp known
      cases same
      refine (iha first).bind fun d has => (ihb second).bind fun e own => ?_
      obtain ⟨ds, rfl, _⟩ := has.of_list
      obtain ⟨es, rfl, _⟩ := own.of_list
      exact has.of_joined own
    · cases known
  | joined a b iha ihb =>
    simp only [shape] at known
    split at known
    next first second =>
      cases known
      refine (iha first).bind fun d has => (ihb second).bind fun f own => ?_
      obtain ⟨s, rfl⟩ := has.of_text
      obtain ⟨r, rfl⟩ := own.of_text
      exact .text _
    · cases known
  | single e ih =>
    obtain ⟨b, own, rfl⟩ := Option.map_eq_some_iff.mp known
    refine (ih own).bind fun d has => .list fun f member => ?_
    rw [List.mem_singleton.mp member]
    exact has
  | imports isInternal parameters root ihp ihr =>
    simp only [shape] at known
    split at known
    next first second =>
      cases known
      refine (ihp first).bind fun d has => ?_
      obtain ⟨ps, rfl⟩ := has.of_parameters
      refine (ihr second).bind fun r own => ?_
      obtain ⟨s, rfl⟩ := own.of_text
      obtain ⟨types, typed⟩ := exists_mapM_textUnder isInternal ps
      simp only [textOf_text, ok_bind, typed]
      exact Datum.has_list .text _
    · cases known
  | call m argument ih =>
    obtain ⟨b, own, accepted⟩ := Option.bind_eq_some_iff.mp known
    obtain ⟨takes, same⟩ := Option.ite_none_right_eq_some.mp accepted
    cases same
    refine (ih own).bind fun d has => ?_
    exact (agree _ (.cons has .nil) takes).bind fun s _ => .text s
  | callWith m first second ih ih2 =>
    obtain ⟨b, own, rest⟩ := Option.bind_eq_some_iff.mp known
    obtain ⟨c, other, accepted⟩ := Option.bind_eq_some_iff.mp rest
    obtain ⟨takes, same⟩ := Option.ite_none_right_eq_some.mp accepted
    cases same
    refine (ih own).bind fun d has => (ih2 other).bind fun e fits => ?_
    exact (agree _ (.cons has (.cons fits .nil)) takes).bind fun s _ => .text s

theorem Expr.test_sound (agree : Agreeing numbers takes calls) (fitting : Fitting scope Γ) {e : Expr}
    (known : (e.shape takes Γ).isSome = true) :
    Sound numbers (fun _ => True) ((e.eval calls scope).map Datum.isTrue) := by
  obtain ⟨a, shape⟩ := Option.isSome_iff_exists.mp known
  have sound := eval_sound agree fitting shape
  cases value : e.eval calls scope with
  | ok d => trivial
  | error fault => rwa [value] at sound

theorem eachText_sound {keep : Datum → Except Fault Bool} {render : Bool → Datum → Except Fault String}
    {ds : List Datum} (kept : ∀ d ∈ ds, Sound numbers (fun _ => True) (keep d))
    (writes : ∀ isFirst, ∀ d ∈ ds, Sound numbers (fun _ => True) (render isFirst d)) (isFirst : Bool) :
    Sound numbers (fun _ => True) (eachText keep render isFirst ds) := by
  induction ds generalizing isFirst with
  | nil => trivial
  | cons d ds ih =>
    have rest := ih (fun e member => kept e (List.mem_cons_of_mem d member))
      fun isFirst e member => writes isFirst e (List.mem_cons_of_mem d member)
    refine (kept d List.mem_cons_self).bind fun keeps _ => ?_
    cases keeps with
    | false => exact rest isFirst
    | true =>
      exact (writes isFirst d List.mem_cons_self).bind fun s _ => (rest false).bind fun _ _ => trivial

theorem Body.render_sound (agree : Agreeing numbers takes calls) (fitting : Fitting scope Γ) {b : Body}
    (fits : b.fits numbers takes Γ = true) : Sound numbers (fun _ => True) (b.render calls scope) := by
  -- A loop and a binding run their bodies in a longer scope.
  induction b generalizing scope Γ with
  | done => trivial
  | text s rest ih => exact (ih fitting fits).bind fun _ _ => trivial
  | out e rest ih =>
    obtain ⟨first, second⟩ := (Bool.and_eq_true ..).mp fits
    obtain ⟨a, known, plain⟩ := (Option.any_eq_true _ _).mp first
    refine (Expr.eval_sound agree fitting known).bind fun d has => (has.written plain).bind fun s _ => ?_
    exact (ih fitting second).bind fun _ _ => trivial
  | bind x e rest ih =>
    simp only [Body.fits] at fits
    split at fits
    next a known =>
      exact (Expr.eval_sound agree fitting known).bind fun d has => ih (fitting.extend x has) fits
    · cases fits
  | each x items keep body rest ihb ihr =>
    simp only [Body.fits] at fits
    split at fits
    next a known =>
      obtain ⟨front, last⟩ := (Bool.and_eq_true ..).mp fits
      obtain ⟨tested, inner⟩ := (Bool.and_eq_true ..).mp front
      refine (Expr.eval_sound agree fitting known).bind fun d has => ?_
      obtain ⟨ds, rfl, all⟩ := has.of_list
      simp only [items_list, ok_bind]
      refine Sound.bind (P := fun _ => True)
        (eachText_sound (fun d member => ?_) (fun isFirst d member => ?_) true) fun s _ => ?_
      · cases keep with
        | none => trivial
        | some e => exact Expr.test_sound agree (fitting.extend x (all d member)) tested
      · exact ihb ((fitting.extend x (all d member)).extend "loop" (.loop isFirst)) inner
      · exact (ihr fitting last).bind fun _ _ => trivial
    · cases fits
  | cond test yes no rest ihy ihn ihr =>
    obtain ⟨front, last⟩ := (Bool.and_eq_true ..).mp fits
    obtain ⟨front, second⟩ := (Bool.and_eq_true ..).mp front
    obtain ⟨tested, first⟩ := (Bool.and_eq_true ..).mp front
    obtain ⟨a, known⟩ := Option.isSome_iff_exists.mp tested
    refine (Expr.eval_sound agree fitting known).bind fun d _ => ?_
    have tail (s : String) : Sound numbers (fun _ => True)
        (do return s ++ (← rest.render calls scope) : Except Fault String) :=
      (ihr fitting last).bind fun _ _ => trivial
    dsimp only
    split
    · exact (ihy fitting first).bind fun s _ => tail s
    · exact (ihn fitting second).bind fun s _ => tail s

end

theorem Macro.call_sound {m : Macro} {ds : List Datum} {as : List Shape}
    (has : List.Forall₂ Datum.Has ds as) (fits : m.fits numbers as = true) :
    Sound numbers (fun _ => True) (Macro.call m ds) := by
  have none : Agreeing numbers (fun _ _ => false) noCalls := fun _ _ _ _ taken => nomatch taken
  exact Body.render_sound none (.of_zip has) fits

end Template

def Context.sketch (c : Context) : Template.Sketch :=
  c.spec.toList.map (fun _ => ("spec", .spec)) ++ c.handler.toList.map (fun _ => ("handler", .handler)) ++
    c.type.toList.map (fun _ => ("type", .type))

/-- The context has all that the template and its macros may ask for, on every branch. Without `numbers`
no number is written either. -/
def Template.fits (numbers : Bool) (t : Template) (c : Context) : Bool :=
  t.body.fits numbers (Macro.fits numbers) c.sketch

namespace Template

variable {numbers : Bool} {t : Template} {c : Context}

theorem fitting_scope (c : Context) : Fitting c.scope c.sketch := by
  cases c with
  | mk spec handler type =>
    cases spec <;> cases handler <;> cases type <;>
      simp [Fitting, Context.scope, Context.sketch, Datum.Has.spec, Datum.Has.handler, Datum.Has.type]

/-- A template whose context has all that it may ask for gives a text, or stops at a number that has too
many digits; without numbers it gives a text. -/
theorem render_sound (fits : t.fits numbers c = true) (path : Option String) :
    (∃ s, t.render c path = .ok s) ∨
      numbers = true ∧ t.render c path = .error (.defect (.digits .writing)) := by
  have agree : Agreeing numbers (Macro.fits numbers) Macro.call := fun _ _ _ => Macro.call_sound
  have sound := Body.render_sound agree (fitting_scope c) fits
  rw [render, renderAs]
  cases rendered : t.body.render Macro.call c.scope with
  | ok s => exact .inl ⟨s, rfl⟩
  | error fault =>
    rw [rendered] at sound
    obtain ⟨written, rfl⟩ := sound
    exact .inr ⟨written, rfl⟩

end Template

end PluginCompiler
