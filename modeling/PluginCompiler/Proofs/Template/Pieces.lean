import PluginCompiler.Proofs.Emit.Layout

/-! The pieces that templates are made of write the lines of the layout: a line at a time, loops over
what their items write, and the macros on what they are called with. -/

set_option autoImplicit false

namespace PluginCompiler

namespace Emit

@[simp] theorem unlines_nil : unlines [] = "" := rfl

theorem unlines_cons (l : String) (ls : List String) : unlines (l :: ls) = l ++ "\n" ++ unlines ls := by
  simp [unlines, String.join_cons]

theorem unlines_append (ls more : List String) : unlines (ls ++ more) = unlines ls ++ unlines more := by
  simp [unlines, String.join_append]

theorem unlines_append_append (ls more : List String) (s : String) :
    unlines ls ++ (unlines more ++ s) = unlines (ls ++ more) ++ s := by
  rw [unlines_append, String.append_assoc]

@[simp] theorem unlines_block (ls : List String) (s : String) :
    unlines [unlines ls ++ s] = unlines (ls ++ [s]) := by
  simp [unlines_cons, unlines_append, String.append_assoc]

@[simp] theorem unlines_blank (ls : List String) : unlines [unlines ls] = unlines (ls ++ [""]) := by
  simp [unlines_cons, unlines_append]

end Emit

namespace Template

open Emit

variable {calls : Calls} {scope : Scope} {α : Type}

@[simp] theorem ok_bind {ε α β : Type} (a : α) (f : α → Except ε β) : (Except.ok a >>= f) = f a := rfl

@[simp] theorem pure_eq_ok {ε α : Type} (a : α) : (pure a : Except ε α) = .ok a := rfl

def Piece.print (calls : Calls) (scope : Scope) : Piece → Except Fault String
  | text s => .ok s
  | out e => do (← e.eval calls scope).written
  | given test s => do return if (← test.eval calls scope).isTrue then s else ""

def print (calls : Calls) (scope : Scope) : List Piece → Except Fault String
  | [] => .ok ""
  | p :: ps => do return (← p.print calls scope) ++ (← print calls scope ps)

theorem render_line (ps : List Piece) (rest : Body) :
    (line ps rest).render calls scope = do
      let s ← print calls scope ps
      return unlines [s] ++ (← rest.render calls scope) := by
  simp only [unlines_cons, unlines_nil, String.append_empty]
  induction ps with
  | nil => simp [line, Body.render, print]
  | cons p ps ih =>
    cases p with
    | text s => simp [line, Body.render, print, Piece.print, ih, String.append_assoc]
    | out e => simp [line, Body.render, print, Piece.print, ih, String.append_assoc]
    | given test s =>
      simp only [line, Body.render, print, Piece.print, ih, bind_assoc, pure_bind]
      refine bind_congr fun d => ?_
      cases d.isTrue <;> simp [String.append_assoc]

theorem print_append (ps qs : List Piece) : print calls scope (ps ++ qs) = do
    return (← print calls scope ps) ++ (← print calls scope qs) := by
  induction ps with
  | nil => simp only [List.nil_append, print, ok_bind, String.empty_append, bind_pure]
  | cons p ps ih =>
    simp only [List.cons_append, print, ih, bind_assoc, pure_bind, String.append_assoc]

theorem render_fixed (ls : List String) (rest : Body) :
    (fixed ls rest).render calls scope = do return unlines ls ++ (← rest.render calls scope) := rfl

theorem eachText_map {keep : Datum → Except Fault Bool} {body : Bool → Datum → Except Fault String}
    {as : List α} {wrap : α → Datum} {p : α → Bool} {lines : α → List String}
    (kept : ∀ a ∈ as, keep (wrap a) = .ok (p a))
    (writes : ∀ isFirst, ∀ a ∈ as, p a = true → body isFirst (wrap a) = .ok (unlines (lines a)))
    (none : ∀ a ∈ as, p a = false → lines a = []) (isFirst : Bool) :
    eachText keep body isFirst (as.map wrap) = .ok (unlines (as.flatMap lines)) := by
  induction as generalizing isFirst with
  | nil => rfl
  | cons a as ih =>
    have rest := ih (fun b member => kept b (List.mem_cons_of_mem a member))
      (fun isFirst b member => writes isFirst b (List.mem_cons_of_mem a member))
      (fun b member => none b (List.mem_cons_of_mem a member))
    rw [List.map_cons, eachText, kept a List.mem_cons_self, List.flatMap_cons, unlines_append]
    cases holds : p a with
    | true => simp [writes isFirst a List.mem_cons_self holds, rest]
    | false => simp [none a List.mem_cons_self holds, rest]

variable {x : String} {items test : Expr} {yes no body rest : Body} {ds : List Datum} {as : List α}
  {wrap : α → Datum} {lines : α → List String} {p : α → Bool}

@[simp] theorem render_done : Body.done.render calls scope = .ok "" := rfl

theorem render_bind {e : Expr} {d : Datum} (value : e.eval calls scope = .ok d) :
    (Body.bind x e rest).render calls scope = rest.render calls ((x, d) :: scope) := by
  rw [Body.render, value, ok_bind]

theorem render_cond : (Body.cond test yes no rest).render calls scope = do
    let s ← if (← test.eval calls scope).isTrue then yes.render calls scope else no.render calls scope
    return s ++ (← rest.render calls scope) := rfl

theorem render_each_texts {s : String} (read : (items.eval calls scope >>= Datum.items) = .ok ds)
    (texts : eachText (fun d => (test.eval calls ((x, d) :: scope)).map Datum.isTrue)
      (fun isFirst d => body.render calls (("loop", .loop isFirst) :: (x, d) :: scope)) true ds = .ok s) :
    (Body.each x items (some test) body rest).render calls scope = do
      return s ++ (← rest.render calls scope) := by
  rw [Body.render, ← bind_assoc, read]
  simp [texts]

theorem render_each_if (read : (items.eval calls scope >>= Datum.items) = .ok (as.map wrap))
    (kept : ∀ a ∈ as, (test.eval calls ((x, wrap a) :: scope)).map Datum.isTrue = .ok (p a))
    (writes : ∀ isFirst, ∀ a ∈ as, p a = true →
      body.render calls (("loop", .loop isFirst) :: (x, wrap a) :: scope) = .ok (unlines (lines a)))
    (none : ∀ a ∈ as, p a = false → lines a = []) :
    (Body.each x items (some test) body rest).render calls scope = do
      return unlines (as.flatMap lines) ++ (← rest.render calls scope) :=
  render_each_texts read (eachText_map kept writes none true)

theorem render_each (read : (items.eval calls scope >>= Datum.items) = .ok (as.map wrap))
    (writes : ∀ isFirst, ∀ a ∈ as,
      body.render calls (("loop", .loop isFirst) :: (x, wrap a) :: scope) = .ok (unlines (lines a))) :
    (Body.each x items none body rest).render calls scope = do
      return unlines (as.flatMap lines) ++ (← rest.render calls scope) := by
  have texts : eachText (fun _ => .ok true)
      (fun isFirst d => body.render calls (("loop", .loop isFirst) :: (x, d) :: scope)) true
      (as.map wrap) = .ok (unlines (as.flatMap lines)) :=
    eachText_map (fun _ _ => rfl) (fun isFirst a member _ => writes isFirst a member) (by simp) true
  rw [Body.render, ← bind_assoc, read]
  simp [texts]

attribute [simp] Expr.eval Piece.print print Datum.field Datum.fields List.lookup_cons

@[simp] theorem eval_of {x name : String} :
    (of x name).eval calls scope = (Expr.var x).eval calls scope >>= (·.field name) := rfl

@[simp] theorem written_text (s : String) : (Datum.text s).written = .ok s := rfl

@[simp] theorem isTrue_text (s : String) : (Datum.text s).isTrue = (s != "") := rfl

@[simp] theorem isTrue_truth (b : Bool) : (Datum.truth b).isTrue = b := rfl

@[simp] theorem textOf_text (s : String) : (Datum.text s).textOf = .ok s := rfl

@[simp] theorem items_list (ds : List Datum) : (Datum.list ds).items = .ok ds := rfl

@[simp] theorem isTrue_list (ds : List Datum) : (Datum.list ds).isTrue = !ds.isEmpty := rfl

@[simp] theorem values_ofSection (wrap : α → Datum) (s : Section α) :
    (Datum.ofSection wrap s).values = .ok (.list (s.values.map wrap)) := by
  simp [Datum.ofSection, Datum.values, Section.values]

@[simp] theorem isTrue_ofSection (wrap : α → Datum) (s : Section α) :
    (Datum.ofSection wrap s).isTrue = !s.isEmpty := by
  simp [Datum.ofSection, Datum.isTrue, Section.isEmpty]

theorem comment_optional (s : Option String) :
    Filter.comment.apply (.optional s) = .ok (.text (Go.comment (s.getD ""))) := by
  cases s <;> rfl

theorem isTrue_optional (s : Option String) : (Datum.optional s).isTrue = (s.getD "" != "") := by
  cases s <;> rfl

inductive HoldsType (p : Parameter) : String → String → Prop where
  | outside : HoldsType p "type" p.type
  | inside : HoldsType p "internal_type" p.internalType

theorem print_declaration (calls : Calls) {x type expression : String} {p : Parameter}
    (bound : scope.lookup x = some (.parameter p)) (typed : HoldsType p type expression) :
    print calls scope (declaration x type) =
      .ok (p.name ++ (" " ++ ((if p.nullable then "*" else "") ++ (expression ++ (" " ++
        rawQuoted ("json:" ++ quoted (p.rawName ++ if p.required then "" else ",omitempty"))))))) := by
  cases typed <;> cases nullable : p.nullable <;> cases required : p.required <;>
    simp [declaration, bound, nullable, required, rawQuoted, quoted, String.append_assoc]

theorem render_fieldLines (calls : Calls) {x type expression : String} {p : Parameter} (rest : Body)
    (bound : scope.lookup x = some (.parameter p)) (typed : HoldsType p type expression) :
    (fieldLines x type rest).render calls scope = do
      return unlines (indent (field expression p)) ++ (← rest.render calls scope) := by
  have declared := print_declaration calls bound typed
  simp only [fieldLines, Body.render, tabbed, render_line]
  cases described : p.description with
  | none => simp [bound, declared, described, field, indent, isTrue_optional, String.append_assoc]
  | some text =>
    by_cases empty : text = ""
    · simp [bound, declared, described, empty, field, indent, isTrue_optional, String.append_assoc]
    · simp [bound, declared, described, empty, field, indent, isTrue_optional, comment_optional,
        unlines_cons, String.append_assoc]

theorem render_constantLines {x : String} {p : Parameter} {start : Expr} {owner : List Piece}
    {begin_ whose : String}
    (bound : scope.lookup x = some (.parameter p))
    (starts : ∀ isFirst l, start.eval calls (("loop", .loop isFirst) :: ("enum", .literal l) :: scope) =
      .ok (.text begin_))
    (owned : ∀ isFirst l, print calls (("loop", .loop isFirst) :: ("enum", .literal l) :: scope) owner =
      .ok whose) :
    (constantLines x start owner).render calls scope =
      .ok (unlines (indent (constants begin_ whose p.enumLiterals))) := by
  have lines (isFirst : Bool) (l : EnumLiteral) :
      (tabbed 1 ("// " :: start :: of "enum" "name" :: " is an allowed value of " :: owner) <|
       tabbed 1 [start, of "enum" "name", " = ", Expr.filter .constant (of "enum" "literal_value")]
        .done).render calls (("loop", .loop isFirst) :: ("enum", .literal l) :: scope) =
      .ok (unlines (indent (constants begin_ whose [l]))) := by
    simp [tabbed, render_line, starts, owned, constants, indent, Filter.apply, Body.render,
      unlines_cons, String.append_assoc]
  have read : ((of x "enum_literals").eval calls scope >>= Datum.items) =
      .ok (p.enumLiterals.map .literal) := by
    simp [bound]
  rw [constantLines, render_each read fun isFirst l _ => lines isFirst l]
  simp [constants, indent, List.map_flatMap, Body.render]

theorem items_values {e : Expr} {s : Section α} (read : e.eval calls scope = .ok (.ofSection wrap s)) :
    ((Expr.values e).eval calls scope >>= Datum.items) = .ok (s.values.map wrap) := by
  simp [read]

open Macro (noCalls)

theorem call_structFields (s : Section Parameter) :
    Macro.call .structFields [.ofSection .parameter s] = .ok (unlines (indent (fields s))) := by
  have read : ((Expr.values (.var "params")).eval noCalls [("params", .ofSection .parameter s)] >>=
      Datum.items) = .ok (s.values.map .parameter) := items_values rfl
  have writes (isFirst : Bool) (p : Parameter) (_ : p ∈ s.values) :
      (fieldLines "param" "type" .done).render noCalls
        (("loop", .loop isFirst) :: ("param", .parameter p) :: [("params", .ofSection .parameter s)]) =
      .ok (unlines (indent (field p.type p))) := by
    rw [render_fieldLines noCalls .done rfl .outside]
    simp [Body.render]
  refine (render_each read writes).trans ?_
  simp [fields, indent, List.map_flatMap, Body.render]

/-- Parameters without literals write nothing, so the test of the loop does not matter. -/
theorem call_enumConstants (start : String) (s : Section Parameter) :
    Macro.call .enumConstants [.text start, .ofSection .parameter s] =
      .ok (unlines (indent (sectionConstants start s))) := by
  have read : ((Expr.values (.var "params")).eval noCalls
      [("prefix", .text start), ("params", .ofSection .parameter s)] >>= Datum.items) =
      .ok (s.values.map .parameter) := items_values rfl
  have kept (p : Parameter) (_ : p ∈ s.values) : ((of "param" "enum_literals").eval noCalls
      (("param", .parameter p) :: [("prefix", .text start), ("params", .ofSection .parameter s)])).map
        Datum.isTrue = .ok (!p.enumLiterals.isEmpty) := by
    simp [Except.map]
  have writes (isFirst : Bool) (p : Parameter) (_ : p ∈ s.values) (_ : (!p.enumLiterals.isEmpty) = true) :
      (constantLines "param" (.var "prefix") [of "param" "raw_name"]).render noCalls
        (("loop", .loop isFirst) :: ("param", .parameter p) ::
          [("prefix", .text start), ("params", .ofSection .parameter s)]) =
      .ok (unlines (indent (constants start p.rawName p.enumLiterals))) :=
    render_constantLines rfl (fun _ _ => rfl) fun _ _ => by simp
  have none (p : Parameter) (_ : p ∈ s.values) (empty : (!p.enumLiterals.isEmpty) = false) :
      indent (constants start p.rawName p.enumLiterals) = [] := by
    have nothing : p.enumLiterals = [] := by simpa using empty
    simp [nothing, constants, indent]
  refine (render_each_if read kept writes none).trans ?_
  simp [sectionConstants, indent, List.map_flatMap, Body.render]

def hasLiterals (s : Section Parameter) : Bool := s.values.any fun p => !p.enumLiterals.isEmpty

theorem call_hasEnums (s : Section Parameter) :
    Macro.call .hasEnums [.ofSection .parameter s] = .ok (if hasLiterals s then "yes" else "") := by
  -- Only the first parameter that is kept writes anything.
  have texts (isFirst : Bool) (ps : List Parameter) : eachText
      (fun d => ((of "param" "enum_literals").eval noCalls
        (("param", d) :: [("params", .ofSection .parameter s)])).map Datum.isTrue)
      (fun isFirst d => (Body.cond (of "loop" "first") (.text "yes" .done) .done .done).render noCalls
        (("loop", .loop isFirst) :: ("param", d) :: [("params", .ofSection .parameter s)]))
      isFirst (ps.map .parameter) =
      .ok (if isFirst && ps.any (fun p => !p.enumLiterals.isEmpty) then "yes" else "") := by
    induction ps generalizing isFirst with
    | nil => simp [eachText]
    | cons p ps ih =>
      cases empty : p.enumLiterals.isEmpty <;> cases isFirst <;>
        simp_all [eachText, Except.map, Body.render]
  have read : ((Expr.values (.var "params")).eval noCalls [("params", .ofSection .parameter s)] >>=
      Datum.items) = .ok (s.values.map .parameter) := items_values rfl
  refine (render_each_texts read (texts true s.values)).trans ?_
  simp [hasLiterals, Body.render]

theorem call_importBlock (paths : List String) :
    Macro.call .importBlock [.list (paths.map .text)] = .ok (unlines (importBlock paths)) := by
  have read : ((Expr.var "paths").eval noCalls [("paths", .list (paths.map .text))] >>= Datum.items) =
      .ok (paths.map .text) := by
    simp
  have writes (isFirst : Bool) (path : String) (_ : path ∈ paths) :
      (tabbed 1 (inQuotes [Expr.var "path"]) .done).render noCalls
        (("loop", .loop isFirst) :: ("path", .text path) :: [("paths", .list (paths.map .text))]) =
      .ok (unlines ["\t" ++ quoted path]) := by
    simp [tabbed, inQuotes, render_line, Body.render, quoted, String.append_assoc]
  simp only [Macro.call, Macro.body, Macro.parameters, List.zip_cons_cons, List.zip_nil_right,
    render_cond, render_fixed, render_each read writes]
  cases paths with
  | nil => simp [importBlock, Body.render]
  | cons path paths =>
    simp [importBlock, apart, parens, parensOf, paragraphs, indent, ← unlines_append, Body.render,
      ← List.map_eq_flatMap, Function.comp_def]

theorem constants_eq_nil {start owner : String} {literals : List EnumLiteral} :
    constants start owner literals = [] ↔ literals = [] := by
  cases literals <;> simp [constants]

theorem sectionConstants_eq_nil (start : String) (s : Section Parameter) :
    sectionConstants start s = [] ↔ hasLiterals s = false := by
  simp [sectionConstants, List.flatMap_eq_nil_iff, constants_eq_nil, hasLiterals]

@[simp] theorem isTrue_yes (b : Bool) : (Datum.text (if b then "yes" else "")).isTrue = b := by
  cases b <;> rfl

theorem mapM_ok {read : α → Except Fault String} {text : α → String} (reads : ∀ a, read a = .ok (text a))
    (as : List α) : as.mapM read = .ok (as.map text) := by
  induction as with
  | nil => rfl
  | cons a as ih => simp [reads a, ih]

@[simp] theorem mapM_type (ps : List Parameter) :
    ps.mapM (Datum.textUnder "type" ∘ Datum.parameter) = .ok (ps.map (·.type)) :=
  mapM_ok (fun p => by simp [Datum.textUnder]) ps

@[simp] theorem mapM_internalType (ps : List Parameter) :
    ps.mapM (Datum.textUnder "internal_type" ∘ Datum.parameter) = .ok (ps.map (·.internalType)) :=
  mapM_ok (fun p => by simp [Datum.textUnder]) ps

@[simp] theorem list_apply (ds : List Datum) : Filter.list.apply (.list ds) = .ok (.list ds) := rfl

theorem filterM_ok {keep : Datum → Except Fault Bool} {p : Datum → Bool} {ds : List Datum}
    (kept : ∀ d ∈ ds, keep d = .ok (p d)) : ds.filterM keep = .ok (ds.filter p) := by
  -- The items that are kept are gathered in reverse.
  have gathered (found : List Datum) : ds.filterAuxM keep found = .ok ((ds.filter p).reverse ++ found) := by
    induction ds generalizing found with
    | nil => rfl
    | cons d ds ih =>
      have rest := ih fun e member => kept e (List.mem_cons_of_mem d member)
      rw [List.filterAuxM, kept d List.mem_cons_self]
      cases holds : p d <;> simp [rest, holds]
  simp [List.filterM, gathered]

theorem filterM_parameters {keep : Datum → Except Fault Bool} {p : Parameter → Bool}
    (kept : ∀ q, keep (.parameter q) = .ok (p q)) (ps : List Parameter) :
    (ps.map .parameter).filterM keep = .ok ((ps.filter p).map .parameter) := by
  let tested : Datum → Bool
    | .parameter q => p q
    | _ => false
  have all : ∀ d ∈ ps.map Datum.parameter, keep d = .ok (tested d) := by
    intro d member
    obtain ⟨q, _, rfl⟩ := List.mem_map.mp member
    exact kept q
  rw [filterM_ok all, List.filter_map]
  rfl

@[simp] theorem having_nullable (ps : List Parameter) :
    (Filter.having "nullable").apply (.list (ps.map .parameter)) =
      .ok (.list ((ps.filter (·.nullable)).map .parameter)) := by
  simp only [Filter.apply, items_list, ok_bind]
  rw [filterM_parameters (p := fun q => q.nullable) fun q => by simp]
  rfl

@[simp] theorem having_literals (ps : List Parameter) :
    (Filter.having "enum_literals").apply (.list (ps.map .parameter)) =
      .ok (.list ((ps.filter fun q => !q.enumLiterals.isEmpty).map .parameter)) := by
  simp only [Filter.apply, items_list, ok_bind]
  rw [filterM_parameters (p := fun q => !q.enumLiterals.isEmpty) fun q => by simp]
  rfl

@[simp] theorem equal_type (s : String) (ps : List Parameter) :
    (Filter.equal "type" s).apply (.list (ps.map .parameter)) =
      .ok (.list ((ps.filter (·.type == s)).map .parameter)) := by
  simp only [Filter.apply, items_list, ok_bind]
  rw [filterM_parameters (p := fun q => q.type == s) fun q => by simp; rfl]
  rfl

@[simp] theorem comment_text (s : String) :
    Filter.comment.apply (.text s) = .ok (.text (Go.comment s)) := rfl

@[simp] theorem or_optional (s : Option String) (default_ : String) :
    (if (Datum.optional s).isTrue then (Except.ok (Datum.optional s) : Except Fault Datum)
      else .ok (.text default_)) = .ok (.text (orElse default_ s)) := by
  cases s with
  | none => rfl
  | some s => by_cases empty : s = "" <;> simp [orElse, empty, Datum.optional]

@[simp] theorem or_text (s default_ : String) :
    (if s = "" then (Except.ok (.text default_) : Except Fault Datum) else .ok (.text s)) =
      .ok (.text (orElse default_ (some s))) := by
  by_cases empty : s = "" <;> simp [orElse, empty]

theorem written_number {n : Int} (writable : Text.isWritable n) :
    (Datum.number n).written = .ok (toString n) := by
  simp [Datum.number, Datum.written, Value.isWritable, writable, Value.plain, Value.shown,
    Value.shownIn]

@[simp] theorem or_yes (a b : Bool) :
    (if a then (Except.ok (.text (if a then "yes" else "")) : Except Fault Datum)
      else .ok (.text (if b then "yes" else ""))) = .ok (.text (if a || b then "yes" else "")) := by
  cases a <;> rfl

@[simp] theorem quote_text (s : String) : Filter.quote.apply (.text s) = .ok (.text (Go.quote s)) := rfl

@[simp] theorem quote_optional (s : Option String) :
    Filter.quote.apply (.optional s) = .ok (.text (Go.quoteOptional s)) := by
  cases s <;> rfl

end Template

end PluginCompiler
