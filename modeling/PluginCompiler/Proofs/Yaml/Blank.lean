import PluginCompiler.Proofs.Yaml.Loading
import PluginCompiler.Proofs.Yaml.White

/-! Texts of white space only. Such a text may hold a document, which is a single text then, and never a
collection. -/

set_option autoImplicit false

namespace PluginCompiler.Yaml

variable {gs rest : List Glyph}

/-- The tokens of white space: the end, and plain scalars that start with white space. -/
def Kind.IsBare : Kind → Prop
  | .streamEnd => True
  | .scalar text isPlain => isPlain = true ∧ StartsWhite text
  | _ => False

namespace Scanner

variable {s t : Scanner} {now : Mark}

/-- No collection is open, and nothing has been met but white space. -/
structure IsBare (s : Scanner) : Prop where
  indents : s.indents = []
  slots : ∀ slot ∈ s.slots, ∀ token ∈ slot, token.kind.IsBare

namespace IsBare

theorem emit {kind : Kind} {start stop : Mark} (bare : s.IsBare) (meant : kind.IsBare) :
    (s.emit kind start stop).IsBare := by
  refine ⟨bare.indents, fun slot member => ?_⟩
  rcases Array.mem_push.mp member with old | rfl
  · exact bare.slots slot old
  · simpa using meant

theorem dropStale (bare : s.IsBare) (done : s.dropStale now = .ok t) : t.IsBare := by
  rw [Scanner.dropStale] at done
  split at done
  · cases done
  · obtain rfl := Except.ok.inj done
    exact ⟨bare.indents, bare.slots⟩

theorem dropCandidate (bare : s.IsBare) (done : s.dropCandidate = .ok t) : t.IsBare := by
  rw [Scanner.dropCandidate] at done
  split at done
  · split at done
    · cases done
    · obtain rfl := Except.ok.inj done
      exact ⟨bare.indents, bare.slots⟩
  · obtain rfl := Except.ok.inj done
    exact bare

theorem saveCandidate (bare : s.IsBare) (done : s.saveCandidate now = .ok t) : t.IsBare := by
  rw [Scanner.saveCandidate] at done
  split at done
  · obtain ⟨dropped, first, done⟩ := bind_eq_ok done
    have left := bare.dropCandidate first
    obtain rfl := Except.ok.inj done
    refine ⟨left.indents, fun slot member => ?_⟩
    rcases Array.mem_push.mp member with old | rfl
    · exact left.slots slot old
    · simp
  · obtain rfl := Except.ok.inj done
    exact bare

theorem unwind (bare : s.IsBare) (column : Int) : (s.unwind column now).IsBare := by
  rw [Scanner.unwind]
  split
  · rw [bare.indents, closeTo]
    exact ⟨rfl, bare.slots⟩
  · exact bare

theorem toMargin (bare : s.IsBare) (done : s.toMargin now = .ok t) : t.IsBare := by
  rw [Scanner.toMargin] at done
  obtain ⟨dropped, first, done⟩ := bind_eq_ok done
  have left := (bare.unwind (-1)).dropCandidate first
  obtain rfl := Except.ok.inj done
  exact ⟨left.indents, left.slots⟩

end IsBare

theorem atMarker_of_ne {sign : Char} (other : peek gs ≠ sign) : atMarker sign gs = false := by
  unfold atMarker
  split
  · next a b c rest =>
    have first : a.char ≠ sign := other
    simp [first]
  · rfl

theorem isBare_next {settled : Nat} (bare : s.IsBare) (white : IsWhite gs)
    (done : s.next settled gs = .ok (t, rest)) : t.IsBare ∧ rest <:+ gs := by
  have unwound : (s.unwind (here gs).column (here gs)).IsBare := bare.unwind _
  rw [next] at done
  dsimp only at done
  generalize s.unwind (here gs).column (here gs) = s at unwound done
  by_cases ends : peek gs = '\x00'
  · rw [if_pos ends] at done
    obtain ⟨left, margin, done⟩ := bind_eq_ok done
    obtain ⟨rfl, rfl⟩ := Prod.mk.inj (Except.ok.inj done)
    exact ⟨(unwound.toMargin margin).emit trivial, List.nil_suffix⟩
  have blank : Text.isBlank (peek gs) = true := by
    cases gs with
    | nil => exact absurd rfl ends
    | cons g gs => exact (white g List.mem_cons_self).resolve_left ends
  -- Every sign that begins another token is a visible one.
  have other (d : Char) (ink : Text.isBlank d = false) : peek gs ≠ d := ne_of_isBlank blank ink
  rw [if_neg ends, if_neg fun sign => other '%' (by decide) sign.1,
    if_neg (by simp [atMarker_of_ne (other '-' (by decide))]),
    if_neg (by simp [atMarker_of_ne (other '.' (by decide))]),
    if_neg (not_or.mpr ⟨other '[' (by decide), other '\x7b' (by decide)⟩),
    if_neg (not_or.mpr ⟨other ']' (by decide), other '\x7d' (by decide)⟩),
    if_neg (other ',' (by decide)), if_neg fun sign => other '-' (by decide) sign.1,
    if_neg fun sign => other '?' (by decide) sign.1,
    if_neg fun sign => other ':' (by decide) sign.1, if_neg (other '*' (by decide)),
    if_neg (other '&' (by decide)), if_neg (other '!' (by decide)),
    if_neg fun sign => sign.1.elim (other '|' (by decide)) (other '>' (by decide)),
    if_neg (other '\'' (by decide)), if_neg (other '"' (by decide))] at done
  split at done
  · obtain ⟨saved, save, done⟩ := bind_eq_ok done
    obtain ⟨rfl, rfl⟩ := Prod.mk.inj (Except.ok.inj done)
    refine ⟨?_, suffix_plainFrom _ _ _ _ _ gs⟩
    have left := unwound.saveCandidate save
    refine IsBare.emit ⟨left.indents, left.slots⟩ ⟨rfl, fun c member => ?_⟩
    simp only [plain, String.toList_ofList] at member
    rw [head_plainFrom member]
    exact blank
  · cases done

theorem isBare_run {fuel : Nat} (bare : s.IsBare) (white : IsWhite gs)
    (done : s.run fuel gs = .ok t) : t.IsBare := by
  induction fuel generalizing s gs with
  | zero =>
    obtain rfl := Except.ok.inj done
    exact bare
  | succ fuel ih =>
    cases gs with
    | nil =>
      obtain rfl := Except.ok.inj done
      exact bare
    | cons g gs =>
      rw [run] at done
      · have white := white.suffix (suffix_toToken false (g :: gs))
        obtain ⟨dropped, drop, done⟩ := bind_eq_ok done
        obtain ⟨⟨taken, rest⟩, take, done⟩ := bind_eq_ok done
        have ready : IsBare (if ((toToken false (g :: gs)).2 && s.depth == 0) = true then
            { s with allowsKey := true } else s) := by
          split
          · exact ⟨bare.indents, bare.slots⟩
          · exact bare
        obtain ⟨left, further⟩ := isBare_next (ready.dropStale drop) white take
        exact ih left (white.suffix further) done
      · simp

end Scanner

theorem isBare_tokens {ts : List Token} (white : IsWhite gs) (scanned : tokens gs = .ok ts) :
    ∀ token ∈ ts, token.kind.IsBare := by
  obtain ⟨s, done, same⟩ := bind_eq_ok scanned
  obtain rfl := Except.ok.inj same
  have start : Scanner.IsBare .start := ⟨rfl, fun slot member => by simp [Scanner.start] at member⟩
  have bare := Scanner.isBare_run start white done
  intro token member
  obtain ⟨slot, inside, member⟩ := List.mem_flatten.mp member
  exact bare.slots slot (Array.mem_toList_iff.mp inside) token member

namespace Compose

variable {d d' : Draft} {t : Token} {ts : List Token} {fuel : Nat}

theorem look_cons (tokens : d.tokens = t :: ts) (bare : t.kind.IsBare) : look d = .ok (t, d) := by
  rw [look, tokens]
  cases kind : t.kind <;> simp_all [Kind.IsBare]

theorem bind_of_ok {α β : Type} {x : Compose α} {f : α → Compose β} {a : α}
    (run : x d = .ok (a, d')) : (x >>= f) d = f a d' := by
  change Except.bind (x d) _ = _
  rw [run]
  rfl

theorem properties_of_plain (looked : look d = .ok (t, d)) {text : String}
    (kind : t.kind = .scalar text true) : properties d = .ok (⟨none, none, none⟩, d) := by
  have anchor : anchor? d = .ok (none, d) := by
    rw [anchor?, bind_of_ok looked, kind]
    rfl
  have tag : tag? d = .ok (none, d) := by
    rw [tag?, bind_of_ok looked, kind]
    rfl
  rw [properties, bind_of_ok anchor]
  dsimp only
  rw [bind_of_ok tag]
  rfl

theorem node_of_plain {text : String} {inBlock unindented : Bool} (tokens : d.tokens = t :: ts)
    (kind : t.kind = .scalar text true) :
    node inBlock unindented (fuel + 1) d = .ok (d.nodes.size,
      { d with tokens := ts, nodes := d.nodes.push ⟨Tag.ofForm text, .scalar text, t.start⟩ }) := by
  have looked : look d = .ok (t, d) := by simp [look, tokens, kind]
  have skipped : skip d = .ok ((), { d with tokens := ts }) := by
    change Except.ok ((), { d with tokens := d.tokens.drop 1 }) = _
    rw [tokens, List.drop_one, List.tail_cons]
  have unnamed : fullName ⟨none, none, none⟩ d = .ok (none, d) := rfl
  rw [node, bind_of_ok looked, kind]
  dsimp only
  rw [bind_of_ok (properties_of_plain looked kind), bind_of_ok unnamed, bind_of_ok looked, kind]
  dsimp only
  rw [bind_of_ok skipped]
  rfl

theorem bind_ok {α β : Type} {x : Compose α} {f : α → Compose β} {b : β}
    (run : (x >>= f) d = .ok (b, d')) : ∃ a middle, x d = .ok (a, middle) ∧ f a middle = .ok (b, d') := by
  obtain ⟨⟨a, middle⟩, first, second⟩ := bind_eq_ok run
  exact ⟨a, middle, first, second⟩

theorem eq_of_look (looked : look d = .ok (t, d')) : d' = d := by
  rw [look] at looked
  split at looked
  · cases looked
  · split at looked
    · cases looked
    · exact (Prod.mk.inj (Except.ok.inj looked)).2.symm

theorem nodes_of_finish (done : finish d = .ok ((), d')) : d'.nodes = d.nodes := by
  obtain ⟨_, passed, skipped, later⟩ := bind_ok done
  obtain ⟨t, seen, looked, ends⟩ := bind_ok later
  have kept : passed.nodes = d.nodes := by
    cases skipped
    rfl
  rw [eq_of_look looked] at ends
  split at ends
  · obtain ⟨_, _, _, ends⟩ := bind_ok ends
    obtain ⟨_, _, _, ends⟩ := bind_ok ends
    cases ends
  · cases ends
    exact kept

theorem document_of_isBare {root : Option Nat} (bare : ∀ token ∈ d.tokens, token.kind.IsBare)
    (done : document (fuel + 1) d = .ok (root, d')) :
    root = none ∨ root = some d.nodes.size ∧ ∃ text mark, StartsWhite text ∧
      d'.nodes = d.nodes.push ⟨Tag.ofForm text, .scalar text, mark⟩ := by
  obtain ⟨t, seen, looked, composed⟩ := bind_ok done
  rw [eq_of_look looked] at composed
  rw [eq_of_look looked] at looked
  cases tokens : d.tokens with
  | nil => simp [look, tokens] at looked
  | cons first ts =>
    have bare := bare first (by simp [tokens])
    obtain rfl := (Prod.mk.inj (Except.ok.inj ((look_cons tokens bare).symm.trans looked))).1
    cases kind : first.kind <;> rw [kind] at bare <;> try exact bare.elim
    case streamEnd =>
      rw [kind] at composed
      cases composed
      exact .inl rfl
    case scalar text isPlain =>
      obtain ⟨rfl, white⟩ := bare
      rw [kind] at composed
      obtain ⟨id, one, single, rest⟩ := bind_ok composed
      obtain ⟨_, finished, ends, last⟩ := bind_ok rest
      rw [node_of_plain tokens kind] at single
      cases single
      cases last
      exact .inr ⟨rfl, text, first.start, white, nodes_of_finish ends⟩

end Compose

theorem load_of_scalarValue {source : List Char} {g : Graph} {root : Nat} {v : Value}
    (composed : Graph.ofText source = .ok g) (rooted : g.root = some root)
    (single : (g.node root).tag.isCollection = false) (value : g.scalarValue root = .ok v) :
    load source = .ok v := by
  have visited : g.visit Visit.distinctly root = .ok ⟨g, [root], [], [(root, v)]⟩ := by
    simp [Graph.visit, Visit.start, Visit.enter, single, value, bind, Except.bind, Visit.enterAll]
  rw [load, loadBy_of_root composed rooted, visited]
  simp [Visit.value, Graph.valueIn, single, Visit.scalar]

theorem root_of_blank {source : List Char} {g : Graph} (blank : source.all Text.isBlank = true)
    (composed : Graph.ofText source = .ok g) :
    g.root = none ∨ ∃ root text mark, g.root = some root ∧ StartsWhite text ∧
      g.node root = ⟨Tag.ofForm text, .scalar text, mark⟩ := by
  rw [Graph.ofText] at composed
  split at composed
  · cases composed
  · next gs found =>
    obtain ⟨ts, scanned, composed⟩ := bind_eq_ok composed
    obtain ⟨⟨root, d⟩, done, same⟩ := bind_eq_ok composed
    obtain rfl := Except.ok.inj same
    have bare := isBare_tokens (isWhite_of_glyphs blank found) scanned
    rcases Compose.document_of_isBare bare done with rfl | ⟨rfl, text, mark, white, nodes⟩
    · exact .inl rfl
    · refine .inr ⟨0, text, mark, rfl, white, ?_⟩
      rw [Graph.node, nodes]
      rfl

theorem load_of_blank {source : List Char} {g : Graph} (blank : source.all Text.isBlank = true)
    (composed : Graph.ofText source = .ok g) :
    ∃ data, load source = .ok data ∧ (data = .null ∨ ∃ text, data = .text text) := by
  rcases root_of_blank blank composed with empty | ⟨root, text, mark, rooted, white, node⟩
  · exact ⟨.null, loadBy_of_empty composed empty, .inl rfl⟩
  · rcases ofForm_of_startsWhite white with tag | tag <;> rw [tag] at node
    · have value : g.scalarValue root = .ok .null := by
        simp [Graph.scalarValue, node, Graph.textOf, bind, Except.bind, Tag.read]
      exact ⟨.null, load_of_scalarValue composed rooted (by rw [node]; rfl) value, .inl rfl⟩
    · have value : g.scalarValue root = .ok (.text text) := by
        simp [Graph.scalarValue, node, Graph.textOf, bind, Except.bind, Tag.read]
      exact ⟨.text text, load_of_scalarValue composed rooted (by rw [node]; rfl) value, .inr ⟨text, rfl⟩⟩

end PluginCompiler.Yaml
