import PluginCompiler.Proofs.Go.Operand
import PluginCompiler.Proofs.Text.Decoding

/-! The bytes that an interpreted literal of Go stands for. An element of a literal is a character as it
is or an escape: by a letter, by a byte in two hexadecimal or three octal digits, or by a character in
four or eight hexadecimal digits. A reader gives the bytes of exactly the literals that are made of such
elements, and the literal of a quoted text gives the bytes of the text. -/

set_option autoImplicit false

namespace PluginCompiler.Go

open Text.Utf8 (encode)

variable {base count m n : Nat} {c : Char} {cs ds inner rest : List Char} {bytes more : List UInt8}

def digit? (base : Nat) (c : Char) : Option Nat :=
  let value :=
    if c.isDigit then c.toNat - 0x30
    else if c.isLower then c.toNat - 0x57
    else if c.isUpper then c.toNat - 0x37
    else base
  if value < base then some value else none

def value? (base : Nat) : Nat → List Char → Option Nat
  | n, [] => some n
  | n, c :: cs =>
    match digit? base c with
    | some d => value? base (n * base + d) cs
    | none => none

def number? (base count : Nat) (cs : List Char) : Option (Nat × List Char) :=
  if (cs.take count).length = count then
    (value? base 0 (cs.take count)).map fun n => (n, cs.drop count)
  else none

theorem number?_eq_some :
    number? base count cs = some (n, rest) ↔
      ∃ ds, cs = ds ++ rest ∧ ds.length = count ∧ value? base 0 ds = some n := by
  rw [number?]
  constructor
  · intro read
    split at read
    · next long =>
      obtain ⟨m, value, same⟩ := Option.map_eq_some_iff.mp read
      cases same
      exact ⟨cs.take count, (List.take_append_drop count cs).symm, long, value⟩
    · cases read
  · rintro ⟨ds, rfl, rfl, value⟩
    rw [List.take_left, List.drop_left, if_pos rfl, value]
    rfl

/-- What stands in a literal for some bytes. A code for a character names one: there is none for
surrogates and none beyond the last character. -/
inductive Element : List Char → List UInt8 → Prop where
  -- The language takes any character here, though a compiler may refuse a mark of the byte order.
  | itself {c : Char} (quote : c ≠ '"') (slash : c ≠ '\\') (line : c ≠ '\n') :
      Element [c] (String.utf8EncodeChar c)
  | letter {e c : Char} (known : shortEscape? e = some c) :
      Element ['\\', e] (String.utf8EncodeChar c)
  | octal {ds : List Char} {n : Nat} (three : ds.length = 3) (value : value? 8 0 ds = some n)
      (small : n < 256) : Element ('\\' :: ds) [UInt8.ofNat n]
  | hex {ds : List Char} {n : Nat} (two : ds.length = 2) (value : value? 16 0 ds = some n)
      (small : n < 256) : Element ('\\' :: 'x' :: ds) [UInt8.ofNat n]
  | little {ds : List Char} {c : Char} (four : ds.length = 4) (value : value? 16 0 ds = some c.toNat) :
      Element ('\\' :: 'u' :: ds) (String.utf8EncodeChar c)
  | big {ds : List Char} {c : Char} (eight : ds.length = 8) (value : value? 16 0 ds = some c.toNat) :
      Element ('\\' :: 'U' :: ds) (String.utf8EncodeChar c)

inductive Elements : List Char → List UInt8 → Prop where
  | nil : Elements [] []
  | cons {ds cs : List Char} {bytes more : List UInt8} (first : Element ds bytes)
      (rest : Elements cs more) : Elements (ds ++ cs) (bytes ++ more)

def byte? (base count : Nat) (cs : List Char) : Option (List UInt8 × List Char) :=
  match number? base count cs with
  | some (n, rest) => if n < 256 then some ([UInt8.ofNat n], rest) else none
  | none => none

def character? (count : Nat) (cs : List Char) : Option (List UInt8 × List Char) :=
  match number? 16 count cs with
  | some (n, rest) =>
    if (Char.ofNat n).toNat = n then some (String.utf8EncodeChar (Char.ofNat n), rest) else none
  | none => none

def escape? : List Char → Option (List UInt8 × List Char)
  | [] => none
  | e :: cs =>
    if e = 'x' then byte? 16 2 cs
    else if e = 'u' then character? 4 cs
    else if e = 'U' then character? 8 cs
    else match shortEscape? e with
      | some c => some (String.utf8EncodeChar c, cs)
      | none => byte? 8 3 (e :: cs)

def element? : List Char → Option (List UInt8 × List Char)
  | [] => none
  | c :: cs =>
    if c = '\\' then escape? cs
    else if c = '"' ∨ c = '\n' then none
    else some (String.utf8EncodeChar c, cs)

/-- The bytes up to the closing quote, and what follows it. At most `fuel` elements and the quote are
read. -/
def bytesFrom : Nat → List Char → Option (List UInt8 × List Char)
  | 0, _ => none
  | fuel + 1, cs =>
    if cs.head? = some '"' then some ([], cs.tail)
    else match element? cs with
      | none => none
      | some (bytes, rest) => (bytesFrom fuel rest).map fun (more, rest) => (bytes ++ more, rest)

def evaluate? : List Char → Option (List UInt8 × List Char)
  | [] => none
  | c :: cs => if c = '"' then bytesFrom cs.length cs else none

theorem byte?_eq_some :
    byte? base count cs = some (bytes, rest) ↔
      ∃ ds n, cs = ds ++ rest ∧ ds.length = count ∧ value? base 0 ds = some n ∧ n < 256 ∧
        bytes = [UInt8.ofNat n] := by
  rw [byte?]
  constructor
  · intro read
    split at read
    · next n _ number =>
      split at read
      · next small =>
        cases read
        obtain ⟨ds, split, long, value⟩ := number?_eq_some.mp number
        exact ⟨ds, n, split, long, value, small, rfl⟩
      · cases read
    · cases read
  · rintro ⟨ds, n, split, long, value, small, rfl⟩
    rw [number?_eq_some.mpr ⟨ds, split, long, value⟩]
    exact if_pos small

theorem character?_eq_some :
    character? count cs = some (bytes, rest) ↔
      ∃ ds c, cs = ds ++ rest ∧ ds.length = count ∧ value? 16 0 ds = some c.toNat ∧
        bytes = String.utf8EncodeChar c := by
  rw [character?]
  constructor
  · intro read
    split at read
    · next n _ number =>
      split at read
      · next named =>
        cases read
        obtain ⟨ds, split, long, value⟩ := number?_eq_some.mp number
        exact ⟨ds, Char.ofNat n, split, long, by rw [named, value], rfl⟩
      · cases read
    · cases read
  · rintro ⟨ds, c, split, long, value, rfl⟩
    rw [number?_eq_some.mpr ⟨ds, split, long, value⟩]
    simp only [Char.ofNat_toNat, ↓reduceIte]

theorem not_announced {e : Char} (known : shortEscape? e = some c) : e ≠ 'x' ∧ e ≠ 'u' ∧ e ≠ 'U' := by
  refine ⟨?_, ?_, ?_⟩ <;> rintro rfl <;> cases known

theorem plain_of_octal {d : Nat} (octal : digit? 8 c = some d) :
    c ≠ 'x' ∧ c ≠ 'u' ∧ c ≠ 'U' ∧ shortEscape? c = none := by
  have other (e : Char) (none_ : digit? 8 e = none) : c ≠ e := by
    rintro rfl
    rw [none_] at octal
    cases octal
  refine ⟨other _ rfl, other _ rfl, other _ rfl, ?_⟩
  simp [shortEscape?, other 'a' rfl, other 'b' rfl, other 'f' rfl, other 'n' rfl, other 'r' rfl,
    other 't' rfl, other 'v' rfl, other '\\' rfl, other '"' rfl]

theorem element?_append (element : Element ds bytes) (rest : List Char) :
    element? (ds ++ rest) = some (bytes, rest) := by
  cases element with
  | itself quote slash line => simp [element?, quote, slash, line]
  | letter known =>
    have announced := not_announced known
    simp [element?, escape?, announced, known]
  | @octal ds n three value small =>
    obtain ⟨e, ds, rfl⟩ := List.exists_cons_of_ne_nil (List.ne_nil_of_length_eq_add_one three)
    have read : byte? 8 3 (e :: ds ++ rest) = some ([UInt8.ofNat n], rest) :=
      byte?_eq_some.mpr ⟨_, _, rfl, three, value, small, rfl⟩
    rw [value?] at value
    -- Nothing announces an octal escape but its first digit, which no other escape begins with.
    cases first : digit? 8 e with
    | none =>
      rw [first] at value
      cases value
    | some d =>
      have plain := plain_of_octal first
      rw [List.cons_append] at read
      simp [element?, escape?, plain, read]
  | @hex ds n two value small =>
    have read : byte? 16 2 (ds ++ rest) = some ([UInt8.ofNat n], rest) :=
      byte?_eq_some.mpr ⟨_, _, rfl, two, value, small, rfl⟩
    simp [element?, escape?, read]
  | @little ds c four value =>
    have read : character? 4 (ds ++ rest) = some (String.utf8EncodeChar c, rest) :=
      character?_eq_some.mpr ⟨_, _, rfl, four, value, rfl⟩
    simp [element?, escape?, read]
  | @big ds c eight value =>
    have read : character? 8 (ds ++ rest) = some (String.utf8EncodeChar c, rest) :=
      character?_eq_some.mpr ⟨_, _, rfl, eight, value, rfl⟩
    simp [element?, escape?, read]

theorem element_of_escape? (read : escape? cs = some (bytes, rest)) :
    ∃ ds, cs = ds ++ rest ∧ Element ('\\' :: ds) bytes := by
  cases cs with
  | nil => cases read
  | cons e cs =>
    rw [escape?] at read
    split_ifs at read with hex little big
    · obtain ⟨ds, n, rfl, two, value, small, rfl⟩ := byte?_eq_some.mp read
      exact ⟨e :: ds, rfl, hex ▸ .hex two value small⟩
    · obtain ⟨ds, c, rfl, four, value, rfl⟩ := character?_eq_some.mp read
      exact ⟨e :: ds, rfl, little ▸ .little four value⟩
    · obtain ⟨ds, c, rfl, eight, value, rfl⟩ := character?_eq_some.mp read
      exact ⟨e :: ds, rfl, big ▸ .big eight value⟩
    · split at read
      · next known =>
        cases read
        exact ⟨[e], rfl, .letter known⟩
      · obtain ⟨ds, n, split, three, value, small, rfl⟩ := byte?_eq_some.mp read
        exact ⟨ds, split, .octal three value small⟩

theorem element?_eq_some :
    element? cs = some (bytes, rest) ↔ ∃ ds, cs = ds ++ rest ∧ Element ds bytes := by
  constructor
  · intro read
    cases cs with
    | nil => cases read
    | cons c cs =>
      rw [element?] at read
      split_ifs at read with slash other
      · obtain ⟨ds, rfl, element⟩ := element_of_escape? read
        exact ⟨c :: ds, rfl, slash ▸ element⟩
      · cases read
        rw [not_or] at other
        exact ⟨[c], rfl, .itself other.1 slash other.2⟩
  · rintro ⟨ds, rfl, element⟩
    exact element?_append element rest

theorem Element.head (element : Element ds bytes) : ∃ c cs, ds = c :: cs ∧ c ≠ '"' := by
  cases element with
  | itself quote _ _ => exact ⟨_, _, rfl, quote⟩
  | _ => exact ⟨'\\', _, rfl, by decide⟩

theorem bytesFrom_append (elements : Elements inner bytes) {fuel : Nat} (enough : inner.length < fuel)
    (rest : List Char) : bytesFrom fuel (inner ++ '"' :: rest) = some (bytes, rest) := by
  induction elements generalizing fuel with
  | nil =>
    obtain ⟨fuel, rfl⟩ := Nat.exists_eq_add_one_of_ne_zero (Nat.ne_of_gt enough)
    simp [bytesFrom]
  | @cons _ cs _ _ first _ ih =>
    obtain ⟨fuel, rfl⟩ := Nat.exists_eq_add_one_of_ne_zero (Nat.ne_of_gt (Nat.zero_lt_of_lt enough))
    have read := element?_append first (cs ++ '"' :: rest)
    obtain ⟨c, ds, rfl, quote⟩ := first.head
    have fewer : cs.length < fuel := by
      rw [List.length_append, List.length_cons] at enough
      omega
    have later := ih fewer
    rw [List.cons_append] at read
    simp [bytesFrom, quote, read, later]

theorem elements_of_bytesFrom {fuel : Nat} (read : bytesFrom fuel cs = some (bytes, rest)) :
    ∃ inner, cs = inner ++ '"' :: rest ∧ Elements inner bytes := by
  induction fuel generalizing cs bytes with
  | zero => cases read
  | succ fuel ih =>
    rw [bytesFrom] at read
    split at read
    · next quote =>
      cases read
      exact ⟨[], (List.cons_head?_tail quote).symm, .nil⟩
    · split at read
      · cases read
      · next first after element =>
        obtain ⟨⟨more, end_⟩, later, same⟩ := Option.map_eq_some_iff.mp read
        cases same
        obtain ⟨ds, rfl, own⟩ := element?_eq_some.mp element
        obtain ⟨inner, rfl, elements⟩ := ih later
        exact ⟨ds ++ inner, by rw [List.append_assoc], .cons own elements⟩

theorem evaluate?_eq_some :
    evaluate? cs = some (bytes, rest) ↔
      ∃ inner, cs = '"' :: (inner ++ '"' :: rest) ∧ Elements inner bytes := by
  constructor
  · intro read
    cases cs with
    | nil => cases read
    | cons c cs =>
      rw [evaluate?] at read
      split_ifs at read with quote
      obtain ⟨inner, rfl, elements⟩ := elements_of_bytesFrom read
      exact ⟨inner, by rw [quote], elements⟩
  · rintro ⟨inner, rfl, elements⟩
    rw [evaluate?, if_pos rfl, bytesFrom_append elements (by simp)]

theorem Spells.element (spells : Spells ds c) : Element ds (String.utf8EncodeChar c) := by
  cases spells with
  | itself quote slash line => exact .itself quote slash line
  | letter known => exact .letter known
  | code control =>
    have table : ∀ n < 0x20, (Text.hexDigits 4 n).length = 4 ∧
        value? 16 0 (Text.hexDigits 4 n) = some n := by decide
    obtain ⟨four, value⟩ := table c.toNat control
    exact .little four value

theorem SpellsAll.elements {text : List Char} (spells : SpellsAll ds text) :
    Elements ds (text.flatMap String.utf8EncodeChar) := by
  induction spells with
  | nil => exact .nil
  | cons first _ ih => exact .cons first.element ih

/-- One interpreted literal that stands for some bytes. Between its quotes there are only elements, and no
character of it is a control character. -/
structure Evaluates (g : String) (bytes : List UInt8) : Prop where
  elements : ∃ inner, g.toList = '"' :: (inner ++ ['"']) ∧ Elements inner bytes
  clean : Json.Clean g.toList
  evaluated : evaluate? g.toList = some (bytes, [])

theorem evaluate?_quote (s : String) (rest : List Char) :
    evaluate? ((quote s).toList ++ rest) = some (encode s, rest) := by
  obtain ⟨inner, chars, spells⟩ := interpreted_quote s
  refine evaluate?_eq_some.mpr ⟨inner, by simp [chars], ?_⟩
  rw [Text.Utf8.encode_eq]
  exact spells.elements

theorem evaluates_quote (s : String) : Evaluates (quote s) (encode s) := by
  have read := evaluate?_quote s []
  rw [List.append_nil] at read
  exact ⟨evaluate?_eq_some.mp read, Json.clean_quote s, read⟩

/-- A quoted text is a literal of its own: it gives the bytes of the text, and no other text has it. -/
theorem quote_evaluates (s : String) :
    Evaluates (quote s) (encode s) ∧ ∀ t, quote t = quote s → t = s := by
  refine ⟨evaluates_quote s, fun t same => ?_⟩
  have read := (evaluates_quote t).evaluated
  rw [same, (evaluates_quote s).evaluated] at read
  exact (Text.Utf8.encode_inj.mp (Prod.mk.inj (Option.some.inj read)).1).symm

theorem utf8Size_shortEscape {e c : Char} (known : shortEscape? e = some c) : c.utf8Size = 1 := by
  unfold shortEscape? at known
  split_ifs at known with a b f n r t v own
  all_goals cases known
  all_goals try rfl
  rcases own with rfl | rfl <;> rfl

theorem Element.itself_or_shorter (element : Element ds bytes) :
    (∃ c, ds = [c] ∧ bytes = String.utf8EncodeChar c ∧ c ≠ '"' ∧ c ≠ '\\' ∧ c ≠ '\n') ∨
      bytes.length < ds.length := by
  cases element with
  | @itself c quote slash line => exact .inl ⟨c, rfl, rfl, quote, slash, line⟩
  | @letter e c known =>
    refine .inr ?_
    rw [String.length_utf8EncodeChar, utf8Size_shortEscape known]
    exact Nat.lt_add_one 1
  | octal three _ _ => exact .inr (by simp [three])
  | hex two _ _ => exact .inr (by simp [two])
  | @little ds c four _ =>
    refine .inr ?_
    rw [String.length_utf8EncodeChar, List.length_cons, List.length_cons, four]
    exact Nat.lt_of_le_of_lt c.utf8Size_le_four (by decide)
  | @big ds c eight _ =>
    refine .inr ?_
    rw [String.length_utf8EncodeChar, List.length_cons, List.length_cons, eight]
    exact Nat.lt_of_le_of_lt c.utf8Size_le_four (by decide)

theorem length_le_encoded (cs : List Char) : cs.length ≤ (cs.flatMap String.utf8EncodeChar).length := by
  induction cs with
  | nil => exact Nat.zero_le _
  | cons c cs ih =>
    have some_ := c.utf8Size_pos
    rw [List.flatMap_cons, List.length_append, String.length_utf8EncodeChar, List.length_cons]
    omega

theorem Elements.length_le (elements : Elements inner bytes) :
    bytes.length ≤ (inner.flatMap String.utf8EncodeChar).length ∧
      (bytes.length = (inner.flatMap String.utf8EncodeChar).length →
        ∀ c ∈ inner, c ≠ '"' ∧ c ≠ '\\' ∧ c ≠ '\n') := by
  induction elements with
  | nil => simp
  | @cons ds _ bytes _ first _ ih =>
    obtain ⟨shorter, verbatim⟩ := ih
    rw [List.flatMap_append, List.length_append, List.length_append]
    rcases first.itself_or_shorter with ⟨c, rfl, rfl, own⟩ | escape
    · rw [List.flatMap_singleton]
      refine ⟨Nat.add_le_add_left shorter _, fun same => ?_⟩
      rw [List.singleton_append, List.forall_mem_cons]
      exact ⟨own, verbatim (Nat.add_left_cancel same)⟩
    · have written := length_le_encoded ds
      exact ⟨by omega, fun same => by omega⟩

theorem elements_of_verbatim {text : List Char} (verbatim : ∀ c ∈ text, c ≠ '"' ∧ c ≠ '\\' ∧ c ≠ '\n') :
    Elements text (text.flatMap String.utf8EncodeChar) := by
  induction text with
  | nil => exact .nil
  | cons c text ih =>
    obtain ⟨⟨quote, slash, line⟩, later⟩ := List.forall_mem_cons.mp verbatim
    exact .cons (.itself quote slash line) (ih later)

/-- A text between quotes gives no more bytes than it has, whatever follows without a quote; it gives as
many exactly if nothing in it has another meaning there, and then they are its own. -/
theorem evaluate?_quoted {s : String} {tail : List Char} (unquoted : '"' ∉ tail) :
    (IsVerbatim s → evaluate? ((Emit.quoted s).toList ++ tail) = some (encode s, tail)) ∧
      ∀ bytes rest, evaluate? ((Emit.quoted s).toList ++ tail) = some (bytes, rest) →
        bytes.length ≤ (encode s).length ∧ (bytes.length = (encode s).length → IsVerbatim s) := by
  have chars : (Emit.quoted s).toList ++ tail = '"' :: (s.toList ++ '"' :: tail) := by
    simp [Emit.quoted]
  rw [chars, Text.Utf8.encode_eq]
  refine ⟨fun verbatim => evaluate?_eq_some.mpr ⟨_, rfl, elements_of_verbatim verbatim⟩, ?_⟩
  intro bytes rest read
  obtain ⟨inner, same, elements⟩ := evaluate?_eq_some.mp read
  rw [List.cons.injEq] at same
  -- The literal ends at a quote in the text, or at the one after it.
  obtain ⟨more, text⟩ : ∃ more, s.toList = inner ++ more := by
    obtain ⟨more, longer, later⟩ | ⟨more, shorter, _⟩ := List.append_eq_append_iff.mp same.2
    · cases more with
      | nil => exact ⟨[], by rw [longer, List.append_nil, List.append_nil]⟩
      | cons c more =>
        rw [List.cons_append, List.cons.injEq] at later
        exact absurd (later.2 ▸ by simp) unquoted
    · exact ⟨more, shorter⟩
  obtain ⟨shorter, verbatim⟩ := elements.length_le
  have beyond := length_le_encoded more
  rw [text, List.flatMap_append, List.length_append]
  refine ⟨by omega, fun whole => ?_⟩
  have ended : more = [] := List.eq_nil_of_length_eq_zero (by omega)
  rw [ended, List.flatMap_nil, List.length_nil, Nat.add_zero] at whole
  rw [IsVerbatim, text, ended, List.append_nil]
  exact verbatim whole

end PluginCompiler.Go
