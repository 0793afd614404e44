import Mathlib.Tactic.SplitIfs
import PluginCompiler.Text.Utf8

/-! Encoded and decoded texts. A text is encoded character by character, so different texts have
different bytes. Bytes are decoded exactly if they encode some text, and to that text. -/

set_option autoImplicit false

namespace PluginCompiler.Text.Utf8

open String (utf8EncodeChar)

theorem encode_ofList (cs : List Char) :
    encode (String.ofList cs) = cs.flatMap utf8EncodeChar := by
  rw [encode, String.toUTF8, String.toByteArray_ofList, List.utf8Encode, List.toList_data_toByteArray]

theorem encode_eq (s : String) : encode s = s.toList.flatMap utf8EncodeChar := by
  rw [← encode_ofList, String.ofList_toList]

theorem encode_append (s t : String) : encode (s ++ t) = encode s ++ encode t := by
  rw [encode_eq, encode_eq, encode_eq, String.toList_append, List.flatMap_append]

theorem encode_inj {s t : String} : encode s = encode t ↔ s = t := by
  constructor
  · intro same
    exact String.toByteArray_inj.mp (ByteArray.ext (Array.toList_inj.mp same))
  · rintro rfl
    rfl

/-- The mark of a first byte with `more` bytes to follow the next one. -/
def mark : Nat → Nat
  | 0 => 0xC0
  | 1 => 0xE0
  | _ => 0xF0

/-- The first two digits, in base 64, of a character that takes `more` further ones and not less. No
surrogate begins so, and no number past the last. -/
def Leads (digits : Nat) : Nat → Prop
  | 0 => 0x80 ≤ digits ∧ digits < 0x800
  | 1 => 0x20 ≤ digits ∧ digits < 0x400 ∧ ¬ (0x360 ≤ digits ∧ digits < 0x380)
  | 2 => 0x10 ≤ digits ∧ digits < 0x110
  | _ => False

/-- Two bytes with `more` to follow begin a character and hold its first two digits. -/
structure Begins (b x : UInt8) (digits more : Nat) : Prop where
  first : b.toNat = mark more + digits / 64
  next : x.toNat = 0x80 + digits % 64
  leads : Leads digits more

structure Continues (x : UInt8) : Prop where
  least : 0x80 ≤ x.toNat
  most : x.toNat ≤ 0xBF

inductive Spells : List UInt8 → Nat → Prop where
  | one {b : UInt8} (small : b.toNat < 0x80) : Spells [b] b.toNat
  | two {b x : UInt8} {digits : Nat} (begins : Begins b x digits 0) : Spells [b, x] digits
  | three {b x y : UInt8} {digits : Nat} (begins : Begins b x digits 1) (continues : Continues y) :
    Spells [b, x, y] (digits * 64 + (y.toNat - 0x80))
  | four {b x y z : UInt8} {digits : Nat} (begins : Begins b x digits 2) (continues : Continues y)
    (ends : Continues z) :
    Spells [b, x, y, z] ((digits * 64 + (y.toNat - 0x80)) * 64 + (z.toNat - 0x80))

variable {n position : Nat} {done cs : List Char} {bytes first rest : List UInt8}

theorem Spells.of_eq {m : Nat} (spells : Spells bytes m) (same : m = n) : Spells bytes n :=
  same ▸ spells

theorem Spells.isValidChar (spells : Spells bytes n) : n.isValidChar := by
  rw [Nat.isValidChar]
  cases spells with
  | one small => omega
  | two begins =>
    have leads := begins.leads
    simp only [Leads] at leads
    omega
  | three begins continues =>
    have leads := begins.leads
    have bounds := continues.most
    simp only [Leads] at leads
    omega
  | four begins continues ends =>
    have leads := begins.leads
    have bounds := continues.most
    have bounds' := ends.most
    simp only [Leads] at leads
    omega

theorem ofNat_eq {b : UInt8} {m : Nat} (same : m = b.toNat) : UInt8.ofNat m = b := by
  rw [same, UInt8.ofNat_toNat]

theorem Spells.utf8EncodeChar_eq (spells : Spells bytes n) : utf8EncodeChar (Char.ofNat n) = bytes := by
  have number : (Char.ofNat n).val.toNat = n := by
    rw [Char.ofNat, dif_pos spells.isValidChar]
    rfl
  rw [utf8EncodeChar.eq_1, number]
  cases spells with
  | one small => rw [if_pos (by omega), UInt8.ofNat_toNat]
  | two begins =>
    obtain ⟨first, next, leads⟩ := begins
    simp only [mark, Leads] at first leads
    rw [if_neg (by omega), if_pos (by omega)]
    simp only [List.cons.injEq, and_true]
    exact ⟨ofNat_eq (by omega), ofNat_eq (by omega)⟩
  | three begins continues =>
    obtain ⟨first, next, leads⟩ := begins
    obtain ⟨least, most⟩ := continues
    simp only [mark, Leads] at first leads
    rw [if_neg (by omega), if_neg (by omega), if_pos (by omega)]
    simp only [List.cons.injEq, and_true]
    exact ⟨ofNat_eq (by omega), ofNat_eq (by omega), ofNat_eq (by omega)⟩
  | four begins continues ends =>
    obtain ⟨first, next, leads⟩ := begins
    obtain ⟨least, most⟩ := continues
    obtain ⟨least', most'⟩ := ends
    simp only [mark, Leads] at first leads
    rw [if_neg (by omega), if_neg (by omega), if_neg (by omega)]
    simp only [List.cons.injEq, and_true]
    exact ⟨ofNat_eq (by omega), ofNat_eq (by omega), ofNat_eq (by omega), ofNat_eq (by omega)⟩

theorem spells_utf8EncodeChar (c : Char) : Spells (utf8EncodeChar c) c.toNat := by
  have valid : c.val.toNat.isValidChar := c.valid
  rw [utf8EncodeChar.eq_1, Char.toNat]
  generalize c.val.toNat = n at valid ⊢
  simp only [Nat.isValidChar] at valid
  split_ifs
  · have number : (UInt8.ofNat n).toNat = n := by
      rw [UInt8.toNat_ofNat']
      omega
    exact .of_eq (.one (by omega)) number
  · have begins : Begins (.ofNat (n / 64 % 32 + 192)) (.ofNat (n % 64 + 128)) n 0 := by
      constructor <;> simp only [mark, Leads, UInt8.toNat_ofNat'] <;> omega
    exact .two begins
  · have begins : Begins (.ofNat (n / 4096 % 16 + 224)) (.ofNat (n / 64 % 64 + 128)) (n / 64) 1 := by
      constructor <;> simp only [mark, Leads, UInt8.toNat_ofNat'] <;> omega
    refine .of_eq (.three begins ⟨?_, ?_⟩) ?_ <;> simp only [UInt8.toNat_ofNat'] <;> omega
  · have begins :
        Begins (.ofNat (n / 262144 % 8 + 240)) (.ofNat (n / 4096 % 64 + 128)) (n / 4096) 2 := by
      constructor <;> simp only [mark, Leads, UInt8.toNat_ofNat'] <;> omega
    refine .of_eq (.four begins ⟨?_, ?_⟩ ⟨?_, ?_⟩) ?_ <;> simp only [UInt8.toNat_ofNat'] <;> omega

theorem begins_iff {b x : UInt8} {digits more : Nat} : Begins b x digits more ↔
    ∃ value low high, promise? b.toNat = some (value, more, low, high) ∧ low ≤ x.toNat ∧
      x.toNat ≤ high ∧ value * 64 + (x.toNat - 0x80) = digits := by
  constructor
  · rintro ⟨first, next, leads⟩
    -- By the number of bytes that follow, each of which is promised by ranges of the first byte.
    match more with
    | 0 =>
      simp only [mark, Leads] at first leads
      fun_cases promise? b.toNat
      case case2 => exact ⟨_, _, _, rfl, by omega, by omega, by omega⟩
      all_goals omega
    | 1 =>
      simp only [mark, Leads] at first leads
      fun_cases promise? b.toNat
      case case3 | case4 | case5 => exact ⟨_, _, _, rfl, by omega, by omega, by omega⟩
      all_goals omega
    | 2 =>
      simp only [mark, Leads] at first leads
      fun_cases promise? b.toNat
      case case6 | case7 | case8 => exact ⟨_, _, _, rfl, by omega, by omega, by omega⟩
      all_goals omega
  · rintro ⟨value, low, high, promised, least, most, rfl⟩
    revert promised
    fun_cases promise? b.toNat
    all_goals
      intro promised
      simp only [Option.some.injEq, Prod.mk.injEq, reduceCtorEq] at promised
    all_goals
      obtain ⟨rfl, rfl, rfl, rfl⟩ := promised
      exact ⟨by simp only [mark]; omega, by omega, by simp only [Leads]; omega⟩

/-- What is left to decode of a character that lacks some bytes. -/
def resume (lead : UInt8) (start position digits : Nat) (done : List Char) (rest : List UInt8) :
    Nat → Except DecodeError (List Char)
  | 0 => decodeFrom position none (Char.ofNat digits :: done) rest
  | more + 1 => decodeFrom position (some ⟨lead, start, digits, more, 0x80, 0xBF⟩) done rest

variable {b x y : UInt8} {start digits more : Nat}

theorem Begins.decodeFrom_eq (begins : Begins b x digits more) (position : Nat) :
    decodeFrom position none done (b :: x :: rest) =
      resume b position (position + 2) digits done rest more := by
  have large : ¬ b.toNat < 0x80 := by
    have first := begins.first
    unfold mark at first
    split at first <;> omega
  obtain ⟨value, low, high, promised, least, most, rfl⟩ := begins_iff.mp begins
  simp only [decodeFrom, if_neg large, promised, if_pos (And.intro least most)]
  cases more <;> rfl

theorem Continues.decodeFrom_eq (continues : Continues y) :
    decodeFrom position (some ⟨b, start, digits, more, 0x80, 0xBF⟩) done (y :: rest) =
      resume b start (position + 1) (digits * 64 + (y.toNat - 0x80)) done rest more := by
  simp only [decodeFrom, if_pos (And.intro continues.least continues.most)]
  cases more <;> rfl

theorem decodeFrom_append (spells : Spells first n) :
    decodeFrom position none done (first ++ rest) =
      decodeFrom (position + first.length) none (Char.ofNat n :: done) rest := by
  cases spells with
  | one small =>
    simp only [List.singleton_append, decodeFrom, if_pos small]
    rfl
  | two begins => exact begins.decodeFrom_eq position
  | three begins continues =>
    exact (begins.decodeFrom_eq position).trans continues.decodeFrom_eq
  | four begins continues ends =>
    exact (begins.decodeFrom_eq position).trans (continues.decodeFrom_eq.trans ends.decodeFrom_eq)

theorem begins_of_decodeFrom (decoded : decodeFrom position none done (b :: rest) = .ok cs) :
    b.toNat < 0x80 ∨ ∃ x rest' digits more, rest = x :: rest' ∧ Begins b x digits more := by
  rw [decodeFrom] at decoded
  split at decoded
  · next small => exact .inl small
  · split at decoded
    · cases decoded
    · next value more low high promised =>
      cases rest with
      | nil => cases decoded
      | cons x rest' =>
        rw [decodeFrom] at decoded
        split at decoded
        · next kept =>
          have begins := begins_iff.mpr ⟨value, low, high, promised, kept.1, kept.2, rfl⟩
          exact .inr ⟨x, rest', _, more, rfl, begins⟩
        · cases decoded

theorem continues_of_decodeFrom
    (decoded : decodeFrom position (some ⟨b, start, digits, more, 0x80, 0xBF⟩) done rest = .ok cs) :
    ∃ y rest', rest = y :: rest' ∧ Continues y := by
  cases rest with
  | nil => cases decoded
  | cons y rest' =>
    rw [decodeFrom] at decoded
    split at decoded
    · next kept => exact ⟨y, rest', rfl, ⟨kept.1, kept.2⟩⟩
    · cases decoded

theorem spells_of_decodeFrom (decoded : decodeFrom position none done bytes = .ok cs) :
    bytes = [] ∨ ∃ first rest n, bytes = first ++ rest ∧ Spells first n := by
  cases bytes with
  | nil => exact .inl rfl
  | cons b rest =>
    refine .inr ?_
    obtain small | ⟨x, rest, digits, more, rfl, begins⟩ := begins_of_decodeFrom decoded
    · exact ⟨[b], rest, _, rfl, .one small⟩
    · rw [begins.decodeFrom_eq] at decoded
      match more with
      | 0 => exact ⟨[b, x], rest, _, rfl, .two begins⟩
      | 1 =>
        obtain ⟨y, rest, rfl, continues⟩ := continues_of_decodeFrom decoded
        exact ⟨[b, x, y], rest, _, rfl, .three begins continues⟩
      | 2 =>
        obtain ⟨y, rest, rfl, continues⟩ := continues_of_decodeFrom decoded
        have further := continues.decodeFrom_eq.symm.trans decoded
        obtain ⟨z, rest, rfl, ends⟩ := continues_of_decodeFrom further
        exact ⟨[b, x, y, z], rest, _, rfl, .four begins continues ends⟩
      | _ + 3 => exact begins.leads.elim

theorem decodeFrom_eq_ok : decodeFrom position none done bytes = .ok cs ↔
    ∃ more, cs = done.reverse ++ more ∧ bytes = more.flatMap utf8EncodeChar := by
  constructor
  · intro decoded
    induction length : bytes.length using Nat.strongRecOn generalizing position done bytes with
    | ind size ih =>
      obtain rfl | ⟨first, rest, n, rfl, spells⟩ := spells_of_decodeFrom decoded
      · cases decoded
        exact ⟨[], by simp, rfl⟩
      · rw [decodeFrom_append spells] at decoded
        have shorter : rest.length < size := by
          have filled : first.length ≠ 0 := by cases spells <;> simp
          rw [← length, List.length_append]
          omega
        obtain ⟨more, rfl, rfl⟩ := ih _ shorter decoded rfl
        refine ⟨Char.ofNat n :: more, by simp, ?_⟩
        rw [List.flatMap_cons, spells.utf8EncodeChar_eq]
  · rintro ⟨more, rfl, rfl⟩
    induction more generalizing position done with
    | nil => simp [decodeFrom]
    | cons c more ih =>
      rw [List.flatMap_cons, decodeFrom_append (spells_utf8EncodeChar c), Char.ofNat_toNat, ih]
      simp

/-- The decoder undoes the encoder, and decodes nothing else. -/
theorem decode_eq_ok {s : String} : decode bytes = .ok s ↔ bytes = encode s := by
  rw [decode, decodeChars]
  constructor
  · intro decoded
    cases characters : decodeFrom 0 none [] bytes with
    | error fault =>
      rw [characters] at decoded
      cases decoded
    | ok cs =>
      rw [characters] at decoded
      cases decoded
      obtain ⟨more, rfl, rfl⟩ := decodeFrom_eq_ok.mp characters
      rw [encode_ofList]
  · rintro rfl
    rw [decodeFrom_eq_ok.mpr ⟨s.toList, rfl, encode_eq s⟩]
    exact congrArg Except.ok (String.ofList_toList)

end PluginCompiler.Text.Utf8
