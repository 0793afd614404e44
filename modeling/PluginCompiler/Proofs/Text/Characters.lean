import Mathlib.Data.List.DropRight
import PluginCompiler.Text.Blank
import PluginCompiler.Text.LowerCase

/-! Trimming, words, joined texts and lower-casing. The two ends of a text can be trimmed in either order,
and what is left ends as it did before if something of it is taken from the start. Without characters
beyond the first 128, lower-casing works letter by letter, so it can be done before or after joining. -/

set_option autoImplicit false

namespace PluginCompiler.Text

variable {p : Char → Bool} {c : Char} {cs : List Char}

theorem trimRight_eq_rdropWhile (p : Char → Bool) (cs : List Char) : trimRight p cs = cs.rdropWhile p := rfl

theorem trimRight_cons (p : Char → Bool) (c : Char) (cs : List Char) :
    trimRight p (c :: cs) =
      if trimRight p cs = [] then if p c then [] else [c] else c :: trimRight p cs := by
  simp only [trimRight, List.reverse_cons, List.dropWhile_append, List.dropWhile_cons, List.dropWhile_nil,
    List.isEmpty_iff, List.reverse_eq_nil_iff]
  split
  · split <;> rfl
  · simp

theorem trimRight_cons_of_not (kept : p c = false) : trimRight p (c :: cs) = c :: trimRight p cs := by
  rw [trimRight_cons]
  split <;> simp_all

theorem trimRight_eq_self_iff :
    trimRight p cs = cs ↔ ∀ c, cs.getLast? = some c → p c = false := by
  rw [trimRight_eq_rdropWhile, List.rdropWhile_eq_self_iff]
  rcases List.eq_nil_or_concat cs with rfl | ⟨front, last, rfl⟩ <;> simp

theorem trimRight_eq_self_of_cons (trimmed : trimRight p (c :: cs) = c :: cs) :
    trimRight p cs = cs := by
  rw [trimRight_eq_self_iff] at trimmed ⊢
  intro d last
  exact trimmed d (by simp [List.getLast?_cons, last])

theorem dropWhile_trimRight (cs : List Char) :
    (trimRight p cs).dropWhile p = trimRight p (cs.dropWhile p) := by
  induction cs with
  | nil => rfl
  | cons c cs ih =>
    cases blank : p c with
    | false =>
      have kept : ¬ p c = true := by simp [blank]
      rw [trimRight_cons_of_not blank, List.dropWhile_cons_of_neg kept, List.dropWhile_cons_of_neg kept,
        trimRight_cons_of_not blank]
    | true =>
      rw [trimRight_cons, List.dropWhile_cons_of_pos blank, ← ih, if_pos blank]
      split
      · next empty => simp [empty]
      · exact List.dropWhile_cons_of_pos blank

theorem trimRight_append_of_all {after : List Char} (all : ∀ c ∈ after, p c = true) (cs : List Char) :
    trimRight p (cs ++ after) = trimRight p cs := by
  rw [trimRight, List.reverse_append, List.dropWhile_append_of_pos fun c member =>
    all c (List.mem_reverse.mp member)]
  rfl

theorem head?_trimRight (filled : trimRight p cs ≠ []) : (trimRight p cs).head? = cs.head? := by
  obtain ⟨rest, same⟩ : trimRight p cs <+: cs := List.rdropWhile_prefix p cs
  conv_rhs => rw [← same]
  rw [List.head?_append_of_ne_nil _ filled]

theorem trimRight_trimBy (cs : List Char) : trimRight p (trimBy p cs) = trimBy p cs :=
  List.rdropWhile_idempotent p _

theorem length_trimBy_le (cs : List Char) : (trimBy p cs).length ≤ cs.length :=
  Nat.le_trans (List.rdropWhile_prefix p _).length_le (List.dropWhile_sublist p).length_le

theorem head_trimBy (head : (trimBy p cs).head? = some c) : p c = false := by
  have start := List.head?_dropWhile_not p (trimRight p cs)
  rw [trimBy, ← dropWhile_trimRight] at head
  rw [head] at start
  exact start

theorem trimBy_eq_self (trimmed : trimRight p cs = cs) (start : ∀ c, cs.head? = some c → p c = false) :
    trimBy p cs = cs := by
  cases cs with
  | nil => rfl
  | cons c cs => rw [trimBy, List.dropWhile_cons_of_neg (by simp [start c rfl]), trimmed]

theorem trimBy_eq_self_iff :
    trimBy p cs = cs ↔ (∀ c, cs.head? = some c → p c = false) ∧
      ∀ c, cs.getLast? = some c → p c = false := by
  rw [← trimRight_eq_self_iff]
  constructor
  · intro same
    rw [← same]
    exact ⟨fun c => head_trimBy, trimRight_trimBy cs⟩
  · exact fun ⟨start, trimmed⟩ => trimBy_eq_self trimmed start

theorem trimBy_append {before after : List Char} (front : ∀ c ∈ before, p c = true)
    (back : ∀ c ∈ after, p c = true) (none : ∀ c ∈ cs, p c = false) :
    trimBy p (before ++ (cs ++ after)) = cs := by
  rw [trimBy, List.dropWhile_append_of_pos front]
  cases cs with
  | nil =>
    have left : ∀ c ∈ after.dropWhile p, p c = true := fun c member =>
      back c ((List.dropWhile_sublist p).subset member)
    exact List.rdropWhile_eq_nil_iff.mpr left
  | cons c cs =>
    have kept : ¬ p c = true := by simp [none c List.mem_cons_self]
    rw [List.cons_append, List.dropWhile_cons_of_neg kept, ← List.cons_append,
      trimRight_append_of_all back, trimRight_eq_self_iff]
    exact fun d last => none d (List.mem_of_getLast? last)

theorem unifyNewlines_of_not_mem (clean : '\r' ∉ cs) : unifyNewlines cs = cs := by
  fun_induction unifyNewlines cs with
  | case1 => rfl
  | case2 => simp at clean
  | case3 => simp at clean
  | case4 c cs _ _ ih =>
    rw [ih fun later => clean (List.mem_cons_of_mem c later)]

theorem isPrefixOf?_append (front cs : List Char) : front.isPrefixOf? (front ++ cs) = some cs := by
  induction front with
  | nil => rfl
  | cons c front ih => simp [List.isPrefixOf?, ih]

theorem isPrefixOf?_eq_some {front rest : List Char} :
    front.isPrefixOf? cs = some rest ↔ cs = front ++ rest := by
  refine ⟨fun found => (List.append_eq_of_isPrefixOf?_eq_some found).symm, ?_⟩
  rintro rfl
  exact isPrefixOf?_append front rest

theorem sep_of_mem_wordsFrom {sep : Char → Bool} {word w : List Char}
    (inside : ∀ c ∈ word, sep c = false) (member : w ∈ wordsFrom sep word cs) :
    ∀ c ∈ w, sep c = false := by
  -- The word that is being read is kept in reverse.
  have turned : ∀ c ∈ word.reverse, sep c = false := fun c part => inside c (List.mem_reverse.mp part)
  induction cs generalizing word with
  | nil =>
    rw [wordsFrom] at member
    split at member
    · cases member
    · rw [List.mem_singleton.mp member]
      exact turned
  | cons c cs ih =>
    rw [wordsFrom] at member
    split at member
    · split at member
      · exact ih (by simp) member (by simp)
      · rcases List.mem_cons.mp member with rfl | later
        · exact turned
        · exact ih (by simp) later (by simp)
    · next kept =>
      have grown : ∀ d ∈ c :: word, sep d = false :=
        List.forall_mem_cons.mpr ⟨by simpa using kept, inside⟩
      exact ih grown member fun d part => grown d (List.mem_reverse.mp part)

theorem not_isBlank_of_mem_words {s w : String} (member : w ∈ words s) :
    ∀ c ∈ w.toList, isBlank c = false := by
  obtain ⟨cs, inside, rfl⟩ := List.mem_map.mp member
  rw [String.toList_ofList]
  exact sep_of_mem_wordsFrom (by simp) inside

theorem mem_of_mem_intercalate {sep : String} {parts : List String}
    (member : c ∈ (sep.intercalate parts).toList) :
    c ∈ sep.toList ∨ ∃ part ∈ parts, c ∈ part.toList := by
  induction parts with
  | nil => simp at member
  | cons part rest ih =>
    cases rest with
    | nil => exact .inr ⟨part, List.mem_cons_self, by simpa using member⟩
    | cons next rest =>
      rw [String.intercalate_cons_cons, String.toList_append, String.toList_append, List.mem_append,
        List.mem_append] at member
      obtain (first | between) | later := member
      · exact .inr ⟨part, List.mem_cons_self, first⟩
      · exact .inl between
      · rcases ih later with between | ⟨other, inside, found⟩
        · exact .inl between
        · exact .inr ⟨other, List.mem_cons_of_mem _ inside, found⟩

theorem toList_trim (s : String) : (trim s).toList = trimBy isBlank s.toList := String.toList_ofList

def IsAscii (s : String) : Prop := ∀ c ∈ s.toList, c.toNat < 0x80

instance (s : String) : Decidable (IsAscii s) :=
  List.decidableBAll (fun c : Char => c.toNat < 0x80) s.toList

variable {s t : String}

theorem isAscii_append : IsAscii (s ++ t) ↔ IsAscii s ∧ IsAscii t := by
  simp only [IsAscii, String.toList_append, List.mem_append, or_imp, forall_and]

theorem lowerFrom_of_ascii {cs : List Char} (ascii : ∀ c ∈ cs, c.toNat < 0x80) (left : List Char) :
    lowerFrom left cs = cs.map Char.toLower := by
  induction cs generalizing left with
  | nil => rfl
  | cons c cs ih =>
    have small := ascii c List.mem_cons_self
    have dotted : c.toNat ≠ 0x130 := by omega
    have sigma : c.toNat ≠ 0x3A3 := by omega
    rw [lowerFrom, if_neg dotted, if_neg sigma,
      ih fun d member => ascii d (List.mem_cons_of_mem c member)]
    simp [lowerLetter, small]

theorem toList_lower (ascii : IsAscii s) : (lower s).toList = s.toList.map Char.toLower := by
  rw [lower, String.toList_ofList, lowerFrom_of_ascii ascii]

theorem lower_append (first : IsAscii s) (second : IsAscii t) :
    lower (s ++ t) = lower s ++ lower t := by
  apply String.toList_inj.mp
  simp only [toList_lower, first, second, isAscii_append.mpr ⟨first, second⟩, String.toList_append,
    List.map_append]

theorem toLower_eq_slash {c : Char} (small : c.toNat < 0x80) (same : c.toLower = '/') :
    c = '/' := by
  have table : ∀ n < 0x80, (Char.ofNat n).toLower = '/' → Char.ofNat n = '/' := by decide
  have entry := table c.toNat small
  rw [Char.ofNat_toNat] at entry
  exact entry same

end PluginCompiler.Text
