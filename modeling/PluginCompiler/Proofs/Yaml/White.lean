import PluginCompiler.Text.Blank
import PluginCompiler.Yaml.Node

/-! White space in the syntax of documents. Some of it is no blank there but part of a plain scalar, which
is then a text by its form. -/

set_option autoImplicit false

namespace PluginCompiler.Yaml

variable {gs rest : List Glyph} {c : Char}

theorem suffix_takeChars (p : Char → Bool) (gs : List Glyph) : (takeChars p gs).2 <:+ gs := by
  induction gs with
  | nil => exact List.suffix_refl _
  | cons g gs ih =>
    rw [takeChars]
    split
    · exact ih.trans (List.suffix_cons g gs)
    · exact List.suffix_refl _

theorem suffix_plainRun (inFlow : Bool) (gs : List Glyph) : (plainRun inFlow gs).2 <:+ gs := by
  induction gs with
  | nil => exact List.suffix_refl _
  | cons g gs ih =>
    rw [plainRun]
    dsimp only
    split
    · exact List.suffix_refl _
    · exact ih.trans (List.suffix_cons g gs)

theorem suffix_emptyLines (gs : List Glyph) : (emptyLines gs).2 <:+ gs := by
  induction gs with
  | nil => exact List.suffix_refl _
  | cons g gs ih =>
    have later := ih.trans (List.suffix_cons g gs)
    rw [emptyLines]
    split
    · exact later
    · split
      · split
        · exact List.suffix_cons g gs
        · split <;> next found => rwa [found] at later
      · exact List.suffix_refl _

theorem suffix_between (gs : List Glyph) : (between gs).rest <:+ gs := by
  have spaces := suffix_takeChars (· == ' ') gs
  rw [between]
  split
  next taken after same =>
    rw [same] at spaces
    split
    · next g after =>
      have line := (List.suffix_cons g after).trans spaces
      have lines := (suffix_emptyLines after).trans line
      split
      · split
        · exact line
        · split <;> next found => rwa [found] at lines
      · exact spaces
    · exact List.nil_suffix

theorem suffix_plainFrom (inFlow : Bool) (indent : Int) (fuel : Nat) (pending : List Char)
    (broken : Bool) (gs : List Glyph) : (plainFrom inFlow indent fuel pending broken gs).2.1 <:+ gs := by
  induction fuel generalizing pending broken gs with
  | zero => exact List.suffix_refl _
  | succ fuel ih =>
    have run := suffix_plainRun inFlow gs
    rw [plainFrom]
    split
    · exact List.suffix_refl _
    · split
      · exact List.suffix_refl _
      · next run' after _ found =>
        rw [found] at run
        have gap := (suffix_between after).trans run
        dsimp only
        split
        · exact gap
        · exact (ih _ _ _).trans gap

theorem suffix_toToken (inComment : Bool) (gs : List Glyph) :
    (Scanner.toToken inComment gs).1 <:+ gs := by
  induction gs generalizing inComment with
  | nil => exact List.suffix_refl _
  | cons g gs ih =>
    have later (inComment : Bool) := (ih inComment).trans (List.suffix_cons g gs)
    rw [Scanner.toToken]
    split
    · exact later false
    · split
      · exact List.suffix_refl _
      · split
        · exact later true
        · split
          · exact later false
          · split
            · exact later true
            · exact List.suffix_refl _

def IsWhite (gs : List Glyph) : Prop := ∀ g ∈ gs, g.char = '\x00' ∨ Text.isBlank g.char = true

theorem IsWhite.suffix (white : IsWhite gs) (suffix : rest <:+ gs) : IsWhite rest :=
  fun g member => white g (suffix.subset member)

/-- A line break may become a line feed; all other glyphs but the last are characters of the text. -/
theorem char_glyphsFrom {g : Glyph} {m : Mark} {source : List Char} (member : g ∈ glyphsFrom m source) :
    g.char = '\x00' ∨ g.char = '\n' ∨ g.char ∈ source := by
  fun_induction glyphsFrom m source with
  | case1 m => simp_all
  | case2 m cs ih =>
    rcases List.mem_cons.mp member with rfl | later
    · exact .inr (.inl rfl)
    · exact (ih later).imp_right fun other => other.imp_right fun inside => by simp [inside]
  | case3 m c cs _ _ ih =>
    rcases List.mem_cons.mp member with rfl | later
    · exact .inr (.inl rfl)
    · exact (ih later).imp_right fun other => other.imp_right (List.mem_cons_of_mem c)
  | case4 m c cs _ _ _ ih | case5 m c cs _ _ _ ih =>
    rcases List.mem_cons.mp member with rfl | later
    · exact .inr (.inr List.mem_cons_self)
    · exact (ih later).imp_right fun other => other.imp_right (List.mem_cons_of_mem c)

theorem isWhite_of_glyphs {source : List Char} (blank : source.all Text.isBlank = true)
    (found : glyphs? source = some gs) : IsWhite gs := by
  have white : IsWhite (glyphsFrom ⟨0, 0, 0⟩ source) := fun g member => by
    rcases char_glyphsFrom member with ends | feed | inside
    · exact .inl ends
    · exact .inr (by rw [feed]; decide)
    · exact .inr (List.all_eq_true.mp blank _ inside)
  rw [glyphs?] at found
  split at found
  · split at found
    · next g rest same =>
      rw [same] at white
      obtain rfl := Option.some.inj found
      split
      · exact white.suffix (List.suffix_cons g rest)
      · exact white
    · obtain rfl := Option.some.inj found
      exact fun g member => by cases member
  · cases found

/-- A text without characters, or one whose first character is white space. -/
def StartsWhite (text : String) : Prop := ∀ c ∈ text.toList.head?, Text.isBlank c = true

theorem head_plainRun (inFlow : Bool) (member : c ∈ (plainRun inFlow gs).1.head?) : c = peek gs := by
  cases gs with
  | nil => cases member
  | cons g gs =>
    rw [plainRun] at member
    dsimp only at member
    split at member
    · cases member
    · exact (Option.some.inj member).symm

theorem head_plainFrom {inFlow broken : Bool} {indent : Int} {fuel : Nat}
    (member : c ∈ (plainFrom inFlow indent fuel [] broken gs).1.head?) : c = peek gs := by
  cases fuel with
  | zero => cases member
  | succ fuel =>
    rw [plainFrom] at member
    split at member
    · cases member
    · split at member
      · cases member
      · next run after nonempty same =>
        refine head_plainRun inFlow ?_
        rw [same]
        cases run with
        | nil => exact absurd rfl nonempty
        | cons d run =>
          dsimp only at member
          split at member <;> exact member

section

variable {cs : List Char}

theorem ne_of_isBlank {d : Char} (blank : Text.isBlank c = true) (ink : Text.isBlank d = false) : c ≠ d :=
  fun same => by
    rw [same, ink] at blank
    cases blank

theorem isDigit_of_isBlank (blank : Text.isBlank c = true) : c.isDigit = false := by
  simp only [Text.isBlank, Bool.or_eq_true, Bool.and_eq_true, decide_eq_true_eq, beq_iff_eq] at blank
  simp only [Char.isDigit, Bool.and_eq_false_iff, decide_eq_false_iff_not, ge_iff_le,
    UInt32.le_iff_toNat_le]
  change ¬ 48 ≤ c.toNat ∨ ¬ c.toNat ≤ 57
  omega

theorem contains_of_isBlank {words : List String} (blank : Text.isBlank c = true)
    (inked : words.all (fun w => w.toList.head?.all fun d => !Text.isBlank d) = true) :
    words.contains (String.ofList (c :: cs)) = false := by
  rw [← Bool.not_eq_true, List.contains_iff_mem]
  intro member
  have ink := List.all_eq_true.mp inked _ member
  simp [blank] at ink

theorem dropSign_of_isBlank (blank : Text.isBlank c = true) : Form.dropSign (c :: cs) = c :: cs := by
  have dash := ne_of_isBlank blank (d := '-') (by decide)
  have plus := ne_of_isBlank blank (d := '+') (by decide)
  simp [Form.dropSign, dash, plus]

theorem isFloat_of_isBlank (blank : Text.isBlank c = true) : Form.isFloat (c :: cs) = false := by
  have point := ne_of_isBlank blank (d := '.') (by decide)
  simp [Form.isFloat, dropSign_of_isBlank blank, isDigit_of_isBlank blank, Form.isInfinity,
    Form.isUndefined, point]

theorem isInt_of_isBlank (blank : Text.isBlank c = true) : Form.isInt (c :: cs) = false := by
  have zero := ne_of_isBlank blank (d := '0') (by decide)
  simp [Form.isInt, dropSign_of_isBlank blank, isDigit_of_isBlank blank, zero]

theorem isTimestamp_of_isBlank (blank : Text.isBlank c = true) :
    Form.isTimestamp (c :: cs) = false := by
  have none_ : Form.twoDigits? (c :: cs) = none := by
    cases cs <;> simp [Form.twoDigits?, isDigit_of_isBlank blank]
  simp [Form.isTimestamp, Form.stamp?, none_]

end

theorem head_chomp {cs : List Char} (member : c ∈ (Form.chomp cs).head?) : c ∈ cs.head? := by
  rw [Form.chomp] at member
  split at member
  · next rest same =>
    have whole : cs = rest.reverse ++ ['\n'] := by simpa using congrArg List.reverse same
    rw [whole, List.head?_append]
    rw [Option.mem_def] at member ⊢
    rw [member, Option.some_or]
  · exact member

/-- White space at the start of a plain scalar makes it a text. -/
theorem ofForm_of_startsWhite {text : String} (white : StartsWhite text) :
    Tag.ofForm text = .null ∨ Tag.ofForm text = .str := by
  by_cases bare : text = ""
  · exact .inl (by rw [Tag.ofForm, if_pos bare])
  right
  have white : ∀ c ∈ (Form.chomp text.toList).head?, Text.isBlank c = true :=
    fun c member => white c (head_chomp member)
  rw [Tag.ofForm, if_neg bare]
  dsimp only
  generalize Form.chomp text.toList = cs at white
  cases cs with
  | nil => rfl
  | cons c cs =>
    have blank : Text.isBlank c = true := white c rfl
    have equals := ne_of_isBlank blank (d := '=') (by decide)
    have angle := ne_of_isBlank blank (d := '<') (by decide)
    have bang := ne_of_isBlank blank (d := '!') (by decide)
    have ampersand := ne_of_isBlank blank (d := '&') (by decide)
    have star := ne_of_isBlank blank (d := '*') (by decide)
    have bools : Form.boolWords.contains (String.ofList (c :: cs)) = false :=
      contains_of_isBlank blank (by decide)
    have nulls : Form.nullWords.contains (String.ofList (c :: cs)) = false :=
      contains_of_isBlank blank (by decide)
    rw [bools, nulls]
    simp [isFloat_of_isBlank blank, isInt_of_isBlank blank, isTimestamp_of_isBlank blank, equals, angle,
      Form.isSpecial, bang, ampersand, star]

end PluginCompiler.Yaml
