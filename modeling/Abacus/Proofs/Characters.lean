import Abacus.Proofs.Faults
import Abacus.Proofs.Outlines
import Abacus.Proofs.Scripts

/-!
# The characters of answers

The answer to a source in the alphabet is written in the alphabet too, and in the printable
characters of ASCII (`Session.shown_answer`).  So it holds no control characters but tabs and
newlines.

1. A text may be shown if its parts may (`shown_append`).  Digits may, numbers may
   (`Decimal.shown_write_plain`), and so may what stands for a character in quotes
   (`Text.Escaped.shown`).
2. A token is written in characters of its source (`Token.Fits.shown_lexeme`), and a tree in its
   numbers, names and operators (`Expr.HasWritableParts.shown_outlineAt`).
3. A failure shows a token or a name, if anything (`ParseError.shown_message`,
   `Failure.shown_display_name`).
-/

namespace Abacus

/-! ## Texts -/

/-- A character that an answer may hold: one of the alphabet, or another printable one of ASCII. -/
def IsShown (c : Char) : Prop := InAlphabet c ∨ (' ' ≤ c ∧ c ≤ '~')

/-- A text of characters that an answer may hold. -/
def Shown (text : List Char) : Prop := ∀ c ∈ text, IsShown c

section Shown

variable {a b : List Char} {c : Char}

@[simp] theorem shown_nil : Shown [] := by simp [Shown]

@[simp] theorem shown_cons : Shown (c :: a) ↔ IsShown c ∧ Shown a := List.forall_mem_cons

@[simp] theorem shown_append : Shown (a ++ b) ↔ Shown a ∧ Shown b := List.forall_mem_append

@[simp] theorem isShown_of_ascii (hspace : ' ' ≤ c) (htilde : c ≤ '~') : IsShown c :=
  .inr ⟨hspace, htilde⟩

@[simp] theorem isShown_tab : IsShown '\t' := .inl (.inr (.inl (.inr (.inl rfl))))

@[simp] theorem isShown_newline : IsShown '\n' := .inl (.inr (.inl (.inr (.inr rfl))))

theorem Shown.mono (h : Shown b) (hsubset : a ⊆ b) : Shown a := fun c hc => h c (hsubset hc)

theorem shown_of_inAlphabet (h : ∀ c ∈ a, InAlphabet c) : Shown a := fun c hc => .inl (h c hc)

@[simp] theorem shown_replicate (h : IsShown c) (n : Nat) : Shown (List.replicate n c) := by
  intro d hd
  rwa [List.eq_of_mem_replicate hd]

/-- Lines that may be shown may be shown below each other. -/
theorem shown_lines {lines : List String} (h : ∀ line ∈ lines, Shown line.toList) :
    Shown ("\n".intercalate lines).toList := by
  induction lines with
  | nil => simp
  | cons line lines ih =>
    rw [List.forall_mem_cons] at h
    cases lines with
    | nil => simpa using h.1
    | cons next lines =>
      have hcons : ("\n".intercalate (line :: next :: lines)).toList =
          line.toList ++ '\n' :: ("\n".intercalate (next :: lines)).toList := by
        simp [String.toList_intercalate]
      rw [hcons, shown_append, shown_cons]
      exact ⟨h.1, isShown_newline, ih h.2⟩

theorem shown_toDigits {base : Nat} (hbase : 1 < base) (hlimit : base ≤ 16) (n : Nat) :
    Shown (Nat.toDigits base n) := by
  have hascii : ∀ k < 16, ' ' ≤ Nat.digitChar k ∧ Nat.digitChar k ≤ '~' := by decide
  intro c hc
  rcases Text.exists_digitChar_of_mem hbase hc with ⟨k, hk, rfl⟩
  exact .inr (hascii k (by omega))

@[simp] theorem shown_decimal (n : Nat) : Shown (Nat.toDigits 10 n) :=
  shown_toDigits (by omega) (by omega) n

end Shown

/-! ## Quoted text -/

namespace Text

@[simp] theorem shown_codePoint (c : Char) : Shown (codePoint c) := by
  have hdigits : Shown (Nat.toDigits 16 c.toNat) := shown_toDigits (by omega) (by omega) _
  simp [codePoint, hdigits]

/-- A character is escaped by itself or by marks of ASCII. -/
theorem Escaped.shown {c : Char} {s : List Char} (h : Escaped c s) (hc : IsShown c) : Shown s := by
  cases h with
  | itself _ _ _ => simpa using hc
  | @short letter named =>
    have hletters : ∀ p ∈ shortNames, IsShown p.2 := by simp [shortNames]
    simpa using hletters _ named
  | code => exact shown_codePoint c

theorem shown_quote {text : String} (h : Shown text.toList) : Shown (quote text).toList := by
  have hinside : Shown (text.toList.flatMap escape) := by
    intro c hc
    rcases List.mem_flatMap.mp hc with ⟨d, hd, hc⟩
    exact (escaped_escape d).shown (h d hd) c hc
  simp [quote, hinside]

end Text

/-! ## Numbers -/

namespace Decimal

theorem shown_positional {whole : String} (h : Shown whole.toList) (d : Decimal) :
    Shown (positional whole d) := by
  have hdigits := shown_decimal d.digits
  unfold positional
  dsimp only
  split
  · simp [zeros, h]
  split
  · rw [shown_append, shown_cons]
    exact ⟨hdigits.mono (List.take_subset _ _), by simp, hdigits.mono (List.drop_subset _ _)⟩
  · simp [zeros]

theorem shown_layout_plain (d : Decimal) : Shown (Style.plain.layout d) := by
  have hlayout : Style.plain.layout d = positional "" d := by simp [Style.layout, Style.plain]
  rw [hlayout]
  exact shown_positional (by simp) d

/-- A number may be shown to the reader, be it finite or not. -/
theorem shown_write_plain (x : Float) : Shown (Style.plain.write x).toList := by
  have hsign : Shown (if Binary64.isNegative x then "-" else "").toList := by split <;> simp
  unfold Style.write
  dsimp only
  split
  · simp
  split
  · simp [hsign]
  split
  · simp [hsign, Style.plain]
  · simp [hsign, shown_layout_plain]

end Decimal

theorem Value.shown_text (v : Value) : Shown v.text.toList := by
  cases v with
  | number x => exact Decimal.shown_write_plain x
  | null => simp [text]

/-! ## Tokens -/

namespace Token

variable {t : Token}

/-- A token is written in characters of the alphabet, and an end of file as its name. -/
theorem Fits.shown_lexeme (h : t.Fits) : Shown t.lexeme.toList := by
  cases hend : t.isEnd with
  | false =>
    refine shown_of_inAlphabet ?_
    intro c hc
    rw [← isRecognized_iff, isRecognized, h.of?_eq_role hend hc]
    rfl
  | true =>
    have hkind : t.kind = .endOfFile := by simpa [isEnd] using hend
    simp only [Fits, hkind] at h
    simp [h, Kind.name]

@[simp] theorem Kind.shown_name (kind : Kind) : Shown kind.name.toList := by
  cases kind <;> simp [name]

theorem Fits.shown_dump (h : t.Fits) : Shown t.dump.toList := by
  have hlexeme := Text.shown_quote h.shown_lexeme
  rw [toList_dump]
  simp [hlexeme]

theorem Fits.shown_describe (h : t.Fits) : Shown t.describe.toList := by
  unfold describe
  split
  · exact Kind.endOfFile.shown_name
  · simp [toString, h.shown_lexeme]

end Token

/-! ## Trees -/

namespace Expr

@[simp] theorem shown_symbol (op : Op) : Shown op.symbol.toList := by cases op <;> simp [Op.symbol]

/-- The outline of a tree that can be written shows its numbers, its names and its operators. -/
theorem HasWritableParts.shown_outlineAt {e : Expr} (h : e.HasWritableParts) (depth : Nat) :
    Shown (e.outlineAt depth).toList := by
  induction e generalizing depth with
  | number x => simp [outlineAt, Decimal.shown_write_plain]
  | name word =>
    have hword : Shown word.toList := by
      refine shown_of_inAlphabet ?_
      intro c hc
      exact .inr (.inr (.inr (List.all_eq_true.mp h.2.1 c hc)))
    simp [outlineAt, hword]
  | null => exact h.elim
  | binary op l r ihl ihr => simp [outlineAt, ihl h.1, ihr h.2]

end Expr

/-! ## Failures -/

@[simp] theorem Position.shown_describe (p : Position) : Shown p.describe.toList := by
  simp [describe, toString]

theorem ParseError.shown_message {e : ParseError} (h : e.token.Fits) :
    Shown e.message.toList := by
  cases e with
  | expected kind found =>
    have hfound : found.Fits := h
    change Shown ("Expected " ++ kind.name ++ ", but encountered " ++ found.describe).toList
    simp [hfound.shown_describe]
  | unexpected found =>
    have hfound : found.Fits := h
    change Shown ("Unexpected token " ++ found.describe).toList
    simp [hfound.shown_describe]
  | invalidNumber t =>
    have ht : t.Fits := h
    change Shown ("Invalid numeric literal '" ++ t.lexeme ++ "'").toList
    simp [ht.shown_lexeme]
  | nestingTooDeep t limit =>
    change Shown ("Groupings nested deeper than " ++ Nat.repr limit ++ " levels").toList
    simp

namespace Failure

theorem shown_display_parse {e : ParseError} (h : e.token.Fits) :
    Shown (parse e).display.toList := by
  have hmessage : Shown (parse e).message.toList := e.shown_message h
  rw [display_parse]
  simp [hmessage]

/-- A name without a value is shown in quotes. -/
theorem shown_display_name {word : String} (h : Shown word.toList) :
    Shown (eval (.unsupportedNode (.name word))).display.toList := by
  have hmessage : (eval (.unsupportedNode (.name word))).message =
      "Unsupported node " ++ (Expr.name word).dump := rfl
  rw [display_of_eval, hmessage]
  simp [Expr.dump, Expr.dumpAfter, Text.shown_quote h]

end Failure

/-! ## Answers -/

namespace Run

variable {source : String} {failure : Failure}

theorem shown_display (hchars : ∀ c ∈ source.toList, InAlphabet c)
    (h : (value source).result = .error failure) : Shown failure.display.toList := by
  have hfits := Token.fits_of_mem_ofSource hchars
  cases failure with
  | lex e =>
    -- there is no foreign character to report
    rcases exists_isFirstFault_iff.mp ⟨e, value_eq_lex_iff.mp h⟩ with ⟨c, hmem, hc⟩
    exact absurd (hchars c hmem) hc
  | parse e =>
    have hprogram := program_eq_error_iff.mpr ⟨h, .inr ⟨e, rfl⟩⟩
    rcases program_eq_parse_iff.mp hprogram with ⟨tokens, htokens, hread⟩
    have hlexed := Token.tokenize_eq_ok_iff.mp htokens
    rcases hlexed.ends with ⟨inside, stop, rfl, hstop, _⟩
    have hmem := Program.token_mem_of_error (by simp) hstop hread
    exact Failure.shown_display_parse (hlexed.fits _ hmem)
  | eval e =>
    cases hprogram : (program source).result with
    | error failure =>
      rw [result_value, hprogram] at h
      have hplaced := program_error hprogram
      rw [Except.error.inj h] at hplaced
      exact absurd hplaced (by simp)
    | ok p =>
      have hp := (program_eq_ok_iff.mp hprogram).2
      rcases (value_eq_eval_iff hchars hp).mp h with ⟨t, hfind, rfl⟩
      exact Failure.shown_display_name (hfits t (List.mem_of_find?_eq_some hfind)).shown_lexeme

theorem shown_text {emit : Emit} {shown : String} (hchars : ∀ c ∈ source.toList, InAlphabet c)
    (h : (text emit source).result = .ok shown) : Shown shown.toList := by
  cases emit with
  | value =>
    cases hvalue : (value source).result with
    | error failure =>
      rw [text_value_eq_error_iff.mpr hvalue] at h
      exact absurd h (by simp)
    | ok v =>
      rw [text_of_value hvalue] at h
      rw [← Except.ok.inj h]
      exact v.shown_text
  | tokens =>
    rcases Token.exists_lexed hchars .start with ⟨tokens, hlexed⟩
    rw [text_tokens_of_ok (Token.tokenize_eq_ok_iff.mpr hlexed)] at h
    rw [← Except.ok.inj h]
    refine shown_lines ?_
    intro line hline
    rcases List.mem_map.mp hline with ⟨t, ht, rfl⟩
    exact (hlexed.fits t ht).shown_dump
  | tree =>
    cases hprogram : (program source).result with
    | error failure =>
      rw [text_tree_eq_error_iff.mpr hprogram] at h
      exact absurd h (by simp)
    | ok p =>
      have hwritable := (program_eq_ok_iff.mp hprogram).2.isWritable
        (Token.fits_of_mem_ofSource hchars)
      rw [text_tree_of_ok hprogram] at h
      rw [← Except.ok.inj h]
      refine shown_lines ?_
      intro line hline
      rcases List.mem_map.mp hline with ⟨e, he, rfl⟩
      rw [e.outline_eq_outlineAt]
      exact (hwritable e he).1.shown_outlineAt 0

end Run

/-- An answer to a source in the alphabet is written in the alphabet and in printable ASCII. -/
theorem Session.shown_answer {source : String} (hchars : ∀ c ∈ source.toList, InAlphabet c)
    (emit : Emit) : Shown (answer emit source).toList := by
  unfold answer
  cases h : (Run.text emit source).result with
  | ok shown => exact Run.shown_text hchars h
  | error failure => exact Run.shown_display hchars (Run.value_eq_error_of_text h)

end Abacus
