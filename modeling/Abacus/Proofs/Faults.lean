import Abacus.Proofs.Diagnostics
import Abacus.Proofs.Writing

/-!
# The faults of sources

Tokens can be wrong in more ways than the tokens of a source ever are.

1. The text of a token of a source fits its kind.  So a number is always read
   (`Token.Fits.read?_isSome`), and an operator is always one of the five
   (`Token.Fits.isOperator`).
2. A token that fits fails a scan only because something else has to stand in its place or because
   it opens one grouping too many (`Scan.isOrdinary_of_take`).
3. So do the tokens of a source, which fail their scan one token at a time
   (`Program.isOrdinary_of_error`).
-/

namespace Abacus

/-! ## Tokens that fit -/

namespace Token

variable {t : Token}

/-- Digits are always read. -/
theorem Fits.read?_isSome (h : t.Fits) (hkind : t.kind = .number) :
    ∃ x, Numeral.read? t.lexeme = some x := by
  simp only [Fits, hkind] at h
  have hne : t.lexeme.toList ≠ [] := by simpa using h.1
  have hread := Numeral.read?_of_digits hne (List.all_eq_true.mp h.2)
  rw [String.ofList_toList] at hread
  exact ⟨_, hread⟩

theorem Fits.exists_symbol_eq (h : t.Fits) (hkind : t.kind = .operator) :
    ∃ op : Op, t.lexeme = op.symbol := by
  simp only [Fits, hkind] at h
  rcases Option.isSome_iff_exists.mp h with ⟨op, hop⟩
  exact ⟨op, Op.ofSymbol?_eq_some_iff.mp hop⟩

theorem Fits.isOperator (h : t.Fits) (hkind : t.kind = .operator) : Scan.isOperator t = true := by
  rcases h.exists_symbol_eq hkind with ⟨op, hop⟩
  exact Scan.isOperator_iff.mpr ⟨op, hkind, hop⟩

end Token

/-! ## Faults -/

/-- A fault that tokens can have although their texts fit their kinds. -/
inductive ParseError.IsOrdinary : ParseError → Prop
  /-- An open grouping is not closed, and no operator leads on. -/
  | unclosed {found : Token} (noOperator : found.kind ≠ .operator) :
    IsOrdinary (.expected .closeParen found)
  | unexpected {found : Token} : IsOrdinary (.unexpected found)
  | nestingTooDeep {t : Token} : IsOrdinary (.nestingTooDeep t maxNesting)

namespace Scan

variable {t : Token} {depth : Nat} {e : ParseError}

theorem isOrdinary_of_takeOperand (hfits : t.Fits) (h : takeOperand depth t = .error e) :
    e.IsOrdinary := by
  unfold takeOperand at h
  split at h
  · exact absurd h (by simp)
  · next hkind =>
    rcases hfits.read?_isSome hkind with ⟨x, hread⟩
    rw [hread] at h
    exact absurd h (by simp)
  · split at h
    · rw [← Except.error.inj h]
      exact .nestingTooDeep
    · exact absurd h (by simp)
  · rw [← Except.error.inj h]
    exact .unexpected

theorem isOrdinary_of_takeStart (hfits : t.Fits) (h : takeStart depth t = .error e) :
    e.IsOrdinary := by
  unfold takeStart at h
  split at h
  · exact absurd h (by simp)
  · exact isOrdinary_of_takeOperand hfits h

/-- A token that fits has an ordinary fault, wherever it stands. -/
theorem isOrdinary_of_take {s : Scan} (hfits : t.Fits) (h : s.take t = .error e) :
    e.IsOrdinary := by
  rcases s with ⟨mode, depth⟩
  cases mode with
  | start => exact isOrdinary_of_takeStart hfits h
  | operand => exact isOrdinary_of_takeOperand hfits h
  | after =>
    rw [take_after] at h
    unfold takeAfter at h
    split at h
    · exact absurd h (by simp)
    · next hoperator =>
      split at h
      · exact isOrdinary_of_takeStart hfits h
      split at h
      · exact absurd h (by simp)
      · -- what fits and is no operator here is no operator token at all
        rw [← Except.error.inj h]
        refine .unclosed ?_
        intro hkind
        exact hoperator (hfits.isOperator hkind)

end Scan

/-- Tokens that fit, with an end of file among them, have an ordinary fault, and at one of them. -/
theorem Program.isOrdinary_of_error {tokens : List Token} {e : ParseError} {stop : Token}
    (hfits : ∀ t ∈ tokens, t.Fits) (hmem : stop ∈ tokens) (hstop : stop.isEnd = true)
    (h : (ofTokens tokens).result = .error e) : e.IsOrdinary ∧ e.token ∈ tokens := by
  have htoken := token_mem_of_error hmem hstop h
  rcases Scan.exists_reaches_of_error (ofTokens_eq_error_iff.mp h) with
    ⟨front, rest, s, _, _, hfails⟩
  rw [← Scan.token_of_take hfails] at hfails
  exact ⟨Scan.isOrdinary_of_take (hfits _ htoken) hfails, htoken⟩

namespace Run

/-- What can be wrong with the tokens of a source.  All of its operators are among the five.  Every
fault names one of its tokens, the end of the file included; no number is invalid; and only a
closing parenthesis is ever missed, and never at an operator. -/
theorem fault_of_source (source : String) :
    (∀ tokens, (Token.tokenize source).result = .ok tokens →
      ∀ t ∈ tokens, t.kind = .operator → ∃ op : Op, t.lexeme = op.symbol) ∧
    ∀ e, (program source).result = .error (.parse e) →
      (∃ tokens, (Token.tokenize source).result = .ok tokens ∧ e.token ∈ tokens) ∧
      (∀ t, e ≠ .invalidNumber t) ∧
      ∀ kind found, e = .expected kind found → kind = .closeParen ∧ found.kind ≠ .operator := by
  constructor
  · intro tokens htokens t ht hkind
    have hfits := (Token.tokenize_eq_ok_iff.mp htokens).fits t ht
    exact hfits.exists_symbol_eq hkind
  · intro e h
    rcases program_eq_parse_iff.mp h with ⟨tokens, htokens, hread⟩
    have hlexed := Token.tokenize_eq_ok_iff.mp htokens
    rcases hlexed.ends with ⟨inside, stop, hends, hstop, _⟩
    rcases Program.isOrdinary_of_error hlexed.fits (by simp [hends]) hstop hread with
      ⟨hordinary, htoken⟩
    refine ⟨⟨tokens, htokens, htoken⟩, ?_, ?_⟩
    · rintro t rfl
      cases hordinary
    · rintro kind found rfl
      cases hordinary with
      | unclosed noOperator => exact ⟨rfl, noOperator⟩

/-- A grouping that a second operand interrupts is missed at that operand, behind an operator that
is one of the five. -/
theorem fault_of_interrupted_group :
    let plus : Token := ⟨.operator, "+", ⟨1, 4⟩⟩
    let found : Token := ⟨.number, "2", ⟨1, 8⟩⟩
    let tokens : List Token := [⟨.openParen, "(", ⟨1, 1⟩⟩, ⟨.number, "1", ⟨1, 2⟩⟩, plus,
      ⟨.identifier, "x", ⟨1, 6⟩⟩, found, .endOfFile ⟨1, 9⟩]
    (Token.tokenize "(1 + x 2").result = .ok tokens ∧
      (program "(1 + x 2").result = .error (.parse (.expected .closeParen found)) ∧
      (∃ op : Op, plus.lexeme = op.symbol) ∧ found.kind ≠ .operator := by
  intro plus found tokens
  have htokens : (Token.tokenize "(1 + x 2").result = .ok tokens :=
    Token.tokenize_of_isRecognized (by decide +kernel)
  have hprogram : (program "(1 + x 2").result = .error (.parse (.expected .closeParen found)) :=
    program_eq_parse_iff.mpr ⟨_, htokens, Program.ofTokens_eq_error_iff.mpr (by decide +kernel)⟩
  rcases fault_of_source "(1 + x 2" with ⟨hoperators, hfaults⟩
  have hplus := hoperators tokens htokens plus (by simp [tokens]) rfl
  exact ⟨htokens, hprogram, hplus, ((hfaults _ hprogram).2.2 _ _ rfl).2⟩

end Run

end Abacus
