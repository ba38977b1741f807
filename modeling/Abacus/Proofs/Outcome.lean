import Abacus.Proofs.Evaluation
import Abacus.Proofs.Exactness
import Abacus.Proofs.Scanning
import Abacus.Run

/-!
# How a run ends

Every source has one of five endings, and which one can be read off its text.

1. The order of the leaves of a tree is the order of the tokens that it was read from, however they
   were grouped (`Derives.names_eq`), and no token makes a null (`Derives.hasNull_eq_false`).
2. So a program that was read has names exactly if its tokens have, and the first name is the first
   identifier (`IsProgram.names_eq`).
3. A run that stops early ends as the whole run does, as far as it goes (`result_program`,
   `result_value`).
-/

namespace Abacus

/-! ## Names of tokens and of trees -/

/-- The texts of the identifiers among some tokens. -/
def Token.identifiers (tokens : List Token) : List String :=
  (tokens.filter fun t => t.kind = .identifier).map Token.lexeme

namespace Token

@[simp] theorem identifiers_nil : identifiers [] = [] := rfl

@[simp] theorem identifiers_append (a b : List Token) :
    identifiers (a ++ b) = identifiers a ++ identifiers b := by
  simp [identifiers]

theorem identifiers_cons_of_ne {t : Token} (h : t.kind ≠ .identifier) (rest : List Token) :
    identifiers (t :: rest) = identifiers rest := by
  simp [identifiers, h]

/-- The first of the texts is that of the first identifier. -/
theorem head?_identifiers (tokens : List Token) :
    (identifiers tokens).head? =
      (tokens.find? fun t => t.kind = .identifier).map Token.lexeme := by
  unfold identifiers
  rw [List.head?_map, List.head?_filter]

theorem exists_identifier_iff {tokens : List Token} :
    (∃ t ∈ tokens, t.kind = .identifier) ↔
      ∃ t, tokens.find? (fun t => t.kind = .identifier) = some t := by
  rw [← Option.isSome_iff_exists, List.find?_isSome]
  simp

end Token

theorem Derives.names_eq {room : Nat} {level : Level} {tokens : List Token} {e : Expr}
    (h : Derives room level tokens e) : e.names = Token.identifiers tokens := by
  induction h with
  | name hkind => simp [Expr.names, Token.identifiers, hkind]
  | number hkind _ => simp [Expr.names, Token.identifiers, hkind]
  | group hopen hclosing _ ih =>
    rw [List.cons_append, Token.identifiers_cons_of_ne (by simp [hopen]), Token.identifiers_append,
      Token.identifiers_cons_of_ne (by simp [hclosing]), Token.identifiers_nil, List.append_nil]
    exact ih
  | ofFactor _ ih => exact ih
  | ofProduct _ ih => exact ih
  | product _ hoperator _ _ ihl ihr =>
    rw [Token.identifiers_append, Token.identifiers_cons_of_ne (by simp [hoperator.1]), ← ihl, ← ihr]
    rfl
  | sum _ hoperator _ _ ihl ihr =>
    rw [Token.identifiers_append, Token.identifiers_cons_of_ne (by simp [hoperator.1]), ← ihl, ← ihr]
    rfl

/-- Nothing in a source stands for null. -/
theorem Derives.hasNull_eq_false {room : Nat} {level : Level} {tokens : List Token} {e : Expr}
    (h : Derives room level tokens e) : e.hasNull = false := by
  induction h with
  | name _ => rfl
  | number _ _ => rfl
  | group _ _ _ ih => exact ih
  | ofFactor _ ih => exact ih
  | ofProduct _ ih => exact ih
  | product _ _ _ _ ihl ihr => simp [Expr.hasNull, ihl, ihr]
  | sum _ _ _ _ ihl ihr => simp [Expr.hasNull, ihl, ihr]

theorem IsProgram.names_eq {tokens : List Token} {program : Program}
    (h : IsProgram tokens program) : program.names = Token.identifiers tokens := by
  induction h with
  | nil => rfl
  | cons hstatement _ ih =>
    rw [Token.identifiers_append, ← hstatement.names_eq, ← ih]
    rfl

theorem IsProgram.hasNull_eq_false {tokens : List Token} {program : Program}
    (h : IsProgram tokens program) : ∀ e ∈ program, e.hasNull = false := by
  induction h with
  | nil => simp
  | cons hstatement _ ih =>
    intro e he
    rcases List.mem_cons.mp he with rfl | hrest
    · exact hstatement.hasNull_eq_false
    · exact ih e hrest

/-- Only a row without tokens has no statements. -/
theorem IsProgram.eq_nil_iff {tokens : List Token} {program : Program}
    (h : IsProgram tokens program) : program = [] ↔ tokens = [] := by
  cases h with
  | nil => simp
  | cons hstatement _ => simp [hstatement.tokens_ne_nil]

namespace Run

/-! ## Stages -/

theorem result_program (source : String) :
    (program source).result =
      match (Token.tokenize source).result with
      | .ok tokens => (Program.ofTokens tokens).result.mapError .parse
      | .error e => .error (.lex e) := by
  unfold program tokens
  rw [Traced.result_bind, Traced.result_embed]
  cases (Token.tokenize source).result with
  | ok tokens => rfl
  | error e => rfl

theorem result_value (source : String) :
    (value source).result =
      match (program source).result with
      | .ok program => (Program.evaluate program).result.mapError .eval
      | .error failure => .error failure := by
  unfold value
  rw [Traced.result_bind]
  change (program source >>= _).result = _
  rw [Traced.result_bind]
  cases (program source).result with
  | error failure => rfl
  | ok program =>
    simp only
    rw [Traced.result_bind, Traced.result_embed]
    cases (Program.evaluate program).result with
    | ok v => rfl
    | error e => rfl

/-- The first two stages fail with errors of their own. -/
theorem program_error {source : String} {failure : Failure}
    (h : (program source).result = .error failure) :
    (∃ e, failure = .lex e) ∨ ∃ e, failure = .parse e := by
  rw [result_program] at h
  cases htokens : (Token.tokenize source).result with
  | error e =>
    rw [htokens] at h
    exact .inl ⟨e, (Except.error.inj h).symm⟩
  | ok tokens =>
    rw [htokens] at h
    simp only at h
    cases hprogram : (Program.ofTokens tokens).result with
    | ok program =>
      rw [hprogram] at h
      exact absurd h (by simp [Except.mapError])
    | error e =>
      rw [hprogram] at h
      exact .inr ⟨e, (Except.error.inj h).symm⟩

/-- A run fails before its last stage exactly if its program does. -/
theorem program_eq_error_iff {source : String} {failure : Failure} :
    (program source).result = .error failure ↔
      (value source).result = .error failure ∧
        ((∃ e, failure = .lex e) ∨ ∃ e, failure = .parse e) := by
  rw [result_value]
  constructor
  · intro h
    refine ⟨?_, program_error h⟩
    rw [h]
  · rintro ⟨hvalue, hstage⟩
    cases hprogram : (program source).result with
    | error failure' =>
      rw [hprogram] at hvalue
      exact congrArg Except.error (Except.error.inj hvalue)
    | ok program =>
      -- the last stage fails with an error that is neither of the two
      rw [hprogram] at hvalue
      simp only at hvalue
      cases heval : (Program.evaluate program).result with
      | ok v =>
        rw [heval] at hvalue
        exact absurd hvalue (by simp [Except.mapError])
      | error e =>
        rw [heval] at hvalue
        have hfailure : failure = .eval e := (Except.error.inj hvalue).symm
        rcases hstage with ⟨e', he'⟩ | ⟨e', he'⟩
        · exact absurd (hfailure.symm.trans he') (by simp)
        · exact absurd (hfailure.symm.trans he') (by simp)

theorem text_tree_eq_error_iff {source : String} {failure : Failure} :
    (text .tree source).result = .error failure ↔ (program source).result = .error failure := by
  unfold text
  rw [Traced.result_bind]
  cases (program source).result with
  | ok program => simp
  | error failure' => simp

theorem text_tokens_eq_error_iff {source : String} {failure : Failure} :
    (text .tokens source).result = .error failure ↔
      ∃ e, failure = .lex e ∧ (Token.tokenize source).result = .error e := by
  unfold text tokens
  rw [Traced.result_bind, Traced.result_embed]
  cases (Token.tokenize source).result with
  | ok tokens => simp [Except.mapError]
  | error e => simp [Except.mapError, eq_comm]

/-! ## Endings -/

section Endings

variable {source : String} {parsed : Program}

theorem value_eq_lex_iff {e : LexError} :
    (value source).result = .error (.lex e) ↔ IsFirstFault source e := by
  have hprogram : (program source).result = .error (.lex e) ↔
      (value source).result = .error (.lex e) := by
    rw [program_eq_error_iff]
    simp
  rw [← hprogram, result_program, ← Token.tokenize_eq_error_iff]
  cases (Token.tokenize source).result with
  | error e' => simp
  | ok tokens =>
    cases hread : (Program.ofTokens tokens).result with
    | ok program => simp [hread, Except.mapError]
    | error e' => simp [hread, Except.mapError]

theorem ofTokens_ofSource_iff {p : Position} :
    (Program.ofTokens (Token.ofSource source ++ [.endOfFile p])).result = .ok parsed ↔
      IsProgram (Token.ofSource source) parsed := by
  unfold Program.ofTokens
  rw [Token.takeWhile_ofSource]
  exact Program.readStatements_eq_ok_iff

/-- Tokens that are no program stop the run in its second stage. -/
theorem value_of_not_isProgram (hchars : ∀ c ∈ source.toList, InAlphabet c)
    (hnot : ¬ ∃ parsed, IsProgram (Token.ofSource source) parsed) :
    ∃ e, (value source).result = .error (.parse e) := by
  rw [result_value, result_program, Token.tokenize_of_inAlphabet hchars]
  simp only
  cases hread : (Program.ofTokens (Token.ofSource source ++
      [.endOfFile (Position.start.after source.toList)])).result with
  | ok parsed => exact absurd ⟨parsed, ofTokens_ofSource_iff.mp hread⟩ hnot
  | error e => exact ⟨e, rfl⟩

/-- Tokens that are a program are evaluated. -/
theorem value_of_isProgram (hchars : ∀ c ∈ source.toList, InAlphabet c)
    (h : IsProgram (Token.ofSource source) parsed) :
    (value source).result = (Program.evaluate parsed).result.mapError .eval := by
  rw [result_value, result_program, Token.tokenize_of_inAlphabet hchars]
  simp only
  rw [ofTokens_ofSource_iff.mpr h]
  rfl

theorem value_ne_parse (hchars : ∀ c ∈ source.toList, InAlphabet c)
    (h : IsProgram (Token.ofSource source) parsed) (e : ParseError) :
    (value source).result ≠ .error (.parse e) := by
  rw [value_of_isProgram hchars h]
  cases (Program.evaluate parsed).result with
  | ok v => simp [Except.mapError]
  | error e' => simp [Except.mapError]

/-- The first identifier of a program stops the run in its last stage. -/
theorem value_of_identifier (hchars : ∀ c ∈ source.toList, InAlphabet c)
    (h : IsProgram (Token.ofSource source) parsed) {t : Token}
    (ht : (Token.ofSource source).find? (fun t => t.kind = .identifier) = some t) :
    (value source).result = .error (.eval (.unsupportedNode (.name t.lexeme))) := by
  have hhead : (Program.names parsed).head? = some t.lexeme := by
    rw [h.names_eq, Token.head?_identifiers, ht]
    rfl
  rcases List.head?_eq_some_iff.mp hhead with ⟨others, hnames⟩
  rw [value_of_isProgram hchars h]
  unfold Program.evaluate
  rw [Program.evaluateFrom_of_names_cons hnames]
  rfl

/-- A program without an identifier has a value, which is null only if there is no token. -/
theorem value_of_no_identifier (hchars : ∀ c ∈ source.toList, InAlphabet c)
    (h : IsProgram (Token.ofSource source) parsed)
    (hnone : (Token.ofSource source).find? (fun t => t.kind = .identifier) = none) :
    (Token.ofSource source = [] ∧ (value source).result = .ok .null) ∨
      (Token.ofSource source ≠ [] ∧ ∃ x, (value source).result = .ok (.number x)) := by
  have hnames : Program.names parsed = [] := by
    rw [h.names_eq, ← List.head?_eq_none_iff, Token.head?_identifiers, hnone]
    rfl
  rw [value_of_isProgram hchars h]
  unfold Program.evaluate
  rw [Program.evaluateFrom_of_names_nil hnames]
  cases hlast : parsed.getLast? with
  | none =>
    left
    have hnil : parsed = [] := List.getLast?_eq_none_iff.mp hlast
    exact ⟨h.eq_nil_iff.mp hnil, rfl⟩
  | some e =>
    right
    have hmem : e ∈ parsed := List.mem_of_getLast? hlast
    have hne : parsed ≠ [] := List.ne_nil_of_mem hmem
    have henames : e.names = [] := List.flatMap_eq_nil_iff.mp hnames e hmem
    rcases Expr.eval_of_hasNull_eq_false henames (h.hasNull_eq_false e hmem) with ⟨x, heval⟩
    refine ⟨fun hnil => hne (h.eq_nil_iff.mpr hnil), x, ?_⟩
    simp only [Option.map_some, Option.getD_some, heval]
    rfl

/-- The last stage fails exactly at the first identifier. -/
theorem value_eq_eval_iff (hchars : ∀ c ∈ source.toList, InAlphabet c)
    (h : IsProgram (Token.ofSource source) parsed) {e : EvalError} :
    (value source).result = .error (.eval e) ↔
      ∃ t, (Token.ofSource source).find? (fun t => t.kind = .identifier) = some t ∧
        e = .unsupportedNode (.name t.lexeme) := by
  cases hfind : (Token.ofSource source).find? (fun t => t.kind = .identifier) with
  | none =>
    rcases value_of_no_identifier hchars h hfind with ⟨_, hnull⟩ | ⟨_, x, hnumber⟩
    · simp [hnull]
    · simp [hnumber]
  | some t =>
    rw [value_of_identifier hchars h hfind]
    simp [eq_comm]

/-- Without an identifier the value is null exactly if the source is blank, and otherwise it is a
number. -/
theorem value_eq_null_iff (hchars : ∀ c ∈ source.toList, InAlphabet c)
    (h : IsProgram (Token.ofSource source) parsed)
    (hnone : (Token.ofSource source).find? (fun t => t.kind = .identifier) = none) :
    ((value source).result = .ok .null ↔ ∀ c ∈ source.toList, IsBlank c) ∧
      ((∃ c ∈ source.toList, ¬ IsBlank c) → ∃ x, (value source).result = .ok (.number x)) := by
  rw [← Token.ofSource_eq_nil_iff hchars]
  rcases value_of_no_identifier hchars h hnone with ⟨hnil, hnull⟩ | ⟨hne, x, hnumber⟩
  · refine ⟨by simp [hnull, hnil], ?_⟩
    rintro ⟨c, hc, hnot⟩
    exact absurd ((Token.ofSource_eq_nil_iff hchars).mp hnil c hc) hnot
  · refine ⟨by simp [hnumber, hne], ?_⟩
    intro _
    exact ⟨x, hnumber⟩

end Endings

/-- How a run ends, for every source.  A foreign character stops it first, and the first one is
reported.  Without one, it stops at tokens that the grammar does not derive.  If it derives them, it
stops at the first identifier.  If there is none, a blank source comes to null and any other to a
number.  A run that shows the tree or the tokens fails where the whole run fails by then, with the
same failure. -/
theorem ending_of_source (source : String) :
    ((∃ e, (value source).result = .error (.lex e)) ↔ ∃ c ∈ source.toList, ¬ InAlphabet c) ∧
    (∀ e, (value source).result = .error (.lex e) → IsFirstFault source e) ∧
    ((∀ c ∈ source.toList, InAlphabet c) → ∃ tokens, (Token.tokenize source).result = .ok tokens ∧
      ((∃ e, (value source).result = .error (.parse e)) ↔
        ¬ ∃ parsed, IsProgram (tokens.takeWhile fun t => !t.isEnd) parsed) ∧
      ((∃ parsed, IsProgram (tokens.takeWhile fun t => !t.isEnd) parsed) →
        ((∃ e, (value source).result = .error (.eval e)) ↔ ∃ t ∈ tokens, t.kind = .identifier) ∧
        (∀ e, (value source).result = .error (.eval e) →
          ∃ t, tokens.find? (fun t => t.kind = .identifier) = some t ∧
            e = .unsupportedNode (.name t.lexeme)) ∧
        ((∀ t ∈ tokens, t.kind ≠ .identifier) →
          ((value source).result = .ok .null ↔ ∀ c ∈ source.toList, IsBlank c) ∧
          ((∃ c ∈ source.toList, ¬ IsBlank c) → ∃ x, (value source).result = .ok (.number x))))) ∧
    (∀ failure, (text .tree source).result = .error failure ↔
      (value source).result = .error failure ∧
        ((∃ e, failure = .lex e) ∨ ∃ e, failure = .parse e)) ∧
    (∀ failure, (text .tokens source).result = .error failure ↔
      (value source).result = .error failure ∧ ∃ e, failure = .lex e) := by
  refine ⟨?_, ?_, ?_, ?_, ?_⟩
  · simp only [value_eq_lex_iff]
    exact exists_isFirstFault_iff
  · intro e h
    exact value_eq_lex_iff.mp h
  · intro hchars
    refine ⟨_, Token.tokenize_of_inAlphabet hchars, ?_⟩
    rw [Token.takeWhile_ofSource, Token.exists_identifier_iff, Token.find?_identifier_ofSource]
    refine ⟨⟨?_, value_of_not_isProgram hchars⟩, ?_⟩
    · rintro ⟨e, he⟩ ⟨parsed, hparsed⟩
      exact value_ne_parse hchars hparsed e he
    · rintro ⟨parsed, hparsed⟩
      simp only [value_eq_eval_iff hchars hparsed]
      refine ⟨?_, fun e h => h, ?_⟩
      · constructor
        · rintro ⟨e, t, ht, _⟩
          exact ⟨t, ht⟩
        · rintro ⟨t, ht⟩
          exact ⟨_, t, ht, rfl⟩
      · intro hnone
        refine value_eq_null_iff hchars hparsed (List.find?_eq_none.mpr ?_)
        intro t ht
        simpa using hnone t (List.mem_append_left _ ht)
  · intro failure
    rw [text_tree_eq_error_iff, program_eq_error_iff]
  · intro failure
    rw [text_tokens_eq_error_iff]
    constructor
    · rintro ⟨e, rfl, he⟩
      exact ⟨value_eq_lex_iff.mpr (Token.tokenize_eq_error_iff.mp he), e, rfl⟩
    · rintro ⟨hvalue, e, rfl⟩
      exact ⟨e, rfl, Token.tokenize_eq_error_iff.mpr (value_eq_lex_iff.mp hvalue)⟩

end Run

end Abacus
