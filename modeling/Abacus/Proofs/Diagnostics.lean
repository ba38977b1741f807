import Abacus.CommandLine
import Abacus.Proofs.Layout
import Abacus.Proofs.Outcome
import Abacus.Proofs.Viability

/-!
# Where failures point

A failure of the first two stages is about a piece of the source, and its line and column are those
of that piece.

1. The place of an offset counts the newlines before it and the characters behind the last of them
   (`Position.ofOffset`).
2. Every token of a source stands at the offset that its place belongs to
   (`Token.Lexed.exists_standsAt`), and the token that a fault names is one of them
   (`Program.token_mem_of_error`).  So every failure with a place points at what it is about
   (`Run.exists_pointsAt`).
3. The line that is shown to the reader is the place, if there is one, and the message
   (`Failure.display_of_pos`, `Failure.display_of_eval`).
-/

namespace Abacus

/-! ## Offsets -/

/-- The place of the offset `k` in a text: its line is one more than the newlines before it, its
column one more than the characters between the last of them and the offset. -/
def Position.ofOffset (text : List Char) (k : Nat) : Position :=
  ⟨1 + (text.take k).count '\n', 1 + ((text.take k).rtakeWhile fun c => c ≠ '\n').length⟩

theorem Position.ofOffset_eq_after (text : List Char) (k : Nat) :
    ofOffset text k = start.after (text.take k) :=
  (start_after (text.take k)).symm

theorem Position.ofOffset_append (front back : List Char) :
    ofOffset (front ++ back) front.length = start.after front := by
  rw [ofOffset_eq_after, List.take_left]

/-- The token stands at the offset `k` of a text: its lexeme does, or the text ends there. -/
def Token.StandsAt (t : Token) (text : List Char) (k : Nat) : Prop :=
  if t.isEnd then k = text.length else t.lexeme.toList <+: text.drop k

/-- What stands between `front` and `back` stands at the length of `front`. -/
theorem Token.standsAt_length {t : Token} {front back : List Char}
    (hback : t.isEnd = true → back = []) :
    t.StandsAt (front ++ Layout.written t ++ back) front.length := by
  unfold StandsAt Layout.written
  cases hend : t.isEnd with
  | true => simp [hback hend]
  | false =>
    simp only [Bool.false_eq_true, if_false, List.append_assoc, List.drop_left]
    exact List.prefix_append _ _

/-- Every token of a source stands at an offset, in the place of that offset. -/
theorem Token.Lexed.exists_standsAt {text : List Char} {tokens : List Token}
    (h : Lexed .start text tokens) {t : Token} (ht : t ∈ tokens) :
    ∃ k ≤ text.length, t.StandsAt text k ∧ t.pos = .ofOffset text k := by
  rcases h.exists_front t ht with ⟨front, back, rfl, hpos, hback⟩
  refine ⟨front.length, by simp, standsAt_length hback, ?_⟩
  rw [hpos, List.append_assoc, Position.ofOffset_append]

/-! ## What a failure is about -/

namespace Failure

/-- The failure is about what stands at the offset `k` of a text: a character, or a token. -/
def IsAbout (failure : Failure) (text : List Char) (k : Nat) : Prop :=
  match failure with
  | .lex error => text[k]? = some error.char
  | .parse error => error.token.StandsAt text k
  | .eval _ => False

/-- The failure is about what stands at the offset `k` of a text, and gives the place of it. -/
structure PointsAt (failure : Failure) (text : List Char) (k : Nat) : Prop where
  le_length : k ≤ text.length
  isAbout : failure.IsAbout text k
  pos : failure.pos? = some (.ofOffset text k)

/-- The failure is one of the first two stages. -/
def IsPlaced (failure : Failure) : Prop := (∃ e, failure = .lex e) ∨ ∃ e, failure = .parse e

/-- A foreign character is reported where it stands. -/
theorem pointsAt_lex {text before after : List Char} {c : Char} (h : text = before ++ c :: after) :
    (lex ⟨c, Position.start.after before⟩).PointsAt text before.length := by
  constructor
  · rw [h]
    simp
  · show text[before.length]? = some c
    rw [h]
    simp
  · show some (Position.start.after before) = _
    rw [h, Position.ofOffset_append]

theorem pointsAt_of_isFirstFault {source : String} {error : LexError}
    (h : IsFirstFault source error) : ∃ k, (lex error).PointsAt source.toList k := by
  rcases h with ⟨before, c, after, hsource, _, _, rfl⟩
  exact ⟨before.length, pointsAt_lex hsource⟩

/-! ## Lines for the reader -/

/-- A place and a message on one line. -/
def placedLine (pos : Position) (message : String) : String :=
  s!"[line {pos.line}, column {pos.column}] Error: {message}"

theorem placedLine_eq (pos : Position) (message : String) :
    placedLine pos message = pos.describe ++ (" Error: " ++ message) := by
  have hcut : "] Error: " = "]" ++ " Error: " := by decide +kernel
  simp only [placedLine, Position.describe, toString, hcut, String.append_assoc]

theorem display_lex (error : LexError) :
    (lex error).display = error.pos.describe ++ (" Error: " ++ (lex error).message) := by
  show error.pos.describe ++ " Error: Unrecognized character '" ++ toString error.char ++ "'" =
    error.pos.describe ++ (" Error: " ++ ("Unrecognized character '" ++ toString error.char ++ "'"))
  have hcut : " Error: Unrecognized character '" = " Error: " ++ "Unrecognized character '" := by
    decide +kernel
  simp only [hcut, String.append_assoc]

/-- The fixed text of each kind is cut where its message begins. -/
theorem display_parse (error : ParseError) :
    (parse error).display =
      error.token.pos.describe ++ (" Error: " ++ (parse error).message) := by
  cases error with
  | expected kind found =>
    show found.pos.describe ++ " Error: Expected " ++ kind.name ++ ", but encountered " ++
        found.describe = found.pos.describe ++ (" Error: " ++
          ("Expected " ++ kind.name ++ ", but encountered " ++ found.describe))
    have hcut : " Error: Expected " = " Error: " ++ "Expected " := by decide +kernel
    simp only [hcut, String.append_assoc]
  | unexpected found =>
    show found.pos.describe ++ " Error: Unexpected token " ++ found.describe =
      found.pos.describe ++ (" Error: " ++ ("Unexpected token " ++ found.describe))
    have hcut : " Error: Unexpected token " = " Error: " ++ "Unexpected token " := by decide +kernel
    simp only [hcut, String.append_assoc]
  | invalidNumber token =>
    show token.pos.describe ++ " Error: Invalid numeric literal '" ++ token.lexeme ++ "'" =
      token.pos.describe ++ (" Error: " ++ ("Invalid numeric literal '" ++ token.lexeme ++ "'"))
    have hcut : " Error: Invalid numeric literal '" =
        " Error: " ++ "Invalid numeric literal '" := by
      decide +kernel
    simp only [hcut, String.append_assoc]
  | nestingTooDeep token limit =>
    show token.pos.describe ++ " Error: Groupings nested deeper than " ++ toString limit ++
        " levels" = token.pos.describe ++ (" Error: " ++
          ("Groupings nested deeper than " ++ toString limit ++ " levels"))
    have hcut : " Error: Groupings nested deeper than " =
        " Error: " ++ "Groupings nested deeper than " := by
      decide +kernel
    simp only [hcut, String.append_assoc]

/-- A failure with a place is shown as its place and its message, whatever its kind. -/
theorem display_of_pos {failure : Failure} {pos : Position} (h : failure.pos? = some pos) :
    failure.display = placedLine pos failure.message := by
  rw [placedLine_eq]
  cases failure with
  | lex error =>
    have hpos : error.pos = pos := Option.some.inj h
    rw [← hpos]
    exact display_lex error
  | parse error =>
    have hpos : error.token.pos = pos := Option.some.inj h
    rw [← hpos]
    exact display_parse error
  | eval error => exact absurd h (by simp [pos?])

/-- A failure without a place is shown as its message alone. -/
theorem display_of_eval (error : EvalError) :
    (eval error).display = "Error: " ++ (eval error).message := by
  cases error with
  | unsupportedNode node =>
    show "Error: Unsupported node " ++ node.dump = "Error: " ++ ("Unsupported node " ++ node.dump)
    have hcut : "Error: Unsupported node " = "Error: " ++ "Unsupported node " := by decide +kernel
    simp only [hcut, String.append_assoc]
  | missingOperand op =>
    show "Error: Operator " ++ op.symbol ++ " applied with fewer than two operands" =
      "Error: " ++ ("Operator " ++ op.symbol ++ " applied with fewer than two operands")
    have hcut : "Error: Operator " = "Error: " ++ "Operator " := by decide +kernel
    simp only [hcut, String.append_assoc]
  | unbalanced =>
    show "Error: Evaluation did not leave exactly one value" =
      "Error: " ++ "Evaluation did not leave exactly one value"
    decide +kernel

end Failure

/-! ## The token of a fault -/

/-- Tokens with an end of file are refused at one of them: the supplied one is never reached. -/
theorem Program.token_mem_of_error {tokens : List Token} {e : ParseError} {stop : Token}
    (hmem : stop ∈ tokens) (hstop : stop.isEnd = true) (h : (ofTokens tokens).result = .error e) :
    e.token ∈ tokens := by
  rcases Scan.exists_reaches_of_error (ofTokens_eq_error_iff.mp h) with
    ⟨front, rest, s, rfl, hreaches, hfails⟩
  have htoken := Scan.token_of_take hfails
  cases rest with
  | nil =>
    -- no scan goes through an end of file
    rw [List.append_nil] at hmem
    have hinside := hreaches.isEnd_eq_false stop hmem
    rw [hstop] at hinside
    exact absurd hinside (by simp)
  | cons t rest =>
    rw [List.headD_cons] at htoken
    rw [htoken]
    simp

namespace Run

variable {source : String} {failure : Failure}

theorem text_value_eq_error_iff :
    (text .value source).result = .error failure ↔ (value source).result = .error failure := by
  unfold text
  rw [Traced.result_bind]
  cases (value source).result with
  | ok v => simp
  | error failure' => simp

/-- A run that stops early fails as the whole run does. -/
theorem value_eq_error_of_text {emit : Emit} (h : (text emit source).result = .error failure) :
    (value source).result = .error failure := by
  cases emit with
  | value => exact text_value_eq_error_iff.mp h
  | tree => exact (program_eq_error_iff.mp (text_tree_eq_error_iff.mp h)).1
  | tokens =>
    rcases text_tokens_eq_error_iff.mp h with ⟨e, rfl, he⟩
    exact value_eq_lex_iff.mpr (Token.tokenize_eq_error_iff.mp he)

/-- A run is stopped by its tokens exactly if it has some and they are refused. -/
theorem program_eq_parse_iff {e : ParseError} :
    (program source).result = .error (.parse e) ↔
      ∃ tokens, (Token.tokenize source).result = .ok tokens ∧
        (Program.ofTokens tokens).result = .error e := by
  rw [result_program]
  cases (Token.tokenize source).result with
  | error e' => simp
  | ok tokens =>
    cases hread : (Program.ofTokens tokens).result with
    | ok parsed => simp [hread, Except.mapError]
    | error e' => simp [hread, Except.mapError]

/-- A failure of the first two stages points at the piece of the source that it is about. -/
theorem exists_pointsAt (h : (value source).result = .error failure) (hplaced : failure.IsPlaced) :
    ∃ k, failure.PointsAt source.toList k := by
  have hprogram := program_eq_error_iff.mpr ⟨h, hplaced⟩
  rcases hplaced with ⟨e, rfl⟩ | ⟨e, rfl⟩
  · exact Failure.pointsAt_of_isFirstFault (value_eq_lex_iff.mp h)
  · rcases program_eq_parse_iff.mp hprogram with ⟨tokens, htokens, hread⟩
    have hlexed := Token.tokenize_eq_ok_iff.mp htokens
    rcases hlexed.ends with ⟨inside, stop, rfl, hstop, _⟩
    have hmem := Program.token_mem_of_error (by simp) hstop hread
    rcases hlexed.exists_standsAt hmem with ⟨k, hle, hstands, hpos⟩
    exact ⟨k, hle, hstands, congrArg some hpos⟩

/-- Every failure is shown as what it is.  One of the first two stages is about a character or a
token at some offset of the source, or about its end; it gives the line and the column of that
offset, and its line for the reader is that place and its message.  One of the last stage has no
place, and its line is its message.  This line is what both a session and a run of a file write. -/
theorem failure_points_at_source {emit : Emit} (h : (text emit source).result = .error failure) :
    (failure.IsPlaced → ∃ k, failure.PointsAt source.toList k ∧
      failure.display = Failure.placedLine (.ofOffset source.toList k) failure.message) ∧
    (∀ e, failure = .eval e →
      failure.pos? = none ∧ failure.display = "Error: " ++ failure.message) ∧
    Session.answer emit source = failure.display ∧
    CommandLine.Outcome.ofRun (text emit source).result = ⟨1, "", failure.display ++ "\n"⟩ := by
  refine ⟨?_, ?_, ?_, ?_⟩
  · intro hplaced
    rcases exists_pointsAt (value_eq_error_of_text h) hplaced with ⟨k, hpoints⟩
    exact ⟨k, hpoints, Failure.display_of_pos hpoints.pos⟩
  · rintro e rfl
    exact ⟨rfl, Failure.display_of_eval e⟩
  · rw [Session.answer, h]
  · rw [h]
    rfl

/-- A grouping that is never closed is missed at the end of the source, on its second line. -/
theorem failure_points_at_open_group :
    ∃ failure, (text .value "\n  (x + y").result = .error failure ∧ failure.IsPlaced ∧
      failure.message = "Expected CloseParen, but encountered EndOfFile" ∧
      ∃ k, failure.PointsAt "\n  (x + y".toList k ∧
        failure.display =
          Failure.placedLine (.ofOffset "\n  (x + y".toList k) failure.message := by
  have htokens : (Token.tokenize "\n  (x + y").result =
      .ok [⟨.openParen, "(", ⟨2, 3⟩⟩, ⟨.identifier, "x", ⟨2, 4⟩⟩, ⟨.operator, "+", ⟨2, 6⟩⟩,
        ⟨.identifier, "y", ⟨2, 8⟩⟩, .endOfFile ⟨2, 9⟩] :=
    Token.tokenize_of_isRecognized (by decide +kernel)
  have hprogram : (program "\n  (x + y").result =
      .error (.parse (.expected .closeParen (.endOfFile ⟨2, 9⟩))) :=
    program_eq_parse_iff.mpr ⟨_, htokens, Program.ofTokens_eq_error_iff.mpr rfl⟩
  have htext := text_value_eq_error_iff.mpr (program_eq_error_iff.mp hprogram).1
  have hplaced : Failure.IsPlaced (.parse (.expected .closeParen (.endOfFile ⟨2, 9⟩))) :=
    .inr ⟨_, rfl⟩
  exact ⟨_, htext, hplaced, by decide +kernel, (failure_points_at_source htext).1 hplaced⟩

end Run

end Abacus
