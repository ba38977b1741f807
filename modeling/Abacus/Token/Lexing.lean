import Abacus.Token.Alphabet
import Abacus.Traced

/-!
# From characters to tokens

A source is read from left to right, a blank or a token at a time.

1. A `Lexer` is all there is between two of them: the characters that are left, the place where they
   begin, and the tokens found so far with their records.
2. `Lexer.scan` reads what begins with the next character: a blank, a mark, or a run of digits or of
   letters, which goes on as far as there are any.
3. `Lexer.run` scans until no character is left, or until one is not recognized.

A token is recorded as it is found, so a source that fails still shows the tokens that stand before
the fault.
-/

namespace Abacus

/-- A character that no source may hold, and where it stands. -/
structure LexError where
  char : Char
  pos : Position
deriving Repr, DecidableEq

/-- What is recorded while a source is cut into tokens. -/
inductive LexRecord
  | lexed (token : Token)
  | tokenized (count : Nat)
deriving Repr, DecidableEq

/-- The kind of a word of letters. -/
def Token.wordKind (word : String) : Token.Kind :=
  if word = "let" then .letKeyword else .identifier

/-- A source on its way to tokens. -/
structure Lexer where
  /-- The characters that are left. -/
  rest : List Char
  /-- Where the first of them stands. -/
  pos : Position
  /-- The tokens found so far, the last one first. -/
  tokens : List Token
  /-- Their records, the last one first. -/
  records : List LexRecord
deriving Repr, DecidableEq

namespace Lexer

/-- Before the first character of a source. -/
def ofSource (source : String) : Lexer := ⟨source.toList, .start, [], []⟩

/-- Goes over a blank. -/
def skip (s : Lexer) (c : Char) (rest : List Char) : Lexer :=
  { s with rest, pos := s.pos.next c }

/-- Goes over the text of a token, which is added and recorded. -/
def add (s : Lexer) (kind : Token.Kind) (lexeme rest : List Char) : Lexer :=
  let token := ⟨kind, String.ofList lexeme, s.pos⟩
  ⟨rest, s.pos.after lexeme, token :: s.tokens, .lexed token :: s.records⟩

/-- Goes over `first` and all characters after it that are like it.  The kind of the token depends
on its text. -/
def addRun (s : Lexer) (kind : String → Token.Kind) (like : Char → Bool) (first : Char)
    (after : List Char) : Lexer :=
  let lexeme := first :: after.takeWhile like
  s.add (kind (String.ofList lexeme)) lexeme (after.dropWhile like)

/-- Reads what begins with `c`, the first character that is left; `after` are those behind it. -/
def scan (s : Lexer) (c : Char) (after : List Char) : Except LexError Lexer :=
  match Role.of? c with
  | some .blank => .ok (s.skip c after)
  | some .digit => .ok (s.addRun (fun _ => .number) Char.isDigit c after)
  | some .letter => .ok (s.addRun Token.wordKind Text.isCased c after)
  | some (.mark kind) => .ok (s.add kind [c] after)
  | none => .error ⟨c, s.pos⟩

theorem length_rest_addRun (s : Lexer) (kind : String → Token.Kind) (like : Char → Bool) (c : Char)
    (after : List Char) : (s.addRun kind like c after).rest.length ≤ after.length :=
  (List.dropWhile_sublist like).length_le

/-- Whatever else is read, the first character is. -/
theorem length_rest_of_scan {s s' : Lexer} {c : Char} {after : List Char}
    (hrest : s.rest = c :: after) (h : s.scan c after = .ok s') :
    s'.rest.length < s.rest.length := by
  rw [hrest, List.length_cons, Nat.lt_succ_iff]
  unfold scan at h
  split at h
  · rw [← Except.ok.inj h]
    exact Nat.le_refl _
  · rw [← Except.ok.inj h]
    exact length_rest_addRun s _ _ c after
  · rw [← Except.ok.inj h]
    exact length_rest_addRun s _ _ c after
  · rw [← Except.ok.inj h]
    exact Nat.le_refl _
  · exact absurd h (by simp)

/-- Scans what is left, and adds the end of file behind it. -/
def run (s : Lexer) : Traced LexRecord LexError (List Token) :=
  match _ : s.rest with
  | [] => ⟨s.records.reverse, .ok (Token.endOfFile s.pos :: s.tokens).reverse⟩
  | c :: after =>
    match _ : s.scan c after with
    | .error fault => ⟨s.records.reverse, .error fault⟩
    | .ok s' => s'.run
termination_by s.rest.length
decreasing_by exact length_rest_of_scan ‹_› ‹_›

end Lexer

/-- The tokens of a source, with an end of file after the last. -/
def Token.tokenize (source : String) : Traced LexRecord LexError (List Token) := do
  let tokens ← (Lexer.ofSource source).run
  Traced.record (.tokenized tokens.length)
  return tokens

end Abacus
