import Abacus.Run
import Abacus.Text.Bytes

/-!
# Sessions

A session answers one line after the other, each as a source of its own.  It ends with the input, at
an empty line, at a line with `exit` in it, and at a line that is not text.

1. `Session.reply` says what is done about a line, from the line alone.
2. `Session.step` is what a line does to a session, wherever the line comes from.
3. `Session.run` takes the lines of an input one by one.
-/

namespace Abacus

namespace Session

/-- What is shown before the first prompt. -/
def banner : String := "\nRepl v0.1\n"

/-- What is shown when a line is awaited. -/
def prompt : String := "> "

/-- What a session does about a line. -/
inductive Reply
  | answer (text : String)
  | leave
  | notText
deriving Repr, DecidableEq

/-- Whether a character ends lines. -/
def isTerminator (c : Char) : Bool := c = '\n' || c = '\r'

/-- A line without the terminators at its end. -/
def strip (line : String) : String :=
  String.ofList (line.toList.reverse.dropWhile isTerminator).reverse

/-- Whether a word stands somewhere in a text. -/
def occurs (word : List Char) : List Char → Bool
  | [] => word.isEmpty
  | c :: rest => word.isPrefixOf (c :: rest) || occurs word rest

/-- Whether a line ends the session. -/
def isLast (line : String) : Bool := line = "" || occurs "exit".toList line.toList

/-- What a run shows to the reader, be it a result or a failure. -/
def answer (emit : Emit) (line : String) : String :=
  match (Run.text emit line).result with
  | .ok text => text
  | .error failure => failure.display

/-- What a session does about a line that is text. -/
def replyTo (emit : Emit) (line : String) : Reply :=
  let line := strip line
  if isLast line then .leave else .answer (answer emit line)

/-- What a session does about a line of bytes. -/
def reply (emit : Emit) (line : List UInt8) : Reply :=
  match Text.ofBytes? line with
  | some text => replyTo emit text
  | none => .notText

/-- The lines of an input, each with the newline that ends it. -/
def lines (input : List UInt8) : List (List UInt8) := input.splitBy fun byte _ => byte != 10

end Session

/-- What became of an input: all that was written, how many bytes were read, and whether every line
was text. -/
structure Session where
  output : String
  consumed : Nat
  isText : Bool
deriving Repr, DecidableEq

namespace Session

/-- Before the first line. -/
def start : Session := ⟨banner ++ prompt, 0, true⟩

/-- How a line leaves a session: waiting for the next line, or over. -/
inductive Next
  | more (session : Session)
  | ended (session : Session)
deriving Repr, DecidableEq

/-- What a line does to a session.  At the end of an input nothing is left of a line, and the session
is over as it is at any empty one. -/
def step (emit : Emit) (session : Session) (line : List UInt8) : Next :=
  let consumed := session.consumed + line.length
  match reply emit line with
  | .answer text =>
    .more { session with output := session.output ++ text ++ "\n" ++ prompt, consumed }
  | .leave => .ended { session with consumed }
  | .notText => .ended { session with consumed, isText := false }

/-- Goes on with the lines that are left. -/
def resume (emit : Emit) (session : Session) : List (List UInt8) → Session
  | [] => session
  | line :: rest =>
    match step emit session line with
    | .more session => resume emit session rest
    | .ended session => session

/-- The session over an input. -/
def run (emit : Emit) (input : List UInt8) : Session := resume emit start (lines input)

end Session

end Abacus
