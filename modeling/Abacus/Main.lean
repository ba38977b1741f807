import Abacus.CommandLine

/-!
# The program

What the standard streams, the files of the system and the environment are for the pure parts.
Everything that is decided about them is decided there: `CommandLine.perform` follows the arguments,
and `Session.step` follows the lines.
-/

namespace Abacus.Main

/-- Reads up to and including the next newline; nothing at the end of the input. -/
partial def readLine (stream : IO.FS.Stream) (line : ByteArray) : IO ByteArray := do
  let byte ← stream.read 1
  if byte.isEmpty then return line
  let line := line ++ byte
  if byte.toList == [10] then return line
  readLine stream line

/-- Goes on with a session over the standard streams.  What it has to show is shown before the next
line is read, and the rest is left to the caller. -/
partial def interact (emit : Emit) (input output : IO.FS.Stream) (session : Session) :
    IO Session := do
  output.putStr session.output
  output.flush
  let line ← readLine input .empty
  match Session.step emit { session with output := "" } line.toList with
  | .more session => interact emit input output session
  | .ended session => return session

/-- The text of a file of the system. -/
def read (path : String) : IO (Except IO.Error String) := do
  match ← (IO.FS.readBinFile path).toBaseIO with
  | .error error => return .error error
  | .ok bytes =>
    match Text.ofBytes? bytes.toList with
    | some text => return .ok text
    | none => return .error (IO.userError "stream did not contain valid UTF-8")

/-- The surroundings of the program. -/
def surroundings : CommandLine.Surroundings IO IO.Error where
  read := read
  session := fun emit => do interact emit (← IO.getStdin) (← IO.getStdout) .start

end Abacus.Main

open Abacus in
/-- The program. -/
def main (arguments : List String) : IO UInt32 := do
  let environment? ← IO.getEnv "RUST_LOG"
  let outcome ← CommandLine.perform Main.surroundings arguments environment?
  IO.print outcome.output
  IO.eprint outcome.errors
  return outcome.status.toUInt32
