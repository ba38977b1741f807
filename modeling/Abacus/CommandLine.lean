import Abacus.Folder
import Abacus.Session

/-!
# The command line

    [--emit MODE] [--log-level LEVEL] [FILE]

With a file the whole file is one source; without one a session is held over the standard input.
Arguments are taken from left to right, and the first fault, or the first request for the version or
for help, settles what happens.  The level of the log changes neither the output nor the exit
status.

1. `CommandLine.request` says what the arguments ask for.
2. `CommandLine.perform` does it, in any surroundings that have files and a standard input.
3. `CommandLine.run` does it in a folder and with an input that are both known from the beginning,
   and other surroundings that answer alike make no difference (`perform_eq_run`).
-/

namespace Abacus

/-- How much is logged. -/
inductive LogLevel
  | off
  | error
  | warn
  | info
  | debug
  | trace
deriving Repr, DecidableEq

/-- The level with the given name, in any case of letters. -/
def LogLevel.ofName? (name : String) : Option LogLevel :=
  match String.ofList (name.toList.map Char.toLower) with
  | "off" => some .off
  | "error" => some .error
  | "warn" => some .warn
  | "info" => some .info
  | "debug" => some .debug
  | "trace" => some .trace
  | _ => none

namespace CommandLine

/-- What the arguments have asked for so far. -/
structure Settings where
  file? : Option String := none
  emit? : Option Emit := none
  level? : Option LogLevel := none
deriving Repr, DecidableEq

/-- What the program is asked to do. -/
inductive Request
  | run (settings : Settings)
  | version
  | help
deriving Repr, DecidableEq

/-- Why the arguments cannot be followed. -/
inductive UsageError
  | unknown (argument : String)
  | repeated (option : String)
  | missingValue (option : String)
  | needlessValue (option : String)
  | invalidValue (option value : String)
deriving Repr, DecidableEq

/-- What is said about arguments that cannot be followed. -/
def UsageError.message : UsageError → String
  | .unknown argument => s!"error: unexpected argument '{argument}' found"
  | .repeated option => s!"error: the argument '{option}' cannot be used multiple times"
  | .missingValue option => s!"error: a value is required for '{option}' but none was supplied"
  | .needlessValue option => s!"error: unexpected value for '{option}' found"
  | .invalidValue option value => s!"error: invalid value '{value}' for '{option}'"

/-- The forms of an argument. -/
inductive Argument
  /-- Two dashes alone: all that follows is taken as it is. -/
  | endOfOptions
  /-- Two dashes and a name, with the value after an equals sign. -/
  | long (name : String) (value? : Option String)
  /-- A dash and letters. -/
  | short (first : Char)
  /-- Anything else, a dash alone included. -/
  | plain
deriving Repr, DecidableEq

/-- The form of an argument. -/
def Argument.of (text : String) : Argument :=
  match text.toList with
  | ['-', '-'] => .endOfOptions
  | '-' :: '-' :: rest =>
    let name := String.ofList (rest.takeWhile (· ≠ '='))
    match rest.dropWhile (· ≠ '=') with
    | [] => .long name none
    | _ :: value => .long name (some (String.ofList value))
  | '-' :: first :: _ => .short first
  | _ => .plain

namespace Settings

/-- Takes an argument as the file; there is at most one, and its name is not empty. -/
def setFile (settings : Settings) (path : String) : Except UsageError Settings :=
  if path = "" then .error (.invalidValue "FILE" path)
  else if settings.file?.isSome then .error (.unknown path)
  else .ok { settings with file? := some path }

/-- Chooses what is shown, once. -/
def setEmit (settings : Settings) (value : String) : Except UsageError Settings :=
  if settings.emit?.isSome then .error (.repeated "--emit")
  else
    match Emit.ofName? value with
    | none => .error (.invalidValue "--emit" value)
    | some emit => .ok { settings with emit? := some emit }

/-- Chooses how much is logged, once. -/
def setLevel (settings : Settings) (value : String) : Except UsageError Settings :=
  if settings.level?.isSome then .error (.repeated "--log-level")
  else
    match LogLevel.ofName? value with
    | none => .error (.invalidValue "--log-level" value)
    | some level => .ok { settings with level? := some level }

end Settings

/-- What an option with a value does. -/
def setter? (name : String) : Option (Settings → String → Except UsageError Settings) :=
  match name with
  | "emit" => some Settings.setEmit
  | "log-level" => some Settings.setLevel
  | _ => none

/-- Takes the arguments from left to right.  The value of an option stands after an equals sign or
is the next argument, which then has no dash. -/
def takeArguments (settings : Settings) : List String → Except UsageError Request
  | [] => .ok (.run settings)
  | argument :: rest =>
    match Argument.of argument with
    | .endOfOptions => do return .run (← rest.foldlM Settings.setFile settings)
    | .plain => do takeArguments (← settings.setFile argument) rest
    | .short 'V' | .long "version" none => .ok .version
    | .short 'h' | .long "help" none => .ok .help
    | .short _ => .error (.unknown argument)
    | .long "version" (some _) | .long "help" (some _) => .error (.needlessValue argument)
    | .long name value? =>
      match setter? name, value? with
      | none, _ => .error (.unknown argument)
      | some set, some value => do takeArguments (← set settings value) rest
      | some set, none =>
        match rest with
        | [] => .error (.missingValue argument)
        | value :: rest =>
          if Argument.of value = .plain then do takeArguments (← set settings value) rest
          else .error (.missingValue argument)

/-- What is asked for.  The level that the environment names counts when the arguments name none. -/
def request (arguments : List String) (environment? : Option String) :
    Except UsageError Request := do
  match ← takeArguments {} arguments, environment? with
  | .run settings, some level =>
    if settings.level?.isSome then return .run settings else return .run (← settings.setLevel level)
  | request, _ => return request

/-! ## What the program does -/

/-- What the program leaves behind: an exit status and two texts. -/
structure Outcome where
  status : Nat
  output : String
  errors : String
deriving Repr, DecidableEq

/-- The answer to a request for the version. -/
def version : String := "exprl 0.1.0\n"

/-- The answer to a request for help, which shows the level that the environment names. -/
def help (environment? : Option String) : String :=
  "Tokenizes, parses and evaluates arithmetic expressions\n\n" ++
  "Usage: exprl [OPTIONS] [FILE]\n\n" ++
  "Arguments:\n" ++
  "  [FILE]  Source file to evaluate as a whole. Starts an interactive prompt when omitted\n\n" ++
  "Options:\n" ++
  "      --emit <EMIT>      What to print: the evaluated value, the token stream, or the syntax " ++
  "tree [default: value]\n" ++
  "      --log-level <LOG>  [env: RUST_LOG=" ++ environment?.getD "" ++ "]\n" ++
  "  -h, --help             Print help\n" ++
  "  -V, --version          Print version\n"

/-- What is left behind by a run of a whole file. -/
def Outcome.ofRun : Except Failure String → Outcome
  | .ok text => ⟨0, text ++ "\n", ""⟩
  | .error failure => ⟨1, "", failure.display ++ "\n"⟩

/-- What is left behind by arguments that cannot be followed. -/
def Outcome.ofUsage (error : UsageError) : Outcome := ⟨2, "", error.message ++ "\n"⟩

/-- What is left behind when a file cannot be read. -/
def Outcome.ofUnreadable (path : String) : Outcome :=
  ⟨1, "", FileFailure.unreadable path ++ "\n"⟩

/-- What is left behind by a file. -/
def Outcome.ofFile {κ : Type} : Except (FileFailure κ) String → Outcome
  | .ok text => .ofRun (.ok text)
  | .error (.run failure) => .ofRun (.error failure)
  | .error (.io path _) => .ofUnreadable path

/-- What is left behind by a session. -/
def Outcome.ofSession (session : Session) : Outcome :=
  if session.isText then ⟨0, session.output, ""⟩
  else ⟨1, session.output, "stream did not contain valid UTF-8\n"⟩

/-- What the program finds around it.  The effects `m` are those of using it, and `κ` is what can
keep a file from being read. -/
structure Surroundings (m : Type → Type) (κ : Type) where
  /-- The text of the file at a path. -/
  read : String → m (Except κ String)
  /-- A session over the standard input, with what it has not shown yet. -/
  session : Emit → m Session

section Perform

variable {m : Type → Type} [Monad m] {κ : Type}

/-- Follows a request. -/
def follow (around : Surroundings m κ) (environment? : Option String) : Request → m Outcome
  | .version => pure ⟨0, version, ""⟩
  | .help => pure ⟨0, help environment?, ""⟩
  | .run settings => do
    let emit := settings.emit?.getD .value
    match settings.file? with
    | none => return .ofSession (← around.session emit)
    | some path => return .ofFile (Run.file emit path (← around.read path))

/-- Does what the arguments ask for. -/
def perform (around : Surroundings m κ) (arguments : List String) (environment? : Option String) :
    m Outcome :=
  match request arguments environment? with
  | .error error => pure (.ofUsage error)
  | .ok request => follow around environment? request

end Perform

/-- The folder `here`, and `input` on the standard input. -/
def Surroundings.of (here : Entry) (input : List UInt8) : Surroundings Id Entry.Fault where
  read := here.read
  session := fun emit => Session.run emit input

/-- What the program leaves behind. -/
def run (arguments : List String) (environment? : Option String) (here : Entry)
    (input : List UInt8) : Outcome :=
  Id.run (perform (Surroundings.of here input) arguments environment?)

/-! ## Other surroundings -/

/-- Why a file cannot be read makes no difference. -/
theorem Outcome.ofFile_eq {κ κ' : Type} {emit : Emit} {path : String} {read : Except κ String}
    {read' : Except κ' String} (h : read.toOption = read'.toOption) :
    ofFile (Run.file emit path read) = ofFile (Run.file emit path read') := by
  cases read with
  | error cause =>
    cases read' with
    | error cause' => rfl
    | ok source => exact absurd h (by simp [Except.toOption])
  | ok source =>
    cases read' with
    | error cause' => exact absurd h (by simp [Except.toOption])
    | ok source' =>
      obtain rfl : source = source' := Option.some.inj h
      simp only [Run.file]
      cases (Run.text emit source).result with
      | ok text => rfl
      | error failure => rfl

/-- Surroundings that have the texts of a folder and hold the session over an input lead to the same
outcome as these do, whatever effects they could have and whatever they call the causes. -/
theorem perform_eq_run {m : Type → Type} [Monad m] [LawfulMonad m] {κ : Type}
    {around : Surroundings m κ} {here : Entry} {input : List UInt8}
    (hread : ∀ path, ∃ read, around.read path = pure read ∧
      read.toOption = (here.read path).toOption)
    (hsession : ∀ emit, around.session emit = pure (Session.run emit input))
    (arguments : List String) (environment? : Option String) :
    perform around arguments environment? = pure (run arguments environment? here input) := by
  unfold run perform
  cases request arguments environment? with
  | error error => rfl
  | ok request =>
    cases request with
    | version => rfl
    | help => rfl
    | run settings =>
      simp only [follow]
      cases settings.file? with
      | none =>
        simp only [hsession, pure_bind]
        rfl
      | some path =>
        rcases hread path with ⟨read, heq, hsame⟩
        simp only [heq, pure_bind]
        rw [Outcome.ofFile_eq hsame]
        rfl

end CommandLine

end Abacus
