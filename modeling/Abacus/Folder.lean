import Abacus.Run
import Abacus.Text.Bytes

/-!
# Folders

Files in folders, and the way from a path to the text of a file.  A folder knows what is inside it
and nothing about what is around it: the folders above it are taken to be empty.
-/

namespace Abacus

/-- A file with its bytes, or a folder with its entries by name. -/
inductive Entry
  | file (bytes : List UInt8)
  | folder (entries : List (String × Entry))

/-- Why there is no text to be had at a path. -/
inductive Entry.Fault
  /-- There is nothing of that name. -/
  | notFound
  /-- The path goes on after a file. -/
  | notADirectory
  /-- The path ends at a folder. -/
  | isADirectory
  /-- The bytes of the file are not text. -/
  | invalidData
  /-- The path holds a character that no path can. -/
  | invalidInput
  /-- The path, or a name in it, is longer than any can be. -/
  | nameTooLong
deriving Repr, DecidableEq

namespace Entry

/-- The parts of a path: what stands before, between and after its slashes. -/
def parts (path : List Char) : List (List Char) :=
  path.foldr (fun c rest => if c = '/' then [] :: rest else
    match rest with
    | part :: rest => (c :: part) :: rest
    | [] => [[c]]) [[]]

/-- The bytes that a name can have at most. -/
def longestName : Nat := 255

/-- The bytes that a path can have at most. -/
def longestPath : Nat := 4095

/-- Follows the parts of a path from `here`, which lies in the folders `above`, the nearest one
first. -/
def follow (above : List Entry) (here : Entry) : List String → Except Fault Entry
  | [] => .ok here
  | part :: rest =>
    match here with
    | .file _ => .error .notADirectory
    | .folder entries =>
      if part = "" ∨ part = "." then follow above here rest
      else if part = ".." then
        match above with
        | [] => follow [] (.folder []) rest
        | parent :: above => follow above parent rest
      else
        match entries.lookup part with
        | none => .error (if part.utf8ByteSize ≤ longestName then .notFound else .nameTooLong)
        | some entry => follow (here :: above) entry rest

/-- What a path leads to from `here`; a path that begins with a slash starts outside. -/
def find (here : Entry) (path : String) : Except Fault Entry :=
  if path.toList.contains '\x00' then .error .invalidInput
  else if longestPath < path.utf8ByteSize then .error .nameTooLong
  else if path = "" then .error .notFound
  else
    let start := if path.toList.head? = some '/' then .folder [] else here
    follow [] start ((parts path.toList).map String.ofList)

/-- The text of the file at a path. -/
def read (here : Entry) (path : String) : Except Fault String :=
  match here.find path with
  | .error fault => .error fault
  | .ok (.folder _) => .error .isADirectory
  | .ok (.file bytes) =>
    match Text.ofBytes? bytes with
    | some text => .ok text
    | none => .error .invalidData

end Entry

/-- Why a file has no result.  What can keep a file from being read, `κ`, depends on where it is. -/
inductive FileFailure (κ : Type)
  | io (path : String) (cause : κ)
  | run (failure : Failure)

/-- What is said about a file that cannot be read. -/
def FileFailure.unreadable (path : String) : String := s!"Cannot open file {path}"

/-- Runs what was read at a path, as one source. -/
def Run.file {κ : Type} (emit : Emit) (path : String) :
    Except κ String → Except (FileFailure κ) String
  | .error cause => .error (.io path cause)
  | .ok source =>
    match (Run.text emit source).result with
    | .ok text => .ok text
    | .error failure => .error (.run failure)

/-- Runs the whole file at a path as one source. -/
def Entry.run (here : Entry) (emit : Emit) (path : String) : Except (FileFailure Fault) String :=
  Run.file emit path (here.read path)

end Abacus
