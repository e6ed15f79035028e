import Pipework.Text.Utf8

/-!
# Files

The files that tools find: the usual directories, a few regular files of no interest, and the
devices for nothing and for zeros without end.

## Main definitions

* `Found` — what a path leads to
* `find` — following a path
* `FileError` — why a file was not read
* `readFile` — the bytes of a file, or the first of them
-/

namespace Pipework.Userland

/-- What a path leads to. -/
inductive Found where
  | missing
  | notDirectory
  | directory
  | regular
  /-- A device that holds nothing. -/
  | null
  /-- A device that holds zeros without end. -/
  | zero
  /-- A program of that name. -/
  | program (name : String)
  deriving Repr, DecidableEq

/-- The directories that hold programs. -/
def programDirectories : List (List String) :=
  [["bin"], ["sbin"], ["usr", "bin"], ["usr", "sbin"], ["usr", "local", "bin"],
   ["usr", "local", "sbin"]]

/-- The directories. -/
def directories : List (List String) :=
  programDirectories ++
    [[], ["usr"], ["usr", "local"], ["usr", "lib"], ["usr", "share"], ["etc"], ["tmp"], ["dev"],
     ["var"], ["var", "tmp"], ["home"], ["root"], ["lib"], ["opt"], ["proc"], ["sys"], ["run"],
     ["mnt"], ["srv"], ["boot"], ["media"]]

/-- The regular files. -/
def regularFiles : List (List String) :=
  [["etc", "passwd"], ["etc", "group"], ["etc", "hosts"], ["etc", "hostname"],
   ["etc", "resolv.conf"]]

/-- What the names of a path from the root lead to, the programs being those named. -/
def findNames (programs : List String) (names : List String) : Found :=
  if directories.contains names then .directory
  else if regularFiles.contains names then .regular
  else if names == ["dev", "null"] then .null
  else if names == ["dev", "zero"] then .zero
  else
    match names.getLast? with
    | some name =>
      if programDirectories.contains names.dropLast && programs.contains name then .program name
      else .missing
    | none => .missing

/-- Follows the further names of a path, after the names that led to a directory. -/
def follow (programs : List String) (here : List String) : List String → Found
  | [] => .directory
  | name :: names =>
    if name.isEmpty || name == "." then follow programs here names
    else if name == ".." then follow programs here.dropLast names
    else
      match findNames programs (here ++ [name]) with
      | .directory => follow programs (here ++ [name]) names
      | .missing => .missing
      | found => if names.isEmpty then found else .notDirectory

/-- Follows a path. Paths that do not begin at the root start in a directory that is empty, as is
the one above it. -/
def find (programs : List String) (path : String) : Found :=
  match path.toList with
  | '/' :: _ => follow programs [] (path.splitOn "/")
  | [] => .missing
  | _ =>
    let isHere (name : String) : Bool := name.isEmpty || name == "." || name == ".."
    if (path.splitOn "/").all isHere then .directory else .missing

/-- Why a file was not read. -/
inductive FileError where
  | missing
  | notDirectory
  | isDirectory
  /-- The file has no end. -/
  | endless
  deriving Repr, DecidableEq

/-- Why a file was not read, in words. -/
def FileError.message : FileError → String
  | missing => "No such file or directory"
  | notDirectory => "Not a directory"
  | isDirectory => "Is a directory"
  | endless => "File too large"

/-- The bytes of a file, or at most so many of them. -/
def readFile (path : String) (limit : Option Nat) : Except FileError Bytes :=
  match find [] path, limit with
  | .missing, _ => .error .missing
  | .notDirectory, _ => .error .notDirectory
  | .directory, _ => .error .isDirectory
  | .zero, some n => .ok (List.replicate n 0)
  | .zero, none => .error .endless
  | _, _ => .ok []

end Pipework.Userland
