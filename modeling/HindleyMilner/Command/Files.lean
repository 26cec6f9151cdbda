/-! The files that a command can read.

A tree holds files at places, which are lists of names from the root on. A path is followed name by
name; `.` and an empty name stay, and `..` goes up, but only a folder may be left in any of these
ways. -/

set_option autoImplicit false

namespace HindleyMilner.Command

inductive FileError where
  | missing
  | notAFolder
  | isAFolder
  | nameTooLong
  /-- A path with the character that ends paths. -/
  | badPath
  | other (reason : String)
  deriving DecidableEq, Repr

def FileError.message (path : String) : FileError → String
  | .missing => "open " ++ path ++ ": no such file or directory"
  | .notAFolder => "open " ++ path ++ ": not a directory"
  | .isAFolder => "read " ++ path ++ ": is a directory"
  | .nameTooLong => "open " ++ path ++ ": file name too long"
  | .badPath => "open " ++ path ++ ": invalid argument"
  | .other reason => "open " ++ path ++ ": " ++ reason

/-- Files with their places, and the folder in which relative paths start. Every place on the way to
a file is a folder. -/
structure FileTree where
  files : List (List String × List UInt8) := []
  here : List String := []
  deriving Repr

namespace FileTree

def bytes? (tree : FileTree) (place : List String) : Option (List UInt8) :=
  (tree.files.find? (·.1 == place)).map (·.2)

def isFolder (tree : FileTree) (place : List String) : Bool :=
  place.isPrefixOf tree.here
    || tree.files.any fun (path, _) => place.isPrefixOf path && path.length != place.length

def nameLimit : Nat := 255

/-- The bytes that a path may not reach. -/
def pathLimit : Nat := 4096

def follow (tree : FileTree) (place : List String) : List String → Except FileError (List String)
  | [] => .ok place
  | name :: rest =>
    if !tree.isFolder place then .error .notAFolder
    else if name = "" || name = "." then tree.follow place rest
    else if name = ".." then tree.follow place.dropLast rest
    else if nameLimit < name.utf8ByteSize then .error .nameTooLong
    else
      -- A name that leads nowhere is missing, even if a later `..` would leave it.
      let next := place ++ [name]
      if tree.isFolder next || (tree.bytes? next).isSome then tree.follow next rest
      else .error .missing

def read (tree : FileTree) (path : String) : Except FileError (List UInt8) := do
  if path = "" then .error .missing
  else if path.contains '\x00' then .error .badPath
  else if pathLimit ≤ path.utf8ByteSize then .error .nameTooLong
  else
    let start := if path.toList.head? = some '/' then [] else tree.here
    let place ← tree.follow start (path.splitOn "/")
    -- A path that can be followed leads to a file or to a folder.
    match tree.bytes? place with
    | some bytes => .ok bytes
    | none => .error .isAFolder

end FileTree

end HindleyMilner.Command
