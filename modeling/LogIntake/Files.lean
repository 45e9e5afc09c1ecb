import LogIntake.Text.Utf8

/-!
A tree of files, and the faults of looking into it.
-/
namespace LogIntake

open Text (Bytes)

inductive SystemFault where
  | notFound
  | notADirectory
  | invalidInput
  | invalidFilename
  | invalidData
  | addressInUse
deriving DecidableEq, Repr

def SystemFault.message : SystemFault → String
  | notFound => "<io NotFound>"
  | notADirectory => "<io NotADirectory>"
  | invalidInput => "<io InvalidInput>"
  | invalidFilename => "<io InvalidFilename>"
  | invalidData => "<io InvalidData>"
  | addressInUse => "<io AddrInUse>"

inductive FileTree where
  | file (content : Bytes)
  | directory (entries : List (Bytes × FileTree))
deriving Inhabited

namespace FileTree

def separator : UInt8 := 0x2F

/-- The names of a path; empty ones and single dots do not count. -/
def pathNames (path : Bytes) : List Bytes :=
  (path.splitOn separator).filter fun name => !name.isEmpty && name != [0x2E]

def parentName : Bytes := [0x2E, 0x2E]

def maxNameLength : Nat := 255

/-- What stands at the end of a row of names. `above` holds the directories over this one, the nearest
first; nothing else stands outside of the tree. -/
def resolve (above : List FileTree) : List Bytes → FileTree → Except SystemFault FileTree
  | [], t => .ok t
  | _ :: _, .file _ => .error .notADirectory
  | name :: rest, .directory entries =>
    if name = parentName then
      match above with
      | [] => resolve [] rest (.directory [])
      | outer :: above => resolve above rest outer
    else if maxNameLength < name.length then .error .invalidFilename
    else
      match entries.lookup name with
      | some t => resolve (.directory entries :: above) rest t
      | none => .error .notFound

def find (path : Bytes) (root : FileTree) : Except SystemFault FileTree :=
  if path.isEmpty then .error .notFound
  else if path.contains 0 then .error .invalidInput
  else resolve [] (pathNames path) root

def childPath (directory name : String) : String :=
  if directory.endsWith "/" then directory ++ name else directory ++ "/" ++ name

def place (t : FileTree) : List Bytes → List (Bytes × FileTree) → List (Bytes × FileTree)
  | [], entries => entries
  | [name], entries =>
    match t, entries.lookup name with
    | .directory _, some (.directory _) => entries
    | _, _ => entries.filter (·.1 != name) ++ [(name, t)]
  | name :: rest, entries =>
    let inner := match entries.lookup name with
      | some (.directory inner) => inner
      | _ => []
    entries.filter (·.1 != name) ++ [(name, .directory (place t rest inner))]

/-- Puts a tree at the end of a path and a directory at every place on the way; `above` holds the
names that lead here, the nearest first. What would stand outside of the tree is left out. -/
def placeAlong (t : FileTree) (above : List Bytes) :
    List Bytes → List (Bytes × FileTree) → List (Bytes × FileTree)
  | [], entries => entries
  | name :: rest, entries =>
    if name = parentName then
      match above with
      | [] => entries
      | _ :: above => placeAlong t above rest entries
    else
      let here := name :: above
      placeAlong t here rest
        (place (if rest.isEmpty then t else .directory []) here.reverse entries)

/-- The directory of the given files; a path without content is a directory. -/
def ofFiles (files : List (Bytes × Option Bytes)) : FileTree :=
  .directory <| files.foldl
    (fun entries (path, content) =>
      placeAlong (match content with
        | some bytes => .file bytes
        | none => .directory []) [] (pathNames path) entries)
    []

def dot : UInt8 := 0x2E

/-- A file name without its ending, and the ending: what stands behind the last dot, unless nothing
stands before it. -/
def stemAndEnding (name : Bytes) : Bytes × Option Bytes :=
  let ending := (name.reverse.takeWhile (· != dot)).reverse
  let stem := name.take (name.length - ending.length - 1)
  if name.contains dot && !stem.isEmpty then (stem, some ending) else (name, none)

end FileTree

end LogIntake
