import LogIntake.Template.Basic
import LogIntake.TextMap

/-!
Sets of templates, and loading them from a directory. The order in which a directory lists its files
does not count: files are taken in the byte order of their names, and the last template of a name
stays.
-/
namespace LogIntake

open Text (Bytes)

abbrev TemplateSet := TextMap Template

namespace TemplateSet

/-- Adds a template, in place of an earlier one of its name. -/
def add (t : Template) (s : TemplateSet) : TemplateSet := s.insert t.name t

end TemplateSet

inductive LoadError where
  | directoryNotFound (path : String)
  | unreadableDirectory (path : String) (fault : SystemFault)
  | invalidFile (path : String) (cause : Template.LoadError)
deriving DecidableEq, Repr

def LoadError.failure : LoadError → Failure
  | directoryNotFound path => ⟨"plugin dir not found: " ++ path, []⟩
  | unreadableDirectory path fault => ⟨"could not read plugin dir " ++ path, [fault.message]⟩
  | invalidFile path cause => cause.failure.context ("invalid plugin file " ++ path)

namespace TemplateSet

def ending : Bytes := Text.encode "toml"

def templateFiles (entries : List (Bytes × FileTree)) : List (Bytes × Bytes) :=
  entries.filterMap fun
    | (name, .file content) =>
      if (FileTree.stemAndEnding name).2 = some ending then some (name, content) else none
    | (_, .directory _) => none

/-- The template of a file. Its name is the file's, up to the ending, unless it says another. -/
def ofFile (directory : String) (name content : Bytes) : Except LoadError Template :=
  let path := FileTree.childPath directory (Text.decodeLossy name)
  let loaded : Except Template.LoadError Template := match Text.decode? content with
    | none => .error (.unreadable .invalidData)
    | some text =>
      Template.parse text ((Text.decode? (FileTree.stemAndEnding name).1).getD "") path
  loaded.mapError (LoadError.invalidFile path)

def addFiles (directory : String) : List (Bytes × Bytes) → TemplateSet →
    Except LoadError TemplateSet
  | [], s => .ok s
  | (name, content) :: rest, s =>
    match ofFile directory name content with
    | .ok t => addFiles directory rest (add t s)
    | .error e => .error e

def ofEntries (directory : String) (entries : List (Bytes × FileTree)) :
    Except LoadError TemplateSet :=
  addFiles directory ((templateFiles entries).mergeSort fun a b => decide (a.1 ≤ b.1)) .empty

def load (directory : String) (found : Except SystemFault FileTree) :
    Except LoadError TemplateSet :=
  match found with
  | .ok (.directory entries) => ofEntries directory entries
  | .ok (.file _) => .error (.unreadableDirectory directory .notADirectory)
  | .error .notFound => .error (.directoryNotFound directory)
  | .error fault => .error (.unreadableDirectory directory fault)

end TemplateSet

end LogIntake
