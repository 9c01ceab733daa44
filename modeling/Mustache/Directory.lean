import Mustache.Error
import Mustache.Text.Search
import Mustache.Text.Utf8

/-!
Partials kept as files. A name is a path below the folder: the file of that path, or
else the file of that path with the extension. No part of a name may start with a
dot or hold a backslash.
-/

namespace Mustache

inductive Entry
  | file (content : List UInt8)
  | folder (entries : List (String × Entry))

abbrev Folder := List (String × Entry)

inductive FileResult
  | content (bytes : List UInt8)
  | missing
  | failed
  deriving DecidableEq, Repr

namespace Folder

/-- The longest name an entry can have, in bytes. -/
def nameLimit : Nat := 255

/-- The longest path that can be asked for, in bytes. -/
def pathLimit : Nat := 4095

/-- Reads along a path. The first part that is missing decides, unless a part before it is no
folder; a part that is too long cannot be asked for. -/
def readParts (folder : Folder) : List String → FileResult
  | [] => .failed
  | part :: rest =>
      if nameLimit < part.utf8ByteSize then .failed
      else
        match folder.lookup part with
        | none => .missing
        | some (.file content) => if rest.isEmpty then .content content else .failed
        | some (.folder entries) => readParts entries rest

/-- Reads the parts of a path; one that is too long or holds the character zero is no path. -/
def read (folder : Folder) (path : String) (parts : List String) : FileResult :=
  if pathLimit < path.utf8ByteSize || path.toList.contains '\x00' then .failed
  else folder.readParts parts

def insert (entry : Entry) : List String → Folder → Folder
  | [], folder => folder
  | [name], folder => (name, entry) :: folder.filter fun present => present.1 != name
  | name :: rest, folder =>
      let inner : Folder :=
        match folder.lookup name with
        | some (.folder entries) => entries
        | _ => []
      (name, .folder (insert entry rest inner)) :: folder.filter fun present => present.1 != name

end Folder

/-- A name as a path: its parts as written between slashes, empty ones among them. -/
structure PartialPath where
  written : List String
  deriving DecidableEq, Repr

namespace PartialPath

def extension : String := ".mustache"

/-- The path of a name, unless a part is hidden or would escape the folder. -/
def ofName? (name : String) : Option PartialPath :=
  let parts := Text.splitAt '/' name.toList
  if parts.any fun part => part.head? = some '.' || part.contains '\\' then none
  else some ⟨parts.map String.ofList⟩

/-- The parts that name entries; a slash stands only once between them. -/
def parts (path : PartialPath) : List String := path.written.filter fun part => part != ""

/-- Whether the path ends in a slash, and so cannot be a file. -/
def isOpen (path : PartialPath) : Bool := path.written.getLast? = some ""

/-- The text of the path below a folder, which may be given by no text at all. -/
def below (folder : String) (path : PartialPath) : String :=
  path.written.foldl
    (fun text part =>
      if text.toList.getLast?.all (· == '/') then text ++ part else text ++ "/" ++ part)
    folder

def extendedParts (path : PartialPath) : List String :=
  if path.isOpen then path.parts ++ [extension]
  else
    match path.parts.reverse with
    | [] => [extension]
    | last :: before => (before.reverse ++ [last ++ extension])

end PartialPath

namespace Folder

def unreadable (path : String) : Error :=
  (Error.ofDetail .partialLoadFailure ("could not read partial \x60" ++ path ++ "\x60")).withCause
    ⟨"the file could not be read", "Unreadable"⟩

/-- The text read, none for a missing file; what is not UTF-8 cannot be read. -/
def textOf (path : String) : FileResult → Except Error (Option String)
  | .content bytes =>
      match Text.decode? bytes with
      | some text => .ok (some text)
      | none => .error (unreadable path)
  | .missing => .ok none
  | .failed => .error (unreadable path)

def load (name : String) (folder : Folder) (wanted : String) : Except Error (Option String) :=
  match PartialPath.ofName? wanted with
  | none => .ok none
  | some path =>
      let plain := path.below name
      let extended := plain ++ PartialPath.extension
      let fallback := textOf extended (folder.read extended path.extendedParts)
      if path.isOpen then fallback
      else
        match folder.read plain path.parts with
        | .content bytes => textOf plain (.content bytes)
        | _ => fallback

end Folder

end Mustache
