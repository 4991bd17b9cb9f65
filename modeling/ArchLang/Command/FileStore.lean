import ArchLang.Ordered.Map

/-!
# Files as data

A `FileStore` is a map from paths to contents, together with the directory that relative paths start
from.  Directories are not kept: a directory exists when something lies below it, and so does the
one that is worked in.

The text of a path is followed name by name.  Every name but the last has to lead to a directory,
and the first one that does not decides what is wrong with the path.

* `FileStore.locate` follows the text of a path and says what is there.
* `FileStore.readText` and `FileStore.write` read and write a file, `FileStore.holds` asks for one.
* `FileFault` lists what can go wrong.
-/

namespace ArchLang

/-- The names on the way from the root to a file or directory. -/
abbrev Path := List String

/-- Why a file could not be read or written. -/
inductive FileFault where
  | notFound
  | notDirectory
  | isDirectory
  /-- a path, or a name in it, is longer than a file system takes -/
  | nameTooLong
  /-- the path holds a character that no file name can have -/
  | badName
  /-- the content is not UTF-8 -/
  | notText
  deriving DecidableEq, Repr

/-- The wording of a fault. -/
def FileFault.message : FileFault → String
  | notFound => "No such file or directory (os error 2)"
  | notDirectory => "Not a directory (os error 20)"
  | isDirectory => "Is a directory (os error 21)"
  | nameTooLong => "File name too long (os error 36)"
  | badName => "file name contained an unexpected NUL byte"
  | notText => "stream did not contain valid UTF-8"

/-- Files by path, and the directory that relative paths start from. -/
structure FileStore where
  files : OrderedMap Path ByteArray
  workingDirectory : Path

/-- What the text of a path leads to. -/
inductive Place where
  | file (path : Path)
  | directory
  /-- nothing yet, in a directory that exists -/
  | vacant (path : Path)
  deriving DecidableEq, Repr

/-- The parts of a text between slashes; there is always one. -/
def splitSlashes : List Char → List (List Char)
  | [] => [[]]
  | c :: rest =>
    if c = '/' then [] :: splitSlashes rest
    else
      match splitSlashes rest with
      | [] => [[c]]
      | first :: others => (c :: first) :: others

namespace FileStore

/-- Whether a path is a directory. -/
def isDirectory (s : FileStore) (path : Path) : Bool :=
  path.isPrefixOf s.workingDirectory ||
    s.files.keys.any fun file => path.isPrefixOf file && path ≠ file

/-- Whether a path is a file. -/
def isFile (s : FileStore) (path : Path) : Bool := s.files.keys.contains path

/-- How many bytes a name may have. -/
def nameLimit : Nat := 255

/-- How many bytes a path may have. -/
def pathLimit : Nat := 4095

/-- Enter a directory from another one. -/
def enter (s : FileStore) (dir : Path) (name : String) : Except FileFault Path :=
  if name = "" ∨ name = "." then .ok dir
  else if name = ".." then .ok dir.dropLast
  else if nameLimit < name.utf8ByteSize then .error .nameTooLong
  else if s.isFile (dir ++ [name]) then .error .notDirectory
  else if s.isDirectory (dir ++ [name]) then .ok (dir ++ [name])
  else .error .notFound

/-- Look for the last name of a path. -/
def arrive (s : FileStore) (dir : Path) (name : String) : Except FileFault Place :=
  if name = "" ∨ name = "." ∨ name = ".." then .ok .directory
  else if nameLimit < name.utf8ByteSize then .error .nameTooLong
  else if s.isFile (dir ++ [name]) then .ok (.file (dir ++ [name]))
  else if s.isDirectory (dir ++ [name]) then .ok .directory
  else .ok (.vacant (dir ++ [name]))

/-- Follow names from a directory: the last one may lead to anything, those before it have to be
directories. -/
def walk (s : FileStore) (dir : Path) : List String → Except FileFault Place
  | [] => .ok .directory
  | [name] => s.arrive dir name
  | name :: rest => (s.enter dir name).bind fun dir => walk s dir rest

/-- The directory that a path starts from: the root behind a leading slash, otherwise `dir`. -/
def startOf (dir : Path) (text : List Char) : Path := if text.head? = some '/' then [] else dir

/-- The names in the text of a path that can be followed at all. -/
def namesOf (text : String) : Except FileFault (List String) :=
  if text = "" then .error .notFound
  else if '\x00' ∈ text.toList then .error .badName
  else if pathLimit < text.utf8ByteSize then .error .nameTooLong
  else .ok ((splitSlashes text.toList).map String.ofList)

/-- Follow the text of a path. -/
def locate (s : FileStore) (text : String) : Except FileFault Place := do
  let names ← namesOf text
  s.walk (startOf s.workingDirectory text.toList) names

/-- The content of the file at a place. -/
def contentAt (s : FileStore) : Place → Except FileFault ByteArray
  | .file path =>
    match s.files.get? path with
    | some content => .ok content
    | none => .error .notFound
  | .directory => .error .isDirectory
  | .vacant _ => .error .notFound

/-- Bytes as a text, if they are UTF-8. -/
def decode (content : ByteArray) : Except FileFault String :=
  match String.fromUTF8? content with
  | some text => .ok text
  | none => .error .notText

/-- Whether there is a file or a directory. -/
def holds (s : FileStore) (text : String) : Bool :=
  match s.locate text with
  | .ok (.file _) => true
  | .ok .directory => true
  | _ => false

/-- The text of a file. -/
def readText (s : FileStore) (text : String) : Except FileFault String := do
  let place ← s.locate text
  let content ← s.contentAt place
  decode content

/-- The names without the empty ones at the end, which slashes leave there. -/
def withoutEndSlashes (names : List String) : List String :=
  (names.reverse.dropWhile (· = "")).reverse

/-- Where a file can be written: a path that ends with a slash names a directory, there or not. -/
def writable (s : FileStore) (text : String) : Except FileFault Path := do
  let names ← namesOf text
  let start := startOf s.workingDirectory text.toList
  if names.getLast? = some "" then
    let _ ← (withoutEndSlashes names).dropLast.foldlM s.enter start
    .error .isDirectory
  else
    match ← s.walk start names with
    | .file path => pure path
    | .vacant path => pure path
    | .directory => .error .isDirectory

/-- The store with another content of one file. -/
def put (s : FileStore) (path : Path) (content : String) : FileStore :=
  { s with files := s.files.insertWith (fun _ new => new) path content.toUTF8 }

/-- Write a text to a file, in place of what it held. -/
def write (s : FileStore) (text content : String) : Except FileFault FileStore := do
  let path ← s.writable text
  pure (s.put path content)

end FileStore

end ArchLang
