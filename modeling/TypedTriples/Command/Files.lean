import TypedTriples.Command.Place

/-!
# Files

What a run of the command sees of the file system: files with their octets,
and directories. A path is followed step by step, and the first step that
fails decides what is wrong with it.

Main definitions:
* `Files.find?`: what stands at a place.
* `Files.follow`: the place that a path leads to, if it leads anywhere.
* `Files.open?`, `Files.contents`, `Files.create?`, `Files.write`: the operations
  of a run.
* `Text.ofUtf8?`, `Text.toUtf8`: text as octets.
-/

namespace TypedTriples

/-- Octets of a file or stream. -/
abbrev Octets := List UInt8

/-- The octets of a text in UTF-8. -/
def Text.toUtf8 (t : Text) : Octets := t.flatMap String.utf8EncodeChar

/-- The text that octets stand for in UTF-8, if they are well formed. -/
def Text.ofUtf8? (octets : Octets) : Option Text :=
  (ByteArray.utf8Decode? ⟨octets.toArray⟩).map Array.toList

/-- Why a file cannot be used. -/
inductive FileFault where
  /-- Nothing stands at the path. -/
  | notFound
  /-- A directory stands where a file is needed. -/
  | isDirectory
  /-- A file stands where a directory is needed. -/
  | notDirectory
  /-- The path or a name in it is too long. -/
  | nameTooLong
  /-- The path contains a null character. -/
  | nullInPath
  /-- The octets are not UTF-8. -/
  | notText
  deriving DecidableEq, Repr

/-- The message of a fault. -/
def FileFault.message : FileFault → Text
  | notFound => "No such file or directory (os error 2)".toList
  | isDirectory => "Is a directory (os error 21)".toList
  | notDirectory => "Not a directory (os error 20)".toList
  | nameTooLong => "File name too long (os error 36)".toList
  | nullInPath => "file name contained an unexpected NUL byte".toList
  | notText => "stream did not contain valid UTF-8".toList

/-- What stands at a place. -/
inductive FileEntry where
  | file (octets : Octets)
  | directory
  deriving DecidableEq, Repr

/-- Files and directories by place. The root, the working directory and those
    above it need no entry. -/
structure Files where
  entries : List (Place × FileEntry) := []
  deriving DecidableEq, Repr

namespace Files

/-! ## Following a path -/

/-- What stands at a place: an entry of its own, or a directory because other
    entries lie below it. -/
def find? (files : Files) (place : Place) : Option FileEntry :=
  if place.isGiven then some .directory
  else
    match files.entries.lookup place with
    | some entry => some entry
    | none =>
      if files.entries.any fun entry => entry.1.isBelow place then some .directory else none

/-- The octets that the longest name has. -/
def nameLimit : Nat := 255

/-- The octets that the longest path has. -/
def pathLimit : Nat := 4095

/-- The place that a step leads to. Any step has to start in a directory, even
    one that stays there. -/
def step (files : Files) (place : Place) (name : Text) : Except FileFault Place :=
  match files.find? place with
  | none => .error .notFound
  | some (.file _) => .error .notDirectory
  | some .directory =>
    if nameLimit < name.toUtf8.length then .error .nameTooLong
    else if (files.find? (place.next name)).isNone then .error .notFound
    else .ok (place.next name)

/-- A path, if it can be given to the file system at all. -/
def checked (path : Text) : Except FileFault Text :=
  if path.contains '\x00' then .error .nullInPath
  else if pathLimit < path.toUtf8.length then .error .nameTooLong
  else .ok path

/-- The place that a path leads to, where something stands. -/
def follow (files : Files) (path : Text) : Except FileFault Place := do
  (Place.steps (← checked path)).foldlM files.step (Place.origin path)

/-! ## Operations -/

/-- The place that is opened for reading at a path. A directory can be opened
    but not read. -/
def open? (files : Files) (path : Text) : Except FileFault Place := files.follow path

/-- The octets that an opened file holds now. -/
def contents (files : Files) (place : Place) : Except FileFault Octets :=
  match files.find? place with
  | some (.file octets) => .ok octets
  | some .directory => .error .isDirectory
  | none => .error .notFound

/-- The text of a file. -/
def readText (files : Files) (path : Text) : Except FileFault Text := do
  let place ← files.open? path
  let octets ← files.contents place
  match Text.ofUtf8? octets with
  | some text => return text
  | none => throw .notText

/-- The files with new content at a place. -/
def write (files : Files) (place : Place) (octets : Octets) : Files :=
  ⟨(place, .file octets) :: files.entries.filter fun entry => entry.1 != place⟩

/-- The place of a file to be created with a name in a directory. A name with
    points or with a slash after it is that of a directory. -/
def placeIn (files : Files) (directory : Place) (name : Text) (slash : Bool) :
    Except FileFault Place :=
  match files.find? directory with
  | none => .error .notFound
  | some (.file _) => .error .notDirectory
  | some .directory =>
    if slash || Place.stays name || name = Place.up then .error .isDirectory
    else if nameLimit < name.toUtf8.length then .error .nameTooLong
    else if files.find? (directory.next name) = some .directory then .error .isDirectory
    else .ok (directory.next name)

/-- The files after a file is created at a path, or emptied if there is one,
    and its place. All steps but the last are followed, slashes at the end
    aside; the last names the file. -/
def create? (files : Files) (path : Text) : Except FileFault (Files × Place) := do
  let steps := (Place.steps (← checked path)).reverse
  match steps.dropWhile (·.isEmpty) with
  | [] => throw .isDirectory
  | name :: before =>
    let directory ← before.reverse.foldlM files.step (Place.origin path)
    let place ← files.placeIn directory name (steps.head? = some [])
    return (files.write place [], place)

end Files

end TypedTriples
