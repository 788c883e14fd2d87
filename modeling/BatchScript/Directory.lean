import BatchScript.Text.Quoted
import BatchScript.Text.Utf8

/-!
# Directories of files

A directory is a tree of files and folders around the current folder, as a list of paths. Files are
bytes. A path is looked up from the current folder, or from the root when it starts with a slash,
one name at a time; whatever stands before a slash has to be a folder. Opening fails with a cause,
and a failed opening changes nothing.

Every file here may be read and written, and no entry is a link or a device. So the causes are those
that lie in the path and in what stands there; a refused permission, a chain of links without an
end, a disk that is full or read only, and too many open files are left out. What is written to an
open file arrives as a whole.
-/

namespace BatchScript

namespace Directory

/-- What stands at a path. -/
inductive Entry where
  | file (bytes : List UInt8)
  | folder
  deriving DecidableEq, Repr

/-- The names on the way from the current folder to an entry. Two dots at its start are folders
above the current one, and a slash at its start is the root. -/
abbrev Path := List Text

/-- The name of the folder above. -/
def above : Text :=
  ['.', '.']

/-- The name of the root. -/
def root : Text :=
  ['/']

/-- The path of the folder that holds an entry. The root holds itself. -/
def parent (path : Path) : Path :=
  match path.getLast? with
  | none => [above]
  | some last =>
    if last = above then path ++ [above] else if last = root then path else path.dropLast

/-- The path that one more name leads to. An empty name and a dot stay where they are; two dots go
one folder up. -/
def follow (path : Path) (name : Text) : Path :=
  if name = [] ∨ name = [char '.'] then path
  else if name = above then parent path
  else path ++ [name]

/-- Where the lookup of a path starts. -/
def base (path : Text) : Path :=
  if path.head? = some (char '/') then [root] else []

/-- The paths of all that a lookup passes, its goal included. -/
def approach (path : Text) : List Path :=
  let rec go (here : Path) : List Text → List Path
    | [] => []
    | name :: more => follow here name :: go (follow here name) more
  go (base path) (path.splitOn (char '/'))

/-- Why a file cannot be opened. -/
inductive Cause where
  | missing
  | notAFolder
  | isAFolder
  | nameTooLong
  | nullCharacter
  | unencodable (surrogates : Utf8.Surrogates)
  deriving DecidableEq, Repr

/-- A file that cannot be opened, by the path that was given, and why. -/
structure Fault where
  cause : Cause
  path : Text
  deriving DecidableEq, Repr

/-- The wording of a fault. -/
def Fault.message (f : Fault) : Text :=
  match f.cause with
  | .missing => "[Errno 2] No such file or directory: ".text ++ Text.quoted f.path
  | .notAFolder => "[Errno 20] Not a directory: ".text ++ Text.quoted f.path
  | .isAFolder => "[Errno 21] Is a directory: ".text ++ Text.quoted f.path
  | .nameTooLong => "[Errno 36] File name too long: ".text ++ Text.quoted f.path
  | .nullCharacter => "embedded null byte".text
  | .unencodable surrogates => surrogates.message

end Directory

/-- The entries under the current folder. -/
structure Directory where
  entries : List (Directory.Path × Directory.Entry)
  deriving DecidableEq, Repr

namespace Directory

/-- What stands at a path. The current folder, those above it and the root are always there. -/
def find? (d : Directory) (path : Path) : Option Entry :=
  if path.all fun name => name == above || name == root then some .folder
  else d.entries.lookup path

/-- The directory with a file at a path, in place of what stood there. -/
def insert (d : Directory) (path : Path) (bytes : List UInt8) : Directory :=
  if d.entries.any (·.1 == path) then
    ⟨d.entries.map fun e => if e.1 == path then (path, .file bytes) else e⟩
  else ⟨d.entries ++ [(path, .file bytes)]⟩

/-- The longest name, in bytes. -/
def longestName : Nat :=
  255

/-- The longest path, in bytes. -/
def longestPath : Nat :=
  4095

/-- How many bytes a name has in a path that can be encoded. -/
def byteCount (name : Text) : Nat :=
  ((Utf8.encodePath name).toOption.getD []).length

/-- The path that names lead to from a folder. -/
def walk (d : Directory) (here : Path) : List Text → Except Cause Path
  | [] => .ok here
  | name :: more =>
    match d.find? here with
    | none => .error .missing
    | some (.file _) => .error .notAFolder
    | some .folder =>
      if longestName < byteCount name then .error .nameTooLong
      else d.walk (follow here name) more

/-- Refuses a text that can be no path. -/
def checkText (path : Text) : Except Cause Unit :=
  match Utf8.encodePath path with
  | .error surrogates => .error (.unencodable surrogates)
  | .ok bytes =>
    if 0 ∈ bytes then .error .nullCharacter
    else if longestPath < bytes.length then .error .nameTooLong
    else .ok ()

/-- The path that a text stands for. -/
def resolve (d : Directory) (path : Text) : Except Cause Path := do
  checkText path
  d.walk (base path) (path.splitOn (char '/'))

/-- A path without the slashes at its end. -/
def withoutSlashes (path : Text) : Text :=
  (path.reverse.dropWhile (· == char '/')).reverse

/-- The path where a text lets a file be made. A slash at its end asks for a folder, which no file
can be, once the folder that would hold it is found. -/
def resolveNew (d : Directory) (path : Text) : Except Cause Path :=
  if path.getLast? = some (char '/') then do
    checkText path
    let holder ← d.walk (base path) ((withoutSlashes path).splitOn (char '/')).dropLast
    match d.find? holder with
    | none => .error .missing
    | some (.file _) => .error .notAFolder
    | some .folder => .error .isAFolder
  else d.resolve path

/-- The bytes of the file at a path. -/
def load (d : Directory) (path : Text) : Except Fault (List UInt8) :=
  match d.resolve path with
  | .error cause => .error ⟨cause, path⟩
  | .ok here =>
    match d.find? here with
    | none => .error ⟨.missing, path⟩
    | some .folder => .error ⟨.isAFolder, path⟩
    | some (.file bytes) => .ok bytes

/-- The directory with the bytes at a path. -/
def save (d : Directory) (path : Text) (bytes : List UInt8) : Except Fault Directory :=
  match d.resolveNew path with
  | .error cause => .error ⟨cause, path⟩
  | .ok here =>
    match d.find? here with
    | some .folder => .error ⟨.isAFolder, path⟩
    | _ => .ok (d.insert here bytes)

/-- The files of a directory that another one does not have, or not with the same bytes. -/
def filesBeyond (d before : Directory) : List (Path × List UInt8) :=
  d.entries.filterMap fun (path, entry) =>
    match entry with
    | .folder => none
    | .file bytes => if before.find? path = some (.file bytes) then none else some (path, bytes)

end Directory

end BatchScript
