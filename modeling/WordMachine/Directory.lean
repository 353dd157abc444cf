/-! # Files by path

A directory holds files and no further directory. A path is walked from the directory that
it starts in, one part after the other, and the first part that cannot be entered is the
fault of the whole path.
-/

namespace WordMachine

/-- Why a path gives no text. -/
inductive FileFault where
  | missing
  | denied
  | notDirectory
  | isDirectory
  | nameTooLong
  | notText
  | other (reason : String)

/-- The text of a file fault. -/
def FileFault.message : FileFault → String
  | .missing => "No such file or directory (os error 2)"
  | .denied => "Permission denied (os error 13)"
  | .notDirectory => "Not a directory (os error 20)"
  | .isDirectory => "Is a directory (os error 21)"
  | .nameTooLong => "File name too long (os error 36)"
  | .notText => "stream did not contain valid UTF-8"
  | .other reason => reason

/-- The text that the bytes of a file hold. -/
def fileText (bytes : ByteArray) : Except FileFault String :=
  match String.fromUTF8? bytes with
  | some text => .ok text
  | none => .error .notText

/-- A directory: the bytes of its files by name. -/
structure Directory where
  files : List (String × ByteArray)

namespace Directory

/-- Where a walk along a path stands: in the directory, in some other directory, whose
files are out of reach, or at a file. -/
inductive Place where
  | here
  | elsewhere
  | file (bytes : ByteArray)

/-- The most bytes that one part of a path may have. -/
def nameLimit : Nat := 255

/-- The most bytes that a path may have. -/
def pathLimit : Nat := 4095

/-- The file of a name. -/
def find (d : Directory) (place : Place) (name : String) : Except FileFault Place :=
  match place, d.files.lookup name with
  | .here, some bytes => .ok (.file bytes)
  | _, _ => .error .missing

/-- One step of a walk. An empty part and a dot stay, two dots leave the directory, and
nothing lies below a file. -/
def step (d : Directory) (place : Place) (part : String) : Except FileFault Place :=
  match place with
  | .file _ => .error .notDirectory
  | _ =>
    if part = "" ∨ part = "." then .ok place
    else if part = ".." then .ok .elsewhere
    else if nameLimit < part.utf8ByteSize then .error .nameTooLong
    else d.find place part

/-- The walk along the parts of a path. -/
def walk (d : Directory) (place : Place) (parts : List String) : Except FileFault Place :=
  parts.foldlM d.step place

/-- The place that a path leads to. A path that starts with a slash starts at the root. -/
def resolve (d : Directory) (path : String) : Except FileFault Place :=
  if path = "" then .error .missing
  else if pathLimit < path.utf8ByteSize then .error .nameTooLong
  else d.walk (if path.startsWith "/" then .elsewhere else .here) (path.splitOn "/")

/-- The text of the file that a path leads to. -/
def read (d : Directory) (path : String) : Except FileFault String := do
  match ← d.resolve path with
  | .file bytes => fileText bytes
  | _ => .error .isDirectory

end Directory

end WordMachine
