namespace EtherCalc.Shell

/-!
A working directory with the texts of its files, and what of the system around it the command
line can meet.  `Directory.read` follows a path name by name, as the system does.
-/

inductive ReadFault where
  | missing
  | notDirectory
  | isDirectory
  | nameTooLong
  /-- A reason that the system words. -/
  | other (reason : String)
deriving DecidableEq, Repr

def ReadFault.message : ReadFault → String
  | .missing => "No such file or directory (os error 2)"
  | .notDirectory => "Not a directory (os error 20)"
  | .isDirectory => "Is a directory (os error 21)"
  | .nameTooLong => "File name too long (os error 36)"
  | .other reason => reason

/-- Where the text of a file comes from. -/
inductive FileText where
  | text (text : String)
  /-- What is typed and not read yet. -/
  | typed
deriving DecidableEq, Repr

/-- A place in the system: the names on the way to it from the root. -/
abbrev Place : Type := List String

inductive Entry where
  | directory
  | file (text : FileText)
deriving DecidableEq, Repr

/-- The files of the working directory by their names. -/
structure Directory where
  files : List (String × String)

namespace Directory

/-- The working directory, which is one for temporary files.  No path spells its name. -/
def home : Place := ["tmp", ""]

def systemDirectories : List Place :=
  [[], ["bin"], ["boot"], ["dev"], ["dev", "fd"], ["etc"], ["home"], ["lib"], ["media"], ["mnt"],
    ["opt"], ["proc"], ["root"], ["run"], ["sbin"], ["srv"], ["sys"], ["tmp"], ["usr"],
    ["usr", "bin"], ["usr", "lib"], ["usr", "local"], ["usr", "share"], ["var"], ["var", "tmp"]]

/-- Files that a system has: one that is always empty, names for what is typed, and tables of
users and hosts. -/
def systemFiles : List (Place × FileText) :=
  [(["dev", "null"], .text ""), (["dev", "stdin"], .typed), (["dev", "fd", "0"], .typed),
    (["etc", "passwd"], .text "root:x:0:0:root:/root:/bin/sh\n"),
    (["etc", "hosts"], .text "127.0.0.1\tlocalhost\n")]

def entry? (directory : Directory) (place : Place) : Option Entry :=
  if place = home ∨ place ∈ systemDirectories then some .directory
  else
    match systemFiles.lookup place with
    | some text => some (.file text)
    | none =>
        (directory.files.find? fun file => home ++ [file.1] == place).map fun file =>
          .file (.text file.2)

/-- The greatest number of bytes in a name. -/
def nameLimit : Nat := 255

/-- The number of bytes that no path reaches. -/
def pathLimit : Nat := 4096

/-- Follows one name of a path. -/
def enter (directory : Directory) (place : Place) (name : String) : Except ReadFault Place :=
  match directory.entry? place with
  | some .directory =>
      if name = "" ∨ name = "." then .ok place
      else if name = ".." then .ok place.dropLast
      else if nameLimit < name.utf8ByteSize then .error .nameTooLong
      else if (directory.entry? (place ++ [name])).isSome then .ok (place ++ [name])
      else .error .missing
  | _ => .error .notDirectory

/-- The place that a path leads to, from the root if the path begins with a slash. -/
def find (directory : Directory) (path : String) : Except ReadFault Place :=
  if pathLimit ≤ path.utf8ByteSize then .error .nameTooLong
  else (path.splitOn "/").foldlM directory.enter (if path.startsWith "/" then [] else home)

def read (directory : Directory) (path : String) : Except ReadFault FileText :=
  match directory.find path with
  | .error fault => .error fault
  | .ok place =>
      match directory.entry? place with
      | some (.file text) => .ok text
      | some .directory => .error .isDirectory
      | none => .error .missing

end Directory

end EtherCalc.Shell
