/-!
# File systems

A directory holds files and further directories by name. A name with slashes in it leads from a
directory along its parts: an empty part and a dot stay where they are, two dots lead to the
directory above, and any other part to the entry of that name. No part leads on from a regular
file, not even an empty one behind a final slash.

A name that begins with a slash is followed from the root of the system, and any other name from
the directory that the program works in. From the root nothing leads further up.

A part of a name may have 255 octets and a whole name 4095. These limits hold whether or not there
is anything of that name.
-/

namespace LineSieve

/-- A regular file or a directory. -/
inductive FileTree
  | file (content : List UInt8)
  | directory (entries : List (String × FileTree))

/-- What a program finds around it. -/
structure FileSystem where
  /-- The entries of the directory that a leading slash stands for. -/
  root : List (String × FileTree)
  /-- The way from there to the directory that the program works in. If it leads nowhere, so do the
      names that go on from there. -/
  workingDirectory : List String

/-! ## Errors -/

/-- Why a file cannot be used. -/
structure SystemError where
  description : String
  /-- The number that the operating system has for it, if it was asked at all. -/
  code : Option Nat
  deriving DecidableEq

namespace SystemError

/-- There is nothing of that name. -/
def notFound : SystemError := ⟨"No such file or directory", some 2⟩

/-- Something that should lead further is a regular file. -/
def notADirectory : SystemError := ⟨"Not a directory", some 20⟩

/-- A directory has no content of its own. -/
def isADirectory : SystemError := ⟨"Is a directory", some 21⟩

/-- The name, or a part of it, has more octets than the system allows. -/
def nameTooLong : SystemError := ⟨"File name too long", some 36⟩

/-- The name holds the character that ends names in the system's own form. -/
def nulInName : SystemError := ⟨"file name contained an unexpected NUL byte", none⟩

/-- The error in words, with its number. -/
def message (e : SystemError) : String :=
  match e.code with
  | some code => s!"{e.description} (os error {code})"
  | none => e.description

end SystemError

/-! ## Following a name -/

/-- The most octets that a part of a name may have. -/
def FileTree.maxPart : Nat := 255

/-- Follows the parts of a name from `here` on. The directories above are given too, the nearest
    first; where there is none, two dots stay where they are. -/
def FileTree.walk : List String → List FileTree → FileTree → Except SystemError FileTree
  | [], _, here => .ok here
  | _ :: _, _, .file _ => .error .notADirectory
  | part :: path, above, .directory entries =>
      if part = "" ∨ part = "." then walk path above (.directory entries)
      else if part = ".." then walk path above.tail (above.headD (.directory entries))
      else if maxPart < part.utf8ByteSize then .error .nameTooLong
      else
        match entries.lookup part with
        | none => .error .notFound
        | some there => walk path (.directory entries :: above) there

namespace FileSystem

/-- The parts of a name, between its slashes. -/
def parts (name : String) : List String :=
  (name.toList.splitOn '/').map String.ofList

/-- The most octets that a name may have. -/
def maxName : Nat := 4095

/-- What a name leads to. An empty one leads nowhere. -/
def find (system : FileSystem) (name : String) : Except SystemError FileTree :=
  if '\x00' ∈ name.toList then .error .nulInName
  else if maxName < name.utf8ByteSize then .error .nameTooLong
  else
    match parts name with
    | [""] => .error .notFound
    | "" :: path => FileTree.walk path [] (.directory system.root)
    | path => FileTree.walk (system.workingDirectory ++ path) [] (.directory system.root)

end FileSystem

end LineSieve
