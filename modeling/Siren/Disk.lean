import Siren.Text

/-!
# Files

`Disk` is a directory tree held in memory, seen from its working directory.
Reading and writing resolve a path name by name and fail like the files of an
operating system.
-/

namespace Siren

/-- Why a file cannot be used. -/
inductive FileProblem where
  | notFound
  | isDirectory
  | notDirectory
  | nameTooLong
  | invalidPath
  | denied
  deriving DecidableEq, Repr

/-- A problem in words. -/
def FileProblem.text : FileProblem → Text
  | .notFound => "no such file or directory"
  | .isDirectory => "is a directory"
  | .notDirectory => "not a directory"
  | .nameTooLong => "file name too long"
  | .invalidPath => "invalid argument"
  | .denied => "permission denied"

/-- What was tried on a file. -/
inductive FileAction where
  | opening
  | reading
  deriving DecidableEq, Repr

/-- An action in words. -/
def FileAction.text : FileAction → Text
  | .opening => "open"
  | .reading => "read"

/-- A failed action on a file. -/
structure FileError where
  action : FileAction
  path : Text
  problem : FileProblem
  deriving DecidableEq, Repr

namespace FileError

/-- The message of a failed action. -/
def message (error : FileError) : Text :=
  error.action.text ++ " " ++ error.path ++ ": " ++ error.problem.text

/-- Whether the file does not exist. -/
def isNotFound (error : FileError) : Bool :=
  error.problem = .notFound

end FileError

namespace Path

/-- The byte that separates the names of a path. -/
def separator : UInt8 := 47

/-- The names of a path, with an empty one where separators meet. -/
def names : Text → List Text
  | [] => [[]]
  | byte :: rest =>
    if byte = separator then
      [] :: names rest
    else
      match names rest with
      | [] => [[byte]]
      | name :: more => (byte :: name) :: more

/-- Whether a path starts at the root. -/
def isAbsolute (path : Text) : Bool :=
  path.head? = some separator

/-- The name of a directory in itself. -/
def here : Text := "."

/-- The name of the directory above. -/
def above : Text := ".."

/-- Adds a name to the names of a cleaned path, the last one first. -/
def add (absolute : Bool) (cleaned : List Text) (name : Text) : List Text :=
  if name = [] || name = here then
    cleaned
  else if name = above then
    match cleaned with
    | [] => if absolute then [] else [above]
    | last :: rest => if last = above then above :: cleaned else rest
  else
    name :: cleaned

/-- The shortest path that names the same file when no name is a link. -/
def clean (path : Text) : Text :=
  let absolute := isAbsolute path
  let cleaned := ((names path).foldl (add absolute) []).reverse
  let joined := Text.join [separator] cleaned
  if absolute then separator :: joined else if joined = [] then here else joined

/-- The most bytes a name may have. -/
def nameLimit : Nat := 255

/-- The number of bytes from which on a path is too long. -/
def limit : Nat := 4096

/-- Whether a path ends in a separator. -/
def endsInSeparator (path : Text) : Bool :=
  path.getLast? = some separator

/-- The names of the directory that a path with separators at its end lies
in, which is named by itself. -/
def parentNames (path : Text) : List Text :=
  ((names path).reverse.dropWhile (· = [])).tail.reverse ++ [here]

/-- The cleaned path of a name in a directory. -/
def join (directory name : Text) : Text :=
  clean (directory ++ [separator] ++ name)

end Path

/-- Directories and files by their names from the working directory on. -/
structure Disk where
  directories : List (List Text)
  files : List (List Text × Text)

namespace Disk

/-- Where a path leads. -/
inductive Place where
  /-- A place below the working directory, by its names. -/
  | inside (names : List Text)
  /-- A directory that is not below the working directory. -/
  | outside
  deriving DecidableEq, Repr

/-- A disk with only its working directory. -/
def empty : Disk := ⟨[[]], []⟩

/-- The directories on the way to a file, by its names. -/
def parents : List Text → List (List Text)
  | [] => []
  | name :: names => [] :: (parents names).map (name :: ·)

/-- The disk with a directory at its names and those above it. -/
def makeDirectory (disk : Disk) (names : List Text) : Disk :=
  { disk with directories := names :: parents names ++ disk.directories }

/-- The contents of a file by its names. -/
def file? (disk : Disk) (names : List Text) : Option Text :=
  (disk.files.find? (·.1 = names)).map (·.2)

/-- Follows names from a place. -/
def follow (disk : Disk) : Place → List Text → Except FileProblem Place
  | place, [] => .ok place
  | .outside, name :: rest =>
    if name = [] || name = Path.here || name = Path.above then
      disk.follow .outside rest
    else if Path.nameLimit < name.length then
      .error .nameTooLong
    else
      .error .notFound
  | .inside names, name :: rest =>
    if names ∈ disk.directories then
      if name = [] || name = Path.here then
        disk.follow (.inside names) rest
      else if name = Path.above then
        disk.follow (if names = [] then .outside else .inside names.dropLast) rest
      else if Path.nameLimit < name.length then
        .error .nameTooLong
      else
        disk.follow (.inside (names ++ [name])) rest
    else if (disk.file? names).isSome then
      .error .notDirectory
    else
      .error .notFound

/-- Where names lead from the start of a path. -/
def locateNames (disk : Disk) (path : Text) (names : List Text) : Except FileProblem Place :=
  if 0 ∈ path then
    .error .invalidPath
  else if path = [] then
    .error .notFound
  else if Path.limit ≤ path.length then
    .error .nameTooLong
  else
    disk.follow (if Path.isAbsolute path then .outside else .inside []) names

/-- Where a path leads. -/
def locate (disk : Disk) (path : Text) : Except FileProblem Place :=
  disk.locateNames path (Path.names path)

/-- Where a path to write to leads.  One that ends in a separator stands for a
directory, whether there is one or not. -/
def locateTarget (disk : Disk) (path : Text) : Except FileProblem Place :=
  if Path.endsInSeparator path then
    (disk.locateNames path (Path.parentNames path)).bind fun _ => .error .isDirectory
  else
    disk.locate path

/-- The contents of the file at a path. -/
def read (disk : Disk) (path : Text) : Except FileError Text :=
  match disk.locate path with
  | .error problem => .error ⟨.opening, path, problem⟩
  | .ok .outside => .error ⟨.reading, path, .isDirectory⟩
  | .ok (.inside names) =>
    if names ∈ disk.directories then
      .error ⟨.reading, path, .isDirectory⟩
    else
      match disk.file? names with
      | some contents => .ok contents
      | none => .error ⟨.opening, path, .notFound⟩

/-- The disk with a file at its names and the directories above it. -/
def put (disk : Disk) (names : List Text) (contents : Text) : Disk where
  directories := disk.directories ++ parents names
  files := (names, contents) :: disk.files.filter (·.1 ≠ names)

/-- Writes the file at a path, whose directory must exist. -/
def write (disk : Disk) (path contents : Text) : Except FileError Disk :=
  match disk.locateTarget path with
  | .error problem => .error ⟨.opening, path, problem⟩
  | .ok .outside => .error ⟨.opening, path, .isDirectory⟩
  | .ok (.inside names) =>
    if names ∈ disk.directories then
      .error ⟨.opening, path, .isDirectory⟩
    else if names.dropLast ∈ disk.directories then
      .ok (disk.put names contents)
    else
      .error ⟨.opening, path, .notFound⟩

end Disk
end Siren
