import NodeSchema.FileTree.Path

/-!
# File trees

A file tree holds files and directories under their places, which are lists of names
from the root, and knows the directory that relative paths start from. The operations
take paths as text. They fail for the reasons for which an operating system refuses
them, and an operation that fails leaves the tree as it was.

A path is followed name by name : each name is looked up in a directory, `.` stays
there and `..` goes up. An empty name, as a slash at the end leaves one, stays there
too, but still asks for a directory. Names and paths have a greatest length, counted in
bytes.
-/

namespace NodeSchema

/-- What stands at a place of a file tree. -/
inductive Entry where
  /-- A file with its content. -/
  | file (content : ByteArray)
  /-- A directory. -/
  | directory

instance : DecidableEq Entry
  | .file a, .file b =>
    match ByteArray.decEq a b with
    | .isTrue h => .isTrue (congrArg Entry.file h)
    | .isFalse h => .isFalse fun heq => h (Entry.file.inj heq)
  | .file _, .directory => .isFalse nofun
  | .directory, .file _ => .isFalse nofun
  | .directory, .directory => .isTrue rfl

/-- Why an operation on a file tree fails. -/
inductive FileError where
  /-- There is nothing at the path. -/
  | notFound
  /-- Something is at the path already. -/
  | alreadyExists
  /-- A name is looked up in a file. -/
  | notDirectory
  /-- A directory is used as a file. -/
  | isDirectory
  /-- The path, or a name that is looked up, is too long. -/
  | nameTooLong
  /-- The content of the file is not UTF-8. -/
  | notText
deriving DecidableEq

/-- The wording of a failure. -/
def FileError.message : FileError → String
  | notFound => "No such file or directory (os error 2)"
  | alreadyExists => "File exists (os error 17)"
  | notDirectory => "Not a directory (os error 20)"
  | isDirectory => "Is a directory (os error 21)"
  | nameTooLong => "File name too long (os error 36)"
  | notText => "stream did not contain valid UTF-8"

/-- Reads content as text. -/
def decodeText (content : ByteArray) : Except FileError String :=
  match String.fromUTF8? content with
  | some text => .ok text
  | none => .error .notText

/-- Files and directories under their places, and the place that relative paths start
from. -/
structure FileTree where
  /-- The entries with their places. The root is not among them. -/
  entries : List (List String × Entry)
  /-- The place of the current directory. -/
  here : List String
deriving DecidableEq

namespace FileTree

/-- What stands at a place. -/
def find? (t : FileTree) (place : List String) : Option Entry :=
  if place.isEmpty then some .directory else t.entries.lookup place

/-- The tree with an entry at a place, instead of what stood there. -/
def put (t : FileTree) (place : List String) (entry : Entry) : FileTree :=
  { t with entries := (place, entry) :: t.entries.filter fun old => old.1 != place }

/-- Entries at one place do not matter for what stands at another. -/
theorem lookup_filter_ne {place other : List String} (h : other ≠ place)
    (entries : List (List String × Entry)) :
    (entries.filter fun old => old.1 != place).lookup other = entries.lookup other := by
  induction entries with
  | nil => rfl
  | cons old rest ih =>
    obtain ⟨name, entry⟩ := old
    by_cases hname : name = place
    · subst hname
      simp [List.lookup_cons, ih, beq_false_of_ne h]
    · simp [List.lookup_cons, ih, hname]

/-- What stands at a place after an entry was put somewhere. -/
theorem find?_put {t : FileTree} {place other : List String} {entry : Entry}
    (h : place ≠ []) :
    (t.put place entry).find? other = if other = place then some entry else t.find? other := by
  unfold find? put
  by_cases heq : other = place
  · subst heq
    simp [h]
  · simp [heq, List.lookup_cons, beq_false_of_ne heq, lookup_filter_ne heq]

/-! ## Following paths -/

/-- The greatest length of a name, in bytes. -/
def maxNameSize : Nat := 255

/-- The greatest length of a path, in bytes. -/
def maxPathSize : Nat := 4095

/-- Whether a name is too long to be looked up. -/
def isTooLong (name : String) : Bool :=
  maxNameSize < name.utf8ByteSize

/-- Follows names from a place. The place that is reached may be empty. -/
def follow (t : FileTree) (place : List String) : List String → Except FileError (List String)
  | [] => .ok place
  | name :: rest =>
    match t.find? place with
    | none => .error .notFound
    | some (.file _) => .error .notDirectory
    | some .directory =>
      if name.isEmpty || name = "." then follow t place rest
      else if name = ".." then follow t place.dropLast rest
      else if isTooLong name then .error .nameTooLong
      else follow t (place ++ [name]) rest

/-- Checks that a path can be followed at all : it is neither empty nor too long. -/
def checkPath (path : String) : Except FileError Unit :=
  if path.isEmpty then .error .notFound
  else if maxPathSize < path.utf8ByteSize then .error .nameTooLong
  else .ok ()

/-- The place from which a path is followed. -/
def origin (t : FileTree) (path : String) : List String :=
  if Path.isAbsolute path then [] else t.here

/-- The place and the entry at a path. -/
def entryAt (t : FileTree) (path : String) : Except FileError (List String × Entry) :=
  match checkPath path with
  | .error e => .error e
  | .ok () =>
    match t.follow (t.origin path) (Path.pieces path) with
    | .error e => .error e
    | .ok place =>
      match t.find? place with
      | some entry => .ok (place, entry)
      | none => .error .notFound

/-- The directory in which the last name of a path stands, and that name. A slash at the
end does not count here; a path without names has none. -/
def targetOf (t : FileTree) (path : String) : Except FileError (List String × Option String) :=
  match checkPath path with
  | .error e => .error e
  | .ok () =>
    let names := ((Path.pieces path).reverse.dropWhile String.isEmpty).reverse
    match t.follow (t.origin path) names.dropLast with
    | .error e => .error e
    | .ok place =>
      match t.find? place with
      | none => .error .notFound
      | some (.file _) => .error .notDirectory
      | some .directory => .ok (place, names.getLast?)

/-- Whether a name stands for an entry of a directory, not for the directory itself or
the one above it. -/
def isProperName (name : String) : Bool :=
  !(name.isEmpty || name = "." || name = "..")

/-- The places that are reached when names are followed from a place, if each of them
leads to a directory. -/
def trail (place : List String) : List String → List (List String)
  | [] => [place]
  | name :: rest =>
    if name.isEmpty || name = "." then trail place rest
    else if name = ".." then place :: trail place.dropLast rest
    else place :: trail (place ++ [name]) rest

/-! ## Looking -/

/-- Whether there is something at a path. -/
def hasEntry (t : FileTree) (path : String) : Bool :=
  match t.entryAt path with
  | .ok _ => true
  | .error _ => false

/-- Whether there is a directory at a path. -/
def isDirectory (t : FileTree) (path : String) : Bool :=
  match t.entryAt path with
  | .ok (_, .directory) => true
  | _ => false

/-- The names in the directory at a path, in ascending order. -/
def children (t : FileTree) (path : String) : List String :=
  match t.entryAt path with
  | .ok (place, .directory) =>
    let names := t.entries.filterMap fun entry =>
      if entry.1.dropLast = place then entry.1.getLast? else none
    names.mergeSort fun a b => decide (a ≤ b)
  | _ => []

/-- The text of the file at a path. -/
def readText (t : FileTree) (path : String) : Except FileError String :=
  match t.entryAt path with
  | .error e => .error e
  | .ok (_, .directory) => .error .isDirectory
  | .ok (_, .file content) => decodeText content

/-! ## Changing -/

/-- Makes a file with the given text at a path, or gives the file there that text. -/
def writeText (t : FileTree) (path text : String) : Except FileError FileTree :=
  match t.targetOf path with
  | .error e => .error e
  | .ok (_, none) => .error .isDirectory
  | .ok (place, some name) =>
    if !isProperName name || path.toList.getLast? = some '/' then .error .isDirectory
    else if isTooLong name then .error .nameTooLong
    else
      match t.find? (place ++ [name]) with
      | some .directory => .error .isDirectory
      | _ => .ok (t.put (place ++ [name]) (.file text.toUTF8))

/-- Makes a directory at a path. -/
def makeDirectory (t : FileTree) (path : String) : Except FileError FileTree :=
  match t.targetOf path with
  | .error e => .error e
  | .ok (_, none) => .error .alreadyExists
  | .ok (place, some name) =>
    if !isProperName name then .error .alreadyExists
    else if isTooLong name then .error .nameTooLong
    else
      match t.find? (place ++ [name]) with
      | some _ => .error .alreadyExists
      | none => .ok (t.put (place ++ [name]) .directory)

/-- Makes the first of some directories, each of which lies in the next one, and those
of the others that this needs. What has been made stays when a later step fails. -/
def makeDirectories (t : FileTree) : List String → FileTree × Except FileError Unit
  | [] => (t, .ok ())
  | path :: rest =>
    match t.makeDirectory path with
    | .ok made => (made, .ok ())
    | .error .notFound =>
      match makeDirectories t rest with
      | (above, .error e) => (above, .error e)
      | (above, .ok ()) =>
        match above.makeDirectory path with
        | .ok made => (made, .ok ())
        | .error e => (above, if above.isDirectory path then .ok () else .error e)
    | .error e => (t, if t.isDirectory path then .ok () else .error e)

/-! ## Building and comparing trees -/

/-- The tree with nothing but the current directory and those above it. -/
def empty (here : List String) : FileTree :=
  { entries := (List.range here.length).map fun n => (here.take (n + 1), .directory), here }

/-- The entries of a tree that another tree does not have, or has with another content. -/
def changes (before after : FileTree) : List (List String × Entry) :=
  after.entries.filter fun entry => before.find? entry.1 != some entry.2

end FileTree

end NodeSchema
