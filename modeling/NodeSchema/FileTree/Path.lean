/-!
# Paths as text

A path is a text with `/` between its pieces. Messages show a path as it was written,
so the functions here cut and extend the text and never rewrite it.
-/

namespace NodeSchema.Path

/-- The pieces of a path between its slashes, empty ones included. -/
def pieces (path : String) : List String :=
  (path.toList.splitOn '/').map String.ofList

/-- Whether the path starts at the root of the file tree. -/
def isAbsolute (path : String) : Bool :=
  path.toList.head? = some '/'

/-- The path of `name` in the directory `path`. -/
def join (path name : String) : String :=
  if path.toList.getLast? = some '/' then path ++ name else path ++ "/" ++ name

/-- Whether the path names the directory that it is followed from : a `.`, and after it
nothing but slashes and further `.`. -/
def isCurrent (path : String) : Bool :=
  match pieces path with
  | [] => false
  | first :: rest => first = "." && rest.all fun piece => piece.isEmpty || piece = "."

/-! ## The directories above a path -/

/-- The prefixes of a path that end with one of its components, from the shortest on,
given the text before the first piece. Empty pieces are no components, and a `.` is one
only at the start of a relative path; a leading slash is the root's component. -/
def prefixesFrom (before : List Char) : List (List Char) → List (List Char)
  | [] => []
  | piece :: rest =>
    let whole := before ++ piece
    let here :=
      if piece.isEmpty then if before.isEmpty && !rest.isEmpty then [['/']] else []
      else if piece = ['.'] && !before.isEmpty then []
      else [whole]
    here ++ prefixesFrom (whole ++ ['/']) rest

/-- The directories that a path lies in, from the closest on, as far as the path names
them. -/
def parents (path : String) : List String :=
  ((prefixesFrom [] (path.toList.splitOn '/')).dropLast.reverse).map String.ofList

/-! ## File names -/

/-- The text before the last piece of a path, and the last piece. -/
def splitName (path : String) : List Char × List Char :=
  let text := path.toList.reverse
  ((text.dropWhile (· != '/')).reverse, (text.takeWhile (· != '/')).reverse)

/-- A file name without its extension : the text before the last dot, or the whole name
if it has no dot past its first character. -/
def stemOfName (name : List Char) : List Char :=
  let before := (name.reverse.dropWhile (· != '.')).drop 1
  if name = ['.', '.'] || before.isEmpty then name else before.reverse

/-- The file name at the end of a path, without its extension. -/
def stem (path : String) : String :=
  String.ofList (stemOfName (splitName path).2)

/-- The path with another extension for its file name. The old extension is first taken
off up to its dot. If this leaves `.` or `..`, which are no names of files, then nothing
is put on. -/
def withExtension (path extension : String) : String :=
  let (directory, name) := splitName path
  let stem := stemOfName name
  let dotted := if stem = name then name else stem ++ ['.']
  if dotted = ['.'] || dotted = ['.', '.'] then String.ofList (directory ++ dotted)
  else String.ofList (directory ++ stem) ++ "." ++ extension

end NodeSchema.Path
