import NodeSchema.FileTree

/-!
# Path patterns

A pattern is a path in which `?` stands for any character, `*` for any characters,
`[...]` for one of some characters and `[!...]` for one of all others. A component `**`
stands for any number of directories.

`FileTree.matching` lists the paths of a file tree that a pattern matches. Directories
are gone through in the order of the names in them, and what is found below a directory
comes before what follows that directory. A component without special characters is not
looked for in its directory but taken as it stands, so it appears in the paths found as
it does in the pattern; only a `.` at the start of the pattern is left out.
-/

namespace NodeSchema

/-- One character or a range of characters inside brackets. -/
structure CharRange where
  /-- The first character of the range. -/
  first : Char
  /-- The last character of the range. -/
  last : Char

/-- One part of a pattern. -/
inductive PatternPart where
  /-- The character itself. -/
  | literal (c : Char)
  /-- Any one character. -/
  | anyChar
  /-- Any characters. -/
  | anyText
  /-- Any directories. -/
  | anyDepth
  /-- One character that is in one of the ranges, or in none of them. -/
  | oneOf (ranges : List CharRange) (inverted : Bool)

/-- The parts of a pattern. -/
abbrev Pattern := List PatternPart

/-- What is wrong with a pattern. -/
inductive PatternProblem where
  /-- Three stars or more. -/
  | stars
  /-- Two stars that are not a component of their own. -/
  | partialDepth
  /-- A bracket that is not closed, or with nothing inside. -/
  | range
deriving DecidableEq

/-- A fault of a pattern, with the number of characters before it. -/
structure PatternFault where
  /-- What is wrong. -/
  problem : PatternProblem
  /-- The number of characters before the place that is reported. -/
  position : Nat
deriving DecidableEq

/-- The wording of a fault. -/
def PatternFault.message (fault : PatternFault) : String :=
  "Pattern syntax error near position " ++ toString fault.position ++ ": "
    ++ match fault.problem with
      | .stars => "wildcards are either regular `*` or recursive `**`"
      | .partialDepth => "recursive wildcards must form a single path component"
      | .range => "invalid range pattern"

namespace Pattern

/-! ## Reading patterns -/

/-- The ranges between two brackets. -/
def ranges : List Char → List CharRange
  | first :: '-' :: last :: rest => ⟨first, last⟩ :: ranges rest
  | c :: rest => ⟨c, c⟩ :: ranges rest
  | [] => []

/-- Reads the text after an opening bracket. The first character inside the brackets
never closes them. -/
def readRange (s : List Char) : Option (PatternPart × List Char) :=
  let (inverted, inside) := match s with
    | '!' :: rest => (true, rest)
    | _ => (false, s)
  match inside with
  | [] => none
  | first :: rest =>
    if rest.contains ']' then
      some (.oneOf (ranges (first :: rest.takeWhile (· != ']'))) inverted,
        (rest.dropWhile (· != ']')).drop 1)
    else none

theorem length_of_readRange {s rest : List Char} {part : PatternPart}
    (h : readRange s = some (part, rest)) : rest.length < s.length := by
  have key : ∀ (c : Char) (t : List Char), ((t.dropWhile (· != ']')).drop 1).length
      < (c :: t).length := fun c t => by
    have := (List.dropWhile_sublist (l := t) (· != ']')).length_le
    simp only [List.length_drop, List.length_cons]
    omega
  unfold readRange at h
  split at h
  next inverted inside heq =>
  have hle : inside.length ≤ s.length := by
    split at heq <;> cases heq <;> simp
  split at h
  · cases h
  · next first after =>
    split at h
    · cases h
      exact Nat.lt_of_lt_of_le (key first after) hle
    · cases h

/-- Reads a pattern, of which `position` characters have been read and the last of them,
if there is one, was `before`. -/
def readFrom (position : Nat) (before : Option Char) (s : List Char) :
    Except PatternFault Pattern :=
  match s with
  | [] => .ok []
  | '*' :: '*' :: '*' :: _ => .error ⟨.stars, position + 2⟩
  | '*' :: '*' :: rest =>
    if before.all (· = '/') then
      match rest with
      | [] => .ok [.anyDepth]
      | '/' :: more =>
        match readFrom (position + 3) (some '/') more with
        | .error fault => .error fault
        | .ok parts => .ok (.anyDepth :: parts)
      | _ => .error ⟨.partialDepth, position + 2⟩
    else .error ⟨.partialDepth, position - 1⟩
  | '[' :: rest =>
    match _range : readRange rest with
    | none => .error ⟨.range, position⟩
    | some (part, more) =>
      match readFrom (position + 1 + (rest.length - more.length)) (some ']') more with
      | .error fault => .error fault
      | .ok parts => .ok (part :: parts)
  | c :: rest =>
    let part := if c = '?' then .anyChar else if c = '*' then .anyText else .literal c
    match readFrom (position + 1) (some c) rest with
    | .error fault => .error fault
    | .ok parts => .ok (part :: parts)
termination_by s.length
decreasing_by
  · simp only [List.length_cons]
    omega
  · have := length_of_readRange ‹_›
    simp only [List.length_cons]
    omega
  · simp

/-- Reads a pattern. -/
def read (s : List Char) : Except PatternFault Pattern :=
  readFrom 0 none s

/-- The directory that a pattern names before its first special character. -/
def start (pattern : String) : String :=
  let plain := pattern.toList.takeWhile fun c => !(c = '?' || c = '*' || c = '[')
  if plain.length = pattern.length then pattern
  else
    let directory := (Path.splitName (String.ofList plain)).1
    if directory.isEmpty then "." else String.ofList directory

/-! ## Matching names -/

/-- Whether a character is in one of the ranges. -/
def inRanges (ranges : List CharRange) (c : Char) : Bool :=
  ranges.any fun range => range.first ≤ c && c ≤ range.last

/-- Whether the part, which stands for one character, stands for this one. -/
def matchesChar (part : PatternPart) (c : Char) : Bool :=
  match part with
  | .literal expected => c = expected
  | .anyChar => true
  | .oneOf ranges inverted => inRanges ranges c != inverted
  | .anyText => false
  | .anyDepth => false

/-- For each tail of a name, from the whole of it to the empty one, whether it is empty. -/
def emptyTails : List Char → List Bool
  | [] => [true]
  | _ :: rest => false :: emptyTails rest

/-- For each entry of a list, whether it or a later one is true. -/
def anyFrom : List Bool → List Bool
  | [] => []
  | b :: rest => (b || rest.contains true) :: anyFrom rest

/-- For each tail of a name, whether the part stands for its first character and what
follows is accepted, given which tails are. -/
def afterOne (part : PatternPart) : List Char → List Bool → List Bool
  | c :: rest, _ :: later => (matchesChar part c && later.headD false) :: afterOne part rest later
  | _, _ => [false]

/-- For each tail of a name, from the whole of it to the empty one, whether a pattern
matches it. -/
def matchesTails (name : List Char) : Pattern → List Bool
  | [] => emptyTails name
  | .anyText :: parts => anyFrom (matchesTails name parts)
  | .anyDepth :: parts => anyFrom (matchesTails name parts)
  | part :: parts => afterOne part name (matchesTails name parts)

/-- Whether a pattern matches a name. -/
def matchesName (pattern : Pattern) (name : List Char) : Bool :=
  (matchesTails name pattern).headD false

/-- What is said of the tails of a name begins with the name itself and goes on with what
is said of the tails of its own tail. -/
theorem matchesTails_cons (c : Char) (rest : List Char) (pattern : Pattern) :
    matchesTails (c :: rest) pattern
      = matchesName pattern (c :: rest) :: matchesTails rest pattern := by
  induction pattern with
  | nil => rfl
  | cons part parts ih =>
    cases part <;> simp only [matchesName, matchesTails] <;> rw [ih] <;> rfl

theorem matchesTails_nil (pattern : Pattern) :
    matchesTails [] pattern = [matchesName pattern []] := by
  induction pattern with
  | nil => rfl
  | cons part parts ih =>
    cases part <;> simp only [matchesName, matchesTails] <;> rw [ih] <;> simp [anyFrom, afterOne]

theorem matchesName_nil (name : List Char) : matchesName [] name = name.isEmpty := by
  cases name <;> rfl

/-- Any other part than a star takes the first character of the name. -/
theorem matchesName_cons {part : PatternPart} (htext : part ≠ .anyText) (hdepth : part ≠ .anyDepth)
    (parts : Pattern) (c : Char) (rest : List Char) :
    matchesName (part :: parts) (c :: rest) = (matchesChar part c && matchesName parts rest) := by
  rw [matchesName, matchesTails, matchesTails_cons]
  · rfl
  · exact htext
  · exact hdepth

/-- A star takes any characters, and what it leaves has to match the parts after it. -/
theorem matchesName_anyText {parts : Pattern} {name : List Char} :
    matchesName (.anyText :: parts) name = true ↔
      ∃ tail, tail <:+ name ∧ matchesName parts tail = true := by
  have key : (matchesTails name parts).contains true = true ↔
      ∃ tail, tail <:+ name ∧ matchesName parts tail = true := by
    induction name with
    | nil => simp [matchesTails_nil]
    | cons c rest ih =>
      rw [matchesTails_cons, List.contains_cons, Bool.or_eq_true, ih]
      constructor
      · rintro (h | ⟨tail, htail, hmatch⟩)
        · exact ⟨c :: rest, List.suffix_refl _, by simpa using h⟩
        · exact ⟨tail, htail.trans (List.suffix_cons c rest), hmatch⟩
      · rintro ⟨tail, htail, hmatch⟩
        rcases List.suffix_cons_iff.mp htail with rfl | h
        · simp [hmatch]
        · exact Or.inr ⟨tail, h, hmatch⟩
  rw [← key, matchesName, matchesTails]
  cases matchesTails name parts <;> simp [anyFrom]

/-- The names `..` and `.`, if the pattern matches them and itself starts with a dot. -/
def specialNames (pattern : Pattern) : List String :=
  match pattern with
  | .literal '.' :: _ => ["..", "."].filter fun name : String => pattern.matchesName name.toList
  | _ => []

/-- The text of a pattern without special characters. -/
def literal? : Pattern → Option (List Char)
  | [] => some []
  | .literal c :: parts => (literal? parts).map (c :: ·)
  | _ :: _ => none

/-- Whether the pattern is a component `**`. -/
def isAnyDepth (pattern : Pattern) : Bool :=
  pattern.any fun
    | .anyDepth => true
    | _ => false

end Pattern

/-! ## Finding paths -/

namespace FileTree

/-- The path of a name in the directory at a path, which is left out if it is the current
one. -/
def below (path name : String) : String :=
  if Path.isCurrent path then name else Path.join path name

/-- The number of names that lead to the deepest entry. -/
def depth (t : FileTree) : Nat :=
  t.entries.foldl (fun deepest entry => max deepest entry.1.length) 0

/-- Goes through everything below the directory at a path, each entry before what it
holds, to the given depth. -/
def descend (t : FileTree) (visit : String → String → List String) :
    Nat → String → List String
  | 0, _ => []
  | depth + 1, path =>
    (t.children path).flatMap fun name =>
      visit (below path name) name ++ descend t visit depth (below path name)

/-- The paths that match the given components below a path. -/
def expand (t : FileTree) : List Pattern → String → List String
  | [], path => [path]
  | pattern :: rest, path =>
    if pattern.isAnyDepth then
      match rest with
      | [] =>
        t.descend (fun found _ => if t.isDirectory found then [found] else []) t.depth path
      | next :: others =>
        if next.isAnyDepth then expand t (next :: others) path
        else
          t.descend
            (fun found name =>
              if next.matchesName name.toList then expand t others found else [])
            t.depth path
    else
      match pattern.literal? with
      | some text =>
        let name := String.ofList text
        let found := below path name
        if name = "." || name = ".." then
          if t.isDirectory path then expand t rest found else []
        else if t.hasEntry found then expand t rest found
        else []
      | none =>
        if t.isDirectory path then
          pattern.specialNames.flatMap (fun name => expand t rest (Path.join path name))
            ++ ((t.children path).filter fun name => pattern.matchesName name.toList).flatMap
                fun name => expand t rest (below path name)
        else []

/-- The components of a pattern between its slashes, without those before its first name. -/
def components (pattern : List Char) : List (List Char) :=
  let pieces := (pattern.dropWhile (· = '/')).splitOn '/'
  if pieces.getLast? = some [] then pieces.dropLast else pieces

/-- The paths that match a pattern. A pattern is read as a whole before its components
are, so a fault is placed in the whole pattern if it shows there. -/
def matching (t : FileTree) (pattern : String) : Except PatternFault (List String) :=
  let text := pattern.toList
  match Pattern.read text with
  | .error fault => .error fault
  | .ok _ =>
    match (components text).mapM Pattern.read with
    | .error fault => .error fault
    | .ok patterns => .ok (t.expand patterns (if Path.isAbsolute pattern then "/" else "."))

end FileTree

end NodeSchema
