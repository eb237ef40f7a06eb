import NodeSchema.Proofs.PathsBelow

/-!
# Files beside each other

A path with another last piece (`Path.renamed`) leads into the same directory. So once it is known
where a path lies (`FileTree.LiesIn`), what is found at such a path and what is written there is
told by the entry at one place (`LiesIn.entryAt_renamed`, `LiesIn.writeText_renamed`).

The files of a fixture lie beside each other in this way : the path of a schema file, with another
extension, is that path with another last piece (`Path.withExtension_eq_renamed`).
-/

namespace NodeSchema

namespace Path

/-! ## Last pieces -/

/-- The path with another last piece. -/
def renamed (path : String) (name : List Char) : String :=
  String.ofList ((splitName path).1 ++ name)

theorem splitName_append (path : String) :
    (splitName path).1 ++ (splitName path).2 = path.toList := by
  rw [splitName, ← List.reverse_append, List.takeWhile_append_dropWhile, List.reverse_reverse]

theorem not_mem_splitName (path : String) : '/' ∉ (splitName path).2 := by
  intro h
  have := List.mem_takeWhile_imp (List.mem_reverse.mp h)
  simp at this

/-- The text before the last piece is empty or ends with a slash. -/
theorem splitName_fst (path : String) :
    (splitName path).1 = [] ∨ ∃ above, (splitName path).1 = above ++ ['/'] := by
  have hstart : (splitName path).1 = (path.toList.reverse.dropWhile (· != '/')).reverse := rfl
  cases hdrop : path.toList.reverse.dropWhile (· != '/') with
  | nil => exact .inl (by rw [hstart, hdrop, List.reverse_nil])
  | cons c rest =>
    have hc : c = '/' := by
      have hne : path.toList.reverse.dropWhile (· != '/') ≠ [] := by simp [hdrop]
      simpa [hdrop] using List.head_dropWhile_not (· != '/') hne
    exact .inr ⟨rest.reverse, by rw [hstart, hdrop, hc, List.reverse_cons]⟩

theorem renamed_self (path : String) : renamed path (splitName path).2 = path := by
  rw [renamed, splitName_append, String.ofList_toList]

theorem renamed_eq_append (path : String) (name : List Char) :
    renamed path name = String.ofList (splitName path).1 ++ String.ofList name :=
  String.ofList_append

/-- Only the last piece is another one. -/
theorem pieces_renamed (path : String) {name : List Char} (hname : '/' ∉ name) :
    pieces (renamed path name) = (pieces path).dropLast ++ [String.ofList name] := by
  have hself := renamed_self path
  have hlast := not_mem_splitName path
  rcases splitName_fst path with hstart | ⟨above, hstart⟩
  · rw [renamed, hstart, List.nil_append] at hself ⊢
    rw [← hself]
    simp [pieces, List.splitOn_eq_singleton hname, List.splitOn_eq_singleton hlast]
  · rw [renamed, hstart, List.append_assoc, List.singleton_append] at hself ⊢
    rw [← hself]
    simp [pieces, List.splitOn_append_cons_self, List.splitOn_eq_singleton hname,
      List.splitOn_eq_singleton hlast]

theorem pieces_eq_dropLast_append (path : String) :
    pieces path = (pieces path).dropLast ++ [String.ofList (splitName path).2] := by
  have := pieces_renamed path (not_mem_splitName path)
  rwa [renamed_self] at this

theorem isAbsolute_renamed (path : String) {name : List Char} (hname : '/' ∉ name) :
    isAbsolute (renamed path name) = isAbsolute path := by
  have hself := renamed_self path
  have hlast := not_mem_splitName path
  have hnone {text : List Char} (h : '/' ∉ text) : text.head? ≠ some '/' :=
    fun hhead => h (List.mem_of_head? hhead)
  rcases splitName_fst path with hstart | ⟨above, hstart⟩
  · rw [renamed, hstart, List.nil_append] at hself ⊢
    rw [← hself]
    simp [isAbsolute, hnone hname, hnone hlast]
  · rw [renamed, hstart, List.append_assoc, List.singleton_append] at hself ⊢
    rw [← hself]
    simp [isAbsolute, List.head?_append]

/-! ## Extensions -/

theorem stemOfName_append {stem extension : List Char} (hstem : stem ≠ [])
    (hextension : extension ≠ []) (hdot : '.' ∉ extension) :
    stemOfName (stem ++ '.' :: extension) = stem := by
  have hpass : ∀ c ∈ extension.reverse, (c != '.') = true := by
    intro c hc
    rw [bne_iff_ne]
    rintro rfl
    exact hdot (List.mem_reverse.mp hc)
  have hbefore : ((stem ++ '.' :: extension).reverse.dropWhile (· != '.')).drop 1 =
      stem.reverse := by
    rw [List.reverse_append, List.reverse_cons, List.append_assoc, List.singleton_append,
      List.dropWhile_append_of_pos hpass, List.dropWhile_cons_of_neg (by simp), List.drop_one,
      List.tail_cons]
  have hdots : stem ++ '.' :: extension ≠ ['.', '.'] := by
    obtain ⟨c, stem, rfl⟩ := List.exists_cons_of_ne_nil hstem
    obtain ⟨d, extension, rfl⟩ := List.exists_cons_of_ne_nil hextension
    cases stem <;> simp
  rw [stemOfName, hbefore, if_neg (by simp [hdots, hstem]), List.reverse_reverse]

section Extensions

variable {path : String} {stem extension : List Char}
  (hname : (splitName path).2 = stem ++ '.' :: extension) (hstem : stem ≠ [])
  (hextension : extension ≠ []) (hdot : '.' ∉ extension)
include hname hstem hextension hdot

theorem stem_eq : Path.stem path = String.ofList stem := by
  rw [Path.stem, hname, stemOfName_append hstem hextension hdot]

/-- Another extension makes another last piece with the same stem. -/
theorem withExtension_eq_renamed (hne : stem ≠ ['.']) (other : String) :
    withExtension path other = renamed path (stem ++ '.' :: other.toList) := by
  have hdotted : stem ≠ stem ++ '.' :: extension := by simp
  apply String.toList_injective
  simp only [withExtension, hname, stemOfName_append hstem hextension hdot, if_neg hdotted]
  rw [if_neg]
  · simp [renamed]
  · rw [Bool.or_eq_true, decide_eq_true_eq, decide_eq_true_eq, not_or]
    constructor
    · simpa using hstem
    · intro h
      have htwo : stem ++ ['.'] = ['.'] ++ ['.'] := h
      exact hne (List.append_inj_left' htwo rfl)

/-- A stem that is a dot leaves no name of a file. -/
theorem withExtension_of_dot (hone : stem = ['.']) (other : String) :
    withExtension path other = renamed path ['.', '.'] := by
  subst hone
  have hdotted : ['.'] ≠ ['.'] ++ '.' :: extension := by simp
  simp only [withExtension, hname, stemOfName_append hstem hextension hdot, if_neg hdotted]
  rfl

end Extensions

end Path

namespace FileTree

variable {t after : FileTree} {path : String} {parent place : List String} {name : List Char}

/-! ## Directories of paths -/

/-- The last piece of the path is looked up in the directory at a place. -/
structure LiesIn (t : FileTree) (path : String) (parent : List String) : Prop where
  directory : t.find? parent = some .directory
  follow : t.follow (t.origin path) (Path.pieces path).dropLast = .ok parent

theorem LiesIn.unique {other : List String} (h : t.LiesIn path parent)
    (hother : t.LiesIn path other) : parent = other :=
  Except.ok.inj (h.follow.symm.trans hother.follow)

theorem LiesIn.keeps (h : t.LiesIn path parent) (hkeeps : Keeps t after) :
    after.LiesIn path parent :=
  ⟨hkeeps.directory _ h.directory, by rw [hkeeps.origin]; exact hkeeps.follow h.follow⟩

/-- A path to an entry lies in the directory of the entry, if its last piece is a name. -/
theorem exists_liesIn {entry : Entry} (h : t.entryAt path = .ok (place, entry))
    (hproper : isProperName (String.ofList (Path.splitName path).2) = true) :
    ∃ parent, t.LiesIn path parent ∧
      place = parent ++ [String.ofList (Path.splitName path).2] ∧
      isTooLong (String.ofList (Path.splitName path).2) = false := by
  obtain ⟨-, hfollow, -⟩ := entryAt_eq_ok h
  rw [Path.pieces_eq_dropLast_append] at hfollow
  obtain ⟨parent, hparent, hdirectory, hname⟩ :=
    exists_of_follow_append hfollow (List.cons_ne_nil _ _)
  obtain ⟨-, hlength, hplace⟩ := follow_name_eq_ok hproper hname
  exact ⟨parent, ⟨hdirectory, hparent⟩, hplace, hlength⟩

theorem isProperName_of_extension {stem extension : List Char} (hstem : stem ≠ [])
    (hextension : extension ≠ []) :
    isProperName (String.ofList (stem ++ '.' :: extension)) = true := by
  obtain ⟨c, stem, rfl⟩ := List.exists_cons_of_ne_nil hstem
  obtain ⟨d, extension, rfl⟩ := List.exists_cons_of_ne_nil hextension
  have hname (other : String) (hlength : other.toList.length < 3) :
      String.ofList (c :: stem ++ '.' :: d :: extension) ≠ other := by
    rintro rfl
    simp at hlength
    omega
  exact isProperName_iff.mpr ⟨hname "" (by decide), hname "." (by decide), hname ".." (by decide)⟩

/-- The path can be given another last piece, which is a name, and neither the name nor the path is
too long then. -/
structure CanBeRenamed (path : String) (name : List Char) : Prop where
  slash : '/' ∉ name
  proper : isProperName (String.ofList name) = true
  length : isTooLong (String.ofList name) = false
  checkPath : checkPath (Path.renamed path name) = .ok ()

/-- A path is not too long if another one is not whose last piece is at least as long. -/
theorem checkPath_renamed (h : checkPath path = .ok ()) (hne : name ≠ [])
    (hsize : (String.ofList name).utf8ByteSize ≤
      (String.ofList (Path.splitName path).2).utf8ByteSize) :
    checkPath (Path.renamed path name) = .ok () := by
  have hself := congrArg String.utf8ByteSize (Path.renamed_self path)
  rw [Path.renamed_eq_append, String.utf8ByteSize_append] at hself
  have hempty : Path.renamed path name ≠ "" := by
    intro hempty
    have := congrArg String.toList hempty
    simp [Path.renamed, hne] at this
  have hlong : ¬maxPathSize < path.utf8ByteSize := by
    intro hlong
    unfold checkPath at h
    split_ifs at h
  rw [checkPath, if_neg (by simpa using hempty), if_neg]
  rw [Path.renamed_eq_append, String.utf8ByteSize_append]
  omega

section LiesIn

variable (h : t.LiesIn path parent)
include h

theorem LiesIn.follow_renamed (hslash : '/' ∉ name) :
    t.follow (t.origin (Path.renamed path name)) (Path.pieces (Path.renamed path name)) =
      t.follow parent [String.ofList name] := by
  rw [origin, Path.isAbsolute_renamed path hslash, ← origin, Path.pieces_renamed path hslash,
    follow_append, h.follow]

variable (hname : CanBeRenamed path name)
include hname

/-- What is found beside a path is what stands at one place. -/
theorem LiesIn.entryAt_renamed :
    t.entryAt (Path.renamed path name) =
      match t.find? (parent ++ [String.ofList name]) with
      | some entry => .ok (parent ++ [String.ofList name], entry)
      | none => .error .notFound := by
  have hfollow := (h.follow_renamed hname.slash).trans
    (follow_name h.directory hname.proper hname.length)
  cases hfind : t.find? (parent ++ [String.ofList name]) <;>
    simp only [entryAt, hname.checkPath, hfollow, hfind]

/-- What is written beside a path is put at one place. -/
theorem LiesIn.writeText_renamed (text : String) :
    t.writeText (Path.renamed path name) text =
      if t.find? (parent ++ [String.ofList name]) = some .directory then .error .isDirectory
      else .ok (t.put (parent ++ [String.ofList name]) (.file text.toUTF8)) := by
  have hempty : String.ofList name ≠ "" := (isProperName_iff.mp hname.proper).1
  have hnames : ((Path.pieces (Path.renamed path name)).reverse.dropWhile
      String.isEmpty).reverse = (Path.pieces path).dropLast ++ [String.ofList name] := by
    rw [Path.pieces_renamed path hname.slash, List.reverse_append, List.reverse_singleton,
      List.singleton_append, List.dropWhile_cons_of_neg (by simpa using hempty)]
    simp
  have htarget : t.targetOf (Path.renamed path name) = .ok (parent, some (String.ofList name)) := by
    rw [targetOf, hname.checkPath]
    dsimp only
    rw [hnames, List.dropLast_concat, List.getLast?_concat, origin,
      Path.isAbsolute_renamed path hname.slash, ← origin, h.follow]
    dsimp only
    rw [h.directory]
  have hend : (Path.renamed path name).toList.getLast? ≠ some '/' := by
    rw [Path.renamed, String.toList_ofList,
      List.getLast?_append_of_ne_nil _ (show name ≠ [] by simpa using hempty)]
    exact fun hlast => hname.slash (List.mem_of_getLast? hlast)
  rw [writeText, htarget]
  simp only [hname.proper, hname.length, hend, Bool.not_true, decide_false, Bool.or_self,
    Bool.false_eq_true, if_false]
  split
  · next hfind => rw [if_pos hfind]
  · next hfind => rw [if_neg fun heq => hfind heq]

end LiesIn

end FileTree

end NodeSchema
