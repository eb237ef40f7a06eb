import NodeSchema.FileTree.Pattern
import NodeSchema.Proofs.Delivery

/-!
# Paths below directories

The path of a name in a directory leads to the place of that name in it, whichever of its forms the
path of the directory has (`eq_append_of_entryAt_below`) : it may end with a slash, or be one that
stays where paths start from and is left out. What is found at a path that was joined to another one
has a directory at that other path (`entryAt_of_join`).
-/

namespace NodeSchema

namespace FileTree

variable {t : FileTree} {path name : String} {place parent : List String}

/-! ## Names -/

theorem isProperName_iff : isProperName name = true ↔ name ≠ "" ∧ name ≠ "." ∧ name ≠ ".." := by
  simp [isProperName, and_assoc]

/-! ## Joined paths -/

theorem pieces_of_not_mem (h : '/' ∉ name.toList) : Path.pieces name = [name] := by
  rw [Path.pieces, List.splitOn_eq_singleton h, List.map_singleton, String.ofList_toList]

/-- The pieces of a joined path are those of its parts, without the empty one that a slash at the
end of the first part leaves. -/
theorem exists_pieces_join (path name : String) :
    ∃ names, Path.pieces (Path.join path name) = names ++ Path.pieces name ∧
      (Path.pieces path = names ∨ Path.pieces path = names ++ [""]) := by
  unfold Path.join
  split_ifs with hslash
  · obtain ⟨before, hbefore⟩ := List.getLast?_eq_some_iff.mp hslash
    refine ⟨(before.splitOn '/').map String.ofList, ?_, .inr ?_⟩
    · simp [Path.pieces, hbefore, List.splitOn_append_cons_self]
    · simp [Path.pieces, hbefore, List.splitOn_append_cons_self]
  · exact ⟨Path.pieces path, by simp [Path.pieces, List.splitOn_append_cons_self], .inl rfl⟩

theorem isAbsolute_join (hne : path ≠ "") (name : String) :
    Path.isAbsolute (Path.join path name) = Path.isAbsolute path := by
  obtain ⟨c, rest, hpath⟩ := List.exists_cons_of_ne_nil (show path.toList ≠ [] by simpa using hne)
  unfold Path.join
  split_ifs <;> simp [Path.isAbsolute, hpath]

theorem pieces_ne_nil (path : String) : Path.pieces path ≠ [] := by
  simp [Path.pieces]

theorem ne_empty_of_entryAt {entry : Entry} (h : t.entryAt path = .ok (place, entry)) :
    path ≠ "" := by
  rintro rfl
  obtain ⟨hpath, -⟩ := entryAt_eq_ok h
  cases hpath

theorem isDirectory_iff :
    t.isDirectory path = true ↔ ∃ place, t.entryAt path = .ok (place, .directory) := by
  unfold isDirectory
  split
  · next place h => simp [h]
  · next h =>
    refine iff_of_false Bool.false_ne_true ?_
    rintro ⟨place, hplace⟩
    exact h place hplace

/-! ## Paths that stay -/

/-- Where the names that stay in their directory lead to. -/
theorem eq_of_follow_of_staying {names : List String}
    (hnames : ∀ name ∈ names, name.isEmpty = true ∨ name = ".") {reached : List String}
    (h : t.follow place names = .ok reached) : reached = place := by
  induction names with
  | nil => exact (Except.ok.inj h).symm
  | cons name rest ih =>
    obtain ⟨hname, hrest⟩ := List.forall_mem_cons.mp hnames
    rw [follow] at h
    split at h
    · cases h
    · cases h
    · rw [if_pos (by simpa using hname)] at h
      exact ih hrest h

theorem staying_of_isCurrent (h : Path.isCurrent path = true) :
    ∀ name ∈ Path.pieces path, name.isEmpty = true ∨ name = "." := by
  unfold Path.isCurrent at h
  split at h
  · cases h
  · next first rest hpieces =>
    simp only [Bool.and_eq_true, decide_eq_true_eq, List.all_eq_true, Bool.or_eq_true] at h
    rw [hpieces]
    exact List.forall_mem_cons.mpr ⟨.inr h.1, h.2⟩

theorem isAbsolute_of_isCurrent (h : Path.isCurrent path = true) :
    Path.isAbsolute path = false := by
  rw [← Bool.not_eq_true]
  intro habsolute
  obtain ⟨rest, hrest⟩ : ∃ rest, path.toList = [] ++ '/' :: rest := by
    simpa [Path.isAbsolute, List.head?_eq_some_iff] using habsolute
  rw [Path.isCurrent, Path.pieces, hrest,
    List.splitOn_append_cons_self_of_not_mem List.not_mem_nil] at h
  simp at h

/-- What a path that names its own directory leads to is a directory. -/
theorem not_isCurrent_of_file {content : ByteArray}
    (h : t.entryAt path = .ok (place, .file content)) : Path.isCurrent path = false := by
  rw [← Bool.not_eq_true]
  intro hcurrent
  obtain ⟨-, hfollow, hfind⟩ := entryAt_eq_ok h
  have hstays := staying_of_isCurrent hcurrent
  have hplace := eq_of_follow_of_staying hstays hfollow
  obtain ⟨first, rest, hpieces⟩ := List.exists_cons_of_ne_nil (pieces_ne_nil path)
  rw [hpieces, follow, ← hplace, hfind] at hfollow
  cases hfollow

/-! ## What stands below a path -/

/-- The last name that is followed leads out of a directory. -/
theorem exists_of_follow_append {start names more reached : List String}
    (h : t.follow start (names ++ more) = .ok reached) (hmore : more ≠ []) :
    ∃ above, t.follow start names = .ok above ∧ t.find? above = some .directory ∧
      t.follow above more = .ok reached := by
  rw [follow_append] at h
  cases hnames : t.follow start names with
  | error cause =>
    rw [hnames] at h
    cases h
  | ok above =>
    rw [hnames] at h
    refine ⟨above, rfl, ?_, h⟩
    obtain ⟨first, rest, rfl⟩ := List.exists_cons_of_ne_nil hmore
    dsimp only at h
    rw [follow] at h
    split at h
    · cases h
    · cases h
    · next hdirectory => exact hdirectory

/-- What stands at a path has a directory above it. -/
theorem entryAt_of_join {entry : Entry} (hne : path ≠ "")
    (h : t.entryAt (Path.join path name) = .ok (place, entry)) :
    ∃ above, t.entryAt path = .ok (above, .directory) ∧
      t.follow above (Path.pieces name) = .ok place := by
  obtain ⟨hpath, hfollow, -⟩ := entryAt_eq_ok h
  obtain ⟨names, hjoin, hpieces⟩ := exists_pieces_join path name
  rw [origin, isAbsolute_join hne, ← origin, hjoin] at hfollow
  obtain ⟨above, hnames, hdirectory, hlast⟩ :=
    exists_of_follow_append hfollow (pieces_ne_nil name)
  refine ⟨above, entryAt_of_follow ?_ ?_ hdirectory, hlast⟩
  · have hsize : path.utf8ByteSize ≤ (Path.join path name).utf8ByteSize := by
      unfold Path.join
      split_ifs <;> simp [String.utf8ByteSize_append]
      omega
    unfold checkPath at hpath ⊢
    split_ifs at hpath with hempty hlong
    rw [if_neg (by simpa using hne), if_neg (by omega)]
  · rcases hpieces with hpieces | hpieces
    · rw [hpieces, hnames]
    · rw [hpieces, follow_append, hnames]
      exact follow_of_isEmpty hdirectory (by simp)

/-- A name leads from a directory to its place in it. -/
theorem follow_name_eq_ok (hproper : isProperName name = true)
    (h : t.follow parent [name] = .ok place) :
    t.find? parent = some .directory ∧ isTooLong name = false ∧ place = parent ++ [name] := by
  obtain ⟨hempty, hdot, hdots⟩ := isProperName_iff.mp hproper
  rw [follow] at h
  split at h
  · cases h
  · cases h
  · next hdirectory =>
    rw [if_neg (by simp [hempty, hdot]), if_neg hdots] at h
    split_ifs at h with hlength
    exact ⟨hdirectory, by simpa using hlength, (Except.ok.inj h).symm⟩

/-- The path of a name in a directory leads to the place of that name. -/
theorem eq_append_of_entryAt_below (hdirectory : t.entryAt path = .ok (parent, .directory))
    (hproper : isProperName name = true) (hslash : '/' ∉ name.toList) {entry : Entry}
    (h : t.entryAt (below path name) = .ok (place, entry)) : place = parent ++ [name] := by
  unfold below at h
  split_ifs at h with hcurrent
  · obtain ⟨-, hfollow, -⟩ := entryAt_eq_ok hdirectory
    have hhere : parent = t.origin path :=
      eq_of_follow_of_staying (staying_of_isCurrent hcurrent) hfollow
    obtain ⟨-, hname, -⟩ := entryAt_eq_ok h
    have horigin : t.origin name = t.origin path := by
      have habsolute : Path.isAbsolute name = false := by
        rw [Path.isAbsolute, decide_eq_false_iff_not]
        exact fun hhead => hslash (List.mem_of_head? hhead)
      rw [origin, origin, habsolute, isAbsolute_of_isCurrent hcurrent]
    rw [horigin, ← hhere, pieces_of_not_mem hslash] at hname
    exact (follow_name_eq_ok hproper hname).2.2
  · obtain ⟨above, habove, hname⟩ := entryAt_of_join (ne_empty_of_entryAt hdirectory) h
    rw [hdirectory] at habove
    cases habove
    rw [pieces_of_not_mem hslash] at hname
    exact (follow_name_eq_ok hproper hname).2.2

theorem isCurrent_below (hproper : isProperName name = true) (hslash : '/' ∉ name.toList)
    (path : String) : Path.isCurrent (below path name) = false := by
  rw [← Bool.not_eq_true]
  intro hcurrent
  have hname : name ∈ Path.pieces (below path name) := by
    unfold below
    split_ifs
    · simp [pieces_of_not_mem hslash]
    · obtain ⟨names, hjoin, -⟩ := exists_pieces_join path name
      simp [hjoin, pieces_of_not_mem hslash]
  obtain ⟨hempty, hdot, -⟩ := isProperName_iff.mp hproper
  rcases staying_of_isCurrent hcurrent name hname with hstays | hstays
  · exact hempty (String.isEmpty_iff.mp hstays)
  · exact hdot hstays

theorem below_ne_empty (hproper : isProperName name = true) (path : String) :
    below path name ≠ "" := by
  have hname : name ≠ "" := (isProperName_iff.mp hproper).1
  unfold below Path.join
  split_ifs <;> simp [hname]

end FileTree

end NodeSchema
