import Mathlib.Data.List.Sort
import NodeSchema.Proofs.Matching
import NodeSchema.Proofs.PathsBelow

/-!
# Searches and new files

A search for the names that a pattern stands for goes through directories. A file that is put into
a directory is seen there by every component of the pattern, but it leads no further : below it
nothing is found (`expand_of_not_isDirectory`), and the last component does not stand for its name.
So the search finds what it found before (`expand_put`, `matching_put`).

A `**` goes down as many levels as the deepest entry of the tree has names. Going down further makes
no difference (`descend_of_depth_le`) if the names in the tree are such as a file system has
(`Named`), since then each level is one name deeper than the one above.
-/

namespace NodeSchema

namespace FileTree

variable {t : FileTree} {path found name : String} {place parent : List String}

/-! ## Well-formed trees -/

/-- The names are such as a file system has : they are not empty, are not `.` or `..`, and have no
slash. -/
def Named (t : FileTree) : Prop :=
  ∀ entry ∈ t.entries, ∀ name ∈ entry.1, isProperName name = true ∧ '/' ∉ name.toList

instance (t : FileTree) : Decidable t.Named :=
  inferInstanceAs (Decidable (∀ entry ∈ t.entries, ∀ name ∈ entry.1,
    isProperName name = true ∧ '/' ∉ name.toList))

/-- A file with such a name in a directory of the tree leaves the names such. -/
theorem Named.put (h : t.Named) (hparent : t.find? parent = some .directory)
    (hproper : isProperName name = true) (hslash : '/' ∉ name.toList) (entry : Entry) :
    (t.put (parent ++ [name]) entry).Named := by
  have habove : ∀ above ∈ parent, isProperName above = true ∧ '/' ∉ above.toList := by
    intro above hmem
    rw [find?, if_neg (by simpa using List.ne_nil_of_mem hmem)] at hparent
    obtain ⟨before, after, hentries, -⟩ := List.lookup_eq_some_iff.mp hparent
    exact h (parent, .directory) (by simp [hentries]) above hmem
  rintro other hother
  rcases List.mem_cons.mp hother with rfl | hother
  · intro above hmem
    rcases List.mem_append.mp hmem with hmem | hmem
    · exact habove above hmem
    · exact List.mem_singleton.mp hmem ▸ ⟨hproper, hslash⟩
  · exact h other (List.mem_filter.mp hother).1

/-- A file tree as file systems have them : with their names, and with each entry in a
directory. -/
structure WellFormed (t : FileTree) : Prop where
  named : t.Named
  nested : ∀ entry ∈ t.entries, t.find? entry.1.dropLast = some .directory

instance (t : FileTree) : Decidable t.WellFormed :=
  decidable_of_iff (t.Named ∧ ∀ entry ∈ t.entries, t.find? entry.1.dropLast = some .directory)
    ⟨fun h => ⟨h.1, h.2⟩, fun h => ⟨h.named, h.nested⟩⟩

/-- A directory lies in a directory. -/
theorem WellFormed.find?_dropLast (h : t.WellFormed) (hplace : t.find? place = some .directory) :
    t.find? place.dropLast = some .directory := by
  unfold find? at hplace
  split_ifs at hplace with hempty
  · rw [List.isEmpty_iff.mp hempty]
    rfl
  · obtain ⟨before, after, hentries, -⟩ := List.lookup_eq_some_iff.mp hplace
    exact h.nested (place, .directory) (by simp [hentries])

theorem WellFormed.put (h : t.WellFormed) (hparent : t.find? parent = some .directory)
    (hproper : isProperName name = true) (hslash : '/' ∉ name.toList)
    (hfree : t.find? (parent ++ [name]) ≠ some .directory) (entry : Entry) :
    (t.put (parent ++ [name]) entry).WellFormed := by
  have hkeeps := keeps_put hfree entry
  refine ⟨h.named.put hparent hproper hslash entry, fun other hother => ?_⟩
  rcases List.mem_cons.mp hother with rfl | hother
  · rw [List.dropLast_concat]
    exact hkeeps.directory _ hparent
  · exact hkeeps.directory _ (h.nested other (List.mem_filter.mp hother).1)

/-! ## Entries that are no directories -/

theorem isDirectory_of_hasEntry_join (hne : path ≠ "")
    (h : t.hasEntry (Path.join path name) = true) : t.isDirectory path = true := by
  unfold hasEntry at h
  split at h
  · next found hfound =>
    obtain ⟨above, habove, -⟩ := entryAt_of_join hne hfound
    exact isDirectory_iff.mpr ⟨above, habove⟩
  · cases h

theorem children_of_not_isDirectory (h : t.isDirectory path = false) : t.children path = [] := by
  unfold children
  split
  · next place hplace => simp [isDirectory, hplace] at h
  · rfl

theorem descend_of_not_isDirectory (h : t.isDirectory path = false)
    (visit : String → String → List String) (depth : ℕ) : t.descend visit depth path = [] := by
  cases depth with
  | zero => rfl
  | succ depth => rw [descend, children_of_not_isDirectory h, List.flatMap_nil]

/-- Below what is no directory nothing is found. -/
theorem expand_of_not_isDirectory {last : Pattern} (hlast : ForNames last) (hne : path ≠ "")
    (hcurrent : Path.isCurrent path = false) (h : t.isDirectory path = false)
    (patterns : List Pattern) : t.expand (patterns ++ [last]) path = [] := by
  induction patterns with
  | nil => rw [List.nil_append, expand_special _ _ hlast.depth hlast.special, h]; rfl
  | cons pattern rest ih =>
    rw [List.cons_append]
    cases hdepth : pattern.isAnyDepth with
    | true =>
      obtain ⟨next, others, hrest⟩ :=
        List.exists_cons_of_ne_nil (show rest ++ [last] ≠ [] by simp)
      rw [hrest] at ih ⊢
      rw [expand_anyDepth _ _ hdepth, ih, descend_of_not_isDirectory h, ite_self]
    | false =>
      cases htext : pattern.literal? with
      | none => rw [expand_special _ _ hdepth htext, h]; rfl
      | some text =>
        have hentry : t.hasEntry (below path (String.ofList text)) = false := by
          rw [← Bool.not_eq_true]
          intro hentry
          simp only [below, hcurrent, Bool.false_eq_true, if_false] at hentry
          rw [isDirectory_of_hasEntry_join hne hentry] at h
          cases h
        simp [expand_literal _ _ hdepth htext, h, hentry]

/-- A component of a pattern that is taken as it stands leads on if there is a directory. -/
theorem expand_of_hasEntry {last : Pattern} (hlast : ForNames last) (patterns : List Pattern) :
    (if t.hasEntry found then t.expand (patterns ++ [last]) found else []) =
      if t.isDirectory found then t.expand (patterns ++ [last]) found else [] := by
  by_cases hdirectory : t.isDirectory found = true
  · obtain ⟨place, hplace⟩ := isDirectory_iff.mp hdirectory
    simp [hasEntry, hplace, hdirectory]
  · rw [if_neg hdirectory]
    split_ifs with hentry
    · unfold hasEntry at hentry
      split at hentry
      · next reached hfound =>
        obtain ⟨place, _ | content⟩ := reached
        · exact expand_of_not_isDirectory hlast (ne_empty_of_entryAt hfound)
            (not_isCurrent_of_file hfound) (by simpa using hdirectory) patterns
        · exact absurd (isDirectory_iff.mpr ⟨_, hfound⟩) hdirectory
      · cases hentry
    · rfl

/-! ## The depth of a search -/

theorem le_foldl_max {entries : List (List String × Entry)} {entry : List String × Entry}
    (h : entry ∈ entries) (start : ℕ) :
    entry.1.length ≤ entries.foldl (fun deepest entry => max deepest entry.1.length) start := by
  have hgrows (entries : List (List String × Entry)) (start : ℕ) :
      start ≤ entries.foldl (fun deepest entry => max deepest entry.1.length) start := by
    induction entries generalizing start with
    | nil => exact le_rfl
    | cons first rest ih => exact (le_max_left _ _).trans (ih _)
  induction entries generalizing start with
  | nil => cases h
  | cons first rest ih =>
    rcases List.mem_cons.mp h with rfl | h
    · exact (le_max_right _ _).trans (hgrows rest _)
    · exact ih h _

theorem length_le_depth {entry : List String × Entry} (h : entry ∈ t.entries) :
    entry.1.length ≤ t.depth :=
  le_foldl_max h 0

theorem mem_children (hdirectory : t.entryAt path = .ok (parent, .directory))
    (h : name ∈ t.children path) : ∃ entry ∈ t.entries, entry.1 = parent ++ [name] := by
  rw [children, hdirectory] at h
  dsimp only at h
  rw [List.mem_mergeSort, List.mem_filterMap] at h
  obtain ⟨entry, hentry, hname⟩ := h
  split_ifs at hname with hparent
  exact ⟨entry, hentry, by rw [← hparent, List.dropLast_append_getLast? _ hname]⟩

/-- A directory at the greatest depth holds nothing. -/
theorem children_of_depth_le (hdirectory : t.entryAt path = .ok (parent, .directory))
    (h : t.depth ≤ parent.length) : t.children path = [] := by
  refine List.eq_nil_iff_forall_not_mem.mpr fun name hname => ?_
  obtain ⟨entry, hentry, heq⟩ := mem_children hdirectory hname
  have hlength := length_le_depth hentry
  rw [heq, List.length_append, List.length_singleton] at hlength
  omega

/-- To go down further than the greatest depth makes no difference. -/
theorem descend_of_directory (hnamed : t.Named) (visit : String → String → List String)
    {m n : ℕ} (hdirectory : t.entryAt path = .ok (parent, .directory))
    (hm : t.depth ≤ parent.length + m) (hn : t.depth ≤ parent.length + n) :
    t.descend visit m path = t.descend visit n path := by
  -- a level is one name deeper than the one above, so the bounds hold with one level less to go
  induction m generalizing n path parent with
  | zero =>
    cases n with
    | zero => rfl
    | succ n => rw [descend, descend, children_of_depth_le hdirectory hm, List.flatMap_nil]
  | succ m ih =>
    cases n with
    | zero => rw [descend, descend, children_of_depth_le hdirectory hn, List.flatMap_nil]
    | succ n =>
      rw [descend, descend]
      refine List.flatMap_congr fun name hname => ?_
      obtain ⟨entry, hentry, heq⟩ := mem_children hdirectory hname
      obtain ⟨hproper, hslash⟩ := hnamed entry hentry name (by simp [heq])
      congr 1
      cases hbelow : t.isDirectory (below path name) with
      | true =>
        obtain ⟨place, hplace⟩ := isDirectory_iff.mp hbelow
        obtain rfl := eq_append_of_entryAt_below hdirectory hproper hslash hplace
        exact ih hplace (by simp; omega) (by simp; omega)
      | false => rw [descend_of_not_isDirectory hbelow, descend_of_not_isDirectory hbelow]

theorem descend_of_depth_le (hnamed : t.Named) (visit : String → String → List String)
    {m n : ℕ} (hm : t.depth ≤ m) (hn : t.depth ≤ n) (path : String) :
    t.descend visit m path = t.descend visit n path := by
  cases hdirectory : t.isDirectory path with
  | true =>
    obtain ⟨place, hplace⟩ := isDirectory_iff.mp hdirectory
    exact descend_of_directory hnamed visit hplace (by omega) (by omega)
  | false => rw [descend_of_not_isDirectory hdirectory, descend_of_not_isDirectory hdirectory]

/-! ## A new file -/

theorem Keeps.trans {after last : FileTree} (h : Keeps t after) (hlast : Keeps after last) :
    Keeps t last :=
  ⟨hlast.here.trans h.here, fun place hplace => hlast.directory place (h.directory place hplace)⟩

/-- A file that is put where no directory is makes none. -/
theorem Keeps.of_put (hfree : t.find? place ≠ some .directory) (content : ByteArray) :
    Keeps (t.put place (.file content)) t := by
  refine ⟨rfl, fun other hother => ?_⟩
  rw [find?_put (ne_nil_of_find? hfree)] at hother
  split_ifs at hother
  · cases hother
  · exact hother

theorem filter_mergeSort_congr {names others : List String} {keep : String → Bool}
    (h : names.filter keep = others.filter keep) :
    (names.mergeSort fun a b => decide (a ≤ b)).filter keep =
      (others.mergeSort fun a b => decide (a ≤ b)).filter keep := by
  have hsorted (names : List String) :
      ((names.mergeSort fun a b => decide (a ≤ b)).filter keep).Pairwise (· ≤ ·) := by
    refine List.Pairwise.filter _ ?_
    refine (List.pairwise_mergeSort (fun a b c hab hbc => ?_) (fun a b => ?_) names).imp
      fun hab => of_decide_eq_true hab
    · simp only [decide_eq_true_eq] at hab hbc ⊢
      exact String.le_trans hab hbc
    · simpa using String.le_total a b
  have hperm (names : List String) :
      ((names.mergeSort fun a b => decide (a ≤ b)).filter keep).Perm (names.filter keep) :=
    (List.mergeSort_perm _ _).filter _
  refine List.Perm.eq_of_pairwise (fun _ _ _ _ => String.le_antisymm) (hsorted _) (hsorted _) ?_
  exact (hperm names).trans (h ▸ (hperm others).symm)

section Put

variable (hfree : t.find? (parent ++ [name]) ≠ some .directory) (content : ByteArray)
include hfree

theorem entryAt_put_directory_iff :
    (t.put (parent ++ [name]) (.file content)).entryAt path = .ok (place, .directory) ↔
      t.entryAt path = .ok (place, .directory) :=
  ⟨(Keeps.of_put hfree content).entryAt, (keeps_put hfree _).entryAt⟩

theorem isDirectory_put (path : String) :
    (t.put (parent ++ [name]) (.file content)).isDirectory path = t.isDirectory path := by
  rw [Bool.eq_iff_iff, isDirectory_iff, isDirectory_iff]
  simp only [entryAt_put_directory_iff hfree]

/-- Apart from the new file, a directory holds what it held. -/
theorem filter_children_put {keep : String → Bool}
    (hkeep : t.entryAt path = .ok (parent, .directory) → keep name = false) :
    ((t.put (parent ++ [name]) (.file content)).children path).filter keep =
      (t.children path).filter keep := by
  cases hdirectory : t.isDirectory path with
  | false =>
    rw [children_of_not_isDirectory hdirectory,
      children_of_not_isDirectory ((isDirectory_put hfree content path).trans hdirectory)]
  | true =>
    obtain ⟨place, hplace⟩ := isDirectory_iff.mp hdirectory
    rw [children, children, hplace, (entryAt_put_directory_iff hfree content).mpr hplace]
    refine filter_mergeSort_congr ?_
    rw [List.filter_filterMap, List.filter_filterMap]
    -- an entry at the place of the file gives no name that is kept
    have hnone (entry : List String × Entry) (hentry : entry.1 = parent ++ [name]) :
        Option.filter keep (if entry.1.dropLast = place then entry.1.getLast? else none) =
          none := by
      rw [hentry, List.dropLast_concat, List.getLast?_concat]
      split_ifs with hparent
      · subst hparent
        simp [hkeep hplace]
      · rfl
    change List.filterMap _ ((parent ++ [name], .file content) :: t.entries.filter _) = _
    simp only [List.filterMap_cons, hnone (parent ++ [name], .file content) rfl]
    rw [List.filterMap_filter]
    refine List.filterMap_congr fun entry _ => ?_
    by_cases hentry : entry.1 = parent ++ [name]
    · rw [hnone entry hentry, ite_self]
    · rw [if_pos (by simpa using hentry)]

/-- What does not look at the new file sees the same names. -/
theorem flatMap_children_put {β : Type*} {visit : String → List β}
    (hvisit : t.entryAt path = .ok (parent, .directory) → visit name = []) :
    ((t.put (parent ++ [name]) (.file content)).children path).flatMap visit =
      (t.children path).flatMap visit := by
  have hfilter (names : List String) :
      (names.filter fun name => !(visit name).isEmpty).flatMap visit = names.flatMap visit := by
    rw [flatMap_filter]
    refine List.flatMap_congr fun name _ => ?_
    by_cases hname : visit name = [] <;> simp [hname]
  rw [← hfilter, ← hfilter (t.children path),
    filter_children_put hfree content fun hdirectory => by simp [hvisit hdirectory]]

variable (hproper : isProperName name = true) (hslash : '/' ∉ name.toList)
include hproper hslash

/-- The new file is no directory. -/
theorem isDirectory_below_put (hdirectory : t.entryAt path = .ok (parent, .directory)) :
    t.isDirectory (below path name) = false := by
  rw [← Bool.not_eq_true, isDirectory_iff]
  rintro ⟨place, hplace⟩
  obtain rfl := eq_append_of_entryAt_below hdirectory hproper hslash hplace
  exact hfree (entryAt_eq_ok hplace).2.2

/-- Nothing is found below the new file. -/
theorem expand_below_put {last : Pattern} (hlast : ForNames last)
    (hdirectory : t.entryAt path = .ok (parent, .directory)) (patterns : List Pattern) :
    t.expand (patterns ++ [last]) (below path name) = [] :=
  expand_of_not_isDirectory hlast (below_ne_empty hproper path)
    (isCurrent_below hproper hslash path)
    (isDirectory_below_put hfree hproper hslash hdirectory) patterns

/-- Going down, nothing is found at the new file or below it. -/
theorem descend_put {visit : String → String → List String}
    (hvisit : ∀ path, t.entryAt path = .ok (parent, .directory) →
      visit (below path name) name = []) (depth : ℕ) (path : String) :
    (t.put (parent ++ [name]) (.file content)).descend visit depth path =
      t.descend visit depth path := by
  induction depth generalizing path with
  | zero => rfl
  | succ depth ih =>
    rw [descend, descend]
    simp only [ih]
    refine flatMap_children_put hfree content fun hdirectory => ?_
    rw [hvisit path hdirectory, List.nil_append]
    exact descend_of_not_isDirectory
      (isDirectory_below_put hfree hproper hslash hdirectory) visit depth

/-- However deep the new file is, as much is found below each directory. -/
theorem descend_depth_put (hnamed : t.Named)
    (hafter : (t.put (parent ++ [name]) (.file content)).Named)
    {visit : String → String → List String}
    (hvisit : ∀ path, t.entryAt path = .ok (parent, .directory) →
      visit (below path name) name = []) (path : String) :
    (t.put (parent ++ [name]) (.file content)).descend visit
        (t.put (parent ++ [name]) (.file content)).depth path =
      t.descend visit t.depth path := by
  let deepest := max (t.put (parent ++ [name]) (.file content)).depth t.depth
  calc (t.put (parent ++ [name]) (.file content)).descend visit
        (t.put (parent ++ [name]) (.file content)).depth path
      = (t.put (parent ++ [name]) (.file content)).descend visit deepest path :=
        descend_of_depth_le hafter visit le_rfl (le_max_left _ _) path
    _ = t.descend visit deepest path :=
        descend_put hfree content hproper hslash hvisit deepest path
    _ = t.descend visit t.depth path :=
        descend_of_depth_le hnamed visit (le_max_right _ _) le_rfl path

/-- A search for the names that the last component stands for does not see a file with another
name. -/
theorem expand_put (hnamed : t.Named) (hparent : t.find? parent = some .directory)
    {last : Pattern} (hlast : ForNames last) (hname : last.matchesName name.toList = false)
    (patterns : List Pattern) (path : String) :
    (t.put (parent ++ [name]) (.file content)).expand (patterns ++ [last]) path =
      t.expand (patterns ++ [last]) path := by
  have hdirectory := isDirectory_put hfree content
  have hafter : (t.put (parent ++ [name]) (.file content)).Named :=
    hnamed.put hparent hproper hslash _
  match patterns with
  | [] =>
    rw [List.nil_append, expand_special _ _ hlast.depth hlast.special,
      expand_special _ _ hlast.depth hlast.special, hdirectory, hlast.dots]
    simp only [expand]
    rw [flatMap_children_put hfree content fun _ => by simp [hname]]
  | pattern :: rest =>
    rw [List.cons_append]
    cases hdepth : pattern.isAnyDepth with
    | true =>
      cases rest with
      | nil =>
        rw [List.nil_append, expand_anyDepth _ _ hdepth, expand_anyDepth _ _ hdepth, hlast.depth]
        simp only [Bool.false_eq_true, if_false, expand]
        exact descend_depth_put hfree content hproper hslash hnamed hafter
          (fun _ _ => by simp [hname]) path
      | cons next others =>
        -- the search compares names with the next component itself, and goes on behind it
        rw [List.cons_append, expand_anyDepth _ _ hdepth, expand_anyDepth _ _ hdepth,
          ← List.cons_append, expand_put hnamed hparent hlast hname (next :: others)]
        simp only [expand_put hnamed hparent hlast hname others]
        split_ifs
        · rfl
        · refine descend_depth_put hfree content hproper hslash hnamed hafter
            (fun path hplace => ?_) path
          rw [expand_below_put hfree hproper hslash hlast hplace, ite_self]
    | false =>
      cases htext : pattern.literal? with
      | some text =>
        rw [expand_literal _ _ hdepth htext, expand_literal _ _ hdepth htext]
        rw [expand_of_hasEntry hlast, expand_of_hasEntry hlast]
        simp only [hdirectory, expand_put hnamed hparent hlast hname rest]
      | none =>
        rw [expand_special _ _ hdepth htext, expand_special _ _ hdepth htext]
        simp only [hdirectory, expand_put hnamed hparent hlast hname rest]
        rw [flatMap_children_put hfree content fun hplace => by
          rw [expand_below_put hfree hproper hslash hlast hplace, ite_self]]
termination_by patterns.length

/-- The search for schema files in a directory finds the same ones after a file was added that is
not one of them. -/
theorem matching_put (hnamed : t.Named) (hparent : t.find? parent = some .directory)
    (hname : ¬".nodes".toList <:+ name.toList) (directory : String) :
    (t.put (parent ++ [name]) (.file content)).matching (Path.join directory "*.nodes") =
      t.matching (Path.join directory "*.nodes") := by
  obtain ⟨front, hcomponents⟩ := exists_components_join directory
  have hmatches : nodesPattern.matchesName name.toList = false := by
    rw [← Bool.not_eq_true]
    intro hmatch
    obtain ⟨tail, htail, hliteral⟩ := Pattern.matchesName_anyText.mp hmatch
    exact hname (matchesName_literals.mp hliteral ▸ htail)
  unfold matching
  dsimp only
  split
  · rfl
  · split
    · rfl
    · next patterns hpatterns =>
      rw [hcomponents] at hpatterns
      obtain ⟨others, last, rfl, hlast⟩ := exists_of_mapM_concat hpatterns
      rw [read_nodesPattern, Except.ok.injEq] at hlast
      subst hlast
      rw [expand_put hfree content hproper hslash hnamed hparent forNames_nodesPattern hmatches]

end Put

end FileTree

end NodeSchema
