import Mathlib.Data.List.Basic
import NodeSchema.Command.Generator
import NodeSchema.Proofs.Text

/-!
# What a delivery changes

A text that is delivered to a path is in the file there afterwards, and nothing else in the
tree is changed but for directories that the path goes through and that were not there before
(`delivered_of_canDeliver`).

Every change of a tree in between puts an entry at one place where no directory was. So a tree
keeps the directories that it had (`Keeps`), and names that led to a place lead there still
(`Keeps.follow`).
-/

namespace NodeSchema

/-! ## The directories above a path -/

namespace Path

/-- All prefixes but the last one are cut off at a slash, or are the root. -/
theorem eq_append_of_mem_dropLast_prefixesFrom {above before : List Char}
    {pieces : List (List Char)} (h : above ∈ (prefixesFrom before pieces).dropLast) :
    above = ['/'] ∨ ∃ rest, before ++ ['/'].intercalate pieces = above ++ '/' :: rest := by
  induction pieces generalizing before with
  | nil => simp [prefixesFrom] at h
  | cons piece rest ih =>
    rw [prefixesFrom] at h
    generalize hhere : (if piece.isEmpty = true then
      if (before.isEmpty && !rest.isEmpty) = true then [['/']] else []
      else if (decide (piece = ['.']) && !before.isEmpty) = true then []
      else [before ++ piece]) = here at h
    have hmem : ∀ whole ∈ here, whole = ['/'] ∨ whole = before ++ piece := by
      rw [← hhere]
      split_ifs <;> simp
    have hlength : here.length ≤ 1 := by
      rw [← hhere]
      split_ifs <;> simp
    cases rest with
    | nil =>
      rw [prefixesFrom, List.append_nil] at h
      have hnil : here.dropLast = [] := List.eq_nil_of_length_eq_zero (by simp; omega)
      simp [hnil] at h
    | cons next rest =>
      by_cases hlast : prefixesFrom (before ++ piece ++ ['/']) (next :: rest) = []
      · rw [hlast, List.append_nil] at h
        have hnil : here.dropLast = [] := List.eq_nil_of_length_eq_zero (by simp; omega)
        simp [hnil] at h
      · rw [List.dropLast_append_of_ne_nil hlast, List.mem_append] at h
        rcases h with h | h
        · refine (hmem above h).imp_right ?_
          rintro rfl
          exact ⟨['/'].intercalate (next :: rest), by simp [List.intercalate_cons_cons]⟩
        · refine (ih h).imp_right ?_
          rintro ⟨tail, heq⟩
          exact ⟨tail, by rw [← heq]; simp [List.intercalate_cons_cons]⟩

/-- A directory above a path is what stands before one of its slashes, or the root. -/
theorem eq_append_of_mem_parents {path above : String} (h : above ∈ parents path) :
    above = "/" ∨ ∃ rest, path = above ++ "/" ++ rest := by
  obtain ⟨whole, hwhole, rfl⟩ := List.mem_map.mp h
  rw [List.mem_reverse] at hwhole
  rcases eq_append_of_mem_dropLast_prefixesFrom hwhole with rfl | ⟨rest, heq⟩
  · exact .inl rfl
  · refine .inr ⟨String.ofList rest, String.toList_injective ?_⟩
    rw [List.nil_append, List.intercalate_splitOn] at heq
    simp [heq]

/-- A text that does not end with a slash has a name as its last piece. -/
theorem ne_nil_of_getLast?_splitOn {s : List Char} (hne : s ≠ []) (h : s.getLast? ≠ some '/')
    {last : List Char} (hlast : (s.splitOn '/').getLast? = some last) : last ≠ [] := by
  induction s using Text.mark_induction '/' with
  | last piece hpiece =>
    rw [List.splitOn_eq_singleton hpiece, List.getLast?_singleton, Option.some_inj] at hlast
    rwa [← hlast]
  | cons piece rest hpiece ih =>
    have hrest : rest ≠ [] := by
      rintro rfl
      simp at h
    obtain ⟨c, more, rfl⟩ := List.exists_cons_of_ne_nil hrest
    obtain ⟨first, pieces, hpieces⟩ :=
      List.exists_cons_of_ne_nil (List.splitOn_ne_nil '/' (c :: more))
    rw [List.splitOn_append_cons_self_of_not_mem hpiece, hpieces, List.getLast?_cons_cons,
      ← hpieces] at hlast
    exact ih hrest (by simpa using h) hlast

/-- A path that does not end with a slash has no empty names behind its last one. -/
theorem eq_nil_of_pieces_eq {path name : String} {names blanks : List String} (hne : path ≠ "")
    (hslash : path.toList.getLast? ≠ some '/') (hpieces : pieces path = names ++ name :: blanks)
    (hblanks : ∀ blank ∈ blanks, blank.isEmpty = true) : blanks = [] := by
  rcases List.eq_nil_or_concat blanks with rfl | ⟨front, last, rfl⟩
  · rfl
  · have hlast : (pieces path).getLast? = some last := by
      simp [hpieces, List.getLast?_append, List.getLast?_cons]
    rw [pieces, List.getLast?_map, Option.map_eq_some_iff] at hlast
    obtain ⟨piece, hpiece, rfl⟩ := hlast
    have hpieceNil := ne_nil_of_getLast?_splitOn (by simpa using hne) hslash hpiece
    have hempty := hblanks (String.ofList piece) (by simp)
    exact absurd (by simpa using hempty) hpieceNil

end Path

/-- A text is read back from its bytes. -/
theorem decodeText_toUTF8 (text : String) : decodeText text.toUTF8 = .ok text := by
  have hvalid : text.toUTF8.IsValidUTF8 := text.isValidUTF8
  rw [decodeText, String.fromUTF8?, dif_pos hvalid]
  rfl

namespace FileTree

variable {t after : FileTree} {place other : List String}

/-! ## Following names -/

@[simp] theorem find?_nil (t : FileTree) : t.find? [] = some .directory := rfl

theorem ne_nil_of_find? (h : t.find? place ≠ some .directory) : place ≠ [] := by
  rintro rfl
  exact h rfl

/-- Names are followed one after the other. -/
theorem follow_append (t : FileTree) (place : List String) (names more : List String) :
    t.follow place (names ++ more) =
      match t.follow place names with
      | .error cause => .error cause
      | .ok reached => t.follow reached more := by
  induction names generalizing place with
  | nil => rfl
  | cons name rest ih =>
    rw [List.cons_append, follow, follow]
    split
    · rfl
    · rfl
    · split_ifs
      · exact ih place
      · exact ih place.dropLast
      · rfl
      · exact ih (place ++ [name])

/-- A proper name leads from a directory to the place of that name in it. -/
theorem follow_name (hplace : t.find? place = some .directory) {name : String}
    (hproper : isProperName name = true) (hlength : isTooLong name = false) :
    t.follow place [name] = .ok (place ++ [name]) := by
  simp only [isProperName, Bool.not_eq_true', Bool.or_eq_false_iff, decide_eq_false_iff_not]
    at hproper
  simp [follow, hplace, hproper, hlength]

/-- Empty names stay in their directory. -/
theorem follow_of_isEmpty (hplace : t.find? place = some .directory) {names : List String}
    (hnames : ∀ name ∈ names, name.isEmpty = true) : t.follow place names = .ok place := by
  induction names with
  | nil => rfl
  | cons name rest ih =>
    obtain ⟨hname, hrest⟩ := List.forall_mem_cons.mp hnames
    simp [follow, hplace, hname, ih hrest]

/-- The other tree has the directories of this one, and the same current one. -/
structure Keeps (t after : FileTree) : Prop where
  here : after.here = t.here
  directory : ∀ place, t.find? place = some .directory → after.find? place = some .directory

/-- An entry that is put where no directory is takes none away. -/
theorem keeps_put (h : t.find? place ≠ some .directory) (entry : Entry) :
    Keeps t (t.put place entry) := by
  refine ⟨rfl, fun other hother => ?_⟩
  rw [find?_put (ne_nil_of_find? h), if_neg, hother]
  rintro rfl
  exact h hother

/-- The names that lead to a place still do. -/
theorem Keeps.follow (h : Keeps t after) {names : List String} {reached : List String}
    (hfollow : t.follow place names = .ok reached) : after.follow place names = .ok reached := by
  induction names generalizing place with
  | nil => exact hfollow
  | cons name rest ih =>
    rw [FileTree.follow] at hfollow
    split at hfollow
    · cases hfollow
    · cases hfollow
    · next hplace =>
      rw [FileTree.follow, h.directory place hplace]
      dsimp only
      split_ifs at hfollow ⊢
      · exact ih hfollow
      · exact ih hfollow
      · exact ih hfollow

theorem Keeps.origin (h : Keeps t after) (path : String) : after.origin path = t.origin path := by
  rw [FileTree.origin, FileTree.origin, h.here]

/-- A path that can be followed leads to what stands there. -/
theorem entryAt_of_follow {path : String} (hpath : checkPath path = .ok ())
    (hfollow : t.follow (t.origin path) (Path.pieces path) = .ok place) {entry : Entry}
    (hentry : t.find? place = some entry) : t.entryAt path = .ok (place, entry) := by
  simp [entryAt, hpath, hfollow, hentry]

theorem entryAt_eq_ok {path : String} {entry : Entry} (h : t.entryAt path = .ok (place, entry)) :
    checkPath path = .ok () ∧ t.follow (t.origin path) (Path.pieces path) = .ok place ∧
      t.find? place = some entry := by
  unfold entryAt at h
  split at h
  · cases h
  · next hpath =>
    split at h
    · cases h
    · next hfollow =>
      split at h
      · next hentry =>
        cases h
        exact ⟨hpath, hfollow, hentry⟩
      · cases h

/-- The text of a file is read where its path leads. -/
theorem readText_of_entryAt {path text : String}
    (h : t.entryAt path = .ok (place, .file text.toUTF8)) : t.readText path = .ok text := by
  rw [readText, h]
  exact decodeText_toUTF8 text

/-- A path to a directory still leads there. -/
theorem Keeps.entryAt (h : Keeps t after) {path : String}
    (hentry : t.entryAt path = .ok (place, .directory)) :
    after.entryAt path = .ok (place, .directory) := by
  obtain ⟨hpath, hfollow, hfind⟩ := entryAt_eq_ok hentry
  refine entryAt_of_follow hpath ?_ (h.directory place hfind)
  rw [h.origin]
  exact h.follow hfollow

theorem entryAt_root (t : FileTree) : t.entryAt "/" = .ok ([], .directory) := by
  rfl

/-! ## Making an entry -/

/-- The last name of a path, the names before it and the empty ones after it. -/
theorem targetOf_eq_ok {path name : String} (h : t.targetOf path = .ok (place, some name)) :
    checkPath path = .ok () ∧ t.find? place = some .directory ∧
      ∃ names blanks, Path.pieces path = names ++ name :: blanks ∧
        (∀ blank ∈ blanks, blank.isEmpty = true) ∧
        t.follow (t.origin path) names = .ok place := by
  unfold targetOf at h
  split at h
  · cases h
  · next hpath =>
    refine ⟨hpath, ?_⟩
    dsimp only at h
    have hpieces : Path.pieces path =
        ((Path.pieces path).reverse.dropWhile String.isEmpty).reverse
          ++ ((Path.pieces path).reverse.takeWhile String.isEmpty).reverse := by
      rw [← List.reverse_append, List.takeWhile_append_dropWhile, List.reverse_reverse]
    have hblanks : ∀ blank ∈ ((Path.pieces path).reverse.takeWhile String.isEmpty).reverse,
        blank.isEmpty = true :=
      fun blank hblank => List.mem_takeWhile_imp (List.mem_reverse.mp hblank)
    generalize ((Path.pieces path).reverse.dropWhile String.isEmpty).reverse = names at h hpieces
    split at h
    · cases h
    · next hfollow =>
      split at h
      · cases h
      · cases h
      · next hfind =>
        simp only [Except.ok.injEq, Prod.mk.injEq] at h
        obtain ⟨rfl, hlast⟩ := h
        obtain ⟨start, rfl⟩ : ∃ start, names = start ++ [name] :=
          ⟨_, (List.dropLast_append_getLast? name hlast).symm⟩
        rw [List.dropLast_concat] at hfollow
        exact ⟨hfind, start, _, by simpa using hpieces, hblanks, hfollow⟩

/-- After an entry was put at the end of a path, the path leads to it. A slash at the end asks
for a directory. -/
theorem entryAt_put_of_targetOf {path name : String} {entry : Entry}
    (h : t.targetOf path = .ok (place, some name)) (hproper : isProperName name = true)
    (hlength : isTooLong name = false) (hfree : t.find? (place ++ [name]) ≠ some .directory)
    (hslash : entry = .directory ∨ path.toList.getLast? ≠ some '/') :
    (t.put (place ++ [name]) entry).entryAt path = .ok (place ++ [name], entry) := by
  obtain ⟨hpath, hplace, names, blanks, hpieces, hblanks, hfollow⟩ := targetOf_eq_ok h
  have hkeeps := keeps_put hfree entry
  have hfind : (t.put (place ++ [name]) entry).find? (place ++ [name]) = some entry := by
    rw [find?_put (ne_nil_of_find? hfree), if_pos rfl]
  refine entryAt_of_follow hpath ?_ hfind
  have hname := follow_name (hkeeps.directory place hplace) hproper hlength
  have hrest : (t.put (place ++ [name]) entry).follow place (name :: blanks) =
      (t.put (place ++ [name]) entry).follow (place ++ [name]) blanks := by
    rw [← List.singleton_append (l := blanks), follow_append, hname]
  rw [hpieces, hkeeps.origin, follow_append, hkeeps.follow hfollow]
  dsimp only
  rw [hrest]
  rcases hslash with rfl | hslash
  · exact follow_of_isEmpty hfind hblanks
  · have hne : path ≠ "" := by
      rintro rfl
      cases hpath
    rw [Path.eq_nil_of_pieces_eq hne hslash hpieces hblanks]
    rfl

/-- A directory is made at a place where nothing was, and the path leads to it. -/
theorem makeDirectory_eq_ok {path : String} (h : t.makeDirectory path = .ok after) :
    ∃ place, t.find? place = none ∧ after = t.put place .directory ∧
      after.entryAt path = .ok (place, .directory) := by
  unfold makeDirectory at h
  split at h
  · cases h
  · cases h
  · next place name htarget =>
    split_ifs at h with hproper hlength
    split at h
    · cases h
    · next hfree =>
      cases h
      refine ⟨_, hfree, rfl, entryAt_put_of_targetOf htarget ?_ ?_ ?_ (.inl rfl)⟩
      · simpa using hproper
      · simpa using hlength
      · simp [hfree]

/-- A text is written to a place where no directory was, and the path leads to it. -/
theorem writeText_eq_ok {path text : String} (h : t.writeText path text = .ok after) :
    ∃ place, t.find? place ≠ some .directory ∧ after = t.put place (.file text.toUTF8) ∧
      after.entryAt path = .ok (place, .file text.toUTF8) := by
  unfold writeText at h
  split at h
  · cases h
  · cases h
  · next place name htarget =>
    split_ifs at h with hproper hlength
    split at h
    · cases h
    · next hfree =>
      cases h
      rw [Bool.or_eq_true, not_or, decide_eq_true_eq] at hproper
      refine ⟨_, hfree, rfl, entryAt_put_of_targetOf htarget ?_ ?_ hfree (.inr hproper.2)⟩
      · simpa using hproper.1
      · simpa using hlength

/-- A tree with further directories, each at one of the given paths. -/
structure Grown (paths : List String) (t after : FileTree) : Prop where
  here : after.here = t.here
  find? : ∀ place, after.find? place = t.find? place ∨
    t.find? place = none ∧ ∃ path ∈ paths, after.entryAt path = .ok (place, .directory)

theorem Grown.refl (paths : List String) (t : FileTree) : Grown paths t t :=
  ⟨rfl, fun _ => .inl rfl⟩

theorem Grown.keeps {paths : List String} (h : Grown paths t after) : Keeps t after := by
  refine ⟨h.here, fun place hplace => ?_⟩
  rcases h.find? place with heq | ⟨hnone, -⟩
  · rw [heq, hplace]
  · rw [hplace] at hnone
    cases hnone

/-- One more directory at one more path. -/
theorem Grown.put {paths : List String} {path : String} (h : Grown paths t after)
    (hfree : after.find? place = none)
    (hentry : (after.put place .directory).entryAt path = .ok (place, .directory)) :
    Grown (path :: paths) t (after.put place .directory) := by
  have hkeeps : Keeps after (after.put place .directory) := keeps_put (by simp [hfree]) _
  have hne : place ≠ [] := ne_nil_of_find? (t := after) (by simp [hfree])
  refine ⟨hkeeps.here.trans h.here, fun other => ?_⟩
  rw [find?_put hne]
  split_ifs with heq
  · subst heq
    rcases h.find? other with hother | ⟨hnone, -⟩
    · exact .inr ⟨hother ▸ hfree, path, List.mem_cons_self, hentry⟩
    · exact .inr ⟨hnone, path, List.mem_cons_self, hentry⟩
  · refine (h.find? other).imp_right ?_
    rintro ⟨hnone, above, habove, hfound⟩
    exact ⟨hnone, above, List.mem_cons_of_mem _ habove, hkeeps.entryAt hfound⟩

theorem Grown.cons {paths : List String} (h : Grown paths t after) (path : String) :
    Grown (path :: paths) t after :=
  ⟨h.here, fun place => (h.find? place).imp_right fun ⟨hnone, above, habove, hfound⟩ =>
    ⟨hnone, above, List.mem_cons_of_mem _ habove, hfound⟩⟩

/-- Whether all directories could be made or not, those that were made are at their paths. -/
theorem grown_makeDirectories (t : FileTree) (paths : List String) :
    Grown paths t (t.makeDirectories paths).1 := by
  induction paths with
  | nil => exact .refl [] t
  | cons path rest ih =>
    rw [makeDirectories]
    split
    · next made hmade =>
      obtain ⟨place, hfree, rfl, hentry⟩ := makeDirectory_eq_ok hmade
      exact (Grown.refl rest t).put hfree hentry
    · split
      · next hrest =>
        rw [hrest] at ih
        exact ih.cons path
      · next hrest =>
        rw [hrest] at ih
        split
        · next made hmade =>
          obtain ⟨place, hfree, rfl, hentry⟩ := makeDirectory_eq_ok hmade
          exact ih.put hfree hentry
        · exact ih.cons path
    · exact .refl _ t

/-! ## Delivering a text -/

/-- The text can be written to the path once the directories above the path have been made. -/
def CanDeliver (t : FileTree) (path text : String) : Prop :=
  ∃ made written, t.makeDirectories (Path.parents path) = (made, .ok ()) ∧
    made.writeText path text = .ok written

/-- The text is at the path, and nothing else has changed but for directories that the path
goes through, where nothing was before. -/
structure Delivered (t : FileTree) (path text : String) (after : FileTree) : Prop where
  content : after.readText path = .ok text
  here : after.here = t.here
  unchanged : ∀ place, after.find? place = t.find? place ∨
    (∃ entry, after.entryAt path = .ok (place, entry)) ∨
    t.find? place = none ∧ ∃ above rest, path = above ++ "/" ++ rest ∧
      after.entryAt above = .ok (place, .directory)

/-- A text that can be delivered is delivered. -/
theorem delivered_of_canDeliver {path text : String} (h : t.CanDeliver path text) :
    ∃ after, t.deliver path text = (after, .ok ()) ∧ Delivered t path text after := by
  obtain ⟨made, written, hmade, hwritten⟩ := h
  have hgrown : Grown (Path.parents path) t made := by
    have := grown_makeDirectories t (Path.parents path)
    rwa [hmade] at this
  obtain ⟨place, hfree, rfl, hentry⟩ := writeText_eq_ok hwritten
  have hkeeps := keeps_put hfree (.file text.toUTF8)
  refine ⟨_, by simp [deliver, hmade, hwritten], readText_of_entryAt hentry,
    hkeeps.here.trans hgrown.here, fun other => ?_⟩
  rw [find?_put (ne_nil_of_find? hfree)]
  split_ifs with heq
  · subst heq
    exact .inr (.inl ⟨_, hentry⟩)
  · refine (hgrown.find? other).imp_right ?_
    rintro ⟨hnone, above, habove, hfound⟩
    rcases Path.eq_append_of_mem_parents habove with rfl | ⟨rest, hrest⟩
    · rw [entryAt_root] at hfound
      cases hfound
      cases hnone
    · exact .inr ⟨hnone, above, rest, hrest, hkeeps.entryAt hfound⟩

end FileTree

end NodeSchema
