import NodeSchema.Proofs.Delivery

/-!
# What a path looks at

Only the places that a path goes through (`GoesThrough`) are looked at when it is followed, and
only there is anything put. So two trees that differ at one place (`SameBut`) are the same for
every path that does not go through it : the same text is read, and a delivery makes the same
changes, fails for the same reason, and leaves alone what stands at that place
(`SameBut.deliver`).
-/

namespace NodeSchema

namespace Path

theorem ne_nil_of_mem_prefixesFrom {above before : List Char} {pieces : List (List Char)}
    (h : above ∈ prefixesFrom before pieces) : above ≠ [] := by
  induction pieces generalizing before with
  | nil => simp [prefixesFrom] at h
  | cons piece rest ih =>
    rw [prefixesFrom, List.mem_append] at h
    rcases h with h | h
    · split_ifs at h with hpiece
      · simp [List.mem_singleton.mp h]
      · cases h
      · cases h
      · rw [List.mem_singleton.mp h]
        simp_all
    · exact ih h

theorem ne_empty_of_mem_parents {path above : String} (h : above ∈ parents path) :
    above ≠ "" := by
  obtain ⟨whole, hwhole, rfl⟩ := List.mem_map.mp h
  have := ne_nil_of_mem_prefixesFrom ((List.dropLast_subset _) (List.mem_reverse.mp hwhole))
  simpa using this

end Path

namespace FileTree

variable {t other after otherAfter : FileTree} {place start reached : List String} {path : String}

/-! ## The places of a path -/

theorem self_mem_trail (start : List String) (names : List String) : start ∈ trail start names := by
  induction names with
  | nil => simp [trail]
  | cons name rest ih =>
    rw [trail]
    split_ifs
    · exact ih
    · exact List.mem_cons_self
    · exact List.mem_cons_self

theorem mem_trail_append {names : List String} (h : place ∈ trail start names)
    (more : List String) : place ∈ trail start (names ++ more) := by
  induction names generalizing start with
  | nil =>
    rw [trail, List.mem_singleton] at h
    subst h
    exact self_mem_trail _ _
  | cons name rest ih =>
    rw [trail] at h
    rw [List.cons_append, trail]
    split_ifs at h ⊢
    · exact ih h
    · exact (List.mem_cons.mp h).elim (fun heq => heq ▸ List.mem_cons_self)
        fun h => List.mem_cons_of_mem _ (ih h)
    · exact (List.mem_cons.mp h).elim (fun heq => heq ▸ List.mem_cons_self)
        fun h => List.mem_cons_of_mem _ (ih h)

/-- After names that lead to a place come the places from there on. -/
theorem mem_trail_of_follow {names more : List String}
    (hfollow : t.follow start names = .ok reached) (h : place ∈ trail reached more) :
    place ∈ trail start (names ++ more) := by
  induction names generalizing start with
  | nil =>
    cases hfollow
    exact h
  | cons name rest ih =>
    rw [follow] at hfollow
    rw [List.cons_append, trail]
    split at hfollow
    · cases hfollow
    · cases hfollow
    · split_ifs at hfollow ⊢
      · exact ih hfollow
      · exact List.mem_cons_of_mem _ (ih hfollow)
      · exact List.mem_cons_of_mem _ (ih hfollow)

/-- A place that is looked at when a path is followed. -/
def GoesThrough (t : FileTree) (path : String) (place : List String) : Prop :=
  place ∈ trail (t.origin path) (Path.pieces path)

instance (t : FileTree) (path : String) (place : List String) :
    Decidable (t.GoesThrough path place) :=
  inferInstanceAs (Decidable (place ∈ trail (t.origin path) (Path.pieces path)))

theorem goesThrough_congr (h : other.here = t.here) (path : String) (place : List String) :
    other.GoesThrough path place ↔ t.GoesThrough path place := by
  rw [GoesThrough, GoesThrough, origin, origin, h]

/-- A path goes through the entry that it can make. -/
theorem goesThrough_of_targetOf {name : String} (h : t.targetOf path = .ok (place, some name))
    (hproper : isProperName name = true) : t.GoesThrough path (place ++ [name]) := by
  obtain ⟨-, -, names, blanks, hpieces, -, hfollow⟩ := targetOf_eq_ok h
  simp only [isProperName, Bool.not_eq_true', Bool.or_eq_false_iff, decide_eq_false_iff_not]
    at hproper
  have hname : place ++ [name] ∈ trail place (name :: blanks) := by
    rw [trail, if_neg (by simp [hproper]), if_neg hproper.2]
    exact List.mem_cons_of_mem _ (self_mem_trail _ _)
  rw [GoesThrough, hpieces]
  exact mem_trail_of_follow hfollow hname

/-- A path goes through all places that the directories above it go through. -/
theorem goesThrough_of_mem_parents {above : String} (habove : above ∈ Path.parents path)
    (hplace : place ≠ []) (h : t.GoesThrough above place) : t.GoesThrough path place := by
  rcases Path.eq_append_of_mem_parents habove with rfl | ⟨rest, rfl⟩
  · exact absurd (List.mem_singleton.mp (show place ∈ [[]] from h)) hplace
  · have hne : above.toList ≠ [] := by
      simpa using Path.ne_empty_of_mem_parents habove
    have horigin : t.origin (above ++ "/" ++ rest) = t.origin above := by
      obtain ⟨c, cs, hcs⟩ := List.exists_cons_of_ne_nil hne
      simp [origin, Path.isAbsolute, hcs]
    have hpieces : Path.pieces (above ++ "/" ++ rest) = Path.pieces above ++ Path.pieces rest := by
      have htext : (above ++ "/" ++ rest).toList = above.toList ++ '/' :: rest.toList := by simp
      rw [Path.pieces, htext, List.splitOn_append_cons_self, List.map_append]
      rfl
    rw [GoesThrough, horigin, hpieces]
    exact mem_trail_append h _

/-! ## Two trees -/

/-- Two trees that differ at one place at most. -/
structure SameBut (place : List String) (t other : FileTree) : Prop where
  here : other.here = t.here
  find? : ∀ p, p ≠ place → other.find? p = t.find? p

section SameBut

variable (h : SameBut place t other)
include h

theorem SameBut.follow {names : List String} (hplace : place ∉ trail start names) :
    other.follow start names = t.follow start names := by
  induction names generalizing start with
  | nil => rfl
  | cons name rest ih =>
    have hstart : start ≠ place := by
      rintro rfl
      exact hplace (self_mem_trail _ _)
    rw [trail] at hplace
    rw [FileTree.follow, FileTree.follow, h.find? start hstart]
    split
    · rfl
    · rfl
    · split_ifs at hplace ⊢
      · exact ih hplace
      · exact ih (List.not_mem_of_not_mem_cons hplace)
      · rfl
      · exact ih (List.not_mem_of_not_mem_cons hplace)

theorem SameBut.origin (path : String) : other.origin path = t.origin path := by
  rw [FileTree.origin, FileTree.origin, h.here]

variable (hpath : ¬t.GoesThrough path place)
include hpath

theorem SameBut.entryAt : other.entryAt path = t.entryAt path := by
  rw [FileTree.entryAt, FileTree.entryAt, h.origin, h.follow hpath]
  split
  · rfl
  · split
    · rfl
    · next reached hfollow =>
      have hreached : reached ∈ trail (t.origin path) (Path.pieces path) := by
        have := mem_trail_of_follow hfollow (self_mem_trail reached [])
        rwa [List.append_nil] at this
      rw [h.find? reached]
      rintro rfl
      exact hpath hreached

theorem SameBut.readText : other.readText path = t.readText path := by
  rw [FileTree.readText, FileTree.readText, h.entryAt hpath]

theorem SameBut.isDirectory : other.isDirectory path = t.isDirectory path := by
  rw [FileTree.isDirectory, FileTree.isDirectory, h.entryAt hpath]

theorem SameBut.targetOf : other.targetOf path = t.targetOf path := by
  rw [FileTree.targetOf, FileTree.targetOf, h.origin]
  split
  · rfl
  · dsimp only
    obtain ⟨more, hmore⟩ : ((Path.pieces path).reverse.dropWhile String.isEmpty).reverse.dropLast
        <+: Path.pieces path :=
      (List.dropLast_prefix _).trans
        (List.reverse_suffix.mp (by simpa using List.dropWhile_suffix String.isEmpty))
    generalize ((Path.pieces path).reverse.dropWhile String.isEmpty).reverse = names at hmore ⊢
    have htrail : ∀ p ∈ trail (t.origin path) names.dropLast, p ≠ place := by
      rintro p hp rfl
      refine hpath ?_
      rw [GoesThrough, ← hmore]
      exact mem_trail_append hp more
    rw [h.follow fun hmem => htrail place hmem rfl]
    split
    · rfl
    · next reached hfollow =>
      have hreached := mem_trail_of_follow hfollow (self_mem_trail reached [])
      rw [List.append_nil] at hreached
      rw [h.find? reached (htrail reached hreached)]

end SameBut

/-! ## The same changes in two trees -/

/-- After the same changes away from a place : the trees still differ there at most, and what
each has there is what it had. -/
structure SameChange (place : List String) (t other after otherAfter : FileTree) : Prop where
  same : SameBut place after otherAfter
  here : after.here = t.here
  left : after.find? place = t.find? place
  right : otherAfter.find? place = other.find? place

theorem SameBut.unchanged (h : SameBut place t other) : SameChange place t other t other :=
  ⟨h, rfl, rfl, rfl⟩

theorem SameChange.trans {last otherLast : FileTree} (h : SameChange place t other after otherAfter)
    (hlast : SameChange place after otherAfter last otherLast) :
    SameChange place t other last otherLast :=
  ⟨hlast.same, hlast.here.trans h.here, hlast.left.trans h.left, hlast.right.trans h.right⟩

/-- The same entry at the same other place. -/
theorem SameBut.put (h : SameBut place t other) {spot : List String} (hspot : spot ≠ [])
    (hne : spot ≠ place) (entry : Entry) :
    SameChange place t other (t.put spot entry) (other.put spot entry) := by
  refine ⟨⟨h.here, fun p hp => ?_⟩, rfl, ?_, ?_⟩
  · rw [find?_put hspot, find?_put hspot, h.find? p hp]
  · rw [find?_put hspot, if_neg hne.symm]
  · rw [find?_put hspot, if_neg hne.symm]

/-- The outcomes of one step in two trees : it fails in both for one reason, or makes the same
change in both. -/
inductive SameOutcome (place : List String) (t other : FileTree) :
    Except FileError FileTree → Except FileError FileTree → Prop
  | error (cause : FileError) : SameOutcome place t other (.error cause) (.error cause)
  | ok {after otherAfter : FileTree} (h : SameChange place t other after otherAfter) :
      SameOutcome place t other (.ok after) (.ok otherAfter)

/-- The outcomes of several steps, of which some may be made before one fails : the same changes
with the same result. -/
inductive SameResult {ε : Type} (place : List String) (t other : FileTree) :
    FileTree × Except ε Unit → FileTree × Except ε Unit → Prop
  | of {after otherAfter : FileTree} (result : Except ε Unit)
      (h : SameChange place t other after otherAfter) :
      SameResult place t other (after, result) (otherAfter, result)

section SameBut

variable (h : SameBut place t other)
include h

theorem SameBut.makeDirectory (hpath : ¬t.GoesThrough path place) :
    SameOutcome place t other (t.makeDirectory path) (other.makeDirectory path) := by
  rw [FileTree.makeDirectory, FileTree.makeDirectory, h.targetOf hpath]
  split
  · exact .error _
  · exact .error _
  · next above name htarget =>
    split_ifs with hproper hlength
    · exact .error _
    · exact .error _
    · have hne : above ++ [name] ≠ place := by
        rintro rfl
        exact hpath (goesThrough_of_targetOf htarget (by simpa using hproper))
      rw [h.find? _ hne]
      split
      · exact .error _
      · exact .ok (h.put (by simp) hne .directory)

theorem SameBut.writeText (hpath : ¬t.GoesThrough path place) (text : String) :
    SameOutcome place t other (t.writeText path text) (other.writeText path text) := by
  rw [FileTree.writeText, FileTree.writeText, h.targetOf hpath]
  split
  · exact .error _
  · exact .error _
  · next above name htarget =>
    split_ifs with hproper hlength
    · exact .error _
    · exact .error _
    · rw [Bool.or_eq_true, not_or] at hproper
      have hne : above ++ [name] ≠ place := by
        rintro rfl
        exact hpath (goesThrough_of_targetOf htarget (by simpa using hproper.1))
      rw [h.find? _ hne]
      split
      · exact .error _
      · exact .ok (h.put (by simp) hne _)

/-- The same directories are made, as far as they can be. -/
theorem SameBut.makeDirectories {paths : List String}
    (hpaths : ∀ path ∈ paths, ¬t.GoesThrough path place) :
    SameResult place t other (t.makeDirectories paths) (other.makeDirectories paths) := by
  induction paths with
  | nil => exact .of _ h.unchanged
  | cons path rest ih =>
    obtain ⟨hpath, hrest⟩ := List.forall_mem_cons.mp hpaths
    have habove := ih hrest
    have hfirst := h.makeDirectory hpath
    rw [FileTree.makeDirectories, FileTree.makeDirectories, h.isDirectory hpath]
    generalize t.makeDirectory path = made at hfirst
    generalize other.makeDirectory path = otherMade at hfirst
    cases hfirst with
    | ok hmade => exact .of _ hmade
    | error cause =>
      cases cause with
      | notFound =>
        generalize t.makeDirectories rest = above at habove
        generalize other.makeDirectories rest = otherAbove at habove
        cases habove with
        | @of above otherAbove result hchange =>
          cases result with
          | error cause => exact .of _ hchange
          | ok =>
            have hpath' : ¬above.GoesThrough path place := by
              rwa [goesThrough_congr hchange.here]
            have hsecond := hchange.same.makeDirectory hpath'
            dsimp only
            rw [hchange.same.isDirectory hpath']
            generalize above.makeDirectory path = made at hsecond
            generalize otherAbove.makeDirectory path = otherMade at hsecond
            cases hsecond with
            | ok hmade => exact .of _ (hchange.trans hmade)
            | error cause => exact .of _ hchange
      | _ => exact .of _ h.unchanged

/-- A text is delivered in the same way to a path that does not go through the place where the
trees differ. -/
theorem SameBut.deliver (hplace : place ≠ []) (hpath : ¬t.GoesThrough path place) (text : String) :
    SameResult place t other (t.deliver path text) (other.deliver path text) := by
  have hparents : ∀ above ∈ Path.parents path, ¬t.GoesThrough above place :=
    fun above habove hgoes => hpath (goesThrough_of_mem_parents habove hplace hgoes)
  have hmade := h.makeDirectories hparents
  rw [FileTree.deliver, FileTree.deliver]
  generalize t.makeDirectories (Path.parents path) = made at hmade
  generalize other.makeDirectories (Path.parents path) = otherMade at hmade
  cases hmade with
  | @of made otherMade result hchange =>
    cases result with
    | error cause => exact .of _ hchange
    | ok =>
      have hpath' : ¬made.GoesThrough path place := by
        rwa [goesThrough_congr hchange.here]
      have hwritten := hchange.same.writeText hpath' text
      dsimp only
      generalize made.writeText path text = written at hwritten
      generalize otherMade.writeText path text = otherWritten at hwritten
      cases hwritten with
      | error cause => exact .of _ hchange
      | ok hafter => exact .of _ (hchange.trans hafter)

end SameBut

end FileTree

end NodeSchema
