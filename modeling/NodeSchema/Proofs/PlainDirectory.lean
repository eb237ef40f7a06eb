import NodeSchema.Proofs.Matching
import NodeSchema.Proofs.PathsBelow

/-!
# Directories with plain names

A name without the special characters of patterns is read as a component that stands for itself
(`readFrom_append_of_plain`). So in a directory with such a name the schema files are found by their
own names, in the order in which they stand there (`matching_of_plain`).
-/

namespace NodeSchema

namespace FileTree

variable {t : FileTree} {directory : String}

/-- A character that stands for itself in a pattern. -/
def IsPlain (c : Char) : Prop :=
  c ≠ '?' ∧ c ≠ '*' ∧ c ≠ '['

theorem readFrom_cons_of_plain {c : Char} (hc : IsPlain c) (position : ℕ) (before : Option Char)
    (rest : List Char) :
    Pattern.readFrom position before (c :: rest) =
      (Pattern.readFrom (position + 1) (some c) rest).map (.literal c :: ·) := by
  obtain ⟨hmark, hstar, hbracket⟩ := hc
  rw [Pattern.readFrom]
  · simp only [hmark, hstar, if_false]
    cases Pattern.readFrom (position + 1) (some c) rest <;> rfl
  all_goals simp [hstar, hbracket]

theorem readFrom_nodesPattern (position : ℕ) (before : Option Char) :
    Pattern.readFrom position before "*.nodes".toList = .ok nodesPattern := by
  simp [Pattern.readFrom, nodesPattern]

/-- Plain characters before a pattern are read as themselves. -/
theorem readFrom_append_of_plain {text : List Char} (htext : ∀ c ∈ text, IsPlain c)
    {rest : List Char} {parts : Pattern}
    (hrest : ∀ position before, Pattern.readFrom position before rest = .ok parts)
    (position : ℕ) (before : Option Char) :
    Pattern.readFrom position before (text ++ rest) = .ok (text.map .literal ++ parts) := by
  induction text generalizing position before with
  | nil => exact hrest position before
  | cons c text ih =>
    obtain ⟨hc, htext⟩ := List.forall_mem_cons.mp htext
    rw [List.cons_append, readFrom_cons_of_plain hc, ih htext]
    rfl

theorem literal?_map_literal (text : List Char) :
    Pattern.literal? (text.map .literal) = some text := by
  induction text with
  | nil => rfl
  | cons c text ih => rw [List.map_cons, Pattern.literal?, ih]; rfl

theorem isAnyDepth_map_literal (text : List Char) :
    Pattern.isAnyDepth (text.map .literal) = false := by
  simp [Pattern.isAnyDepth]

/-- The schema files in a directory with a plain name are those of its names that end like
them. -/
theorem matching_of_plain (hplain : ∀ c ∈ directory.toList, IsPlain c ∧ c ≠ '/')
    (hne : directory ≠ "" ∧ directory ≠ "." ∧ directory ≠ "..")
    (h : t.isDirectory directory = true) :
    t.matching (Path.join directory "*.nodes") = .ok (((t.children directory).filter fun name =>
      nodesPattern.matchesName name.toList).map (Path.join directory)) := by
  have hslash : '/' ∉ directory.toList := fun hmem => (hplain '/' hmem).2 rfl
  have hjoin : (Path.join directory "*.nodes").toList =
      directory.toList ++ '/' :: "*.nodes".toList := by
    rw [Path.join, if_neg fun hlast => hslash (List.mem_of_getLast? hlast)]
    simp
  obtain ⟨c, rest, hdirectory⟩ :=
    List.exists_cons_of_ne_nil (show directory.toList ≠ [] by simpa using hne.1)
  have hc : c ≠ '/' := (hplain c (by simp [hdirectory])).2
  have hrelative : Path.isAbsolute (Path.join directory "*.nodes") = false := by
    simp [Path.isAbsolute, hjoin, hdirectory, hc]
  have hcomponents : components (Path.join directory "*.nodes").toList =
      [directory.toList, "*.nodes".toList] := by
    have hstart : (directory.toList ++ '/' :: "*.nodes".toList).dropWhile (· = '/') =
        directory.toList ++ '/' :: "*.nodes".toList := by
      rw [hdirectory, List.cons_append, List.dropWhile_cons_of_neg (by simpa using hc)]
    have hsplit : (directory.toList ++ '/' :: "*.nodes".toList).splitOn '/' =
        [directory.toList, "*.nodes".toList] := by
      rw [List.splitOn_append_cons_self_of_not_mem hslash]
      rfl
    simp only [components, hjoin, hstart, hsplit]
    rfl
  have hchars : ∀ c ∈ directory.toList, IsPlain c := fun c hmem => (hplain c hmem).1
  have hwhole : Pattern.read (Path.join directory "*.nodes").toList =
      .ok ((directory.toList ++ ['/']).map .literal ++ nodesPattern) := by
    rw [hjoin, List.append_cons, Pattern.read]
    refine readFrom_append_of_plain (fun c hmem => ?_) readFrom_nodesPattern _ _
    rcases List.mem_append.mp hmem with hmem | hmem
    · exact hchars c hmem
    · rw [List.mem_singleton.mp hmem]
      exact ⟨by decide, by decide, by decide⟩
  have hname : Pattern.read directory.toList = .ok (directory.toList.map .literal) := by
    have hread : Pattern.readFrom 0 none (directory.toList ++ []) =
        .ok (directory.toList.map .literal ++ []) :=
      readFrom_append_of_plain hchars (fun _ _ => by rw [Pattern.readFrom]) 0 none
    simpa [Pattern.read] using hread
  have hparts : [directory.toList, "*.nodes".toList].mapM Pattern.read =
      .ok [directory.toList.map .literal, nodesPattern] := by
    rw [List.mapM_cons, List.mapM_cons, hname, read_nodesPattern]
    rfl
  have hbelow (name : String) : below directory name = Path.join directory name := by
    rw [below, if_neg]
    simp [Path.isCurrent, pieces_of_not_mem hslash, hne]
  have hentry : t.hasEntry directory = true := by
    obtain ⟨place, hplace⟩ := isDirectory_iff.mp h
    rw [hasEntry, hplace]
  have hexpand : t.expand [directory.toList.map .literal, nodesPattern] "." =
      ((t.children directory).filter fun name => nodesPattern.matchesName name.toList).map
        (Path.join directory) := by
    have hfound : below "." directory = directory := rfl
    rw [expand_literal _ _ (isAnyDepth_map_literal _) (literal?_map_literal _),
      String.ofList_toList, if_neg (not_or.mpr hne.2), hfound, if_pos hentry,
      expand_special _ _ forNames_nodesPattern.depth forNames_nodesPattern.special, if_pos h,
      forNames_nodesPattern.dots, List.flatMap_nil, List.nil_append, ← flatMap_filter]
    simp only [expand, hbelow, ← List.map_eq_flatMap]
  rw [matching, hwhole]
  dsimp only
  rw [hcomponents, hparts]
  dsimp only
  rw [hrelative, if_neg Bool.false_ne_true, hexpand]

end FileTree

end NodeSchema
