import Mathlib.Data.List.Basic
import NodeSchema.FileTree.Pattern
import NodeSchema.Proofs.Text

/-!
# What a pattern finds

However a pattern goes through a file tree, what it finds ends with a name that the last
component of the pattern matches (`endsLike_of_mem_expand`), if that component is a pattern
for names at all. So each path that the pattern `*.nodes` finds in a directory ends with
`.nodes`, also where the directory is itself a pattern (`suffix_of_mem_matching`).
-/

namespace NodeSchema

namespace FileTree

variable {t : FileTree} {last : Pattern} {path found : String}

/-! ## Components one by one -/

theorem flatMap_filter {α β : Type*} (keep : α → Bool) (visit : α → List β) (items : List α) :
    (items.filter keep).flatMap visit =
      items.flatMap fun item => if keep item then visit item else [] := by
  induction items with
  | nil => rfl
  | cons item items ih => by_cases hitem : keep item = true <;> simp [hitem, ih]

section Components

variable {pattern : Pattern} (rest : List Pattern) (path : String)

theorem expand_anyDepth (h : pattern.isAnyDepth = true) (next : Pattern) :
    t.expand (pattern :: next :: rest) path =
      if next.isAnyDepth then t.expand (next :: rest) path
      else
        t.descend
          (fun found name => if next.matchesName name.toList then t.expand rest found else [])
          t.depth path := by
  rw [expand.eq_def]
  simp [h]

theorem expand_literal (h : pattern.isAnyDepth = false) {text : List Char}
    (htext : pattern.literal? = some text) :
    t.expand (pattern :: rest) path =
      if String.ofList text = "." ∨ String.ofList text = ".." then
        if t.isDirectory path then t.expand rest (below path (String.ofList text)) else []
      else if t.hasEntry (below path (String.ofList text)) then
        t.expand rest (below path (String.ofList text))
      else [] := by
  rw [expand.eq_def]
  simp [h, htext]

theorem expand_special (h : pattern.isAnyDepth = false) (htext : pattern.literal? = none) :
    t.expand (pattern :: rest) path =
      if t.isDirectory path then
        pattern.specialNames.flatMap (fun name => t.expand rest (Path.join path name))
          ++ (t.children path).flatMap fun name =>
            if pattern.matchesName name.toList then t.expand rest (below path name) else []
      else [] := by
  rw [expand.eq_def]
  simp only [h, htext, Bool.false_eq_true, if_false, flatMap_filter]

end Components

/-! ## What is found -/

/-- What is found below a directory is found at one of the names in it or further below. -/
theorem exists_of_mem_descend {visit : String → String → List String} {depth : Nat}
    (h : found ∈ t.descend visit depth path) :
    ∃ above name, found ∈ visit (below above name) name := by
  induction depth generalizing path with
  | zero => cases h
  | succ depth ih =>
    rw [descend, List.mem_flatMap] at h
    obtain ⟨name, -, hname⟩ := h
    rcases List.mem_append.mp hname with hhere | hdeeper
    · exact ⟨path, name, hhere⟩
    · exact ih hdeeper

/-- A component that stands for names : it has special characters, but is no `**`, and does not
start with a dot. -/
structure ForNames (last : Pattern) : Prop where
  depth : last.isAnyDepth = false
  special : last.literal? = none
  dots : last.specialNames = []

/-- A path ends with a name that a component matches. -/
def EndsLike (last : Pattern) (found : String) : Prop :=
  ∃ above name, found = below above name ∧ last.matchesName name.toList = true

theorem endsLike_of_mem_expand_last (hlast : ForNames last) (h : found ∈ t.expand [last] path) :
    EndsLike last found := by
  simp only [expand, hlast.depth, hlast.special, hlast.dots, Bool.false_eq_true, if_false,
    List.flatMap_nil, List.nil_append] at h
  split_ifs at h
  · obtain ⟨name, hname, hfound⟩ := List.mem_flatMap.mp h
    exact ⟨path, name, List.mem_singleton.mp hfound, (List.mem_filter.mp hname).2⟩
  · cases h

/-- What is found with a component that is not the last one is found with the components after
it, or, after a `**`, with those after the next one below a name that this one matches. -/
theorem exists_of_mem_expand_cons {pattern : Pattern} {rest : List Pattern} (hrest : rest ≠ [])
    (h : found ∈ t.expand (pattern :: rest) path) :
    (∃ start, found ∈ t.expand rest start) ∨
      ∃ next others above name, rest = next :: others ∧ next.matchesName name.toList = true ∧
        found ∈ t.expand others (below above name) := by
  obtain ⟨next, others, rfl⟩ := List.exists_cons_of_ne_nil hrest
  rw [expand.eq_def] at h
  dsimp only at h
  by_cases hdepth : pattern.isAnyDepth = true
  · rw [if_pos hdepth] at h
    split_ifs at h
    · exact .inl ⟨path, h⟩
    · obtain ⟨above, name, hfound⟩ := exists_of_mem_descend h
      split_ifs at hfound with hname
      · exact .inr ⟨next, others, above, name, rfl, hname, hfound⟩
      · cases hfound
  · rw [if_neg hdepth] at h
    left
    split at h
    · next text _ =>
      refine ⟨below path (String.ofList text), ?_⟩
      split_ifs at h
      · exact h
      · cases h
      · exact h
      · cases h
    · split_ifs at h
      · rcases List.mem_append.mp h with h | h
        · obtain ⟨name, -, hname⟩ := List.mem_flatMap.mp h
          exact ⟨_, hname⟩
        · obtain ⟨name, -, hname⟩ := List.mem_flatMap.mp h
          exact ⟨_, hname⟩
      · cases h

/-- What is found ends with a name that the last component matches. -/
theorem endsLike_of_mem_expand (hlast : ForNames last) (patterns : List Pattern) {path : String}
    (h : found ∈ t.expand (patterns ++ [last]) path) : EndsLike last found := by
  match patterns with
  | [] => exact endsLike_of_mem_expand_last hlast h
  | pattern :: rest =>
    rcases exists_of_mem_expand_cons (by simp) h with ⟨start, hstart⟩ |
      ⟨next, others, above, name, hrest, hname, hfound⟩
    · exact endsLike_of_mem_expand hlast rest hstart
    · cases rest with
      | nil =>
        cases hrest
        exact ⟨above, name, List.mem_singleton.mp hfound, hname⟩
      | cons first rest =>
        cases hrest
        exact endsLike_of_mem_expand hlast rest hfound
termination_by patterns.length

/-! ## Files with an ending -/

/-- The pattern for names that end with `.nodes`. -/
def nodesPattern : Pattern :=
  .anyText :: ".nodes".toList.map .literal

theorem read_nodesPattern : Pattern.read "*.nodes".toList = .ok nodesPattern := by
  simp [Pattern.read, Pattern.readFrom, nodesPattern]

theorem forNames_nodesPattern : ForNames nodesPattern := by
  constructor <;> rfl

/-- Literal characters match themselves. -/
theorem matchesName_literals {text name : List Char} :
    Pattern.matchesName (text.map .literal) name = true ↔ name = text := by
  induction text generalizing name with
  | nil => simp [Pattern.matchesName_nil]
  | cons c text ih =>
    cases name with
    | nil => simp [Pattern.matchesName, Pattern.matchesTails, Pattern.afterOne]
    | cons d name =>
      rw [List.map_cons, Pattern.matchesName_cons (by simp) (by simp), Bool.and_eq_true, ih]
      simp [Pattern.matchesChar]

theorem suffix_of_endsLike (h : EndsLike nodesPattern found) :
    ".nodes".toList <:+ found.toList := by
  obtain ⟨above, name, rfl, hname⟩ := h
  obtain ⟨tail, htail, hmatch⟩ := Pattern.matchesName_anyText.mp hname
  rw [matchesName_literals.mp hmatch] at htail
  refine htail.trans ?_
  unfold below Path.join
  split_ifs
  · exact List.suffix_refl _
  · rw [String.toList_append]
    exact List.suffix_append _ _
  · rw [String.toList_append]
    exact List.suffix_append _ _

/-- The last component of a pattern for the names in a directory is the one for the names. -/
theorem exists_components_join (directory : String) :
    ∃ front, components (Path.join directory "*.nodes").toList = front ++ ["*.nodes".toList] := by
  have hlast : "*.nodes".toList.splitOn '/' = ["*.nodes".toList] := by decide
  obtain ⟨before, htext⟩ : ∃ before,
      (Path.join directory "*.nodes").toList = before ++ '/' :: "*.nodes".toList := by
    unfold Path.join
    split_ifs with hslash
    · obtain ⟨before, hbefore⟩ := List.getLast?_eq_some_iff.mp hslash
      exact ⟨before, by simp [hbefore]⟩
    · exact ⟨directory.toList, by simp⟩
  obtain ⟨front, hpieces⟩ : ∃ front,
      ((before ++ '/' :: "*.nodes".toList).dropWhile (· = '/')).splitOn '/' =
        front ++ ["*.nodes".toList] := by
    rw [List.dropWhile_append]
    split_ifs
    · exact ⟨[], by decide⟩
    · exact ⟨_, by rw [List.splitOn_append_cons_self, hlast]⟩
  refine ⟨front, ?_⟩
  simp only [components, htext, hpieces, List.getLast?_concat]
  rw [if_neg (by decide)]

theorem exists_of_mapM_concat {front : List (List Char)} {piece : List Char}
    {patterns : List Pattern} (h : (front ++ [piece]).mapM Pattern.read = .ok patterns) :
    ∃ others last, patterns = others ++ [last] ∧ Pattern.read piece = .ok last := by
  rw [List.mapM_append] at h
  cases hfront : front.mapM Pattern.read with
  | error fault => simp [hfront, bind, Except.bind] at h
  | ok others =>
    cases hlast : Pattern.read piece with
    | error fault => simp [hfront, hlast, bind, Except.bind] at h
    | ok last =>
      simp [hfront, hlast, bind, Except.bind, pure, Except.pure] at h
      exact ⟨others, last, h.symm, rfl⟩

/-- What the pattern `*.nodes` finds in a directory ends with `.nodes`. -/
theorem suffix_of_mem_matching {directory : String} {paths : List String}
    (h : t.matching (Path.join directory "*.nodes") = .ok paths) :
    ∀ path ∈ paths, ".nodes".toList <:+ path.toList := by
  obtain ⟨front, hcomponents⟩ := exists_components_join directory
  unfold matching at h
  dsimp only at h
  split at h
  · cases h
  · split at h
    · cases h
    · next patterns hpatterns =>
      rw [hcomponents] at hpatterns
      obtain ⟨others, last, rfl, hlast⟩ := exists_of_mapM_concat hpatterns
      rw [read_nodesPattern, Except.ok.injEq] at hlast
      subst hlast
      cases h
      exact fun path hpath =>
        suffix_of_endsLike (endsLike_of_mem_expand forNames_nodesPattern others hpath)

end FileTree

end NodeSchema
