import Mathlib.Data.List.TakeWhile
import NodeSchema.Text.Blank
import NodeSchema.Text.Cut
import NodeSchema.Text.Lines

/-!
# Texts taken apart and put together

Trimming, cutting into words, cutting at a mark, and cutting into lines, each with the
texts that it gives back. Every statement is an equation for a text that is written as
its parts, or says that a text can be written so.

`words_eq_pair_iff` : a text has exactly two words if it is the two words with white
space around and between them. `mem_splitOnP_iff` : the pieces of a text between marks
are its runs without marks that no mark-free neighbour extends.
-/

namespace NodeSchema.Text

/-! ## White space at the ends -/

/-- A text of white space only. -/
def Blank (s : List Char) : Prop :=
  ∀ c ∈ s, isBlank c = true

/-- A text without white space. -/
def Solid (s : List Char) : Prop :=
  ∀ c ∈ s, isBlank c = false

theorem blank_nil : Blank [] := by
  simp [Blank]

theorem not_mem_of_blank {c : Char} (hc : isBlank c = false) {s : List Char} (h : Blank s) :
    c ∉ s := by
  intro hmem
  rw [h c hmem] at hc
  cases hc

theorem blank_iff_all {s : List Char} : Blank s ↔ s.all isBlank = true := by
  simp [Blank]

theorem trimStart_append {before : List Char} (h : Blank before) (s : List Char) :
    trimStart (before ++ s) = trimStart s :=
  List.dropWhile_append_of_pos h

theorem trimEnd_append {after : List Char} (h : Blank after) (s : List Char) :
    trimEnd (s ++ after) = trimEnd s := by
  unfold trimEnd
  rw [List.reverse_append, List.dropWhile_append_of_pos fun c hc => h c (List.mem_reverse.mp hc)]

theorem trimEnd_of_blank {s : List Char} (h : Blank s) : trimEnd s = [] := by
  simpa [trimEnd] using trimEnd_append h []

theorem dropWhile_of_solid {s : List Char} (h : Solid s) : s.dropWhile isBlank = s := by
  cases s with
  | nil => rfl
  | cons c rest => rw [List.dropWhile_cons_of_neg (by simp [h c])]

theorem trimEnd_of_solid {s : List Char} (h : Solid s) : trimEnd s = s := by
  unfold trimEnd
  rw [dropWhile_of_solid fun c hc => h c (List.mem_reverse.mp hc), List.reverse_reverse]

/-- White space around a text without white space is what trimming removes. -/
theorem trim_append {before word after : List Char} (hbefore : Blank before)
    (hword : Solid word) (hafter : Blank after) : trim (before ++ word ++ after) = word := by
  unfold trim
  rw [List.append_assoc, trimStart_append hbefore]
  cases word with
  | nil => exact trimEnd_of_blank fun c hc => hafter c (List.dropWhile_subset _ hc)
  | cons c rest =>
    have hstart : trimStart (c :: rest ++ after) = c :: rest ++ after :=
      List.dropWhile_cons_of_neg (by simp [hword c])
    rw [hstart, trimEnd_append hafter, trimEnd_of_solid hword]

theorem exists_eq_trimEnd (s : List Char) : ∃ after, Blank after ∧ s = trimEnd s ++ after := by
  refine ⟨(s.reverse.takeWhile isBlank).reverse, fun c hc => ?_, ?_⟩
  · exact List.mem_takeWhile_imp (List.mem_reverse.mp hc)
  · rw [trimEnd, ← List.reverse_append, List.takeWhile_append_dropWhile, List.reverse_reverse]

/-- A text is what trimming leaves of it, with white space around. -/
theorem exists_eq_trim (s : List Char) :
    ∃ before after, Blank before ∧ Blank after ∧ s = before ++ trim s ++ after := by
  obtain ⟨after, hafter, heq⟩ := exists_eq_trimEnd (trimStart s)
  refine ⟨s.takeWhile isBlank, after, fun c => List.mem_takeWhile_imp, hafter, ?_⟩
  rw [List.append_assoc, trim, ← heq, trimStart, List.takeWhile_append_dropWhile]

theorem mem_of_mem_trim {c : Char} {s : List Char} (h : c ∈ trim s) : c ∈ s := by
  obtain ⟨before, after, -, -, heq⟩ := exists_eq_trim s
  rw [heq]
  simp [h]

theorem trim_eq_nil_iff {s : List Char} : trim s = [] ↔ Blank s := by
  refine ⟨fun h => ?_, fun h => ?_⟩
  · obtain ⟨before, after, hbefore, hafter, heq⟩ := exists_eq_trim s
    rw [heq, h, List.append_nil]
    intro c hc
    exact (List.mem_append.mp hc).elim (hbefore c) (hafter c)
  · simpa using trim_append h (fun c hc => (List.not_mem_nil hc).elim) blank_nil

theorem trim_blank_append {before : List Char} (h : Blank before) (s : List Char) :
    trim (before ++ s) = trim s := by
  rw [trim, trimStart_append h, trim]

theorem trim_append_blank {after : List Char} (h : Blank after) (s : List Char) :
    trim (s ++ after) = trim s := by
  by_cases hs : Blank s
  · rw [trim_eq_nil_iff.mpr hs, trim_eq_nil_iff]
    exact List.forall_mem_append.mpr ⟨hs, h⟩
  · have hne : ¬(s.dropWhile isBlank).isEmpty = true := by
      rwa [List.isEmpty_iff, List.dropWhile_eq_nil_iff]
    have hstart : trimStart (s ++ after) = trimStart s ++ after := by
      rw [trimStart, List.dropWhile_append, if_neg hne, trimStart]
    rw [trim, hstart, trimEnd_append h, trim]

theorem trim_trim (s : List Char) : trim (trim s) = trim s := by
  obtain ⟨before, after, hbefore, hafter, heq⟩ := exists_eq_trim s
  calc trim (trim s) = trim (before ++ trim s ++ after) := by
        rw [trim_append_blank hafter, trim_blank_append hbefore]
    _ = trim s := by rw [← heq]

/-! ## Words -/

/-- A text falls apart at white space : the words before it and the words after it. -/
theorem words_append_cons {c : Char} (hc : isBlank c = true) (s t : List Char) :
    words (s ++ c :: t) = words s ++ words t := by
  unfold words
  rw [List.splitOnP_append_cons s t hc, List.filter_append]

theorem words_of_solid {s : List Char} (hs : Solid s) (hne : s ≠ []) : words s = [s] := by
  unfold words
  rw [List.splitOnP_eq_singleton hs]
  simp [hne]

@[simp] theorem words_nil : words [] = [] := by
  simp [words]

theorem words_append {before : List Char} (h : Blank before) (s : List Char) :
    words (before ++ s) = words s := by
  induction before with
  | nil => rfl
  | cons c rest ih =>
    have hrest : words (rest ++ s) = words s := ih fun x hx => h x (List.mem_cons_of_mem _ hx)
    simpa [hrest] using words_append_cons (h c List.mem_cons_self) [] (rest ++ s)

theorem words_of_blank {s : List Char} (h : Blank s) : words s = [] := by
  simpa using words_append h []

theorem words_append_blank {after : List Char} (h : Blank after) (s : List Char) :
    words (s ++ after) = words s := by
  cases after with
  | nil => rw [List.append_nil]
  | cons c rest =>
    obtain ⟨hc, hrest⟩ := List.forall_mem_cons.mp h
    rw [words_append_cons hc, words_of_blank hrest, List.append_nil]

/-- White space at the ends of a text is no part of its words. -/
theorem words_trim (s : List Char) : words (trim s) = words s := by
  obtain ⟨before, after, hbefore, hafter, heq⟩ := exists_eq_trim s
  calc words (trim s) = words (before ++ trim s ++ after) := by
        rw [words_append_blank hafter, words_append hbefore]
    _ = words s := by rw [← heq]

/-- A word is the first one of a text that goes on with white space or not at all. -/
theorem words_solid_append {word s : List Char} (hword : Solid word) (hne : word ≠ [])
    (hs : ∀ c ∈ s.head?, isBlank c = true) : words (word ++ s) = word :: words s := by
  cases s with
  | nil => simpa using words_of_solid hword hne
  | cons c rest =>
    have hc : isBlank c = true := hs c rfl
    have hrest : words (c :: rest) = words rest := by simpa using words_append_cons hc [] rest
    rw [words_append_cons hc, words_of_solid hword hne, hrest, List.singleton_append]

/-- A text that is not blank starts, after white space, with its first word. -/
theorem exists_words_eq_cons {s : List Char} (h : ¬Blank s) :
    ∃ before word rest, Blank before ∧ Solid word ∧ word ≠ [] ∧
      (∀ c ∈ rest.head?, isBlank c = true) ∧ s = before ++ word ++ rest ∧
      words s = word :: words rest := by
  have hs : s = s.takeWhile isBlank ++ s.dropWhile isBlank := List.takeWhile_append_dropWhile.symm
  have hbefore : Blank (s.takeWhile isBlank) := fun c => List.mem_takeWhile_imp
  have hne : s.dropWhile isBlank ≠ [] := fun hnil => h (List.dropWhile_eq_nil_iff.mp hnil)
  have hhead : ∀ c ∈ (s.dropWhile isBlank).head?, isBlank c = false := by
    intro c hc
    have := List.head?_dropWhile_not isBlank s
    rw [Option.mem_def.mp hc] at this
    simpa using this
  generalize s.takeWhile isBlank = before, s.dropWhile isBlank = tail at hs hbefore hne hhead
  have htail : tail = tail.takeWhile (!isBlank ·) ++ tail.dropWhile (!isBlank ·) :=
    List.takeWhile_append_dropWhile.symm
  have hsolid : Solid (tail.takeWhile (!isBlank ·)) := fun c hc => by
    simpa using List.mem_takeWhile_imp hc
  have hword : tail.takeWhile (!isBlank ·) ≠ [] := by
    cases tail with
    | nil => exact absurd rfl hne
    | cons c rest => simp [hhead c rfl]
  have hrest : ∀ c ∈ (tail.dropWhile (!isBlank ·)).head?, isBlank c = true := by
    intro c hc
    have := List.head?_dropWhile_not (!isBlank ·) tail
    rw [Option.mem_def.mp hc] at this
    simpa using this
  refine ⟨before, _, _, hbefore, hsolid, hword, hrest, ?_, ?_⟩
  · rw [List.append_assoc, ← htail, hs]
  · rw [hs, words_append hbefore, ← words_solid_append hsolid hword hrest, ← htail]

theorem words_eq_nil_iff {s : List Char} : words s = [] ↔ Blank s := by
  refine ⟨fun h => ?_, words_of_blank⟩
  by_contra hs
  obtain ⟨_, _, _, -, -, -, -, -, hwords⟩ := exists_words_eq_cons hs
  simp [hwords] at h

/-- The first word of a text, with what stands before it and what remains. -/
theorem eq_append_of_words_eq_cons {s word : List Char} {more : List (List Char)}
    (h : words s = word :: more) :
    ∃ before rest, Blank before ∧ Solid word ∧ word ≠ [] ∧ (∀ c ∈ rest.head?, isBlank c = true) ∧
      s = before ++ word ++ rest ∧ words rest = more := by
  have hs : ¬Blank s := fun hb => by simp [words_of_blank hb] at h
  obtain ⟨before, first, rest, hbefore, hsolid, hne, hrest, heq, hwords⟩ := exists_words_eq_cons hs
  obtain ⟨rfl, rfl⟩ := List.cons.inj (hwords.symm.trans h)
  exact ⟨before, rest, hbefore, hsolid, hne, hrest, heq, rfl⟩

/-- A text has exactly two words if it consists of them with white space around, and some
white space between them. -/
theorem words_eq_pair_iff {s first second : List Char} :
    words s = [first, second] ↔ ∃ before between after,
      Blank before ∧ Blank between ∧ between ≠ [] ∧ Blank after ∧
      (Solid first ∧ first ≠ []) ∧ (Solid second ∧ second ≠ []) ∧
      s = before ++ first ++ between ++ second ++ after := by
  refine ⟨fun h => ?_, ?_⟩
  · obtain ⟨before, rest, hbefore, hfirst, hfirstne, hhead, rfl, hrest⟩ :=
      eq_append_of_words_eq_cons h
    obtain ⟨between, after, hbetween, hsecond, hsecondne, -, rfl, hafter⟩ :=
      eq_append_of_words_eq_cons hrest
    refine ⟨before, between, after, hbefore, hbetween, ?_, words_eq_nil_iff.mp hafter,
      ⟨hfirst, hfirstne⟩, ⟨hsecond, hsecondne⟩, by simp⟩
    -- without white space between them the second word would go on the first
    rintro rfl
    obtain ⟨c, rest, rfl⟩ := List.exists_cons_of_ne_nil hsecondne
    have hblank : isBlank c = true := hhead c rfl
    simp [hsecond c List.mem_cons_self] at hblank
  · rintro ⟨before, between, after, hbefore, hbetween, hne, hafter, ⟨hfirst, hfirstne⟩,
      ⟨hsecond, hsecondne⟩, rfl⟩
    have hhead : ∀ c ∈ (between ++ (second ++ after)).head?, isBlank c = true := by
      obtain ⟨c, rest, rfl⟩ := List.exists_cons_of_ne_nil hne
      simpa using hbetween c List.mem_cons_self
    have hafterHead : ∀ c ∈ after.head?, isBlank c = true :=
      fun c hc => hafter c (List.mem_of_mem_head? hc)
    simp only [List.append_assoc]
    rw [words_append hbefore, words_solid_append hfirst hfirstne hhead, words_append hbetween,
      words_solid_append hsecond hsecondne hafterHead, words_of_blank hafter]

/-! ## One cut -/

theorem cutAt_of_not_mem {mark : Char} {s : List Char} (h : mark ∉ s) :
    cutAt mark s = (s, none) := by
  induction s with
  | nil => rfl
  | cons c rest ih =>
    have hc : c ≠ mark := (List.ne_of_not_mem_cons h).symm
    rw [cutAt, if_neg hc, ih (List.not_mem_of_not_mem_cons h)]

theorem cutAt_append {mark : Char} {head : List Char} (h : mark ∉ head) (tail : List Char) :
    cutAt mark (head ++ mark :: tail) = (head, some tail) := by
  induction head with
  | nil => simp [cutAt]
  | cons c rest ih =>
    have hc : c ≠ mark := (List.ne_of_not_mem_cons h).symm
    rw [List.cons_append, cutAt, if_neg hc, ih (List.not_mem_of_not_mem_cons h)]

/-! ## All pieces -/

section Pieces

variable {α : Type*} {p : α → Bool}

theorem exists_eq_append_of_mem_splitOnP {piece : List α} (s run : List α)
    (hrun : ∀ c ∈ run, p c = false) (h : piece ∈ (run ++ s).splitOnP p) :
    (∀ c ∈ piece, p c = false) ∧ ∃ before after, run ++ s = before ++ piece ++ after ∧
      (∀ c ∈ before.getLast?, p c = true) ∧ ∀ c ∈ after.head?, p c = true := by
  -- the induction carries the run of the piece that is being read
  induction s generalizing run with
  | nil =>
    rw [List.append_nil, List.splitOnP_eq_singleton hrun, List.mem_singleton] at h
    exact ⟨h ▸ hrun, [], [], by simp [h], by simp, by simp⟩
  | cons c rest ih =>
    by_cases hc : p c = true
    · rw [List.splitOnP_append_cons_of_forall_mem hrun c hc, List.mem_cons] at h
      rcases h with rfl | h
      · exact ⟨hrun, [], c :: rest, by simp, by simp, by simp [hc]⟩
      · obtain ⟨hpiece, before, after, heq, hlast, hhead⟩ := ih [] (by simp) h
        refine ⟨hpiece, run ++ c :: before, after, by simp [← heq], fun x hx => ?_, hhead⟩
        cases before with
        | nil => simp_all
        | cons d before => exact hlast x (by simpa using hx)
    · have hsnoc : ∀ x ∈ run ++ [c], p x = false := by
        intro x hx
        rcases List.mem_append.mp hx with hx | hx
        · exact hrun x hx
        · rw [List.mem_singleton.mp hx]
          simpa using hc
      simpa using ih (run ++ [c]) hsnoc (by simpa using h)

/-- The pieces of a text between marks are its runs without marks that end at marks or at
the ends of the text. -/
theorem mem_splitOnP_iff {s piece : List α} :
    piece ∈ s.splitOnP p ↔ (∀ c ∈ piece, p c = false) ∧
      ∃ before after, s = before ++ piece ++ after ∧
        (∀ c ∈ before.getLast?, p c = true) ∧ ∀ c ∈ after.head?, p c = true := by
  refine ⟨fun h => ?_, ?_⟩
  · exact exists_eq_append_of_mem_splitOnP s [] (by simp) h
  · rintro ⟨hpiece, before, after, rfl, hlast, hhead⟩
    have hfirst : piece ∈ (piece ++ after).splitOnP p := by
      cases after with
      | nil => simp [List.splitOnP_eq_singleton hpiece]
      | cons c rest => simp [List.splitOnP_append_cons_of_forall_mem hpiece c (hhead c rfl)]
    rcases List.eq_nil_or_concat before with rfl | ⟨start, c, rfl⟩
    · exact hfirst
    · have hc : p c = true := hlast c (by simp)
      simp only [List.concat_eq_append, List.append_assoc, List.cons_append]
      rw [List.splitOnP_append_cons _ _ hc]
      exact List.mem_append_right _ hfirst

/-- Where a text is cut depends only on its own characters. -/
theorem splitOnP_congr {q : α → Bool} {s : List α} (h : ∀ c ∈ s, p c = q c) :
    s.splitOnP p = s.splitOnP q := by
  induction s with
  | nil => rfl
  | cons c rest ih =>
    rw [List.splitOnP_cons_eq_if_modifyHead, List.splitOnP_cons_eq_if_modifyHead,
      h c List.mem_cons_self, ih fun x hx => h x (List.mem_cons_of_mem c hx)]

theorem not_mem_of_mem_splitOn [BEq α] [LawfulBEq α] {mark : α} {s piece : List α}
    (h : piece ∈ s.splitOn mark) : mark ∉ piece := by
  rw [List.splitOn_eq_splitOnP] at h
  intro hmark
  simpa using (mem_splitOnP_iff.mp h).1 mark hmark

theorem mem_of_mem_splitOn [BEq α] [LawfulBEq α] {mark c : α} {s piece : List α}
    (h : piece ∈ s.splitOn mark) (hc : c ∈ piece) : c ∈ s := by
  rw [List.splitOn_eq_splitOnP] at h
  obtain ⟨-, before, after, rfl, -, -⟩ := mem_splitOnP_iff.mp h
  exact List.mem_append_left _ (List.mem_append_right _ hc)

/-- A text is a piece without marks, or such a piece, a mark and a further text. -/
@[elab_as_elim]
theorem mark_induction (mark : α) {motive : List α → Prop}
    (last : ∀ piece, mark ∉ piece → motive piece)
    (cons : ∀ piece rest, mark ∉ piece → motive rest → motive (piece ++ mark :: rest))
    (s : List α) : motive s := by
  induction hlength : s.length using Nat.strong_induction_on generalizing s with
  | _ n ih =>
    by_cases hmark : mark ∈ s
    · obtain ⟨piece, rest, rfl, hpiece⟩ := List.eq_append_cons_of_mem hmark
      rw [List.length_append, List.length_cons] at hlength
      exact cons piece rest hpiece (ih rest.length (by omega) rest rfl)
    · exact last s hmark

theorem length_splitOn [BEq α] [LawfulBEq α] (mark : α) (s : List α) :
    (s.splitOn mark).length = s.count mark + 1 := by
  induction s using mark_induction mark with
  | last piece hpiece => simp [List.splitOn_eq_singleton hpiece, List.count_eq_zero.mpr hpiece]
  | cons piece rest hpiece ih =>
    rw [List.splitOn_append_cons_self_of_not_mem hpiece, List.length_cons, ih, List.count_append,
      List.count_eq_zero.mpr hpiece, List.count_cons_self, Nat.zero_add]

/-- A list is cut in one way at the first place where it has `x`. Other than for
`List.append_cons_inj_of_notMem`, more of them may follow. -/
theorem append_cons_inj [DecidableEq α] {x : α} {s t s' t' : List α} (hs : x ∉ s) (hs' : x ∉ s')
    (h : s ++ x :: t = s' ++ x :: t') : s = s' ∧ t = t' := by
  have hpieces := congrArg (List.splitOn x) h
  rw [List.splitOn_append_cons_self_of_not_mem hs, List.splitOn_append_cons_self_of_not_mem hs',
    List.cons.injEq] at hpieces
  obtain ⟨rfl, -⟩ := hpieces
  exact ⟨rfl, (List.cons.inj (List.append_cancel_left h)).2⟩

theorem mem_of_mem_intercalate {c : α} {mark : List α} {pieces : List (List α)}
    (h : c ∈ mark.intercalate pieces) : c ∈ mark ∨ ∃ piece ∈ pieces, c ∈ piece := by
  induction pieces with
  | nil => simp at h
  | cons piece rest ih =>
    cases rest with
    | nil => exact .inr ⟨piece, by simp, by simpa using h⟩
    | cons next rest =>
      rw [List.intercalate_cons_cons, List.mem_append, List.mem_append] at h
      rcases h with (h | h) | h
      · exact .inr ⟨piece, by simp, h⟩
      · exact .inl h
      · exact (ih h).imp_right fun ⟨found, hfound, hc⟩ =>
          ⟨found, List.mem_cons_of_mem _ hfound, hc⟩

theorem intercalate_cons_eq_flatMap (mark piece : List α) (rest : List (List α)) :
    mark.intercalate (piece :: rest) = piece ++ rest.flatMap (mark ++ ·) := by
  induction rest generalizing piece with
  | nil => simp
  | cons next rest ih =>
    rw [List.intercalate_cons_cons, ih, List.flatMap_cons, List.append_assoc, List.append_assoc]

end Pieces

theorem mem_toList_intercalate {c : Char} {mark : String} {pieces : List String}
    (h : c ∈ (mark.intercalate pieces).toList) :
    c ∈ mark.toList ∨ ∃ piece ∈ pieces, c ∈ piece.toList := by
  rw [String.toList_intercalate] at h
  refine (mem_of_mem_intercalate h).imp_right ?_
  rintro ⟨_, hpiece, hc⟩
  obtain ⟨piece, hmem, rfl⟩ := List.mem_map.mp hpiece
  exact ⟨piece, hmem, hc⟩

theorem length_le_intercalate (mark : String) {piece : String} {pieces : List String}
    (h : piece ∈ pieces) :
    piece.length ≤ (mark.intercalate pieces).length := by
  induction pieces with
  | nil => simp at h
  | cons first rest ih =>
    cases rest with
    | nil => simp [List.mem_singleton.mp h]
    | cons second rest =>
      rw [String.intercalate_cons_cons, String.length_append, String.length_append]
      rcases List.mem_cons.mp h with rfl | h
      · omega
      · have := ih h
        omega

/-! ## Lines -/

theorem not_mem_of_mem_lines {s line : List Char} (h : line ∈ lines s) : '\n' ∉ line := by
  obtain ⟨piece, hpiece, hmem⟩ := exists_mem_of_mem_linesOfPieces h
  exact fun hfeed => not_mem_of_mem_splitOn hpiece (hmem _ hfeed)

/-- A text without line feeds is one line, if it is not empty. -/
theorem lines_of_not_mem {s : List Char} (h : '\n' ∉ s) (hne : s ≠ []) : lines s = [s] := by
  rw [lines, List.splitOn_eq_singleton h, linesOfPieces, if_neg (by simpa using hne)]

end NodeSchema.Text
