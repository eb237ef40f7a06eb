import Mathlib.Data.List.DropRight
import NodeSchema.Proofs.Reading

/-!
# The layout of a schema text

A line is read with the white space around it, which goes into the name, into the first
and the last field, and into the faults. None of it is seen there : names, fields and
faults are trimmed or cut into words (`readField_trim`, `readNode_append`), and the
separator is not white space. So lines are read like their trimmed forms
(`readLines_map_trim`), and it makes no difference how a line ends : a text is read like
its pieces between line feeds (`read_eq_readLines_splitOn`).

`read_eq_of_trimmedLines_eq` : texts with the same trimmed lines are read alike, as the
same schema or with the same fault.
-/

namespace NodeSchema

open Text

/-! ## Trimmed pieces -/

namespace Text

/-- White space behind a text stays in its last piece. -/
theorem map_trim_splitOn_append_blank {mark : Char} {after : List Char} (hafter : mark ∉ after)
    (h : Blank after) (s : List Char) :
    ((s ++ after).splitOn mark).map trim = (s.splitOn mark).map trim := by
  induction s using mark_induction mark with
  | last piece hpiece =>
    rw [List.splitOn_eq_singleton hpiece, List.splitOn_eq_singleton (by simp [hpiece, hafter]),
      List.map_singleton, List.map_singleton, trim_append_blank h]
  | cons piece rest hpiece ih =>
    rw [List.append_assoc, List.cons_append, List.splitOn_append_cons_self_of_not_mem hpiece,
      List.splitOn_append_cons_self_of_not_mem hpiece, List.map_cons, List.map_cons, ih]

theorem trim_dropReturn (line : List Char) : trim (dropReturn line) = trim line := by
  unfold dropReturn
  split
  · next hlast =>
    have hreturn : Blank ['\r'] := by simp [Blank, isBlank]
    rw [← trim_append_blank hreturn, List.dropLast_append_getLast? _ hlast]
  · rfl

end Text

/-! ## Reading trimmed texts -/

theorem readField_trim (node : String) (earlier : List Field) (piece : List Char) :
    readField node earlier (trim piece) = readField node earlier piece := by
  rw [readField, readField, words_trim, trim_trim]

theorem collectFields_map_trim (node : String) (earlier : List Field)
    (pieces : List (List Char)) :
    collectFields node earlier (pieces.map trim) = collectFields node earlier pieces := by
  induction pieces generalizing earlier with
  | nil => rfl
  | cons piece rest ih =>
    rw [List.map_cons, collectFields, collectFields, readField_trim]
    simp only [ih]

theorem readFields_append_blank (node : String) {after : List Char} (h : Blank after)
    (text : List Char) : readFields node (text ++ after) = readFields node text := by
  have hcomma : ',' ∉ after := not_mem_of_blank (by decide) h
  rw [readFields, readFields, ← collectFields_map_trim,
    ← collectFields_map_trim node [] (text.splitOn ','), map_trim_splitOn_append_blank hcomma h]

section Lines

variable {settings : Settings} (hseparator : Settings.isSeparator settings.separator = true)
include hseparator

/-- White space around a line is not seen : the separator is not white space, so the line
is cut at the same place. -/
theorem readNode_append (line : Nat) {before after : List Char} (hbefore : Blank before)
    (hafter : Blank after) (text : List Char) :
    readNode settings line (before ++ text ++ after) = readNode settings line text := by
  obtain ⟨-, hblank, -⟩ := Settings.isSeparator_iff.mp hseparator
  have hnotBefore := not_mem_of_blank hblank hbefore
  have hnotAfter := not_mem_of_blank hblank hafter
  by_cases hmark : settings.separator ∈ text
  · obtain ⟨head, tail, rfl, hhead⟩ := List.eq_append_cons_of_mem hmark
    have htext : before ++ (head ++ settings.separator :: tail) ++ after =
        before ++ head ++ settings.separator :: (tail ++ after) := by simp
    rw [htext, readNode, readNode, cutAt_append hhead, cutAt_append (by simp [hnotBefore, hhead])]
    simp only [trim_blank_append hbefore, readFields_append_blank _ hafter]
  · rw [readNode, readNode, cutAt_of_not_mem hmark,
      cutAt_of_not_mem (by simp [hnotBefore, hmark, hnotAfter])]
    simp only [trim_append_blank hafter, trim_blank_append hbefore]

theorem readLine_trim (schema : Schema) (line : Nat) (text : List Char) :
    readLine settings schema line (trim text) = readLine settings schema line text := by
  have hnode : readNode settings line (trim text) = readNode settings line text := by
    obtain ⟨before, after, hbefore, hafter, heq⟩ := exists_eq_trim text
    rw [← readNode_append hseparator line hbefore hafter, ← heq]
  rw [readLine, readLine, trim_trim, hnode]

theorem readLines_map_trim (schema : Schema) (line : Nat) (texts : List (List Char)) :
    readLines settings schema line (texts.map trim) = readLines settings schema line texts := by
  induction texts generalizing schema line with
  | nil => rfl
  | cons text rest ih =>
    rw [List.map_cons, readLines, readLines, readLine_trim hseparator]
    simp only [ih]

end Lines

/-! ## Runs over several texts -/

variable {settings : Settings}

theorem readLines_append (schema : Schema) (line : Nat) (first second : List (List Char)) :
    readLines settings schema line (first ++ second) =
      match readLines settings schema line first with
      | .error fault => .error fault
      | .ok larger => readLines settings larger (line + first.length) second := by
  induction first generalizing schema line with
  | nil => rfl
  | cons text rest ih =>
    rw [List.cons_append, readLines, readLines]
    cases readLine settings schema line text with
    | error fault => rfl
    | ok larger => simp only [ih, List.length_cons, Nat.add_assoc, Nat.add_comm 1]

theorem readLines_of_blank {texts : List (List Char)} (h : ∀ text ∈ texts, Blank text)
    (schema : Schema) (line : Nat) : readLines settings schema line texts = .ok schema := by
  induction texts generalizing line with
  | nil => rfl
  | cons text rest ih =>
    obtain ⟨htext, hrest⟩ := List.forall_mem_cons.mp h
    rw [readLines, readLine_of_blank htext]
    exact ih hrest (line + 1)

/-- Blank lines at the end change nothing. -/
theorem readLines_append_blank {after : List (List Char)} (h : ∀ text ∈ after, Blank text)
    (schema : Schema) (line : Nat) (texts : List (List Char)) :
    readLines settings schema line (texts ++ after) = readLines settings schema line texts := by
  rw [readLines_append]
  cases readLines settings schema line texts with
  | error fault => rfl
  | ok larger => exact readLines_of_blank h larger _

theorem readLines_rdropWhile (schema : Schema) (line : Nat) (texts : List (List Char)) :
    readLines settings schema line (texts.rdropWhile List.isEmpty) =
      readLines settings schema line texts := by
  have hblank : ∀ text ∈ texts.rtakeWhile List.isEmpty, Blank text := by
    intro text htext
    rw [List.isEmpty_iff.mp (List.mem_rtakeWhile_imp htext)]
    exact blank_nil
  rw [← readLines_append_blank hblank, List.rdropWhile_append_rtakeWhile]

/-! ## Pieces between line feeds -/

section Pieces

variable (hseparator : Settings.isSeparator settings.separator = true)
include hseparator

/-- How a line ends makes no difference to the reader. -/
theorem readLines_linesOfPieces (schema : Schema) (line : Nat) (pieces : List (List Char)) :
    readLines settings schema line (linesOfPieces pieces) =
      readLines settings schema line pieces := by
  induction pieces generalizing schema line with
  | nil => rfl
  | cons piece rest ih =>
    cases rest with
    | nil =>
      rw [linesOfPieces]
      split
      · next hempty =>
        rw [List.isEmpty_iff.mp hempty]
        rfl
      · rfl
    | cons next rest =>
      have hline := readLine_trim hseparator schema line piece
      rw [← trim_dropReturn, readLine_trim hseparator] at hline
      rw [linesOfPieces, readLines, readLines, hline]
      simp only [ih]

/-- A text is read like the list of its pieces between line feeds. -/
theorem read_eq_readLines_splitOn (source : String) :
    Schema.read settings source =
      readLines settings Schema.empty 1 (source.toList.splitOn '\n') := by
  rw [Schema.read, lines, readLines_linesOfPieces hseparator]

theorem read_eq_of_map_trim_eq {first second : String}
    (h : (first.toList.splitOn '\n').map trim = (second.toList.splitOn '\n').map trim) :
    Schema.read settings first = Schema.read settings second := by
  rw [read_eq_readLines_splitOn hseparator, read_eq_readLines_splitOn hseparator,
    ← readLines_map_trim hseparator, h, readLines_map_trim hseparator]

end Pieces

/-! ## Texts that differ in their layout -/

/-- The trimmed lines of a text, up to the last one that is not empty. -/
def trimmedLines (source : String) : List (List Char) :=
  ((lines source.toList).map trim).rdropWhile List.isEmpty

/-- The text with a carriage return before each line feed. -/
def withReturns (source : String) : String :=
  String.ofList (source.toList.flatMap fun c => if c = '\n' then ['\r', '\n'] else [c])

/-- The text that consists of the given rows, with line feeds between them. -/
def textOfRows (rows : List (List Char)) : String :=
  String.ofList (['\n'].intercalate rows)

/-- A row with white space put before it and after it. -/
def Padded (row padded : List Char) : Prop :=
  ∃ before after, Blank before ∧ Blank after ∧ padded = before ++ row ++ after

theorem trim_of_padded {row padded : List Char} (h : Padded row padded) :
    trim padded = trim row := by
  obtain ⟨before, after, hbefore, hafter, rfl⟩ := h
  rw [trim_append_blank hafter, trim_blank_append hbefore]

theorem map_trim_of_padded {rows padded : List (List Char)} (h : List.Forall₂ Padded rows padded) :
    padded.map trim = rows.map trim := by
  induction h with
  | nil => rfl
  | cons hrow _ ih => rw [List.map_cons, List.map_cons, trim_of_padded hrow, ih]

theorem map_trim_splitOn_withReturns (source : String) :
    ((withReturns source).toList.splitOn '\n').map trim =
      (source.toList.splitOn '\n').map trim := by
  have hreturn : Blank ['\r'] := by simp [Blank, isBlank]
  have hpiece : ∀ piece : List Char, '\n' ∉ piece →
      (piece.flatMap fun c => if c = '\n' then ['\r', '\n'] else [c]) = piece := by
    intro piece hpiece
    refine (List.flatMap_congr fun c hc => if_neg ?_).trans (List.flatMap_singleton' piece)
    rintro rfl
    exact hpiece hc
  rw [withReturns, String.toList_ofList]
  induction source.toList using mark_induction '\n' with
  | last piece hfeed => rw [hpiece piece hfeed]
  | cons piece rest hfeed ih =>
    have htext : ∀ tail : List Char,
        piece ++ ('\r' :: '\n' :: tail) = piece ++ ['\r'] ++ '\n' :: tail := by simp
    rw [List.flatMap_append, hpiece piece hfeed, List.flatMap_cons, if_pos rfl, List.cons_append,
      List.cons_append, List.nil_append, htext,
      List.splitOn_append_cons_self_of_not_mem (by simp [hfeed]), List.map_cons, ih,
      trim_append_blank hreturn, List.splitOn_append_cons_self_of_not_mem hfeed, List.map_cons]

/-- White space behind a text changes nothing, not even with line feeds in it. -/
theorem read_append_blank (hseparator : Settings.isSeparator settings.separator = true)
    {after : List Char} (h : Blank after) (source : String) :
    Schema.read settings (source ++ String.ofList after) = Schema.read settings source := by
  by_cases hfeed : '\n' ∈ after
  · obtain ⟨piece, rest, rfl, hpiece⟩ := List.eq_append_cons_of_mem hfeed
    obtain ⟨hblank, hrest⟩ := List.forall_mem_append.mp h
    have hpieces : ∀ text ∈ rest.splitOn '\n', Blank text := fun text htext c hc =>
      hrest c (List.mem_cons_of_mem _ (mem_of_mem_splitOn htext hc))
    have htext : (source ++ String.ofList (piece ++ '\n' :: rest)).toList.splitOn '\n' =
        (source ++ String.ofList piece).toList.splitOn '\n' ++ rest.splitOn '\n' := by
      rw [← List.splitOn_append_cons_self]
      simp
    rw [read_eq_readLines_splitOn hseparator, htext, readLines_append_blank hpieces,
      ← read_eq_readLines_splitOn hseparator]
    refine read_eq_of_map_trim_eq hseparator ?_
    rw [String.toList_append, String.toList_ofList, map_trim_splitOn_append_blank hpiece hblank]
  · refine read_eq_of_map_trim_eq hseparator ?_
    rw [String.toList_append, String.toList_ofList, map_trim_splitOn_append_blank hfeed h]

/-- A text of rows is read like the list of them. -/
theorem read_textOfRows (hseparator : Settings.isSeparator settings.separator = true)
    {rows : List (List Char)} (hfeed : ∀ row ∈ rows, '\n' ∉ row) :
    Schema.read settings (textOfRows rows) = readLines settings Schema.empty 1 rows := by
  cases rows with
  | nil => rfl
  | cons row rest =>
    rw [read_eq_readLines_splitOn hseparator, textOfRows, String.toList_ofList,
      List.splitOn_intercalate '\n' hfeed (by simp)]

theorem read_textOfRows_padded (hseparator : Settings.isSeparator settings.separator = true)
    {rows padded : List (List Char)} (h : List.Forall₂ Padded rows padded)
    (hfeed : ∀ row ∈ padded, '\n' ∉ row) :
    Schema.read settings (textOfRows padded) = Schema.read settings (textOfRows rows) := by
  have hrows : ∀ row ∈ rows, '\n' ∉ row := by
    intro row hrow hmem
    obtain ⟨other, hother, before, after, -, -, rfl⟩ := exists_right_of_mem h hrow
    exact hfeed _ hother (List.mem_append_left _ (List.mem_append_right _ hmem))
  rw [read_textOfRows hseparator hfeed, read_textOfRows hseparator hrows,
    ← readLines_map_trim hseparator, map_trim_of_padded h, readLines_map_trim hseparator]

/-- The layout of a text makes no difference. Texts with the same trimmed lines are read as
the same schema, or with the same fault; so are texts that differ in the ends of their lines,
in white space around their lines, or in white space behind the last one. -/
theorem read_eq_of_trimmedLines_eq (hcheck : settings.check = .ok ()) :
    (∀ first second, trimmedLines first = trimmedLines second →
      Schema.read settings first = Schema.read settings second) ∧
    (∀ source, Schema.read settings (withReturns source) = Schema.read settings source) ∧
    (∀ rows padded, List.Forall₂ Padded rows padded → (∀ row ∈ padded, '\n' ∉ row) →
      Schema.read settings (textOfRows padded) = Schema.read settings (textOfRows rows)) ∧
    ∀ source after, Blank after →
      Schema.read settings (source ++ String.ofList after) = Schema.read settings source := by
  have hseparator := (Settings.check_eq_ok_iff.mp hcheck).separator
  refine ⟨fun first second h => ?_, fun source => ?_, fun rows padded => ?_,
    fun source after h => ?_⟩
  · have hread : ∀ source, Schema.read settings source =
        readLines settings Schema.empty 1 (trimmedLines source) := by
      intro source
      rw [trimmedLines, readLines_rdropWhile, readLines_map_trim hseparator, Schema.read]
    rw [hread, hread, h]
  · exact read_eq_of_map_trim_eq hseparator (map_trim_splitOn_withReturns source)
  · exact read_textOfRows_padded hseparator
  · exact read_append_blank hseparator h source

/-- A fault that is found in every layout : behind line ends of both kinds, tabs and blank
lines, on an indented line, and before white space. -/
theorem read_relaid_fault :
    Settings.standard.check = .ok () ∧
      trimmedLines "\t a | int x , int y \r\n\nb |int x,\r\n \r\n" =
        trimmedLines "a | int x , int y\n\nb |int x," ∧
      Schema.read .standard "\t a | int x , int y \r\n\nb |int x,\r\n \r\n" =
        Schema.read .standard "a | int x , int y\n\nb |int x," ∧
      Schema.read .standard (textOfRows ["\tb |int x,\r".toList]) =
        Schema.read .standard (textOfRows ["b |int x,".toList]) ∧
      Schema.read .standard ("b |int x," ++ String.ofList "\r\n\u3000\n".toList) =
        Schema.read .standard "b |int x," := by
  obtain ⟨htrimmed, -, hpadded, hblank⟩ := @read_eq_of_trimmedLines_eq .standard (by decide)
  have htab : Blank "\t".toList := blank_iff_all.mpr (by decide)
  have hreturn : Blank "\r".toList := blank_iff_all.mpr (by decide)
  refine ⟨by decide, by decide, htrimmed _ _ (by decide), ?_, ?_⟩
  · exact hpadded _ _ (.cons ⟨_, _, htab, hreturn, by decide⟩ .nil) (by decide)
  · exact hblank _ _ (blank_iff_all.mpr (by decide))

end NodeSchema
