/-!
# Lines of a text

A line ends with a line feed, and with the text. A text that ends with a line feed has
no further, empty line after it. One carriage return directly before the line feed
belongs to the line end; at the end of the text, without a line feed, it belongs to the
line.
-/

namespace NodeSchema.Text

/-- The line without the carriage return at its end, if it has one there. -/
def dropReturn (line : List Char) : List Char :=
  if line.getLast? = some '\r' then line.dropLast else line

/-- The lines among the pieces between line feeds : the last piece is a line only if it
is not empty, and each piece before it ended with a line feed. -/
def linesOfPieces : List (List Char) → List (List Char)
  | [] => []
  | [last] => if last.isEmpty then [] else [last]
  | piece :: next :: rest => dropReturn piece :: linesOfPieces (next :: rest)

/-- The lines of a text, without their ends. -/
def lines (s : List Char) : List (List Char) :=
  linesOfPieces (s.splitOn '\n')

@[simp] theorem lines_nil : lines [] = [] := rfl

theorem mem_of_mem_dropReturn {c : Char} {line : List Char} (h : c ∈ dropReturn line) :
    c ∈ line := by
  unfold dropReturn at h
  split at h
  · exact List.dropLast_subset _ h
  · exact h

/-- A line has no character that none of the pieces has. -/
theorem exists_mem_of_mem_linesOfPieces {line : List Char} {pieces : List (List Char)}
    (h : line ∈ linesOfPieces pieces) : ∃ piece ∈ pieces, ∀ c ∈ line, c ∈ piece := by
  induction pieces with
  | nil => cases h
  | cons piece rest ih =>
    cases rest with
    | nil =>
      simp only [linesOfPieces] at h
      split at h
      · cases h
      · exact ⟨piece, by simp, fun c hc => List.mem_singleton.mp h ▸ hc⟩
    | cons next rest =>
      simp only [linesOfPieces, List.mem_cons] at h
      rcases h with rfl | h
      · exact ⟨piece, by simp, fun c => mem_of_mem_dropReturn⟩
      · obtain ⟨found, hfound, hmem⟩ := ih h
        exact ⟨found, List.mem_cons_of_mem _ hfound, hmem⟩

end NodeSchema.Text
