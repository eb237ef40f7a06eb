import NodeSchema.Proofs.HeaderText

/-!
# The directives for included headers

A directive names a header between angle brackets or between quotation marks, and the name is
closed by the first mark that could close it (`IsInclude`). The check of settings keeps line ends
and angle brackets out of every header, so one that stands between angle brackets is always named
so. A header in quotation marks is only checked at its two ends, and goes into the directive as it
is : with a further mark inside, the name is closed too early (`broken_include_accepted`).

`include_lines` : each header that is included has its line, in the given order, and the line is a
directive unless the header is one in quotation marks and has more than these two.
-/

namespace NodeSchema

open Header

/-- A line that includes one header : its name is not empty, is on one line, and holds none of the
marks that close it. -/
inductive IsInclude : String → Prop
  | angle {name : String} (hne : name ≠ "")
      (hname : ∀ c ∈ name.toList, c ≠ '<' ∧ c ≠ '>' ∧ c ≠ '\n' ∧ c ≠ '\r') :
      IsInclude ("#include <" ++ name ++ ">")
  | quoted {name : String} (hne : name ≠ "")
      (hname : ∀ c ∈ name.toList, c ≠ '"' ∧ c ≠ '\n' ∧ c ≠ '\r') :
      IsInclude ("#include \"" ++ name ++ "\"")

/-! ## Headers and their lines -/

/-- A header that starts with a quotation mark ends with another, with something between them. -/
theorem exists_quoted_of_isHeader {header : String} (h : Settings.isHeader header = true)
    (hhead : header.toList.head? = some '"') :
    ∃ name, name ≠ "" ∧ header = "\"" ++ name ++ "\"" := by
  simp only [Settings.isHeader, Bool.and_eq_true] at h
  have hends : 3 ≤ header.utf8ByteSize ∧ header.toList.getLast? = some '"' := by
    simpa [hhead] using h.2
  obtain ⟨hsize, hlast⟩ := hends
  obtain ⟨rest, hrest⟩ := List.head?_eq_some_iff.mp hhead
  obtain ⟨name, rfl⟩ : ∃ name, rest = name ++ ['"'] := by
    rcases List.eq_nil_or_concat rest with rfl | ⟨name, last, rfl⟩
    · -- a mark alone is too short
      obtain rfl : header = "\"" := String.toList_injective hrest
      exact absurd hsize (by decide)
    · rw [hrest, List.concat_eq_append, ← List.cons_append, List.getLast?_concat] at hlast
      exact ⟨name, by rw [List.concat_eq_append, Option.some_inj.mp hlast]⟩
  refine ⟨String.ofList name, ?_, String.toList_injective (by simp [hrest])⟩
  intro hname
  obtain rfl : name = [] := by simpa using hname
  -- so are two marks
  obtain rfl : header = "\"\"" := String.toList_injective hrest
  exact absurd hsize (by decide)

theorem isInclude_angle {header : String} (h : Settings.isHeader header = true) :
    IsInclude ("#include <" ++ header ++ ">") := by
  refine .angle (Settings.ne_empty_of_isHeader h) fun c hc => ?_
  obtain ⟨hfeed, hreturn, hopen, hclose⟩ := Settings.ne_of_mem_isHeader h c hc
  exact ⟨hopen, hclose, hfeed, hreturn⟩

/-- Between quotation marks a name is closed by the first one. -/
theorem IsInclude.not_mem_of_quoted {name : String}
    (h : IsInclude ("#include \"" ++ name ++ "\"")) : '"' ∉ name.toList := by
  generalize hline : "#include \"" ++ name ++ "\"" = line at h
  cases h with
  | angle hne hname =>
    have := congrArg String.toList hline
    simp at this
  | quoted hne hname =>
    rw [String.append_left_inj, String.append_right_inj] at hline
    rw [hline]
    exact fun hmem => (hname '"' hmem).1 rfl

/-- A header in quotation marks is included if there are no more of them. -/
theorem isInclude_quoted_iff {header : String} (h : Settings.isHeader header = true)
    (hhead : header.toList.head? = some '"') :
    IsInclude ("#include " ++ header) ↔ header.toList.count '"' = 2 := by
  obtain ⟨name, hne, rfl⟩ := exists_quoted_of_isHeader h hhead
  have hline : "#include " ++ ("\"" ++ name ++ "\"") = "#include \"" ++ name ++ "\"" := by
    simp [← String.append_assoc]
  have hcount : ("\"" ++ name ++ "\"").toList.count '"' = 2 ↔ '"' ∉ name.toList := by
    simp [List.count_eq_zero]
  rw [hline, hcount]
  refine ⟨IsInclude.not_mem_of_quoted, fun hmark => .quoted hne fun c hc => ?_⟩
  have hother := Settings.ne_of_mem_isHeader h c (by simp [hc])
  exact ⟨ne_of_mem_of_not_mem hc hmark, hother.1, hother.2.1⟩

theorem isInclude_includeLine_iff {header : String} (h : Settings.isHeader header = true) :
    IsInclude (includeLine header) ↔
      (header.toList.head? = some '"' → header.toList.count '"' = 2) := by
  unfold includeLine
  split_ifs with hhead
  · rw [isInclude_quoted_iff h hhead, forall_prop_of_true hhead]
  · exact iff_of_true (isInclude_angle h) fun hquoted => absurd hquoted hhead

/-! ## The directives of a header -/

/-- Whatever the schema is, its header starts with the lines of the preamble. -/
theorem preamble_prefix_rows {settings : Settings} (h : settings.Usable) (schema : Schema) :
    preamble settings <+: rows (schema.header settings) := by
  rw [rows, toList_header, lines_eq, List.append_assoc, List.flatMap_append,
    splitOn_flatMap_append (without_preamble h), List.map_append, List.map_map]
  simp [Function.comp_def]

/-- Each header that is included has its line, behind the four lines of the guard and those of the
standard headers. The line is a directive, unless the header is one in quotation marks and has more
than the two it stands between. -/
theorem include_lines {settings : Settings} (hcheck : settings.check = .ok ()) (schema : Schema) :
    ((rows (schema.header settings)).drop (4 + standardIncludes.length)).take
        settings.includes.length = settings.includes.map includeLine ∧
      ∀ header ∈ settings.includes, (IsInclude (includeLine header) ↔
        (header.toList.head? = some '"' → header.toList.count '"' = 2)) := by
  have hsettings := Settings.check_eq_ok_iff.mp hcheck
  refine ⟨?_, fun header hheader =>
    isInclude_includeLine_iff (hsettings.includes header hheader)⟩
  obtain ⟨rest, hrows⟩ := preamble_prefix_rows hsettings schema
  rw [← hrows]
  simp [preamble, standardIncludes, List.append_assoc]

/-- A header between angle brackets, one in quotation marks, and one with a mark too many. -/
theorem include_lines_three :
    let settings : Settings :=
      { Settings.standard with includes := ["string", "\"token.hpp\"", "\"a\"b\""] }
    settings.check = .ok () ∧
      ((rows (Schema.empty.header settings)).drop 7).take 3 =
        ["#include <string>", "#include \"token.hpp\"", "#include \"a\"b\""] ∧
      IsInclude "#include <string>" ∧ IsInclude "#include \"token.hpp\"" ∧
        ¬IsInclude "#include \"a\"b\"" := by
  intro settings
  have hcheck : settings.check = .ok () := by decide
  obtain ⟨hrows, hiff⟩ := include_lines hcheck .empty
  refine ⟨hcheck, hrows, ?_, ?_, ?_⟩
  · exact (hiff "string" (by decide)).mpr (by decide)
  · exact (hiff "\"token.hpp\"" (by decide)).mpr (by decide)
  · exact (hiff "\"a\"b\"" (by decide)).not.mpr (by decide)

/-- The line of a header that passes the check may be no directive. -/
theorem broken_include_accepted :
    ¬∀ settings : Settings, settings.check = .ok () →
      ∀ header ∈ settings.includes, IsInclude (includeLine header) := by
  intro h
  let settings : Settings := { Settings.standard with includes := ["\"a\"b\""] }
  have hline := h settings (by decide) "\"a\"b\"" (by decide)
  exact absurd ((isInclude_includeLine_iff (by decide)).mp hline) (by decide)

end NodeSchema
