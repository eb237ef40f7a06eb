import NodeSchema.Fixture.Difference
import NodeSchema.Proofs.Quoted

/-!
# When a reported difference is one

The difference that is reported of two texts is at the first line that is not the same in both, and
shows the line of each, or a marker for a text that has come to its end (`IsFirst`).

Two texts may be different and have the same lines, since a line does not tell how it ends. Then
both have come to their end, and the marker is reported for both (`same_line_reported`). The same is
reported if only one text has come to its end, and the other goes on with a line that reads like the
marker (`EndsAtMarker`). `ofTexts_isFirst_apart` : in every other case what is reported of the two
texts is not the same.
-/

namespace NodeSchema.Difference

open Text

/-- The line with number `i`, counted from zero, or the marker where there is none. -/
def lineAt (lines : List (List Char)) (i : ℕ) : String :=
  (lines[i]?.map String.ofList).getD endMarker

/-- The lines that two texts begin with are the same up to this difference, which gives the next
line of each. Either these are not the same, or both texts end. -/
structure IsFirst (es as : List (List Char)) (d : Difference) : Prop where
  one_le_line : 1 ≤ d.line
  expected_long : d.line - 1 ≤ es.length
  actual_long : d.line - 1 ≤ as.length
  same_before : es.take (d.line - 1) = as.take (d.line - 1)
  expected_eq : d.expected = lineAt es (d.line - 1)
  actual_eq : d.actual = lineAt as (d.line - 1)
  stop : es[d.line - 1]? = as[d.line - 1]? → es[d.line - 1]? = none

/-- Comparing goes on over `k` lines that are the same, and reports what follows. -/
theorem exists_ofLines (line : ℕ) (es as : List (List Char)) :
    ∃ k, ofLines line es as = ⟨line + k, lineAt es k, lineAt as k⟩ ∧ k ≤ es.length ∧
      k ≤ as.length ∧ es.take k = as.take k ∧ (es[k]? = as[k]? → es[k]? = none) := by
  fun_induction ofLines line es as with
  | case1 line e es as ih =>
    obtain ⟨k, heq, hes, has, htake, hstop⟩ := ih
    refine ⟨k + 1, ?_, by simpa using hes, by simpa using has, by simpa using htake,
      by simpa using hstop⟩
    rw [heq]
    simp [lineAt, Nat.add_assoc, Nat.add_comm 1]
  | case2 line e es a as hne =>
    exact ⟨0, by simp [lineAt, firstLine], by simp, by simp, rfl, by simp [hne]⟩
  | case3 line es as hnot =>
    refine ⟨0, ?_, by simp, by simp, rfl, ?_⟩
    · cases es <;> cases as <;> simp [lineAt, firstLine]
    · cases es with
      | nil => simp
      | cons e es =>
        cases as with
        | nil => simp
        | cons a as => exact absurd rfl (hnot e es a as rfl)

theorem isFirst_ofTexts (expected actual : String) :
    IsFirst (lines expected.toList) (lines actual.toList) (ofTexts expected actual) := by
  obtain ⟨k, heq, hes, has, htake, hstop⟩ :=
    exists_ofLines 1 (lines expected.toList) (lines actual.toList)
  have hk : 1 + k - 1 = k := Nat.add_sub_cancel_left 1 k
  rw [ofTexts, heq]
  exact ⟨Nat.le_add_right 1 k, by rwa [hk], by rwa [hk], by rwa [hk], by rw [hk], by rw [hk],
    by rwa [hk]⟩

/-! ## The difference that is no difference -/

/-- The lines `short` come to their end where the lines `long` go on with one that reads like the
marker. -/
def EndsAtMarker (short long : List (List Char)) : Prop :=
  short ++ [endMarker.toList] <+: long

theorem lineAt_of_length_le {lines : List (List Char)} {i : ℕ} (h : lines.length ≤ i) :
    lineAt lines i = endMarker := by
  simp [lineAt, h]

theorem lineAt_of_getElem? {lines : List (List Char)} {i : ℕ} {line : List Char}
    (h : lines[i]? = some line) : lineAt lines i = String.ofList line := by
  simp [lineAt, h]

/-- Lines that go on behind others have them as a start, and then the line that follows. -/
theorem endsAtMarker_iff {short long : List (List Char)} {line : List Char}
    (htake : long.take short.length = short) (hline : long[short.length]? = some line) :
    EndsAtMarker short long ↔ String.ofList line = endMarker := by
  have hlong : long = short ++ line :: long.drop (short.length + 1) := by
    obtain ⟨hlt, rfl⟩ := List.getElem?_eq_some_iff.mp hline
    conv_lhs =>
      rw [← List.take_append_drop short.length long, htake, List.drop_eq_getElem_cons hlt]
  rw [EndsAtMarker, hlong, List.prefix_append_right_inj, List.cons_prefix_cons,
    and_iff_left (List.nil_prefix), eq_comm, ← String.toList_inj, String.toList_ofList]

theorem EndsAtMarker.getElem?_eq {short long : List (List Char)} (h : EndsAtMarker short long)
    {i : ℕ} (hi : i < short.length) : long[i]? = short[i]? := by
  obtain ⟨rest, rfl⟩ := h
  rw [List.append_assoc, List.getElem?_append_left hi]

theorem EndsAtMarker.length_lt {short long : List (List Char)} (h : EndsAtMarker short long) :
    short.length < long.length := by
  have := h.length_le
  rw [List.length_append, List.length_singleton] at this
  omega

/-- What follows a start of some lines is the marker exactly if nothing follows, or such a line. -/
theorem lineAt_eq_marker_iff {short long : List (List Char)}
    (htake : long.take short.length = short) :
    lineAt long short.length = endMarker ↔ long = short ∨ EndsAtMarker short long := by
  rcases Nat.lt_or_ge short.length long.length with hlt | hge
  · have hline := List.getElem?_eq_getElem hlt
    have hne : long ≠ short := by
      rintro rfl
      exact absurd hlt (Nat.lt_irrefl _)
    rw [lineAt_of_getElem? hline, endsAtMarker_iff htake hline, or_iff_right hne]
  · obtain rfl : long = short := by rwa [List.take_of_length_le hge] at htake
    simp [lineAt_of_length_le]

section Apart

variable {es as : List (List Char)} {d : Difference}

/-- Both lines of a difference are the same exactly if the texts have the same lines, or one of
them ends where the other has the marker. -/
theorem IsFirst.eq_iff (h : IsFirst es as d) :
    d.expected = d.actual ↔ es = as ∨ EndsAtMarker es as ∨ EndsAtMarker as es := by
  obtain ⟨-, hes, has, htake, hexpected, hactual, hstop⟩ := h
  rw [hexpected, hactual]
  generalize d.line - 1 = k at *
  rcases Nat.eq_or_lt_of_le hes with rfl | hlt
  · -- the text that was expected has come to its end
    rw [List.take_length] at htake
    have hnot : ¬EndsAtMarker as es := fun h => absurd h.length_lt (by omega)
    rw [lineAt_of_length_le le_rfl, eq_comm, lineAt_eq_marker_iff htake.symm, or_iff_left hnot,
      eq_comm]
  rcases Nat.eq_or_lt_of_le has with rfl | hlt'
  · -- the text that there is has come to its end
    rw [List.take_length] at htake
    have hnot : ¬EndsAtMarker es as := fun h => absurd h.length_lt (by omega)
    rw [lineAt_of_length_le (le_refl as.length), lineAt_eq_marker_iff htake, or_iff_right hnot]
  · -- both go on, and with different lines
    have he := List.getElem?_eq_getElem hlt
    have ha := List.getElem?_eq_getElem hlt'
    have hne : es[k]? ≠ as[k]? := fun heq => by simpa [he] using hstop heq
    have hdiffer : lineAt es k ≠ lineAt as k := by
      rw [lineAt_of_getElem? he, lineAt_of_getElem? ha, Ne, String.ofList_inj]
      simpa [he, ha] using hne
    refine iff_of_false hdiffer ?_
    rintro (rfl | h | h)
    · exact hne rfl
    · exact hne (h.getElem?_eq hlt).symm
    · exact hne (h.getElem?_eq hlt')

end Apart

/-- The difference that is reported of two texts is the first one of their lines. What is reported
of each is not the same, unless they have the same lines, or the one ends where the other goes on
with a line that reads like the marker. -/
theorem ofTexts_isFirst_apart (expected actual : String) :
    IsFirst (lines expected.toList) (lines actual.toList) (ofTexts expected actual) ∧
      (quoted (ofTexts expected actual).expected ≠ quoted (ofTexts expected actual).actual ↔
        lines expected.toList ≠ lines actual.toList ∧
          ¬EndsAtMarker (lines expected.toList) (lines actual.toList) ∧
            ¬EndsAtMarker (lines actual.toList) (lines expected.toList)) := by
  have hfirst := isFirst_ofTexts expected actual
  refine ⟨hfirst, ?_⟩
  rw [quoted_injective.ne_iff, Ne, hfirst.eq_iff, not_or, not_or]

/-- Of two texts that are not the same it can be reported that what is expected is there, as when
one of them lacks the line feed at its end. -/
theorem same_line_reported :
    ¬∀ expected actual : String, expected ≠ actual →
      quoted (ofTexts expected actual).expected ≠ quoted (ofTexts expected actual).actual := by
  intro h
  exact h "MalformedName" "MalformedName\n" (by decide) (by decide)

example : (ofTexts "MalformedName\n<eof>\n" "MalformedName\n").message =
    "line 2: expected \"<eof>\", got \"<eof>\"" := by
  decide

end NodeSchema.Difference
