/-!
# Cutting a text at a mark

`cutAt` cuts a text once, at the first occurrence of a character; `cutAtColons` cuts it
at every pair of colons, read from the left and without overlap.
-/

namespace NodeSchema.Text

/-- The text before the first `mark`, and the text after it if there is a `mark`. -/
def cutAt (mark : Char) : List Char → List Char × Option (List Char)
  | [] => ([], none)
  | c :: rest =>
    if c = mark then ([], some rest)
    else
      let cut := cutAt mark rest
      (c :: cut.1, cut.2)

/-- A text that is not cut has no mark. -/
theorem cutAt_eq_none {mark : Char} {s head : List Char} (h : cutAt mark s = (head, none)) :
    s = head ∧ mark ∉ s := by
  induction s generalizing head with
  | nil =>
    cases h
    simp
  | cons c rest ih =>
    rw [cutAt] at h
    split at h
    · cases h
    · next hc =>
      obtain ⟨rfl, hrest⟩ := Prod.mk.inj h
      obtain ⟨heq, hmark⟩ := ih (Prod.ext rfl hrest)
      exact ⟨congrArg (c :: ·) heq, by simp [Ne.symm hc, hmark]⟩

/-- A text that is cut consists of the two parts with the mark between them, and the
first part has no mark. -/
theorem cutAt_eq_some {mark : Char} {s head tail : List Char}
    (h : cutAt mark s = (head, some tail)) : s = head ++ mark :: tail ∧ mark ∉ head := by
  induction s generalizing head with
  | nil => cases h
  | cons c rest ih =>
    rw [cutAt] at h
    split at h
    · next hc =>
      cases h
      simp [hc]
    · next hc =>
      obtain ⟨rfl, hrest⟩ := Prod.mk.inj h
      obtain ⟨heq, hmark⟩ := ih (Prod.ext rfl hrest)
      exact ⟨congrArg (c :: ·) heq, by simp [Ne.symm hc, hmark]⟩

/-- Puts a character in front of the first piece. -/
def extendFirst (c : Char) : List (List Char) → List (List Char)
  | [] => [[c]]
  | piece :: rest => (c :: piece) :: rest

/-- The pieces between pairs of colons. In a longer run of colons the pairs are taken
from the left, so `a:::b` has the pieces `a` and `:b`. -/
def cutAtColons : List Char → List (List Char)
  | [] => [[]]
  | ':' :: ':' :: rest => [] :: cutAtColons rest
  | c :: rest => extendFirst c (cutAtColons rest)

end NodeSchema.Text
