import NodeSchema.Json.Fault

/-!
# Reading JSON strings

A reader takes the text that remains and gives a value with what remains after it, or
the point where it had to stop. This module holds the readers below the level of
values : white space, and strings with their escapes.

A string ends at its closing quotation mark. Control characters below `U+0020` have to
be escaped. `\u` is followed by four digits in base sixteen; a character above `U+FFFF`
takes two such escapes, the two halves of its surrogate pair.
-/

namespace NodeSchema.Json

/-- The white space of JSON. -/
def isSpace (c : Char) : Bool :=
  c = ' ' || c = '\n' || c = '\t' || c = '\r'

/-- The text without the white space at its start. -/
def skipSpace (s : List Char) : List Char :=
  s.dropWhile isSpace

/-- The value of a digit in base sixteen. -/
def hexValue? (c : Char) : Option Nat :=
  if '0' ≤ c && c ≤ '9' then some (c.toNat - '0'.toNat)
  else if 'a' ≤ c && c ≤ 'f' then some (c.toNat - 'a'.toNat + 10)
  else if 'A' ≤ c && c ≤ 'F' then some (c.toNat - 'A'.toNat + 10)
  else none

/-- The number that four digits in base sixteen stand for. -/
def unit? (a b c d : Char) : Option Nat := do
  let a ← hexValue? a
  let b ← hexValue? b
  let c ← hexValue? c
  let d ← hexValue? d
  return ((a * 16 + b) * 16 + c) * 16 + d

/-- Reads the four digits of an escape. -/
def readUnit (s : List Char) : Except Stop (Nat × List Char) :=
  if byteCount s < 4 then .error (.before .endInString [])
  else
    match s with
    | a :: b :: c :: d :: rest =>
      match unit? a b c d with
      | some unit => .ok (unit, rest)
      | none => .error ⟨.invalidEscape, s, 4⟩
    | _ => .error ⟨.invalidEscape, s, 4⟩

/-- Whether the number is the first half of a surrogate pair. -/
def isFirstHalf (unit : Nat) : Bool :=
  0xD800 ≤ unit && unit ≤ 0xDBFF

/-- Whether the number is the second half of a surrogate pair. -/
def isSecondHalf (unit : Nat) : Bool :=
  0xDC00 ≤ unit && unit ≤ 0xDFFF

/-- The character of a surrogate pair. -/
def paired (first second : Nat) : Char :=
  Char.ofNat (0x10000 + (first - 0xD800) * 0x400 + (second - 0xDC00))

/-- Reads the second half of a surrogate pair, with its backslash and its `u`. -/
def readSecondHalf (first : Nat) (s : List Char) : Except Stop (Char × List Char) :=
  match s with
  | [] => .error (.before .endInString [])
  | '\\' :: [] => .error (.before .endInString [])
  | '\\' :: 'u' :: digits =>
    match readUnit digits with
    | .error stop => .error stop
    | .ok (second, rest) =>
      if isSecondHalf second then .ok (paired first second, rest)
      else .error (.before .loneSurrogate rest)
  | '\\' :: rest => .error (.on .unpairedSurrogate rest)
  | rest => .error (.on .unpairedSurrogate rest)

/-- Reads an escape after its backslash. -/
def readEscape : List Char → Except Stop (Char × List Char)
  | [] => .error (.before .endInString [])
  | '"' :: rest => .ok ('"', rest)
  | '\\' :: rest => .ok ('\\', rest)
  | '/' :: rest => .ok ('/', rest)
  | 'b' :: rest => .ok ('\x08', rest)
  | 'f' :: rest => .ok ('\x0c', rest)
  | 'n' :: rest => .ok ('\n', rest)
  | 'r' :: rest => .ok ('\r', rest)
  | 't' :: rest => .ok ('\t', rest)
  | 'u' :: digits =>
    match readUnit digits with
    | .error stop => .error stop
    | .ok (unit, rest) =>
      if isSecondHalf unit then .error (.before .loneSurrogate rest)
      else if isFirstHalf unit then readSecondHalf unit rest
      else .ok (Char.ofNat unit, rest)
  | rest => .error (.on .invalidEscape rest)

/-! ## What a reader leaves is shorter -/

theorem length_skipSpace_le (s : List Char) : (skipSpace s).length ≤ s.length :=
  (List.dropWhile_sublist _).length_le

theorem length_of_readUnit {s rest : List Char} {unit : Nat} (h : readUnit s = .ok (unit, rest)) :
    rest.length < s.length := by
  unfold readUnit at h
  split at h
  · cases h
  · split at h
    · split at h
      · simp only [Except.ok.injEq, Prod.mk.injEq] at h
        obtain ⟨-, rfl⟩ := h
        simp only [List.length_cons]
        omega
      · cases h
    · cases h

theorem length_of_readSecondHalf {first : Nat} {s rest : List Char} {c : Char}
    (h : readSecondHalf first s = .ok (c, rest)) : rest.length < s.length := by
  unfold readSecondHalf at h
  split at h
  · cases h
  · cases h
  · split at h
    · cases h
    · next hunit =>
      have hlt := length_of_readUnit hunit
      split at h
      · simp only [Except.ok.injEq, Prod.mk.injEq] at h
        obtain ⟨-, rfl⟩ := h
        simp only [List.length_cons]
        omega
      · cases h
  · cases h
  · cases h

theorem length_of_readEscape {s rest : List Char} {c : Char} (h : readEscape s = .ok (c, rest)) :
    rest.length < s.length := by
  unfold readEscape at h
  split at h
  case h_10 =>
    split at h
    · cases h
    · next hunit =>
      have hlt := length_of_readUnit hunit
      split at h
      · cases h
      · split at h
        · have hhalf := length_of_readSecondHalf h
          simp only [List.length_cons]
          omega
        · simp only [Except.ok.injEq, Prod.mk.injEq] at h
          obtain ⟨-, rfl⟩ := h
          simp only [List.length_cons]
          omega
  all_goals first
    | cases h
      done
    | simp only [Except.ok.injEq, Prod.mk.injEq] at h
      obtain ⟨-, rfl⟩ := h
      simp

/-! ## Strings -/

/-- Reads a string after its opening quotation mark, and its closing one. -/
def readString (s : List Char) : Except Stop (List Char × List Char) :=
  match s with
  | [] => .error (.before .endInString [])
  | c :: rest =>
    if c = '"' then .ok ([], rest)
    else if c = '\\' then
      match _escape : readEscape rest with
      | .error stop => .error stop
      | .ok (d, after) =>
        match readString after with
        | .error stop => .error stop
        | .ok (text, left) => .ok (d :: text, left)
    else if c.toNat < 0x20 then .error (.before .controlCharacter rest)
    else
      match readString rest with
      | .error stop => .error stop
      | .ok (text, left) => .ok (c :: text, left)
termination_by s.length
decreasing_by
  · have := length_of_readEscape ‹_›
    simp only [List.length_cons]
    omega
  · simp

theorem length_of_readString {s text rest : List Char} (h : readString s = .ok (text, rest)) :
    rest.length < s.length := by
  fun_induction readString s generalizing text rest
  case case2 =>
    simp only [Except.ok.injEq, Prod.mk.injEq] at h
    obtain ⟨-, rfl⟩ := h
    simp
  case case5 ih =>
    have hlt := length_of_readEscape ‹readEscape _ = _›
    simp only [Except.ok.injEq, Prod.mk.injEq] at h
    obtain ⟨-, rfl⟩ := h
    have := ih ‹_›
    simp only [List.length_cons]
    omega
  case case8 ih =>
    simp only [Except.ok.injEq, Prod.mk.injEq] at h
    obtain ⟨-, rfl⟩ := h
    have := ih ‹_›
    simp only [List.length_cons]
    omega
  all_goals cases h

end NodeSchema.Json
