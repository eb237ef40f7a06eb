import Mathlib.Data.List.Basic
import NodeSchema.Json
import NodeSchema.Json.Value

/-!
# JSON texts and their readers

The readers of JSON undo the writing of JSON. A string is read back as it was written,
whatever characters it has (`readString_escaped`) : of the escapes that the reader knows, the
writer uses the short ones and `\u00` with two digits.

White space may stand between any two tokens. A list with white space in it is described item
by item (`Listed`), and the reader of an array gives its items (`readStrings_listed`).
-/

namespace NodeSchema.Json

/-! ## White space -/

/-- A text of white space only. -/
def Space (s : List Char) : Prop :=
  s.all isSpace = true

instance (s : List Char) : Decidable (Space s) :=
  inferInstanceAs (Decidable (s.all isSpace = true))

theorem space_nil : Space [] := by
  simp [Space]

theorem skipSpace_append {space : List Char} (h : Space space) (s : List Char) :
    skipSpace (space ++ s) = skipSpace s :=
  List.dropWhile_append_of_pos (List.all_eq_true.mp h)

theorem skipSpace_cons {c : Char} (h : isSpace c = false) (s : List Char) :
    skipSpace (c :: s) = c :: s :=
  List.dropWhile_cons_of_neg (by simp [h])

/-- White space in front of a token is skipped. -/
theorem skipSpace_token {space : List Char} (hspace : Space space) {c : Char}
    (hc : isSpace c = false) (s : List Char) : skipSpace (space ++ c :: s) = c :: s := by
  rw [skipSpace_append hspace, skipSpace_cons hc]

/-! ## Strings -/

theorem hexValue?_hexDigit {n : Nat} (h : n < 16) : hexValue? (hexDigit n) = some n := by
  revert n
  decide

theorem readUnit_cons (a b c d : Char) (rest : List Char) {unit : Nat}
    (h : unit? a b c d = some unit) : readUnit (a :: b :: c :: d :: rest) = .ok (unit, rest) := by
  have hcount : ¬byteCount (a :: b :: c :: d :: rest) < 4 := by
    have ha := a.utf8Size_pos
    have hb := b.utf8Size_pos
    have hc := c.utf8Size_pos
    have hd := d.utf8Size_pos
    simp only [byteCount, List.foldr_cons]
    omega
  rw [readUnit, if_neg hcount]
  simp only [h]

/-- The escape with two digits of a control character. -/
theorem readEscape_unit {c : Char} (h : c.toNat < 0x20) (rest : List Char) :
    readEscape ('u' :: '0' :: '0' :: hexDigit (c.toNat / 16) :: hexDigit (c.toNat % 16) :: rest) =
      .ok (c, rest) := by
  have hunit : unit? '0' '0' (hexDigit (c.toNat / 16)) (hexDigit (c.toNat % 16)) =
      some c.toNat := by
    have hhigh := hexValue?_hexDigit (n := c.toNat / 16) (by omega)
    have hlow := hexValue?_hexDigit (n := c.toNat % 16) (by omega)
    have hzero : hexValue? '0' = some 0 := by decide
    simp only [unit?, hhigh, hlow, hzero]
    simp
    omega
  have hsecond : isSecondHalf c.toNat = false := by
    simp [isSecondHalf]
    omega
  have hfirst : isFirstHalf c.toNat = false := by
    simp [isFirstHalf]
    omega
  simp [readEscape, readUnit_cons _ _ _ _ rest hunit, hsecond, hfirst]

theorem readString_escape {s after text rest : List Char} {c : Char}
    (hescape : readEscape s = .ok (c, after)) (h : readString after = .ok (text, rest)) :
    readString ('\\' :: s) = .ok (c :: text, rest) := by
  rw [readString, if_neg (by decide), if_pos rfl]
  split
  · next hstop => simp [hstop] at hescape
  · next hread =>
    rw [hescape] at hread
    cases hread
    rw [h]

theorem readString_plain {c : Char} {s text rest : List Char} (hquote : c ≠ '"')
    (hbackslash : c ≠ '\\') (hcontrol : ¬c.toNat < 0x20) (h : readString s = .ok (text, rest)) :
    readString (c :: s) = .ok (c :: text, rest) := by
  rw [readString, if_neg hquote, if_neg hbackslash, if_neg hcontrol, h]

/-- What is written for a character is read as that character. -/
theorem readString_escaped_append (c : Char) {s text rest : List Char}
    (h : readString s = .ok (text, rest)) :
    readString (escaped c ++ s) = .ok (c :: text, rest) := by
  unfold escaped
  split_ifs with hquote hbackslash hback hfeed hline hreturn htab hcontrol
  · subst hquote
    exact readString_escape rfl h
  · subst hbackslash
    exact readString_escape rfl h
  · subst hback
    exact readString_escape rfl h
  · subst hfeed
    exact readString_escape rfl h
  · subst hline
    exact readString_escape rfl h
  · subst hreturn
    exact readString_escape rfl h
  · subst htab
    exact readString_escape rfl h
  · exact readString_escape (readEscape_unit hcontrol s) h
  · exact readString_plain hquote hbackslash hcontrol h

/-- A string is read as it was written. -/
theorem readString_escaped (s rest : List Char) :
    readString (s.flatMap escaped ++ '"' :: rest) = .ok (s, rest) := by
  induction s with
  | nil =>
    rw [List.flatMap_nil, List.nil_append, readString]
    rfl
  | cons c s ih =>
    rw [List.flatMap_cons, List.append_assoc]
    exact readString_escaped_append c ih

/-! ## Values -/

/-- The text of a string, with its quotation marks, in front of another text. -/
theorem string_append (s : String) (rest : List Char) :
    (string s).toList ++ rest = '"' :: (s.toList.flatMap escaped ++ '"' :: rest) := by
  simp [string]

theorem readWord_append (word rest : List Char) : readWord (word ++ rest) word = .ok rest := by
  induction word with
  | nil => simp [readWord]
  | cons c word ih => rw [List.cons_append, readWord, if_pos rfl, ih]

section Values

variable {space : List Char} (hspace : Space space)
include hspace

theorem skipSpace_string (s : String) (rest : List Char) :
    skipSpace (space ++ ((string s).toList ++ rest)) =
      '"' :: (s.toList.flatMap escaped ++ '"' :: rest) := by
  rw [string_append, skipSpace_token hspace (by decide)]

theorem readStringValue_string (expected s : String) (rest : List Char) :
    readStringValue expected (space ++ ((string s).toList ++ rest)) = .ok (s.toList, rest) := by
  simp only [readStringValue, skipSpace_string hspace, readString_escaped]

theorem readCharValue_string (c : Char) (rest : List Char) :
    readCharValue (space ++ ((string (String.singleton c)).toList ++ rest)) = .ok (c, rest) := by
  rw [readCharValue, readStringValue_string hspace]
  simp

theorem readOptionalString_null (rest : List Char) :
    readOptionalString (space ++ ("null".toList ++ rest)) = .ok (none, rest) := by
  have hskip : skipSpace (space ++ ("null".toList ++ rest)) = 'n' :: ("ull".toList ++ rest) :=
    skipSpace_token hspace (by decide) _
  simp only [readOptionalString, hskip, readWord_append]
  rfl

theorem readOptionalString_string (s : String) (rest : List Char) :
    readOptionalString (space ++ ((string s).toList ++ rest)) = .ok (some s.toList, rest) := by
  have hread := readStringValue_string space_nil "a string" s rest
  rw [List.nil_append, string_append] at hread
  simp [readOptionalString, skipSpace_string hspace, hread, Except.map]

end Values

/-! ## Lists with white space -/

/-- The text of the further items of a list : in front of each a comma, and white space
around it; after the last one white space. -/
inductive Continued {α : Type*} (item : α → List Char → Prop) : List α → List Char → Prop
  | nil {space : List Char} (hspace : Space space) : Continued item [] space
  | cons {a : α} {rest : List α} {after before body text : List Char} (hafter : Space after)
      (hbefore : Space before) (hitem : item a body) (hrest : Continued item rest text) :
      Continued item (a :: rest) (after ++ ',' :: (before ++ (body ++ text)))

/-- The text of the items of a list : commas between them, and white space around each. -/
inductive Listed {α : Type*} (item : α → List Char → Prop) : List α → List Char → Prop
  | nil {space : List Char} (hspace : Space space) : Listed item [] space
  | cons {a : α} {rest : List α} {before body text : List Char} (hbefore : Space before)
      (hitem : item a body) (hrest : Continued item rest text) :
      Listed item (a :: rest) (before ++ (body ++ text))

section Listed

variable {α : Type*} {item : α → List Char → Prop}

/-- Texts of items with commas between them, the same white space before each of them and some
behind the last one. -/
theorem listed_spaced {β : Type*} {f : β → α} {text : β → List Char} {before after : List Char}
    (hbefore : Space before) (hafter : Space after) {l : List β}
    (h : ∀ b ∈ l, item (f b) (text b)) :
    Listed item (l.map f) ([','].intercalate (l.map fun b => before ++ text b) ++ after) := by
  have hcontinued (b : β) {rest : List β} (hrest : ∀ b ∈ rest, item (f b) (text b)) :
      ∃ tail, [','].intercalate ((b :: rest).map fun b => before ++ text b) ++ after =
          before ++ (text b ++ tail) ∧ Continued item (rest.map f) tail := by
    induction rest generalizing b with
    | nil => exact ⟨after, by simp, .nil hafter⟩
    | cons next rest ih =>
      obtain ⟨hnext, hrest⟩ := List.forall_mem_cons.mp hrest
      obtain ⟨tail, htail, hcontinued⟩ := ih next hrest
      refine ⟨[] ++ ',' :: (before ++ (text next ++ tail)), ?_,
        .cons space_nil hbefore hnext hcontinued⟩
      rw [← htail, List.map_cons, List.map_cons, List.intercalate_cons_cons]
      simp
  cases l with
  | nil => exact .nil hafter
  | cons b rest =>
    obtain ⟨hb, hrest⟩ := List.forall_mem_cons.mp h
    obtain ⟨tail, htail, hcontinued⟩ := hcontinued b hrest
    rw [htail]
    exact .cons hbefore hb hcontinued

/-- Texts of items, put together with commas only. -/
theorem listed_intercalate {β : Type*} {f : β → α} {text : β → List Char} {l : List β}
    (h : ∀ b ∈ l, item (f b) (text b)) :
    Listed item (l.map f) ([','].intercalate (l.map text)) := by
  simpa using listed_spaced space_nil space_nil h

end Listed

/-- The text of a string. -/
def StringText (s : String) (text : List Char) : Prop :=
  text = (string s).toList

theorem nextItem_closed {space : List Char} (hspace : Space space) (atStart : Bool)
    (rest : List Char) : nextItem atStart (space ++ ']' :: rest) = .ok (.closed rest) := by
  have hskip := skipSpace_token hspace (show isSpace ']' = false by decide) rest
  simp [nextItem, hskip]

theorem nextItem_first {before : List Char} (hbefore : Space before) (s : String)
    (rest : List Char) : nextItem true (before ++ ((string s).toList ++ rest)) =
      .ok (.item ((string s).toList ++ rest)) := by
  rw [string_append, nextItem, skipSpace_token hbefore (by decide)]
  rfl

theorem nextItem_further {after before : List Char} (hafter : Space after)
    (hbefore : Space before) (s : String) (rest : List Char) :
    nextItem false (after ++ ',' :: (before ++ ((string s).toList ++ rest))) =
      .ok (.item ((string s).toList ++ rest)) := by
  have hskip := skipSpace_token hbefore (show isSpace '"' = false by decide)
    (s.toList.flatMap escaped ++ '"' :: rest)
  rw [string_append, nextItem, skipSpace_token hafter (by decide)]
  simp [hskip]

/-- Reading goes on behind an item. -/
theorem readStrings_item {index : Nat} {s item after text rest : List Char}
    {texts : List (List Char)} (hnext : nextItem (index = 0) s = .ok (.item item))
    (hvalue : readStringValue "a string" item = .ok (text, after))
    (hrest : readStrings (index + 1) after = .ok (texts, rest)) :
    readStrings index s = .ok (text :: texts, rest) := by
  rw [readStrings]
  split
  · next hstop => simp [hstop] at hnext
  · next hclosed => simp [hclosed] at hnext
  · next hitem =>
    rw [hnext, Except.ok.injEq, Next.item.injEq] at hitem
    subst hitem
    split
    · next hstop => simp [hstop] at hvalue
    · next hread =>
      rw [hvalue, Except.ok.injEq, Prod.mk.injEq] at hread
      obtain ⟨rfl, rfl⟩ := hread
      rw [hrest]

/-- Reading goes on behind a string. -/
theorem readStrings_step {index : Nat} {s : String} {text rest left : List Char}
    {texts : List (List Char)}
    (hnext : nextItem (index = 0) text = .ok (.item ((string s).toList ++ rest)))
    (hrest : readStrings (index + 1) rest = .ok (texts, left)) :
    readStrings index text = .ok (s.toList :: texts, left) := by
  have hvalue := readStringValue_string space_nil "a string" s rest
  rw [List.nil_append] at hvalue
  exact readStrings_item hnext hvalue hrest

theorem readStrings_end {index : Nat} {text rest : List Char}
    (hnext : nextItem (index = 0) text = .ok (.closed rest)) :
    readStrings index text = .ok ([], rest) := by
  rw [readStrings]
  split
  · next hstop => simp [hstop] at hnext
  · next hclosed =>
    rw [hnext] at hclosed
    cases hclosed
    rfl
  · next hitem => simp [hitem] at hnext

/-- The strings of an array after its first one. -/
theorem readStrings_continued {strings : List String} {text : List Char}
    (h : Continued StringText strings text) {index : Nat} (hindex : index ≠ 0) (rest : List Char) :
    readStrings index (text ++ ']' :: rest) = .ok (strings.map String.toList, rest) := by
  induction h generalizing index with
  | nil hspace => exact readStrings_end (nextItem_closed hspace _ rest)
  | @cons s strings after before body text hafter hbefore hitem hrest ih =>
    have hnext := nextItem_further hafter hbefore s (text ++ ']' :: rest)
    rw [List.map_cons]
    refine readStrings_step ?_ (ih (Nat.succ_ne_zero index))
    rw [StringText] at hitem
    simpa [hitem, hindex] using hnext

/-- The strings of an array. -/
theorem readStrings_listed {strings : List String} {text : List Char}
    (h : Listed StringText strings text) (rest : List Char) :
    readStrings 0 (text ++ ']' :: rest) = .ok (strings.map String.toList, rest) := by
  cases h with
  | nil hspace => exact readStrings_end (nextItem_closed hspace _ rest)
  | @cons s strings before body text hbefore hitem hrest =>
    have hnext := nextItem_first hbefore s (text ++ ']' :: rest)
    rw [List.map_cons]
    refine readStrings_step ?_ (readStrings_continued hrest Nat.one_ne_zero rest)
    rw [StringText] at hitem
    simpa [hitem] using hnext

end NodeSchema.Json
