import Mathlib.Data.List.Basic
import NodeSchema.Proofs.Text
import NodeSchema.Text.Quoted

/-!
# What a quoted text quotes

A quoted text tells the text it quotes (`quoted_injective`). Each character is written as itself or
as an escape behind a backslash, which no character is written as. The letter behind the backslash
tells the character, or says that the digits of its code point follow, up to a closing brace, which
is no digit (`escaped_cases`). So two texts that each start with a written character and are the
same start with the same one (`escaped_append_inj`).
-/

namespace NodeSchema.Text

/-! ## Numbers in base sixteen -/

theorem hexDigits_eq (n : ℕ) :
    hexDigits n = if n < 16 then [n.digitChar] else hexDigits (n / 16) ++ [(n % 16).digitChar] :=
  Nat.toDigits_eq_if (by decide)

theorem digitChar_inj {m n : ℕ} (hm : m < 16) (hn : n < 16) (h : m.digitChar = n.digitChar) :
    m = n := by
  have hall : ∀ m < 16, ∀ n < 16, m.digitChar = n.digitChar → m = n := by decide
  exact hall m hm n hn h

theorem exists_digit_of_mem_hexDigits {c : Char} {n : ℕ} (h : c ∈ hexDigits n) :
    ∃ d < 16, c = d.digitChar := by
  induction n using Nat.strong_induction_on with
  | _ n ih =>
    rw [hexDigits_eq] at h
    split_ifs at h with hn
    · exact ⟨n, hn, List.mem_singleton.mp h⟩
    · rcases List.mem_append.mp h with h | h
      · exact ih (n / 16) (by omega) h
      · exact ⟨n % 16, by omega, List.mem_singleton.mp h⟩

/-- A character that is no digit stands in no number. -/
theorem not_mem_hexDigits {c : Char} (hc : ∀ d < 16, Nat.digitChar d ≠ c) (n : ℕ) :
    c ∉ hexDigits n := by
  intro h
  obtain ⟨d, hd, rfl⟩ := exists_digit_of_mem_hexDigits h
  exact hc d hd rfl

theorem closing_not_mem_hexDigits (n : ℕ) : '\x7d' ∉ hexDigits n :=
  not_mem_hexDigits (by decide) n

theorem hexDigits_injective : Function.Injective hexDigits := by
  intro m n h
  induction m using Nat.strong_induction_on generalizing n with
  | _ m ih =>
    rw [hexDigits_eq m, hexDigits_eq n] at h
    split_ifs at h with hm hn hn
    · exact digitChar_inj hm hn (List.singleton_inj.mp h)
    · simpa [hexDigits] using congrArg List.length h
    · simpa [hexDigits] using congrArg List.length h
    · obtain ⟨hrest, hlast⟩ := List.append_inj' h rfl
      have hdiv : m / 16 = n / 16 := ih (m / 16) (by omega) hrest
      have hmod : m % 16 = n % 16 :=
        digitChar_inj (by omega) (by omega) (List.singleton_inj.mp hlast)
      omega

/-! ## Escapes -/

/-- What the letter of a short escape stands for. -/
def meaning (letter : Char) : Char :=
  if letter = '0' then '\x00'
  else if letter = 't' then '\t'
  else if letter = 'n' then '\n'
  else if letter = 'r' then '\r'
  else letter

/-- A character stands for itself, or is told by the letter behind a backslash, or by its code
point. -/
theorem escaped_cases (c : Char) :
    (escaped '"' c = [c] ∧ c ≠ '\\') ∨
      (∃ letter, escaped '"' c = ['\\', letter] ∧ letter ≠ 'u' ∧ meaning letter = c) ∨
        escaped '"' c = '\\' :: 'u' :: '\x7b' :: (hexDigits c.toNat ++ ['\x7d']) := by
  unfold escaped
  split_ifs with hnul htab hfeed hreturn hmark hprint
  · exact .inr (.inl ⟨'0', rfl, by decide, by rw [hnul]; decide⟩)
  · exact .inr (.inl ⟨'t', rfl, by decide, by rw [htab]; decide⟩)
  · exact .inr (.inl ⟨'n', rfl, by decide, by rw [hfeed]; decide⟩)
  · exact .inr (.inl ⟨'r', rfl, by decide, by rw [hreturn]; decide⟩)
  · have hc : c = '"' ∨ c = '\\' := by simpa using hmark
    refine .inr (.inl ⟨c, rfl, ?_⟩)
    rcases hc with rfl | rfl <;> decide
  · exact .inr (.inr (by simp))
  · exact .inl ⟨rfl, by simp_all⟩

theorem feed_not_mem_escaped (c : Char) : '\n' ∉ escaped '"' c := by
  unfold escaped
  split_ifs with hnul htab hfeed hreturn hmark hprint
  · decide
  · decide
  · decide
  · decide
  · have hc : c = '"' ∨ c = '\\' := by simpa using hmark
    rcases hc with rfl | rfl <;> decide
  · simpa using not_mem_hexDigits (by decide) c.toNat
  · simpa using Ne.symm hfeed

/-- A text that starts with an escaped character starts with no other, and goes on in one way. -/
theorem escaped_append_inj {c d : Char} {rest rest' : List Char}
    (h : escaped '"' c ++ rest = escaped '"' d ++ rest') : c = d ∧ rest = rest' := by
  rcases escaped_cases c with ⟨hc, hplain⟩ | ⟨letter, hc, hu, rfl⟩ | hc <;>
    rcases escaped_cases d with ⟨hd, hplain'⟩ | ⟨letter', hd, hu', rfl⟩ | hd <;>
    rw [hc, hd] at h
  · simpa using h
  · exact absurd (List.cons.inj h).1 hplain
  · exact absurd (List.cons.inj h).1 hplain
  · exact absurd (List.cons.inj h).1.symm hplain'
  · obtain ⟨rfl, rfl⟩ : letter = letter' ∧ rest = rest' := by simpa using h
    exact ⟨rfl, rfl⟩
  · exact absurd (List.cons.inj (List.cons.inj h).2).1 hu
  · exact absurd (List.cons.inj h).1.symm hplain'
  · exact absurd (List.cons.inj (List.cons.inj h).2).1.symm hu'
  · have hdigits : hexDigits c.toNat ++ '\x7d' :: rest = hexDigits d.toNat ++ '\x7d' :: rest' := by
      simpa using h
    obtain ⟨hvalue, hrest⟩ := append_cons_inj (closing_not_mem_hexDigits _)
      (closing_not_mem_hexDigits _) hdigits
    exact ⟨Char.toNat_inj.mp (hexDigits_injective hvalue), hrest⟩

theorem escaped_ne_nil (c : Char) : escaped '"' c ≠ [] := by
  rcases escaped_cases c with ⟨hc, -⟩ | ⟨letter, hc, -⟩ | hc <;> simp [hc]

theorem flatMap_escaped_injective :
    Function.Injective fun s : List Char => s.flatMap (escaped '"') := by
  intro s t h
  induction s generalizing t with
  | nil =>
    cases t with
    | nil => rfl
    | cons d t => simp [escaped_ne_nil] at h
  | cons c s ih =>
    cases t with
    | nil => simp [escaped_ne_nil] at h
    | cons d t =>
      obtain ⟨rfl, hrest⟩ := escaped_append_inj h
      rw [ih hrest]

/-- A quoted text is on one line, whatever it quotes. -/
theorem feed_not_mem_quoted (s : String) : '\n' ∉ (quoted s).toList := by
  simp [quoted, feed_not_mem_escaped]

/-- Texts that are quoted alike are the same. -/
theorem quoted_injective : Function.Injective quoted := by
  intro s t h
  have hescaped : s.toList.flatMap (escaped '"') = t.toList.flatMap (escaped '"') := by
    simpa [quoted, String.ofList_inj] using h
  exact String.toList_injective (flatMap_escaped_injective hescaped)

end NodeSchema.Text
