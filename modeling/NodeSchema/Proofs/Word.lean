import NodeSchema.Proofs.Text
import NodeSchema.Word

/-!
# Names and types, character by character

Which characters a name and a type cannot hold, and the words of a type as the maximal
runs of name characters in it (`mem_typeWords_iff`). A run is maximal if the text does
not go on with a name character at either of its ends (`IsNameRun`).
-/

namespace NodeSchema

/-! ## Characters -/

theorem isNameChar_of_isNameStart {c : Char} (h : isNameStart c = true) : isNameChar c = true := by
  simp only [isNameStart, isNameChar, Char.isAlphanum, Bool.or_eq_true] at h ⊢
  rcases h with h | h <;> simp [h]

theorem isTypeChar_of_isNameChar {c : Char} (h : isNameChar c = true) : isTypeChar c = true := by
  simp [isTypeChar, h]

theorem isNameChar_of_isTypeMark {c : Char} (h : isTypeMark c = true) : isNameChar c = false := by
  simp only [isTypeMark, Bool.or_eq_true, decide_eq_true_eq] at h
  rcases h with (rfl | rfl) | rfl <;> decide

/-- In a type every character that is not a name character is a mark. -/
theorem isTypeMark_iff {c : Char} (h : isTypeChar c = true) :
    isTypeMark c = true ↔ isNameChar c = false := by
  refine ⟨isNameChar_of_isTypeMark, fun hc => ?_⟩
  simpa [isTypeChar, hc] using h

/-- The characters of types lie between `0` and `z`. -/
theorem toNat_of_isTypeChar {c : Char} (h : isTypeChar c = true) :
    0x30 ≤ c.toNat ∧ c.toNat ≤ 0x7A := by
  have halpha : c.isAlpha = (c.isUpper || c.isLower) := rfl
  have hupper : c.isUpper = decide ('A'.val ≤ c.val ∧ c.val ≤ 'Z'.val) := rfl
  have hlower : c.isLower = (decide ('a'.val ≤ c.val) && decide (c.val ≤ 'z'.val)) := rfl
  simp only [isTypeChar, isNameChar, isTypeMark, Char.isAlphanum, halpha, hupper, hlower,
    Char.isDigit, Bool.or_eq_true, Bool.and_eq_true, decide_eq_true_eq, UInt32.le_iff_toNat_le,
    ge_iff_le] at h
  rcases h with (((h | h) | h) | rfl) | ((rfl | rfl) | rfl)
  · simp at h
    omega
  · simp at h
    omega
  · simp at h
    omega
  all_goals decide

theorem isBlank_of_isTypeChar {c : Char} (h : isTypeChar c = true) : Text.isBlank c = false := by
  obtain ⟨hlow, hhigh⟩ := toNat_of_isTypeChar h
  simp only [Text.isBlank, Bool.or_eq_false_iff, Bool.and_eq_false_iff, decide_eq_false_iff_not,
    beq_eq_false_iff_ne]
  omega

/-- What holds of the first characters holds of each character that is one of them. -/
theorem forall_of_forall_ofNat (P : Char → Prop) {n : ℕ} (h : ∀ i < n, P (Char.ofNat i)) {c : Char}
    (hc : c.toNat < n) : P c := by
  have hP := h c.toNat hc
  rwa [Char.ofNat_toNat] at hP

theorem forall_isTypeChar (P : Char → Prop) (h : ∀ i < 0x7B, P (Char.ofNat i)) {c : Char}
    (hc : isTypeChar c = true) : P c :=
  forall_of_forall_ofNat P h (Nat.lt_succ_of_le (toNat_of_isTypeChar hc).2)

/-! ## Names and types -/

theorem isIdentifier_iff {s : String} :
    isIdentifier s = true ↔ ∃ c rest, s.toList = c :: rest ∧ isNameStart c = true ∧
      ∀ x ∈ rest, isNameChar x = true := by
  unfold isIdentifier
  split
  · next h => simp [h]
  · next c rest h => simp [h, and_assoc]

theorem isTypeExpr_iff {s : String} :
    isTypeExpr s = true ↔ ∃ c rest, s.toList = c :: rest ∧ isNameStart c = true ∧
      ∀ x ∈ rest, isTypeChar x = true := by
  unfold isTypeExpr
  split
  · next h => simp [h]
  · next c rest h => simp [h, and_assoc]

theorem isTypeChar_of_mem {s : String} (h : isTypeExpr s = true) {c : Char} (hc : c ∈ s.toList) :
    isTypeChar c = true := by
  obtain ⟨first, rest, hs, hfirst, hrest⟩ := isTypeExpr_iff.mp h
  rw [hs, List.mem_cons] at hc
  rcases hc with rfl | hc
  · exact isTypeChar_of_isNameChar (isNameChar_of_isNameStart hfirst)
  · exact hrest c hc

theorem isNameChar_of_mem {s : String} (h : isIdentifier s = true) {c : Char} (hc : c ∈ s.toList) :
    isNameChar c = true := by
  obtain ⟨first, rest, hs, hfirst, hrest⟩ := isIdentifier_iff.mp h
  rw [hs, List.mem_cons] at hc
  rcases hc with rfl | hc
  · exact isNameChar_of_isNameStart hfirst
  · exact hrest c hc

theorem toList_ne_nil_of_isTypeExpr {s : String} (h : isTypeExpr s = true) : s.toList ≠ [] := by
  obtain ⟨first, rest, hs, -, -⟩ := isTypeExpr_iff.mp h
  simp [hs]

theorem solid_of_isTypeExpr {s : String} (h : isTypeExpr s = true) : Text.Solid s.toList :=
  fun _ hc => isBlank_of_isTypeChar (isTypeChar_of_mem h hc)

/-- A character that cannot stand in a type stands in none. -/
theorem not_mem_of_isTypeExpr {s : String} (h : isTypeExpr s = true) {c : Char}
    (hc : isTypeChar c = false) : c ∉ s.toList := by
  intro hmem
  rw [isTypeChar_of_mem h hmem] at hc
  cases hc

theorem not_mem_of_isIdentifier {name : String} (h : isIdentifier name = true) {c : Char}
    (hc : isTypeChar c = false) : c ∉ name.toList :=
  not_mem_of_isTypeExpr (isTypeExpr_of_isIdentifier h) hc

theorem not_mem_of_not_isNameChar {name : String} (h : isIdentifier name = true) {c : Char}
    (hc : isNameChar c = false) : c ∉ name.toList := by
  intro hmem
  rw [isNameChar_of_mem h hmem] at hc
  cases hc

/-! ## Runs of name characters -/

/-- `run` is a maximal run of name characters of `text` : it is not empty, and before it
and after it the text ends or has some other character. -/
def IsNameRun (run text : String) : Prop :=
  run ≠ "" ∧ (∀ c ∈ run.toList, isNameChar c = true) ∧
    ∃ before after, text.toList = before ++ run.toList ++ after ∧
      (∀ c ∈ before.getLast?, isNameChar c = false) ∧ ∀ c ∈ after.head?, isNameChar c = false

theorem isNameRun_iff_mem_splitOnP {run text : String} :
    IsNameRun run text ↔ run ≠ "" ∧ run.toList ∈ text.toList.splitOnP (!isNameChar ·) := by
  rw [Text.mem_splitOnP_iff, IsNameRun]
  simp

/-- The words of a type, apart from empty ones, are its runs of name characters. -/
theorem mem_typeWords_iff {type word : String} (htype : isTypeExpr type = true)
    (hword : word ≠ "") : word ∈ typeWords type ↔ IsNameRun word type := by
  have hpieces : type.toList.splitOnP isTypeMark = type.toList.splitOnP (!isNameChar ·) := by
    refine Text.splitOnP_congr fun c hc => ?_
    rw [Bool.eq_iff_iff, isTypeMark_iff (isTypeChar_of_mem htype hc), Bool.not_eq_true']
  rw [isNameRun_iff_mem_splitOnP, ← hpieces, typeWords, List.mem_map]
  refine ⟨?_, ?_⟩
  · rintro ⟨piece, hpiece, rfl⟩
    exact ⟨hword, by rwa [String.toList_ofList]⟩
  · rintro ⟨-, hpiece⟩
    exact ⟨word.toList, hpiece, String.ofList_toList⟩

/-- The runs of a text with some other character in it are those before and those after
that character. -/
theorem isNameRun_append {run s t : String} {c : Char} (hc : isNameChar c = false) :
    IsNameRun run (s ++ String.singleton c ++ t) ↔ IsNameRun run s ∨ IsNameRun run t := by
  have htext : (s ++ String.singleton c ++ t).toList = s.toList ++ c :: t.toList := by simp
  simp only [isNameRun_iff_mem_splitOnP, htext]
  rw [List.splitOnP_append_cons _ _ (by simp [hc]), List.mem_append, and_or_left]

theorem not_isNameRun_empty {run : String} : ¬IsNameRun run "" := by
  rintro ⟨hne, -, before, after, heq, -, -⟩
  have hrun : run.toList = [] := by
    simp only [String.toList_empty, List.nil_eq, List.append_eq_nil_iff] at heq
    exact heq.1.2
  exact hne (String.toList_eq_nil_iff.mp hrun)

/-- A text of name characters is its only run. -/
theorem isNameRun_iff_eq {run word : String} (hword : word.toList.all isNameChar = true)
    (hne : word ≠ "") : IsNameRun run word ↔ run = word := by
  have hpieces : word.toList.splitOnP (!isNameChar ·) = [word.toList] :=
    List.splitOnP_eq_singleton (by simpa using hword)
  rw [isNameRun_iff_mem_splitOnP, hpieces, List.mem_singleton, String.toList_inj]
  exact ⟨fun h => h.2, fun h => ⟨h ▸ hne, h⟩⟩

/-- The runs of a type behind an owning pointer. -/
theorem isNameRun_owned_iff {run type : String} :
    IsNameRun run ("std::unique_ptr<" ++ type ++ ">") ↔
      run = "std" ∨ run = "unique_ptr" ∨ IsNameRun run type := by
  have htext : "std::unique_ptr<" ++ type ++ ">" =
      "std" ++ String.singleton ':' ++ ("" ++ String.singleton ':' ++
        ("unique_ptr" ++ String.singleton '<' ++ (type ++ String.singleton '>' ++ ""))) := by
    apply String.toList_injective
    simp
  have hstd : IsNameRun run "std" ↔ run = "std" := isNameRun_iff_eq (by decide) (by decide)
  have hptr : IsNameRun run "unique_ptr" ↔ run = "unique_ptr" :=
    isNameRun_iff_eq (by decide) (by decide)
  rw [htext, isNameRun_append (by decide), isNameRun_append (by decide),
    isNameRun_append (by decide), isNameRun_append (by decide), hstd, hptr]
  simp only [not_isNameRun_empty, or_false, false_or]

/-- A type behind an owning pointer is a type. -/
theorem isTypeExpr_owned {type : String} (h : isTypeExpr type = true) :
    isTypeExpr ("std::unique_ptr<" ++ type ++ ">") = true := by
  have hfixed : ∀ c ∈ "td::unique_ptr<".toList ++ ">".toList, isTypeChar c = true :=
    List.all_eq_true.mp (by decide)
  refine isTypeExpr_iff.mpr ⟨'s', "td::unique_ptr<".toList ++ type.toList ++ ">".toList, by simp,
    by decide, fun c hc => ?_⟩
  rw [List.append_assoc, List.mem_append, List.mem_append] at hc
  rcases hc with hc | hc | hc
  · exact hfixed c (List.mem_append_left _ hc)
  · exact isTypeChar_of_mem h hc
  · exact hfixed c (List.mem_append_right _ hc)

end NodeSchema
