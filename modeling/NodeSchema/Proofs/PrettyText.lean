import NodeSchema.Proofs.Unambiguous

/-!
# Pretty texts determine their values

The pretty text of a value shows where it ends : if two texts each start with the pretty text of
a value at the same level, then the two values are the same, and so is what follows them
(`unambiguous_prettyAt`). Strings end at the quotation mark that no escape hides, and after an
entry of an array or an object comes a comma or a line feed.

So a value can be read off its pretty text (`pretty_injective`).
-/

namespace NodeSchema.Json

/-! ## Entries between brackets -/

section Entries

variable {α : Type*} {text : α → String} {level : Nat} {opening closing : String}

/-- The further entries up to the closing bracket. -/
def furtherEntries (text : α → String) (level : Nat) (closing : String) (others : List α) :
    List Char :=
  others.flatMap (fun a => ',' :: ((lineStart (level + 1)).toList ++ (text a).toList))
    ++ ((lineStart level).toList ++ closing.toList)

theorem toList_lineStart (level : Nat) :
    (lineStart level).toList = '\n' :: List.replicate (2 * level) ' ' := by
  simp [lineStart]

theorem toList_bracketed_cons (a : α) (others : List α) :
    (bracketed opening closing level ((a :: others).map text)).toList =
      opening.toList ++ ((lineStart (level + 1)).toList ++
        ((text a).toList ++ furtherEntries text level closing others)) := by
  simp only [bracketed, List.map_cons, List.isEmpty_cons, Bool.false_eq_true, if_false,
    String.toList_append, String.toList_intercalate, List.map_map, Function.comp_def,
    Text.intercalate_cons_eq_flatMap, List.flatMap_map, furtherEntries, List.append_assoc]
  rfl

theorem furtherEntries_inj {others others' : List α} (h : ∀ a ∈ others, Unambiguous text a)
    {rest rest' : List Char}
    (heq : furtherEntries text level closing others ++ rest =
      furtherEntries text level closing others' ++ rest') :
    others = others' ∧ rest = rest' := by
  simp only [furtherEntries, toList_lineStart level, List.append_assoc, List.cons_append] at heq
  obtain ⟨hothers, hrest⟩ := further_inj (by decide) h heq
  exact ⟨hothers, by simpa using hrest⟩

/-- Entries can be told from the text of their brackets. -/
theorem bracketed_inj {entries entries' : List α} (h : ∀ a ∈ entries, Unambiguous text a)
    {c : Char} (hclosing : closing.toList = [c]) (hc : c ≠ '\n') {rest rest' : List Char}
    (heq : (bracketed opening closing level (entries.map text)).toList ++ rest =
      (bracketed opening closing level (entries'.map text)).toList ++ rest') :
    entries = entries' ∧ rest = rest' := by
  have hnil : (bracketed opening closing level []).toList = opening.toList ++ [c] := by
    simp [bracketed, hclosing]
  cases entries with
  | nil =>
    cases entries' with
    | nil => simpa using heq
    | cons b others' =>
      rw [List.map_nil, hnil, toList_bracketed_cons, toList_lineStart] at heq
      simp [hc] at heq
  | cons a others =>
    cases entries' with
    | nil =>
      rw [List.map_nil, hnil, toList_bracketed_cons, toList_lineStart] at heq
      simp [hc.symm] at heq
    | cons b others' =>
      obtain ⟨ha, hothers⟩ := List.forall_mem_cons.mp h
      rw [toList_bracketed_cons, toList_bracketed_cons] at heq
      simp only [List.append_assoc, List.append_cancel_left_eq] at heq
      obtain ⟨rfl, hrest⟩ := ha _ _ _ heq
      obtain ⟨rfl, rfl⟩ := furtherEntries_inj hothers hrest
      exact ⟨rfl, rfl⟩

end Entries

/-! ## Values -/

/-- The pretty text of a member. -/
def prettyMember (level : Nat) (member : String × Json) : String :=
  string member.1 ++ ": " ++ prettyAt level member.2

theorem prettyItems_eq (level : Nat) (items : List Json) :
    prettyItems level items = items.map (prettyAt level) := by
  induction items with
  | nil => rfl
  | cons item rest ih => rw [prettyItems, ih, List.map_cons]

theorem prettyMembers_eq (level : Nat) (members : List (String × Json)) :
    prettyMembers level members = members.map (prettyMember level) := by
  induction members with
  | nil => rfl
  | cons member rest ih => rw [prettyMembers, ih, List.map_cons, prettyMember]

theorem head?_prettyAt (level : Nat) (value : Json) (rest : List Char) :
    ((prettyAt level value).toList ++ rest).head? = some value.opening := by
  have hbracketed (opening closing : String) (level : Nat) (entries : List String) :
      ∃ inner, (bracketed opening closing level entries).toList = opening.toList ++ inner := by
    unfold bracketed
    split_ifs
    · exact ⟨_, String.toList_append⟩
    · simp only [String.toList_append, List.append_assoc]
      exact ⟨_, rfl⟩
  cases value with
  | null => simp [prettyAt, opening]
  | str s => simp [prettyAt, opening, string]
  | arr items =>
    obtain ⟨inner, htext⟩ := hbracketed "[" "]" level (prettyItems (level + 1) items)
    simp [prettyAt, opening, htext]
  | obj members =>
    obtain ⟨inner, htext⟩ := hbracketed "\x7b" "\x7d" level (prettyMembers (level + 1) members)
    simp [prettyAt, opening, htext]

/-- The pretty text of a value shows where it ends. -/
theorem unambiguous_prettyAt (level : Nat) (value : Json) : Unambiguous (prettyAt level) value := by
  refine unambiguous_of_parts prettyAt head?_prettyAt ?str ?arr ?obj level value
  case str =>
    intro level s
    rw [prettyAt]
  case arr =>
    intro level items hitems items' rest rest' heq
    rw [prettyAt, prettyAt, prettyItems_eq, prettyItems_eq] at heq
    exact bracketed_inj hitems rfl (by decide) heq
  case obj =>
    intro level members hmembers members' rest rest' heq
    rw [prettyAt, prettyAt, prettyMembers_eq, prettyMembers_eq] at heq
    exact bracketed_inj (fun member hmember => unambiguous_member ": " (hmembers member hmember))
      rfl (by decide) heq

/-- A value can be read off its pretty text. -/
theorem pretty_injective : Function.Injective pretty := by
  intro value other h
  have heq : (prettyAt 0 value).toList ++ [] = (prettyAt 0 other).toList ++ [] :=
    congrArg (fun text : String => text.toList ++ []) h
  exact (unambiguous_prettyAt 0 value _ _ _ heq).1

end NodeSchema.Json
