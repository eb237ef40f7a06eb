import NodeSchema.Proofs.Unambiguous

/-!
# Compact texts determine their values

The compact text of a value shows where it ends, as its pretty text does, although nothing but the
commas stands between the entries of an array or an object : an entry never starts with the
bracket that closes them, so brackets around nothing are told from brackets around entries by what
follows the first of them.

So a value can be read off its compact text (`compact_injective`).
-/

namespace NodeSchema.Json

/-! ## Entries between brackets -/

section Entries

variable {α : Type*} {text : α → String} {opening closing : String}

theorem toList_compactEntries (entries : List α) :
    (opening ++ ",".intercalate (entries.map text) ++ closing).toList =
      opening.toList ++ (match entries with
        | [] => closing.toList
        | a :: others => (text a).toList ++
            (others.flatMap (fun a => ',' :: ([] ++ (text a).toList)) ++ closing.toList)) := by
  cases entries with
  | nil => simp
  | cons a others =>
    simp only [String.toList_append, String.toList_intercalate, List.map_map, List.map_cons,
      Text.intercalate_cons_eq_flatMap, List.flatMap_map, List.append_assoc, List.nil_append]
    rfl

/-- Entries can be told from the text of their brackets, if none starts with the closing one. -/
theorem compactEntries_inj {c : Char} (hclosing : closing.toList = [c]) (hc : c ≠ ',')
    (hstart : ∀ a rest, ((text a).toList ++ rest).head? ≠ some c) {entries entries' : List α}
    (h : ∀ a ∈ entries, Unambiguous text a) {rest rest' : List Char}
    (heq : (opening ++ ",".intercalate (entries.map text) ++ closing).toList ++ rest =
      (opening ++ ",".intercalate (entries'.map text) ++ closing).toList ++ rest') :
    entries = entries' ∧ rest = rest' := by
  rw [toList_compactEntries, toList_compactEntries, List.append_assoc, List.append_assoc,
    List.append_cancel_left_eq] at heq
  cases entries with
  | nil =>
    cases entries' with
    | nil => exact ⟨rfl, List.append_cancel_left heq⟩
    | cons b others' =>
      have hhead := congrArg List.head? heq
      simp only [hclosing, List.cons_append, List.head?_cons, List.append_assoc] at hhead
      exact absurd hhead.symm (hstart b _)
  | cons a others =>
    cases entries' with
    | nil =>
      have hhead := congrArg List.head? heq
      simp only [hclosing, List.cons_append, List.head?_cons, List.append_assoc] at hhead
      exact absurd hhead (hstart a _)
    | cons b others' =>
      obtain ⟨ha, hothers⟩ := List.forall_mem_cons.mp h
      simp only [hclosing, List.append_assoc, List.cons_append] at heq
      obtain ⟨rfl, hfurther⟩ := ha _ _ _ heq
      obtain ⟨rfl, hrest⟩ := further_inj hc hothers hfurther
      exact ⟨rfl, by simpa using hrest⟩

end Entries

/-! ## Values -/

/-- The compact text of a member. -/
def compactMember (member : String × Json) : String :=
  string member.1 ++ ":" ++ compact member.2

theorem compactItems_eq (items : List Json) : compactItems items = items.map compact := by
  induction items with
  | nil => rfl
  | cons item rest ih => rw [compactItems, ih, List.map_cons]

theorem compactMembers_eq (members : List (String × Json)) :
    compactMembers members = members.map compactMember := by
  induction members with
  | nil => rfl
  | cons member rest ih => rw [compactMembers, ih, List.map_cons, compactMember]

theorem head?_compact (value : Json) (rest : List Char) :
    ((compact value).toList ++ rest).head? = some value.opening := by
  cases value <;> simp [compact, opening, string]

theorem head?_compactMember (member : String × Json) (rest : List Char) :
    ((compactMember member).toList ++ rest).head? = some '"' := by
  simp [compactMember, string]

/-- The compact text of a value shows where it ends. -/
theorem unambiguous_compact (value : Json) : Unambiguous compact value := by
  refine unambiguous_of_parts (fun _ => compact) (fun _ => head?_compact) ?str ?arr ?obj 0 value
  case str =>
    intro level s
    rw [compact]
  case arr =>
    intro level items hitems items' rest rest' heq
    rw [compact, compact, compactItems_eq, compactItems_eq] at heq
    refine compactEntries_inj (c := ']') rfl (by decide) (fun item rest => ?_) hitems heq
    rw [head?_compact]
    cases item <;> simp [opening]
  case obj =>
    intro level members hmembers members' rest rest' heq
    rw [compact, compact, compactMembers_eq, compactMembers_eq] at heq
    have hstart (member : String × Json) (rest : List Char) :
        ((compactMember member).toList ++ rest).head? ≠ some '\x7d' := by
      rw [head?_compactMember]
      decide
    exact compactEntries_inj rfl (by decide) hstart
      (fun member hmember => unambiguous_member ":" (hmembers member hmember)) heq

/-- A value can be read off its compact text. -/
theorem compact_injective : Function.Injective compact := by
  intro value other h
  have heq : (compact value).toList ++ [] = (compact other).toList ++ [] :=
    congrArg (fun text : String => text.toList ++ []) h
  exact (unambiguous_compact value _ _ _ heq).1

end NodeSchema.Json
