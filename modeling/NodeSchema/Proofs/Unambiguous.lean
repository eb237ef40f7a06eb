import NodeSchema.Proofs.JsonText
import NodeSchema.Proofs.Text

/-!
# Texts of values that show where they end

A text of a value shows where it ends if two texts that each start with the text of a value start
with that of the same value, and go on alike (`Unambiguous`). A string does, since it ends at the
quotation mark that no escape hides. Entries with commas between them do if each of them does and
what closes them is no comma (`further_inj`).

So a way to write JSON values does if the kind of a value can be seen from its first character and
arrays and objects do as soon as their entries do (`unambiguous_of_parts`).
-/

namespace NodeSchema.Json

/-- A text that starts with the one of `a` starts with that of no other item. -/
def Unambiguous {α : Type*} (text : α → String) (a : α) : Prop :=
  ∀ b rest rest', (text a).toList ++ rest = (text b).toList ++ rest' → a = b ∧ rest = rest'

theorem unambiguous_string (s : String) : Unambiguous string s := by
  intro other rest rest' h
  rw [string_append, string_append, List.cons_inj_right] at h
  have hread := congrArg readString h
  rw [readString_escaped, readString_escaped] at hread
  simp only [Except.ok.injEq, Prod.mk.injEq] at hread
  exact ⟨String.toList_injective hread.1, hread.2⟩

/-- A member is told by its text if its value is by its own. -/
theorem unambiguous_member {write : Json → String} (colon : String) {member : String × Json}
    (h : Unambiguous write member.2) :
    Unambiguous (fun member => string member.1 ++ colon ++ write member.2) member := by
  intro other rest rest' heq
  simp only [String.toList_append, List.append_assoc] at heq
  obtain ⟨hkey, htail⟩ := unambiguous_string member.1 _ _ _ heq
  rw [List.append_cancel_left_eq] at htail
  obtain ⟨hvalue, hrest⟩ := h _ _ _ htail
  exact ⟨Prod.ext hkey hvalue, hrest⟩

/-- Entries behind a comma each can be told from their text, up to another mark. -/
theorem further_inj {α : Type*} {text : α → String} {start : List Char} {c : Char}
    (hc : c ≠ ',') {others others' : List α} (h : ∀ a ∈ others, Unambiguous text a)
    {rest rest' : List Char}
    (heq : others.flatMap (fun a => ',' :: (start ++ (text a).toList)) ++ c :: rest =
      others'.flatMap (fun a => ',' :: (start ++ (text a).toList)) ++ c :: rest') :
    others = others' ∧ rest = rest' := by
  induction others generalizing others' with
  | nil =>
    cases others' with
    | nil => simpa using heq
    | cons b others' => simp [hc] at heq
  | cons a others ih =>
    cases others' with
    | nil => simp [hc.symm] at heq
    | cons b others' =>
      obtain ⟨ha, hothers⟩ := List.forall_mem_cons.mp h
      simp only [List.flatMap_cons, List.cons_append, List.append_assoc, List.cons_inj_right,
        List.append_cancel_left_eq] at heq
      obtain ⟨rfl, hrest⟩ := ha _ _ _ heq
      obtain ⟨rfl, rfl⟩ := ih hothers hrest
      exact ⟨rfl, rfl⟩

/-! ## Values -/

/-- What holds of arrays and objects as soon as it holds of what they hold, and of the other values
anyway, holds of every value. -/
theorem induction_on_parts {motive : Json → Prop} (null : motive .null)
    (str : ∀ s, motive (.str s))
    (arr : ∀ items, (∀ item ∈ items, motive item) → motive (.arr items))
    (obj : ∀ members, (∀ member ∈ members, motive member.2) → motive (.obj members)) :
    (value : Json) → motive value
  | .null => null
  | .str s => str s
  | .arr items => arr items fun item _hitem => induction_on_parts null str arr obj item
  | .obj members =>
    obj members fun member _hmember => induction_on_parts null str arr obj member.2
termination_by value => sizeOf value
decreasing_by
  · have := List.sizeOf_lt_of_mem _hitem
    simp only [Json.arr.sizeOf_spec]
    omega
  · have := List.sizeOf_lt_of_mem _hmember
    obtain ⟨key, value⟩ := member
    simp only [Json.obj.sizeOf_spec, Prod.mk.sizeOf_spec] at this ⊢
    omega

/-- The first character of the text of a value, which shows its kind. -/
def opening : Json → Char
  | null => 'n'
  | str _ => '"'
  | arr _ => '['
  | obj _ => '\x7b'

/-- Values written at levels of nesting can be told from their texts if their kinds can, and
arrays and objects can as soon as what they hold can. -/
theorem unambiguous_of_parts (write : ℕ → Json → String)
    (hopening : ∀ level value rest,
      ((write level value).toList ++ rest).head? = some value.opening)
    (hstr : ∀ level s, write level (str s) = string s)
    (harr : ∀ level items, (∀ item ∈ items, Unambiguous (write (level + 1)) item) →
      ∀ items' rest rest', (write level (arr items)).toList ++ rest =
        (write level (arr items')).toList ++ rest' → items = items' ∧ rest = rest')
    (hobj : ∀ level members,
      (∀ member ∈ members, Unambiguous (write (level + 1)) member.2) →
      ∀ members' rest rest', (write level (obj members)).toList ++ rest =
        (write level (obj members')).toList ++ rest' → members = members' ∧ rest = rest')
    (level : ℕ) (value : Json) : Unambiguous (write level) value := by
  have hkind {level : ℕ} {value other : Json} {rest rest' : List Char}
      (heq : (write level value).toList ++ rest = (write level other).toList ++ rest') :
      value.opening = other.opening := by
    have hhead := congrArg List.head? heq
    rwa [hopening, hopening, Option.some_inj] at hhead
  induction value using induction_on_parts generalizing level with
  | null =>
    intro other rest rest' heq
    cases other with
    | null => exact ⟨rfl, List.append_cancel_left heq⟩
    | _ => cases hkind heq
  | str s =>
    intro other rest rest' heq
    cases other with
    | str s' =>
      rw [hstr, hstr] at heq
      obtain ⟨rfl, hrest⟩ := unambiguous_string s _ _ _ heq
      exact ⟨rfl, hrest⟩
    | _ => cases hkind heq
  | arr items ih =>
    intro other rest rest' heq
    cases other with
    | arr items' =>
      have hitems : ∀ item ∈ items, Unambiguous (write (level + 1)) item :=
        fun item hitem => ih item hitem (level + 1)
      obtain ⟨rfl, hrest⟩ := harr level items hitems items' rest rest' heq
      exact ⟨rfl, hrest⟩
    | _ => cases hkind heq
  | obj members ih =>
    intro other rest rest' heq
    cases other with
    | obj members' =>
      have hmembers : ∀ member ∈ members, Unambiguous (write (level + 1)) member.2 :=
        fun member hmember => ih member hmember (level + 1)
      obtain ⟨rfl, hrest⟩ := hobj level members hmembers members' rest rest' heq
      exact ⟨rfl, hrest⟩
    | _ => cases hkind heq

end NodeSchema.Json
