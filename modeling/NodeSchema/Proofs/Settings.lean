import NodeSchema.Proofs.Word
import NodeSchema.Settings

/-!
# Usable settings

What the check of settings comes to : `check_eq_ok_iff` says that settings pass it if
each of their parts can be used (`Settings.Usable`), and the lemmas on the parts say
what that means for a separator and for a name.
-/

namespace NodeSchema.Settings

/-- Settings each part of which can be used. -/
structure Usable (s : Settings) : Prop where
  separator : isSeparator s.separator = true
  unionName : isDeclarable s.unionName = true
  visitorName : isDeclarable s.visitorName = true
  union_ne_visitor : s.unionName ≠ s.visitorName
  scope : s.isScope = true
  guardName : ∀ name ∈ s.guardName, isIdentifier name = true
  includes : ∀ header ∈ s.includes, isHeader header = true

/-- Settings pass the check exactly if they can be used. -/
theorem check_eq_ok_iff {s : Settings} : s.check = .ok () ↔ s.Usable := by
  refine ⟨fun h => ?_, ?_⟩
  · unfold check at h
    split_ifs at h with hseparator hunion hvisitor hclash hscope
    split at h
    · cases h
    · next hguard =>
      split at h
      · cases h
      · next hincludes =>
        refine ⟨by simpa using hseparator, by simpa using hunion, by simpa using hvisitor, hclash,
          by simpa using hscope, ?_, ?_⟩
        · simpa using hguard
        · simpa using hincludes
  · rintro ⟨hseparator, hunion, hvisitor, hclash, hscope, hguard, hincludes⟩
    have hguard' : s.guardName.filter (fun name => !isIdentifier name) = none := by
      simpa using hguard
    have hincludes' : s.includes.find? (fun header => !isHeader header) = none := by
      simpa using hincludes
    simp [check, hseparator, hunion, hvisitor, hclash, hscope, hguard', hincludes']

/-- A separator is no comma, no white space, and no character of a type. -/
theorem isSeparator_iff {c : Char} :
    isSeparator c = true ↔ c ≠ ',' ∧ Text.isBlank c = false ∧ isTypeChar c = false := by
  simp [isSeparator, and_assoc]

/-- A name that union or visitor can be given is an identifier, not a reserved word, and
not one of the two names that every header declares. -/
theorem isDeclarable_iff {name : String} :
    isDeclarable name = true ↔ isIdentifier name = true ∧ isReserved name = false ∧
      name ≠ resultParam ∧ name ≠ dispatchName := by
  simp [isDeclarable, and_assoc]

/-! ## Included headers -/

theorem ne_empty_of_isHeader {header : String} (h : isHeader header = true) : header ≠ "" := by
  rintro rfl
  exact absurd h (by decide)

/-- A header holds no line end and no angle bracket. -/
theorem ne_of_mem_isHeader {header : String} (h : isHeader header = true) :
    ∀ c ∈ header.toList, c ≠ '\n' ∧ c ≠ '\r' ∧ c ≠ '<' ∧ c ≠ '>' := by
  simp only [isHeader, Bool.and_eq_true, Bool.not_eq_true', List.any_eq_false] at h
  simpa [not_or, and_assoc] using h.1.2

/-! ## Namespace and guard -/

/-- The nested namespaces are identifiers and no reserved words. -/
theorem Usable.isIdentifier_of_mem_scopeSegments {s : Settings} (h : s.Usable) {segment : String}
    (hsegment : segment ∈ s.scopeSegments) :
    isIdentifier segment = true ∧ isReserved segment = false := by
  obtain ⟨hpiece, hne⟩ := List.mem_filter.mp hsegment
  have hscope := h.scope
  rw [isScope, Bool.or_eq_true] at hscope
  rcases hscope with hempty | hall
  · have hpieces : s.scopePieces = [""] := by
      rw [scopePieces, String.isEmpty_iff.mp hempty]
      rfl
    rw [hpieces, List.mem_singleton] at hpiece
    rw [hpiece] at hne
    cases hne
  · simpa using List.all_eq_true.mp hall segment hpiece

theorem isNameChar_toUpper {c : Char} (h : isNameChar c = true) : isNameChar c.toUpper = true := by
  exact forall_isTypeChar (fun c => isNameChar c = true → isNameChar c.toUpper = true) (by decide)
    (isTypeChar_of_isNameChar h) h

theorem isNameChar_of_mem_upperCase {s : String} (hs : ∀ c ∈ s.toList, isNameChar c = true)
    {c : Char} (hc : c ∈ (upperCase s).toList) : isNameChar c = true := by
  rw [upperCase, String.toList_ofList, List.mem_map] at hc
  obtain ⟨lower, hlower, rfl⟩ := hc
  exact isNameChar_toUpper (hs lower hlower)

/-- The guard macro is made of name characters. -/
theorem Usable.isNameChar_of_mem_guard {s : Settings} (h : s.Usable) {c : Char}
    (hc : c ∈ s.guard.toList) : isNameChar c = true := by
  unfold guard at hc
  split at hc
  · next name hname => exact isNameChar_of_mem (h.guardName name hname) hc
  · have hstem : ∀ c ∈ ("_".intercalate (s.scopeSegments.map upperCase)).toList,
        isNameChar c = true := by
      intro c hc
      rcases Text.mem_toList_intercalate hc with hc | ⟨_, hpiece, hc⟩
      · rw [List.mem_singleton.mp hc]
        decide
      · obtain ⟨segment, hsegment, rfl⟩ := List.mem_map.mp hpiece
        have hidentifier := (h.isIdentifier_of_mem_scopeSegments hsegment).1
        exact isNameChar_of_mem_upperCase (fun _ => isNameChar_of_mem hidentifier) hc
    have hfixed : ∀ c ∈ "AST".toList ++ "_HPP".toList, isNameChar c = true :=
      List.all_eq_true.mp (by decide)
    dsimp only at hc
    rw [String.toList_append, List.mem_append] at hc
    rcases hc with hc | hc
    · split_ifs at hc
      · exact hfixed c (List.mem_append_left _ hc)
      · exact hstem c hc
    · exact hfixed c (List.mem_append_right _ hc)

end NodeSchema.Settings
