import NodeSchema.Proofs.Reading

/-!
# The fault of a list of fields

The text behind the separator of a line falls into pieces at its commas. A piece is bad if it does
not have two words, or has a name or a type that cannot be used, or the name of an earlier piece or
of the node (`IsBad`), and it is at fault for the first of these (`PieceFault`). Where no piece is
bad, the name of one may still be a word of the type of one, be that the same piece, an earlier or
a later one (`Shadows`).

The pieces are read from the left, so a run that has come to a piece has found none of the earlier
ones bad, and knows their names (`SameNames`). It stops at the first bad piece
(`collectFields_eq_error_iff`). Only a run that has come to the end goes on to look for names that
are words of types, and finds the first of these, and for that the first type
(`exists_firstShadow_of_shadowing`).

`readFields_leftmostFault` : what the reading of the fields fails for is the leftmost fault.
-/

namespace NodeSchema

open Text

/-! ## Faults of one piece -/

/-- The piece consists of two words, a type and a name. -/
def HasWords (piece : List Char) (type name : String) : Prop :=
  words piece = [type.toList, name.toList]

/-- A name that a member can be given. -/
def IsMemberName (name : String) : Prop :=
  isIdentifier name = true ∧ isReserved name = false

/-- One of the earlier pieces has the name. -/
def IsTaken (earlier : List (List Char)) (name : String) : Prop :=
  ∃ piece ∈ earlier, ∃ type, HasWords piece type name

/-- A piece that is no field of `node` behind the earlier ones. -/
def IsBad (node : String) (earlier : List (List Char)) (piece : List Char) : Prop :=
  (words piece).length ≠ 2 ∨ ∃ type name, HasWords piece type name ∧
    (¬IsMemberName name ∨ isTypeExpr type = false ∨ IsTaken earlier name ∨ name = node)

/-- What a bad piece is at fault for : the first of the checks that it fails. -/
inductive PieceFault (node : String) (earlier : List (List Char)) (piece : List Char) :
    Reason → Prop
  | malformed (h : (words piece).length ≠ 2) :
      PieceFault node earlier piece
        (.malformedField (String.ofList (trim piece)) (words piece).length)
  | badName {type name : String} (h : HasWords piece type name) (hname : ¬IsMemberName name) :
      PieceFault node earlier piece (.invalidFieldName name)
  | badType {type name : String} (h : HasWords piece type name) (hname : IsMemberName name)
      (htype : isTypeExpr type = false) :
      PieceFault node earlier piece (.invalidFieldType name type)
  | taken {type name : String} (h : HasWords piece type name) (hname : IsMemberName name)
      (htype : isTypeExpr type = true) (htaken : IsTaken earlier name) :
      PieceFault node earlier piece (.duplicateField node name)
  | sameAsNode {type name : String} (h : HasWords piece type name) (hname : IsMemberName name)
      (htype : isTypeExpr type = true) (hfree : ¬IsTaken earlier name) (hnode : name = node) :
      PieceFault node earlier piece (.fieldNamedAfterNode name)

theorem exists_hasWords {piece : List Char} (h : (words piece).length = 2) :
    ∃ type name, HasWords piece type name := by
  obtain ⟨type, name, hwords⟩ := List.length_eq_two.mp h
  exact ⟨String.ofList type, String.ofList name, by simp [HasWords, hwords]⟩

theorem HasWords.unique {piece : List Char} {type name type' name' : String}
    (h : HasWords piece type name) (h' : HasWords piece type' name') :
    type = type' ∧ name = name' := by
  simpa [HasWords, String.toList_inj] using h.symm.trans h'

theorem hasWords_of_fieldText {piece : List Char} {field : Field} (h : FieldText piece field) :
    HasWords piece field.type field.name :=
  words_of_fieldText h

theorem isMemberName_iff {name : String} :
    IsMemberName name ↔ (!isIdentifier name || isReserved name) = false := by
  simp [IsMemberName]

/-- A piece is at fault for something exactly if it is bad. -/
theorem exists_pieceFault_iff {node : String} {earlier : List (List Char)} {piece : List Char} :
    (∃ reason, PieceFault node earlier piece reason) ↔ IsBad node earlier piece := by
  refine ⟨?_, ?_⟩
  · rintro ⟨_, h | ⟨h, hname⟩ | ⟨h, -, htype⟩ | ⟨h, -, -, htaken⟩ | ⟨h, -, -, -, hnode⟩⟩
    · exact .inl h
    · exact .inr ⟨_, _, h, .inl hname⟩
    · exact .inr ⟨_, _, h, .inr (.inl htype)⟩
    · exact .inr ⟨_, _, h, .inr (.inr (.inl htaken))⟩
    · exact .inr ⟨_, _, h, .inr (.inr (.inr hnode))⟩
  · rintro (h | ⟨type, name, h, hbad⟩)
    · exact ⟨_, .malformed h⟩
    · by_cases hname : IsMemberName name
      · cases htype : isTypeExpr type with
        | false => exact ⟨_, .badType h hname htype⟩
        | true =>
          by_cases htaken : IsTaken earlier name
          · exact ⟨_, .taken h hname htype htaken⟩
          · have hnode : name = node := by simpa [hname, htype, htaken] using hbad
            exact ⟨_, .sameAsNode h hname htype htaken hnode⟩
      · exact ⟨_, .badName h hname⟩

/-! ## Reading one piece -/

/-- The fields have the names of the pieces. -/
def SameNames (fields : List Field) (pieces : List (List Char)) : Prop :=
  ∀ name, name ∈ fields.map Field.name ↔ IsTaken pieces name

section Piece

variable {node : String} {fields : List Field} {earlier : List (List Char)} {piece : List Char}
  {reason : Reason}

theorem readField_of_hasWords {type name : String} (h : HasWords piece type name) :
    readField node fields piece =
      if !isIdentifier name || isReserved name then .error (.invalidFieldName name)
      else if !isTypeExpr type then .error (.invalidFieldType name type)
      else if fields.any fun field => field.name = name then .error (.duplicateField node name)
      else if name = node then .error (.fieldNamedAfterNode name)
      else .ok ⟨type, name⟩ := by
  rw [readField, h]
  simp only [String.ofList_toList]

theorem SameNames.any_iff (h : SameNames fields earlier) {name : String} :
    (fields.any fun field => field.name = name) = true ↔ IsTaken earlier name := by
  simp [← h name]

/-- A piece at fault is reported for that. -/
theorem PieceFault.readField_eq (h : PieceFault node earlier piece reason)
    (hnames : SameNames fields earlier) : readField node fields piece = .error reason := by
  cases h with
  | malformed h =>
    unfold readField
    split
    · next hwords => exact absurd (congrArg List.length hwords) h
    · rfl
  | badName h hname =>
    rw [isMemberName_iff, Bool.not_eq_false] at hname
    rw [readField_of_hasWords h, if_pos hname]
  | badType h hname htype => simp [readField_of_hasWords h, isMemberName_iff.mp hname, htype]
  | taken h hname htype htaken =>
    simp [readField_of_hasWords h, isMemberName_iff.mp hname, htype, hnames.any_iff.mpr htaken]
  | sameAsNode h hname htype hfree hnode =>
    rw [← hnames.any_iff, Bool.not_eq_true] at hfree
    simp [readField_of_hasWords h, isMemberName_iff.mp hname, htype, hfree, if_pos hnode]

/-- Every other piece is read as a field. -/
theorem exists_readField_iff (hnames : SameNames fields earlier) :
    (∃ field, readField node fields piece = .ok field) ↔ ¬IsBad node earlier piece := by
  refine ⟨?_, fun h => ?_⟩
  · rintro ⟨field, hread⟩ hbad
    obtain ⟨reason, hfault⟩ := exists_pieceFault_iff.mpr hbad
    cases hread.symm.trans (hfault.readField_eq hnames)
  · simp only [IsBad, not_or, not_exists, not_and, not_not] at h
    obtain ⟨type, name, hwords⟩ := exists_hasWords h.1
    obtain ⟨hname, htype, hfree, hnode⟩ := h.2 type name hwords
    rw [← hnames.any_iff, Bool.not_eq_true] at hfree
    exact ⟨⟨type, name⟩, by
      simp [readField_of_hasWords hwords, isMemberName_iff.mp hname, htype, hfree, hnode]⟩

/-- Reading a piece fails exactly for what the piece is at fault for. -/
theorem readField_eq_error_iff (hnames : SameNames fields earlier) :
    readField node fields piece = .error reason ↔ PieceFault node earlier piece reason := by
  refine ⟨fun h => ?_, fun h => h.readField_eq hnames⟩
  have hbad : IsBad node earlier piece := by
    by_contra hgood
    obtain ⟨field, hread⟩ := (exists_readField_iff hnames).mpr hgood
    cases hread.symm.trans h
  obtain ⟨other, hother⟩ := exists_pieceFault_iff.mpr hbad
  cases h.symm.trans (hother.readField_eq hnames)
  exact hother

end Piece

/-! ## Reading piece after piece -/

/-- The piece with number `i`, counted from zero, is bad behind those before it. -/
def BadAt (node : String) (pieces : List (List Char)) (i : ℕ) : Prop :=
  ∃ piece, pieces[i]? = some piece ∧ IsBad node (pieces.take i) piece

/-- The piece with number `i` is at fault behind those before it. -/
def FaultAt (node : String) (pieces : List (List Char)) (i : ℕ) (reason : Reason) : Prop :=
  ∃ piece, pieces[i]? = some piece ∧ PieceFault node (pieces.take i) piece reason

/-- The first bad piece is that with number `i`, and this is its fault. -/
def FirstFaultAt (node : String) (pieces : List (List Char)) (i : ℕ) (reason : Reason) : Prop :=
  FaultAt node pieces i reason ∧ ∀ j < i, ¬BadAt node pieces j

section Pieces

variable {node : String} {pieces : List (List Char)}

theorem exists_faultAt_iff {i : ℕ} :
    (∃ reason, FaultAt node pieces i reason) ↔ BadAt node pieces i := by
  simp only [FaultAt, BadAt, ← exists_pieceFault_iff]
  tauto

theorem BadAt.lt_length {i : ℕ} (h : BadAt node pieces i) : i < pieces.length := by
  obtain ⟨piece, hpiece, -⟩ := h
  exact (List.getElem?_eq_some_iff.mp hpiece).1

theorem collectFields_append_singleton {earlier : List Field} {piece : List Char} :
    collectFields node earlier (pieces ++ [piece]) =
      (collectFields node earlier pieces).bind fun fields =>
        (readField node fields piece).map fun field => fields ++ [field] := by
  induction pieces generalizing earlier with
  | nil =>
    simp only [List.nil_append, collectFields, Except.bind]
    cases readField node earlier piece <;> rfl
  | cons first rest ih =>
    rw [List.cons_append, collectFields, collectFields]
    cases readField node earlier first with
    | error reason => rfl
    | ok field => exact ih

/-- The fields of a run that succeeds are what the pieces derive, one each. -/
theorem forall₂_of_collectFields {fields : List Field}
    (h : collectFields node [] pieces = .ok fields) : List.Forall₂ FieldText pieces fields := by
  obtain ⟨new, rfl, hnew, -⟩ := (collectFields_eq_ok_iff (by simp)).mp h
  exact hnew

theorem sameNames_of_forall₂ {fields : List Field} (h : List.Forall₂ FieldText pieces fields) :
    SameNames fields pieces := by
  intro name
  rw [List.mem_map]
  refine ⟨?_, ?_⟩
  · rintro ⟨field, hfield, rfl⟩
    obtain ⟨piece, hpiece, htext⟩ := exists_left_of_mem h hfield
    exact ⟨piece, hpiece, field.type, hasWords_of_fieldText htext⟩
  · rintro ⟨piece, hpiece, type, hwords⟩
    obtain ⟨field, hfield, htext⟩ := exists_right_of_mem h hpiece
    exact ⟨field, hfield, ((hasWords_of_fieldText htext).unique hwords).2⟩

section Step

variable {i : ℕ} {fields : List Field} {reason : Reason}

theorem collectFields_take_succ {piece : List Char} (hpiece : pieces[i]? = some piece) :
    collectFields node [] (pieces.take (i + 1)) =
      (collectFields node [] (pieces.take i)).bind fun fields =>
        (readField node fields piece).map fun field => fields ++ [field] := by
  rw [List.take_add_one, hpiece, Option.toList_some, collectFields_append_singleton]

/-- A run that has failed fails for the same reason on more pieces. -/
theorem collectFields_take_of_le {n : ℕ} (hle : i ≤ n)
    (h : collectFields node [] (pieces.take i) = .error reason) :
    collectFields node [] (pieces.take n) = .error reason := by
  induction n, hle using Nat.le_induction with
  | base => exact h
  | succ n _ ih =>
    cases hpiece : pieces[n]? with
    | none => rwa [List.take_add_one, hpiece, Option.toList_none, List.append_nil]
    | some piece =>
      rw [collectFields_take_succ hpiece, ih]
      rfl

/-- A run that has succeeded goes on to succeed exactly if the next piece is not bad. -/
theorem exists_collectFields_succ_iff
    (h : collectFields node [] (pieces.take i) = .ok fields) :
    (∃ more, collectFields node [] (pieces.take (i + 1)) = .ok more) ↔ ¬BadAt node pieces i := by
  have hnames := sameNames_of_forall₂ (forall₂_of_collectFields h)
  cases hpiece : pieces[i]? with
  | none =>
    have hgood : ¬BadAt node pieces i := by simp [BadAt, hpiece]
    rw [List.take_add_one, hpiece, Option.toList_none, List.append_nil]
    exact ⟨fun _ => hgood, fun _ => ⟨fields, h⟩⟩
  | some piece =>
    have hbad : BadAt node pieces i ↔ IsBad node (pieces.take i) piece := by simp [BadAt, hpiece]
    rw [collectFields_take_succ hpiece, h, hbad, ← exists_readField_iff hnames]
    simp only [Except.bind]
    cases readField node fields piece <;> simp [Except.map]

/-- It goes on to fail exactly for what the next piece is at fault for. -/
theorem collectFields_succ_eq_error_iff
    (h : collectFields node [] (pieces.take i) = .ok fields) :
    collectFields node [] (pieces.take (i + 1)) = .error reason ↔
      FaultAt node pieces i reason := by
  have hnames := sameNames_of_forall₂ (forall₂_of_collectFields h)
  cases hpiece : pieces[i]? with
  | none =>
    rw [List.take_add_one, hpiece, Option.toList_none, List.append_nil, h]
    simp [FaultAt, hpiece]
  | some piece =>
    have hfault : FaultAt node pieces i reason ↔
        PieceFault node (pieces.take i) piece reason := by simp [FaultAt, hpiece]
    rw [collectFields_take_succ hpiece, h, hfault, ← readField_eq_error_iff hnames]
    simp only [Except.bind]
    cases readField node fields piece <;> simp [Except.map]

/-- A run over the first pieces succeeds exactly if none of them is bad. -/
theorem exists_collectFields_take_iff :
    (∃ fields, collectFields node [] (pieces.take i) = .ok fields) ↔
      ∀ j < i, ¬BadAt node pieces j := by
  induction i with
  | zero => simp [collectFields]
  | succ i ih =>
    rw [Nat.forall_lt_succ_right, ← ih]
    refine ⟨fun hmore => ?_, ?_⟩
    · cases hread : collectFields node [] (pieces.take i) with
      | error reason =>
        obtain ⟨more, hmore⟩ := hmore
        cases hmore.symm.trans (collectFields_take_of_le i.le_succ hread)
      | ok fields => exact ⟨⟨fields, rfl⟩, (exists_collectFields_succ_iff hread).mp hmore⟩
    · rintro ⟨⟨fields, hread⟩, hgood⟩
      exact (exists_collectFields_succ_iff hread).mpr hgood

/-- A run over the first pieces fails exactly for the first fault among them. -/
theorem collectFields_take_eq_error_iff :
    collectFields node [] (pieces.take i) = .error reason ↔
      ∃ j < i, FirstFaultAt node pieces j reason := by
  refine ⟨fun h => ?_, ?_⟩
  · induction i with
    | zero => cases h
    | succ i ih =>
      cases hread : collectFields node [] (pieces.take i) with
      | error other =>
        cases h.symm.trans (collectFields_take_of_le i.le_succ hread)
        obtain ⟨j, hj, hfirst⟩ := ih hread
        exact ⟨j, by omega, hfirst⟩
      | ok fields =>
        exact ⟨i, i.lt_succ_self, (collectFields_succ_eq_error_iff hread).mp h,
          exists_collectFields_take_iff.mp ⟨fields, hread⟩⟩
  · rintro ⟨j, hj, hfault, hgood⟩
    obtain ⟨fields, hread⟩ := exists_collectFields_take_iff.mpr hgood
    exact collectFields_take_of_le hj ((collectFields_succ_eq_error_iff hread).mpr hfault)

end Step

/-- All pieces are read exactly if none is bad. -/
theorem exists_collectFields_iff :
    (∃ fields, collectFields node [] pieces = .ok fields) ↔ ∀ i, ¬BadAt node pieces i := by
  have htake := @exists_collectFields_take_iff node pieces pieces.length
  rw [List.take_length] at htake
  exact htake.trans ⟨fun h i hbad => h i hbad.lt_length hbad, fun h i _ => h i⟩

/-- Otherwise the reading fails for the first fault. -/
theorem collectFields_eq_error_iff {reason : Reason} :
    collectFields node [] pieces = .error reason ↔ ∃ i, FirstFaultAt node pieces i reason := by
  have htake := @collectFields_take_eq_error_iff node pieces pieces.length reason
  rw [List.take_length] at htake
  refine htake.trans ⟨fun ⟨i, _, h⟩ => ⟨i, h⟩, fun ⟨i, h⟩ => ⟨i, ?_, h⟩⟩
  exact (exists_faultAt_iff.mp ⟨reason, h.1⟩).lt_length

/-- If some piece is bad, there is a first one. -/
theorem exists_firstFaultAt_iff :
    (∃ reason i, FirstFaultAt node pieces i reason) ↔ ∃ i, BadAt node pieces i := by
  refine ⟨fun ⟨reason, i, hfault, _⟩ => ⟨i, exists_faultAt_iff.mp ⟨reason, hfault⟩⟩, ?_⟩
  rintro ⟨i, hbad⟩
  cases hread : collectFields node [] pieces with
  | error reason => exact ⟨reason, collectFields_eq_error_iff.mp hread⟩
  | ok fields => exact absurd hbad (exists_collectFields_iff.mp ⟨fields, hread⟩ i)

end Pieces

/-! ## Fields that hide a type -/

/-- The two words of the piece with number `i`. -/
def WordsAt (pieces : List (List Char)) (i : ℕ) (type name : String) : Prop :=
  ∃ piece, pieces[i]? = some piece ∧ HasWords piece type name

/-- The name of the piece with number `i` is a run of name characters of the type of the piece
with number `j`. -/
def Shadows (pieces : List (List Char)) (i j : ℕ) (name type : String) : Prop :=
  (∃ own, WordsAt pieces i own name) ∧ (∃ other, WordsAt pieces j type other) ∧
    IsNameRun name type

/-- This is so for no piece before the one with number `i`, and for that with no type before the
one with number `j`. -/
def FirstShadow (pieces : List (List Char)) (i j : ℕ) (name type : String) : Prop :=
  Shadows pieces i j name type ∧ ∀ i' j' name' type', Shadows pieces i' j' name' type' →
    i < i' ∨ i = i' ∧ j ≤ j'

section Shadowing

variable {pieces : List (List Char)} {fields : List Field}

theorem WordsAt.unique {i : ℕ} {type name type' name' : String} (h : WordsAt pieces i type name)
    (h' : WordsAt pieces i type' name') : type = type' ∧ name = name' := by
  obtain ⟨piece, hpiece, hwords⟩ := h
  obtain ⟨piece', hpiece', hwords'⟩ := h'
  obtain rfl := Option.some.inj (hpiece.symm.trans hpiece')
  exact hwords.unique hwords'

/-- There is only one first pair. -/
theorem FirstShadow.unique {i j i' j' : ℕ} {name type name' type' : String}
    (h : FirstShadow pieces i j name type) (h' : FirstShadow pieces i' j' name' type') :
    name = name' ∧ type = type' := by
  have hle := h.2 _ _ _ _ h'.1
  have hge := h'.2 _ _ _ _ h.1
  obtain ⟨rfl, rfl⟩ : i = i' ∧ j = j' := by omega
  obtain ⟨⟨⟨_, hname⟩, ⟨_, htype⟩, -⟩, -⟩ := h
  obtain ⟨⟨⟨_, hname'⟩, ⟨_, htype'⟩, -⟩, -⟩ := h'
  exact ⟨(hname.unique hname').2, (htype.unique htype').1⟩

theorem wordsAt_iff (h : List.Forall₂ FieldText pieces fields) {i : ℕ} {type name : String} :
    WordsAt pieces i type name ↔ fields[i]? = some ⟨type, name⟩ := by
  induction h generalizing i with
  | nil => simp [WordsAt]
  | @cons piece field pieces fields hfield _ ih =>
    cases i with
    | zero =>
      have hwords := hasWords_of_fieldText hfield
      simp only [WordsAt, List.getElem?_cons_zero, Option.some.injEq, exists_eq_left']
      refine ⟨fun h => ?_, ?_⟩
      · obtain ⟨rfl, rfl⟩ := hwords.unique h
        rfl
      · rintro rfl
        exact hwords
    | succ i => simpa [WordsAt] using ih

/-- In terms of the fields that were read, a name is a word of a type. -/
theorem shadows_iff (h : List.Forall₂ FieldText pieces fields) {i j : ℕ} {name type : String} :
    Shadows pieces i j name type ↔ ∃ field other, fields[i]? = some field ∧
      fields[j]? = some other ∧ field.name = name ∧ other.type = type ∧
        name ∈ typeWords type := by
  simp only [Shadows, wordsAt_iff h]
  have hrun {own other : String} (hi : fields[i]? = some ⟨own, name⟩)
      (hj : fields[j]? = some ⟨type, other⟩) : IsNameRun name type ↔ name ∈ typeWords type := by
    obtain ⟨_, -, htext⟩ := exists_left_of_mem h (List.mem_of_getElem? hi)
    obtain ⟨_, -, hother⟩ := exists_left_of_mem h (List.mem_of_getElem? hj)
    have hname : name ≠ "" := by
      rintro rfl
      cases htext.isIdentifier_name
    exact (mem_typeWords_iff hother.isTypeExpr_type hname).symm
  refine ⟨?_, ?_⟩
  · rintro ⟨⟨own, hi⟩, ⟨other, hj⟩, hmem⟩
    exact ⟨_, _, hi, hj, rfl, rfl, (hrun hi hj).mp hmem⟩
  · rintro ⟨⟨own, _⟩, ⟨_, other⟩, hi, hj, rfl, rfl, hmem⟩
    exact ⟨⟨own, hi⟩, ⟨other, hj⟩, (hrun hi hj).mpr hmem⟩

/-- Two fields are found exactly if the name of one is a word of the type of one. -/
theorem exists_shadowing_iff (h : List.Forall₂ FieldText pieces fields) :
    (∃ pair, shadowing fields = some pair) ↔ ∃ i j name type, Shadows pieces i j name type := by
  rw [← Option.isSome_iff_exists, ← Option.ne_none_iff_isSome, ne_eq, shadowing_eq_none_iff]
  simp only [shadows_iff h]
  refine ⟨fun hsome => ?_, ?_⟩
  · push Not at hsome
    obtain ⟨field, hfield, other, hother, hmem⟩ := hsome
    obtain ⟨i, hi⟩ := List.mem_iff_getElem?.mp hfield
    obtain ⟨j, hj⟩ := List.mem_iff_getElem?.mp hother
    exact ⟨i, j, _, _, field, other, hi, hj, rfl, rfl, hmem⟩
  · rintro ⟨i, j, _, _, field, other, hi, hj, rfl, rfl, hmem⟩ hnone
    exact hnone field (List.mem_of_getElem? hi) other (List.mem_of_getElem? hj) hmem

/-- The fields that are found are the first pair of this kind. -/
theorem exists_firstShadow_of_shadowing (h : List.Forall₂ FieldText pieces fields)
    {field other : Field} (hfound : shadowing fields = some (field, other)) :
    ∃ i j, FirstShadow pieces i j field.name other.type := by
  obtain ⟨before, first, after, hfields, huse, hbefore⟩ := List.findSome?_eq_some_iff.mp hfound
  obtain ⟨found, hfind, hpair⟩ := Option.map_eq_some_iff.mp huse
  obtain ⟨rfl, rfl⟩ := Prod.mk.inj hpair
  obtain ⟨hmem, ahead, behind, htypes, hahead⟩ := List.find?_eq_some_iff_append.mp hfind
  have hi : fields[before.length]? = some first := by simp [hfields]
  have hj : fields[ahead.length]? = some found := by simp [htypes]
  refine ⟨before.length, ahead.length,
    (shadows_iff h).mpr ⟨first, found, hi, hj, rfl, rfl, by simpa using hmem⟩, ?_⟩
  intro i' j' _ _ hshadows
  obtain ⟨field', other', hi', hj', rfl, rfl, hmem'⟩ := (shadows_iff h).mp hshadows
  -- no field before the one that is found has a type to hide
  have hle : before.length ≤ i' := by
    by_contra hlt
    have hfield : field' ∈ before := by
      rw [hfields, List.getElem?_append_left (by omega)] at hi'
      exact List.mem_of_getElem? hi'
    have hnone := List.find?_eq_none.mp (Option.map_eq_none_iff.mp (hbefore _ hfield)) other'
      (List.mem_of_getElem? hj')
    exact hnone (by simpa using hmem')
  rcases Nat.lt_or_eq_of_le hle with hlt | rfl
  · exact .inl hlt
  -- and its own name is a word of no type ahead of the one that is found
  obtain rfl := Option.some.inj (hi.symm.trans hi')
  refine .inr ⟨rfl, ?_⟩
  by_contra hlt
  have hother : other' ∈ ahead := by
    rw [htypes, List.getElem?_append_left (by omega)] at hj'
    exact List.mem_of_getElem? hj'
  simpa [hmem'] using hahead _ hother

end Shadowing

/-! ## Reading the fields -/

/-- The reason is that a field has the name of a word of a type. -/
def Reason.IsShadowing (reason : Reason) : Prop :=
  ∃ name type, reason = .fieldShadowsType name type

theorem PieceFault.not_isShadowing {node : String} {earlier : List (List Char)} {piece : List Char}
    {reason : Reason} (h : PieceFault node earlier piece reason) : ¬reason.IsShadowing := by
  rintro ⟨name, type, rfl⟩
  cases h

section Fields

variable {node : String} {text : List Char} {reason : Reason}

/-- Reading the fields fails for a piece, or, if all pieces are read, for two fields. -/
theorem readFields_eq_error_iff :
    readFields node text = .error reason ↔
      collectFields node [] (text.splitOn ',') = .error reason ∨
      ∃ fields field other, collectFields node [] (text.splitOn ',') = .ok fields ∧
        shadowing fields = some (field, other) ∧
          reason = .fieldShadowsType field.name other.type := by
  unfold readFields
  cases collectFields node [] (text.splitOn ',') with
  | error other => simp
  | ok fields =>
    dsimp only
    cases hshadowing : shadowing fields with
    | none => simp [hshadowing]
    | some pair => simp [hshadowing, Prod.ext_iff, eq_comm]

theorem readFields_eq_error_piece_iff :
    (readFields node text = .error reason ∧ ¬reason.IsShadowing) ↔
      ∃ i, FirstFaultAt node (text.splitOn ',') i reason := by
  rw [← collectFields_eq_error_iff, readFields_eq_error_iff]
  refine ⟨?_, fun h => ⟨.inl h, ?_⟩⟩
  · rintro ⟨h | ⟨_, field, other, -, -, rfl⟩, hkind⟩
    · exact h
    · exact absurd ⟨_, _, rfl⟩ hkind
  · obtain ⟨i, ⟨piece, -, hfault⟩, -⟩ := collectFields_eq_error_iff.mp h
    exact hfault.not_isShadowing

theorem readFields_eq_error_shadow_iff {name type : String} :
    readFields node text = .error (.fieldShadowsType name type) ↔
      (∀ i, ¬BadAt node (text.splitOn ',') i) ∧
        ∃ i j, FirstShadow (text.splitOn ',') i j name type := by
  rw [← exists_collectFields_iff, readFields_eq_error_iff]
  refine ⟨?_, ?_⟩
  · rintro (h | ⟨fields, field, other, hread, hfound, heq⟩)
    · obtain ⟨i, ⟨piece, -, hfault⟩, -⟩ := collectFields_eq_error_iff.mp h
      cases hfault
    · obtain ⟨rfl, rfl⟩ := Reason.fieldShadowsType.inj heq
      exact ⟨⟨fields, hread⟩,
        exists_firstShadow_of_shadowing (forall₂_of_collectFields hread) hfound⟩
  · rintro ⟨⟨fields, hread⟩, i, j, hfirst⟩
    have htexts := forall₂_of_collectFields hread
    obtain ⟨⟨field, other⟩, hfound⟩ := (exists_shadowing_iff htexts).mpr ⟨i, j, _, _, hfirst.1⟩
    obtain ⟨i', j', hfirst'⟩ := exists_firstShadow_of_shadowing htexts hfound
    obtain ⟨rfl, rfl⟩ := hfirst.unique hfirst'
    exact .inr ⟨fields, field, other, hread, hfound, rfl⟩

/-- How the reading of a list of fields fails : for a piece exactly if one is bad, and then for the
first fault of the first bad piece; for a name that is a word of a type exactly if there is one
and no piece is bad, and then for the first name with the first type. -/
structure LeftmostFault (node : String) (pieces : List (List Char))
    (result : Except Reason (List Field)) : Prop where
  piece_iff : (∃ reason, result = .error reason ∧ ¬reason.IsShadowing) ↔
    ∃ i, BadAt node pieces i
  first_piece : ∀ reason, (result = .error reason ∧ ¬reason.IsShadowing) ↔
    ∃ i, FirstFaultAt node pieces i reason
  shadow_iff : (∃ reason, result = .error reason ∧ reason.IsShadowing) ↔
    (∀ i, ¬BadAt node pieces i) ∧ ∃ i j name type, Shadows pieces i j name type
  first_shadow : ∀ name type, result = .error (.fieldShadowsType name type) ↔
    (∀ i, ¬BadAt node pieces i) ∧ ∃ i j, FirstShadow pieces i j name type

/-- Fields that cannot be read are reported for the leftmost fault. -/
theorem readFields_leftmostFault (node : String) (text : List Char) :
    LeftmostFault node (text.splitOn ',') (readFields node text) := by
  refine ⟨?_, fun _ => readFields_eq_error_piece_iff, ⟨?_, ?_⟩,
    fun _ _ => readFields_eq_error_shadow_iff⟩
  · simp only [readFields_eq_error_piece_iff, exists_firstFaultAt_iff]
  · rintro ⟨_, hread, name, type, rfl⟩
    obtain ⟨hgood, i, j, hfirst⟩ := readFields_eq_error_shadow_iff.mp hread
    exact ⟨hgood, i, j, name, type, hfirst.1⟩
  · rintro ⟨hgood, hsome⟩
    obtain ⟨fields, hcollect⟩ := exists_collectFields_iff.mpr hgood
    have htexts := forall₂_of_collectFields hcollect
    obtain ⟨⟨field, other⟩, hfound⟩ := (exists_shadowing_iff htexts).mpr hsome
    have hfirst := exists_firstShadow_of_shadowing htexts hfound
    exact ⟨_, readFields_eq_error_shadow_iff.mpr ⟨hgood, hfirst⟩, _, _, rfl⟩

-- `list` hides the types of two fields behind it, and `token` that of the first field
example : readFields "call" "token a, int list, std::list<int> b, list c, int token".toList =
    .error (.fieldShadowsType "list" "std::list<int>") := by
  decide

end Fields

end NodeSchema
