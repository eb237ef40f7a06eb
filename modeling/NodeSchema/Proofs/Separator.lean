import NodeSchema.Proofs.Layout

/-!
# The choice of the separator

What is read does not depend on which character separates names from fields. An accepted
text is made of white space, commas, the characters of types and its separator
(`not_mem_of_read`), so no other separator stands in it. And reading goes along with putting
another separator `new` in place of the separator `old` : no step tells the two apart, since
neither is white space, a comma or a character of a type (`comp_replaceChar`), and every text
that is found to be a name or a type holds neither of them (`replaceIn_of_isTypeExpr`).

`read_replace_separator` : a text in which the separators are replaced is read with the new
separator as the same schema, or with the same fault in which they are replaced.
-/

namespace NodeSchema

open Text

/-! ## The characters of accepted texts -/

section Characters

variable {separator c : Char} (hblank : isBlank c = false) (hcomma : c ≠ ',')
  (hchar : isTypeChar c = false)
include hblank hcomma hchar

theorem FieldsText.not_mem {text : List Char} {fields : List Field} (h : FieldsText text fields) :
    c ∉ text := by
  induction h with
  | single h => exact h.not_mem hblank hchar
  | cons h _ ih => simp [h.not_mem hblank hchar, hcomma, ih]

theorem LineText.not_mem {text : List Char} {name : String} {fields : List Field}
    (h : LineText separator text name fields) (hne : c ≠ separator) : c ∉ text := by
  have hname := not_mem_of_isIdentifier h.isIdentifier_name hchar
  cases h with
  | bare hbefore _ hafter =>
    simp [not_mem_of_blank hblank hbefore, hname, not_mem_of_blank hblank hafter]
  | fields hbefore _ hafter hrest =>
    simp [not_mem_of_blank hblank hbefore, hname, not_mem_of_blank hblank hafter, hne,
      hrest.not_mem hblank hcomma hchar]

end Characters

/-- An accepted text has no separator but its own. -/
theorem not_mem_of_read {settings : Settings} {source : String} {schema : Schema} {c : Char}
    (hseparator : Settings.isSeparator settings.separator = true)
    (hc : Settings.isSeparator c = true) (hne : c ≠ settings.separator)
    (hread : Schema.read settings source = .ok schema) : c ∉ source.toList := by
  obtain ⟨hcomma, hblank, hchar⟩ := Settings.isSeparator_iff.mp hc
  rw [read_eq_readLines_splitOn hseparator, show Schema.empty = .ofNodes [] from rfl,
    readLines_eq_ok_iff (by simp)] at hread
  obtain ⟨nodes, -, hnodes, -⟩ := hread
  -- so the text has it in one of its lines
  intro hmem
  have htext : ['\n'].intercalate (source.toList.splitOn '\n') = source.toList :=
    List.intercalate_splitOn '\n'
  rw [← htext] at hmem
  rcases mem_of_mem_intercalate hmem with hfeed | ⟨piece, hpiece, hmem⟩
  · rw [List.mem_singleton.mp hfeed] at hblank
    exact absurd hblank (by decide)
  · have hpieceBlank : ¬Blank piece := fun h => not_mem_of_blank hblank h hmem
    obtain ⟨i, hi⟩ := List.mem_iff_getElem?.mp hpiece
    have hentry : (piece, 1 + i) ∈ definingLines 1 (source.toList.splitOn '\n') :=
      mem_definingLines_iff.mpr ⟨hpieceBlank, i, hi, rfl⟩
    obtain ⟨node, -, hnode⟩ := exists_right_of_mem hnodes hentry
    exact ((readNode_eq_ok_iff hseparator).mp hnode).2.1.not_mem hblank hcomma hchar hne hmem

/-! ## Texts with one character for another -/

/-- The character, or `new` for `old`. -/
def replaceChar (old new c : Char) : Char :=
  if c = old then new else c

/-- The text with `new` for `old`. -/
def replaceIn (old new : Char) (s : String) : String :=
  s.map (replaceChar old new)

/-- The reason with all its texts changed. -/
def Reason.mapText (f : String → String) : Reason → Reason
  | .malformedName name => .malformedName (f name)
  | .reservedName name => .reservedName (f name)
  | .malformedField descriptor words => .malformedField (f descriptor) words
  | .invalidFieldName name => .invalidFieldName (f name)
  | .invalidFieldType field type => .invalidFieldType (f field) (f type)
  | .duplicateField node field => .duplicateField (f node) (f field)
  | .fieldNamedAfterNode name => .fieldNamedAfterNode (f name)
  | .fieldShadowsType field type => .fieldShadowsType (f field) (f type)
  | .duplicateNode name firstLine => .duplicateNode (f name) firstLine

/-- The fault with all its texts changed. -/
def Fault.mapText (f : String → String) (fault : Fault) : Fault :=
  ⟨fault.line, f fault.text, fault.reason.mapText f⟩

namespace Text

theorem splitOnP_map {α β : Type*} (f : α → β) (p : β → Bool) (s : List α) :
    (s.map f).splitOnP p = (s.splitOnP (p ∘ f)).map (List.map f) := by
  induction s with
  | nil => simp
  | cons c rest ih =>
    rw [List.map_cons, List.splitOnP_cons_eq_if_modifyHead, List.splitOnP_cons_eq_if_modifyHead, ih,
      Function.comp_apply]
    split_ifs
    · rfl
    · cases List.splitOnP (p ∘ f) rest <;> rfl

section Blank

variable {f : Char → Char} (hf : isBlank ∘ f = isBlank)
include hf

theorem trim_map (s : List Char) : trim (s.map f) = (trim s).map f := by
  simp only [trim, trimStart, trimEnd, List.dropWhile_map, hf, ← List.map_reverse]

theorem words_map (s : List Char) : words (s.map f) = (words s).map (List.map f) := by
  rw [words, words, splitOnP_map, hf, List.filter_map]
  simp [Function.comp_def]

end Blank

theorem cutAt_replaceChar {old new : Char} {s : List Char} (h : new ∉ s) :
    cutAt new (s.map (replaceChar old new)) =
      ((cutAt old s).1.map (replaceChar old new),
        (cutAt old s).2.map (List.map (replaceChar old new))) := by
  induction s with
  | nil => rfl
  | cons c rest ih =>
    obtain ⟨hc, hrest⟩ := List.ne_and_not_mem_of_not_mem_cons h
    rw [List.map_cons, cutAt, cutAt, ih hrest]
    by_cases hold : c = old
    · simp [replaceChar, hold]
    · simp [replaceChar, hold, hc.symm]

end Text

section Replace

variable {old new : Char}

/-- What holds of both or of neither is not seen to change. -/
theorem comp_replaceChar {α : Type*} {p : Char → α} (h : p new = p old) :
    p ∘ replaceChar old new = p := by
  funext c
  rw [Function.comp_apply, replaceChar]
  split_ifs with hc
  · rw [h, hc]
  · rfl

theorem ofList_map_replaceChar (s : List Char) :
    String.ofList (s.map (replaceChar old new)) = replaceIn old new (String.ofList s) := by
  apply String.toList_injective
  simp [replaceIn]

section Separators

variable (hold : Settings.isSeparator old = true) (hnew : Settings.isSeparator new = true)
include hold hnew

theorem isBlank_comp_replaceChar : isBlank ∘ replaceChar old new = isBlank :=
  comp_replaceChar (((Settings.isSeparator_iff.mp hnew).2.1).trans
    (Settings.isSeparator_iff.mp hold).2.1.symm)

theorem splitOn_replaceChar {mark : Char} (hmark : Settings.isSeparator mark = false)
    (s : List Char) :
    (s.map (replaceChar old new)).splitOn mark =
      (s.splitOn mark).map (List.map (replaceChar old new)) := by
  have hne : ∀ {c : Char}, Settings.isSeparator c = true → (c == mark) = false := by
    intro c hc
    rw [beq_eq_false_iff_ne]
    rintro rfl
    rw [hc] at hmark
    cases hmark
  have hcomp : (· == mark) ∘ replaceChar old new = (· == mark) :=
    comp_replaceChar ((hne hnew).trans (hne hold).symm)
  rw [List.splitOn_eq_splitOnP, List.splitOn_eq_splitOnP, splitOnP_map, hcomp]

/-- No character of a type is a separator. -/
theorem comp_replaceChar_of_isTypeChar {p : Char → Bool}
    (hp : ∀ {c}, p c = true → isTypeChar c = true) : p ∘ replaceChar old new = p := by
  have hnone : ∀ {c}, Settings.isSeparator c = true → p c = false := by
    intro c hc
    by_contra hpc
    have hchar := hp (by simpa using hpc)
    rw [(Settings.isSeparator_iff.mp hc).2.2] at hchar
    cases hchar
  exact comp_replaceChar ((hnone hnew).trans (hnone hold).symm)

theorem isNameStart_replaceChar (c : Char) :
    isNameStart (replaceChar old new c) = isNameStart c :=
  congrFun (comp_replaceChar_of_isTypeChar hold hnew fun h =>
    isTypeChar_of_isNameChar (isNameChar_of_isNameStart h)) c

theorem isIdentifier_replaceIn (s : String) :
    isIdentifier (replaceIn old new s) = isIdentifier s := by
  have hname : isNameChar ∘ replaceChar old new = isNameChar :=
    comp_replaceChar_of_isTypeChar hold hnew isTypeChar_of_isNameChar
  rw [isIdentifier, isIdentifier, replaceIn, String.toList_map]
  cases s.toList with
  | nil => rfl
  | cons c rest =>
    simp only [List.map_cons, List.all_map, hname, isNameStart_replaceChar hold hnew]

theorem isTypeExpr_replaceIn (s : String) :
    isTypeExpr (replaceIn old new s) = isTypeExpr s := by
  have htype : isTypeChar ∘ replaceChar old new = isTypeChar :=
    comp_replaceChar_of_isTypeChar hold hnew id
  rw [isTypeExpr, isTypeExpr, replaceIn, String.toList_map]
  cases s.toList with
  | nil => rfl
  | cons c rest =>
    simp only [List.map_cons, List.all_map, htype, isNameStart_replaceChar hold hnew]

end Separators

/-- A type holds no separator. -/
theorem replaceIn_of_isTypeExpr (hold : Settings.isSeparator old = true) {s : String}
    (h : isTypeExpr s = true) : replaceIn old new s = s := by
  have hnot := not_mem_of_isTypeExpr h (Settings.isSeparator_iff.mp hold).2.2
  apply String.toList_injective
  rw [replaceIn, String.toList_map]
  refine (List.map_congr_left fun c hc => if_neg ?_).trans (List.map_id' s.toList)
  rintro rfl
  exact hnot hc

theorem replaceIn_of_isIdentifier (hold : Settings.isSeparator old = true) {s : String}
    (h : isIdentifier s = true) : replaceIn old new s = s :=
  replaceIn_of_isTypeExpr hold (isTypeExpr_of_isIdentifier h)

end Replace

/-! ## Reading with another separator -/

section Fields

variable {old new : Char} (hold : Settings.isSeparator old = true)
  (hnew : Settings.isSeparator new = true)
include hold hnew

/-- A word that is no name stays none, and a name does not change. So the checks of a field
end alike. -/
theorem readField_replaceChar {node : String} (hnode : isIdentifier node = true)
    (earlier : List Field) (piece : List Char) :
    readField node earlier (piece.map (replaceChar old new)) =
      (readField node earlier piece).mapError (Reason.mapText (replaceIn old new)) := by
  have hblank := isBlank_comp_replaceChar hold hnew
  have hfixed : ∀ {s : String}, isIdentifier s = true → replaceIn old new s = s :=
    replaceIn_of_isIdentifier hold
  rw [readField, readField, words_map hblank]
  rcases words piece with _ | ⟨type, _ | ⟨name, _ | ⟨third, more⟩⟩⟩
  case cons.cons.nil =>
    simp only [List.map_cons, List.map_nil, ofList_map_replaceChar]
    generalize String.ofList type = type, String.ofList name = name
    rw [isIdentifier_replaceIn hold hnew, isTypeExpr_replaceIn hold hnew]
    by_cases hname : isIdentifier name = true
    · rw [hfixed hname]
      by_cases htype : isTypeExpr type = true
      · have htypeFixed : replaceIn old new type = type := replaceIn_of_isTypeExpr hold htype
        rw [htypeFixed]
        split_ifs <;> simp [Except.mapError, Reason.mapText, hfixed hname, hfixed hnode, htypeFixed]
      · have hnot : (!isTypeExpr type) = true := by simpa using htype
        rw [if_pos hnot, if_pos hnot]
        split_ifs <;> simp [Except.mapError, Reason.mapText, hfixed hname]
    · simp [hname, Except.mapError, Reason.mapText]
  all_goals
    simp [Except.mapError, Reason.mapText, trim_map hblank, ofList_map_replaceChar]

theorem collectFields_replaceChar {node : String} (hnode : isIdentifier node = true)
    (earlier : List Field) (pieces : List (List Char)) :
    collectFields node earlier (pieces.map (List.map (replaceChar old new))) =
      (collectFields node earlier pieces).mapError (Reason.mapText (replaceIn old new)) := by
  induction pieces generalizing earlier with
  | nil => rfl
  | cons piece rest ih =>
    rw [List.map_cons, collectFields, collectFields, readField_replaceChar hold hnew hnode]
    cases readField node earlier piece with
    | error reason => rfl
    | ok field => exact ih (earlier ++ [field])

theorem readFields_replaceChar {node : String} (hnode : isIdentifier node = true)
    (text : List Char) :
    readFields node (text.map (replaceChar old new)) =
      (readFields node text).mapError (Reason.mapText (replaceIn old new)) := by
  rw [readFields, readFields, splitOn_replaceChar hold hnew (by decide),
    collectFields_replaceChar hold hnew hnode]
  cases hcollect : collectFields node [] (text.splitOn ',') with
  | error reason => rfl
  | ok fields =>
    dsimp only [Except.mapError]
    cases hshadow : shadowing fields with
    | none => rfl
    | some found =>
      obtain ⟨field, other⟩ := found
      obtain ⟨hfield, hother⟩ := mem_of_shadowing hshadow
      obtain ⟨new, rfl, htexts, -, -⟩ := (collectFields_eq_ok_iff (by simp)).mp hcollect
      obtain ⟨piece, -, hpiece⟩ := exists_left_of_mem htexts hfield
      obtain ⟨otherPiece, -, hotherPiece⟩ := exists_left_of_mem htexts hother
      dsimp only [Reason.mapText]
      rw [replaceIn_of_isIdentifier hold hpiece.isIdentifier_name,
        replaceIn_of_isTypeExpr hold hotherPiece.isTypeExpr_type]

end Fields

section Lines

variable {settings : Settings} {new : Char}
  (hold : Settings.isSeparator settings.separator = true) (hnew : Settings.isSeparator new = true)
include hold hnew

theorem readNode_replaceChar (line : Nat) {text : List Char} (htext : new ∉ text) :
    readNode { settings with separator := new } line
        (text.map (replaceChar settings.separator new)) =
      (readNode settings line text).mapError
        (Reason.mapText (replaceIn settings.separator new)) := by
  have hblank := isBlank_comp_replaceChar hold hnew
  have hgenerated : ({ settings with separator := new } : Settings).generatedNames =
      settings.generatedNames := rfl
  rw [readNode, readNode, cutAt_replaceChar htext, hgenerated]
  dsimp only
  rw [trim_map hblank, ofList_map_replaceChar, isIdentifier_replaceIn hold hnew]
  generalize String.ofList (trim (cutAt settings.separator text).1) = name
  by_cases hname : isIdentifier name = true
  · have hfixed : replaceIn settings.separator new name = name :=
      replaceIn_of_isIdentifier hold hname
    rw [hfixed]
    split_ifs
    · simp [Except.mapError, Reason.mapText, hfixed]
    · simp [Except.mapError, Reason.mapText, hfixed]
    · cases (cutAt settings.separator text).2 with
      | none => rfl
      | some rest =>
        dsimp only [Option.map]
        rw [readFields_replaceChar hold hnew hname]
        cases readFields name rest <;> rfl
  · simp [hname, Except.mapError, Reason.mapText]

theorem readLine_replaceChar (schema : Schema) (line : Nat) {text : List Char}
    (htext : new ∉ text) :
    readLine { settings with separator := new } schema line
        (text.map (replaceChar settings.separator new)) =
      (readLine settings schema line text).mapError
        (Fault.mapText (replaceIn settings.separator new)) := by
  rw [readLine, readLine, trim_map (isBlank_comp_replaceChar hold hnew), List.isEmpty_map,
    readNode_replaceChar hold hnew line htext]
  split_ifs
  · rfl
  · cases hread : readNode settings line text with
    | error reason =>
      simp only [Except.mapError, Fault.mapText, ofList_map_replaceChar]
    | ok node =>
      dsimp only [Except.mapError]
      cases hpush : schema.push node with
      | ok larger => rfl
      | error taken =>
        -- the name that is taken was read as a name
        obtain ⟨-, rfl⟩ := Schema.push_eq_error_iff.mp hpush
        have hname := ((readNode_eq_ok_iff hold).mp hread).2.1.isIdentifier_name
        simp only [Fault.mapText, Reason.mapText, ofList_map_replaceChar,
          replaceIn_of_isIdentifier hold hname]

theorem readLines_replaceChar (schema : Schema) (line : Nat) {texts : List (List Char)}
    (htexts : ∀ text ∈ texts, new ∉ text) :
    readLines { settings with separator := new } schema line
        (texts.map (List.map (replaceChar settings.separator new))) =
      (readLines settings schema line texts).mapError
        (Fault.mapText (replaceIn settings.separator new)) := by
  induction texts generalizing schema line with
  | nil => rfl
  | cons text rest ih =>
    obtain ⟨htext, hrest⟩ := List.forall_mem_cons.mp htexts
    rw [List.map_cons, readLines, readLines, readLine_replaceChar hold hnew _ _ htext]
    cases readLine settings schema line text with
    | error fault => rfl
    | ok larger => exact ih larger (line + 1) hrest

end Lines

/-- The separator makes no difference. A text that is accepted with one separator does not hold
another one; and a text that does not hold the new one, in which it is put in place of the old
one, is read with it as the same schema, or with the same fault but for that replacement. -/
theorem read_replace_separator {settings : Settings} {new : Char}
    (hcheck : settings.check = .ok ())
    (hcheckNew : ({ settings with separator := new } : Settings).check = .ok ())
    (hne : new ≠ settings.separator) (source : String) :
    (∀ schema, Schema.read settings source = .ok schema → new ∉ source.toList) ∧
    (new ∉ source.toList →
      Schema.read { settings with separator := new } (replaceIn settings.separator new source) =
        (Schema.read settings source).mapError
          (Fault.mapText (replaceIn settings.separator new))) := by
  have hold := (Settings.check_eq_ok_iff.mp hcheck).separator
  have hnew : Settings.isSeparator new = true := (Settings.check_eq_ok_iff.mp hcheckNew).separator
  refine ⟨fun schema => not_mem_of_read hold hnew hne, fun hsource => ?_⟩
  have hpieces : ∀ piece ∈ source.toList.splitOn '\n', new ∉ piece :=
    fun piece hpiece hmem => hsource (mem_of_mem_splitOn hpiece hmem)
  rw [read_eq_readLines_splitOn hold, read_eq_readLines_splitOn hnew, replaceIn, String.toList_map,
    splitOn_replaceChar hold hnew (by decide), readLines_replaceChar hold hnew _ _ hpieces]

/-- A field that holds the separator again, with a separator that is no ASCII character in its
place. -/
theorem read_replace_separator_twice :
    Settings.standard.check = .ok () ∧
      ({ Settings.standard with separator := '→' } : Settings).check = .ok () ∧
      '→' ≠ Settings.standard.separator ∧ '→' ∉ "a | int x\nb | c|d e".toList ∧
      Schema.read .standard "a | int x\nb | c|d e" =
        .error ⟨2, "b | c|d e", .invalidFieldType "e" "c|d"⟩ ∧
      Schema.read { Settings.standard with separator := '→' }
          (replaceIn '|' '→' "a | int x\nb | c|d e") =
        .error ⟨2, "b → c→d e", .invalidFieldType "e" "c→d"⟩ := by
  have hread : Schema.read .standard "a | int x\nb | c|d e" =
      .error ⟨2, "b | c|d e", .invalidFieldType "e" "c|d"⟩ := by decide
  have hreplace := (@read_replace_separator .standard '→' (by decide) (by decide) (by decide)
    "a | int x\nb | c|d e").2 (by decide)
  have htext : replaceIn '|' '→' "b | c|d e" = "b → c→d e" :=
    (ofList_map_replaceChar "b | c|d e".toList).symm
  have hname : replaceIn '|' '→' "e" = "e" := replaceIn_of_isIdentifier (by decide) (by decide)
  have htype : replaceIn '|' '→' "c|d" = "c→d" := (ofList_map_replaceChar "c|d".toList).symm
  refine ⟨by decide, by decide, by decide, by decide, hread, hreplace.trans ?_⟩
  rw [hread]
  change Except.error (Fault.mk 2 (replaceIn '|' '→' "b | c|d e")
    (.invalidFieldType (replaceIn '|' '→' "e") (replaceIn '|' '→' "c|d"))) = _
  rw [htext, hname, htype]

end NodeSchema
