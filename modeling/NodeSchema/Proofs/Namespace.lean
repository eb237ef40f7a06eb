import NodeSchema.Proofs.Landmarks
import NodeSchema.Proofs.Tokens

/-!
# The namespace and the guard of a header

The namespace is given as one text and used in two forms. It is cut at its pairs of colons, and
pieces without a character are left out; the header joins the others again, and the guard joins them
with an underscore, in upper case.

The pieces of any text, joined with a mark, are the text with the mark for each pair of colons, the
pairs being taken from the left (`Text.intercalate_cutAtColons`). In a namespace that passes the
check each piece is an identifier, so none is left out (`Settings.Usable.scopeSegments_eq`). Hence
the header has the namespace as it was given, and the guard has it with an underscore for each pair
(`scope_kept`).
-/

namespace NodeSchema

open Header

/-! ## Pairs of colons -/

namespace Text

/-- The text with `mark` for every pair of colons. The pairs are taken from the left. -/
def replaceColons (mark : List Char) : List Char → List Char
  | [] => []
  | ':' :: ':' :: rest => mark ++ replaceColons mark rest
  | c :: rest => c :: replaceColons mark rest

theorem replaceColons_cons {mark : List Char} {c : Char} {rest : List Char}
    (h : ∀ rest', c = ':' → rest = ':' :: rest' → False) :
    replaceColons mark (c :: rest) = c :: replaceColons mark rest := by
  rw [replaceColons]
  exact h

theorem replaceColons_ne_nil {mark s : List Char} (hmark : mark ≠ []) (hs : s ≠ []) :
    replaceColons mark s ≠ [] := by
  fun_cases replaceColons mark s with
  | case1 => exact absurd rfl hs
  | case2 => simp [hmark]
  | case3 => simp

theorem cutAtColons_ne_nil (s : List Char) : cutAtColons s ≠ [] := by
  fun_cases cutAtColons s with
  | case1 => simp
  | case2 => simp
  | case3 c rest => cases h : cutAtColons rest <;> simp [extendFirst]

theorem intercalate_extendFirst (mark : List Char) (c : Char) (pieces : List (List Char)) :
    mark.intercalate (extendFirst c pieces) = c :: mark.intercalate pieces := by
  cases pieces with
  | nil => rfl
  | cons piece rest => rw [extendFirst, List.intercalate_cons_cons_left]

/-- The pieces with another mark between them are the text with that mark for each pair. -/
theorem intercalate_cutAtColons (mark s : List Char) :
    mark.intercalate (cutAtColons s) = replaceColons mark s := by
  fun_induction replaceColons mark s with
  | case1 => rfl
  | case2 rest ih =>
    rw [cutAtColons, List.intercalate_cons_of_ne_nil (cutAtColons_ne_nil rest), ih, List.nil_append]
  | case3 c rest hpair ih =>
    rw [cutAtColons, intercalate_extendFirst, ih]
    exact hpair

theorem intercalate_map_cutAtColons (mark s : String) :
    mark.intercalate ((cutAtColons s.toList).map String.ofList) =
      String.ofList (replaceColons mark.toList s.toList) := by
  rw [← intercalate_cutAtColons, ← String.toList_inj, String.toList_intercalate, List.map_map]
  simp [Function.comp_def]

theorem replaceColons_colons (s : List Char) : replaceColons [':', ':'] s = s := by
  fun_induction replaceColons [':', ':'] s with
  | case1 => rfl
  | case2 rest ih => rw [ih, List.cons_append, List.singleton_append]
  | case3 c rest _ ih => rw [ih]

theorem map_extendFirst (f : Char → Char) (c : Char) (pieces : List (List Char)) :
    (extendFirst c pieces).map (List.map f) = extendFirst (f c) (pieces.map (List.map f)) := by
  cases pieces <;> rfl

/-- If characters are changed one by one, but colons stay and no others come in, the pieces are
changed so. -/
theorem cutAtColons_map {f : Char → Char} (hf : ∀ c, f c = ':' ↔ c = ':') (s : List Char) :
    cutAtColons (s.map f) = (cutAtColons s).map (List.map f) := by
  fun_induction cutAtColons s with
  | case1 => rfl
  | case2 rest ih =>
    rw [List.map_cons, List.map_cons, (hf ':').mpr rfl, cutAtColons, ih]
    rfl
  | case3 c rest hpair ih =>
    rw [List.map_cons, cutAtColons, ih, map_extendFirst]
    intro tail hc hrest
    obtain ⟨d, rest', rfl, hd, -⟩ := List.map_eq_cons_iff.mp hrest
    obtain rfl := (hf d).mp hd
    exact hpair rest' ((hf c).mp hc) rfl

end Text

/-! ## Upper case -/

theorem toUpper_eq_colon_iff (c : Char) : c.toUpper = ':' ↔ c = ':' := by
  refine ⟨fun h => ?_, fun h => by rw [h]; decide⟩
  rcases Nat.lt_or_ge c.toNat 0x7B with hlt | hge
  · exact forall_of_forall_ofNat (fun c => c.toUpper = ':' → c = ':') (by decide) hlt h
  · have hupper : c.toUpper = c := dif_neg fun hle => absurd hle.2 (Nat.not_le.mpr hge)
    rwa [hupper] at h

theorem isNameStart_toUpper {c : Char} (h : isNameStart c = true) :
    isNameStart c.toUpper = true := by
  exact forall_isTypeChar (fun c => isNameStart c = true → isNameStart c.toUpper = true)
    (by decide) (isTypeChar_of_isNameChar (isNameChar_of_isNameStart h)) h

namespace Settings

/-! ## The namespace -/

section Scope

variable {s : Settings}

theorem scopeSegments_of_empty (h : s.scope = "") : s.scopeSegments = [] := by
  rw [scopeSegments, scopePieces, h]
  rfl

/-- No piece of a namespace that can be used is left out. -/
theorem Usable.scopeSegments_eq (h : s.Usable) (hne : s.scope ≠ "") :
    s.scopeSegments = s.scopePieces := by
  rw [scopeSegments, List.filter_eq_self]
  intro piece hpiece
  have hscope := h.scope
  rw [isScope, Bool.or_eq_true, String.isEmpty_iff, or_iff_right hne, List.all_eq_true] at hscope
  have hidentifier := hscope piece hpiece
  rw [Bool.not_eq_true']
  refine Bool.eq_false_iff.mpr fun hempty => ?_
  rw [String.isEmpty_iff.mp hempty] at hidentifier
  exact absurd hidentifier (by decide)

/-- The nested namespaces joined are the namespace that was given. -/
theorem Usable.intercalate_scopeSegments (h : s.Usable) :
    "::".intercalate s.scopeSegments = s.scope := by
  by_cases hne : s.scope = ""
  · rw [scopeSegments_of_empty hne, hne]
    rfl
  · have hcolons : "::".toList = [':', ':'] := rfl
    rw [h.scopeSegments_eq hne, scopePieces, Text.intercalate_map_cutAtColons, hcolons,
      Text.replaceColons_colons, String.ofList_toList]

theorem Usable.scope?_eq (h : s.Usable) :
    scope? s = if s.scope = "" then none else some s.scope := by
  split_ifs with hne
  · exact scope?_eq_none_iff.mpr (scopeSegments_of_empty hne)
  · have hpieces : s.scopeSegments ≠ [] := by
      simp [h.scopeSegments_eq hne, scopePieces, Text.cutAtColons_ne_nil]
    obtain ⟨segment, segments, heq⟩ := List.exists_cons_of_ne_nil hpieces
    rw [scope?, ← h.intercalate_scopeSegments, heq]

/-- A namespace starts like the outermost of the nested ones. -/
theorem Usable.exists_scope_eq_cons (h : s.Usable) (hne : s.scope ≠ "") :
    ∃ c rest, s.scope.toList = c :: rest ∧ isNameStart c = true := by
  obtain ⟨segment, segments, heq⟩ : ∃ segment segments, s.scopeSegments = segment :: segments := by
    refine List.exists_cons_of_ne_nil fun hnil => hne ?_
    rw [← h.intercalate_scopeSegments, hnil]
    rfl
  have hmem : segment ∈ s.scopeSegments := heq ▸ List.mem_cons_self
  obtain ⟨c, rest, hsegment, hstart, -⟩ :=
    isIdentifier_iff.mp (h.isIdentifier_of_mem_scopeSegments hmem).1
  refine ⟨c, "::".toList.intercalate (rest :: segments.map String.toList), ?_, hstart⟩
  rw [← h.intercalate_scopeSegments, String.toList_intercalate, heq, List.map_cons, hsegment,
    List.intercalate_cons_cons_left]

end Scope

/-! ## The guard -/

section Guard

variable {s : Settings}

/-- The pieces in upper case are the pieces of the namespace in upper case. -/
theorem map_upperCase_scopePieces (s : Settings) :
    s.scopePieces.map upperCase =
      (Text.cutAtColons (upperCase s.scope).toList).map String.ofList := by
  have hupper : (upperCase s.scope).toList = s.scope.toList.map Char.toUpper :=
    String.toList_ofList
  rw [scopePieces, hupper, Text.cutAtColons_map toUpper_eq_colon_iff, List.map_map, List.map_map]
  simp [upperCase, Function.comp_def]

/-- The guard that is derived from a namespace. -/
theorem Usable.guard_eq (h : s.Usable) (hguard : s.guardName = none) (hne : s.scope ≠ "") :
    s.guard = String.ofList (Text.replaceColons ['_'] (upperCase s.scope).toList) ++ "_HPP" := by
  have hstem : "_".intercalate (s.scopeSegments.map upperCase) =
      String.ofList (Text.replaceColons ['_'] (upperCase s.scope).toList) := by
    rw [h.scopeSegments_eq hne, map_upperCase_scopePieces, Text.intercalate_map_cutAtColons]
    rfl
  have hstem_ne : Text.replaceColons ['_'] (upperCase s.scope).toList ≠ [] := by
    refine Text.replaceColons_ne_nil (by simp) ?_
    simpa [upperCase] using hne
  rw [guard, hguard, hstem]
  simp [hstem_ne]

/-- Whether it is given or derived, the guard is an identifier. -/
theorem Usable.isIdentifier_guard (h : s.Usable) : isIdentifier s.guard = true := by
  cases hguard : s.guardName with
  | some name =>
    rw [guard, hguard]
    exact h.guardName name hguard
  | none =>
    by_cases hne : s.scope = ""
    · have hfixed : s.guard = "AST_HPP" := by
        rw [guard, hguard, scopeSegments_of_empty hne]
        rfl
      rw [hfixed]
      decide
    · obtain ⟨c, rest, hscope, hstart⟩ := h.exists_scope_eq_cons hne
      have hcolon : c.toUpper ≠ ':' := fun hc => by
        rw [(toUpper_eq_colon_iff c).mp hc] at hstart
        exact absurd hstart (by decide)
      have htoList : s.guard.toList =
          c.toUpper :: (Text.replaceColons ['_'] (rest.map Char.toUpper) ++ "_HPP".toList) := by
        rw [h.guard_eq hguard hne, String.toList_append, String.toList_ofList, upperCase,
          String.toList_ofList, hscope, List.map_cons,
          Text.replaceColons_cons fun _ hc _ => hcolon hc, List.cons_append]
      refine isIdentifier_iff.mpr ⟨_, _, htoList, isNameStart_toUpper hstart, fun x hx => ?_⟩
      exact h.isNameChar_of_mem_guard (by rw [htoList]; exact List.mem_cons_of_mem _ hx)

end Guard

end Settings

/-! ## The lines of the namespace -/

/-- Whether a line opens or closes a namespace. -/
def isScopeLine (line : String) : Bool :=
  startsWith "namespace " line || startsWith "\x7d // namespace " line

/-- The lines that open and close the namespace that was given. -/
def scopeLines (settings : Settings) : List String :=
  if settings.scope = "" then []
  else ["namespace " ++ settings.scope ++ " \x7b", "\x7d // namespace " ++ settings.scope]

section Lines

variable {settings : Settings} {schema : Schema}

theorem isScopeLine_blank : isScopeLine "" = false := by
  decide

/-- A line is neither if it starts with another character. -/
theorem isScopeLine_of_head? {line : String}
    (h : ∀ c ∈ line.toList.head?, c ≠ 'n' ∧ c ≠ '\x7d') : isScopeLine line = false := by
  cases hline : line.toList with
  | nil => simp [isScopeLine, startsWith, hline]
  | cons c rest =>
    obtain ⟨hopening, hclosing⟩ := h c (by simp [hline])
    simp [isScopeLine, startsWith, hline, hopening.symm, hclosing.symm]

theorem isScopeLine_of_mem_nodeClass {node : Node} :
    ∀ line ∈ nodeClass settings schema node, isScopeLine line = false := by
  have hopening : isScopeLine ("class " ++ node.name ++ " \x7b") = false :=
    isScopeLine_of_head? (by simp)
  have hfixed : ∀ line ∈ ["public:", "\x7d;", ""], isScopeLine line = false := by decide
  have hbody : ∀ line ∈ classBody settings schema node, isScopeLine line = false := by
    intro line hline
    refine isScopeLine_of_head? ?_
    unfold classBody at hline
    split at hline
    · rw [List.mem_singleton.mp hline]
      simp
    · simp only [List.mem_append, List.mem_cons, List.mem_map, List.not_mem_nil, or_false] at hline
      rcases hline with (rfl | rfl | rfl) | ⟨field, -, rfl⟩ <;> simp
  simp only [List.forall_mem_cons] at hfixed
  rw [nodeClass, List.forall_mem_append, List.forall_mem_append]
  exact ⟨⟨by simp [hopening, hfixed], hbody⟩, by simp [hfixed]⟩

theorem isScopeLine_of_mem_visitor :
    ∀ line ∈ visitor settings schema, isScopeLine line = false := by
  have hopening : isScopeLine ("class " ++ settings.visitorName ++ " \x7b") = false :=
    isScopeLine_of_head? (by simp)
  have hdestructor :
      isScopeLine ("    virtual ~" ++ settings.visitorName ++ "() = default;") = false :=
    isScopeLine_of_head? (by simp)
  have hvisit (name : String) : isScopeLine (visitLine name) = false := by
    rw [visitLine_eq settings schema]
    exact isScopeLine_of_head? (by simp)
  have hfixed : ∀ line ∈ ["template <typename " ++ resultParam ++ ">", "public:", "\x7d;", ""],
      isScopeLine line = false := by decide
  simp only [List.forall_mem_cons] at hfixed
  unfold visitor
  split_ifs <;> simp [or_imp, forall_and, hopening, hdestructor, hvisit, hfixed]

theorem isScopeLine_of_mem_dispatch :
    ∀ line ∈ dispatch settings schema, isScopeLine line = false := by
  have hclosing : isScopeLine "\x7d" = false := by decide
  unfold dispatch
  split_ifs
  · simp
  · intro line hline
    -- the brace alone starts like the end of a namespace
    by_cases hline' : line = "\x7d"
    · rw [hline', hclosing]
    · simp only [List.mem_cons, List.not_mem_nil, or_false, hline', false_or] at hline
      refine isScopeLine_of_head? ?_
      rcases hline with rfl | rfl | rfl | rfl <;> simp [resultParam]

/-- Whatever its names are, no declaration reads like a line of the namespace. -/
theorem filter_declarations_isScopeLine :
    (declarations settings schema).filter isScopeLine = [] := by
  have hforward : ∀ line ∈ forwardDeclarations schema, isScopeLine line = false := by
    have hline (name : String) : isScopeLine ("class " ++ name ++ ";") = false :=
      isScopeLine_of_head? (by simp)
    unfold forwardDeclarations
    split_ifs <;> simp [or_imp, forall_and, hline, isScopeLine_blank]
  have hunion : ∀ line ∈ unionAlias settings schema, isScopeLine line = false := by
    have hline : isScopeLine ("using " ++ settings.unionName ++ " = std::variant<"
        ++ alternatives schema ++ ">;") = false := isScopeLine_of_head? (by simp)
    simp [unionAlias, hline, isScopeLine_blank]
  simp only [List.filter_eq_nil_iff, Bool.not_eq_true, declarations, List.forall_mem_append,
    List.mem_flatMap, forall_exists_index, and_imp]
  exact ⟨⟨⟨⟨hforward, hunion⟩, isScopeLine_of_mem_visitor⟩,
    fun line _ _ => isScopeLine_of_mem_nodeClass line⟩, isScopeLine_of_mem_dispatch⟩

theorem filter_preamble_isScopeLine :
    (preamble settings).filter isScopeLine =
      (scope? settings).toList.map fun scope => "namespace " ++ scope ++ " \x7b" := by
  have hguard : isScopeLine ("#ifndef " ++ settings.guard) = false :=
    isScopeLine_of_head? (by simp)
  have hdefine : isScopeLine ("#define " ++ settings.guard) = false :=
    isScopeLine_of_head? (by simp)
  have hstandard : (standardIncludes.map fun header => "#include <" ++ header ++ ">").filter
      isScopeLine = [] := by decide
  have hinclude : (settings.includes.map includeLine).filter isScopeLine = [] := by
    rw [List.filter_eq_nil_iff, List.forall_mem_map]
    intro header _
    rw [Bool.not_eq_true]
    refine isScopeLine_of_head? ?_
    unfold includeLine
    split_ifs <;> simp
  have hopening (scope : String) : isScopeLine ("namespace " ++ scope ++ " \x7b") = true := by
    simp [isScopeLine, startsWith]
  have hcomment : isScopeLine "// Generated by nodegen. Do not edit." = false := by decide
  simp only [preamble, List.filter_append, hstandard, hinclude]
  cases scope? settings <;> simp [hcomment, hguard, hdefine, hopening, isScopeLine_blank]

theorem filter_trailer_isScopeLine :
    (trailer settings).filter isScopeLine =
      (scope? settings).toList.map fun scope => "\x7d // namespace " ++ scope := by
  have hopening (scope : String) : isScopeLine ("\x7d // namespace " ++ scope) = true := by
    simp [isScopeLine, startsWith]
  have hguard : isScopeLine ("#endif // " ++ settings.guard) = false :=
    isScopeLine_of_head? (by simp)
  unfold trailer
  cases scope? settings <;> simp [hopening, hguard, isScopeLine_blank]

/-- The lines that open and close a namespace in a header. -/
theorem filter_lines_isScopeLine (h : settings.Usable) (schema : Schema) :
    (lines settings schema).filter isScopeLine = scopeLines settings := by
  rw [lines_eq, List.filter_append, List.filter_append, filter_preamble_isScopeLine,
    filter_declarations_isScopeLine, filter_trailer_isScopeLine, h.scope?_eq, scopeLines]
  split_ifs <;> simp

theorem filter_rows_isScopeLine (hsettings : settings.Usable) (h : schema.Declarable settings) :
    (rows (schema.header settings)).filter isScopeLine = scopeLines settings := by
  rw [rows_header hsettings h, List.filter_append, filter_lines_isScopeLine hsettings]
  simp [isScopeLine_blank]

end Lines

/-- The namespace of settings that were checked is what the header and its guard are made of. -/
structure ScopeKept (settings : Settings) : Prop where
  /-- The nested namespaces, with colons between them, are the namespace. -/
  joined : "::".intercalate settings.scopeSegments = settings.scope
  /-- Each of them can be declared. -/
  segments : ∀ segment ∈ settings.scopeSegments,
    isIdentifier segment = true ∧ isReserved segment = false
  /-- A header is written with one line that opens the namespace and one that closes it, or with
  neither if there is none. -/
  inLines : ∀ schema, (lines settings schema).filter isScopeLine = scopeLines settings
  /-- So it is with the lines of its text. -/
  inText : ∀ source schema, Schema.read settings source = .ok schema →
    (rows (schema.header settings)).filter isScopeLine = scopeLines settings
  /-- The guard can be defined. -/
  guard : isIdentifier settings.guard = true
  /-- A guard that is not given is made of the namespace, if there is one. -/
  derived : settings.guardName = none → settings.scope ≠ "" → settings.guard =
    String.ofList (Text.replaceColons ['_'] (Settings.upperCase settings.scope).toList) ++ "_HPP"

/-- Nothing of a namespace that passes the check is lost on the way to the header. -/
theorem scope_kept {settings : Settings} (hcheck : settings.check = .ok ()) :
    ScopeKept settings := by
  have hsettings := Settings.check_eq_ok_iff.mp hcheck
  refine ⟨hsettings.intercalate_scopeSegments,
    fun segment => hsettings.isIdentifier_of_mem_scopeSegments, filter_lines_isScopeLine hsettings,
    ?_, hsettings.isIdentifier_guard, hsettings.guard_eq⟩
  intro source schema hread
  exact filter_rows_isScopeLine hsettings (declarable_of_read hcheck hread)

/-- A namespace in a namespace. -/
theorem scope_kept_nested :
    let settings : Settings := { Settings.standard with scope := "pierogi::ast" }
    settings.check = .ok () ∧ "::".intercalate settings.scopeSegments = "pierogi::ast" ∧
      isIdentifier settings.guard = true ∧ settings.guard = "PIEROGI_AST_HPP" ∧
        ∃ schema, Schema.read settings "" = .ok schema ∧
          (rows (schema.header settings)).filter isScopeLine =
            ["namespace pierogi::ast \x7b", "\x7d // namespace pierogi::ast"] := by
  intro settings
  have hcheck : settings.check = .ok () := by decide
  have hread : Schema.read settings "" = .ok .empty := by decide
  have hkept := scope_kept hcheck
  have hguard : settings.guard = "PIEROGI_AST_HPP" :=
    (hkept.derived rfl (by decide)).trans (by decide)
  exact ⟨hcheck, hkept.joined, hkept.guard, hguard, .empty, hread,
    (hkept.inText "" .empty hread).trans (by decide)⟩

end NodeSchema
