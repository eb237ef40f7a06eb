import Mathlib.Data.List.DropRight
import NodeSchema.Proofs.JsonText
import NodeSchema.Proofs.SettingsText

/-!
# What follows written settings

The readers of JSON look ahead no further than to the next character, so what they give does not
change when more text follows (`Steady`). The reader of settings is made of such readers and stops
at the bracket that closes the object or array. So a text that is read as settings is read as the
same settings whatever is put behind it, also if that is not white space (`read_whatever_follows`).

What a text is read for is the document that it starts with : the only one of its prefixes that is
read as settings while no shorter one is (`IsDocument`).
-/

namespace NodeSchema

namespace Json

/-- What the reader gives does not change when more text follows. -/
def Steady {ε α : Type} (read : List Char → Except ε (α × List Char)) : Prop :=
  ∀ ⦃s : List Char⦄ ⦃value : α⦄ ⦃rest : List Char⦄, read s = .ok (value, rest) →
    ∀ more, read (s ++ more) = .ok (value, rest ++ more)

/-- What is skipped in front of a character is white space. -/
theorem exists_space_of_skipSpace {s : List Char} {c : Char} {rest : List Char}
    (h : skipSpace s = c :: rest) : ∃ space, Space space ∧ s = space ++ c :: rest := by
  refine ⟨s.takeWhile isSpace, List.all_takeWhile, ?_⟩
  rw [← h]
  exact List.takeWhile_append_dropWhile.symm

theorem skipSpace_append_more {s : List Char} {c : Char} {rest : List Char}
    (h : skipSpace s = c :: rest) (more : List Char) :
    skipSpace (s ++ more) = c :: (rest ++ more) := by
  have hskip : s.dropWhile isSpace = c :: rest := h
  rw [skipSpace, List.dropWhile_append, hskip]
  rfl

/-! ## Strings -/

theorem steady_readUnit : Steady readUnit := by
  intro s unit rest h more
  unfold readUnit at h
  split_ifs at h
  split at h
  · split at h
    · next hunit =>
      simp only [Except.ok.injEq, Prod.mk.injEq] at h
      obtain ⟨rfl, rfl⟩ := h
      exact readUnit_cons _ _ _ _ _ hunit
    · cases h
  · cases h

theorem steady_readSecondHalf (first : Nat) : Steady (readSecondHalf first) := by
  intro s c rest h more
  unfold readSecondHalf at h
  split at h
  · cases h
  · cases h
  · split at h
    · cases h
    · next hunit =>
      have hmore := steady_readUnit hunit more
      split_ifs at h with hhalf
      simp only [Except.ok.injEq, Prod.mk.injEq] at h
      obtain ⟨rfl, rfl⟩ := h
      simp only [List.cons_append, readSecondHalf, hmore, if_pos hhalf]
  · cases h
  · cases h

theorem steady_readEscape : Steady readEscape := by
  intro s c rest h more
  unfold readEscape at h
  split at h
  case h_10 =>
    split at h
    · cases h
    · next hunit =>
      have hmore := steady_readUnit hunit more
      split_ifs at h with hsecond hfirst
      · have hpair := steady_readSecondHalf _ h more
        simp only [List.cons_append, readEscape, hmore, if_neg hsecond, if_pos hfirst, hpair]
      · simp only [Except.ok.injEq, Prod.mk.injEq] at h
        obtain ⟨rfl, rfl⟩ := h
        simp only [List.cons_append, readEscape, hmore, if_neg hsecond, if_neg hfirst]
  case h_1 => cases h
  case h_11 => cases h
  -- an escape of one character
  all_goals
    simp only [Except.ok.injEq, Prod.mk.injEq] at h
    obtain ⟨rfl, rfl⟩ := h
    rfl

theorem steady_readString : Steady readString := by
  intro s text rest h more
  fun_induction readString s generalizing text rest
  case case2 =>
    simp only [Except.ok.injEq, Prod.mk.injEq] at h
    obtain ⟨rfl, rfl⟩ := h
    rw [List.cons_append, readString, if_pos rfl]
  case case5 hescape _ _ hread _ ih =>
    simp only [Except.ok.injEq, Prod.mk.injEq] at h
    obtain ⟨rfl, rfl⟩ := h
    exact readString_escape (steady_readEscape hescape more) (ih hread)
  case case8 hquote hbackslash hcontrol _ _ hread ih =>
    simp only [Except.ok.injEq, Prod.mk.injEq] at h
    obtain ⟨rfl, rfl⟩ := h
    exact readString_plain hquote hbackslash hcontrol (ih hread)
  all_goals cases h

/-! ## Values -/

theorem readWord_append_more {s word rest : List Char} (h : readWord s word = .ok rest)
    (more : List Char) : readWord (s ++ more) word = .ok (rest ++ more) := by
  induction word generalizing s with
  | nil =>
    rw [readWord, Except.ok.injEq] at h ⊢
    rw [h]
  | cons expected word ih =>
    cases s with
    | nil => simp [readWord] at h
    | cons c s =>
      rw [readWord] at h
      split_ifs at h with hc
      rw [List.cons_append, readWord, if_pos hc, ih h]

theorem steady_readStringValue (expected : String) : Steady (readStringValue expected) := by
  intro s text rest h more
  unfold readStringValue at h
  split at h
  · next hskip =>
    simp only [readStringValue, skipSpace_append_more hskip, steady_readString h more]
  · cases h

theorem steady_readCharValue : Steady readCharValue := by
  intro s c rest h more
  unfold readCharValue at h
  split at h
  · cases h
  · next hread =>
    simp only [Except.ok.injEq, Prod.mk.injEq] at h
    obtain ⟨rfl, rfl⟩ := h
    simp only [readCharValue, steady_readStringValue _ hread more]
  · cases h

theorem map_eq_ok_iff {ε α β : Type} {f : α → β} {result : Except ε α} {value : β} :
    result.map f = .ok value ↔ ∃ a, result = .ok a ∧ f a = value := by
  cases result <;> simp [Except.map]

theorem steady_readOptionalString : Steady readOptionalString := by
  intro s text rest h more
  unfold readOptionalString at h
  split at h
  · next hskip =>
    obtain ⟨left, hword, hleft⟩ := map_eq_ok_iff.mp h
    cases hleft
    simp only [readOptionalString, skipSpace_append_more hskip, readWord_append_more hword more]
    rfl
  · obtain ⟨⟨value, left⟩, hread, hleft⟩ := map_eq_ok_iff.mp h
    cases hleft
    have hstart : skipSpace (skipSpace s) = skipSpace s :=
      List.dropWhile_idempotent isSpace s
    unfold readStringValue at hread
    rw [hstart] at hread
    split at hread
    · next hskip =>
      have hquote := skipSpace_cons (show isSpace '"' = false by decide)
      have hvalue := steady_readString hread more
      rw [readOptionalString, skipSpace_append_more hskip]
      show Except.map _ (readStringValue _ _) = _
      simp only [readStringValue, hquote, hvalue]
      rfl
    · cases hread

/-! ## Arrays -/

/-- What comes next in an array when more text follows. -/
def Next.andMore (more : List Char) : Next → Next
  | closed rest => closed (rest ++ more)
  | item rest => item (rest ++ more)

theorem nextItem_append {atStart : Bool} {s : List Char} {next : Next}
    (h : nextItem atStart s = .ok next) (more : List Char) :
    nextItem atStart (s ++ more) = .ok (next.andMore more) := by
  unfold nextItem at h
  split at h
  · cases h
  · next hskip =>
    rw [nextItem, skipSpace_append_more hskip]
    dsimp only
    split_ifs at h ⊢
    · cases h
      rfl
    · cases h
      rfl
    · split at h
      · cases h
      · next hafter =>
        rw [skipSpace_append_more hafter]
        dsimp only
        split_ifs at h ⊢
        cases h
        rfl

theorem readArrayEnd_append {s rest : List Char} (h : readArrayEnd s = .ok rest)
    (more : List Char) : readArrayEnd (s ++ more) = .ok (rest ++ more) := by
  unfold readArrayEnd at h
  split at h
  · cases h
  · next hskip =>
    rw [readArrayEnd, skipSpace_append_more hskip]
    dsimp only
    split_ifs at h ⊢
    cases h
    rfl

theorem steady_readStrings (index : Nat) : Steady (readStrings index) := by
  intro s texts rest h more
  fun_induction readStrings index s generalizing texts rest
  case case2 hnext =>
    simp only [Except.ok.injEq, Prod.mk.injEq] at h
    obtain ⟨rfl, rfl⟩ := h
    exact readStrings_end (nextItem_append hnext more)
  case case5 hnext _ _ hvalue _ _ hrest ih =>
    simp only [Except.ok.injEq, Prod.mk.injEq] at h
    obtain ⟨rfl, rfl⟩ := h
    exact readStrings_item (nextItem_append hnext more)
      (steady_readStringValue _ hvalue more) (ih hrest)
  all_goals cases h

end Json

namespace Settings

open Json

variable {settings larger : Settings}

theorem within_eq_ok_iff {α : Type} {path : List PathStep} {result : Except Stop α} {value : α} :
    within path result = .ok value ↔ result = .ok value := by
  cases result <;> simp [within]

theorem steady_readIncludes (path : List PathStep) : Steady (readIncludes path) := by
  intro s headers rest h more
  unfold readIncludes at h
  split at h
  · next hskip =>
    split at h
    · next hread =>
      simp only [Except.ok.injEq, Prod.mk.injEq] at h
      obtain ⟨rfl, rfl⟩ := h
      simp only [readIncludes, skipSpace_append_more hskip, steady_readStrings 0 hread more]
    · cases h
    · cases h
  · cases h

/-- A reader stays steady when its stops get a path and its values are used in some way. -/
theorem steady_map_within {α β : Type} {read : List Char → Except Stop (α × List Char)}
    (h : Steady read) (path : List PathStep) (f : α → β) :
    Steady fun s => (within path (read s)).map fun found => (f found.1, found.2) := by
  intro s value rest hread more
  obtain ⟨⟨found, left⟩, hfound, heq⟩ := map_eq_ok_iff.mp hread
  cases heq
  exact map_eq_ok_iff.mpr
    ⟨_, within_eq_ok_iff.mpr (h (within_eq_ok_iff.mp hfound) more), rfl⟩

theorem steady_readValue (settings : Settings) (path : List PathStep) (key : SettingsKey) :
    Steady (readValue settings path key) := by
  cases key with
  | separator =>
    exact steady_map_within steady_readCharValue path fun c => { settings with separator := c }
  | scope =>
    exact steady_map_within (steady_readStringValue _) path
      fun name => { settings with scope := String.ofList name }
  | unionName =>
    exact steady_map_within (steady_readStringValue _) path
      fun name => { settings with unionName := String.ofList name }
  | visitorName =>
    exact steady_map_within (steady_readStringValue _) path
      fun name => { settings with visitorName := String.ofList name }
  | guardName =>
    exact steady_map_within steady_readOptionalString path
      fun name => { settings with guardName := name.map String.ofList }
  | includes =>
    intro s value rest h more
    obtain ⟨⟨headers, left⟩, hread, heq⟩ := map_eq_ok_iff.mp h
    cases heq
    exact map_eq_ok_iff.mpr ⟨_, steady_readIncludes path hread more, rfl⟩

/-! ## The object form -/

theorem nextMember_append {atStart : Bool} {s : List Char} {next : Option (List Char)}
    (h : nextMember atStart s = .ok next) (more : List Char) :
    nextMember atStart (s ++ more) = .ok (next.map (· ++ more)) := by
  unfold nextMember at h
  split at h
  · cases h
  · next hskip =>
    cases h
    obtain ⟨space, hspace, rfl⟩ := exists_space_of_skipSpace hskip
    rw [List.append_assoc]
    exact nextMember_closed hspace _ _
  · split_ifs at h with hstart
    · subst hstart
      split at h
      · next hskip =>
        cases h
        obtain ⟨before, hbefore, rfl⟩ := exists_space_of_skipSpace hskip
        rw [List.append_assoc]
        exact nextMember_first hbefore _
      · cases h
    · rw [Bool.not_eq_true] at hstart
      subst hstart
      split at h
      · next hskip =>
        split at h
        · cases h
        · next hafter =>
          cases h
          obtain ⟨after, hspace, rfl⟩ := exists_space_of_skipSpace hskip
          obtain ⟨before, hbefore, rfl⟩ := exists_space_of_skipSpace hafter
          simpa using nextMember_further hspace hbefore (_ ++ more)
        · cases h
        · cases h
      · cases h

theorem readColon_append {s rest : List Char} (h : readColon s = .ok rest) (more : List Char) :
    readColon (s ++ more) = .ok (rest ++ more) := by
  unfold readColon at h
  split at h
  · cases h
  · next hskip =>
    cases h
    obtain ⟨space, hspace, rfl⟩ := exists_space_of_skipSpace hskip
    rw [List.append_assoc]
    exact readColon_space hspace _
  · cases h

/-- What the members of an object come to does not change when more text follows. -/
theorem readMembers_append {awaited : List SettingsKey} {s : List Char}
    (h : readMembers settings awaited s = .ok larger) (more : List Char) :
    readMembers settings awaited (s ++ more) = .ok larger := by
  fun_induction readMembers settings awaited s
  case case2 hnext =>
    have hnext := nextMember_append (within_eq_ok_iff.mp hnext) more
    rw [readMembers_closed hnext]
    exact h
  case case7 hnext name _ hkey _ key hname hawaited _ hcolon _ _ hvalue ih =>
    have hnext := nextMember_append (within_eq_ok_iff.mp hnext) more
    have hkey := steady_readString (within_eq_ok_iff.mp hkey) more
    have hcolon := readColon_append (within_eq_ok_iff.mp hcolon) more
    have hvalue := steady_readValue _ _ _ hvalue more
    have hname : SettingsKey.ofName? (String.ofList name) = some key := hname
    rw [readMembers]
    simp only [hnext, Option.map_some, within, hkey, hname, dif_pos hawaited, hcolon, hvalue]
    exact ih h
  all_goals cases h

/-! ## The array form -/

theorem readItems_append {index : Nat} {keys : List SettingsKey} {s : List Char}
    (h : readItems settings index keys s = .ok larger) (more : List Char) :
    readItems settings index keys (s ++ more) = .ok larger := by
  induction keys generalizing settings index s with
  | nil =>
    obtain ⟨rest, hend, heq⟩ := map_eq_ok_iff.mp h
    exact map_eq_ok_iff.mpr
      ⟨_, within_eq_ok_iff.mpr (readArrayEnd_append (within_eq_ok_iff.mp hend) more), heq⟩
  | cons key keys ih =>
    rw [readItems] at h
    split at h
    · cases h
    · next hnext =>
      have hnext := nextItem_append (within_eq_ok_iff.mp hnext) more
      simp only [readItems, hnext, within, Next.andMore]
      exact h
    · next item hnext =>
      have hnext := nextItem_append (within_eq_ok_iff.mp hnext) more
      split at h
      · cases h
      · next hvalue =>
        have hvalue := steady_readValue _ _ _ hvalue more
        simp only [readItems, hnext, within, Next.andMore, hvalue]
        exact ih h

/-! ## The whole text -/

theorem readText_append {text : List Char} (h : readText text = .ok settings) (more : List Char) :
    readText (text ++ more) = .ok settings := by
  unfold readText at h
  split at h
  · next hskip =>
    rw [readText, skipSpace_append_more hskip]
    exact readMembers_append h more
  · next hskip =>
    rw [readText, skipSpace_append_more hskip]
    exact readItems_append h more
  · cases h

theorem read_eq_ok_iff {text : String} :
    read text = .ok settings ↔
      readText text.toList = .ok settings ∧ settings.check = .ok () := by
  unfold read
  dsimp only
  cases readText text.toList with
  | error stop => simp
  | ok found =>
    dsimp only
    cases hcheck : found.check with
    | error problem =>
      simp
      rintro rfl
      simp [hcheck]
    | ok =>
      simp
      rintro rfl
      exact hcheck

/-- Settings that are read stay the same when more text follows. -/
theorem read_append_more {text : String} (h : read text = .ok settings) (more : String) :
    read (text ++ more) = .ok settings := by
  obtain ⟨htext, hcheck⟩ := read_eq_ok_iff.mp h
  refine read_eq_ok_iff.mpr ⟨?_, hcheck⟩
  rw [String.toList_append]
  exact readText_append htext _

/-- The text is read as settings, and nothing shorter that it starts with is read as any. -/
structure IsDocument (settings : Settings) (document : String) : Prop where
  read : read document = .ok settings
  shortest : ∀ shorter : String, shorter.toList <+: document.toList → shorter ≠ document →
    ∀ other, Settings.read shorter ≠ .ok other

/-- Of two prefixes of one text that are documents neither is shorter. -/
theorem IsDocument.unique {text first second : String} (hfirst : IsDocument settings first)
    (hsecond : IsDocument larger second) (hfirstPrefix : first.toList <+: text.toList)
    (hsecondPrefix : second.toList <+: text.toList) : first = second := by
  by_contra hne
  rcases List.prefix_or_prefix_of_prefix hfirstPrefix hsecondPrefix with h | h
  · exact hsecond.shortest first h hne _ hfirst.read
  · exact hfirst.shortest second h (Ne.symm hne) _ hsecond.read

/-- A prefix that is read as settings is read as those of the whole text. -/
theorem settings_eq_of_shorter {text shorter : String} (h : read text = .ok settings)
    (hshorter : shorter.toList <+: text.toList) (hread : read shorter = .ok larger) :
    larger = settings := by
  obtain ⟨more, hmore⟩ := hshorter
  have hwhole := read_append_more hread (String.ofList more)
  have htext : shorter ++ String.ofList more = text :=
    String.toList_injective (by simpa using hmore)
  rw [htext, h, Except.ok.injEq] at hwhole
  exact hwhole.symm

/-- A text that is read as settings starts with a document. -/
theorem exists_isDocument {text : String} (h : read text = .ok settings) :
    ∃ document, IsDocument settings document ∧ document.toList <+: text.toList := by
  by_cases hshorter : ∃ shorter : String, shorter.toList <+: text.toList ∧ shorter ≠ text ∧
      ∃ other, read shorter = .ok other
  · obtain ⟨shorter, hstarts, hne, other, hread⟩ := hshorter
    rw [settings_eq_of_shorter h hstarts hread] at hread
    have hlength : shorter.toList.length < text.toList.length :=
      lt_of_le_of_ne hstarts.length_le fun heq =>
        hne (String.toList_injective (hstarts.eq_of_length heq))
    obtain ⟨document, hdocument, hstart⟩ := exists_isDocument hread
    exact ⟨document, hdocument, hstart.trans hstarts⟩
  · refine ⟨text, ⟨h, fun shorter hstarts hne other hread => ?_⟩, List.prefix_refl _⟩
    exact hshorter ⟨shorter, hstarts, hne, other, hread⟩
termination_by text.toList.length

/-- Text behind settings is not looked at. What is looked at is the one document that the text
starts with. -/
theorem read_whatever_follows {text : String} (h : read text = .ok settings) :
    (∀ more, read (text ++ more) = .ok settings) ∧
      ∃! document, IsDocument settings document ∧ document.toList <+: text.toList := by
  refine ⟨read_append_more h, ?_⟩
  obtain ⟨document, hdocument, hstarts⟩ := exists_isDocument h
  exact ⟨document, ⟨hdocument, hstarts⟩, fun other hother =>
    hother.1.unique hdocument hother.2 hstarts⟩

/-- A second object behind the first one is lost. -/
theorem read_whatever_follows_object :
    read "\x7b\"namespace\":\"a\"\x7d" = .ok { standard with scope := "a" } ∧
      read ("\x7b\"namespace\":\"a\"\x7d" ++ " \x7b\"union_name\":\"node\"\x7d") =
        .ok { standard with scope := "a" } := by
  have hmember : (Member.choice (.scope "a")).IsText
      ((string "namespace").toList ++ ([] ++ ':' :: ([] ++ (string "a").toList))) :=
    .choice space_nil space_nil (.scope "a")
  have htext : IsSettingsText ([Choice.scope "a"].map Member.choice)
      "\x7b\"namespace\":\"a\"\x7d" :=
    ⟨[], _, [], by decide, space_nil, .cons space_nil hmember (.nil space_nil)⟩
  have hread : read "\x7b\"namespace\":\"a\"\x7d" = .ok { standard with scope := "a" } :=
    read_of_hasKeys htext (hasKeys_map_choice (by decide))
  exact ⟨hread, (read_whatever_follows hread).1 _⟩

/-- Text behind settings that is not white space makes no fault. -/
theorem read_accepts_text_behind :
    ¬∀ text more : String, (∃ settings, read text = .ok settings) →
      (∃ c ∈ more.toList, isSpace c = false) → ∃ fault, read (text ++ more) = .error fault := by
  have hread : read "\x7b\x7d" = .ok standard :=
    read_of_hasKeys (show IsSettingsText ([].map Member.choice) "\x7b\x7d" from
      ⟨[], [], [], by decide, space_nil, .nil space_nil⟩) (hasKeys_map_choice (by decide))
  intro h
  obtain ⟨fault, hfault⟩ := h "\x7b\x7d" "x" ⟨_, hread⟩ ⟨'x', by decide, by decide⟩
  rw [read_append_more hread] at hfault
  cases hfault

end Settings

end NodeSchema
