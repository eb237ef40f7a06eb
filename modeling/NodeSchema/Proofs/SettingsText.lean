import Mathlib.Data.List.Nodup
import NodeSchema.Document
import NodeSchema.Proofs.JsonText
import NodeSchema.Settings.Reader

/-!
# Settings as JSON, and back

What the reader of settings makes of an object whose values are of the right kinds, with any
white space between its tokens (`IsSettingsText`). A member is a value for one of the settings
(`Choice`), or it has a key that is not known, and then its value may be anything (`Member`).

`accept` is what the reader comes to : member by member, it puts the value into the settings if
its key may still come. `toOption_readMembers_listed` shows that by induction on the members.
So the object is read if no key is unknown or repeated (`accept_all_eq_some_iff`), and
`read_settingsText` says what `Settings.read` gives in either case. Settings in their compact
form are such an object, hence they are read back.
-/

namespace NodeSchema.Settings

open Json

/-! ## Members -/

/-- A value for one of the settings. -/
inductive Choice where
  | separator (c : Char)
  | scope (name : String)
  | unionName (name : String)
  | visitorName (name : String)
  | guardName (name : Option String)
  | includes (headers : List String)

namespace Choice

/-- The key that the value is written under. -/
def key : Choice → SettingsKey
  | separator _ => .separator
  | scope _ => .scope
  | unionName _ => .unionName
  | visitorName _ => .visitorName
  | guardName _ => .guardName
  | includes _ => .includes

/-- The settings with the value in them. -/
def put (settings : Settings) : Choice → Settings
  | separator c => { settings with separator := c }
  | scope name => { settings with scope := name }
  | unionName name => { settings with unionName := name }
  | visitorName name => { settings with visitorName := name }
  | guardName name => { settings with guardName := name }
  | includes headers => { settings with includes := headers }

/-- A text of the value. -/
inductive IsText : Choice → List Char → Prop
  | separator (c : Char) : IsText (separator c) (string (String.singleton c)).toList
  | scope (name : String) : IsText (scope name) (string name).toList
  | unionName (name : String) : IsText (unionName name) (string name).toList
  | visitorName (name : String) : IsText (visitorName name) (string name).toList
  | noGuard : IsText (guardName none) "null".toList
  | guardName (name : String) : IsText (guardName (some name)) (string name).toList
  | includes {headers : List String} {text : List Char}
      (htext : Listed StringText headers text) :
      IsText (includes headers) ('[' :: (text ++ [']']))

/-- The value of a setting in JSON. -/
def toJson : Choice → Json
  | separator c => .str (String.singleton c)
  | scope name => .str name
  | unionName name => .str name
  | visitorName name => .str name
  | guardName none => .null
  | guardName (some name) => .str name
  | includes headers => .arr (headers.map .str)

end Choice

/-- A member of written settings. -/
inductive Member where
  /-- A value for one of the settings. -/
  | choice (c : Choice)
  /-- Any text under a key that is not known. -/
  | unknown (key : String) (value : List Char) (hkey : SettingsKey.ofName? key = none)

namespace Member

/-- The key as it is written. -/
def name : Member → String
  | choice c => c.key.name
  | unknown key _ _ => key

/-- The settings with the member in them. An unknown key changes none. -/
def put (settings : Settings) : Member → Settings
  | choice c => c.put settings
  | unknown _ _ _ => settings

/-- A text of the member, with white space around its colon. -/
inductive IsText : Member → List Char → Prop
  | choice {c : Choice} {before after text : List Char} (hbefore : Space before)
      (hafter : Space after) (htext : c.IsText text) :
      IsText (choice c) ((string c.key.name).toList ++ (before ++ ':' :: (after ++ text)))
  | unknown {key : String} {before after value : List Char}
      (hkey : SettingsKey.ofName? key = none) (hbefore : Space before)
      (hafter : Space after) :
      IsText (unknown key value hkey)
        ((string key).toList ++ (before ++ ':' :: (after ++ value)))

end Member

/-- The text is an object with the given members, with any white space between its tokens.
What follows the object may be anything. -/
def IsSettingsText (members : List Member) (text : String) : Prop :=
  ∃ before inner after, text.toList = before ++ '\x7b' :: (inner ++ '\x7d' :: after) ∧
    Space before ∧ Listed Member.IsText members inner

/-! ## Reading values -/

theorem readIncludes_listed {headers : List String} {space text : List Char} (hspace : Space space)
    (htext : Listed StringText headers text) (path : List PathStep) (rest : List Char) :
    readIncludes path (space ++ ('[' :: (text ++ ']' :: rest))) = .ok (headers, rest) := by
  simp [readIncludes, skipSpace_token hspace (show isSpace '[' = false by decide),
    readStrings_listed htext, Function.comp_def]

/-- A value is read as it was written. -/
theorem readValue_choice {choice : Choice} {space text : List Char} (hspace : Space space)
    (htext : choice.IsText text) (settings : Settings) (path : List PathStep) (rest : List Char) :
    readValue settings path choice.key (space ++ (text ++ rest)) =
      .ok (choice.put settings, rest) := by
  cases htext with
  | separator c =>
    simp [Choice.key, Choice.put, readValue, readCharValue_string hspace, within, Except.map]
  | scope name =>
    simp [Choice.key, Choice.put, readValue, readStringValue_string hspace, within, Except.map]
  | unionName name =>
    simp [Choice.key, Choice.put, readValue, readStringValue_string hspace, within, Except.map]
  | visitorName name =>
    simp [Choice.key, Choice.put, readValue, readStringValue_string hspace, within, Except.map]
  | noGuard =>
    have hread := readOptionalString_null hspace rest
    simp only [Choice.key, Choice.put, readValue, hread, within, Except.map, Option.map_none]
  | guardName name =>
    simp [Choice.key, Choice.put, readValue, readOptionalString_string hspace, within, Except.map]
  | includes htext =>
    have hread := readIncludes_listed hspace htext path rest
    simp [Choice.key, Choice.put, readValue, hread, Except.map]

/-! ## Reading members -/

theorem nextMember_closed {space : List Char} (hspace : Space space) (atStart : Bool)
    (rest : List Char) : nextMember atStart (space ++ '\x7d' :: rest) = .ok none := by
  rw [nextMember, skipSpace_token hspace (by decide)]
  rfl

theorem nextMember_first {before : List Char} (hbefore : Space before) (quoted : List Char) :
    nextMember true (before ++ '"' :: quoted) = .ok (some quoted) := by
  rw [nextMember, skipSpace_token hbefore (by decide)]
  simp

theorem nextMember_further {after before : List Char} (hafter : Space after)
    (hbefore : Space before) (quoted : List Char) :
    nextMember false (after ++ ',' :: (before ++ '"' :: quoted)) = .ok (some quoted) := by
  have hskip := skipSpace_token hbefore (show isSpace '"' = false by decide) quoted
  rw [nextMember, skipSpace_token hafter (by decide)]
  simp [hskip]

theorem readColon_space {space : List Char} (hspace : Space space) (rest : List Char) :
    readColon (space ++ ':' :: rest) = .ok rest := by
  rw [readColon, skipSpace_token hspace (by decide)]
  rfl

theorem ofName?_name (key : SettingsKey) : SettingsKey.ofName? key.name = some key := by
  cases key <;> decide

section Members

variable {settings : Settings} {awaited : List SettingsKey} {s : List Char}

theorem readMembers_closed (hnext : nextMember (awaited = SettingsKey.all) s = .ok none) :
    readMembers settings awaited s = .ok settings := by
  rw [readMembers]
  simp only [hnext, within]

/-- A value under a key that may still come is taken over. -/
theorem readMembers_awaited {choice : Choice} {before after text rest : List Char}
    (hbefore : Space before) (hafter : Space after) (htext : choice.IsText text)
    (hnext : nextMember (awaited = SettingsKey.all) s =
      .ok (some (choice.key.name.toList.flatMap escaped
        ++ '"' :: (before ++ ':' :: (after ++ (text ++ rest))))))
    (hawaited : choice.key ∈ awaited) :
    readMembers settings awaited s =
      readMembers (choice.put settings) (awaited.erase choice.key) rest := by
  rw [readMembers]
  simp only [hnext, within, readString_escaped, String.ofList_toList, ofName?_name,
    dif_pos hawaited, readColon_space hbefore, readValue_choice hafter htext]

theorem readMembers_repeated {key : SettingsKey} {rest : List Char}
    (hnext : nextMember (awaited = SettingsKey.all) s =
      .ok (some (key.name.toList.flatMap escaped ++ '"' :: rest)))
    (hawaited : key ∉ awaited) : ∃ stop, readMembers settings awaited s = .error stop := by
  rw [readMembers]
  simp only [hnext, within, readString_escaped, String.ofList_toList, ofName?_name,
    dif_neg hawaited]
  exact ⟨_, rfl⟩

theorem readMembers_unknown {key : String} {rest : List Char}
    (hnext : nextMember (awaited = SettingsKey.all) s =
      .ok (some (key.toList.flatMap escaped ++ '"' :: rest)))
    (hkey : SettingsKey.ofName? key = none) :
    ∃ stop, readMembers settings awaited s = .error stop := by
  rw [readMembers]
  simp only [hnext, within, readString_escaped, String.ofList_toList, hkey]
  exact ⟨_, rfl⟩

/-- The settings after some members, as long as each has a key that may still come. -/
def accept (settings : Settings) (awaited : List SettingsKey) : List Member → Option Settings
  | [] => some settings
  | .choice c :: rest =>
    if c.key ∈ awaited then accept (c.put settings) (awaited.erase c.key) rest else none
  | .unknown _ _ _ :: _ => none

/-- One more member is read. -/
theorem toOption_readMembers_cons {member : Member} {members : List Member}
    {body quoted rest : List Char} (htext : member.IsText body)
    (hquoted : body ++ rest = '"' :: quoted)
    (hnext : nextMember (awaited = SettingsKey.all) s = .ok (some quoted))
    (hrest : ∀ (larger : Settings) (left : List SettingsKey), left.length < awaited.length →
      (readMembers larger left rest).toOption = accept larger left members) :
    (readMembers settings awaited s).toOption = accept settings awaited (member :: members) := by
  cases htext with
  | @choice c before after text hbefore hafter htext =>
    rw [List.append_assoc, string_append, List.cons_inj_right] at hquoted
    subst hquoted
    rw [accept]
    split_ifs with hawaited
    · have hlength : (awaited.erase c.key).length < awaited.length := by
        have := List.length_pos_of_mem hawaited
        rw [List.length_erase_of_mem hawaited]
        omega
      rw [readMembers_awaited hbefore hafter htext (by simpa using hnext) hawaited]
      exact hrest _ _ hlength
    · obtain ⟨stop, hstop⟩ : ∃ stop, readMembers settings awaited s = .error stop :=
        readMembers_repeated hnext hawaited
      rw [hstop]
      rfl
  | unknown hkey hbefore hafter =>
    rw [List.append_assoc, string_append, List.cons_inj_right] at hquoted
    subst hquoted
    obtain ⟨stop, hstop⟩ : ∃ stop, readMembers settings awaited s = .error stop :=
      readMembers_unknown hnext hkey
    rw [hstop]
    rfl

end Members

theorem exists_eq_quoted {member : Member} {body : List Char} (htext : member.IsText body) :
    ∃ quoted, body = '"' :: quoted := by
  cases htext with
  | choice => exact ⟨_, string_append _ _⟩
  | unknown => exact ⟨_, string_append _ _⟩

/-- The members after the first one. -/
theorem toOption_readMembers_continued {members : List Member} {text : List Char}
    (h : Continued Member.IsText members text) (settings : Settings) {awaited : List SettingsKey}
    (hawaited : awaited.length < SettingsKey.all.length) (rest : List Char) :
    (readMembers settings awaited (text ++ '\x7d' :: rest)).toOption =
      accept settings awaited members := by
  -- fewer keys than all may still come, so the reader is not at the start of the object
  have hnot {awaited : List SettingsKey} (h : awaited.length < SettingsKey.all.length) :
      decide (awaited = SettingsKey.all) = false := by
    rw [decide_eq_false_iff_not]
    rintro rfl
    exact Nat.lt_irrefl _ h
  induction h generalizing settings awaited with
  | nil hspace =>
    rw [readMembers_closed (nextMember_closed hspace _ rest)]
    rfl
  | @cons member members after before body text hafter hbefore hitem _ ih =>
    obtain ⟨quoted, rfl⟩ := exists_eq_quoted hitem
    have hquoted : '"' :: quoted ++ (text ++ '\x7d' :: rest) =
      '"' :: (quoted ++ (text ++ '\x7d' :: rest)) := rfl
    refine toOption_readMembers_cons hitem hquoted ?_ fun larger left hlt =>
      ih larger (Nat.lt_trans hlt hawaited)
    rw [hnot hawaited]
    simpa using nextMember_further hafter hbefore (quoted ++ (text ++ '\x7d' :: rest))

/-- All members of an object. -/
theorem toOption_readMembers_listed {members : List Member} {text : List Char}
    (h : Listed Member.IsText members text) (settings : Settings) (rest : List Char) :
    (readMembers settings SettingsKey.all (text ++ '\x7d' :: rest)).toOption =
      accept settings SettingsKey.all members := by
  cases h with
  | nil hspace =>
    rw [readMembers_closed (nextMember_closed hspace _ rest)]
    rfl
  | @cons member members before body text hbefore hitem hrest =>
    obtain ⟨quoted, rfl⟩ := exists_eq_quoted hitem
    have hquoted : '"' :: quoted ++ (text ++ '\x7d' :: rest) =
      '"' :: (quoted ++ (text ++ '\x7d' :: rest)) := rfl
    refine toOption_readMembers_cons hitem hquoted ?_ fun larger left hlt =>
      toOption_readMembers_continued hrest larger hlt rest
    simpa using nextMember_first hbefore (quoted ++ (text ++ '\x7d' :: rest))

/-! ## Which members are accepted -/

theorem name_injective : Function.Injective SettingsKey.name := by
  intro a b h
  have := congrArg SettingsKey.ofName? h
  rwa [ofName?_name, ofName?_name, Option.some_inj] at this

/-- A key may still come after another one if it may now and is not that one. -/
theorem exists_mem_erase_iff {awaited : List SettingsKey} (hawaited : awaited.Nodup)
    {key : SettingsKey} {name : String} :
    (∃ other ∈ awaited.erase key, other.name = name) ↔
      (∃ other ∈ awaited, other.name = name) ∧ key.name ≠ name := by
  simp only [hawaited.mem_erase_iff]
  refine ⟨?_, ?_⟩
  · rintro ⟨other, ⟨hne, hmem⟩, rfl⟩
    exact ⟨⟨other, hmem, rfl⟩, fun heq => hne (name_injective heq).symm⟩
  · rintro ⟨⟨other, hmem, rfl⟩, hne⟩
    exact ⟨other, ⟨fun heq => hne (congrArg SettingsKey.name heq).symm, hmem⟩, rfl⟩

/-- Members are accepted exactly if their keys may still come and no key is there twice. -/
theorem accept_eq_some_iff {settings larger : Settings} {awaited : List SettingsKey}
    (hawaited : awaited.Nodup) {members : List Member} :
    accept settings awaited members = some larger ↔
      (∀ member ∈ members, ∃ key ∈ awaited, key.name = member.name) ∧
        (members.map Member.name).Nodup ∧ members.foldl Member.put settings = larger := by
  induction members generalizing settings awaited with
  | nil => simp [accept]
  | cons member rest ih =>
    rw [List.forall_mem_cons, List.map_cons, List.nodup_cons, List.foldl_cons]
    cases member with
    | choice c =>
      have hapart : (∀ member ∈ rest, c.key.name ≠ member.name) ↔
          c.key.name ∉ rest.map Member.name := by
        simp [eq_comm]
      rw [accept]
      split_ifs with hmem
      · have hfirst : ∃ key ∈ awaited, key.name = (Member.choice c).name := ⟨c.key, hmem, rfl⟩
        rw [ih (hawaited.erase _)]
        simp only [exists_mem_erase_iff hawaited, forall_and, hapart]
        tauto
      · refine iff_of_false id ?_
        rintro ⟨⟨⟨key, hkey, heq⟩, -⟩, -⟩
        exact hmem (name_injective heq ▸ hkey)
    | unknown name value hname =>
      refine iff_of_false (by simp [accept]) ?_
      rintro ⟨⟨⟨key, -, heq⟩, -⟩, -⟩
      rw [← show key.name = name from heq, ofName?_name] at hname
      cases hname

/-! ## Settings in an object -/

/-- The settings that members give : the standard ones with each member put in. -/
def ofMembers (members : List Member) : Settings :=
  members.foldl Member.put standard

/-- Every key is known, and none of them is there twice. -/
structure HasKeys (members : List Member) : Prop where
  known : ∀ member ∈ members, ∃ key : SettingsKey, key.name = member.name
  distinct : (members.map Member.name).Nodup

theorem readText_of_isSettingsText {members : List Member} {text : String}
    (h : IsSettingsText members text) :
    (readText text.toList).toOption = accept standard SettingsKey.all members := by
  obtain ⟨before, inner, after, htext, hbefore, hinner⟩ := h
  rw [htext, readText, skipSpace_token hbefore (by decide)]
  exact toOption_readMembers_listed hinner standard after

theorem accept_all_eq_some_iff {members : List Member} {settings : Settings} :
    accept standard SettingsKey.all members = some settings ↔
      HasKeys members ∧ ofMembers members = settings := by
  have hall (key : SettingsKey) : key ∈ SettingsKey.all := by
    cases key <;> decide
  rw [accept_eq_some_iff (by decide)]
  refine ⟨?_, ?_⟩
  · rintro ⟨hknown, hdistinct, hput⟩
    exact ⟨⟨fun member hmember => (hknown member hmember).imp fun _ h => h.2, hdistinct⟩, hput⟩
  · rintro ⟨⟨hknown, hdistinct⟩, hput⟩
    exact ⟨fun member hmember => (hknown member hmember).imp fun key h => ⟨hall key, h⟩,
      hdistinct, hput⟩

theorem read_of_hasKeys {members : List Member} {text : String} (h : IsSettingsText members text)
    (hkeys : HasKeys members) :
    read text = match (ofMembers members).check with
      | .error problem => .error (.unusable problem)
      | .ok () => .ok (ofMembers members) := by
  have hread := readText_of_isSettingsText h
  rw [accept_all_eq_some_iff.mpr ⟨hkeys, rfl⟩] at hread
  cases htext : readText text.toList with
  | error stop => simp [htext, Except.toOption] at hread
  | ok settings =>
    obtain rfl : settings = ofMembers members := by simpa [htext, Except.toOption] using hread
    cases hcheck : (ofMembers members).check <;> simp only [read, htext, hcheck]

theorem read_of_not_hasKeys {members : List Member} {text : String}
    (h : IsSettingsText members text) (hkeys : ¬HasKeys members) :
    ∃ path fault, read text = .error (.malformed path fault) := by
  have hread := readText_of_isSettingsText h
  cases htext : readText text.toList with
  | error stop =>
    simp only [read, htext]
    exact ⟨_, _, rfl⟩
  | ok settings =>
    rw [htext] at hread
    exact absurd (accept_all_eq_some_iff.mp hread.symm).1 hkeys

/-! ## Written settings -/

/-- The values of settings, in the order in which they are written. -/
def choices (settings : Settings) : List Choice :=
  [.separator settings.separator, .scope settings.scope, .unionName settings.unionName,
    .visitorName settings.visitorName, .guardName settings.guardName, .includes settings.includes]

theorem hasKeys_map_choice {choices : List Choice} (h : (choices.map Choice.key).Nodup) :
    HasKeys (choices.map Member.choice) := by
  refine ⟨?_, ?_⟩
  · rw [List.forall_mem_map]
    exact fun c _ => ⟨c.key, rfl⟩
  · have hnames := List.Nodup.map name_injective h
    rwa [List.map_map] at hnames ⊢

theorem hasKeys_choices (settings : Settings) : HasKeys (settings.choices.map Member.choice) :=
  hasKeys_map_choice (show SettingsKey.all.Nodup by decide)

theorem ofMembers_choices (settings : Settings) :
    ofMembers (settings.choices.map Member.choice) = settings := rfl

theorem toJson_eq (settings : Settings) :
    settings.toJson = .obj (settings.choices.map fun c => (c.key.name, c.toJson)) := by
  cases hname : settings.guardName <;>
    simp [Settings.toJson, choices, hname, Choice.toJson, Choice.key, SettingsKey.name]

theorem compactItems_map_str (headers : List String) :
    compactItems (headers.map .str) = headers.map string := by
  induction headers with
  | nil => rfl
  | cons header rest ih => rw [List.map_cons, compactItems, ih, compact, List.map_cons]

theorem compactMembers_map (choices : List Choice) :
    compactMembers (choices.map fun c => (c.key.name, c.toJson)) =
      choices.map fun c => string c.key.name ++ ":" ++ c.toJson.compact := by
  induction choices with
  | nil => rfl
  | cons c rest ih => rw [List.map_cons, compactMembers, ih, List.map_cons]

/-- The compact text of a value is one of its texts. -/
theorem isText_compact (choice : Choice) : choice.IsText choice.toJson.compact.toList := by
  cases choice with
  | separator c => exact .separator c
  | scope name => exact .scope name
  | unionName name => exact .unionName name
  | visitorName name => exact .visitorName name
  | guardName name =>
    cases name with
    | none => exact .noGuard
    | some name => exact .guardName name
  | includes headers =>
    have hlisted : Listed StringText (headers.map id)
        ([','].intercalate (headers.map fun header => (string header).toList)) :=
      listed_intercalate fun _ _ => rfl
    have htext : (Choice.includes headers).toJson.compact.toList =
        '[' :: ([','].intercalate (headers.map fun header => (string header).toList) ++ [']']) := by
      rw [Choice.toJson, compact, compactItems_map_str]
      simp [Function.comp_def]
    rw [List.map_id] at hlisted
    rw [htext]
    exact .includes hlisted

/-- The compact text of settings is one of their texts. -/
theorem isSettingsText_compact (settings : Settings) :
    IsSettingsText (settings.choices.map Member.choice) settings.toJson.compact := by
  have hmember (c : Choice) : (Member.choice c).IsText
      (string c.key.name ++ ":" ++ c.toJson.compact).toList := by
    have hmember := Member.IsText.choice space_nil space_nil (isText_compact c)
    simpa using hmember
  have hlisted : Listed Member.IsText (settings.choices.map Member.choice)
      ([','].intercalate (settings.choices.map fun c =>
        (string c.key.name ++ ":" ++ c.toJson.compact).toList)) :=
    listed_intercalate fun c _ => hmember c
  refine ⟨[], _, [], ?_, space_nil, hlisted⟩
  rw [toJson_eq, compact, compactMembers_map]
  simp [Function.comp_def]

/-- What is read from settings in an object : the standard settings with the values of the
object in them, if they pass the check and every key is known and there once. Settings that
pass the check are read back from their compact form. -/
theorem read_settingsText :
    (∀ (members : List Member) (text : String), IsSettingsText members text →
      (HasKeys members →
        ((ofMembers members).check = .ok () → read text = .ok (ofMembers members)) ∧
        ∀ problem, (ofMembers members).check = .error problem →
          read text = .error (.unusable problem)) ∧
      (¬HasKeys members → ∃ path fault, read text = .error (.malformed path fault))) ∧
    ∀ settings : Settings, settings.check = .ok () →
      read settings.toJson.compact = .ok settings := by
  refine ⟨fun members text h => ⟨fun hkeys => ⟨fun hcheck => ?_, fun problem hcheck => ?_⟩,
    read_of_not_hasKeys h⟩, fun settings hcheck => ?_⟩
  · rw [read_of_hasKeys h hkeys, hcheck]
  · rw [read_of_hasKeys h hkeys, hcheck]
  · rw [read_of_hasKeys (isSettingsText_compact settings) (hasKeys_choices settings),
      ofMembers_choices, hcheck]

/-- An object with white space in it, a string that needs its escapes, and text behind it. -/
theorem read_settingsText_spaced :
    ∃ members, HasKeys members ∧
      IsSettingsText members
        " \x7b\n\"includes\" : [ \"a\\\"\\u0001\" ,\t\"b\"] ,\r\"include_guard\":null \x7d." ∧
      read " \x7b\n\"includes\" : [ \"a\\\"\\u0001\" ,\t\"b\"] ,\r\"include_guard\":null \x7d." =
        .ok { standard with includes := ["a\"\x01", "b"] } := by
  let headers := [' '] ++ ((string "a\"\x01").toList ++
    ([' '] ++ ',' :: (['\t'] ++ ((string "b").toList ++ []))))
  have hheaders : Listed StringText ["a\"\x01", "b"] headers :=
    .cons (by decide) rfl (.cons (by decide) (by decide) rfl (.nil space_nil))
  let first := (string "includes").toList ++ ([' '] ++ ':' :: ([' '] ++ '[' :: (headers ++ [']'])))
  have hfirst : (Member.choice (.includes ["a\"\x01", "b"])).IsText first :=
    .choice (by decide) (by decide) (.includes hheaders)
  let second := (string "include_guard").toList ++ ([] ++ ':' :: ([] ++ "null".toList))
  have hsecond : (Member.choice (.guardName none)).IsText second :=
    .choice space_nil space_nil .noGuard
  have hinner : Listed Member.IsText
      ([.includes ["a\"\x01", "b"], .guardName none].map Member.choice)
      (['\n'] ++ (first ++ ([' '] ++ ',' :: (['\r'] ++ (second ++ [' ']))))) :=
    .cons (by decide) hfirst (.cons (by decide) (by decide) hsecond (.nil (by decide)))
  have hkeys : HasKeys ([.includes ["a\"\x01", "b"], .guardName none].map Member.choice) :=
    hasKeys_map_choice (by decide)
  have htext : IsSettingsText ([.includes ["a\"\x01", "b"], .guardName none].map Member.choice)
      " \x7b\n\"includes\" : [ \"a\\\"\\u0001\" ,\t\"b\"] ,\r\"include_guard\":null \x7d." :=
    ⟨[' '], _, ['.'], by decide, by decide, hinner⟩
  exact ⟨_, hkeys, htext, ((read_settingsText.1 _ _ htext).1 hkeys).1 (by decide)⟩

end NodeSchema.Settings
