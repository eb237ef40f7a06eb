import Mathlib.Data.List.Nodup
import Mathlib.Data.List.TakeWhile
import NodeSchema.Proofs.Preparation

/-!
# Invocations as arguments

Options can be written as arguments, one after the other in the order of their table : a flag
by its name, and a value after the name of its option (`argumentsOf`). Reading them gives the
options with their values again (`readOptions_argumentsOf`), and the values are found under the
keys of their options (`values_givenOf`).

So every invocation is read from its arguments (`Invocation.read_arguments`), unless it names an
empty path. And the options of `check` are read in the same way with the other commands, which
know more options (`Invocation.read_of_read_check`).
-/

namespace NodeSchema

/-! ## Options as arguments -/

/-- The argument that gives an option a value, which does not matter for a flag. -/
def OptionSpec.argument {α : Type} (spec : OptionSpec α) (value : String) : String :=
  match spec.kind with
  | .flag => "--" ++ spec.long
  | _ => "--" ++ spec.long ++ "=" ++ value

/-- The values that an option can have been given : a flag at most one that is empty. -/
def OptionKind.Allows : OptionKind → List String → Prop
  | .flag, values => values = [] ∨ values = [""]
  | .value repeats accepts, values =>
    (repeats = true ∨ values.length ≤ 1) ∧ ∀ value ∈ values, accepts value = true
  | .stop _, values => values = []

/-- An option can as well have been given fewer values. -/
theorem OptionKind.Allows.sublist {kind : OptionKind} {values fewer : List String}
    (h : kind.Allows values) (hfewer : fewer.Sublist values) : kind.Allows fewer := by
  cases kind with
  | flag =>
    rcases h with rfl | rfl
    · exact .inl (List.sublist_nil.mp hfewer)
    · rcases List.sublist_cons_iff.mp hfewer with hnil | ⟨rest, rfl, hrest⟩
      · exact .inl (List.sublist_nil.mp hnil)
      · exact .inr (by rw [List.sublist_nil.mp hrest])
  | value repeats accepts =>
    exact ⟨h.1.imp_right hfewer.length_le.trans,
      fun value hvalue => h.2 value (hfewer.subset hvalue)⟩
  | stop => exact List.sublist_nil.mp (h ▸ hfewer)

namespace Arguments

variable {α : Type} [DecidableEq α] {table specs : List (OptionSpec α)} {given : Given α}
  {spec : OptionSpec α}

/-- Arguments that give each option of a table its values. -/
def argumentsOf (table : List (OptionSpec α)) (values : α → List String) : List String :=
  table.flatMap fun spec => (values spec.key).map spec.argument

/-- The options of a table with their values. -/
def givenOf (table : List (OptionSpec α)) (values : α → List String) : Given α :=
  table.flatMap fun spec => (values spec.key).map (spec.key, ·)

/-- A table whose options can be told apart, by their keys and by their names. -/
structure Distinct (table : List (OptionSpec α)) : Prop where
  keys : (table.map OptionSpec.key).Nodup
  longs : (table.map OptionSpec.long).Nodup
  plain : ∀ spec ∈ table, spec.long ≠ "" ∧ '=' ∉ spec.long.toList

instance (table : List (OptionSpec α)) : Decidable (Distinct table) :=
  decidable_of_iff ((table.map OptionSpec.key).Nodup ∧ (table.map OptionSpec.long).Nodup ∧
    ∀ spec ∈ table, spec.long ≠ "" ∧ '=' ∉ spec.long.toList)
    ⟨fun ⟨keys, longs, plain⟩ => ⟨keys, longs, plain⟩, fun ⟨keys, longs, plain⟩ =>
      ⟨keys, longs, plain⟩⟩

omit [DecidableEq α] in
/-- An option is found by its name. -/
theorem find?_long (hnodup : (table.map OptionSpec.long).Nodup) (hspec : spec ∈ table) :
    (table.find? fun other => other.long = spec.long) = some spec := by
  induction table with
  | nil => cases hspec
  | cons first rest ih =>
    rw [List.map_cons, List.nodup_cons] at hnodup
    rcases List.mem_cons.mp hspec with rfl | hrest
    · simp
    · have hne : first.long ≠ spec.long := fun heq =>
        hnodup.1 (heq ▸ List.mem_map_of_mem hrest)
      rw [List.find?_cons_of_neg (by simpa using hne)]
      exact ih hnodup.2 hrest

/-- The argument of an option is read as that option with its value. -/
theorem readArgument_argument (htable : Distinct table) (hspec : spec ∈ table) {value : String}
    (hallows : spec.kind.Allows [value]) (given : Given α) :
    readArgument table given (spec.argument value) = (record given spec value).map .done := by
  obtain ⟨hne, hequals⟩ := htable.plain spec hspec
  have hfind := find?_long htable.longs hspec
  obtain ⟨c, cs, hlong⟩ : ∃ c cs, spec.long.toList = c :: cs :=
    List.exists_cons_of_ne_nil (by simpa using hne)
  have hplain : ∀ d ∈ c :: cs, (d != '=') = true := by
    intro d hd
    rw [bne_iff_ne]
    rintro rfl
    exact hequals (hlong ▸ hd)
  have hname : String.ofList (c :: cs) = spec.long := by rw [← hlong, String.ofList_toList]
  unfold readArgument
  cases hkind : spec.kind with
  | flag =>
    obtain rfl : value = "" := by simpa [OptionKind.Allows, hkind] using hallows
    have htext : (spec.argument "").toList = '-' :: '-' :: c :: cs := by
      simp [OptionSpec.argument, hkind, hlong]
    have htake : (c :: cs).takeWhile (· != '=') = c :: cs := List.takeWhile_eq_self_iff.mpr hplain
    have hdrop : (c :: cs).dropWhile (· != '=') = [] := List.dropWhile_eq_nil_iff.mpr hplain
    simp only [htext, htake, hdrop, hname, readLong, hfind, hkind, List.isEmpty_nil, if_true]
  | value repeats accepts =>
    have htext : (spec.argument value).toList = '-' :: '-' :: c :: (cs ++ '=' :: value.toList) := by
      simp [OptionSpec.argument, hkind, hlong]
    have htake : (c :: (cs ++ '=' :: value.toList)).takeWhile (· != '=') = c :: cs := by
      rw [← List.cons_append, List.takeWhile_append_of_pos hplain]
      simp
    have hdrop : (c :: (cs ++ '=' :: value.toList)).dropWhile (· != '=') = '=' :: value.toList := by
      rw [← List.cons_append, List.dropWhile_append_of_pos hplain]
      simp
    simp only [htext, htake, hdrop, hname, readLong, hfind, hkind, List.isEmpty_cons,
      Bool.false_eq_true, if_false, List.drop_succ_cons, List.drop_zero, String.ofList_toList]
  | stop => simp [OptionKind.Allows, hkind] at hallows

/-- An option that is not there yet, or may be there again, is noted with a value that it
allows. -/
theorem record_eq_ok {values : List String} {value : String}
    (hallows : spec.kind.Allows (values ++ [value])) (hspec : spec.key ∉ given.map Prod.fst) :
    record (given ++ values.map (spec.key, ·)) spec value =
      .ok (given ++ (values ++ [value]).map (spec.key, ·)) := by
  have hgiven : (given.any fun old => old.1 = spec.key) = false := by
    rw [List.any_eq_false]
    intro old hold heq
    exact hspec (of_decide_eq_true heq ▸ List.mem_map_of_mem hold)
  cases hkind : spec.kind with
  | flag =>
    obtain ⟨rfl, rfl⟩ : values = [] ∧ value = "" := by
      rcases values with _ | ⟨first, rest⟩ <;> simp_all [OptionKind.Allows]
    simp [record, hkind, hgiven]
  | value repeats accepts =>
    rw [hkind] at hallows
    obtain ⟨hrepeats | hlength, haccepts⟩ := hallows
    · simp [record, hkind, hrepeats, haccepts]
    · obtain rfl : values = [] := List.eq_nil_of_length_eq_zero (by simpa using hlength)
      simp [record, hkind, hgiven, haccepts]
  | stop => simp [OptionKind.Allows, hkind] at hallows

/-- The arguments of an option are read as that option with its values. -/
theorem readOptions_values (htable : Distinct table) (hspec : spec ∈ table)
    {before values : List String} (hallows : spec.kind.Allows (before ++ values))
    (hnew : spec.key ∉ given.map Prod.fst) (rest : List String) :
    readOptions table (given ++ before.map (spec.key, ·)) (values.map spec.argument ++ rest) =
      readOptions table (given ++ (before ++ values).map (spec.key, ·)) rest := by
  induction values generalizing before with
  | nil => simp
  | cons value values ih =>
    have hsplit : before ++ value :: values = before ++ [value] ++ values := by simp
    have hone : spec.kind.Allows [value] :=
      hallows.sublist ((List.singleton_sublist.mpr List.mem_cons_self).trans
        (List.sublist_append_right _ _))
    have hbefore : spec.kind.Allows (before ++ [value]) :=
      hallows.sublist (hsplit ▸ List.sublist_append_left _ _)
    rw [List.map_cons, List.cons_append, readOptions, readArgument_argument htable hspec hone,
      record_eq_ok hbefore hnew]
    dsimp only [Except.map]
    rw [ih (hsplit ▸ hallows), hsplit]

/-- Options of a table are read from their arguments. -/
theorem readOptions_specs (htable : Distinct table) {values : α → List String}
    (hspecs : ∀ spec ∈ specs, spec ∈ table ∧ spec.kind.Allows (values spec.key))
    (hnodup : (specs.map OptionSpec.key).Nodup)
    (hnew : ∀ spec ∈ specs, spec.key ∉ given.map Prod.fst) :
    readOptions table given (argumentsOf specs values) =
      .ok (given ++ givenOf specs values, []) := by
  induction specs generalizing given with
  | nil => simp [argumentsOf, givenOf, readOptions]
  | cons spec rest ih =>
    obtain ⟨⟨hspec, hallows⟩, hrest⟩ := List.forall_mem_cons.mp hspecs
    obtain ⟨hfirst, hothers⟩ := List.forall_mem_cons.mp hnew
    rw [List.map_cons, List.nodup_cons] at hnodup
    have hallows : spec.kind.Allows ([] ++ values spec.key) := hallows
    have hstep := readOptions_values htable hspec hallows hfirst (argumentsOf rest values)
    have happart : ∀ other ∈ rest, other.key ∉
        (given ++ (values spec.key).map (spec.key, ·)).map Prod.fst := by
      intro other hother hmem
      rw [List.map_append, List.mem_append] at hmem
      rcases hmem with hmem | hmem
      · exact hothers other hother hmem
      · have hkey : other.key = spec.key := by simp_all
        exact hnodup.1 (hkey ▸ List.mem_map_of_mem hother)
    simp only [List.map_nil, List.append_nil, List.nil_append] at hstep
    rw [argumentsOf, List.flatMap_cons]
    refine hstep.trans ?_
    rw [ih hrest hnodup.2 happart, givenOf, givenOf, List.flatMap_cons, List.append_assoc]

/-- The options of a table are read from their arguments. -/
theorem readOptions_argumentsOf (htable : Distinct table) {values : α → List String}
    (hallows : ∀ spec ∈ table, spec.kind.Allows (values spec.key)) :
    readOptions table [] (argumentsOf table values) = .ok (givenOf table values, []) :=
  readOptions_specs htable (fun spec hspec => ⟨hspec, hallows spec hspec⟩) htable.keys (by simp)

/-- An argument that does not start with a dash ends the options. -/
theorem readOptions_word {argument : String} (h : argument.toList.head? ≠ some '-')
    (table : List (OptionSpec α)) (given : Given α) (rest : List String) :
    readOptions table given (argument :: rest) = .ok (given, argument :: rest) := by
  have hword : readArgument table given argument = .ok .word := by
    unfold readArgument
    split <;> simp_all
  rw [readOptions, hword]

/-- Behind options that are all read, reading goes on with what they have given. -/
theorem readOptions_append {arguments : List String} {more : Given α}
    (h : readOptions table given arguments = .ok (more, [])) (rest : List String) :
    readOptions table given (arguments ++ rest) = readOptions table more rest := by
  fun_induction readOptions table given arguments with
  | case1 given =>
    cases h
    rfl
  | case3 given argument others hword => cases h
  | case4 given argument others noted hdone ih =>
    rw [List.cons_append, readOptions, hdone]
    exact ih h
  | case7 given argument noted spec hawaits value others hvalue larger hrecord ih =>
    rw [List.cons_append, List.cons_append, readOptions, hawaits]
    simp only [hvalue, if_true, hrecord]
    exact ih h
  | _ => cases h

/-! ## Values that were given -/

/-- The value of an option is the first of its values. -/
theorem value?_eq_head? (given : Given α) (key : α) :
    value? given key = (values given key).head? := by
  rw [value?, values]
  induction given with
  | nil => rfl
  | cons old rest ih =>
    obtain ⟨name, value⟩ := old
    by_cases h : name = key
    · simp [h]
    · have hne : (key == name) = false := beq_false_of_ne (Ne.symm h)
      simp [List.lookup_cons, h, hne, ih]

theorem has_eq_not_isEmpty (given : Given α) (key : α) :
    has given key = !(values given key).isEmpty := by
  rw [has, values, List.isEmpty_map, Bool.eq_iff_iff]
  simp [List.isEmpty_eq_false_iff, List.filter_eq_nil_iff]

theorem values_append (given more : Given α) (key : α) :
    values (given ++ more) key = values given key ++ values more key := by
  simp [values]

theorem values_of_key {texts : List String} {name key : α} :
    values (texts.map (name, ·)) key = if name = key then texts else [] := by
  unfold values
  split_ifs with h
  · simp [h, List.filter_eq_self.mpr, Function.comp_def]
  · simp [h]

/-- An option that the table has not is not given. -/
theorem values_givenOf_of_not_mem {of : α → List String} {key : α}
    (hkey : key ∉ table.map OptionSpec.key) : values (givenOf table of) key = [] := by
  induction table with
  | nil => rfl
  | cons spec rest ih =>
    rw [List.map_cons, List.mem_cons, not_or] at hkey
    rw [givenOf, List.flatMap_cons, values_append, values_of_key, if_neg (Ne.symm hkey.1)]
    exact ih hkey.2

/-- The values of an option are found under its key. -/
theorem values_givenOf {of : α → List String} (hnodup : (table.map OptionSpec.key).Nodup) {key : α}
    (hkey : key ∈ table.map OptionSpec.key) : values (givenOf table of) key = of key := by
  induction table with
  | nil => cases hkey
  | cons spec rest ih =>
    rw [List.map_cons, List.nodup_cons] at hnodup
    rw [givenOf, List.flatMap_cons, values_append, values_of_key]
    split_ifs with heq
    · subst heq
      rw [← givenOf, values_givenOf_of_not_mem hnodup.1, List.append_nil]
    · exact ih hnodup.2 ((List.mem_cons.mp hkey).resolve_left (Ne.symm heq))

/-! ## Tables with more options -/

/-- What has been given, and options of the table after it. -/
def Extends (table : List (OptionSpec α)) (given more : Given α) : Prop :=
  ∀ old ∈ more, old ∈ given ∨ old.1 ∈ table.map OptionSpec.key

omit [DecidableEq α] in
theorem Extends.refl (table : List (OptionSpec α)) (given : Given α) : Extends table given given :=
  fun _ => .inl

omit [DecidableEq α] in
theorem Extends.trans {more most : Given α} (h : Extends table given more)
    (hmost : Extends table more most) : Extends table given most :=
  fun old hold => (hmost old hold).elim (h old) .inr

/-- An option of the table is noted behind those given before. -/
theorem extends_record {value : String} {more : Given α} (hspec : spec ∈ table)
    (h : record given spec value = .ok more) : Extends table given more := by
  rw [record] at h
  split_ifs at h
  cases h
  intro old hold
  rcases List.mem_append.mp hold with hold | hold
  · exact .inl hold
  · rw [List.mem_singleton.mp hold]
    exact .inr (List.mem_map_of_mem hspec)

/-- A step that goes on from what has been given, with an option of the table if it awaits a
value. -/
inductive StepFrom (table : List (OptionSpec α)) (given : Given α) : Step α → Prop
  | word : StepFrom table given .word
  | done {more : Given α} (h : Extends table given more) : StepFrom table given (.done more)
  | awaits {more : Given α} {spec : OptionSpec α} (h : Extends table given more)
      (hspec : spec ∈ table) : StepFrom table given (.awaits more spec)

omit [DecidableEq α] in
theorem StepFrom.after {more : Given α} {step : Step α} (h : Extends table given more)
    (hstep : StepFrom table more step) : StepFrom table given step := by
  cases hstep with
  | word => exact .word
  | done hmore => exact .done (h.trans hmore)
  | awaits hmore hspec => exact .awaits (h.trans hmore) hspec

theorem stepFrom_record {value : String} {step : Step α} (hspec : spec ∈ table)
    (h : (record given spec value).map .done = .ok step) : StepFrom table given step := by
  cases hrecord : record given spec value with
  | error => simp [hrecord, Except.map] at h
  | ok more =>
    rw [hrecord] at h
    cases h
    exact .done (extends_record hspec hrecord)

section Wider

variable (extra : List (OptionSpec α)) {step : Step α}

omit [DecidableEq α] in
theorem find?_wider {p : OptionSpec α → Bool} (h : table.find? p = some spec) :
    (table ++ extra).find? p = some spec := by
  rw [List.find?_append, h, Option.some_or]

theorem readCluster_wider {letters : List Char} (h : readCluster table given letters = .ok step) :
    readCluster (table ++ extra) given letters = .ok step ∧ StepFrom table given step := by
  induction letters generalizing given with
  | nil =>
    cases h
    exact ⟨rfl, .done (.refl table given)⟩
  | cons letter rest ih =>
    rw [readCluster] at h ⊢
    split at h
    · cases h
    · next spec hfind =>
      have hspec : spec ∈ table := List.mem_of_find?_eq_some hfind
      rw [find?_wider extra hfind]
      dsimp only
      split at h
      · cases h
      · split at h
        · cases h
        · next more hrecord =>
          obtain ⟨hwider, hstep⟩ := ih h
          exact ⟨hwider, hstep.after (extends_record hspec hrecord)⟩
      · split at h
        · cases h
          exact ⟨rfl, .awaits (.refl table given) hspec⟩
        · exact ⟨h, stepFrom_record hspec h⟩
        · exact ⟨h, stepFrom_record hspec h⟩

theorem readLong_wider {name : String} {attached : Option String}
    (h : readLong table given name attached = .ok step) :
    readLong (table ++ extra) given name attached = .ok step ∧ StepFrom table given step := by
  rw [readLong] at h ⊢
  split at h
  · cases h
  · next spec hfind =>
    have hspec : spec ∈ table := List.mem_of_find?_eq_some hfind
    rw [find?_wider extra hfind]
    refine ⟨h, ?_⟩
    split at h
    · cases h
    · exact stepFrom_record hspec h
    · cases h
      exact .awaits (.refl table given) hspec
    · exact stepFrom_record hspec h
    · cases h

theorem readArgument_wider {argument : String} (h : readArgument table given argument = .ok step) :
    readArgument (table ++ extra) given argument = .ok step ∧ StepFrom table given step := by
  unfold readArgument at h ⊢
  split at h
  · cases h
    exact ⟨rfl, .word⟩
  · exact readLong_wider extra h
  · cases h
    exact ⟨rfl, .word⟩
  · exact readCluster_wider extra h
  · cases h
    exact ⟨rfl, .word⟩

/-- What is read with a table is read in the same way with a table that has further options. -/
theorem readOptions_wider {arguments left : List String} {more : Given α}
    (h : readOptions table given arguments = .ok (more, left)) :
    readOptions (table ++ extra) given arguments = .ok (more, left) ∧ Extends table given more := by
  fun_induction readOptions table given arguments with
  | case1 given =>
    cases h
    exact ⟨rfl, .refl table _⟩
  | case3 given argument rest hword =>
    cases h
    obtain ⟨hwider, -⟩ := readArgument_wider extra hword
    exact ⟨by rw [readOptions, hwider], .refl table _⟩
  | case4 given argument rest noted hdone ih =>
    obtain ⟨hwider, hstep⟩ := readArgument_wider extra hdone
    obtain ⟨hrest, hmore⟩ := ih h
    cases hstep with
    | done hnoted => exact ⟨by rw [readOptions, hwider]; exact hrest, hnoted.trans hmore⟩
  | case7 given argument noted spec hawaits value others hvalue larger hrecord ih =>
    obtain ⟨hwider, hstep⟩ := readArgument_wider extra hawaits
    obtain ⟨hrest, hmore⟩ := ih h
    cases hstep with
    | awaits hnoted hspec =>
      refine ⟨?_, hnoted.trans ((extends_record hspec hrecord).trans hmore)⟩
      rw [readOptions, hwider]
      simp only [hvalue, if_true, hrecord]
      exact hrest
  | _ => cases h

end Wider

theorem values_of_extends {more : Given α} (h : Extends table [] more) {key : α}
    (hkey : key ∉ table.map OptionSpec.key) : values more key = [] := by
  have hnone : (more.filter fun old => old.1 = key) = [] := by
    rw [List.filter_eq_nil_iff]
    intro old hold heq
    rcases h old hold with hnil | htable
    · cases hnil
    · exact hkey (of_decide_eq_true heq ▸ htable)
  rw [values, hnone, List.map_nil]

end Arguments

/-! ## Invocations as arguments -/

namespace Command

/-- The name of a command. -/
def name : Command → String
  | cpp _ => "cpp"
  | schema _ _ => "schema"
  | check _ => "check"

/-- The options that a command takes. -/
def table : Command → List (OptionSpec Invocation.Key)
  | cpp _ => Invocation.headerOptions
  | schema _ _ => Invocation.inputOptions ++ [Invocation.outOption]
  | check _ => Invocation.inputOptions

/-- The command `cpp` with no options but those of every command. -/
def plainCpp (source : InputOptions) : Command :=
  .cpp ⟨source, none, none, [], none, false⟩

theorem tableOf?_name (command : Command) :
    Invocation.tableOf? command.name = some command.table := by
  cases command <;> rfl

/-- Every command takes the options of the input. -/
theorem key_mem_table {command : Command} {key : Invocation.Key}
    (h : key ∈ Invocation.inputOptions.map OptionSpec.key) :
    key ∈ command.table.map OptionSpec.key := by
  cases command with
  | cpp options => exact List.map_subset _ (List.subset_append_left _ _) h
  | schema source out => exact List.map_subset _ (List.subset_append_left _ _) h
  | check source => exact h

theorem distinct_table (command : Command) : Arguments.Distinct command.table := by
  cases command <;> simp only [table] <;> decide

end Command

namespace Invocation

/-- The values that an invocation gives to an option. -/
def values (invocation : Invocation) : Key → List String
  | .verbose => if invocation.verbose then [""] else []
  | .help => []
  | .version => []
  | .input => [invocation.command.source.input]
  | .config => invocation.command.source.config.toList
  | .separator => invocation.command.source.separator.toList.map String.singleton
  | .unionName => invocation.command.source.unionName.toList
  | .visitorName => invocation.command.source.visitorName.toList
  | .scope => invocation.command.scope?.toList
  | .guardName => invocation.command.guardName?.toList
  | .include => invocation.command.includes
  | .out => invocation.command.out?.toList
  | .dryRun => if invocation.command.isDryRun then [""] else []

/-- The arguments of an invocation : the name of its command, and then its options. -/
def arguments (invocation : Invocation) : List String :=
  invocation.command.name :: Arguments.argumentsOf invocation.command.table invocation.values

/-- An invocation with no empty path gives its options values that they allow. -/
theorem allows_values {invocation : Invocation}
    (hconfig : invocation.command.source.config ≠ some "")
    (hout : invocation.command.out? ≠ some "") :
    ∀ spec ∈ invocation.command.table, spec.kind.Allows (invocation.values spec.key) := by
  have htext (value : Option String) :
      (OptionKind.value false fun _ => true).Allows value.toList := by
    cases value <;> simp [OptionKind.Allows]
  have hpath {path : Option String} (h : path ≠ some "") :
      (OptionKind.value false fun value => !value.isEmpty).Allows path.toList := by
    cases path <;> simp_all [OptionKind.Allows]
  have hflag (b : Bool) : OptionKind.flag.Allows (if b then [""] else []) := by
    cases b <;> simp [OptionKind.Allows]
  have hseparator (separator : Option Char) :
      (OptionKind.value false fun value => value.length = 1).Allows
        (separator.toList.map String.singleton) := by
    cases separator <;> simp [OptionKind.Allows]
  have hinput : ∀ spec ∈ inputOptions, spec.kind.Allows (invocation.values spec.key) := by
    simp only [inputOptions, commonOptions, List.cons_append, List.nil_append,
      List.forall_mem_cons]
    exact ⟨hflag _, rfl, htext (some _), hpath hconfig, hseparator _, htext _, htext _, by simp⟩
  have hfile : outOption.kind.Allows (invocation.values outOption.key) := hpath hout
  cases hcommand : invocation.command with
  | cpp options =>
    simp only [Command.table, headerOptions, List.forall_mem_append, List.forall_mem_cons]
    refine ⟨hinput, htext _, htext _, ?_, hfile, hflag _, by simp⟩
    simp [OptionKind.Allows]
  | schema source out =>
    simp only [Command.table, List.forall_mem_append, List.forall_mem_singleton]
    exact ⟨hinput, hfile⟩
  | check source => exact hinput

section ReadCommand

variable {given : Given Key}

/-- What every command takes is read from the values of its options. -/
theorem readInput_eq_ok {source : InputOptions}
    (hinput : Arguments.values given .input = [source.input])
    (hconfig : Arguments.values given .config = source.config.toList)
    (hseparator : Arguments.values given .separator =
      source.separator.toList.map String.singleton)
    (hunion : Arguments.values given .unionName = source.unionName.toList)
    (hvisitor : Arguments.values given .visitorName = source.visitorName.toList) :
    readInput given = .ok source := by
  obtain ⟨input, config, separator, unionName, visitorName⟩ := source
  simp only [readInput, Arguments.value?_eq_head?, hinput, hconfig, hseparator, hunion, hvisitor]
  cases separator <;> simp

/-- A command is read from the values of its options. -/
theorem readCommand_eq_ok {invocation : Invocation}
    (h : ∀ key ∈ invocation.command.table.map OptionSpec.key,
      Arguments.values given key = invocation.values key) :
    readCommand invocation.command.name given = .ok invocation.command := by
  have hcommon : ∀ key ∈ inputOptions.map OptionSpec.key,
      Arguments.values given key = invocation.values key :=
    fun key hkey => h key (Command.key_mem_table hkey)
  have hsource : readInput given = .ok invocation.command.source :=
    readInput_eq_ok (hcommon .input (by decide)) (hcommon .config (by decide))
      (hcommon .separator (by decide)) (hcommon .unionName (by decide))
      (hcommon .visitorName (by decide))
  rw [readCommand, hsource]
  obtain ⟨verbose, command⟩ := invocation
  cases command with
  | cpp options =>
    obtain ⟨source, scope, guardName, includes, out, dryRun⟩ := options
    change ∀ key ∈ headerOptions.map OptionSpec.key, _ at h
    simp only [Command.name, Command.source, Arguments.value?_eq_head?,
      Arguments.has_eq_not_isEmpty, h .scope (by decide), h .guardName (by decide),
      h .include (by decide), h .out (by decide), h .dryRun (by decide), values,
      Command.scope?, Command.guardName?, Command.includes, Command.out?, Command.isDryRun]
    cases dryRun <;> simp
  | schema source out =>
    change ∀ key ∈ (inputOptions ++ [outOption]).map OptionSpec.key, _ at h
    simp [Command.name, Command.source, Arguments.value?_eq_head?, h .out (by decide), values,
      Command.out?]
  | check source => rfl

end ReadCommand

/-- What is read behind the name of a command, and behind the options before it. -/
theorem read_append {leading : List String} {noted : Given Key}
    (hleading : Arguments.readOptions leadingOptions [] leading = .ok (noted, []))
    {name : String} {table : List (OptionSpec Key)} (hdash : name.toList.head? ≠ some '-')
    (hhelp : name ≠ "help") (htable : tableOf? name = some table) (options : List String) :
    read (leading ++ name :: options) =
      match Arguments.readOptions table [] options with
      | .error interruption => .error interruption
      | .ok (given, left) =>
        if left = [] || left = ["--"] then
          (readCommand name given).map fun command =>
            ⟨Arguments.has noted .verbose || Arguments.has given .verbose, command⟩
        else .error .usage := by
  rw [read, Arguments.readOptions_append hleading, Arguments.readOptions_word hdash]
  dsimp only
  rw [if_neg hhelp]
  split
  · next hnone =>
    rw [hnone] at htable
    cases htable
  · next found hfound =>
    obtain rfl : found = table := Option.some_inj.mp (hfound.symm.trans htable)
    rfl

/-- Every invocation without empty paths is read from its arguments. -/
theorem read_arguments {invocation : Invocation}
    (hconfig : invocation.command.source.config ≠ some "")
    (hout : invocation.command.out? ≠ some "") :
    read invocation.arguments = .ok invocation := by
  have hname : invocation.command.name.toList.head? ≠ some '-' ∧
      invocation.command.name ≠ "help" := by
    cases invocation.command <;> simp [Command.name]
  have hoptions := Arguments.readOptions_argumentsOf invocation.command.distinct_table
    (allows_values hconfig hout)
  have hvalues : ∀ key ∈ invocation.command.table.map OptionSpec.key, Arguments.values
      (Arguments.givenOf invocation.command.table invocation.values) key = invocation.values key :=
    fun key hkey => Arguments.values_givenOf invocation.command.distinct_table.keys hkey
  have hverbose : Arguments.has
      (Arguments.givenOf invocation.command.table invocation.values) .verbose =
        invocation.verbose := by
    rw [Arguments.has_eq_not_isEmpty, hvalues .verbose (Command.key_mem_table (by decide)),
      values]
    cases invocation.verbose <;> rfl
  have hleading : Arguments.readOptions leadingOptions [] [] = .ok ([], []) := rfl
  have hread := read_append hleading hname.1 hname.2 invocation.command.tableOf?_name
    (Arguments.argumentsOf invocation.command.table invocation.values)
  rw [hoptions] at hread
  dsimp only at hread
  rw [readCommand_eq_ok hvalues, hverbose] at hread
  exact hread

/-- Options that are read before and behind `check` are read in the same way with the other
commands, which get none of their own. -/
theorem read_of_read_check {leading options : List String} {noted : Given Key}
    (hleading : Arguments.readOptions leadingOptions [] leading = .ok (noted, []))
    {verbose : Bool} {source : InputOptions}
    (h : read (leading ++ "check" :: options) = .ok ⟨verbose, .check source⟩) :
    read (leading ++ "schema" :: options) = .ok ⟨verbose, .schema source none⟩ ∧
      read (leading ++ "cpp" :: options) = .ok ⟨verbose, .plainCpp source⟩ := by
  rw [read_append hleading (by simp) (by simp) rfl] at h
  split at h
  · cases h
  · next given left hoptions =>
    have hwider := fun extra => (Arguments.readOptions_wider extra hoptions).1
    have hnone : ∀ key ∉ inputOptions.map OptionSpec.key, Arguments.values given key = [] :=
      fun key => Arguments.values_of_extends (Arguments.readOptions_wider [] hoptions).2
    split_ifs at h with hleft
    cases hsource : readInput given with
    | error => simp [readCommand, hsource, Except.map] at h
    | ok other =>
      simp only [readCommand, hsource, Except.map] at h
      cases h
      refine ⟨?_, ?_⟩
      · rw [read_append hleading (by simp) (by simp) rfl, hwider]
        simp only [hleft, if_true, readCommand, hsource, Except.map, Arguments.value?_eq_head?,
          hnone .out (by decide), List.head?_nil]
      · rw [read_append hleading (by simp) (by simp)
          (show tableOf? "cpp" = some (inputOptions ++ _) from rfl), hwider]
        simp only [hleft, if_true, readCommand, hsource, Except.map, Arguments.value?_eq_head?,
          Arguments.has_eq_not_isEmpty, hnone .scope (by decide), hnone .guardName (by decide),
          hnone .include (by decide), hnone .out (by decide), hnone .dryRun (by decide),
          List.head?_nil, List.isEmpty_nil, Bool.not_true, Command.plainCpp]

end Invocation

end NodeSchema
