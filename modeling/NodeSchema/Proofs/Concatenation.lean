import NodeSchema.Proofs.FirstFault
import NodeSchema.Proofs.Layout

/-!
# One text behind another

A text, a line feed and a second text are read like the first one, and then the lines of
the second one are added to the schema of the first. Those lines are read as if they stood
alone, as many lines further down as the first text has pieces between line feeds
(`Node.lower`, `Fault.lower`), except that they must not define a name of the first text. The
first line that does so is a fault of its own (`Clash`).

`readLines_behind` : the run over the second text that starts with the nodes of the first,
against the one that starts without nodes. Where it fails, it does so at the earlier one of
two faults (`Contender`, `Earliest`), and there is never more than one on a line.

`read_append_feed` : what that comes to for texts.
-/

namespace NodeSchema

open Text

/-! ## Further down -/

/-- The node, `n` lines further down. -/
def Node.lower (n : Nat) (node : Node) : Node :=
  { node with line := node.line + n }

/-- The reason, with the line that it names `n` lines further down. -/
def Reason.lower (n : Nat) : Reason → Reason
  | .duplicateNode name firstLine => .duplicateNode name (firstLine + n)
  | reason => reason

/-- The fault, `n` lines further down. -/
def Fault.lower (n : Nat) (fault : Fault) : Fault :=
  ⟨fault.line + n, fault.text, fault.reason.lower n⟩

@[simp] theorem Node.name_lower (n : Nat) (node : Node) : (node.lower n).name = node.name := rfl

theorem Reason.lower_of_local {reason : Reason} (h : reason.Local) (n : Nat) :
    reason.lower n = reason := by
  cases reason with
  | duplicateNode name firstLine => exact absurd rfl (h name firstLine)
  | _ => rfl

/-- A line is read alike wherever it stands. -/
theorem readNode_add (settings : Settings) (line n : Nat) (text : List Char) :
    readNode settings (line + n) text = (readNode settings line text).map (Node.lower n) := by
  rw [← readNode_map_line settings line (line + n) text]
  cases hread : readNode settings line text with
  | error reason => rfl
  | ok node =>
    rw [Except.map, Except.map, Node.lower, line_of_readNode hread]

theorem find?_lower (nodes : List Node) (n : Nat) (name : String) :
    (nodes.map (Node.lower n)).find? (fun node => node.name = name) =
      (nodes.find? fun node => node.name = name).map (Node.lower n) := by
  rw [List.find?_map]
  rfl

/-! ## Numbers of faults -/

/-- No fault stands above the lines that are read. -/
theorem le_line_of_readLines_error {settings : Settings} {schema : Schema} {line : Nat}
    {texts : List (List Char)} {fault : Fault}
    (h : readLines settings schema line texts = .error fault) : line ≤ fault.line := by
  obtain ⟨earlier, text, later, middle, -, -, hfault⟩ := readLines_eq_error_iff.mp h
  have hline := (readLine_eq_error hfault).1
  omega

/-! ## Clashes -/

/-- The fault of the first of the lines that defines a name of `schema`, the first line being
number `line` : it names the line of that name in `schema`. -/
inductive Clash (settings : Settings) (schema : Schema) : Nat → List (List Char) → Fault → Prop
  | here {line : Nat} {text : List Char} {rest : List (List Char)} {node : Node}
      (hdefines : Defines settings text node.name) (hnode : schema.get? node.name = some node) :
      Clash settings schema line (text :: rest)
        ⟨line, String.ofList (trim text), .duplicateNode node.name node.line⟩
  | later {line : Nat} {text : List Char} {rest : List (List Char)} {fault : Fault}
      (hfree : ∀ name ∈ schema.names, ¬Defines settings text name)
      (hrest : Clash settings schema (line + 1) rest fault) :
      Clash settings schema line (text :: rest) fault

/-- The line defines none of the names of the nodes. -/
def DefinesNoneOf (settings : Settings) (nodes : List Node) (text : List Char) : Prop :=
  ∀ name ∈ nodes.map Node.name, ¬Defines settings text name

/-- No name is one of both. -/
def Apart (first second : List Node) : Prop :=
  ∀ node ∈ second, node.name ∉ first.map Node.name

theorem Defines.unique {settings : Settings} {text : List Char} {a b : String}
    (ha : Defines settings text a) (hb : Defines settings text b) : a = b := by
  obtain ⟨schema, hread, hnames⟩ := ha
  obtain ⟨other, hother, hothers⟩ := hb
  cases hread.symm.trans hother
  exact List.singleton_inj.mp (hnames.symm.trans hothers)

theorem Schema.mem_of_get?_ofNodes {nodes : List Node} {name : String} {node : Node}
    (h : (ofNodes nodes).get? name = some node) : node ∈ nodes ∧ node.name = name := by
  rw [get?_ofNodes] at h
  exact ⟨List.mem_of_find?_eq_some h, by simpa using List.find?_some h⟩

theorem Schema.exists_get?_ofNodes {nodes : List Node} {name : String}
    (h : name ∈ nodes.map Node.name) :
    ∃ node, node.name = name ∧ (ofNodes nodes).get? node.name = some node := by
  obtain ⟨other, hother, rfl⟩ := List.mem_map.mp h
  cases hget : (ofNodes nodes).get? other.name with
  | none =>
    rw [get?_ofNodes] at hget
    simpa using List.find?_eq_none.mp hget other hother
  | some node =>
    have hname := (mem_of_get?_ofNodes hget).2
    exact ⟨node, hname, hname ▸ hget⟩

section Clash

variable {settings : Settings} {nodes : List Node} {line : Nat} {text : List Char}
  {texts : List (List Char)} {fault other : Fault}

theorem Clash.le_line {schema : Schema} (h : Clash settings schema line texts fault) :
    line ≤ fault.line := by
  induction h with
  | here => exact Nat.le_refl _
  | later _ _ ih => omega

/-- A line that defines no name of the schema is passed over. -/
theorem clash_cons_iff (hfree : DefinesNoneOf settings nodes text) :
    Clash settings (.ofNodes nodes) line (text :: texts) fault ↔
      Clash settings (.ofNodes nodes) (line + 1) texts fault := by
  refine ⟨fun h => ?_, fun h => .later (by rwa [Schema.names_ofNodes]) h⟩
  cases h with
  | here hdefines hnode =>
    have hmem := (Schema.mem_of_get?_ofNodes hnode).1
    exact absurd hdefines (hfree _ (List.mem_map_of_mem hmem))
  | later _ hrest => exact hrest

/-- There is one clash at most. -/
theorem Clash.unique (h : Clash settings (.ofNodes nodes) line texts fault)
    (hother : Clash settings (.ofNodes nodes) line texts other) : other = fault := by
  induction h with
  | here hdefines hnode =>
    cases hother with
    | here hsame hget =>
      rw [hsame.unique hdefines, hnode] at hget
      cases hget
      rfl
    | later hfree _ =>
      rw [Schema.names_ofNodes] at hfree
      have hmem := (Schema.mem_of_get?_ofNodes hnode).1
      exact absurd hdefines (hfree _ (List.mem_map_of_mem hmem))
  | later hfree _ ih =>
    rw [Schema.names_ofNodes] at hfree
    exact ih ((clash_cons_iff hfree).mp hother)

/-- There is a clash exactly if some line defines a name of the schema. -/
theorem exists_clash_iff :
    (∃ fault, Clash settings (.ofNodes nodes) line texts fault) ↔
      ∃ text ∈ texts, ∃ name ∈ nodes.map Node.name, Defines settings text name := by
  induction texts generalizing line with
  | nil =>
    refine iff_of_false ?_ (by simp)
    rintro ⟨fault, h⟩
    cases h
  | cons text rest ih =>
    by_cases hfree : DefinesNoneOf settings nodes text
    · simp only [clash_cons_iff hfree, ih, List.exists_mem_cons_iff]
      exact ⟨.inr, fun h => h.resolve_left fun ⟨name, hname, hdefines⟩ => hfree name hname hdefines⟩
    · unfold DefinesNoneOf at hfree
      push Not at hfree
      obtain ⟨name, hname, hdefines⟩ := hfree
      obtain ⟨node, rfl, hnode⟩ := Schema.exists_get?_ofNodes hname
      exact iff_of_true ⟨_, .here hdefines hnode⟩ ⟨text, List.mem_cons_self, _, hname, hdefines⟩

end Clash

/-! ## The earlier of two faults -/

/-- The faults that the second text may come to behind the first : its own one, with all that
it says `n` lines further down, and the clash, whose line is that far down while it names a line
of the first text. -/
inductive Contender (own : Except Fault Schema) (clash : Fault → Prop) (n : Nat) : Fault → Prop
  | own {fault : Fault} (h : own = .error fault) : Contender own clash n (fault.lower n)
  | clash {fault : Fault} (h : clash fault) :
      Contender own clash n { fault with line := fault.line + n }

/-- The fault with a property that stands above all others with that property. -/
def Earliest (p : Fault → Prop) (fault : Fault) : Prop :=
  p fault ∧ ∀ other, p other → other = fault ∨ fault.line < other.line

section Earliest

variable {own : Except Fault Schema} {clash : Fault → Prop} {n : Nat} {fault : Fault}

theorem earliest_own (h : own = .error fault)
    (hlater : ∀ other, clash other → fault.line < other.line) :
    Earliest (Contender own clash n) (fault.lower n) := by
  refine ⟨.own h, fun other hother => ?_⟩
  cases hother with
  | own hown =>
    cases hown.symm.trans h
    exact .inl rfl
  | clash hclash => exact .inr (Nat.add_lt_add_right (hlater _ hclash) n)

theorem earliest_clash (h : clash fault)
    (hlater : ∀ other, own = .error other → fault.line < other.line)
    (hunique : ∀ other, clash other → other = fault) :
    Earliest (Contender own clash n) { fault with line := fault.line + n } := by
  refine ⟨.clash h, fun other hother => ?_⟩
  cases hother with
  | own hown => exact .inr (Nat.add_lt_add_right (hlater _ hown) n)
  | clash hclash =>
    rw [hunique _ hclash]
    exact .inl rfl

end Earliest

/-! ## Runs behind other nodes -/

/-- What one line comes to in a run without the nodes `first`, which has read `before`, and in the
run behind them : the same fault, a clash, or the same nodes. -/
inductive StepBehind (settings : Settings) (first : List Node) (n line : Nat) (text : List Char) :
    Except Fault Schema → Except Fault Schema → Prop
  | fault {fault : Fault} (hline : fault.line = line) (hfree : DefinesNoneOf settings first text) :
      StepBehind settings first n line text (.error fault) (.error (fault.lower n))
  | clash {larger : Schema} {node : Node} (hdefines : Defines settings text node.name)
      (hnode : (Schema.ofNodes first).get? node.name = some node) :
      StepBehind settings first n line text (.ok larger)
        (.error ⟨line + n, String.ofList (trim text), .duplicateNode node.name node.line⟩)
  | pass {after : List Node} (hfree : DefinesNoneOf settings first text)
      (hapart : Apart first after) :
      StepBehind settings first n line text (.ok (.ofNodes after))
        (.ok (.ofNodes (first ++ after.map (Node.lower n))))

section Step

variable {settings : Settings} {first before : List Node} {n line : Nat} {text : List Char}

/-- A line with a node, of which the nodes `first` have the name or not. -/
theorem stepBehind_of_ok {node : Node} (hfeed : '\n' ∉ text) (hblank : ¬Blank text)
    (hapart : Apart first before) (hread : readNode settings line text = .ok node) :
    StepBehind settings first n line text (readLine settings (.ofNodes before) line text)
      (readLine settings (.ofNodes (first ++ before.map (Node.lower n))) (line + n) text) := by
  have hdefines : Defines settings text node.name :=
    (defines_iff line hfeed hblank).mpr ⟨node, hread, rfl⟩
  rw [readLine_ofNodes hblank, readLine_ofNodes hblank, readNode_add, hread]
  dsimp only [Except.map]
  rw [List.find?_append, Node.name_lower, find?_lower]
  by_cases hmem : node.name ∈ first.map Node.name
  · obtain ⟨taken, hname, hget⟩ := Schema.exists_get?_ofNodes hmem
    have hfirst : first.find? (fun other => other.name = node.name) = some taken := by
      rwa [Schema.get?_ofNodes, hname] at hget
    have hbefore : before.find? (fun other => other.name = node.name) = none := by
      rw [List.find?_eq_none]
      intro other hother
      rw [decide_eq_true_eq]
      exact fun heq => hapart other hother (heq ▸ hmem)
    rw [hfirst, hbefore, ← hname]
    exact .clash (hname ▸ hdefines) hget
  · have hfree : DefinesNoneOf settings first text := by
      intro name hname h
      rw [h.unique hdefines] at hname
      exact hmem hname
    have hfirst : first.find? (fun other => other.name = node.name) = none := by
      rw [List.find?_eq_none]
      intro other hother
      rw [decide_eq_true_eq]
      exact fun heq => hmem (heq ▸ List.mem_map_of_mem hother)
    rw [hfirst, Option.none_or]
    cases before.find? fun other => other.name = node.name with
    | some taken => exact .fault rfl hfree
    | none =>
      dsimp only [Option.map]
      rw [List.append_assoc, ← List.map_singleton, ← List.map_append]
      refine .pass hfree fun other hother => ?_
      rcases List.mem_append.mp hother with hother | hother
      · exact hapart other hother
      · rwa [List.mem_singleton.mp hother]

theorem readLine_behind (hfeed : '\n' ∉ text) (hapart : Apart first before) :
    StepBehind settings first n line text (readLine settings (.ofNodes before) line text)
      (readLine settings (.ofNodes (first ++ before.map (Node.lower n))) (line + n) text) := by
  by_cases hblank : Blank text
  · rw [readLine_of_blank hblank, readLine_of_blank hblank]
    exact .pass (fun name _ => not_defines_of_blank hfeed hblank) hapart
  cases hread : readNode settings line text with
  | error reason =>
    have hfree : DefinesNoneOf settings first text := by
      intro name _ h
      obtain ⟨node, hnode, -⟩ := (defines_iff line hfeed hblank).mp h
      cases hread.symm.trans hnode
    have hlower := Reason.lower_of_local (local_of_readNode hread) n
    have hfault := @StepBehind.fault settings first n line text
      ⟨line, String.ofList (trim text), reason⟩ rfl hfree
    rw [Fault.lower, hlower] at hfault
    rw [readLine_ofNodes hblank, readLine_ofNodes hblank, readNode_add, hread]
    exact hfault
  | ok node => exact stepBehind_of_ok hfeed hblank hapart hread

end Step

/-- What a run behind the nodes `first` comes to, if alone it comes to `own` : the nodes of both,
the later ones `n` lines further down, or the earliest fault. -/
inductive ReadBehind (first : List Node) (own : Except Fault Schema) (clash : Fault → Prop)
    (n : Nat) : Except Fault Schema → Prop
  | ok {second : List Node} (hown : own = .ok (.ofNodes second)) (hfree : ∀ fault, ¬clash fault) :
      ReadBehind first own clash n (.ok (.ofNodes (first ++ second.map (Node.lower n))))
  | error {fault : Fault} (h : Earliest (Contender own clash n) fault) :
      ReadBehind first own clash n (.error fault)

/-- The run over lines behind the nodes `first`, against the run that starts without them. The
induction is over the lines; `before` are the nodes that both runs have read. -/
theorem readLines_behind {settings : Settings} {first before : List Node} {n line : Nat}
    {texts : List (List Char)} (hfeed : ∀ text ∈ texts, '\n' ∉ text)
    (hapart : Apart first before) :
    ReadBehind first (readLines settings (.ofNodes before) line texts)
      (Clash settings (.ofNodes first) line texts) n
      (readLines settings (.ofNodes (first ++ before.map (Node.lower n))) (line + n) texts) := by
  induction texts generalizing before line with
  | nil =>
    refine .ok rfl fun fault h => ?_
    cases h
  | cons text rest ih =>
    obtain ⟨htext, hrest⟩ := List.forall_mem_cons.mp hfeed
    rw [readLines, readLines, Nat.add_right_comm line n 1]
    generalize hown : readLine settings (.ofNodes before) line text = own,
      hrun : readLine settings (.ofNodes (first ++ before.map (Node.lower n))) (line + n) text = run
    have hstep : StepBehind settings first n line text own run :=
      hown ▸ hrun ▸ readLine_behind htext hapart
    cases hstep with
    | fault hline hfree =>
      refine .error (earliest_own rfl fun other hother => ?_)
      rw [hline]
      exact ((clash_cons_iff hfree).mp hother).le_line
    | @clash larger node hdefines hnode =>
      have hclash := @Clash.here settings (.ofNodes first) line text rest node hdefines hnode
      exact .error
        (earliest_clash hclash (fun _ => le_line_of_readLines_error) fun _ => hclash.unique)
    | pass hfree hapart =>
      have hclash : Clash settings (.ofNodes first) line (text :: rest) =
          Clash settings (.ofNodes first) (line + 1) rest := by
        funext fault
        exact propext (clash_cons_iff hfree)
      rw [hclash]
      exact ih hrest hapart

/-! ## Texts behind texts -/

/-- What is read of the first text is what the second one is read behind. -/
theorem read_append_feed_eq {settings : Settings} (hcheck : settings.check = .ok ())
    (s t : String) :
    Schema.read settings (s ++ "\n" ++ t) =
      match Schema.read settings s with
      | .error fault => .error fault
      | .ok first =>
        readLines settings first (1 + (1 + s.toList.count '\n')) (lines t.toList) := by
  have hseparator := (Settings.check_eq_ok_iff.mp hcheck).separator
  have hpieces : (s ++ "\n" ++ t).toList.splitOn '\n' =
      s.toList.splitOn '\n' ++ t.toList.splitOn '\n' := by
    rw [← List.splitOn_append_cons_self]
    simp
  rw [read_eq_readLines_splitOn hseparator, hpieces, readLines_append, length_splitOn,
    read_eq_readLines_splitOn hseparator]
  cases readLines settings Schema.empty 1 (s.toList.splitOn '\n') with
  | error fault => rfl
  | ok first =>
    dsimp only
    rw [lines, readLines_linesOfPieces hseparator, Nat.add_comm (s.toList.count '\n')]

/-- There is a clash exactly if the two texts have a name in common. -/
theorem exists_clash_iff_not_disjoint {settings : Settings} {t : String} {first second : List Node}
    (ht : Schema.read settings t = .ok (.ofNodes second)) :
    (∃ fault, Clash settings (.ofNodes first) 1 (lines t.toList) fault) ↔
      ¬(Schema.ofNodes first).names.Disjoint (Schema.ofNodes second).names := by
  have hfeed : ∀ text ∈ lines t.toList, '\n' ∉ text := fun _ => not_mem_of_mem_lines
  have hsecond : second = (Schema.ofNodes second).nodes := (Schema.nodes_ofNodes second).symm
  obtain ⟨nodes, hnodes, hlines, -⟩ := read_eq_ok_iff_ofNodes.mp ht
  rw [hnodes, Schema.nodes_ofNodes] at hsecond
  have hline := fun name k => @exists_line_iff settings 1 _ nodes hfeed hlines name k
  rw [exists_clash_iff, List.disjoint_left, Schema.names_ofNodes, Schema.names_ofNodes, hsecond]
  simp only [not_forall, not_not, exists_prop]
  refine ⟨?_, ?_⟩
  · rintro ⟨text, htext, name, hname, hdefines⟩
    obtain ⟨i, hi⟩ := List.mem_iff_getElem?.mp htext
    obtain ⟨node, hnode, rfl, -⟩ := (hline name _).mpr ⟨i, text, hi, hdefines, rfl⟩
    exact ⟨node.name, hname, List.mem_map_of_mem hnode⟩
  · rintro ⟨name, hname, hother⟩
    obtain ⟨node, hnode, rfl⟩ := List.mem_map.mp hother
    obtain ⟨i, text, hi, hdefines, -⟩ := (hline node.name node.line).mp ⟨node, hnode, rfl, rfl⟩
    exact ⟨text, List.mem_of_getElem? hi, node.name, hname, hdefines⟩

/-- A text and a second one behind it, with a line feed between them. If the first one is at
fault, so are both, and in the same way. Otherwise both are read as the nodes of the two, the
later ones as many lines further down as the first text takes, if these have no name in common.
If they have, or the second one is at fault, both are at fault, and at the earlier place if
there are two. -/
theorem read_append_feed {settings : Settings} (hcheck : settings.check = .ok ())
    (s t : String) :
    (∀ fault, Schema.read settings s = .error fault →
      Schema.read settings (s ++ "\n" ++ t) = .error fault) ∧
    ∀ first, Schema.read settings s = .ok first →
      (∀ second, Schema.read settings t = .ok second → first.names.Disjoint second.names →
        Schema.read settings (s ++ "\n" ++ t) = .ok (.ofNodes
          (first.nodes ++ second.nodes.map (Node.lower (1 + s.toList.count '\n'))))) ∧
      ((∀ second, Schema.read settings t = .ok second → ¬first.names.Disjoint second.names) →
        ∃ fault, Schema.read settings (s ++ "\n" ++ t) = .error fault ∧
          Earliest (Contender (Schema.read settings t)
            (Clash settings first 1 (lines t.toList)) (1 + s.toList.count '\n')) fault) := by
  have hfeed : ∀ text ∈ lines t.toList, '\n' ∉ text := fun _ => not_mem_of_mem_lines
  refine ⟨fun fault hs => by rw [read_append_feed_eq hcheck, hs], fun schema hs => ?_⟩
  obtain ⟨first, rfl, -⟩ := read_eq_ok_iff_ofNodes.mp hs
  have hbehind := @readLines_behind settings first [] (1 + s.toList.count '\n') 1 _ hfeed
    fun node hnode => (List.not_mem_nil hnode).elim
  rw [List.map_nil, List.append_nil] at hbehind
  change ReadBehind first (Schema.read settings t) _ _ _ at hbehind
  rw [read_append_feed_eq hcheck, hs]
  dsimp only
  generalize readLines settings (.ofNodes first) _ (lines t.toList) = run at hbehind ⊢
  cases hbehind with
  | @ok nodes hown hfree =>
    refine ⟨fun second hsecond _ => ?_, fun hshared => ?_⟩
    · cases hown.symm.trans hsecond
      rw [Schema.nodes_ofNodes, Schema.nodes_ofNodes]
    · obtain ⟨fault, hfault⟩ := (exists_clash_iff_not_disjoint hown).mpr (hshared _ hown)
      exact absurd hfault (hfree fault)
  | error hearliest =>
    refine ⟨fun second hsecond hdisjoint => ?_, fun _ => ⟨_, rfl, hearliest⟩⟩
    cases hearliest.1 with
    | own hown => cases hown.symm.trans hsecond
    | clash hclash =>
      obtain ⟨nodes, rfl, -⟩ := read_eq_ok_iff_ofNodes.mp hsecond
      exact absurd hdisjoint ((exists_clash_iff_not_disjoint hsecond).mp ⟨_, hclash⟩)

/-- A text that ends in a carriage return, with texts behind it : one that repeats a name before
a fault of its own, and one that is read. -/
theorem read_append_return :
    Settings.standard.check = .ok () ∧
      ∃ first second, Schema.read .standard "a\nb\r" = .ok first ∧
        Schema.read .standard "\nc | a x" = .ok second ∧
        first.names.Disjoint second.names ∧
        Schema.read .standard ("a\nb\r" ++ "\n" ++ "\nc | a x") = .ok (.ofNodes
          (first.nodes ++ second.nodes.map (Node.lower (1 + "a\nb\r".toList.count '\n')))) ∧
        ∃ fault, Schema.read .standard ("a\nb\r" ++ "\n" ++ "c\n b\nc") = .error fault ∧
          Earliest (Contender (Schema.read .standard "c\n b\nc")
            (Clash .standard first 1 (lines "c\n b\nc".toList))
            (1 + "a\nb\r".toList.count '\n')) fault := by
  have hfirst : Schema.read .standard "a\nb\r" =
      .ok (.ofNodes [⟨"a", [], 1⟩, ⟨"b", [], 2⟩]) := by decide
  have hsecond : Schema.read .standard "\nc | a x" =
      .ok (.ofNodes [⟨"c", [⟨"a", "x"⟩], 2⟩]) := by decide
  have hother : Schema.read .standard "c\n b\nc" = .error ⟨3, "c", .duplicateNode "c" 1⟩ := by
    decide
  have hdisjoint : (Schema.ofNodes [⟨"a", [], 1⟩, ⟨"b", [], 2⟩]).names.Disjoint
      (Schema.ofNodes [⟨"c", [⟨"a", "x"⟩], 2⟩]).names := by simp
  refine ⟨by decide, _, _, hfirst, hsecond, hdisjoint, ?_, ?_⟩
  · exact ((read_append_feed (by decide) _ _).2 _ hfirst).1 _ hsecond hdisjoint
  · refine ((read_append_feed (by decide) _ _).2 _ hfirst).2 fun second h => ?_
    cases hother.symm.trans h

end NodeSchema
