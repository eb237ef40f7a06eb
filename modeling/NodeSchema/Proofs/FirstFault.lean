import Mathlib.Data.List.Nodup
import NodeSchema.Proofs.Reading

/-!
# The first fault of a text

A text that is not read as a schema is reported at its first line at fault, and that
line is one by what it is when it is read alone, together with the names that the lines
before it define (`FirstFault`) : either it is rejected alone, and for the same reason, or
it defines a name that exactly one line before it defines (`Defines`).

`read_eq_error_iff_firstFault` : the reported fault is the first fault, for all settings
and all texts.
-/

namespace NodeSchema

open Text

/-! ## Reasons of single lines -/

/-- A reason that a line can be rejected for without regard to the lines before it. -/
def Reason.Local (reason : Reason) : Prop :=
  ∀ name firstLine, reason ≠ .duplicateNode name firstLine

theorem local_of_readField {node : String} {earlier : List Field} {piece : List Char}
    {reason : Reason} (h : readField node earlier piece = .error reason) : reason.Local := by
  intro name firstLine
  unfold readField at h
  split at h
  · dsimp only at h
    split_ifs at h <;> cases h <;> simp
  · cases h
    simp

theorem local_of_collectFields {node : String} {earlier : List Field}
    {pieces : List (List Char)} {reason : Reason}
    (h : collectFields node earlier pieces = .error reason) : reason.Local := by
  induction pieces generalizing earlier with
  | nil => cases h
  | cons piece rest ih =>
    rw [collectFields] at h
    split at h
    · next hread =>
      cases h
      exact local_of_readField hread
    · exact ih h

theorem local_of_readFields {node : String} {text : List Char} {reason : Reason}
    (h : readFields node text = .error reason) : reason.Local := by
  unfold readFields at h
  split at h
  · next hread =>
    cases h
    exact local_of_collectFields hread
  · split at h
    · cases h
      intro name firstLine
      simp
    · cases h

theorem local_of_readNode {settings : Settings} {line : Nat} {text : List Char} {reason : Reason}
    (h : readNode settings line text = .error reason) : reason.Local := by
  rcases readNode_eq_error h with ⟨name, rfl⟩ | ⟨name, -, rfl | ⟨rest, hread⟩⟩
  · intro name firstLine
    simp
  · intro name firstLine
    simp
  · exact local_of_readFields hread

/-- The number of a line is in the node that is read on it, and nowhere else. -/
theorem readNode_map_line (settings : Settings) (m n : Nat) (text : List Char) :
    (readNode settings m text).map (fun node => { node with line := n }) =
      readNode settings n text := by
  unfold readNode
  dsimp only
  split_ifs
  · rfl
  · rfl
  · split
    · rfl
    · split <;> rfl

theorem exists_readNode_of_line {settings : Settings} {m : Nat} (n : Nat) {text : List Char}
    {node : Node} (h : readNode settings m text = .ok node) :
    ∃ other, readNode settings n text = .ok other ∧ other.name = node.name ∧ other.line = n := by
  refine ⟨{ node with line := n }, ?_, rfl, rfl⟩
  rw [← readNode_map_line settings m n text, h]
  rfl

theorem line_of_readNode {settings : Settings} {line : Nat} {text : List Char} {node : Node}
    (h : readNode settings line text = .ok node) : node.line = line := by
  have := readNode_map_line settings line line text
  rw [h] at this
  exact congrArg Node.line (Except.ok.inj this).symm

theorem readNode_error_of_line {settings : Settings} {m : Nat} (n : Nat) {text : List Char}
    {reason : Reason} (h : readNode settings m text = .error reason) :
    readNode settings n text = .error reason := by
  rw [← readNode_map_line settings m n text, h]
  rfl

/-! ## Lines read alone -/

/-- A line, read as a text of its own, defines a node of this name. -/
def Defines (settings : Settings) (text : List Char) (name : String) : Prop :=
  ∃ schema, Schema.read settings (String.ofList text) = .ok schema ∧ schema.names = [name]

/-- A line, read as a text of its own, is rejected for this reason. -/
def RejectedAlone (settings : Settings) (text : List Char) (reason : Reason) : Prop :=
  ∃ fault, Schema.read settings (String.ofList text) = .error fault ∧ fault.reason = reason

/-- A text that is one line is read like that line. -/
theorem read_ofList {settings : Settings} {text : List Char} (hfeed : '\n' ∉ text)
    (hblank : ¬Blank text) :
    Schema.read settings (String.ofList text) = readLine settings (.ofNodes []) 1 text := by
  have hne : text ≠ [] := fun h => hblank (h ▸ blank_nil)
  rw [Schema.read, String.toList_ofList, lines_of_not_mem hfeed hne, readLines,
    show Schema.empty = .ofNodes [] from rfl]
  cases readLine settings (.ofNodes []) 1 text <;> rfl

theorem defines_iff {settings : Settings} {text : List Char} {name : String} (line : Nat)
    (hfeed : '\n' ∉ text) (hblank : ¬Blank text) :
    Defines settings text name ↔ ∃ node, readNode settings line text = .ok node ∧
      node.name = name := by
  rw [Defines, read_ofList hfeed hblank]
  simp only [readLine_eq_ok_iff hblank]
  refine ⟨?_, ?_⟩
  · rintro ⟨schema, ⟨node, hnode, -, rfl⟩, hname⟩
    obtain ⟨other, hother, heq, -⟩ := exists_readNode_of_line line hnode
    exact ⟨other, hother, heq.trans (by simpa using hname)⟩
  · rintro ⟨node, hnode, rfl⟩
    obtain ⟨other, hother, heq, -⟩ := exists_readNode_of_line 1 hnode
    exact ⟨_, ⟨other, hother, by simp, rfl⟩, by simpa using heq⟩

theorem rejectedAlone_iff {settings : Settings} {text : List Char} {reason : Reason} (line : Nat)
    (hfeed : '\n' ∉ text) (hblank : ¬Blank text) :
    RejectedAlone settings text reason ↔ readNode settings line text = .error reason := by
  rw [RejectedAlone, read_ofList hfeed hblank]
  simp only [readLine_eq_error_iff hblank, List.find?_nil]
  refine ⟨?_, fun h => ?_⟩
  · rintro ⟨fault, ⟨found, hread, rfl⟩ | ⟨_, _, -, hfind, -⟩, rfl⟩
    · exact readNode_error_of_line line hread
    · cases hfind
  · exact ⟨_, .inl ⟨reason, readNode_error_of_line 1 h, rfl⟩, rfl⟩

/-- A blank line defines nothing. -/
theorem not_defines_of_blank {settings : Settings} {text : List Char} {name : String}
    (hfeed : '\n' ∉ text) (h : Blank text) : ¬Defines settings text name := by
  have hlines : definingLines 1 (lines text) = [] := by
    by_cases hne : text = []
    · rw [hne, lines_nil, definingLines_nil]
    · rw [lines_of_not_mem hfeed hne, definingLines_cons_of_blank h, definingLines_nil]
  rintro ⟨schema, hread, hname⟩
  obtain ⟨nodes, rfl, hnodes, -⟩ := read_eq_ok_iff_ofNodes.mp hread
  rw [String.toList_ofList, hlines] at hnodes
  cases hnodes
  simp at hname

/-! ## Accepted lines -/

/-- The lines that are not blank are accepted alone, and no two define the same name. -/
structure Accepted (settings : Settings) (texts : List (List Char)) : Prop where
  defines : ∀ text ∈ texts, ¬Blank text → ∃ name, Defines settings text name
  distinct : texts.Pairwise fun a b => ∀ name, Defines settings a name → ¬Defines settings b name

/-- The nodes that a run reads are what its lines define alone. -/
theorem exists_line_iff {settings : Settings} {line : Nat} {texts : List (List Char)}
    {nodes : List Node} (hfeed : ∀ text ∈ texts, '\n' ∉ text)
    (h : List.Forall₂ (fun entry node => readNode settings entry.2 entry.1 = .ok node)
      (definingLines line texts) nodes) {name : String} {k : Nat} :
    (∃ node ∈ nodes, node.name = name ∧ node.line = k) ↔
      ∃ i text, texts[i]? = some text ∧ Defines settings text name ∧ k = line + i := by
  refine ⟨?_, ?_⟩
  · rintro ⟨node, hnode, rfl, rfl⟩
    obtain ⟨⟨text, number⟩, hentry, hread⟩ := exists_left_of_mem h hnode
    obtain ⟨hblank, i, htext, rfl⟩ := mem_definingLines_iff.mp hentry
    have hdefines := (defines_iff _ (hfeed text (List.mem_of_getElem? htext)) hblank).mpr
      ⟨node, hread, rfl⟩
    exact ⟨i, text, htext, hdefines, line_of_readNode hread⟩
  · rintro ⟨i, text, htext, hdefines, rfl⟩
    have hfeed := hfeed text (List.mem_of_getElem? htext)
    have hblank : ¬Blank text := fun hblank => not_defines_of_blank hfeed hblank hdefines
    have hentry : (text, line + i) ∈ definingLines line texts :=
      mem_definingLines_iff.mpr ⟨hblank, i, htext, rfl⟩
    obtain ⟨node, hnode, hread⟩ := exists_right_of_mem h hentry
    obtain ⟨other, hother, rfl⟩ := (defines_iff (line + i) hfeed hblank).mp hdefines
    cases hread.symm.trans hother
    exact ⟨node, hnode, rfl, line_of_readNode hread⟩

theorem accepted_cons_iff {settings : Settings} {text : List Char} {rest : List (List Char)} :
    Accepted settings (text :: rest) ↔ (¬Blank text → ∃ name, Defines settings text name) ∧
      (∀ other ∈ rest, ∀ name, Defines settings text name → ¬Defines settings other name) ∧
      Accepted settings rest := by
  refine ⟨fun ⟨hdefines, hdistinct⟩ => ?_, fun ⟨hdefines, hapart, hrest⟩ => ?_⟩
  · obtain ⟨hdefines, hrest⟩ := List.forall_mem_cons.mp hdefines
    obtain ⟨hapart, hdistinct⟩ := List.pairwise_cons.mp hdistinct
    exact ⟨hdefines, hapart, hrest, hdistinct⟩
  · exact ⟨List.forall_mem_cons.mpr ⟨hdefines, hrest.defines⟩,
      List.pairwise_cons.mpr ⟨hapart, hrest.distinct⟩⟩

/-- A line defines another name than the lines behind it exactly if its node has another
name than theirs. -/
theorem defines_apart_iff {settings : Settings} {m n : Nat} {text : List Char}
    {texts : List (List Char)} {node : Node} {nodes : List Node} (hfeed : '\n' ∉ text)
    (hblank : ¬Blank text) (hread : readNode settings m text = .ok node)
    (hfeeds : ∀ other ∈ texts, '\n' ∉ other)
    (hnodes : List.Forall₂ (fun entry node => readNode settings entry.2 entry.1 = .ok node)
      (definingLines n texts) nodes) :
    (∀ other ∈ texts, ∀ name, Defines settings text name → ¬Defines settings other name) ↔
      node.name ∉ nodes.map Node.name := by
  rw [List.mem_map, not_exists]
  refine ⟨fun h other ⟨hother, heq⟩ => ?_, fun h found hfound name hname hdefined => ?_⟩
  · obtain ⟨i, found, hfound, hdefined, -⟩ :=
      (exists_line_iff hfeeds hnodes).mp ⟨other, hother, heq, rfl⟩
    have hdefines := (defines_iff m hfeed hblank).mpr ⟨node, hread, rfl⟩
    exact h found (List.mem_of_getElem? hfound) node.name hdefines hdefined
  · obtain ⟨same, hsame, rfl⟩ := (defines_iff m hfeed hblank).mp hname
    obtain rfl := Except.ok.inj (hread.symm.trans hsame)
    obtain ⟨i, hi⟩ := List.mem_iff_getElem?.mp hfound
    obtain ⟨other, hother, heq, -⟩ :=
      (exists_line_iff hfeeds hnodes).mpr ⟨i, found, hi, hdefined, rfl⟩
    exact h other ⟨hother, heq⟩

/-- A run ends well exactly if its lines are accepted alone and define different names. -/
theorem accepted_iff {settings : Settings} {line : Nat} {texts : List (List Char)}
    (hfeed : ∀ text ∈ texts, '\n' ∉ text) :
    Accepted settings texts ↔ ∃ nodes,
      List.Forall₂ (fun entry node => readNode settings entry.2 entry.1 = .ok node)
        (definingLines line texts) nodes ∧ (nodes.map Node.name).Nodup := by
  induction texts generalizing line with
  | nil => exact ⟨fun _ => ⟨[], .nil, by simp⟩, fun _ => ⟨by simp, by simp⟩⟩
  | cons text rest ih =>
    obtain ⟨htext, hrest⟩ := List.forall_mem_cons.mp hfeed
    rw [accepted_cons_iff]
    by_cases hblank : Blank text
    · have hnot := fun name => @not_defines_of_blank settings text name htext hblank
      rw [definingLines_cons_of_blank hblank, ← ih hrest]
      exact ⟨fun h => h.2.2,
        fun h => ⟨absurd hblank, fun _ _ name hname => absurd hname (hnot name), h⟩⟩
    · rw [definingLines_cons hblank]
      refine ⟨fun ⟨hdefines, hapart, haccepted⟩ => ?_, fun ⟨nodes, hnodes, hnodup⟩ => ?_⟩
      · obtain ⟨nodes, hnodes, hnodup⟩ := (ih hrest).mp haccepted
        obtain ⟨name, hname⟩ := hdefines hblank
        obtain ⟨node, hread, -⟩ := (defines_iff line htext hblank).mp hname
        have hnew := (defines_apart_iff htext hblank hread hrest hnodes).mp hapart
        exact ⟨node :: nodes, .cons hread hnodes, List.nodup_cons.mpr ⟨hnew, hnodup⟩⟩
      · obtain _ | @⟨_, node, _, nodes, hread, hnodes⟩ := hnodes
        obtain ⟨hnew, hnodup⟩ := List.nodup_cons.mp hnodup
        have hdefines := (defines_iff line htext hblank).mpr ⟨node, hread, rfl⟩
        exact ⟨fun _ => ⟨node.name, hdefines⟩,
          (defines_apart_iff htext hblank hread hrest hnodes).mpr hnew,
          (ih hrest).mpr ⟨nodes, hnodes, hnodup⟩⟩

/-! ## The first definition of a name -/

/-- Of these lines the one with number `k`, and no other, defines the name. -/
structure DefinedOnlyAt (settings : Settings) (texts : List (List Char)) (name : String)
    (k : Nat) : Prop where
  one_le : 1 ≤ k
  le_length : k ≤ texts.length
  defines_iff : ∀ i text, texts[i]? = some text → (Defines settings text name ↔ i + 1 = k)

theorem find?_eq_some_iff {nodes : List Node} (hnodup : (nodes.map Node.name).Nodup)
    {name : String} {first : Node} :
    nodes.find? (fun node => node.name = name) = some first ↔
      first ∈ nodes ∧ first.name = name := by
  refine ⟨fun h => ?_, ?_⟩
  · exact ⟨List.mem_of_find?_eq_some h, by simpa using List.find?_some h⟩
  · rintro ⟨hmem, rfl⟩
    cases hfind : nodes.find? fun node => node.name = first.name with
    | none => simpa using List.find?_eq_none.mp hfind first hmem
    | some found =>
      have hfound : found.name = first.name := by simpa using List.find?_some hfind
      rw [List.inj_on_of_nodup_map hnodup (List.mem_of_find?_eq_some hfind) hmem hfound]

/-- The first node with a name in a run is on the only line that defines the name. -/
theorem exists_find?_iff {settings : Settings} {texts : List (List Char)} {nodes : List Node}
    (hfeed : ∀ text ∈ texts, '\n' ∉ text)
    (hnodes : List.Forall₂ (fun entry node => readNode settings entry.2 entry.1 = .ok node)
      (definingLines 1 texts) nodes)
    (hnodup : (nodes.map Node.name).Nodup) {name : String} {k : Nat} :
    (∃ first, nodes.find? (fun node => node.name = name) = some first ∧ first.line = k) ↔
      DefinedOnlyAt settings texts name k := by
  simp only [find?_eq_some_iff hnodup, and_assoc]
  refine ⟨?_, ?_⟩
  · rintro ⟨first, hfirst, hname, hline⟩
    obtain ⟨i, text, htext, hdefines, rfl⟩ :=
      (exists_line_iff hfeed hnodes).mp ⟨first, hfirst, hname, hline⟩
    obtain ⟨hi, -⟩ := List.getElem?_eq_some_iff.mp htext
    refine ⟨by omega, by omega, fun j other hother => ⟨fun hdefined => ?_, fun hj => ?_⟩⟩
    · obtain ⟨node, hnode, hsame, hj⟩ :=
        (exists_line_iff hfeed hnodes).mpr ⟨j, other, hother, hdefined, rfl⟩
      have := List.inj_on_of_nodup_map hnodup hnode hfirst (hsame.trans hname.symm)
      rw [this] at hj
      omega
    · obtain rfl : j = i := by omega
      cases htext.symm.trans hother
      exact hdefines
  · rintro ⟨hone, hlength, hiff⟩
    have htext := List.getElem?_eq_getElem (l := texts) (i := k - 1) (by omega)
    have hdefines := (hiff _ _ htext).mpr (by omega)
    exact (exists_line_iff hfeed hnodes).mpr ⟨k - 1, _, htext, hdefines, by omega⟩

/-! ## The first fault -/

/-- What the line behind the `earlier` ones is at fault for : it is rejected alone, or it
defines the name of one of them. -/
def IsCause (settings : Settings) (earlier : List (List Char)) (text : List Char)
    (reason : Reason) : Prop :=
  (RejectedAlone settings text reason ∧ reason.Local) ∨
    ∃ name k, Defines settings text name ∧ DefinedOnlyAt settings earlier name k ∧
      reason = .duplicateNode name k

/-- The fault is that of the first line at fault : the lines before it are accepted, and
it is not, for this reason. Its number counts all lines, and its text is the trimmed
line, which is not empty. -/
structure FirstFault (settings : Settings) (texts : List (List Char)) (fault : Fault) : Prop where
  one_le_line : 1 ≤ fault.line
  line_le_length : fault.line ≤ texts.length
  text_ne : fault.text ≠ ""
  accepted : Accepted settings (texts.take (fault.line - 1))
  cause : ∃ text, texts[fault.line - 1]? = some text ∧ fault.text = String.ofList (trim text) ∧
    IsCause settings (texts.take (fault.line - 1)) text fault.reason

/-- The line behind an accepted run fails for its cause. -/
theorem readLine_eq_error_iff_isCause {settings : Settings} {earlier : List (List Char)}
    {nodes : List Node} {line : Nat} {text : List Char} {fault : Fault}
    (hearlier : ∀ other ∈ earlier, '\n' ∉ other)
    (hnodes : List.Forall₂ (fun entry node => readNode settings entry.2 entry.1 = .ok node)
      (definingLines 1 earlier) nodes)
    (hnodup : (nodes.map Node.name).Nodup) (hfeed : '\n' ∉ text) (hblank : ¬Blank text) :
    readLine settings (.ofNodes nodes) line text = .error fault ↔
      fault.line = line ∧ fault.text = String.ofList (trim text) ∧
        IsCause settings earlier text fault.reason := by
  obtain ⟨faultLine, faultText, reason⟩ := fault
  rw [readLine_eq_error_iff hblank, IsCause, rejectedAlone_iff line hfeed hblank]
  simp only [Fault.mk.injEq]
  refine ⟨?_, ?_⟩
  · rintro (⟨_, hread, rfl, rfl, rfl⟩ | ⟨node, first, hread, hfind, rfl, rfl, rfl⟩)
    · exact ⟨rfl, rfl, .inl ⟨hread, local_of_readNode hread⟩⟩
    · exact ⟨rfl, rfl, .inr ⟨node.name, first.line,
        (defines_iff faultLine hfeed hblank).mpr ⟨node, hread, rfl⟩,
        (exists_find?_iff hearlier hnodes hnodup).mp ⟨first, hfind, rfl⟩, rfl⟩⟩
  · rintro ⟨rfl, rfl, ⟨hread, -⟩ | ⟨name, k, hdefines, honly, rfl⟩⟩
    · exact .inl ⟨reason, hread, rfl, rfl, rfl⟩
    · obtain ⟨node, hread, rfl⟩ := (defines_iff faultLine hfeed hblank).mp hdefines
      obtain ⟨first, hfind, rfl⟩ := (exists_find?_iff hearlier hnodes hnodup).mpr honly
      exact .inr ⟨node, first, hread, hfind, rfl, rfl, rfl⟩

/-- The first fault cuts the lines into those before it, its own, and those behind it. -/
theorem firstFault_iff_append {settings : Settings} {texts : List (List Char)} {fault : Fault} :
    FirstFault settings texts fault ↔ ∃ earlier text later, texts = earlier ++ text :: later ∧
      ¬Blank text ∧ Accepted settings earlier ∧ fault.line = 1 + earlier.length ∧
      fault.text = String.ofList (trim text) ∧ IsCause settings earlier text fault.reason := by
  have htext : ∀ {text : List Char}, fault.text = String.ofList (trim text) →
      (fault.text ≠ "" ↔ ¬Blank text) := by
    intro text htrim
    rw [htrim, ne_eq, String.ofList_eq_empty_iff, trim_eq_nil_iff]
  refine ⟨fun ⟨hone, hle, hne, haccepted, text, hline, htrim, hcause⟩ => ?_, ?_⟩
  · obtain ⟨hlt, rfl⟩ := List.getElem?_eq_some_iff.mp hline
    have hdrop := List.drop_eq_getElem_cons hlt
    refine ⟨texts.take (fault.line - 1), _, texts.drop (fault.line - 1 + 1), ?_,
      (htext htrim).mp hne, haccepted, ?_, htrim, hcause⟩
    · rw [← hdrop, List.take_append_drop]
    · rw [List.length_take]
      omega
  · rintro ⟨earlier, text, later, rfl, hblank, haccepted, hline, htrim, hcause⟩
    have hindex : fault.line - 1 = earlier.length := by omega
    have htake : (earlier ++ text :: later).take (fault.line - 1) = earlier :=
      List.take_left' hindex.symm
    refine ⟨by omega, ?_, (htext htrim).mpr hblank, ?_, text, ?_, htrim, ?_⟩
    · rw [List.length_append, List.length_cons]
      omega
    · rwa [htake]
    · simp [hindex]
    · rwa [htake]

/-- A text is reported with a fault exactly if that is its first fault. -/
theorem read_eq_error_iff_firstFault {settings : Settings} {source : String} {fault : Fault} :
    Schema.read settings source = .error fault ↔
      FirstFault settings (lines source.toList) fault := by
  have hfeed : ∀ text ∈ lines source.toList, '\n' ∉ text := fun _ => not_mem_of_mem_lines
  rw [Schema.read, show Schema.empty = .ofNodes [] from rfl, readLines_eq_error_iff,
    firstFault_iff_append]
  generalize lines source.toList = texts at hfeed
  refine ⟨?_, ?_⟩
  · rintro ⟨earlier, text, later, middle, rfl, hearlier, hfault⟩
    obtain ⟨hfeedEarlier, hfeedRest⟩ := List.forall_mem_append.mp hfeed
    have hfeedText := hfeedRest text List.mem_cons_self
    obtain ⟨nodes, rfl, hnodes, hnodup⟩ := (readLines_eq_ok_iff (by simp)).mp hearlier
    rw [List.nil_append] at hnodup hfault
    have hblank : ¬Blank text := by
      intro hblank
      rw [readLine_of_blank hblank] at hfault
      cases hfault
    have hcause :=
      (readLine_eq_error_iff_isCause hfeedEarlier hnodes hnodup hfeedText hblank).mp hfault
    exact ⟨earlier, text, later, rfl, hblank,
      (accepted_iff hfeedEarlier).mpr ⟨nodes, hnodes, hnodup⟩, hcause⟩
  · rintro ⟨earlier, text, later, rfl, hblank, haccepted, hcause⟩
    obtain ⟨hfeedEarlier, hfeedRest⟩ := List.forall_mem_append.mp hfeed
    have hfeedText := hfeedRest text List.mem_cons_self
    obtain ⟨nodes, hnodes, hnodup⟩ := (accepted_iff hfeedEarlier).mp haccepted
    exact ⟨earlier, text, later, .ofNodes nodes, rfl,
      (readLines_eq_ok_iff (by simp)).mpr ⟨nodes, by simp, hnodes, by simpa using hnodup⟩,
      (readLine_eq_error_iff_isCause hfeedEarlier hnodes hnodup hfeedText hblank).mpr hcause⟩

example : Schema.read .standard "a\n\nb\n a \n?" = .error ⟨4, "a", .duplicateNode "a" 1⟩ := by
  decide

end NodeSchema
