import NodeSchema.Proofs.FieldFault
import NodeSchema.Proofs.Quoted

/-!
# The messages of faults

A message takes two lines, whatever the schema text holds. The wording of a reason is put together
from fixed text, numbers, quoted text and plain text (`Reason.parts`). Quoted text shows whatever
stands in the schema, and holds no line feed. Plain text stands as it is, between back quotes
(`Fenced`), so it must have been checked before : it is an identifier or a type (`Reason.Checked`).
Reading comes to no reason before this check, be it for a piece of a list of fields, for two fields,
for a line or for two lines.

`message_of_read` : the message of a fault names the line and says what is wrong with it on one
line, and shows the trimmed line on another.
-/

namespace NodeSchema

open Text

/-! ## The parts of a message -/

/-- What a wording is put together from. -/
inductive Part where
  /-- Text that is the same for all reasons of a kind. -/
  | fixed (text : String)
  /-- A number. -/
  | number (n : Nat)
  /-- Text of the schema, quoted. -/
  | quoted (text : String)
  /-- Text of the schema as it is. -/
  | plain (text : String)
deriving DecidableEq

namespace Part

/-- The text that stands for a part. -/
def text : Part → String
  | fixed text => text
  | number n => toString n
  | quoted text => Text.quoted text
  | plain text => text

/-- The part without what it takes from the schema. -/
def frame : Part → Part
  | fixed text => fixed text
  | number _ => number 0
  | quoted _ => quoted ""
  | plain _ => plain ""

end Part

/-- Plain text stands between back quotes. -/
def Fenced (parts : List Part) : Prop :=
  ∀ i text, parts[i]? = some (.plain text) → ∃ before after,
    parts[i - 1]? = some (.fixed before) ∧ "`".toList <:+ before.toList ∧
    parts[i + 1]? = some (.fixed after) ∧ "`".toList <+: after.toList

namespace Reason

/-- The parts of the wording of a reason. -/
def parts : Reason → List Part
  | malformedName name =>
    [.fixed "malformed node name ", .quoted name, .fixed ", expected an identifier"]
  | reservedName name =>
    [.fixed "node name `", .plain name, .fixed "` is reserved in the generated header"]
  | malformedField descriptor words =>
    [.fixed "malformed field descriptor ", .quoted descriptor,
     .fixed ", expected `<type> <name>` but found ", .number words, .fixed " token(s)"]
  | invalidFieldName name =>
    [.fixed "invalid field name ", .quoted name,
     .fixed ", expected an identifier that is not a C++ keyword"]
  | invalidFieldType field type =>
    [.fixed "invalid type ", .quoted type, .fixed " for field `", .plain field,
     .fixed "`, expected an identifier optionally using `<`, `>` and `::`"]
  | duplicateField node field =>
    [.fixed "field `", .plain field, .fixed "` appears more than once in node `", .plain node,
     .fixed "`"]
  | fieldNamedAfterNode name =>
    [.fixed "field `", .plain name, .fixed "` has the same name as its node"]
  | fieldShadowsType field type =>
    [.fixed "field `", .plain field, .fixed "` has the same name as a type used in its node (`",
     .plain type, .fixed "`)"]
  | duplicateNode name firstLine =>
    [.fixed "duplicate node name `", .plain name, .fixed "` (first defined on line ",
     .number firstLine, .fixed ")"]

theorem message_eq (reason : Reason) :
    reason.message = String.join (reason.parts.map Part.text) := by
  unfold message
  cases reason <;> simp [parts, Part.text, String.append_assoc]

/-- Reasons of one kind differ only in their numbers, their quoted and their plain texts. -/
theorem frame_eq_of_code_eq {reason other : Reason} (h : other.code = reason.code) :
    other.parts.map Part.frame = reason.parts.map Part.frame := by
  cases reason <;> cases other <;> simp only [code, String.reduceEq] at h <;> rfl

theorem fenced_parts (reason : Reason) : Fenced reason.parts := by
  intro i text h
  -- no wording has more than five parts
  cases reason <;> rcases i with _ | _ | _ | _ | _ | i <;> simp [parts] at h ⊢ <;> decide

theorem feed_not_mem_of_fixed (reason : Reason) :
    ∀ text, Part.fixed text ∈ reason.parts → '\n' ∉ text.toList := by
  cases reason <;> simp [parts]

/-! ## Checked reasons -/

/-- What the wording of a reason shows as it is has been checked. -/
def Checked (reason : Reason) : Prop :=
  ∀ text, Part.plain text ∈ reason.parts → isIdentifier text = true ∨ isTypeExpr text = true

theorem feed_not_mem_number (n : Nat) : '\n' ∉ (toString n).toList := by
  intro h
  have hdigit : '\n'.isDigit = true :=
    Nat.isDigit_of_mem_toDigits (b := 10) (by decide) (by decide) (by simpa using h)
  cases hdigit

/-- The wording of a checked reason is on one line. -/
theorem Checked.feed_not_mem_message {reason : Reason} (h : reason.Checked) :
    '\n' ∉ reason.message.toList := by
  rw [message_eq, String.toList_join, List.mem_flatMap]
  rintro ⟨_, htext, hfeed⟩
  obtain ⟨part, hpart, rfl⟩ := List.mem_map.mp htext
  cases part with
  | fixed text => exact reason.feed_not_mem_of_fixed text hpart hfeed
  | number n => exact feed_not_mem_number n hfeed
  | quoted text => exact feed_not_mem_quoted text hfeed
  | plain text =>
    have htype : isTypeExpr text = true := (h text hpart).elim isTypeExpr_of_isIdentifier id
    exact not_mem_of_isTypeExpr htype (by decide) hfeed

end Reason

section Checks

variable {node : String}

theorem PieceFault.checked {earlier : List (List Char)} {piece : List Char} {reason : Reason}
    (hnode : isIdentifier node = true) (h : PieceFault node earlier piece reason) :
    reason.Checked := by
  cases h with
  | malformed | badName => simp [Reason.Checked, Reason.parts]
  | badType _ hname | sameAsNode _ hname => simp [Reason.Checked, Reason.parts, hname.1]
  | taken _ hname => simp [Reason.Checked, Reason.parts, hname.1, hnode]

/-- Two fields are compared after all of them have been read. -/
theorem checked_of_shadowing {pieces : List (List Char)} {fields : List Field} {field other : Field}
    (hread : collectFields node [] pieces = .ok fields)
    (h : shadowing fields = some (field, other)) :
    (Reason.fieldShadowsType field.name other.type).Checked := by
  have htexts := forall₂_of_collectFields hread
  obtain ⟨hfield, hother⟩ := mem_of_shadowing h
  obtain ⟨_, -, hname⟩ := exists_left_of_mem htexts hfield
  obtain ⟨_, -, htype⟩ := exists_left_of_mem htexts hother
  simp [Reason.Checked, Reason.parts, hname.isIdentifier_name, htype.isTypeExpr_type]

theorem checked_of_readFields {text : List Char} {reason : Reason}
    (hnode : isIdentifier node = true) (h : readFields node text = .error reason) :
    reason.Checked := by
  rcases readFields_eq_error_iff.mp h with hread | ⟨fields, field, other, hread, hshadow, rfl⟩
  · obtain ⟨i, ⟨piece, -, hfault⟩, -⟩ := collectFields_eq_error_iff.mp hread
    exact hfault.checked hnode
  · exact checked_of_shadowing hread hshadow

end Checks

section Lines

variable {settings : Settings} {line : Nat} {text : List Char}

theorem checked_of_readNode {reason : Reason} (h : readNode settings line text = .error reason) :
    reason.Checked := by
  rcases readNode_eq_error h with ⟨name, rfl⟩ | ⟨name, hname, rfl | ⟨rest, hread⟩⟩
  · simp [Reason.Checked, Reason.parts]
  · simp [Reason.Checked, Reason.parts, hname]
  · exact checked_of_readFields hname hread

theorem isIdentifier_of_readNode {node : Node} (h : readNode settings line text = .ok node) :
    isIdentifier node.name = true := by
  unfold readNode at h
  dsimp only at h
  split_ifs at h with hname hused
  split at h
  · cases h
    simpa using hname
  · split at h
    · cases h
    · cases h
      simpa using hname

theorem checked_of_readLine {schema : Schema} {fault : Fault}
    (h : readLine settings schema line text = .error fault) : fault.reason.Checked := by
  obtain ⟨-, -, hread | ⟨node, firstLine, hread, hreason⟩⟩ := readLine_eq_error h
  · exact checked_of_readNode hread
  · rw [hreason]
    simp [Reason.Checked, Reason.parts, isIdentifier_of_readNode hread]

end Lines

/-! ## The message of a fault -/

/-- The only line feed of a message is the one behind the wording. -/
theorem count_feed_message {fault : Fault} (htext : '\n' ∉ fault.text.toList)
    (hchecked : fault.reason.Checked) : fault.message.toList.count '\n' = 1 := by
  have hnumber := List.count_eq_zero.mpr (Reason.feed_not_mem_number fault.line)
  have hwording := List.count_eq_zero.mpr hchecked.feed_not_mem_message
  have htext := List.count_eq_zero.mpr htext
  simp only [Fault.message, String.toList_append, List.count_append, hnumber, hwording, htext]
  decide

/-- How the message of a fault reports it, in a text with these lines. -/
structure Fault.IsReported (texts : List (List Char)) (fault : Fault) : Prop where
  /-- The message takes two lines. -/
  count_feed : fault.message.toList.count '\n' = 1
  /-- The first one gives the number of a line and the wording, the second one the number and that
  line, trimmed. -/
  message_eq : ∃ text, 1 ≤ fault.line ∧ texts[fault.line - 1]? = some text ∧
    fault.message = ("line " ++ toString fault.line ++ ": " ++ fault.reason.message) ++ "\n" ++
      ("    " ++ toString fault.line ++ " | " ++ String.ofList (trim text))
  wording_eq : fault.reason.message = String.join (fault.reason.parts.map Part.text)
  /-- Another reason of the kind has the same wording, up to numbers, quoted and plain texts. -/
  frame_eq : ∀ other : Reason, other.code = fault.reason.code →
    other.parts.map Part.frame = fault.reason.parts.map Part.frame
  fenced : Fenced fault.reason.parts
  /-- Plain texts are identifiers or types. -/
  checked : fault.reason.Checked

/-- Whatever the text of a schema is, the message of its fault takes two lines, and shows text that
has not been checked in quotes only. -/
theorem message_of_read {settings : Settings} {source : String} {fault : Fault}
    (h : Schema.read settings source = .error fault) :
    fault.IsReported (lines source.toList) := by
  obtain ⟨earlier, text, later, middle, htexts, -, hline⟩ := readLines_eq_error_iff.mp h
  obtain ⟨hnumber, htrim, -⟩ := readLine_eq_error hline
  have hchecked := checked_of_readLine hline
  have hplace : (lines source.toList)[fault.line - 1]? = some text := by
    rw [htexts, hnumber, Nat.add_sub_cancel_left, List.getElem?_append_right le_rfl, Nat.sub_self,
      List.getElem?_cons_zero]
  have hfeed : '\n' ∉ fault.text.toList := by
    rw [htrim, String.toList_ofList]
    exact fun hmem => not_mem_of_mem_lines (List.mem_of_getElem? hplace) (mem_of_mem_trim hmem)
  refine ⟨count_feed_message hfeed hchecked, ⟨text, by omega, hplace, ?_⟩,
    fault.reason.message_eq, fun _ => Reason.frame_eq_of_code_eq, fault.reason.fenced_parts,
    hchecked⟩
  have hindent : "\n    " = "\n" ++ "    " := by decide
  simp only [Fault.message, htrim, hindent, String.append_assoc]

/-- A type with marks of its own : it is quoted, and its back quotes stand as they are. -/
theorem message_of_read_marked_type :
    ∃ fault, Schema.read .standard "a\n\n  b | \"`x`\" y , z" = .error fault ∧
      fault.message = "line 3: invalid type \"\\\"`x`\\\"\" for field `y`, expected an " ++
        "identifier optionally using `<`, `>` and `::`\n    3 | b | \"`x`\" y , z" ∧
      fault.IsReported ["a".toList, [], "  b | \"`x`\" y , z".toList] := by
  have h : Schema.read .standard "a\n\n  b | \"`x`\" y , z" =
      .error ⟨3, "b | \"`x`\" y , z", .invalidFieldType "y" "\"`x`\""⟩ := by decide
  exact ⟨_, h, by decide, message_of_read h⟩

end NodeSchema
