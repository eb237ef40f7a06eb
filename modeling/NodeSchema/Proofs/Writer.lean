import Mathlib.Algebra.GroupWithZero.Nat
import NodeSchema.Header

/-!
# Headers written one after another

A writer takes the headers of several schemas into one text. Whatever it has written before, a line
goes behind it (`HeaderWriter.append`), and so does all that is written line by line
(`HeaderWriter.foldl_eq_append`) : a header, and the headers of any number of schemas
(`HeaderWriter.addAll_eq`). What is added for a schema is the header that it has alone.

`HeaderWriter.concatenates` : the text of a run is that of the single headers, joined, and what has
been written once is not touched again.
-/

namespace NodeSchema.HeaderWriter

/-! ## Texts behind what has been written -/

/-- The writer with a text behind what it has written. -/
def append (w : HeaderWriter) (added : String) : HeaderWriter :=
  { w with text := w.text ++ added }

@[simp] theorem text_append (w : HeaderWriter) (added : String) :
    (w.append added).text = w.text ++ added := rfl

@[simp] theorem settings_append (w : HeaderWriter) (added : String) :
    (w.append added).settings = w.settings := rfl

theorem append_empty (w : HeaderWriter) : w.append "" = w := by
  simp [append]

theorem append_append (w : HeaderWriter) (a b : String) :
    (w.append a).append b = w.append (a ++ b) := by
  simp [append, String.append_assoc]

theorem line_eq (w : HeaderWriter) (content : String) :
    w.line content = w.append (content ++ "\n") := by
  simp [line, append, String.append_assoc]

/-- Steps that each put a text behind what has been written put these texts there one after the
other. A text may depend on the settings, which stay, but not on what has been written. -/
theorem foldl_eq_append {α : Type} {step : HeaderWriter → α → HeaderWriter}
    (added : Settings → α → String)
    (h : ∀ w item, step w item = w.append (added w.settings item)) (w : HeaderWriter)
    (items : List α) :
    items.foldl step w = w.append (String.join (items.map (added w.settings))) := by
  induction items generalizing w with
  | nil => exact (append_empty w).symm
  | cons item rest ih =>
    rw [List.foldl_cons, ih, h, settings_append, append_append, ← String.join_cons, List.map_cons]

theorem add_eq_lines (w : HeaderWriter) (schema : Schema) :
    w.add schema =
      w.append (String.join ((Header.lines w.settings schema).map (· ++ "\n"))) :=
  foldl_eq_append (fun _ => (· ++ "\n")) line_eq w (Header.lines w.settings schema)

theorem header_eq (schema : Schema) (settings : Settings) :
    schema.header settings = String.join ((Header.lines settings schema).map (· ++ "\n")) := by
  rw [Schema.header, add_eq_lines, text_append]
  simp [start]

/-- What a schema adds is the header that it has alone. -/
theorem add_eq (w : HeaderWriter) (schema : Schema) :
    w.add schema = w.append (schema.header w.settings) := by
  rw [add_eq_lines, header_eq]

/-! ## Runs -/

/-- The writer with the headers of these schemas added, in order. -/
def addAll (w : HeaderWriter) (schemas : List Schema) : HeaderWriter :=
  schemas.foldl add w

theorem addAll_eq (w : HeaderWriter) (schemas : List Schema) :
    w.addAll schemas =
      w.append (String.join (schemas.map fun schema => schema.header w.settings)) :=
  foldl_eq_append (fun settings schema => Schema.header schema settings) add_eq w schemas

theorem text_addAll_start (settings : Settings) (schemas : List Schema) :
    ((start settings).addAll schemas).text =
      String.join (schemas.map fun schema => schema.header settings) := by
  rw [addAll_eq, text_append]
  simp [start]

theorem utf8ByteSize_join (texts : List String) :
    (String.join texts).utf8ByteSize = (texts.map String.utf8ByteSize).sum := by
  induction texts with
  | nil => rfl
  | cons first rest ih =>
    rw [String.join_cons, String.utf8ByteSize_append, ih, List.map_cons, List.sum_cons]

/-- The text of a run over these schemas consists of the headers that they have alone. -/
structure Concatenates (settings : Settings) (schemas : List Schema) : Prop where
  text_eq : ((start settings).addAll schemas).text =
    String.join (schemas.map fun schema => schema.header settings)
  /-- Behind each number of headers, the text is as long in bytes as these are together. -/
  size_take : ∀ k, ((start settings).addAll (schemas.take k)).text.utf8ByteSize =
    ((schemas.take k).map fun schema => (schema.header settings).utf8ByteSize).sum
  /-- What has been written for the first `k` of them stays, and the headers of the others, which do
  not depend on it, follow. -/
  text_eq_take : ∀ k, ((start settings).addAll schemas).text =
    ((start settings).addAll (schemas.take k)).text ++
      String.join ((schemas.drop k).map fun schema => schema.header settings)

theorem concatenates (settings : Settings) (schemas : List Schema) :
    Concatenates settings schemas := by
  refine ⟨text_addAll_start settings schemas, fun k => ?_, fun k => ?_⟩
  · rw [text_addAll_start, utf8ByteSize_join, List.map_map, Function.comp_def]
  · rw [text_addAll_start, text_addAll_start, ← String.join_append, ← List.map_append,
      List.take_append_drop]

end NodeSchema.HeaderWriter
