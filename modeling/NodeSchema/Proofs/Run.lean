import NodeSchema.Proofs.Delivery
import NodeSchema.Proofs.Preparation

/-!
# All or nothing

A run of the generator that cannot prepare its schema says why and changes nothing. A run that
can writes one text, the product of its command (`Command.IsProduct`), to the standard output
or to the file that it is given.

`run_all_or_nothing` puts the two together : what hinders a run leaves the file tree as it was,
and otherwise no more than the output is written.
-/

namespace NodeSchema

/-- The text of a schema in a file. -/
theorem InputOptions.content_of_entryAt {options : InputOptions} {around : Surroundings}
    {place : List String} {text : String} (hinput : options.input ≠ "-")
    (h : around.tree.entryAt options.input = .ok (place, .file text.toUTF8)) :
    options.content around = .ok text := by
  rw [InputOptions.content, if_neg hinput]
  exact FileTree.readText_of_entryAt h

namespace Command

/-- The text that a command gives for a schema : the header, the JSON text, or for `check` the
line with the number of nodes. -/
inductive IsProduct (coloured : Bool) (settings : Settings) (nodes : Schema) :
    Command → String → Prop
  | cpp (options : HeaderOptions) :
      IsProduct coloured settings nodes (cpp options) (nodes.header settings)
  | schema (source : InputOptions) (out : Option String) :
      IsProduct coloured settings nodes (schema source out) (nodes.toJson.pretty ++ "\n")
  | check (source : InputOptions) :
      IsProduct coloured settings nodes (check source)
        (paint coloured "1;32" "ok:" ++ " " ++ source.label ++ " (" ++ toString nodes.size
          ++ " node types)\n")

theorem isProduct_product (command : Command) (coloured : Bool) (settings : Settings)
    (nodes : Schema) :
    command.IsProduct coloured settings nodes (command.product coloured settings nodes) := by
  cases command <;> constructor

end Command

namespace Invocation

variable {invocation : Invocation} {around : Surroundings}

/-! ## The ways a run ends -/

section Ends

variable (hreal : invocation.command.isDryRun = false)
include hreal

/-- Without a schema, the run says why and changes nothing. -/
theorem run_of_prepare_error {error : GeneratorError}
    (h : invocation.command.prepare around = .error error) :
    invocation.run around = ⟨1, "", error.line around.coloured, around.tree⟩ := by
  simp [run, hreal, h]

/-- What hinders a run makes it fail, and nothing is written. -/
theorem run_of_hindered (h : invocation.command.Hindered around) :
    (invocation.run around).exit = 1 ∧ (invocation.run around).stdout = "" ∧
      (invocation.run around).tree = around.tree := by
  obtain ⟨error, herror⟩ := Command.exists_prepare_eq_error_iff.mpr h
  rw [run_of_prepare_error hreal herror]
  exact ⟨rfl, rfl, rfl⟩

variable {settings : Settings} {schema : Schema}
  (h : invocation.command.prepare around = .ok (settings, schema))
include h

/-- Without a file to write, the product is the standard output. -/
theorem run_without_file (hout : invocation.command.out? = none) :
    invocation.run around =
      ⟨0, invocation.command.product around.coloured settings schema,
        invocation.readNote around.coloured schema, around.tree⟩ := by
  simp [run, hreal, h, hout]

/-- With a file to write, the run ends as the delivery of the product does. -/
theorem run_to_file {path : String} (hout : invocation.command.out? = some path) :
    invocation.run around =
      match around.tree.deliver path
        (invocation.command.product around.coloured settings schema) with
      | (after, .error error) =>
        ⟨1, "", invocation.readNote around.coloured schema ++ error.line around.coloured, after⟩
      | (after, .ok ()) =>
        ⟨0, "", invocation.readNote around.coloured schema
          ++ invocation.writeNote around.coloured path, after⟩ := by
  simp only [run, hreal, h, hout]
  rfl

/-- A product that can be delivered is delivered. -/
theorem run_with_file {path : String} (hout : invocation.command.out? = some path)
    {after : FileTree} (hafter : around.tree.deliver path
      (invocation.command.product around.coloured settings schema) = (after, .ok ())) :
    invocation.run around =
      ⟨0, "", invocation.readNote around.coloured schema
        ++ invocation.writeNote around.coloured path, after⟩ := by
  rw [run_to_file hreal h hout, hafter]

end Ends

end Invocation

theorem Generator.run_of_read {arguments : List String} {invocation : Invocation}
    (h : Invocation.read arguments = .ok invocation) (around : Surroundings) :
    Generator.run arguments around = invocation.run around := by
  rw [Generator.run, h]

/-! ## All or nothing -/

/-- A run that is hindered fails, writes nothing and leaves the file tree as it was. Any other
run has a schema and its product : it is the standard output, or, if it can be delivered, the
content of the file to write, and then nothing else in the tree has changed but for the
directories above that file. -/
theorem run_all_or_nothing {arguments : List String} {invocation : Invocation}
    (hread : Invocation.read arguments = .ok invocation)
    (hreal : invocation.command.isDryRun = false) (around : Surroundings) :
    (invocation.command.Hindered around →
      (Generator.run arguments around).exit = 1 ∧ (Generator.run arguments around).stdout = "" ∧
        (Generator.run arguments around).tree = around.tree) ∧
    (¬invocation.command.Hindered around → ∃ settings schema product,
      invocation.command.Reads around settings schema ∧
      invocation.command.IsProduct around.coloured settings schema product ∧
      (invocation.command.out? = none →
        (Generator.run arguments around).exit = 0 ∧
          (Generator.run arguments around).stdout = product ∧
          (Generator.run arguments around).tree = around.tree) ∧
      ∀ path, invocation.command.out? = some path → around.tree.CanDeliver path product →
        (Generator.run arguments around).exit = 0 ∧
          (Generator.run arguments around).stdout = "" ∧
          around.tree.Delivered path product (Generator.run arguments around).tree) := by
  rw [Generator.run_of_read hread]
  refine ⟨Invocation.run_of_hindered hreal, fun h => ?_⟩
  cases hprepare : invocation.command.prepare around with
  | error error => exact absurd (Command.exists_prepare_eq_error_iff.mp ⟨error, hprepare⟩) h
  | ok prepared =>
    obtain ⟨settings, schema⟩ := prepared
    refine ⟨settings, schema, _, Command.prepare_eq_ok_iff.mp hprepare,
      Command.isProduct_product _ _ _ _, fun hout => ?_, fun path hout hdeliver => ?_⟩
    · rw [Invocation.run_without_file hreal hprepare hout]
      exact ⟨rfl, rfl, rfl⟩
    · obtain ⟨after, hafter, hdelivered⟩ := FileTree.delivered_of_canDeliver hdeliver
      rw [Invocation.run_with_file hreal hprepare hout hafter]
      exact ⟨rfl, rfl, hdelivered⟩

/-- A run that finds a node twice leaves the old result in its place, and one that finds it once
makes the directory of its result. -/
theorem run_all_or_nothing_in_one_tree :
    ∃ (around : Surroundings) (failing writing : Invocation) (product : String),
      Invocation.read ["schema", "-i", "twice", "-oold"] = .ok failing ∧
      Invocation.read ["schema", "-i", "once", "-onew/result"] = .ok writing ∧
      failing.command.isDryRun = false ∧ writing.command.isDryRun = false ∧
      failing.command.Hindered around ∧ ¬writing.command.Hindered around ∧
      around.tree.CanDeliver "new/result" product ∧
      (Generator.run ["schema", "-i", "twice", "-oold"] around).exit = 1 ∧
      (Generator.run ["schema", "-i", "twice", "-oold"] around).tree = around.tree ∧
      (Generator.run ["schema", "-i", "once", "-onew/result"] around).exit = 0 ∧
      around.tree.Delivered "new/result" product
        (Generator.run ["schema", "-i", "once", "-onew/result"] around).tree := by
  let around : Surroundings :=
    { stdin := ByteArray.empty
      coloured := false
      tree :=
        { entries :=
            [(["here"], .directory), (["here", "once"], .file "leaf".toUTF8),
             (["here", "twice"], .file "leaf\nleaf".toUTF8), (["here", "old"], .file "kept".toUTF8)]
          here := ["here"] } }
  let options (input : String) : InputOptions := ⟨input, none, none, none, none⟩
  have hfailing : Invocation.read ["schema", "-i", "twice", "-oold"] =
      .ok ⟨false, .schema (options "twice") (some "old")⟩ := by decide
  have hwriting : Invocation.read ["schema", "-i", "once", "-onew/result"] =
      .ok ⟨false, .schema (options "once") (some "new/result")⟩ := by decide
  have htwiceEntry : around.tree.entryAt "twice" =
    .ok (["here", "twice"], .file "leaf\nleaf".toUTF8) := rfl
  have honceEntry : around.tree.entryAt "once" = .ok (["here", "once"], .file "leaf".toUTF8) := rfl
  have htwice : (options "twice").content around = .ok "leaf\nleaf" :=
    InputOptions.content_of_entryAt (by decide) htwiceEntry
  have honce : (options "once").content around = .ok "leaf" :=
    InputOptions.content_of_entryAt (by decide) honceEntry
  have hhindered : (Command.schema (options "twice") (some "old")).Hindered around :=
    .faultySchema (.standard rfl) (by constructor <;> rfl) htwice
      (show Schema.read .standard "leaf\nleaf" = .error ⟨2, "leaf", .duplicateNode "leaf" 1⟩ by
        decide)
  have hreads : (Command.schema (options "once") (some "new/result")).Reads around .standard
      ⟨[("leaf", ⟨"leaf", [], 1⟩)]⟩ :=
    ⟨⟨⟨_, .standard rfl, by constructor <;> rfl⟩, by decide⟩, "leaf", honce, by decide⟩
  have hready : ¬(Command.schema (options "once") (some "new/result")).Hindered around :=
    fun h => h.not_reads hreads
  obtain ⟨hexit, -, htree⟩ := (run_all_or_nothing hfailing rfl around).1 hhindered
  obtain ⟨settings, schema, product, hother, hproduct, -, hfile⟩ :=
    (run_all_or_nothing hwriting rfl around).2 hready
  obtain ⟨rfl, rfl⟩ := hreads.unique hother
  cases hproduct
  have hdeliver : around.tree.CanDeliver "new/result"
    ((Schema.mk [("leaf", ⟨"leaf", [], 1⟩)]).toJson.pretty ++ "\n") := ⟨_, _, rfl, rfl⟩
  obtain ⟨hzero, -, hdelivered⟩ := hfile "new/result" rfl hdeliver
  exact ⟨around, _, _, _, hfailing, hwriting, rfl, rfl, hhindered, hready, hdeliver, hexit, htree,
    hzero, hdelivered⟩

end NodeSchema
