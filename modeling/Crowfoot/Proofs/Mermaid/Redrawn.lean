import Crowfoot.Proofs.Mermaid.Connections
import Crowfoot.Proofs.Mermaid.Diagram

/-!
# Diagrams read again

The lines of a written schema are read one by one.  A block adds its table with
one column per attribute line, as no name comes twice, and a relationship line
adds nothing but itself, as both its entities are there.
-/

namespace Crowfoot.Mermaid

/-- The column of an attribute has its name and its marks. -/
theorem toColumn_marks (entry : Attribute) :
    entry.toColumn.name = entry.name ∧ entry.toColumn.isPrimaryKey = entry.isPrimaryKey ∧
      entry.toColumn.isForeignKey = entry.isForeignKey := by
  unfold Attribute.toColumn
  simp only
  split
  · rename_i hkey
    exact ⟨rfl, hkey.symm, rfl⟩
  · rename_i hkey
    exact ⟨rfl, ((Bool.not_eq_true _).mp hkey).symm, rfl⟩

/-- The column that the attribute line of a column describes. -/
def drawnColumn (column : Column) : Column :=
  (drawnAttribute column).toColumn

@[simp] theorem drawnColumn_name (column : Column) : (drawnColumn column).name = column.name :=
  (toColumn_marks (drawnAttribute column)).1

@[simp] theorem drawnColumn_isPrimaryKey (column : Column) :
    (drawnColumn column).isPrimaryKey = column.isPrimaryKey :=
  (toColumn_marks (drawnAttribute column)).2.1

@[simp] theorem drawnColumn_isForeignKey (column : Column) :
    (drawnColumn column).isForeignKey = column.isForeignKey :=
  (toColumn_marks (drawnAttribute column)).2.2

@[simp] theorem drawnColumn_references (column : Column) :
    (drawnColumn column).references = none :=
  (toColumn_isAttributeColumn (drawnAttribute column)).unreferenced

/-- The table that the block of a table describes. -/
def drawnTable (table : Table) : Table where
  name := table.name
  columns := table.columns.map drawnColumn

/-! ## Blocks -/

/-- The diagram has no entity of the name. -/
def Diagram.LacksTable (diagram : Diagram) (name : String) : Prop :=
  ∀ table ∈ diagram.tables, table.name ≠ name

/-- The diagram with one more table at the end. -/
def Diagram.withTable (diagram : Diagram) (table : Table) : Diagram :=
  { diagram with tables := diagram.tables ++ [table] }

section Blocks

variable {diagram : Diagram} {name : String}

theorem Diagram.LacksTable.ensureTable (hlacks : diagram.LacksTable name) :
    diagram.ensureTable name = diagram.withTable { name } := by
  have hnone : ¬ diagram.tables.any (·.name == name) = true := by
    simpa [Diagram.LacksTable] using hlacks
  rw [Diagram.ensureTable, if_neg hnone, Diagram.withTable]

theorem modifyFirst_append {α : Type} {test : α → Bool} {change : α → α} {left : List α}
    (hleft : ∀ element ∈ left, test element = false) (right : List α) :
    modifyFirst test change (left ++ right) = left ++ modifyFirst test change right := by
  induction left with
  | nil => rfl
  | cons first rest ih =>
    obtain ⟨hfirst, hrest⟩ := List.forall_mem_cons.1 hleft
    rw [List.cons_append, modifyFirst, hfirst, if_neg Bool.false_ne_true, ih hrest,
      List.cons_append]

/-- An attribute is added to the entity at the end. -/
theorem Diagram.LacksTable.addAttribute (hlacks : diagram.LacksTable name) (columns : List Column)
    {text : List Char} {entry : Attribute} (hread : readAttribute? text = some entry) :
    (diagram.withTable { name, columns }).addAttribute name text =
      diagram.withTable (({ name, columns } : Table).upsertColumn entry.toColumn) := by
  have hothers : ∀ table ∈ diagram.tables, (table.name == name) = false := by
    simpa [Diagram.LacksTable] using hlacks
  rw [Diagram.addAttribute, hread, Diagram.withTable, Diagram.withTable]
  simp only [modifyFirst_append hothers]
  simp [modifyFirst]

/-- The line of a name and a brace opens the block of an entity. -/
theorem step_nameLine (hname : isEntityName name.toList = true) :
    Scan.step ⟨diagram, none⟩ (name.toList ++ " \x7b".toList) =
      ⟨diagram.ensureTable name, some name⟩ := by
  rw [Scan.step]
  simp only [readRelationship?_nameLine hname, readBlockStart?_nameLine hname]
  rfl

theorem step_blockEnd (diagram : Diagram) (name : String) :
    Scan.step ⟨diagram, some name⟩ "\x7d".toList = ⟨diagram, none⟩ := rfl

/-- An attribute line adds its column to the entity whose block is open. -/
theorem IsDrawableColumn.step_attributeLine {column : Column} (hcolumn : IsDrawableColumn column)
    (hlacks : diagram.LacksTable name) (columns : List Column) (typeWidth nameWidth : Nat) :
    Scan.step ⟨diagram.withTable { name, columns }, some name⟩
        (attributeLine typeWidth nameWidth column) =
      ⟨diagram.withTable (({ name, columns } : Table).upsertColumn (drawnColumn column)),
        some name⟩ := by
  have hread := hcolumn.readAttribute?_attributeLine typeWidth nameWidth
  rw [Scan.step]
  simp only [Scan.inBlock, cutClosingBrace_attributeLine, hlacks.addAttribute columns hread]
  rfl

/-- The attribute lines of a block add their columns one behind the other. -/
theorem foldl_step_attributeLines (hlacks : diagram.LacksTable name) (done : List Column)
    {columns : List Column} (hcolumns : ∀ column ∈ columns, IsDrawableColumn column)
    (hdistinct : DistinctNames ((done ++ columns).map Column.name)) (typeWidth nameWidth : Nat) :
    (columns.map (attributeLine typeWidth nameWidth)).foldl Scan.step
        ⟨diagram.withTable { name, columns := done.map drawnColumn }, some name⟩ =
      ⟨diagram.withTable { name, columns := (done ++ columns).map drawnColumn }, some name⟩ := by
  induction columns generalizing done with
  | nil => rw [List.append_nil, List.map_nil, List.foldl_nil]
  | cons column rest ih =>
    obtain ⟨hcolumn, hrest⟩ := List.forall_mem_cons.1 hcolumns
    have hshift : done ++ column :: rest = (done ++ [column]) ++ rest := by simp
    rw [hshift] at hdistinct ⊢
    have hfirst : DistinctNames ((done.map drawnColumn ++ [drawnColumn column]).map
        Column.name) := by
      rw [List.map_append] at hdistinct
      simpa [DistinctNames, Function.comp_def] using (List.pairwise_append.1 hdistinct).1
    have hput : ({ name, columns := done.map drawnColumn } : Table).upsertColumn
        (drawnColumn column) = { name, columns := (done ++ [column]).map drawnColumn } := by
      rw [Table.upsertColumn, putFirst_of_distinctNames Column.name (drawnColumn column) hfirst,
        List.map_append, List.map_singleton]
    rw [List.map_cons, List.foldl_cons, hcolumn.step_attributeLine hlacks, hput]
    exact ih (done ++ [column]) hrest hdistinct

/-- The lines of a block add its table. -/
theorem IsDrawableTable.foldl_step_blockLines {table : Table} (htable : IsDrawableTable table)
    (hlacks : diagram.LacksTable table.name) :
    (blockLines table).foldl Scan.step ⟨diagram, none⟩ =
      ⟨diagram.withTable (drawnTable table), none⟩ := by
  have hopened : Scan.step ⟨diagram, none⟩ (table.name.toList ++ " \x7b".toList) =
      ⟨diagram.withTable { name := table.name }, some table.name⟩ := by
    rw [step_nameLine (isEntityName_of_entityName htable.name), hlacks.ensureTable]
  have hcolumns := foldl_step_attributeLines hlacks [] htable.columns htable.distinct
  rw [List.map_nil, List.nil_append] at hcolumns
  rw [blockLines, List.foldl_append]
  simp only [List.foldl_cons, List.foldl_nil]
  rw [hopened, hcolumns, step_blockEnd, drawnTable]

end Blocks

/-- The blocks of a schema add its tables one behind the other. -/
theorem foldl_step_blocks {tables : List Table} (htables : ∀ table ∈ tables, IsDrawableTable table)
    (done : List Table) (hdistinct : ((done ++ tables).map Table.name).Nodup) :
    (tables.flatMap blockLines).foldl Scan.step ⟨{ tables := done.map drawnTable }, none⟩ =
      ⟨{ tables := (done ++ tables).map drawnTable }, none⟩ := by
  induction tables generalizing done with
  | nil => rw [List.append_nil, List.flatMap_nil, List.foldl_nil]
  | cons table rest ih =>
    obtain ⟨htable, hrest⟩ := List.forall_mem_cons.1 htables
    have hshift : done ++ table :: rest = (done ++ [table]) ++ rest := by simp
    have hlacks : Diagram.LacksTable { tables := done.map drawnTable } table.name := by
      rw [List.map_append, List.map_cons] at hdistinct
      have hapart := (List.nodup_append.1 hdistinct).2.2
      simp only [Diagram.LacksTable, List.forall_mem_map]
      intro other hother
      exact hapart other.name (List.mem_map_of_mem hother) table.name List.mem_cons_self
    rw [hshift] at hdistinct ⊢
    rw [List.flatMap_cons, List.foldl_append, htable.foldl_step_blockLines hlacks,
      ← ih hrest (done ++ [table]) hdistinct, Diagram.withTable, List.map_append,
      List.map_singleton]

/-! ## Relationships -/

theorem ensureTable_of_mem {diagram : Diagram} {name : String}
    (hmem : name ∈ diagram.tables.map Table.name) : diagram.ensureTable name = diagram := by
  have hsome : diagram.tables.any (·.name == name) = true := by simpa using hmem
  rw [Diagram.ensureTable, if_pos hsome]

theorem HeldKey.drawn_sides (key : HeldKey) :
    (key.drawn.left = key.table.name ∧ key.drawn.right = key.reference.table) ∨
      (key.drawn.left = key.reference.table ∧ key.drawn.right = key.table.name) := by
  rw [HeldKey.drawn]
  split
  · exact Or.inr ⟨rfl, rfl⟩
  · split
    · exact Or.inr ⟨rfl, rfl⟩
    · exact Or.inl ⟨rfl, rfl⟩

/-- Relationship lines between entities that are there add nothing else. -/
theorem foldl_step_relationships {names : List String} {keys : List HeldKey}
    (hkeys : ∀ key ∈ keys, key.table.name ∈ names ∧ key.reference.table ∈ names)
    {lines : List (List Char)}
    (hlines : List.Forall₂ (fun (key : HeldKey) line => readRelationship? line = some key.drawn)
      keys lines) (diagram : Diagram) (hnames : diagram.tables.map Table.name = names) :
    lines.foldl Scan.step ⟨diagram, none⟩ =
      ⟨{ diagram with relationships := diagram.relationships ++ keys.map HeldKey.drawn }, none⟩ := by
  induction hlines generalizing diagram with
  | nil => simp
  | @cons key line keys lines hread hlines ih =>
    obtain ⟨⟨hchild, hparent⟩, hrest⟩ := List.forall_mem_cons.1 hkeys
    rw [← hnames] at hchild hparent
    have hboth : key.drawn.left ∈ diagram.tables.map Table.name ∧
        key.drawn.right ∈ diagram.tables.map Table.name := by
      rcases key.drawn_sides with ⟨hleft, hright⟩ | ⟨hleft, hright⟩
      · exact ⟨hleft ▸ hchild, hright ▸ hparent⟩
      · exact ⟨hleft ▸ hparent, hright ▸ hchild⟩
    have hadd : diagram.addRelationship key.drawn =
        { diagram with relationships := diagram.relationships ++ [key.drawn] } := by
      rw [Diagram.addRelationship, ensureTable_of_mem hboth.1, ensureTable_of_mem hboth.2]
    rw [List.foldl_cons, Scan.step]
    simp only [hread, hadd]
    refine (ih hrest ⟨diagram.tables, diagram.relationships ++ [key.drawn]⟩ hnames).trans ?_
    simp

/-- A written schema is read as its tables without their linking columns, the
foreign keys still being lines. -/
theorem AreListable.ofText?_schemaText {schema : Schema} (hlistable : AreListable schema.tables) :
    Diagram.ofText? (schemaText schema).toList =
      some ⟨(schema.tables.map listedTable).map drawnTable,
        (heldKeys schema.tables).map HeldKey.drawn⟩ := by
  obtain ⟨lines, htexts, hlines⟩ := hlistable.exists_lines
  have hkeys : ∀ key ∈ heldKeys schema.tables, key.table.name ∈ schema.tables.map Table.name ∧
      key.reference.table ∈ schema.tables.map Table.name := by
    intro key hkey
    obtain ⟨htable, hcolumn, hreference⟩ := mem_heldKeys.1 hkey
    obtain ⟨target, htarget, hparent⟩ :=
      hlistable.references key.table htable key.column hcolumn key.reference hreference
    exact ⟨List.mem_map_of_mem htable, hparent ▸ List.mem_map_of_mem htarget⟩
  have hlistedNames : (schema.tables.map listedTable).map Table.name =
      schema.tables.map Table.name := by
    rw [List.map_map]
    rfl
  have hnames : ((schema.tables.map listedTable).map drawnTable).map Table.name =
      schema.tables.map Table.name := by
    rw [List.map_map, ← hlistedNames]
    rfl
  have heach : ∀ table ∈ schema.tables.map listedTable, IsDrawableTable table :=
    List.forall_mem_map.2 hlistable.each
  have hblocks := foldl_step_blocks heach [] (hlistedNames ▸ hlistable.distinct)
  have hrelationships := foldl_step_relationships hkeys hlines
    { tables := (schema.tables.map listedTable).map drawnTable } hnames
  rw [← map_text_ofText] at htexts
  obtain ⟨first, rest, hall, hfirst, hrest⟩ := List.map_eq_cons_iff.1 htexts
  have hscan : rest.foldl (fun scan line => scan.step line.text) ({} : Scan) =
      (rest.map Line.text).foldl Scan.step {} := (List.foldl_map).symm
  rw [List.map_nil, List.nil_append] at hblocks
  rw [Diagram.ofText?, hall]
  simp only
  rw [hfirst, if_pos (by decide), hscan, hrest, List.foldl_append, hblocks, hrelationships,
    List.nil_append]

/-- A written schema without linking columns is read as its tables. -/
theorem AreDrawable.ofText?_schemaText {schema : Schema} (hdrawable : AreDrawable schema.tables) :
    Diagram.ofText? (schemaText schema).toList =
      some ⟨schema.tables.map drawnTable, (heldKeys schema.tables).map HeldKey.drawn⟩ := by
  have hlisted : schema.tables.map listedTable = schema.tables := by
    rw [List.map_congr_left, List.map_id]
    exact fun table htable => hdrawable.listedTable_eq htable
  rw [hdrawable.areListable.ofText?_schemaText, hlisted]

end Crowfoot.Mermaid
