import Crowfoot.Proofs.Document.Reading
import Crowfoot.Proofs.Layout.Coherence

/-!
# References as edges

A schema that is read has exactly one table of the name that a reference gives.  The
graph looks for it up to ASCII case and takes the first it meets, so that the edge of
the reference leads to that very table unless one of the same name in other letters
comes earlier.  In a script there is none; a diagram may tell entities apart by case.
-/

namespace Crowfoot

namespace Schema

/-- The table at the place and no other has exactly the name. -/
def IsOnly (schema : Schema) (name : String) (place : Nat) : Prop :=
  ∀ other, (schema.tables.map Table.name)[other]? = some name ↔ other = place

/-- The table at the place is the first that has the name up to ASCII case. -/
def IsFirst (schema : Schema) (name : String) (place : Nat) : Prop :=
  (∃ table, schema.tables[place]? = some table ∧ Text.sameName table.name name = true) ∧
    ∀ earlier < place, ∀ table, schema.tables[earlier]? = some table →
      Text.sameName table.name name = false

theorem isFirst_iff {schema : Schema} {name : String} {place : Nat} :
    schema.IsFirst name place ↔ schema.tableIndex? name = some place := by
  rw [tableIndex?, List.findIdx?_eq_some_iff_getElem]
  constructor
  · rintro ⟨⟨table, htable, hsame⟩, hearlier⟩
    obtain ⟨hplace, rfl⟩ := List.getElem?_eq_some_iff.1 htable
    refine ⟨hplace, hsame, fun earlier hlt => ?_⟩
    have hbound := Nat.lt_trans hlt hplace
    rw [hearlier earlier hlt _ (List.getElem?_eq_getElem hbound)]
    exact Bool.false_ne_true
  · rintro ⟨hplace, hsame, hearlier⟩
    refine ⟨⟨_, List.getElem?_eq_getElem hplace, hsame⟩, fun earlier hlt table htable => ?_⟩
    obtain ⟨hbound, rfl⟩ := List.getElem?_eq_some_iff.1 htable
    simpa using hearlier earlier hlt

/-- A table of the name is met, and the first is not behind any other. -/
theorem exists_isFirst {schema : Schema} {name : String} {place : Nat} {table : Table}
    (htable : schema.tables[place]? = some table) (hsame : Text.sameName table.name name = true) :
    ∃ first ≤ place, schema.IsFirst name first := by
  have hsome : ¬ schema.tableIndex? name = none := by
    rw [tableIndex?, List.findIdx?_eq_none_iff]
    intro hnone
    rw [hnone table (List.mem_of_getElem? htable)] at hsame
    exact Bool.false_ne_true hsame
  obtain ⟨first, hfirst⟩ := Option.ne_none_iff_exists'.1 hsome
  have hisFirst := isFirst_iff.2 hfirst
  refine ⟨first, Nat.le_of_not_lt fun hlt => ?_, hisFirst⟩
  rw [hisFirst.2 place hlt table htable] at hsame
  exact Bool.false_ne_true hsame

/-- Where the names of tables are distinct, a name is that of one table only. -/
theorem exists_isOnly {schema : Schema} (hdistinct : (schema.tables.map Table.name).Nodup)
    {target : Table} (htarget : target ∈ schema.tables) :
    ∃ parent, schema.tables[parent]? = some target ∧ schema.IsOnly target.name parent := by
  obtain ⟨parent, hparent⟩ := List.mem_iff_getElem?.1 htarget
  have hname : (schema.tables.map Table.name)[parent]? = some target.name := by
    rw [List.getElem?_map, hparent, Option.map_some]
  refine ⟨parent, hparent, fun other => ⟨fun hother => ?_, fun heq => heq ▸ hname⟩⟩
  exact (List.getElem?_inj (List.getElem?_eq_some_iff.1 hother).1 hdistinct).1
    (hother.trans hname.symm)

/-- Where no two names agree up to case, a table of exactly the name is the first. -/
theorem isFirst_of_distinctNames {schema : Schema}
    (hdistinct : DistinctNames (schema.tables.map Table.name)) {place : Nat} {table : Table}
    (htable : schema.tables[place]? = some table) : schema.IsFirst table.name place := by
  refine ⟨⟨table, htable, Text.sameName_refl _⟩, fun earlier hlt other hother => ?_⟩
  obtain ⟨hplace, rfl⟩ := List.getElem?_eq_some_iff.1 htable
  obtain ⟨hearlier, rfl⟩ := List.getElem?_eq_some_iff.1 hother
  exact List.pairwise_iff_getElem.1 (List.pairwise_map.1 hdistinct) earlier place hearlier hplace hlt

/-- A reference is an edge to the first table of its name, if that is another one. -/
theorem hasEdge_of_isFirst {schema : Schema} {child first : Nat} {table : Table} {column : Column}
    {reference : ColumnReference} (htable : schema.tables[child]? = some table)
    (hcolumn : column ∈ table.columns) (hreference : column.references = some reference)
    (hfirst : schema.IsFirst reference.table first) (hother : first ≠ child) :
    schema.graph.HasEdge ⟨child, first⟩ := by
  rw [schema.isCoherent_graph.hasEdge_iff, edges_graph, mem_referenceEdges]
  exact ⟨table, htable, column, hcolumn, reference, hreference, isFirst_iff.1 hfirst, hother⟩

end Schema

namespace Document

variable {config : CategoryConfig} {format : Format} {text : String} {schema : Schema}

/-- Tables that are read have different names, in a script even up to case, and their
references name them. -/
theorem names_of_readAs? (hread : readAs? config format text = some schema) :
    (schema.tables.map Table.name).Nodup ∧
      (format = .sql → DistinctNames (schema.tables.map Table.name)) ∧
        ∀ table ∈ schema.tables, ∀ column ∈ table.columns, ∀ reference ∈ column.references,
          ∃ target ∈ schema.tables, target.name = reference.table := by
  cases format with
  | sql =>
    have hdeclared : ∀ statement ∈ Sql.Statement.ofScript text.toList, statement.IsDeclared :=
      Sql.ofScript_isDeclared
    have hformed := (Sql.schemaTables_wellFormed hdeclared).assign config
    have hresolved := (Sql.schemaTables_resolved hdeclared).assign config
    rw [← Sql.readSchema?_tables hread] at hformed hresolved
    have hdistinct : DistinctNames (schema.tables.map Table.name) :=
      List.pairwise_map.2 hformed.distinctTables
    refine ⟨hdistinct.imp fun hdiffer heq => ?_, fun _ => hdistinct, ?_⟩
    · rw [heq, Text.sameName_refl] at hdiffer
      exact Bool.noConfusion hdiffer
    · intro table htable column hcolumn reference hreference
      obtain ⟨target, htarget, hname, -⟩ := hresolved table htable column hcolumn reference hreference
      exact ⟨target, htarget, hname⟩
  | mermaid =>
    obtain ⟨diagram, hdiagram, rfl⟩ := Option.map_eq_some_iff.1 hread
    have hplaced := (Mermaid.resolve_wellPlaced (Mermaid.ofText?_isScanned hdiagram)).assign config
    refine ⟨List.pairwise_map.2 hplaced.distinctTables, nofun, ?_⟩
    intro table htable column hcolumn reference hreference
    obtain ⟨target, htarget, hname, -⟩ :=
      hplaced.references table htable column hcolumn reference hreference
    exact ⟨target, htarget, hname⟩

/-- A reference to another table is an edge to the first table of its name up to case,
if that is not the referring one.  The first is the table of exactly the name unless
an earlier one has the name in other letters, which happens in diagrams only. -/
theorem hasEdge_of_reference (hread : readAs? config format text = some schema) {child : Nat}
    {table : Table} (htable : schema.tables[child]? = some table) {column : Column}
    (hcolumn : column ∈ table.columns) {reference : ColumnReference}
    (hreference : column.references = some reference) (hother : reference.table ≠ table.name) :
    ∃ parent, schema.IsOnly reference.table parent ∧
      (schema.IsFirst reference.table parent → schema.graph.HasEdge ⟨child, parent⟩) ∧
      (format = .sql → schema.IsFirst reference.table parent) ∧
      ∃ first ≤ parent, schema.IsFirst reference.table first ∧
        (first ≠ child → schema.graph.HasEdge ⟨child, first⟩) := by
  obtain ⟨hdistinct, hscript, htargets⟩ := names_of_readAs? hread
  obtain ⟨target, htarget, hname⟩ :=
    htargets table (List.mem_of_getElem? htable) column hcolumn reference hreference
  obtain ⟨parent, hparent, honly⟩ := Schema.exists_isOnly hdistinct htarget
  have hedge {first : Nat} (hfirst : schema.IsFirst reference.table first) (hne : first ≠ child) :=
    Schema.hasEdge_of_isFirst htable hcolumn hreference hfirst hne
  have hne : parent ≠ child := by
    rintro rfl
    obtain rfl := Option.some.inj (hparent.symm.trans htable)
    exact hother hname.symm
  have hsame : Text.sameName target.name reference.table = true := by
    rw [hname, Text.sameName_refl]
  obtain ⟨first, hle, hfirst⟩ := Schema.exists_isFirst hparent hsame
  refine ⟨parent, hname ▸ honly, fun hfirst => hedge hfirst hne, fun hsql => ?_,
    first, hle, hfirst, hedge hfirst⟩
  rw [← hname]
  exact Schema.isFirst_of_distinctNames (hscript hsql) hparent

/-- Entities of one name in other letters, the later of which is referred to. -/
def twinDiagram : String :=
  "erDiagram\nUSER \x7b int id PK \x7d\nACCOUNT \x7b int id PK \x7d\nuser \x7b int id PK \x7d\n" ++
    "POST \x7b int id PK \x7d\nACCOUNT ||--o\x7b user : account\nuser ||--o\x7b POST : author\n"

/-- The post of the diagram refers to `user` by its exact name; the edges of the graph
are `user` to `ACCOUNT` and the post to `USER`. -/
theorem exists_twinDiagram :
    ∃ schema table column reference,
      readAs? .standard .mermaid twinDiagram = some schema ∧
      schema.graph.edges = [⟨2, 1⟩, ⟨3, 0⟩] ∧ schema.tables[3]? = some table ∧
      column ∈ table.columns ∧ column.references = some reference ∧
      reference.table ≠ table.name ∧
      (schema.tables.map Table.name)[2]? = some reference.table := by
  have hall : (readAs? .standard .mermaid twinDiagram).any (fun schema =>
      schema.graph.edges == [⟨2, 1⟩, ⟨3, 0⟩] && schema.tables[3]?.any fun table =>
        table.columns.any fun column => column.references.any fun reference =>
          reference.table != table.name &&
            (schema.tables.map Table.name)[2]? == some reference.table) = true := by
    decide +kernel
  simpa only [Option.any_eq_true, List.any_eq_true, Bool.and_eq_true, beq_iff_eq, bne_iff_ne,
    exists_and_left] using hall

theorem hasEdge_of_reference_twinDiagram :
    ∃ schema table column reference,
      readAs? .standard .mermaid twinDiagram = some schema ∧
      schema.tables[3]? = some table ∧ column ∈ table.columns ∧
      column.references = some reference ∧ reference.table ≠ table.name ∧
      ∃ parent, schema.IsOnly reference.table parent ∧
        (schema.IsFirst reference.table parent → schema.graph.HasEdge ⟨3, parent⟩) ∧
        ∃ first ≤ parent, schema.IsFirst reference.table first ∧
          (first ≠ 3 → schema.graph.HasEdge ⟨3, first⟩) := by
  obtain ⟨schema, table, column, reference, hread, -, htable, hcolumn, hreference, hother, -⟩ :=
    exists_twinDiagram
  obtain ⟨parent, honly, hexact, -, hfirst⟩ :=
    hasEdge_of_reference hread htable hcolumn hreference hother
  exact ⟨schema, table, column, reference, hread, htable, hcolumn, hreference, hother, parent,
    honly, hexact, hfirst⟩

/-- No edge of the diagram leads from the post to the entity that it names. -/
theorem twinDiagram_misled :
    ∃ schema table column reference,
      readAs? .standard .mermaid twinDiagram = some schema ∧
      schema.tables[3]? = some table ∧ column ∈ table.columns ∧
      column.references = some reference ∧ reference.table ≠ table.name ∧
      (schema.tables.map Table.name)[2]? = some reference.table ∧
      ¬ schema.graph.HasEdge ⟨3, 2⟩ := by
  obtain ⟨schema, table, column, reference, hread, hedges, htable, hcolumn, hreference, hother,
    htarget⟩ := exists_twinDiagram
  refine ⟨schema, table, column, reference, hread, htable, hcolumn, hreference, hother, htarget,
    fun hedge => ?_⟩
  have hlisted := hedge.listed
  rw [hedges] at hlisted
  exact absurd hlisted (by decide)

end Document

end Crowfoot
