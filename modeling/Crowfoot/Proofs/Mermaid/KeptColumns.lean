import Crowfoot.Proofs.Mermaid.PlacedLinks
import Crowfoot.Proofs.Mermaid.WellPlaced
import Crowfoot.Proofs.Schema.Kept
import Crowfoot.Proofs.Text.LowerCase

/-!
# Kept columns

No relationship line moves, renames or retypes a column, or points a reference at
another entity: it gives a column a reference, or adds one at the end.  A line is
dropped only where the column it would add is there and refers elsewhere.
-/

namespace Crowfoot.Mermaid

/-! ## Columns that only gain references -/

/-- A column that is free for the parent of a line keeps its target when it becomes
the key of the line. -/
theorem keepsColumn_carryKey {line : KeyLine} {keyName : String} {column : Column}
    (hfree : isFree line.parent column = true) :
    KeepsColumn column (carryKey line keyName column) := by
  refine ⟨rfl, fun reference hreference => ⟨_, rfl, ?_⟩⟩
  rw [isFree, Option.mem_def.1 hreference, Option.all_some, beq_iff_eq] at hfree
  exact hfree.symm

theorem keepsColumn_settleMark (column : Column) : KeepsColumn column (settleMark column) := by
  rw [settleMark_eq]
  exact ⟨rfl, fun reference hreference => ⟨reference, hreference, rfl⟩⟩

/-! ## Tables that only gain columns -/

/-- The table is the same but for its columns, of which those that were there are kept
in place. -/
structure KeepsColumns (before after : Table) : Prop where
  data : after = { before with columns := after.columns }
  kept : ∀ (index : Nat) (column : Column), before.columns[index]? = some column →
    ∃ same, after.columns[index]? = some same ∧ KeepsColumn column same

namespace KeepsColumns

theorem refl (table : Table) : KeepsColumns table table :=
  ⟨rfl, fun _ column hcolumn => ⟨column, hcolumn, .refl column⟩⟩

theorem trans {first second third : Table} (hleft : KeepsColumns first second)
    (hright : KeepsColumns second third) : KeepsColumns first third := by
  refine ⟨hright.data.trans (by rw [hleft.data]), fun index column hcolumn => ?_⟩
  obtain ⟨same, hsame, hkeeps⟩ := hleft.kept index column hcolumn
  obtain ⟨last, hlast, hagain⟩ := hright.kept index same hsame
  exact ⟨last, hlast, hkeeps.trans hagain⟩

variable {before after : Table} (hkeeps : KeepsColumns before after)

include hkeeps

/-- The first column of a name is still the first one of that name. -/
theorem column? {name : String} {column : Column} (hcolumn : before.column? name = some column) :
    ∃ same, after.column? name = some same ∧ KeepsColumn column same := by
  obtain ⟨hname, index, hindex, hat, hfirst⟩ := List.find?_eq_some_iff_getElem.1 hcolumn
  have hbefore : before.columns[index]? = some column := List.getElem?_eq_some_iff.2 ⟨hindex, hat⟩
  obtain ⟨same, hsame, hkept⟩ := hkeeps.kept index column hbefore
  obtain ⟨hlt, hget⟩ := List.getElem?_eq_some_iff.1 hsame
  refine ⟨same, List.find?_eq_some_iff_getElem.2 ⟨?_, index, hlt, hget, ?_⟩, hkept⟩
  · rw [hkept.name]
    exact hname
  · intro earlier hearlier
    have hin : earlier < before.columns.length := hearlier.trans hindex
    obtain ⟨other, hother, hkeptOther⟩ :=
      hkeeps.kept earlier before.columns[earlier] (List.getElem?_eq_getElem hin)
    obtain ⟨_, heq⟩ := List.getElem?_eq_some_iff.1 hother
    rw [heq, hkeptOther.name]
    exact hfirst earlier hearlier

end KeepsColumns

theorem placeIn_keepsColumns (line : KeyLine) (key : String × String) (table : Table) :
    KeepsColumns table (placeIn line key table) := by
  rcases placeIn_cases line key table with ⟨index, hbest, heq⟩ | ⟨-, -, heq⟩ | ⟨-, -, heq⟩
  · rw [heq]
    refine ⟨rfl, fun position column hcolumn => ?_⟩
    rw [List.getElem?_modify, hcolumn]
    split
    · rename_i hposition
      obtain ⟨best, hat, hfree⟩ := isFree_of_bestColumn? hbest
      obtain rfl : best = column := Option.some.inj (hat.symm.trans (hposition ▸ hcolumn))
      exact ⟨_, rfl, keepsColumn_carryKey hfree⟩
    · exact ⟨_, rfl, .refl column⟩
  · rw [heq]
    exact .refl table
  · rw [heq]
    refine ⟨rfl, fun position column hcolumn => ⟨column, ?_, .refl column⟩⟩
    rw [List.getElem?_append_left (List.getElem?_eq_some_iff.1 hcolumn).1, hcolumn]

theorem Places.keepsColumns {lines : List KeyLine} {table placed : Table}
    (hplaces : Places lines table placed) : KeepsColumns table placed := by
  induction hplaces with
  | nil table => exact .refl table
  | cons key _ ih => exact (placeIn_keepsColumns _ key _).trans ih

/-! ## Settled lines -/

/-- A column refers to the entity, or the one with the name of a column that would be
added for it refers to another entity. -/
def RefersUnlessTaken (parent : String) (table : Table) : Prop :=
  (∃ column ∈ table.columns, ∃ reference ∈ column.references, reference.table = parent) ∨
    ∃ column, table.column? (addedName parent) = some column ∧
      ∃ reference ∈ column.references, reference.table ≠ parent

theorem RefersUnlessTaken.of_keepsColumns {parent : String} {before after : Table}
    (hrefers : RefersUnlessTaken parent before) (hkeeps : KeepsColumns before after) :
    RefersUnlessTaken parent after := by
  rcases hrefers with ⟨column, hmem, reference, hreference, hparent⟩ |
    ⟨column, hcolumn, reference, hreference, hother⟩
  · obtain ⟨index, hindex⟩ := List.mem_iff_getElem?.1 hmem
    obtain ⟨same, hsame, hkept⟩ := hkeeps.kept index column hindex
    obtain ⟨last, hlast, htable⟩ := hkept.target reference hreference
    exact Or.inl ⟨same, List.mem_of_getElem? hsame, last, hlast, htable.trans hparent⟩
  · obtain ⟨same, hsame, hkept⟩ := hkeeps.column? hcolumn
    obtain ⟨last, hlast, htable⟩ := hkept.target reference hreference
    exact Or.inr ⟨same, hsame, last, hlast, htable ▸ hother⟩

/-- A column with the name of an added one is named after the parent. -/
theorem lower_eq_of_sameName_addedName {parent name : String}
    (hsame : Text.sameName name (addedName parent) = true) :
    Text.lower name.toList = Text.lower parent.toList ++ "_id".toList := by
  rw [Text.sameName, addedName, String.toList_ofList] at hsame
  refine Text.lower_eq_of_sameText ?_ hsame
  refine List.forall_mem_append.2 ⟨fun c hc => Text.isSmall_of_mem_lower hc, ?_⟩
  decide

/-- If the name of a new column is taken by a column that is free, a column suits the
line. -/
theorem bestColumn?_of_column? {line : KeyLine} (keyName : String) {table : Table}
    {column : Column} (hcolumn : table.column? (addedName line.parent) = some column)
    (hfree : isFree line.parent column = true) :
    (bestColumn? line keyName table.columns).isSome = true := by
  have hsame := List.find?_some hcolumn
  have hname := lower_eq_of_sameName_addedName hsame
  rw [bestColumn?, List.findSome?_isSome_iff]
  refine ⟨fun column => Text.lower column.name.toList == Text.lower line.parent.toList ++
    "_id".toList, by simp [tiers], ?_⟩
  rw [List.findIdx?_isSome, List.any_eq_true]
  exact ⟨column, List.mem_of_find?_eq_some hcolumn,
    by simp only [hfree, hname, beq_self_eq_true, Bool.and_self]⟩

/-- A line is settled as soon as its key is placed. -/
theorem placeIn_refersUnlessTaken (line : KeyLine) (key : String × String) (table : Table) :
    RefersUnlessTaken line.parent (placeIn line key table) := by
  rcases placeIn_cases line key table with ⟨index, hbest, heq⟩ | ⟨hnone, htaken, heq⟩ | ⟨-, -, heq⟩
  · obtain ⟨column, hat, -⟩ := isFree_of_bestColumn? hbest
    refine Or.inl ⟨carryKey line key.1 column, ?_, _, rfl, rfl⟩
    rw [heq]
    refine List.mem_of_getElem? (i := index) ?_
    rw [List.getElem?_modify_eq, hat, Option.map_eq_map, Option.map_some]
  · obtain ⟨column, hcolumn⟩ := Option.isSome_iff_exists.1 htaken
    rw [heq]
    refine Or.inr ⟨column, hcolumn, ?_⟩
    by_contra hnowhere
    have hfree : isFree line.parent column = true := by
      simpa [isFree, Option.all_eq_true] using hnowhere
    have hbest := bestColumn?_of_column? key.1 hcolumn hfree
    rw [hnone] at hbest
    cases hbest
  · rw [heq]
    exact Or.inl ⟨_, List.mem_append_right _ (List.mem_singleton_self _), _, rfl, rfl⟩

/-- No later line undoes what an earlier one has settled. -/
theorem Places.refersUnlessTaken {lines : List KeyLine} {table placed : Table}
    (hplaces : Places lines table placed) :
    ∀ line ∈ lines, RefersUnlessTaken line.parent placed := by
  induction hplaces with
  | nil => simp
  | @cons line _ table _ key hrest ih =>
    exact List.forall_mem_cons.2
      ⟨(placeIn_refersUnlessTaken line key table).of_keepsColumns hrest.keepsColumns, ih⟩

/-! ## References of lines -/

/-- The reference is that of one of the lines. -/
def IsKeyOf (lines : List KeyLine) (reference : ColumnReference) : Prop :=
  ∃ line ∈ lines, line.parent = reference.table ∧ reference.cardinality = some line.cardinality

theorem placeIn_references {line : KeyLine} {key : String × String} {table : Table}
    {column : Column} (hcolumn : column ∈ (placeIn line key table).columns)
    {reference : ColumnReference} (hreference : reference ∈ column.references) :
    (line.parent = reference.table ∧ reference.cardinality = some line.cardinality) ∨
      ∃ old ∈ table.columns, reference ∈ old.references := by
  rcases placeIn_cases line key table with ⟨index, -, heq⟩ | ⟨-, -, heq⟩ | ⟨-, -, heq⟩
  · rw [heq] at hcolumn
    rcases mem_modify_cases hcolumn with hold | ⟨old, -, rfl⟩
    · exact Or.inr ⟨column, hold, hreference⟩
    · obtain rfl := Option.some.inj hreference
      exact Or.inl ⟨rfl, rfl⟩
  · rw [heq] at hcolumn
    exact Or.inr ⟨column, hcolumn, hreference⟩
  · rw [heq] at hcolumn
    rcases List.mem_append.1 hcolumn with hold | hnew
    · exact Or.inr ⟨column, hold, hreference⟩
    · obtain rfl := List.mem_singleton.1 hnew
      obtain rfl := Option.some.inj hreference
      exact Or.inl ⟨rfl, rfl⟩

/-- Every reference was there before or is that of a line. -/
theorem Places.isKeyOf {lines : List KeyLine} {table placed : Table}
    (hplaces : Places lines table placed) {column : Column} (hcolumn : column ∈ placed.columns)
    {reference : ColumnReference} (hreference : reference ∈ column.references) :
    IsKeyOf lines reference ∨ ∃ old ∈ table.columns, reference ∈ old.references := by
  induction hplaces with
  | nil => exact Or.inr ⟨column, hcolumn, hreference⟩
  | cons key _ ih =>
    rcases ih hcolumn with ⟨line, hline, hkey⟩ | ⟨old, hold, hsame⟩
    · exact Or.inl ⟨line, List.mem_cons_of_mem _ hline, hkey⟩
    · exact (placeIn_references hold hsame).imp_left fun hkey => ⟨_, List.mem_cons_self, hkey⟩

/-! ## Resolved diagrams -/

/-- The entity that holds the key of a relationship: the right one if its side is many. -/
def Relationship.keySide (relationship : Relationship) : String :=
  if relationship.cardinality.right.isMany then relationship.right else relationship.left

/-- The entity that the key of a relationship refers to. -/
def Relationship.otherSide (relationship : Relationship) : String :=
  if relationship.cardinality.right.isMany then relationship.left else relationship.right

/-- The cardinality of a relationship with the referenced entity on the left. -/
def Relationship.keyCardinality (relationship : Relationship) : Cardinality :=
  if relationship.cardinality.right.isMany then relationship.cardinality
  else relationship.cardinality.reversed

theorem toKeyLine_eq (relationship : Relationship) :
    relationship.toKeyLine = ⟨relationship.keySide, relationship.otherSide,
      relationship.keyCardinality, relationship.label⟩ := by
  rw [Relationship.toKeyLine, Relationship.keySide, Relationship.otherSide,
    Relationship.keyCardinality]
  split <;> rfl

/-- Seen from the referenced entity, the side of the key is many if either half is. -/
theorem keyCardinality_right_isMany (relationship : Relationship) :
    relationship.keyCardinality.right.isMany = true ↔
      relationship.cardinality.left.isMany = true ∨
        relationship.cardinality.right.isMany = true := by
  rw [Relationship.keyCardinality]
  split
  · rename_i hmany
    simp [hmany]
  · rename_i hsingle
    simp [Cardinality.reversed, hsingle]

/-- Both entities of every relationship are tables. -/
def EndsAreTables (diagram : Diagram) : Prop :=
  ∀ relationship ∈ diagram.relationships, relationship.left ∈ diagram.tables.map Table.name ∧
    relationship.right ∈ diagram.tables.map Table.name

theorem mem_ensureTable (diagram : Diagram) (name : String) :
    name ∈ (diagram.ensureTable name).tables.map Table.name := by
  rw [Diagram.ensureTable]
  split
  · rename_i hold
    obtain ⟨table, htable, hname⟩ := List.any_eq_true.1 hold
    exact List.mem_map.2 ⟨table, htable, beq_iff_eq.1 hname⟩
  · simp

theorem mem_ensureTable_of_mem {diagram : Diagram} {other : String} (name : String)
    (hmem : other ∈ diagram.tables.map Table.name) :
    other ∈ (diagram.ensureTable name).tables.map Table.name := by
  rw [Diagram.ensureTable]
  split
  · exact hmem
  · rw [List.map_append]
    exact List.mem_append_left _ hmem

theorem ensureTable_relationships (diagram : Diagram) (name : String) :
    (diagram.ensureTable name).relationships = diagram.relationships := by
  rw [Diagram.ensureTable]
  split <;> rfl

theorem addAttribute_relationships (diagram : Diagram) (name : String) (text : List Char) :
    (diagram.addAttribute name text).relationships = diagram.relationships := by
  rw [Diagram.addAttribute]
  split <;> rfl

theorem ensureTable_endsAreTables {diagram : Diagram} (hends : EndsAreTables diagram)
    (name : String) : EndsAreTables (diagram.ensureTable name) := by
  intro relationship hmem
  rw [ensureTable_relationships] at hmem
  exact ⟨mem_ensureTable_of_mem name (hends relationship hmem).1,
    mem_ensureTable_of_mem name (hends relationship hmem).2⟩

theorem addAttribute_endsAreTables {diagram : Diagram} (hends : EndsAreTables diagram)
    (name : String) (text : List Char) : EndsAreTables (diagram.addAttribute name text) := by
  intro relationship hmem
  rw [addAttribute_relationships] at hmem
  rw [map_name_addAttribute]
  exact hends relationship hmem

theorem addRelationship_endsAreTables {diagram : Diagram} (hends : EndsAreTables diagram)
    (relationship : Relationship) : EndsAreTables (diagram.addRelationship relationship) := by
  have hnamed := ensureTable_endsAreTables (ensureTable_endsAreTables hends relationship.left)
    relationship.right
  refine List.forall_mem_append.2 ⟨hnamed, List.forall_mem_singleton.2 ⟨?_, ?_⟩⟩
  · exact mem_ensureTable_of_mem _ (mem_ensureTable diagram relationship.left)
  · exact mem_ensureTable _ relationship.right

theorem ofText?_endsAreTables {text : List Char} {diagram : Diagram}
    (hread : Diagram.ofText? text = some diagram) : EndsAreTables diagram :=
  ofText?_induction (P := EndsAreTables)
    (fun _ _ name _ _ hends => ensureTable_endsAreTables hends name)
    (fun _ name text hends => addAttribute_endsAreTables hends name text)
    (fun _ _ relationship _ hends => addRelationship_endsAreTables hends relationship)
    (by simp [EndsAreTables]) hread

/-- What the relationships of a diagram make of its tables: they keep all columns in
place, each leads from the side of its key to the other one unless the name of the
column to be added is taken, and each reference is that of a relationship. -/
structure PlacesAll (diagram : Diagram) (tables : List Table) : Prop where
  kept : List.Forall₂ KeepsColumns diagram.tables tables
  ends : ∀ relationship ∈ diagram.relationships,
    ∃ table ∈ tables, table.name = relationship.keySide
  settled : ∀ relationship ∈ diagram.relationships, ∀ table ∈ tables,
    table.name = relationship.keySide → RefersUnlessTaken relationship.otherSide table
  cardinalities : ∀ table ∈ tables, ∀ column ∈ table.columns, ∀ reference ∈ column.references,
    ∃ relationship ∈ diagram.relationships, relationship.keySide = table.name ∧
      relationship.otherSide = reference.table ∧
        reference.cardinality = some relationship.keyCardinality ∧
          (relationship.keyCardinality.right.isMany = true ↔
            relationship.cardinality.left.isMany = true ∨
              relationship.cardinality.right.isMany = true)

theorem keepsColumns_settleMarks (table : Table) :
    KeepsColumns table { table with columns := table.columns.map settleMark } := by
  refine ⟨rfl, fun index column hcolumn => ⟨settleMark column, ?_, keepsColumn_settleMark column⟩⟩
  rw [List.getElem?_map, hcolumn, Option.map_some]

section Resolved

variable {diagram : Diagram} (hscanned : IsScanned diagram) (hends : EndsAreTables diagram)

include hscanned hends

/-- Every resolved table is what the lines of one table have made of it. -/
theorem forall₂_resolve : List.Forall₂ (fun table resolved => ∃ placed,
    Places ((diagram.relationships.map Relationship.toKeyLine).filter (·.child == table.name))
      table placed ∧ resolved = { placed with columns := placed.columns.map settleMark })
    diagram.tables diagram.resolve := by
  have hparents : ∀ line ∈ diagram.relationships.map Relationship.toKeyLine,
      line.parent ∈ diagram.tables.map Table.name := by
    rw [List.forall_mem_map]
    intro relationship hmem
    rw [toKeyLine_eq, Relationship.otherSide]
    split
    · exact (hends relationship hmem).1
    · exact (hends relationship hmem).2
  rw [Diagram.resolve, List.forall₂_map_right_iff]
  exact (foldl_placeKey_places hscanned.distinctTables hparents).imp
    fun table placed hplaces => ⟨placed, hplaces, rfl⟩

theorem placesAll_resolve : PlacesAll diagram diagram.resolve := by
  have hresolve := forall₂_resolve hscanned hends
  refine ⟨?_, ?_, ?_, ?_⟩
  · refine hresolve.imp fun table resolved hresolved => ?_
    obtain ⟨placed, hplaces, rfl⟩ := hresolved
    exact hplaces.keepsColumns.trans (keepsColumns_settleMarks placed)
  · intro relationship hmem
    have hside : relationship.keySide ∈ diagram.tables.map Table.name := by
      rw [Relationship.keySide]
      split
      · exact (hends relationship hmem).2
      · exact (hends relationship hmem).1
    obtain ⟨table, htable, hname⟩ := List.mem_map.1 hside
    obtain ⟨resolved, hmem, placed, hplaces, rfl⟩ := exists_of_forall₂ hresolve htable
    exact ⟨_, hmem, hplaces.name_eq.trans hname⟩
  · intro relationship hmem resolved hresolved hname
    obtain ⟨table, -, placed, hplaces, rfl⟩ := exists_of_forall₂ hresolve.flip hresolved
    have hline : relationship.toKeyLine ∈
        (diagram.relationships.map Relationship.toKeyLine).filter (·.child == table.name) := by
      refine List.mem_filter.2 ⟨List.mem_map_of_mem hmem, ?_⟩
      rw [toKeyLine_eq, beq_iff_eq]
      exact hname.symm.trans hplaces.name_eq
    have hrefers := hplaces.refersUnlessTaken _ hline
    rw [toKeyLine_eq] at hrefers
    exact hrefers.of_keepsColumns (keepsColumns_settleMarks placed)
  · intro resolved hresolved column hcolumn reference hreference
    obtain ⟨table, htable, placed, hplaces, rfl⟩ := exists_of_forall₂ hresolve.flip hresolved
    obtain ⟨old, hold, rfl⟩ := List.mem_map.1 hcolumn
    rw [settleMark_eq] at hreference
    rcases hplaces.isKeyOf hold hreference with ⟨line, hline, hparent, hcardinality⟩ |
      ⟨declared, hdeclared, hkept⟩
    · obtain ⟨hin, hchild⟩ := List.mem_filter.1 hline
      obtain ⟨relationship, hmem, rfl⟩ := List.mem_map.1 hin
      rw [toKeyLine_eq] at hparent hcardinality hchild
      exact ⟨relationship, hmem, (beq_iff_eq.1 hchild).trans hplaces.name_eq.symm, hparent,
        hcardinality, keyCardinality_right_isMany relationship⟩
    · have hnone := (hscanned.columns table htable declared hdeclared).unreferenced
      rw [hnone] at hkept
      cases hkept

end Resolved

/-- Every diagram that is read has all its relationships placed, and no column of its
tables is lost or damaged by them. -/
theorem ofText?_placesAll {text : List Char} {diagram : Diagram}
    (hread : Diagram.ofText? text = some diagram) : PlacesAll diagram diagram.resolve :=
  placesAll_resolve (ofText?_isScanned hread) (ofText?_endsAreTables hread)

/-- Lines from two entities with the label of one column, of which the second finds it
taken, and a line from an entity to itself. -/
def takenDiagram : String :=
  "erDiagram\na \x7b\nint id PK\nint b_id FK\n\x7d\nc ||--o\x7b a : b_id\n" ++
    "b ||--|\x7b a : b_id\na \x7do--o| a : id"

theorem ofText?_takenDiagram_placesAll :
    ∃ diagram, Diagram.ofText? takenDiagram.toList = some diagram ∧
      PlacesAll diagram diagram.resolve := by
  have hsome : (Diagram.ofText? takenDiagram.toList).isSome = true := by decide +kernel
  obtain ⟨diagram, hread⟩ := Option.isSome_iff_exists.1 hsome
  exact ⟨diagram, hread, ofText?_placesAll hread⟩

end Crowfoot.Mermaid
