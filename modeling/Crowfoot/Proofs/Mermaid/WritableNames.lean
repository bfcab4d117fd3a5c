import Crowfoot.Proofs.Mermaid.Placement
import Crowfoot.Proofs.Mermaid.Written
import Crowfoot.Proofs.Schema.Outline
import Crowfoot.Proofs.Sql.WrittenTables
import Crowfoot.Mermaid.Schema

/-!
# Names of diagrams

Entities and attributes are named by words, and a column that is added for a key by
the lower case of one.  Every name that a diagram gives is therefore on one line,
so that it can be quoted.
-/

namespace Crowfoot

/-- A base table; its name and those of its columns can be quoted. -/
structure Table.IsEntity (table : Table) : Prop where
  notView : table.isView = false
  name : IsWritableName table.name
  columns : ∀ column ∈ table.columns, IsWritableName column.name

namespace Mermaid

/-! ## Words -/

theorem isWritableName_ofList {name : List Char} (hsome : name ≠ []) (hline : '\n' ∉ name) :
    IsWritableName (String.ofList name) where
  nonempty := by simpa using hsome
  oneLine := by simpa using hline

theorem isWritableName_of_isEntityName {name : List Char} (hname : isEntityName name = true) :
    IsWritableName (String.ofList name) :=
  isWritableName_ofList (ne_nil_of_isEntityName hname) (lineFeed_notMem_entityName hname)

theorem isWritableName_of_mem_words {text word : List Char} (hword : word ∈ Text.words text) :
    IsWritableName (String.ofList word) := by
  refine isWritableName_ofList ?_ fun hmem => ?_
  · simpa using (List.mem_filter.1 hword).2
  · exact absurd (Text.isBlank_of_mem_words hword '\n' hmem) (by decide)

theorem readAttribute?_name {text : List Char} {entry : Attribute}
    (hread : readAttribute? text = some entry) : IsWritableName entry.name := by
  rw [readAttribute?] at hread
  split at hread
  · rename_i type name rest hwords
    split at hread
    · obtain rfl := Option.some.inj hread
      exact isWritableName_of_mem_words (by rw [hwords]; simp)
    · simp at hread
  · simp at hread

theorem readRelationship?_names {text : List Char} {relationship : Relationship}
    (hread : readRelationship? text = some relationship) :
    IsWritableName relationship.left ∧ IsWritableName relationship.right := by
  rw [readRelationship?] at hread
  split at hread
  · rename_i left token right _
    split at hread
    · rename_i hnames
      obtain ⟨hleft, hright⟩ := Bool.and_eq_true_iff.1 hnames
      obtain ⟨cardinality, -, rfl⟩ := Option.map_eq_some_iff.1 hread
      exact ⟨isWritableName_of_isEntityName hleft, isWritableName_of_isEntityName hright⟩
    · simp at hread
  · simp at hread

theorem readBlockStart?_name {text rest : List Char} {name : String}
    (hread : readBlockStart? text = some (name, rest)) : IsWritableName name := by
  rw [readBlockStart?] at hread
  split at hread
  · simp at hread
  · split at hread
    · rename_i hname
      obtain ⟨rfl, rfl⟩ := Prod.mk.inj (Option.some.inj hread)
      exact isWritableName_of_isEntityName hname
    · simp at hread

/-! ## Lines -/

section Scan

variable {diagram : Diagram} (htables : ∀ table ∈ diagram.tables, table.IsEntity)

include htables

theorem ensureTable_isEntity {name : String} (hname : IsWritableName name) :
    ∀ table ∈ (diagram.ensureTable name).tables, table.IsEntity := by
  rw [Diagram.ensureTable]
  split
  · exact htables
  · exact List.forall_mem_append.2
      ⟨htables, List.forall_mem_singleton.2 ⟨rfl, hname, by simp⟩⟩

theorem addAttribute_isEntity (name : String) (text : List Char) :
    ∀ table ∈ (diagram.addAttribute name text).tables, table.IsEntity := by
  intro table hmem
  rcases mem_addAttribute hmem with hold | ⟨entry, hread, old, hold, rfl⟩
  · exact htables table hold
  · refine ⟨(htables old hold).notView, (htables old hold).name, fun column hcolumn => ?_⟩
    rcases mem_putFirst hcolumn with rfl | hkept
    · have hsame : entry.toColumn.name = entry.name := by
        rw [Attribute.toColumn]
        split <;> rfl
      rw [hsame]
      exact readAttribute?_name hread
    · exact (htables old hold).columns column hkept

theorem addRelationship_isEntity {relationship : Relationship}
    (hleft : IsWritableName relationship.left) (hright : IsWritableName relationship.right) :
    ∀ table ∈ (diagram.addRelationship relationship).tables, table.IsEntity :=
  ensureTable_isEntity (ensureTable_isEntity htables hleft) hright

end Scan

theorem ofText?_isEntity {text : List Char} {diagram : Diagram}
    (hread : Diagram.ofText? text = some diagram) :
    ∀ table ∈ diagram.tables, table.IsEntity :=
  ofText?_induction (P := fun diagram => ∀ table ∈ diagram.tables, table.IsEntity)
    (fun _ _ _ _ hread htables => ensureTable_isEntity htables (readBlockStart?_name hread))
    (fun _ name text htables => addAttribute_isEntity htables name text)
    (fun _ _ _ hread htables =>
      addRelationship_isEntity htables (readRelationship?_names hread).1
        (readRelationship?_names hread).2)
    (by simp) hread

/-! ## Keys -/

/-- A column is added under the name of an entity in lower case. -/
theorem isWritableName_addedName {parent : String} (hparent : IsWritableName parent) :
    IsWritableName (addedName parent) := by
  refine isWritableName_ofList (by simp) ?_
  rw [List.mem_append, not_or]
  exact ⟨Text.lineFeed_notMem_lower hparent.oneLine, by decide⟩

theorem placeIn_isEntity {line : KeyLine} {table : Table} (hparent : IsWritableName line.parent)
    (htable : table.IsEntity) (key : String × String) : (placeIn line key table).IsEntity := by
  rcases placeIn_cases line key table with ⟨index, -, heq⟩ | ⟨-, -, heq⟩ | ⟨-, -, heq⟩
  · rw [heq]
    refine ⟨htable.notView, htable.name, fun column hmem => ?_⟩
    have hname : column.name ∈ table.columns.map Column.name := by
      rw [← map_modify_of_keeps Column.name (carryKey_name line key.1) index]
      exact List.mem_map_of_mem hmem
    obtain ⟨old, hold, hsame⟩ := List.mem_map.1 hname
    exact hsame ▸ htable.columns old hold
  · rw [heq]
    exact htable
  · rw [heq]
    exact ⟨htable.notView, htable.name, List.forall_mem_append.2
      ⟨htable.columns, List.forall_mem_singleton.2 (isWritableName_addedName hparent)⟩⟩

theorem resolve_isEntity {diagram : Diagram}
    (htables : ∀ table ∈ diagram.tables, table.IsEntity) :
    ∀ table ∈ diagram.resolve, table.IsEntity := by
  have hplaced := forall_mem_foldl_placeKey
    (fun _ parent _ hparent hname htable =>
      placeIn_isEntity (hname ▸ hparent.name) htable (keyOf parent))
    htables (diagram.relationships.map Relationship.toKeyLine)
  rw [Diagram.resolve, List.forall_mem_map]
  intro table hmem
  obtain ⟨hview, hname, hcolumns⟩ := hplaced table hmem
  refine ⟨hview, hname, List.forall_mem_map.2 fun column hcolumn => ?_⟩
  have hsame : (settleMark column).name = column.name := by
    rw [settleMark]
    split <;> rfl
  rw [hsame]
  exact hcolumns column hcolumn

/-- A diagram gives base tables whose names can be quoted. -/
theorem readSchema?_isEntity {config : CategoryConfig} {text : String} {schema : Schema}
    (hread : readSchema? config text = some schema) :
    ∀ table ∈ schema.tables, table.IsEntity := by
  obtain ⟨diagram, hdiagram, rfl⟩ := Option.map_eq_some_iff.1 hread
  obtain ⟨draw, hassign, hdraw⟩ := config.assign_eq_map diagram.resolve
  show ∀ table ∈ config.assign diagram.resolve, table.IsEntity
  rw [hassign, List.forall_mem_map]
  intro table hmem
  obtain ⟨hview, hname, hcolumns⟩ := resolve_isEntity (ofText?_isEntity hdiagram) table hmem
  obtain ⟨hsame, hkept, hbase⟩ := hdraw table
  exact ⟨hbase.trans hview, hsame ▸ hname, hkept ▸ hcolumns⟩

end Mermaid

end Crowfoot
