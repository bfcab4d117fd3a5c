import Crowfoot.Proofs.Mermaid.Placement
import Crowfoot.Proofs.Mermaid.Written
import Crowfoot.Proofs.Schema.Outline
import Crowfoot.Proofs.Text.UpperCase
import Crowfoot.Mermaid.Schema

/-!
# Types of diagrams

A type is read as a word and kept in upper case, which is a word again; a column that
is added for a key has the type of the key.  So every type that a diagram gives is
written as a word that can be read once more.
-/

namespace Crowfoot.Mermaid

/-! ## Words -/

/-- The upper case of a word is a word. -/
theorem isAttributeWord_upper {word : List Char} (hword : isAttributeWord word = true) :
    isAttributeWord (Text.upper word) = true := by
  obtain ⟨first, rest, rfl, hfirst⟩ := exists_cons_of_isAttributeWord hword
  have hstart : ∃ start more, Text.upperChar first = start :: more ∧ isWordStart start = true := by
    rcases Bool.or_eq_true_iff.1 hfirst with halphanumeric | hunderscore
    · obtain ⟨start, more, heq, hstart⟩ := Text.exists_upperChar halphanumeric
      exact ⟨start, more, heq, Bool.or_eq_true_iff.2 (Or.inl hstart)⟩
    · rw [beq_iff_eq.1 hunderscore]
      exact ⟨'_', [], rfl, by decide⟩
  obtain ⟨start, more, hupper, hstart⟩ := hstart
  have hmarks : ∀ mark ∈ ['\x7b', '\x7d', '\x22'], mark ∉ Text.upper (first :: rest) := by
    intro mark hmark hmem
    have hkind : ∀ mark ∈ ['\x7b', '\x7d', '\x22'],
        mark.toNat < 128 ∧ Text.isAlphanumeric mark = false ∧
          (mark != '\x7b' && mark != '\x7d' && mark != '\x22') = false := by decide
    obtain ⟨hascii, hother, hnot⟩ := hkind mark hmark
    exact notMem_of_all (Bool.and_eq_true_iff.1 hword).2 hnot
      (Text.mem_of_mem_upper hascii hother hmem)
  refine Bool.and_eq_true_iff.2 ⟨?_, List.all_eq_true.2 fun c hmem => ?_⟩
  · rw [Text.upper_cons, hupper]
    exact hstart
  · have hne (mark : Char) (hmark : mark ∈ ['\x7b', '\x7d', '\x22']) : (c != mark) = true :=
      bne_iff_ne.2 fun heq => hmarks mark hmark (heq ▸ hmem)
    rw [hne '\x7b' (by decide), hne '\x7d' (by decide), hne '\x22' (by decide)]
    rfl

/-- A type that is a word is written as one. -/
theorem isAttributeWord_fitType {type : List Char} (htype : isAttributeWord type = true) :
    isAttributeWord (fitType type) = true := by
  obtain ⟨first, rest, rfl, hfirst⟩ := exists_cons_of_isAttributeWord htype
  have hblank := isBlank_of_isEntityChar (isEntityChar_of_isWordStart hfirst)
  obtain ⟨back, after, hwords⟩ := Text.exists_words_cons (List.cons_ne_nil first [])
    (by simpa using hblank) rest
  rw [List.singleton_append, List.singleton_append] at hwords
  obtain ⟨tail, htail⟩ := Text.prefix_intercalate ['_'] (first :: back) after
  have hfit : fitType (first :: rest) = ['_'].intercalate ((first :: back) :: after) := by
    rw [fitType, hwords]
  rw [hfit]
  refine Bool.and_eq_true_iff.2 ⟨?_, List.all_eq_true.2 ?_⟩
  · rw [← htail]
    exact hfirst
  · refine Text.forall_mem_intercalate (by decide) fun word hword c hc => ?_
    exact List.all_eq_true.1 (Bool.and_eq_true_iff.1 htype).2 c
      (Text.mem_of_mem_words (hwords ▸ hword) c hc)

/-! ## Tables -/

/-- The type of every column is a word. -/
def HasWordTypes (table : Table) : Prop :=
  ∀ column ∈ table.columns, isAttributeWord column.type.toList = true

theorem readAttribute?_type {text : List Char} {entry : Attribute}
    (hread : readAttribute? text = some entry) : isAttributeWord entry.type.toList = true := by
  rw [readAttribute?] at hread
  split at hread
  · split at hread
    · rename_i hwords
      obtain rfl := Option.some.inj hread
      simpa using (Bool.and_eq_true_iff.1 hwords).1
    · cases hread
  · cases hread

theorem toColumn_type (entry : Attribute) :
    entry.toColumn.type = Text.upperCase entry.type := by
  rw [Attribute.toColumn]
  split <;> rfl

section Scan

variable {diagram : Diagram} (htables : ∀ table ∈ diagram.tables, HasWordTypes table)

include htables

theorem ensureTable_hasWordTypes (name : String) :
    ∀ table ∈ (diagram.ensureTable name).tables, HasWordTypes table := by
  rw [Diagram.ensureTable]
  split
  · exact htables
  · exact List.forall_mem_append.2 ⟨htables, List.forall_mem_singleton.2 (by simp [HasWordTypes])⟩

theorem addAttribute_hasWordTypes (name : String) (text : List Char) :
    ∀ table ∈ (diagram.addAttribute name text).tables, HasWordTypes table := by
  intro table hmem column hcolumn
  rcases mem_addAttribute hmem with hold | ⟨entry, hread, old, hold, rfl⟩
  · exact htables table hold column hcolumn
  · rcases mem_putFirst hcolumn with rfl | hkept
    · rw [toColumn_type, Text.upperCase, String.toList_ofList]
      exact isAttributeWord_upper (readAttribute?_type hread)
    · exact htables old hold column hkept

end Scan

theorem ofText?_hasWordTypes {text : List Char} {diagram : Diagram}
    (hread : Diagram.ofText? text = some diagram) :
    ∀ table ∈ diagram.tables, HasWordTypes table :=
  ofText?_induction (P := fun diagram => ∀ table ∈ diagram.tables, HasWordTypes table)
    (fun _ _ name _ _ htables => ensureTable_hasWordTypes htables name)
    (fun _ name text htables => addAttribute_hasWordTypes htables name text)
    (fun _ _ _ _ htables => ensureTable_hasWordTypes (ensureTable_hasWordTypes htables _) _)
    (by simp) hread

/-! ## Keys -/

/-- The type of a key is that of a column, or `INT`. -/
theorem isAttributeWord_keyOf {table : Table} (htable : HasWordTypes table) :
    isAttributeWord (keyOf table).2.toList = true := by
  rw [keyOf]
  split
  · rename_i column hkey
    exact htable column (List.mem_of_find?_eq_some hkey)
  · decide

theorem carryKey_type (line : KeyLine) (keyName : String) (column : Column) :
    (carryKey line keyName column).type = column.type := rfl

theorem placeIn_hasWordTypes {line : KeyLine} {key : String × String} {table : Table}
    (hkey : isAttributeWord key.2.toList = true) (htable : HasWordTypes table) :
    HasWordTypes (placeIn line key table) := by
  rcases placeIn_cases line key table with ⟨index, -, heq⟩ | ⟨-, -, heq⟩ | ⟨-, -, heq⟩
  · rw [heq]
    intro column hmem
    have htype : column.type ∈ table.columns.map Column.type := by
      rw [← map_modify_of_keeps Column.type (carryKey_type line key.1) index]
      exact List.mem_map_of_mem hmem
    obtain ⟨old, hold, hsame⟩ := List.mem_map.1 htype
    exact hsame ▸ htable old hold
  · rw [heq]
    exact htable
  · rw [heq]
    exact List.forall_mem_append.2 ⟨htable, List.forall_mem_singleton.2 hkey⟩

theorem resolve_hasWordTypes {diagram : Diagram}
    (htables : ∀ table ∈ diagram.tables, HasWordTypes table) :
    ∀ table ∈ diagram.resolve, HasWordTypes table := by
  have hplaced := forall_mem_foldl_placeKey
    (fun _ _ _ hparent _ htable => placeIn_hasWordTypes (isAttributeWord_keyOf hparent) htable)
    htables (diagram.relationships.map Relationship.toKeyLine)
  rw [Diagram.resolve, List.forall_mem_map]
  intro table hmem
  refine List.forall_mem_map.2 fun column hcolumn => ?_
  have hsame : (settleMark column).type = column.type := by
    rw [settleMark]
    split <;> rfl
  rw [hsame]
  exact hplaced table hmem column hcolumn

/-- All types of a diagram are words. -/
theorem readSchema?_hasWordTypes {config : CategoryConfig} {text : String} {schema : Schema}
    (hread : readSchema? config text = some schema) :
    ∀ table ∈ schema.tables, HasWordTypes table := by
  obtain ⟨diagram, hdiagram, rfl⟩ := Option.map_eq_some_iff.1 hread
  obtain ⟨draw, hassign, hdraw⟩ := config.assign_eq_map diagram.resolve
  show ∀ table ∈ config.assign diagram.resolve, HasWordTypes table
  rw [hassign, List.forall_mem_map]
  intro table hmem
  rw [HasWordTypes, (hdraw table).2.1]
  exact resolve_hasWordTypes (ofText?_hasWordTypes hdiagram) table hmem

end Crowfoot.Mermaid
