import Crowfoot.Mermaid.Placement
import Crowfoot.Proofs.Mermaid.Written
import Mathlib.Data.List.Forall2

/-!
# Written relationships

Every foreign key is written as a line between two entities, labelled with the
name of its column.  Whatever its cardinality, the line reads as a relationship
whose key goes back to the table that holds it.
-/

namespace Crowfoot.Mermaid

/-! ## Relationships -/

/-- What a line between two entities says. -/
def connectionLine (left connection right label : String) : List Char :=
  left.toList ++ ' ' :: connection.toList ++ ' ' :: right.toList ++ " : \x22".toList ++
    label.toList ++ ['\x22']

theorem all_isConnectionChar {token : List Char} {cardinality : Cardinality}
    (hread : readConnection? token = some cardinality) : token.all isConnectionChar = true := by
  rw [readConnection?] at hread
  split at hread
  · assumption
  · simp at hread

/-- Quotes on both sides of a text without quotes are dropped. -/
theorem trimQuotes_quoted {text : List Char} (hsome : text ≠ []) (hquote : '\x22' ∉ text) :
    trimQuotes ('\x22' :: text ++ ['\x22']) = text := by
  have hkeep {text : List Char} (hsome : text ≠ []) (hquote : '\x22' ∉ text)
      (rest : List Char) : (text ++ rest).dropWhile (· == '\x22') = text ++ rest := by
    obtain ⟨c, tail, rfl⟩ := List.exists_cons_of_ne_nil hsome
    obtain ⟨hc, -⟩ := not_or.1 (mt List.mem_cons.2 hquote)
    exact List.dropWhile_cons_of_neg (by simpa using Ne.symm hc)
  have hback := hkeep (List.reverse_ne_nil_iff.2 hsome) (mt List.mem_reverse.1 hquote) []
  rw [List.append_nil] at hback
  rw [trimQuotes, List.cons_append, List.dropWhile_cons_of_pos (by decide), hkeep hsome hquote,
    List.reverse_append, List.reverse_singleton, List.singleton_append,
    List.dropWhile_cons_of_pos (by decide), hback, List.reverse_reverse]

/-- A label in quotes reads as itself. -/
theorem readLabel?_quoted {label : String} (hlabel : isEntityName label.toList = true) :
    readLabel? (' ' :: '\x22' :: label.toList ++ ['\x22']) = some label := by
  have hsome := ne_nil_of_isEntityName hlabel
  have hquote := notMem_of_all (all_isEntityChar hlabel) (c := '\x22') (by decide)
  have hspace : Text.trim ([' '] ++ ('\x22' :: (label.toList ++ ['\x22']) ++ [])) =
      Text.trim ('\x22' :: (label.toList ++ ['\x22'])) :=
    Text.trim_append (by decide) (by simp) (by decide) _
  have hquoted : Text.trim ('\x22' :: (label.toList ++ ['\x22'])) =
      '\x22' :: (label.toList ++ ['\x22']) := by
    apply Text.trim_eq_self
    · simpa using by decide
    · rw [← List.cons_append, List.getLast?_concat]
      rintro _ ⟨⟩
      decide
  rw [List.append_nil, hquoted] at hspace
  rw [readLabel?, List.cons_append, List.cons_append, ← List.singleton_append, hspace,
    ← List.cons_append, trimQuotes_quoted hsome hquote]
  simp [hsome]

section Connection

variable {left connection right label : String} {cardinality : Cardinality}
  (hleft : isEntityName left.toList = true) (hright : isEntityName right.toList = true)
  (hlabel : isEntityName label.toList = true)
  (hconnection : readConnection? connection.toList = some cardinality)

include hleft hright hlabel hconnection

theorem says_connectionText :
    Says (connectionText left connection right label).toList
      [connectionLine left connection right label] := by
  obtain ⟨first, rest, hcons, hfirst⟩ := exists_cons_of_isEntityName hleft
  have hlineFeed := notMem_of_all (all_isConnectionChar hconnection) (c := '\n') (by decide)
  have hhead : (connectionLine left connection right label).head? = some first := by
    rw [connectionLine, hcons]
    rfl
  have hlast : (connectionLine left connection right label).getLast? = some '\x22' :=
    List.getLast?_concat
  have hline : '\n' ∉ connectionLine left connection right label := by
    simp [connectionLine, lineFeed_notMem_entityName hleft, hlineFeed,
      lineFeed_notMem_entityName hright, lineFeed_notMem_entityName hlabel]
  have htext : (connectionText left connection right label).toList =
      "    ".toList ++ connectionLine left connection right label ++ ['\n'] := by
    simp [connectionText, connectionLine]
  rw [htext]
  exact says_indentedLine hhead hfirst hlast (by decide) hline

omit hlabel in
theorem words_connectionLine :
    Text.words (left.toList ++ ' ' :: connection.toList ++ ' ' :: right.toList ++ [' ']) =
      [left.toList, connection.toList, right.toList] := by
  have hchars := all_isConnectionChar hconnection
  have hsome : connection.toList ≠ [] := by
    intro hnil
    simp [hnil, readConnection?, splitAtPair] at hconnection
  have hblank : ∀ c ∈ connection.toList, Text.isBlank c = false := by
    intro c hmem
    have hc := List.all_eq_true.1 hchars c hmem
    simp only [isConnectionChar, Bool.or_eq_true, beq_iff_eq] at hc
    rcases hc with ((((rfl | rfl) | rfl) | rfl) | rfl) | rfl <;> decide
  have hspace : ∀ c ∈ [' '], Text.isBlank c = true := by decide
  have hshape : left.toList ++ ' ' :: connection.toList ++ ' ' :: right.toList ++ [' '] =
      left.toList ++ ([' '] ++ (connection.toList ++ ([' '] ++ (right.toList ++ [' '])))) := by
    simp
  rw [hshape, Text.words_word_append (ne_nil_of_isEntityName hleft)
      (isBlank_of_mem_entityName hleft) (List.cons_ne_nil _ _) hspace,
    Text.words_word_append hsome hblank (List.cons_ne_nil _ _) hspace,
    Text.words_append_blanks hspace, Text.words_eq_singleton (ne_nil_of_isEntityName hright)
      (isBlank_of_mem_entityName hright)]

/-- A relationship line reads as the relationship it was written for. -/
theorem readRelationship?_connectionLine :
    readRelationship? (connectionLine left connection right label) =
      some ⟨left, right, cardinality, some label⟩ := by
  have hwords := words_connectionLine hleft hright hconnection
  have hcolon : ':' ∉ left.toList ++ ' ' :: connection.toList ++ ' ' :: right.toList ++ [' '] := by
    simp [notMem_of_all (all_isEntityChar hleft) (c := ':') (by decide),
      notMem_of_all (all_isEntityChar hright) (c := ':') (by decide),
      notMem_of_all (all_isConnectionChar hconnection) (c := ':') (by decide)]
  have hcut : connectionLine left connection right label =
      (left.toList ++ ' ' :: connection.toList ++ ' ' :: right.toList ++ [' ']) ++
        ':' :: (' ' :: '\x22' :: label.toList ++ ['\x22']) := by
    simp [connectionLine]
  rw [readRelationship?, hcut, Text.splitAtFirst_append hcolon]
  simp only [Option.getD_some, hwords, hleft, hright, Bool.and_self, if_true, hconnection,
    Option.map_some, String.ofList_toList, readLabel?_quoted hlabel]

end Connection

/-! ## Foreign keys -/

/-- A foreign key with the table and the column that hold it. -/
structure HeldKey where
  table : Table
  column : Column
  reference : ColumnReference

/-- The foreign keys of tables, in the order in which they are written. -/
def heldKeys (tables : List Table) : List HeldKey :=
  tables.flatMap fun table => table.foreignKeys.map fun (column, reference) =>
    ⟨table, column, reference⟩

theorem mem_heldKeys {tables : List Table} {key : HeldKey} :
    key ∈ heldKeys tables ↔ key.table ∈ tables ∧ key.column ∈ key.table.columns ∧
      key.column.references = some key.reference := by
  obtain ⟨table, column, reference⟩ := key
  simp only [heldKeys, Table.foreignKeys, List.mem_flatMap, List.mem_map, List.mem_filterMap,
    Option.map_eq_some_iff]
  constructor
  · rintro ⟨_, htable, _, ⟨_, hcolumn, _, hreference, rfl⟩, hsame⟩
    obtain ⟨rfl, rfl, rfl⟩ := HeldKey.mk.inj hsame
    exact ⟨htable, hcolumn, hreference⟩
  · rintro ⟨htable, hcolumn, hreference⟩
    exact ⟨table, htable, _, ⟨column, hcolumn, reference, hreference, rfl⟩, rfl⟩

/-- What the two halves of a connection mean. -/
def halvesCardinality (left right : Multiplicity) : Cardinality :=
  ⟨multiplicityOfHalf (leftHalf left).toList, multiplicityOfHalf (rightHalf right).toList⟩

theorem readConnection?_halves (left right : Multiplicity) :
    readConnection? (leftHalf left ++ "--" ++ rightHalf right).toList =
      some (halvesCardinality left right) := by
  cases left <;> cases right <;> decide

/-- The relationship that a foreign key is drawn as. -/
def HeldKey.drawn (key : HeldKey) : Relationship :=
  let label := some key.column.name
  match key.reference.cardinality with
  | none => ⟨key.reference.table, key.table.name, ⟨.one, .zeroOrMany⟩, label⟩
  | some cardinality =>
    if cardinality.right.isMany then
      ⟨key.reference.table, key.table.name, halvesCardinality cardinality.left cardinality.right,
        label⟩
    else
      ⟨key.table.name, key.reference.table,
        halvesCardinality cardinality.right
          (if cardinality.left.isMany then .zeroOrOne else cardinality.left), label⟩

/-- Read back, the key goes to the table and the column that hold it. -/
theorem HeldKey.drawn_toKeyLine (key : HeldKey) :
    key.drawn.toKeyLine.child = key.table.name ∧
      key.drawn.toKeyLine.parent = key.reference.table ∧
        key.drawn.toKeyLine.label = some key.column.name := by
  rw [HeldKey.drawn]
  cases key.reference.cardinality with
  | none => exact ⟨rfl, rfl, rfl⟩
  | some cardinality =>
    obtain ⟨left, right⟩ := cardinality
    cases left <;> cases right <;> exact ⟨rfl, rfl, rfl⟩

/-- Names that a diagram keeps, and foreign keys whose tables are there. -/
structure AreDrawable (tables : List Table) : Prop where
  each : ∀ table ∈ tables, IsDrawableTable table
  distinct : (tables.map Table.name).Nodup
  references : ∀ table ∈ tables, ∀ column ∈ table.columns, ∀ reference ∈ column.references,
    ∃ target ∈ tables, target.name = reference.table

/-- Names that a diagram keeps, those of linking columns too, which no block lists. -/
structure AreListable (tables : List Table) : Prop where
  each : ∀ table ∈ tables, IsDrawableTable (listedTable table)
  labels : ∀ table ∈ tables, ∀ column ∈ table.columns, entityName column.name = column.name
  distinct : (tables.map Table.name).Nodup
  references : ∀ table ∈ tables, ∀ column ∈ table.columns, ∀ reference ∈ column.references,
    ∃ target ∈ tables, target.name = reference.table

theorem AreDrawable.listedTable_eq {tables : List Table} (hdrawable : AreDrawable tables)
    {table : Table} (htable : table ∈ tables) : listedTable table = table :=
  listedTable_eq_self fun column hcolumn =>
    ((hdrawable.each table htable).columns column hcolumn).listed

theorem AreDrawable.areListable {tables : List Table} (hdrawable : AreDrawable tables) :
    AreListable tables where
  each table htable := (hdrawable.listedTable_eq htable).symm ▸ hdrawable.each table htable
  labels table htable column hcolumn :=
    ((hdrawable.each table htable).columns column hcolumn).name
  distinct := hdrawable.distinct
  references := hdrawable.references

/-- The written line of a foreign key. -/
def HeldKey.text (key : HeldKey) : String :=
  relationshipText key.table key.column key.reference

/-- The foreign key under the names that its line gives. -/
def HeldKey.fitted (key : HeldKey) : HeldKey where
  table := { key.table with name := entityName key.table.name }
  column := { key.column with name := entityName key.column.name }
  reference := { key.reference with table := entityName key.reference.table }

/-- Any foreign key is written on a line of its own that reads as a relationship. -/
theorem HeldKey.exists_line (key : HeldKey) :
    ∃ line, Says key.text.toList [line] ∧ isIgnored line = false ∧
      readRelationship? line = some key.fitted.drawn := by
  have hchild := isEntityName_entityName key.table.name
  have hparent := isEntityName_entityName key.reference.table
  have hlabel := isEntityName_entityName key.column.name
  have hcounts {left connection right label : String} (hleft : isEntityName left.toList = true) :
      isIgnored (connectionLine left connection right label) = false := by
    simp only [connectionLine, List.append_assoc]
    exact isIgnored_of_isEntityName hleft _
  rw [HeldKey.text, relationshipText, HeldKey.drawn]
  simp only [HeldKey.fitted]
  cases key.reference.cardinality with
  | none =>
    have hconnection : readConnection? "||--o\x7b".toList = some ⟨.one, .zeroOrMany⟩ := by decide
    exact ⟨_, says_connectionText hparent hchild hlabel hconnection, hcounts hparent,
      readRelationship?_connectionLine hparent hchild hlabel hconnection⟩
  | some cardinality =>
    by_cases hmany : cardinality.right.isMany = true
    · simp only [if_pos hmany]
      have hconnection := readConnection?_halves cardinality.left cardinality.right
      exact ⟨_, says_connectionText hparent hchild hlabel hconnection, hcounts hparent,
        readRelationship?_connectionLine hparent hchild hlabel hconnection⟩
    · simp only [if_neg hmany]
      have hconnection := readConnection?_halves cardinality.right
        (if cardinality.left.isMany then .zeroOrOne else cardinality.left)
      exact ⟨_, says_connectionText hchild hparent hlabel hconnection, hcounts hchild,
        readRelationship?_connectionLine hchild hparent hlabel hconnection⟩

/-- Each item is written on a line of its own, which counts. -/
theorem Says.exists_lines {α : Type} {items : List α} {write : α → List Char}
    {reads : α → List Char → Prop} (hitems : ∀ item ∈ items,
      ∃ line, Says (write item) [line] ∧ isIgnored line = false ∧ reads item line) :
    ∃ lines, Says (items.flatMap write) lines ∧ (∀ line ∈ lines, isIgnored line = false) ∧
      List.Forall₂ reads items lines := by
  induction items with
  | nil => exact ⟨[], says_nil, by simp, List.Forall₂.nil⟩
  | cons first rest ih =>
    obtain ⟨⟨line, hline, hcounts, hreads⟩, hrest⟩ := List.forall_mem_cons.1 hitems
    obtain ⟨lines, hlines, hall, hreadAll⟩ := ih hrest
    exact ⟨line :: lines, hline.append hlines, List.forall_mem_cons.2 ⟨hcounts, hall⟩,
      List.Forall₂.cons hreads hreadAll⟩

theorem says_header : Says "erDiagram\n".toList [header] := by
  have hsaid : Says (header ++ ['\n']) [Text.trim (header ++ ['\n'])] := says_line (by decide)
  exact hsaid

/-- Between blocks and foreign keys stands an empty line. -/
theorem says_gap (missing : Bool) :
    Says (if missing then "" else "\n").toList (if missing then [] else [[]]) := by
  cases missing with
  | true => exact says_nil
  | false =>
    have hsaid : Says ([] ++ ['\n']) [Text.trim ([] ++ ['\n'])] := says_line List.not_mem_nil
    exact hsaid

theorem schemaText_toList_eq (schema : Schema) :
    (schemaText schema).toList = "erDiagram\n".toList ++
      (schema.tables.flatMap fun table => (blockText table).toList) ++
        (if ((heldKeys schema.tables).map HeldKey.text).isEmpty then "" else "\n").toList ++
          (heldKeys schema.tables).flatMap fun key => key.text.toList := by
  have hkeys : (schema.tables.flatMap fun table => table.foreignKeys.map fun (column, reference) =>
      relationshipText table column reference) = (heldKeys schema.tables).map HeldKey.text := by
    rw [heldKeys, List.map_flatMap]
    simp only [List.map_map]
    rfl
  simp only [schemaText, hkeys, String.toList_append, String.toList_join, List.flatMap_map]

/-- The lines of any written schema: its header, the blocks of its tables, perhaps an empty
line, and one for each foreign key. -/
theorem says_schemaText (schema : Schema) :
    ∃ gap lines, Says (schemaText schema).toList
        (header :: ((schema.tables.map fittedTable).flatMap blockLines ++ (gap ++ lines))) ∧
      (∀ line ∈ gap, line = []) ∧ (∀ line ∈ lines, isIgnored line = false) ∧
      List.Forall₂ (fun key line => readRelationship? line = some key.drawn)
        ((heldKeys schema.tables).map HeldKey.fitted) lines := by
  obtain ⟨lines, hlines, hcounts, hreads⟩ :=
    Says.exists_lines fun (key : HeldKey) (_ : key ∈ heldKeys schema.tables) => key.exists_line
  have hblocks : Says (schema.tables.flatMap fun table => (blockText table).toList)
      ((schema.tables.map fittedTable).flatMap blockLines) := by
    rw [List.flatMap_map]
    exact Says.flatMap fun table _ => says_blockText table
  have hall := ((says_header.append hblocks).append
    (says_gap ((heldKeys schema.tables).map HeldKey.text).isEmpty)).append hlines
  refine ⟨if ((heldKeys schema.tables).map HeldKey.text).isEmpty then [] else [[]], lines, ?_, ?_,
    hcounts, List.forall₂_map_left_iff.2 hreads⟩
  · rw [schemaText_toList_eq]
    simpa only [List.append_assoc, List.singleton_append, List.cons_append, List.nil_append]
      using hall
  · intro line hmem
    split at hmem
    · exact absurd hmem List.not_mem_nil
    · exact List.mem_singleton.1 hmem

section Listable

variable {tables : List Table} (hlistable : AreListable tables)

include hlistable

theorem AreListable.fittedTable_eq {table : Table} (htable : table ∈ tables) :
    fittedTable table = listedTable table := by
  have hname : entityName table.name = table.name := (hlistable.each table htable).name
  rw [fittedTable, hname]
  rfl

theorem AreListable.fitted_eq {key : HeldKey} (hkey : key ∈ heldKeys tables) :
    key.fitted = key := by
  obtain ⟨htable, hcolumn, hreference⟩ := mem_heldKeys.1 hkey
  obtain ⟨target, htarget, hparent⟩ :=
    hlistable.references key.table htable key.column hcolumn key.reference hreference
  have hchildName : entityName key.table.name = key.table.name :=
    (hlistable.each key.table htable).name
  have hparentName : entityName target.name = target.name := (hlistable.each target htarget).name
  rw [hparent] at hparentName
  rw [HeldKey.fitted, hchildName, hparentName, hlistable.labels key.table htable key.column hcolumn]

end Listable

/-- The lines of a written schema that count. -/
theorem AreListable.exists_lines {schema : Schema} (hlistable : AreListable schema.tables) :
    ∃ lines, lineTexts (schemaText schema).toList =
        header :: ((schema.tables.map listedTable).flatMap blockLines ++ lines) ∧
      List.Forall₂ (fun key line => readRelationship? line = some key.drawn)
        (heldKeys schema.tables) lines := by
  obtain ⟨gap, lines, hsaid, hgap, hcounts, hlines⟩ := says_schemaText schema
  have htables : schema.tables.map fittedTable = schema.tables.map listedTable :=
    List.map_congr_left fun table htable => hlistable.fittedTable_eq htable
  have hkeys : (heldKeys schema.tables).map HeldKey.fitted = heldKeys schema.tables :=
    (List.map_congr_left fun key hkey => hlistable.fitted_eq hkey).trans (List.map_id _)
  have hblocks : ∀ line ∈ (schema.tables.map listedTable).flatMap blockLines,
      isIgnored line = false := by
    intro line hmem
    obtain ⟨table, htable, hline⟩ := List.mem_flatMap.1 hmem
    obtain ⟨original, horiginal, rfl⟩ := List.mem_map.1 htable
    exact (hlistable.each original horiginal).isIgnored_blockLines line hline
  have hkept {lines : List (List Char)} (hcounts : ∀ line ∈ lines, isIgnored line = false) :
      lines.filter (fun line => !isIgnored line) = lines :=
    List.filter_eq_self.2 fun line hmem => by rw [hcounts line hmem, Bool.not_false]
  have hdropped : gap.filter (fun line => !isIgnored line) = [] := by
    rw [List.filter_eq_nil_iff]
    intro line hmem
    rw [hgap line hmem]
    decide
  refine ⟨lines, ?_, hkeys ▸ hlines⟩
  rw [hsaid.lineTexts_eq, htables, List.filter_cons_of_pos (by decide), List.filter_append,
    List.filter_append, hkept hblocks, hdropped, hkept hcounts, List.nil_append]

end Crowfoot.Mermaid
