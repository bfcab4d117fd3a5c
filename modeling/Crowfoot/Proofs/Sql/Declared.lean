import Crowfoot.Proofs.Schema.Names
import Crowfoot.Sql.Reader

/-!
# What statements declare

A column definition says nothing of references and lineage: the foreign key it
may declare is kept apart until all tables are known.  A column that is declared
a primary key admits no missing value, whatever else its definition says.  So it
is with every column of every statement that a text reads as.
-/

namespace Crowfoot

namespace Column

/-- The column refers to no other and comes from no other. -/
structure IsUnlinked (column : Column) : Prop where
  references : column.references = none
  isForeignKey : column.isForeignKey = false
  sourceTable : column.sourceTable = none
  sourceColumn : column.sourceColumn = none

/-- The column is as a column definition can make it. -/
structure IsDeclared (column : Column) : Prop where
  unlinked : column.IsUnlinked
  keyNotNull : column.isPrimaryKey = true → column.nullability = .notNull

theorem IsUnlinked.asPrimaryKey {column : Column} (hunlinked : column.IsUnlinked) :
    column.asPrimaryKey.IsDeclared :=
  ⟨⟨hunlinked.references, hunlinked.isForeignKey, hunlinked.sourceTable,
    hunlinked.sourceColumn⟩, fun _ => rfl⟩

theorem IsDeclared.asUnique {column : Column} (hdeclared : column.IsDeclared) :
    column.asUnique.IsDeclared :=
  ⟨⟨hdeclared.unlinked.references, hdeclared.unlinked.isForeignKey,
    hdeclared.unlinked.sourceTable, hdeclared.unlinked.sourceColumn⟩, hdeclared.keyNotNull⟩

end Column

namespace Sql

/-- The column of a clause, if it has one, is as a definition can make it. -/
def Clause.IsDeclared : Clause → Prop
  | .column declared _ => declared.IsDeclared
  | _ => True

/-- Columns of different names, each as a definition can make it. -/
structure TableDefinition.IsDeclared (definition : TableDefinition) : Prop where
  names : DistinctNames (definition.columns.map Column.name)
  columns : ∀ column ∈ definition.columns, column.IsDeclared

/-- All columns of a statement are as definitions can make them. -/
def Statement.IsDeclared : Statement → Prop
  | .createTable definition => definition.IsDeclared
  | .alterTable alteration => ∀ clause ∈ alteration.additions, clause.IsDeclared
  | _ => True

/-! ## Column definitions -/

/-- A constraint touches neither the reference nor the lineage of the column. -/
theorem readConstraint?_isUnlinked {draft after : ColumnDraft} {lexeme : Lexeme}
    {rest remaining : List Lexeme} (hunlinked : draft.column.IsUnlinked)
    (hread : readConstraint? draft lexeme rest = some (after, remaining)) :
    after.column.IsUnlinked := by
  obtain ⟨hreferences, hforeign, htable, hcolumn⟩ := hunlinked
  simp only [readConstraint?] at hread
  split at hread
  case h_4 =>
    split at hread <;>
      (simp only [Option.some.injEq, Prod.mk.injEq] at hread
       obtain ⟨rfl, _⟩ := hread
       exact ⟨hreferences, hforeign, htable, hcolumn⟩)
  case h_6 =>
    simp only [Option.map_eq_some_iff, Prod.mk.injEq, Prod.exists] at hread
    obtain ⟨target, rest', _, rfl, _⟩ := hread
    exact ⟨hreferences, hforeign, htable, hcolumn⟩
  all_goals
    simp only [Option.some.injEq, Prod.mk.injEq] at hread
    obtain ⟨rfl, _⟩ := hread
    exact ⟨hreferences, hforeign, htable, hcolumn⟩

theorem readConstraints?_isUnlinked {draft after : ColumnDraft} {lexemes : List Lexeme}
    (hunlinked : draft.column.IsUnlinked)
    (hread : readConstraints? draft lexemes = some after) : after.column.IsUnlinked := by
  fun_induction readConstraints? draft lexemes with
  | case1 draft => exact Option.some.inj hread ▸ hunlinked
  | case2 => simp at hread
  | case3 draft lexeme rest next remaining hconstraint ih =>
    exact ih (readConstraint?_isUnlinked hunlinked hconstraint) hread

theorem readColumn?_isDeclared {lexemes : List Lexeme} {draft : ColumnDraft}
    (hread : readColumn? lexemes = some draft) : draft.column.IsDeclared := by
  simp only [readColumn?, Option.bind_eq_bind, Option.bind_eq_some_iff, Prod.exists,
    Option.pure_def, Option.some.injEq] at hread
  obtain ⟨name, afterName, _, type, afterType, _, begun, hconstraints, rfl⟩ := hread
  have hunlinked : begun.column.IsUnlinked :=
    readConstraints?_isUnlinked ⟨rfl, rfl, rfl, rfl⟩ hconstraints
  rw [ColumnDraft.finish]
  split
  · exact hunlinked.asPrimaryKey
  · rename_i hkey
    exact ⟨hunlinked, fun htrue => absurd htrue hkey⟩

/-! ## Clauses -/

theorem readKeyClause_isDeclared {lexemes : List Lexeme} {clause : Clause}
    (hread : readKeyClause lexemes = .key clause) : clause.IsDeclared := by
  cases clause with
  | column column foreignKey =>
    exfalso
    simp only [readKeyClause] at hread
    split at hread
    · split at hread <;> simp at hread
    · split at hread
      · cases hkey : readPrimaryKey? ‹_› <;> simp [hkey] at hread
        simp only [readPrimaryKey?, Option.map_eq_some_iff] at hkey
        obtain ⟨_, _, rfl⟩ := hkey
        simp at hread
      · simp [readUnique] at hread
      · cases hkey : readForeignKeys? ‹_› <;> simp [hkey] at hread
      · simp at hread
      · simp at hread
      · simp at hread
      · split at hread <;> simp at hread
  | primaryKey names => trivial
  | unique names => trivial
  | foreignKeys keys => trivial

theorem readColumnClause?_isDeclared {lexemes : List Lexeme} {clause : Clause}
    (hread : readColumnClause? lexemes = some clause) : clause.IsDeclared := by
  obtain ⟨draft, hdraft, rfl⟩ := Option.map_eq_some_iff.1 hread
  show draft.column.IsDeclared
  exact readColumn?_isDeclared hdraft

theorem readTableClause?_isDeclared {lexemes : List Lexeme} {clause : Clause}
    (hread : readTableClause? lexemes = some clause) : clause.IsDeclared := by
  rw [readTableClause?] at hread
  split at hread
  · rename_i key hkey
    exact Option.some.inj hread ▸ readKeyClause_isDeclared hkey
  · simp at hread
  · split at hread
    · simp at hread
    · exact readColumnClause?_isDeclared hread

theorem readAddition?_isDeclared {lexemes : List Lexeme} {clause : Clause}
    (hread : readAddition? lexemes = some clause) : clause.IsDeclared := by
  simp only [readAddition?, Option.bind_eq_bind, Option.bind_eq_some_iff] at hread
  obtain ⟨added, _, hread⟩ := hread
  split at hread
  · rename_i key hkey
    exact Option.some.inj hread ▸ readKeyClause_isDeclared hkey
  · simp at hread
  · exact readColumnClause?_isDeclared hread

/-! ## Statements -/

/-- Collecting the column of a clause keeps names different and columns as they
can be declared. -/
theorem collectColumn_isDeclared {columns : List Column} {clause : Clause}
    (hclause : clause.IsDeclared) (hnames : DistinctNames (columns.map Column.name))
    (hcolumns : ∀ column ∈ columns, column.IsDeclared) :
    DistinctNames ((clause.collectColumn columns).map Column.name) ∧
      ∀ column ∈ clause.collectColumn columns, column.IsDeclared := by
  cases clause with
  | column declared foreignKey =>
    refine ⟨distinctNames_putFirst Column.name declared hnames, ?_⟩
    intro other hother
    rcases mem_putFirst hother with rfl | hold
    · exact hclause
    · exact hcolumns other hold
  | primaryKey names => exact ⟨hnames, hcolumns⟩
  | unique names => exact ⟨hnames, hcolumns⟩
  | foreignKeys keys => exact ⟨hnames, hcolumns⟩

theorem foldl_collectColumn_isDeclared {clauses : List Clause} (columns : List Column)
    (hclauses : ∀ clause ∈ clauses, clause.IsDeclared)
    (hnames : DistinctNames (columns.map Column.name))
    (hcolumns : ∀ column ∈ columns, column.IsDeclared) :
    DistinctNames ((clauses.foldl Clause.collectColumn columns).map Column.name) ∧
      ∀ column ∈ clauses.foldl Clause.collectColumn columns, column.IsDeclared := by
  induction clauses generalizing columns with
  | nil => exact ⟨hnames, hcolumns⟩
  | cons clause rest ih =>
    obtain ⟨hclause, hrest⟩ := List.forall_mem_cons.1 hclauses
    obtain ⟨hnames', hcolumns'⟩ := collectColumn_isDeclared hclause hnames hcolumns
    exact ih _ hrest hnames' hcolumns'

@[simp] theorem markKeys_name (primaryKeys uniqueKeys : List String) (column : Column) :
    (markKeys primaryKeys uniqueKeys column).name = column.name := by
  rw [markKeys]
  split <;> split <;> rfl

theorem markKeys_isDeclared (primaryKeys uniqueKeys : List String) {column : Column}
    (hdeclared : column.IsDeclared) :
    (markKeys primaryKeys uniqueKeys column).IsDeclared := by
  have hmarked : (if primaryKeys.any (Text.sameName · column.name) then column.asPrimaryKey
      else column).IsDeclared := by
    split
    · exact hdeclared.unlinked.asPrimaryKey
    · exact hdeclared
  simp only [markKeys]
  by_cases hunique : uniqueKeys.any (Text.sameName · column.name) = true
  · rw [if_pos hunique]
    exact hmarked.asUnique
  · rw [if_neg hunique]
    exact hmarked

theorem ofClauses_isDeclared (name : String) {clauses : List Clause}
    (hclauses : ∀ clause ∈ clauses, clause.IsDeclared) :
    (TableDefinition.ofClauses name clauses).IsDeclared := by
  obtain ⟨hnames, hcolumns⟩ :=
    foldl_collectColumn_isDeclared [] hclauses List.Pairwise.nil (by simp)
  constructor
  · simpa [TableDefinition.ofClauses, Function.comp_def] using hnames
  · intro column hmem
    obtain ⟨old, hold, rfl⟩ := List.mem_map.1 hmem
    exact markKeys_isDeclared _ _ (hcolumns old hold)

theorem readTable?_isDeclared {lexemes : List Lexeme} {definition : TableDefinition}
    (hread : readTable? lexemes = some definition) : definition.IsDeclared := by
  simp only [readTable?, Option.bind_eq_bind, Option.bind_eq_some_iff, Prod.exists,
    Option.pure_def, Option.some.injEq] at hread
  obtain ⟨name, _, _, body, _, _, rfl⟩ := hread
  apply ofClauses_isDeclared
  intro clause hclause
  obtain ⟨_, _, hclause⟩ := List.mem_filterMap.1 hclause
  exact readTableClause?_isDeclared hclause

theorem readAlteration?_isDeclared {lexemes : List Lexeme} {alteration : Alteration}
    (hread : readAlteration? lexemes = some alteration) :
    ∀ clause ∈ alteration.additions, clause.IsDeclared := by
  simp only [readAlteration?, Option.bind_eq_bind, Option.bind_eq_some_iff, Prod.exists] at hread
  obtain ⟨_, _, table, rest, _, hread⟩ := hread
  split at hread
  · simp at hread
  · obtain rfl := Option.some.inj hread
    intro clause hclause
    obtain ⟨_, _, hclause⟩ := List.mem_filterMap.1 hclause
    exact readAddition?_isDeclared hclause

theorem readSchemaName?_isDeclared {lexemes : List Lexeme} {statement : Statement}
    (hread : readSchemaName? lexemes = some statement) : statement.IsDeclared := by
  obtain ⟨_, _, rfl⟩ := Option.map_eq_some_iff.1 hread
  trivial

theorem readCreation?_isDeclared {lexemes : List Lexeme} {statement : Statement}
    (hread : readCreation? lexemes = some statement) : statement.IsDeclared := by
  simp only [readCreation?, Option.bind_eq_bind, Option.bind_eq_some_iff] at hread
  obtain ⟨options, _, hread⟩ := hread
  split at hread
  · simp at hread
  · split at hread
    · obtain ⟨definition, hdefinition, rfl⟩ := Option.map_eq_some_iff.1 hread
      exact readTable?_isDeclared hdefinition
    · obtain ⟨_, _, rfl⟩ := Option.map_eq_some_iff.1 hread
      trivial
    · split at hread
      · exact readSchemaName?_isDeclared hread
      · simp at hread

theorem ofLexemes?_isDeclared {lexemes : List Lexeme} {statement : Statement}
    (hread : Statement.ofLexemes? lexemes = some statement) : statement.IsDeclared := by
  cases lexemes with
  | nil => simp [Statement.ofLexemes?] at hread
  | cons lexeme rest =>
    simp only [Statement.ofLexemes?] at hread
    split at hread
    · exact readCreation?_isDeclared hread
    · obtain ⟨alteration, halteration, rfl⟩ := Option.map_eq_some_iff.1 hread
      exact readAlteration?_isDeclared halteration
    · split at hread
      · exact readSchemaName?_isDeclared hread
      · simp at hread

/-- Every statement of a script declares its columns so. -/
theorem ofScript_isDeclared {text : List Char} :
    ∀ statement ∈ Statement.ofScript text, statement.IsDeclared := by
  intro statement hmem
  obtain ⟨_, _, hread⟩ := List.mem_filterMap.1 hmem
  exact ofLexemes?_isDeclared hread

end Sql

end Crowfoot
