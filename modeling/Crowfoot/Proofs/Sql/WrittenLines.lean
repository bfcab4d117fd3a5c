import Crowfoot.Proofs.Sql.WrittenTables
import Crowfoot.Sql.Batch

/-!
# Lines of written tables

A line that holds the word `GO` alone would separate two batches of statements.
No line that is written for a table does so, not even for a column of that name,
because a type follows the name on the same line.
-/

namespace Crowfoot

namespace Sql

/-- A line with a third character that is no blank, those in front not counted,
separates no batches. -/
theorem separateBatch_eq_self {line : List Char}
    (hmore : ∃ c ∈ (line.dropWhile Text.isBlank).drop 2, Text.isBlank c = false) :
    separateBatch line = line := by
  rw [separateBatch]
  split
  · rename_i first second rest hfront
    obtain ⟨c, hmem, hc⟩ := hmore
    rw [hfront] at hmem
    have hsome : rest.all Text.isBlank = false :=
      List.all_eq_false.2 ⟨c, hmem, by simp [hc]⟩
    rw [hsome, Bool.and_false, if_neg Bool.false_ne_true]
  · rfl

/-- The text consists of whole lines none of which separates batches. -/
def IsBatchFree (text : List Char) : Prop :=
  ∀ rest, separateBatches (text ++ rest) = text ++ separateBatches rest

theorem isBatchFree_nil : IsBatchFree [] :=
  fun _ => rfl

theorem IsBatchFree.append {left right : List Char} (hleft : IsBatchFree left)
    (hright : IsBatchFree right) : IsBatchFree (left ++ right) := by
  intro rest
  rw [List.append_assoc, hleft, hright, List.append_assoc]

theorem isBatchFree_line {line : List Char} (hline : '\n' ∉ line)
    (hself : separateBatch (line ++ ['\n']) = line ++ ['\n']) : IsBatchFree (line ++ ['\n']) := by
  intro rest
  rw [List.append_assoc, List.singleton_append, separateBatches, Text.linesOf_append hline,
    List.flatMap_cons, hself]
  rfl

/-- Two characters that start with no blank, and another later on the line. -/
theorem isBatchFree_of_mem {blanks front back : List Char} {first c : Char}
    (hblanks : ∀ c ∈ blanks, Text.isBlank c = true) (hfirst : Text.isBlank first = false)
    (hfront : front ≠ []) (hmem : c ∈ back) (hc : Text.isBlank c = false)
    (hline : '\n' ∉ blanks ++ first :: front ++ back) :
    IsBatchFree (blanks ++ first :: front ++ back ++ ['\n']) := by
  apply isBatchFree_line hline
  apply separateBatch_eq_self
  refine ⟨c, ?_, hc⟩
  have hdrop : (blanks ++ first :: front ++ back ++ ['\n']).dropWhile Text.isBlank =
      first :: (front ++ (back ++ ['\n'])) := by
    rw [List.append_assoc, List.append_assoc, List.dropWhile_append_of_pos hblanks,
      List.cons_append, List.dropWhile_cons_of_neg (by simp [hfirst])]
  obtain ⟨second, others, rfl⟩ := List.exists_cons_of_ne_nil hfront
  rw [hdrop]
  simp [hmem]

/-! ## What stays on one line -/

theorem lineFeed_notMem_quoteName {name : String} (hname : '\n' ∉ name.toList) :
    '\n' ∉ (quoteName name).toList := by
  have hdouble : '\n' ∉ doubleQuotes name.toList := by
    intro hmem
    obtain ⟨c, hc, hdoubled⟩ := List.mem_flatMap.1 hmem
    split at hdoubled
    · simp_all
    · rw [List.mem_singleton] at hdoubled
      exact hname (hdoubled ▸ hc)
  rw [quoteName, String.toList_ofList, quoteChars]
  split
  · exact hname
  · simp [hdouble]

theorem quoteName_head (name : String) :
    ∃ first rest, (quoteName name).toList = first :: rest ∧ Text.isBlank first = false := by
  rw [quoteName, String.toList_ofList, quoteChars]
  split
  · rename_i hplain
    obtain ⟨hword, -⟩ := Bool.and_eq_true_iff.1 hplain
    cases hname : name.toList with
    | nil => simp [hname, isPlainWord] at hword
    | cons first rest =>
      rw [hname] at hword
      exact ⟨first, rest, rfl, (endsGap_of_isWordStart (Bool.and_eq_true_iff.1 hword).1).2.2.2⟩
  · exact ⟨'"', _, rfl, by decide⟩

theorem lineFeed_notMem_constraintText (column : Column) :
    '\n' ∉ (constraintText column).toList := by
  rw [constraintText]
  split
  · decide
  · rw [String.toList_append, List.mem_append, not_or]
    constructor
    · split <;> decide
    · cases column.nullability <;> decide

section Columns

variable {column : Column} (hcolumn : column.IsLegible)

include hcolumn

theorem lineFeed_notMem_referenceText : '\n' ∉ (referenceText column).toList := by
  cases hreference : column.references with
  | none =>
    rw [referenceText, hreference]
    decide
  | some reference =>
    obtain ⟨htable, hkey⟩ := hcolumn.target reference hreference
    have htarget := lineFeed_notMem_quoteName htable.oneLine
    have hname := lineFeed_notMem_quoteName hkey.oneLine
    have hkeyword : '\n' ∉ Keyword.references.spelling.toList := by decide
    rw [referenceText_some hreference]
    simp [htarget, hname, hkeyword]

/-- No line of a column separates batches, whether it is the last one or not. -/
theorem isBatchFree_columnText (width : Nat) {ending : List Char} (hending : '\n' ∉ ending) :
    IsBatchFree ((columnText width column).toList ++ ending ++ ['\n']) := by
  obtain ⟨first, rest, hname, hfirst⟩ := quoteName_head column.name
  obtain ⟨c, hmem, hc⟩ := hcolumn.type.exists_mem
  let padding := List.replicate (width - Text.displayWidth (quoteName column.name)) ' '
  let back := column.type.toList ++
    ((constraintText column).toList ++ (referenceText column).toList) ++ ending
  have hsplit : (columnText width column).toList ++ ending =
      List.replicate 4 ' ' ++ first :: (rest ++ padding ++ [' ']) ++ back := by
    rw [columnText_toList width hcolumn.type, hname]
    simp [padding, back]
  have hline : '\n' ∉ List.replicate 4 ' ' ++ first :: (rest ++ padding ++ [' ']) ++ back := by
    have hquoted := lineFeed_notMem_quoteName hcolumn.name.oneLine
    rw [hname] at hquoted
    obtain ⟨hhead, htail⟩ := not_or.1 (mt List.mem_cons.2 hquoted)
    simp [padding, back, hhead, htail, hending, hcolumn.type.oneLine,
      lineFeed_notMem_constraintText, lineFeed_notMem_referenceText hcolumn]
  rw [hsplit]
  exact isBatchFree_of_mem (fun _ => Text.isBlank_of_mem_spaces) hfirst (by simp) (c := c)
    (by simp [back, hmem]) hc hline

end Columns

/-- The lines of the columns of a table. -/
theorem isBatchFree_columnTexts {text : Column → List Char} {columns : List Column}
    (hsome : columns ≠ []) (hcolumns : ∀ column ∈ columns, ∀ ending, '\n' ∉ ending →
      IsBatchFree (text column ++ ending ++ ['\n'])) :
    IsBatchFree ([',', '\n'].intercalate (columns.map text) ++ ['\n']) := by
  induction columns with
  | nil => exact absurd rfl hsome
  | cons first more ih =>
    obtain ⟨hfirst, hmore⟩ := List.forall_mem_cons.1 hcolumns
    cases more with
    | nil => simpa using hfirst [] (by simp)
    | cons second others =>
      have hall := (hfirst [','] (by decide)).append (ih (by simp) hmore)
      simpa [List.intercalate_cons_cons] using hall

theorem isBatchFree_tableText {tables : List Table} (hlegible : AreLegible tables) {table : Table}
    (hmem : table ∈ tables) : IsBatchFree (tableText table).toList := by
  have hcolumns := hlegible.columns table hmem
  have hsome := hlegible.wellNamed.nonempty table hmem
  obtain ⟨width, htext⟩ := tableText_toList hsome fun column hcolumn =>
    (hcolumns column hcolumn).notVirtual
  have hfirst : IsBatchFree ([] ++ 'C' :: ['R'] ++
      ("EATE TABLE ".toList ++ (quoteName table.name).toList ++ [' ', '(']) ++ ['\n']) := by
    have hname := lineFeed_notMem_quoteName (hlegible.names table hmem).oneLine
    exact isBatchFree_of_mem (by simp) (by decide) (by simp) (c := 'E') (by simp) (by decide)
      (by simp [hname])
  have hlast : IsBatchFree ([')', ';'] ++ ['\n']) := isBatchFree_line (by decide) (by decide)
  have hmiddle := isBatchFree_columnTexts hsome fun column hcolumn ending hending =>
    isBatchFree_columnText (hcolumns column hcolumn) width hending
  rw [htext]
  simpa [Keyword.spelling] using (hfirst.append hmiddle).append hlast

theorem isBatchFree_tableTexts {tables : List Table} (text : Table → List Char)
    (htables : ∀ table ∈ tables, IsBatchFree (text table)) :
    IsBatchFree (['\n'].intercalate (tables.map text)) := by
  have hempty : IsBatchFree ([] ++ ['\n']) := isBatchFree_line (by simp) (by decide)
  exact Text.intercalate_induction isBatchFree_nil
    (fun _ _ hitem hrest => (hitem.append hempty).append hrest) (List.forall_mem_map.2 htables)

/-- Nothing of the text of written base tables is taken for a batch separator. -/
theorem separateBatches_schemaText {schema : Schema} (hlegible : AreLegible schema.tables) :
    separateBatches (schemaText schema).toList = (schemaText schema).toList := by
  have hfree := isBatchFree_tableTexts (fun table => (tableText table).toList)
    fun table hmem => isBatchFree_tableText hlegible hmem
  have hall := hfree []
  rw [List.append_nil, ← schemaText_toList hlegible.noViews] at hall
  exact hall.trans (List.append_nil _)

end Sql

end Crowfoot
