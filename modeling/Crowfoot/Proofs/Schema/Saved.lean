import Crowfoot.Proofs.Json.Values
import Crowfoot.Schema.Json

/-!
# Schemas saved and loaded

Loading undoes saving: a schema that is written as JSON is read back as the same
schema, whatever its names, types, colours and categories say, and with the same
references, sources and cardinalities, present or not.  The tables stand where the
readers of scripts and diagrams put them, at the origin, of either sign.
-/

namespace Crowfoot

open Json

namespace Json

/-! ## Records -/

section Records

variable {members : List (String × Value)}

theorem head?_valuesOf (members : List (String × Value)) (key : String) :
    (valuesOf (members.map fun member => (some member.1, member.2)) key).head? =
      members.lookup key := by
  induction members with
  | nil => rfl
  | cons member more ih =>
    obtain ⟨name, value⟩ := member
    rw [List.lookup_cons, ← ih, valuesOf, valuesOf, List.map_cons, List.filter_cons]
    by_cases hkey : name = key
    · simp [hkey]
    · have hother : (key == name) = false := by simpa using Ne.symm hkey
      simp [hkey, hother]

theorem length_valuesOf_le (hdistinct : (members.map Prod.fst).Nodup) (key : String) :
    (valuesOf (members.map fun member => (some member.1, member.2)) key).length ≤ 1 := by
  have hcount : (valuesOf (members.map fun member => (some member.1, member.2)) key).length =
      (members.map Prod.fst).count key := by
    rw [valuesOf, List.length_map, List.filter_map, List.length_map, List.count, List.countP_map,
      List.countP_eq_length_filter]
    rfl
  rw [hcount]
  exact List.nodup_iff_count.1 hdistinct key

/-- A record whose keys differ has the fields that are written in it. -/
theorem fields?_record (hdistinct : (members.map Prod.fst).Nodup) (keys : List String) :
    (Value.record members).fields? keys = some (keys.map fun key => members.lookup key) := by
  have hsome : ((members.map fun member => ((some member.1 : Content), member.2)).all
      fun member => member.1.isSome) = true := by
    simp
  have honce : (keys.all fun key =>
      (valuesOf (members.map fun member => (some member.1, member.2)) key).length ≤ 1) = true := by
    rw [List.all_eq_true]
    intro key _
    simpa using length_valuesOf_le hdistinct key
  rw [Value.record, Value.fields?]
  simp only [hsome, honce, Bool.and_self, if_true, head?_valuesOf]

/-- A record that is written with some of its keys in order has the fields that are
written in it. -/
theorem fields?_of_sublist {keys : List String} (hkeys : (members.map Prod.fst).Sublist keys)
    (hdistinct : keys.Nodup) :
    (Value.record members).fields? keys = some (keys.map fun key => members.lookup key) :=
  fields?_record (hkeys.nodup hdistinct) keys

end Records

theorem map_fst_optionalMember {α : Type} (key : String) (encode : α → Value) (value : Option α) :
    ((optionalMember key encode value).map Prod.fst).Sublist [key] := by
  cases value with
  | none => exact List.nil_sublist _
  | some present => exact .refl _

theorem lookup_optionalMember {α : Type} (key : String) (encode : α → Value) (value : Option α)
    (name : String) :
    (optionalMember key encode value).lookup name =
      if name == key then value.map encode else none := by
  cases value with
  | none => simp [optionalMember]
  | some present =>
    rw [optionalMember, Option.map_some, Option.toList_some, List.lookup_cons]
    cases name == key <;> rfl

theorem optional?_map {α : Type} {decode? : Value → Option α} {encode : α → Value}
    (hdecode : ∀ present, decode? (encode present) = some present)
    (hnull : ∀ present, encode present ≠ .null) (value : Option α) :
    optional? decode? (value.map encode) = some value := by
  cases value with
  | none => rfl
  | some present =>
    rw [Option.map_some, optional?.eq_def]
    split
    · simp_all
    · rename_i heq
      exact absurd (Option.some.inj heq) (hnull present)
    · rename_i heq
      rw [← Option.some.inj heq, hdecode]
      rfl

theorem forall_mem_optionalMember {α : Type} {P : Value → Prop} {encode : α → Value}
    (hencode : ∀ present, P (encode present)) (key : String) (value : Option α) :
    ∀ member ∈ optionalMember key encode value, P member.2 := by
  cases value with
  | none => exact List.forall_mem_nil _
  | some present => exact List.forall_mem_singleton.2 (hencode present)

/-- Items that are each read back are read back as a list. -/
theorem list?_map {α : Type} {decode? : Value → Option α} {encode : α → Value} {items : List α}
    (hdecode : ∀ item ∈ items, decode? (encode item) = some item) :
    Value.list? decode? (.array (items.map encode)) = some items := by
  rw [Value.list?]
  induction items with
  | nil => rfl
  | cons item more ih =>
    obtain ⟨hitem, hmore⟩ := List.forall_mem_cons.1 hdecode
    rw [List.map_cons, List.mapM_cons, hitem, ih hmore]
    rfl

end Json

theorem Nullability.ofName?_name (nullability : Nullability) :
    ofName? nullability.name = some nullability := by
  cases nullability <;> rfl

theorem Format.ofExactName?_name (format : Format) : ofExactName? format.name = some format := by
  cases format <;> rfl

/-! ## References and columns -/

namespace ColumnReference

theorem fields?_toValue (reference : ColumnReference) :
    reference.toValue.fields? keys =
      some [some (.text reference.table), some (.text reference.column),
        reference.cardinality.map fun cardinality => .text cardinality.text] := by
  rw [toValue, fields?_of_sublist _ (by decide)]
  · simp [keys, lookup_optionalMember, List.lookup_cons]
  · rw [List.map_append]
    exact (List.Sublist.refl _).append (map_fst_optionalMember _ _ _)

theorem ofValue?_toValue (reference : ColumnReference) :
    ofValue? reference.toValue = some reference := by
  have hcardinality : optional? (fun value => value.string?.bind Cardinality.ofText?)
      (reference.cardinality.map fun cardinality => .text cardinality.text) =
        some reference.cardinality := by
    apply optional?_map
    · exact Cardinality.ofText?_text
    · exact fun cardinality => nofun
  rw [ofValue?, fields?_toValue]
  simp only [Option.bind_eq_bind, Option.bind_some, hcardinality]
  rfl

theorem isSound_toValue (reference : ColumnReference) : reference.toValue.IsSound := by
  apply Value.IsSound.record
  rw [List.forall_mem_append, List.forall_mem_cons, List.forall_mem_singleton]
  refine ⟨⟨.text _, .text _⟩, ?_⟩
  exact forall_mem_optionalMember (fun cardinality => .text cardinality.text) _ _

end ColumnReference

namespace Column

theorem fields?_toValue (column : Column) :
    column.toValue.fields? keys =
      some [some (.text column.name), some (.text column.type), some (.bool column.isPrimaryKey),
        some (.bool column.isUnique), some (.bool column.isForeignKey),
        some (.text column.nullability.name), column.references.map ColumnReference.toValue,
        column.sourceTable.map .text, column.sourceColumn.map .text] := by
  rw [toValue, fields?_of_sublist _ (by decide)]
  · simp [keys, List.lookup_append, lookup_optionalMember, List.lookup_cons]
  · rw [List.map_append, List.map_append, List.map_append]
    exact (((List.Sublist.refl _).append (map_fst_optionalMember _ _ _)).append
      (map_fst_optionalMember _ _ _)).append (map_fst_optionalMember _ _ _)

theorem ofValue?_toValue (column : Column) : ofValue? column.toValue = some column := by
  have hreferences : optional? ColumnReference.ofValue?
      (column.references.map ColumnReference.toValue) = some column.references :=
    optional?_map ColumnReference.ofValue?_toValue (fun reference => nofun) _
  have hsource (source : Option String) :
      optional? Value.string? (source.map .text) = some source := by
    apply optional?_map
    · exact fun name => rfl
    · exact fun name => nofun
  have hnullability : defaulted? .unknown (fun value => value.case?.bind Nullability.ofName?)
      (some (.text column.nullability.name)) = some column.nullability :=
    Nullability.ofName?_name column.nullability
  rw [ofValue?, fields?_toValue]
  simp only [Option.bind_eq_bind, Option.bind_some, hnullability, hreferences, hsource]
  rfl

theorem isSound_toValue (column : Column) : column.toValue.IsSound := by
  apply Value.IsSound.record
  simp only [List.forall_mem_append, List.forall_mem_cons]
  refine ⟨⟨⟨⟨.text _, .text _, .bool _, .bool _, .bool _, .text _, List.forall_mem_nil _⟩, ?_⟩, ?_⟩, ?_⟩
  · exact forall_mem_optionalMember ColumnReference.isSound_toValue _ _
  · exact forall_mem_optionalMember .text _ _
  · exact forall_mem_optionalMember .text _ _

end Column

/-! ## Points -/

namespace Point

/-- Every coordinate is zero, of either sign. -/
def IsZero (point : Point) : Prop :=
  ∀ coordinate ∈ [point.x, point.y, point.z], coordinate = 0.0 ∨ coordinate = -0.0

theorem isZero_origin : IsZero origin := by
  intro coordinate hmem
  left
  simpa [origin] using hmem

end Point

namespace Json

/-- Zero is written as a zero with one place. -/
theorem ofFloat_zero {coordinate : Float} (hzero : coordinate = 0.0 ∨ coordinate = -0.0) :
    ∃ isNegative, Value.ofFloat coordinate =
      .number { isNegative, whole := ['0'], fraction := some ['0'] } := by
  rcases hzero with rfl | rfl
  · exact ⟨false, rfl⟩
  · exact ⟨true, rfl⟩

theorem isSound_ofFloat {coordinate : Float} (hzero : coordinate = 0.0 ∨ coordinate = -0.0) :
    (Value.ofFloat coordinate).IsSound := by
  obtain ⟨isNegative, htext⟩ := ofFloat_zero hzero
  have hdigits : AreDigits ['0'] := ⟨List.cons_ne_nil _ _, List.forall_mem_singleton.2 rfl⟩
  rw [htext]
  exact .number ⟨hdigits, .inl rfl, fun digits hmem => Option.some.inj hmem ▸ hdigits, nofun⟩

theorem float?_ofFloat {coordinate : Float} (hzero : coordinate = 0.0 ∨ coordinate = -0.0) :
    (Value.ofFloat coordinate).float? = some coordinate := by
  rcases hzero with rfl | rfl <;> rfl

end Json

namespace Point

theorem ofValue?_toValue {point : Point} (hzero : point.IsZero) :
    ofValue? point.toValue = some point := by
  simp only [IsZero, List.forall_mem_cons] at hzero
  obtain ⟨hx, hy, hz, -⟩ := hzero
  simp only [toValue, ofValue?, float?_ofFloat hx, float?_ofFloat hy, float?_ofFloat hz]
  rfl

theorem isSound_toValue {point : Point} (hzero : point.IsZero) : point.toValue.IsSound := by
  apply Value.IsSound.array
  simp only [IsZero, List.forall_mem_cons] at hzero ⊢
  obtain ⟨hx, hy, hz, -⟩ := hzero
  exact ⟨isSound_ofFloat hx, isSound_ofFloat hy, isSound_ofFloat hz, List.forall_mem_nil _⟩

end Point

/-! ## Tables and schemas -/

namespace Table

theorem fields?_toValue (table : Table) :
    table.toValue.fields? keys =
      some [some (.text table.name), some (.array (table.columns.map Column.toValue)),
        some table.position.toValue, some (.text table.color), some (.text table.category),
        some (.bool table.isView)] := by
  rw [toValue, fields?_of_sublist _ (by decide)]
  · simp [keys, List.lookup_cons]
  · exact .refl _

theorem ofValue?_toValue {table : Table} (hzero : table.position.IsZero) :
    ofValue? table.toValue = some table := by
  have hcolumns : required? (Value.list? Column.ofValue?)
      (some (.array (table.columns.map Column.toValue))) = some table.columns :=
    list?_map fun column _ => Column.ofValue?_toValue column
  have hposition : defaulted? Point.origin Point.ofValue? (some table.position.toValue) =
      some table.position :=
    Point.ofValue?_toValue hzero
  rw [ofValue?, fields?_toValue]
  simp only [Option.bind_eq_bind, Option.bind_some, hcolumns, hposition]
  rfl

theorem isSound_toValue {table : Table} (hzero : table.position.IsZero) :
    table.toValue.IsSound := by
  have hcolumns : (Value.array (table.columns.map Column.toValue)).IsSound :=
    .array (List.forall_mem_map.2 fun column _ => column.isSound_toValue)
  apply Value.IsSound.record
  simp only [List.forall_mem_cons]
  exact ⟨.text _, hcolumns, Point.isSound_toValue hzero, .text _, .text _, .bool _,
    List.forall_mem_nil _⟩

end Table

namespace Schema

theorem fields?_toValue (schema : Schema) :
    schema.toValue.fields? keys =
      some [some (.text schema.name), some (.text schema.format.name),
        some (.array (schema.tables.map Table.toValue))] := by
  rw [toValue, fields?_of_sublist _ (by decide)]
  · simp [keys, List.lookup_cons]
  · exact .refl _

section Saved

variable {schema : Schema} (hzero : ∀ table ∈ schema.tables, table.position.IsZero)

include hzero

theorem ofValue?_toValue : ofValue? schema.toValue = some schema := by
  have hformat : required? (fun value => value.case?.bind Format.ofExactName?)
      (some (.text schema.format.name)) = some schema.format :=
    Format.ofExactName?_name schema.format
  have htables : required? (Value.list? Table.ofValue?)
      (some (.array (schema.tables.map Table.toValue))) = some schema.tables :=
    list?_map fun table hmem => Table.ofValue?_toValue (hzero table hmem)
  rw [ofValue?, fields?_toValue]
  simp only [Option.bind_eq_bind, Option.bind_some, hformat, htables]
  rfl

theorem isSound_toValue : schema.toValue.IsSound := by
  have htables : (Value.array (schema.tables.map Table.toValue)).IsSound :=
    .array (List.forall_mem_map.2 fun table hmem => Table.isSound_toValue (hzero table hmem))
  apply Value.IsSound.record
  simp only [List.forall_mem_cons]
  exact ⟨.text _, .text _, htables, List.forall_mem_nil _⟩

/-- A saved schema is loaded as it was. -/
theorem ofJson?_toJson : ofJson? schema.toJson = some schema := by
  rw [ofJson?, toJson, Value.ofText?_compact (isSound_toValue hzero), Option.bind_some,
    ofValue?_toValue hzero]

end Saved

/-- A schema with text that has to be escaped, with what may be left out and without it. -/
def savedSchema : Schema where
  name := "a \"quoted\" \\ \n\x01\x7f é 😀"
  format := .mermaid
  tables :=
    [{ name := "", color := "#4F86F7", category := "\t/",
       columns := [{ name := "id", type := "INT", isPrimaryKey := true, nullability := .notNull }] },
      { name := "v", isView := true,
        columns :=
        [{ name := "a", type := "\u2028", isUnique := true, isForeignKey := true,
           nullability := .nullable,
           references := some ⟨"t", "id", some ⟨.zeroOrOne, .oneOrMany⟩⟩,
           sourceTable := some "", sourceColumn := some "null" },
          { name := "b", type := "", references := some ⟨"t", "id", none⟩ }] }]

theorem ofJson?_toJson_savedSchema :
    (∀ table ∈ savedSchema.tables, table.position.IsZero) ∧
      ofJson? savedSchema.toJson = some savedSchema := by
  have hzero : ∀ table ∈ savedSchema.tables, table.position.IsZero := by
    simp only [savedSchema, List.forall_mem_cons]
    exact ⟨Point.isZero_origin, Point.isZero_origin, List.forall_mem_nil _⟩
  exact ⟨hzero, ofJson?_toJson hzero⟩

end Schema

end Crowfoot
