import Crowfoot.Schema.Category
import Mathlib.Data.Finset.Card
import Mathlib.Data.List.Forall2
import Mathlib.Data.List.Induction
import Mathlib.Data.List.TakeWhile

/-!
# Colours by appearance

The colours of the palette are given out while the categories of the tables are
passed over, and the next colour is found by the number of colours given out so
far.  A category thus has the colour at its rank: the number of categories that
appear before it first does.  Nothing else matters, neither what is drawn on the
tables already nor which tables come later.
-/

namespace Crowfoot

/-! ## Ranks of categories -/

/-- The number of different categories in the list before this one first appears. -/
def categoryRank (categories : List String) (category : String) : Nat :=
  (categories.takeWhile fun other => other ≠ category).toFinset.card

section Rank

variable {categories : List String} {category : String}

theorem categoryRank_append (hmem : category ∈ categories) (more : List String) :
    categoryRank (categories ++ more) category = categoryRank categories category := by
  -- the prefix ends in front of the category, within the list
  have hstop : (categories.takeWhile fun other => other ≠ category).length ≠
      categories.length := by
    intro hlength
    have hall := (List.takeWhile_prefix _).eq_of_length hlength
    simpa using List.takeWhile_eq_self_iff.1 hall category hmem
  rw [categoryRank, List.takeWhile_append, if_neg hstop, categoryRank]

theorem categoryRank_concat (hnew : category ∉ categories) :
    categoryRank (categories ++ [category]) category = categories.toFinset.card := by
  have hall : ∀ other ∈ categories, decide (other ≠ category) = true := fun other hmem =>
    decide_eq_true fun hsame => hnew (hsame ▸ hmem)
  rw [categoryRank, List.takeWhile_append_of_pos hall,
    List.takeWhile_cons_of_neg (by simp), List.append_nil]

theorem toFinset_concat (categories : List String) (category : String) :
    (categories ++ [category]).toFinset = insert category categories.toFinset := by
  rw [List.toFinset_append, List.toFinset_cons, List.toFinset_nil, insert_empty_eq,
    Finset.union_comm, ← Finset.insert_eq]

end Rank

namespace CategoryConfig

variable (config : CategoryConfig)

/-! ## The map of colours -/

/-- Each category of the list has the colour at its rank.  There are no other colours. -/
structure IsColorMap (categories : List String) (colors : List (String × String)) : Prop where
  length_eq : colors.length = categories.toFinset.card
  lookup_of_mem : ∀ category ∈ categories,
    colors.lookup category = some (config.colorAt (categoryRank categories category))
  lookup_of_not_mem : ∀ category ∉ categories, colors.lookup category = none

section Step

variable {config} {categories : List String} {colors : List (String × String)}
  (hcolors : config.IsColorMap categories colors) {category : String}

include hcolors

/-- A category that comes again needs no colour. -/
theorem IsColorMap.again (hmem : category ∈ categories) :
    config.IsColorMap (categories ++ [category]) colors where
  length_eq := by
    rw [hcolors.length_eq, toFinset_concat, Finset.insert_eq_of_mem (List.mem_toFinset.2 hmem)]
  lookup_of_mem other hother := by
    have hold : other ∈ categories := by
      rcases List.mem_append.1 hother with hold | hlast
      · exact hold
      · exact List.mem_singleton.1 hlast ▸ hmem
    rw [hcolors.lookup_of_mem other hold, categoryRank_append hold]
  lookup_of_not_mem other hother :=
    hcolors.lookup_of_not_mem other fun hold => hother (List.mem_append_left _ hold)

/-- A new category gets the colour whose place is the number of those before it. -/
theorem IsColorMap.new (hnew : category ∉ categories) :
    config.IsColorMap (categories ++ [category])
      (colors ++ [(category, config.colorAt colors.length)]) where
  length_eq := by
    rw [List.length_append, hcolors.length_eq, toFinset_concat,
      Finset.card_insert_of_notMem (mt List.mem_toFinset.1 hnew), List.length_singleton]
  lookup_of_mem other hother := by
    rw [List.lookup_append]
    by_cases hold : other ∈ categories
    · rw [hcolors.lookup_of_mem other hold, categoryRank_append hold, Option.some_or]
    · have hlast : other = category := by simpa [hold] using hother
      subst hlast
      rw [hcolors.lookup_of_not_mem other hold, Option.none_or, List.lookup_cons_self,
        categoryRank_concat hold, hcolors.length_eq]
  lookup_of_not_mem other hother := by
    obtain ⟨hold, hlast⟩ : other ∉ categories ∧ other ≠ category := by simpa using hother
    rw [List.lookup_append, hcolors.lookup_of_not_mem other hold, Option.none_or,
      List.lookup_cons, beq_false_of_ne hlast, List.lookup_nil]

theorem IsColorMap.addColor (category : String) :
    config.IsColorMap (categories ++ [category]) (config.addColor colors category) := by
  by_cases hmem : category ∈ categories
  · have hkept : config.addColor colors category = colors := by
      rw [CategoryConfig.addColor, hcolors.lookup_of_mem category hmem]
    rw [hkept]
    exact hcolors.again hmem
  · have hadded : config.addColor colors category =
        colors ++ [(category, config.colorAt colors.length)] := by
      rw [CategoryConfig.addColor, hcolors.lookup_of_not_mem category hmem]
    rw [hadded]
    exact hcolors.new hmem

end Step

theorem isColorMap_colorMap (categories : List String) :
    config.IsColorMap categories (config.colorMap categories) := by
  -- the fold meets the last category last
  induction categories using List.reverseRecOn with
  | nil => exact ⟨rfl, fun _ hmem => absurd hmem List.not_mem_nil, fun _ _ => rfl⟩
  | append_singleton categories category ih =>
    rw [colorMap, List.foldl_append]
    exact ih.addColor category

end CategoryConfig

/-! ## Labels of tables -/

/-- The table without its category and colour. -/
def Table.unlabeled (table : Table) : Table :=
  { table with category := "", color := "" }

namespace CategoryConfig

variable (config : CategoryConfig)

/-- The table with its category and the colour of that category. -/
def label (categories : List String) (table : Table) : Table :=
  let category := config.categoryOf table
  { table with category, color := config.colorAt (categoryRank categories category) }

/-- The tables differ in category and colour only, and the second one has the category of the
first and the colour that the palette, begun again where it ends, has at the rank of that
category.  An empty palette leaves one colour for all. -/
structure IsLabeled (categories : List String) (table labeled : Table) : Prop where
  unlabeled_eq : labeled.unlabeled = table.unlabeled
  category_eq : labeled.category = config.categoryOf table
  color_of_palette : config.palette ≠ [] →
    config.palette[categoryRank categories labeled.category % config.palette.length]? =
      some labeled.color
  color_of_nil : config.palette = [] → labeled.color = "#888888"

theorem palette_getElem? (hsome : config.palette ≠ []) (index : Nat) :
    config.palette[index % config.palette.length]? = some (config.colorAt index) := by
  have hlt := Nat.mod_lt index (List.length_pos_of_ne_nil hsome)
  rw [colorAt, List.getElem?_eq_getElem hlt, Option.getD_some]

theorem colorAt_of_nil (hnil : config.palette = []) (index : Nat) :
    config.colorAt index = "#888888" := by
  rw [colorAt, hnil, List.getElem?_nil, Option.getD_none, plainColor]

theorem isLabeled_iff {categories : List String} {table labeled : Table} :
    config.IsLabeled categories table labeled ↔ config.label categories table = labeled := by
  constructor
  · intro hlabeled
    have hcolor : labeled.color = config.colorAt (categoryRank categories labeled.category) := by
      by_cases hnil : config.palette = []
      · rw [hlabeled.color_of_nil hnil, config.colorAt_of_nil hnil]
      · have hpalette := hlabeled.color_of_palette hnil
        rw [config.palette_getElem? hnil] at hpalette
        exact (Option.some.inj hpalette).symm
    symm
    calc
      labeled = { labeled.unlabeled with
          category := labeled.category, color := labeled.color } := rfl
      _ = config.label categories table := by
        rw [hcolor, hlabeled.unlabeled_eq, hlabeled.category_eq]
        rfl
  · rintro rfl
    exact ⟨rfl, rfl, fun hsome => config.palette_getElem? hsome _,
      fun hnil => config.colorAt_of_nil hnil _⟩

theorem forall₂_isLabeled_iff {categories : List String} {tables labeled : List Table} :
    List.Forall₂ (config.IsLabeled categories) tables labeled ↔
      tables.map (config.label categories) = labeled := by
  have hrelation : config.IsLabeled categories =
      fun table labeled => config.label categories table = labeled := by
    funext table labeled
    exact propext config.isLabeled_iff
  rw [← List.forall₂_eq_eq_eq, List.forall₂_map_left_iff, hrelation]

/-! ## Assigned labels -/

theorem assign_eq_map_label (tables : List Table) :
    config.assign tables = tables.map (config.label (tables.map config.categoryOf)) := by
  apply List.map_congr_left
  intro table hmem
  have hlookup := (config.isColorMap_colorMap (tables.map config.categoryOf)).lookup_of_mem
    (config.categoryOf table) (List.mem_map_of_mem hmem)
  dsimp only
  rw [hlookup, label, Option.getD_some]

theorem map_unlabeled_assign (tables : List Table) :
    (config.assign tables).map Table.unlabeled = tables.map Table.unlabeled := by
  rw [assign, List.map_map]
  rfl

theorem assign_map_unlabeled (tables : List Table) :
    config.assign (tables.map Table.unlabeled) = config.assign tables := by
  have hcategories : (tables.map Table.unlabeled).map config.categoryOf =
      tables.map config.categoryOf := by
    rw [List.map_map]
    rfl
  rw [assign, assign, hcategories, List.map_map]
  rfl

/-- Categories and colours that the tables have already do not matter. -/
theorem assign_congr {left right : List Table}
    (hsame : left.map Table.unlabeled = right.map Table.unlabeled) :
    config.assign left = config.assign right := by
  rw [← assign_map_unlabeled, hsame, assign_map_unlabeled]

/-- More tables at the end give no earlier category another rank. -/
theorem assign_prefix_assign_append (tables more : List Table) :
    config.assign tables <+: config.assign (tables ++ more) := by
  rw [assign_eq_map_label, assign_eq_map_label, List.map_append, List.map_append]
  refine ⟨_, congrArg (· ++ _) (List.map_congr_left fun table hmem => ?_)⟩
  rw [label, label, categoryRank_append (List.mem_map_of_mem hmem)]

/-- The categories of tables get the colours of the palette in the order in which they first
appear, and this says all about the tables that come out.  So it does not matter which
categories and colours the tables had, a second assignment changes nothing, and tables at the
end leave those in front of them as they are. -/
theorem assign_colorsByAppearance (tables : List Table) :
    (∀ labeled, labeled = config.assign tables ↔
      List.Forall₂ (config.IsLabeled (tables.map config.categoryOf)) tables labeled) ∧
    (∀ others : List Table, others.map Table.unlabeled = tables.map Table.unlabeled →
      config.assign others = config.assign tables) ∧
    config.assign (config.assign tables) = config.assign tables ∧
    ∀ more, config.assign tables <+: config.assign (tables ++ more) := by
  refine ⟨fun labeled => ?_, fun others hsame => config.assign_congr hsame,
    config.assign_congr (config.map_unlabeled_assign tables),
    config.assign_prefix_assign_append tables⟩
  rw [forall₂_isLabeled_iff, assign_eq_map_label]
  exact eq_comm

/-- Two colours for four rules, two of which share a category and two of which have that of
the views or of tables without a rule. -/
def sharedCategories : CategoryConfig where
  palette := ["#000001", "#000002"]
  rules := [⟨"Views", ["log"]⟩, ⟨"People", ["user"]⟩, ⟨"People", ["member"]⟩, ⟨"Rest", ["post"]⟩]
  viewCategory := "Views"
  fallbackCategory := "Rest"

/-- Tables of which some are labeled already. -/
def drawnTables : List Table :=
  [{ name := "Members", category := "Rest", color := "#4F86F7" },
    { name := "recent", isView := true, category := "People" },
    { name := "posts", color := "#000002" }, { name := "audit_log" }, { name := "users" }]

/-- The same tables without labels. -/
def freshTables : List Table :=
  [{ name := "Members" }, { name := "recent", isView := true }, { name := "posts" },
    { name := "audit_log" }, { name := "users" }]

theorem assign_drawnTables :
    drawnTables.map Table.unlabeled = freshTables.map Table.unlabeled ∧
      sharedCategories.assign drawnTables = sharedCategories.assign freshTables ∧
      (sharedCategories.assign freshTables).map (fun table => (table.category, table.color)) =
        [("People", "#000001"), ("Views", "#000002"), ("Rest", "#000001"), ("Views", "#000002"),
          ("People", "#000001")] := by
  have hsame : drawnTables.map Table.unlabeled = freshTables.map Table.unlabeled := rfl
  obtain ⟨-, hcongr, -, -⟩ := sharedCategories.assign_colorsByAppearance freshTables
  exact ⟨hsame, hcongr drawnTables hsame, by decide⟩

end CategoryConfig

end Crowfoot
