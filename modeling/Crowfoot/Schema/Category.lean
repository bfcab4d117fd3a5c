import Crowfoot.Schema.Table
import Crowfoot.Text.Blank
import Crowfoot.Text.Case

/-!
# Categories

Tables are sorted into categories by keywords in their names, and every category gets a colour of
the palette in the order in which the categories first appear.
-/

namespace Crowfoot

/-- A category and the words that put a table into it. -/
structure CategoryRule where
  name : String
  /-- Parts of a table's name in lower case. -/
  keywords : List String
  deriving DecidableEq, Repr

/-- The rules of categories and the colours they are shown in. -/
structure CategoryConfig where
  palette : List String
  rules : List CategoryRule
  viewCategory : String
  fallbackCategory : String
  deriving DecidableEq, Repr

/-- Some keyword is part of the name. -/
def CategoryRule.admits (rule : CategoryRule) (lowerName : List Char) : Bool :=
  rule.keywords.any fun keyword => Text.contains keyword.toList lowerName

namespace CategoryConfig

/-- The built-in categories. -/
def standard : CategoryConfig where
  palette :=
    ["#4F86F7", "#F76C5E", "#50C878", "#FFB347", "#9B59B6", "#1ABC9C", "#E67E22", "#3498DB",
      "#E84393", "#95A5A6", "#2ECC71", "#F1C40F", "#00B8D4", "#C0392B", "#7F8C8D"]
  rules :=
    [⟨"Users & Auth",
        ["user", "account", "auth", "role", "permission", "session", "profile", "member",
          "login"]⟩,
      ⟨"Commerce",
        ["order", "product", "cart", "payment", "invoice", "price", "customer", "shipping",
          "discount", "coupon"]⟩,
      ⟨"Inventory", ["inventory", "stock", "warehouse", "supplier", "vendor", "item"]⟩,
      ⟨"Content",
        ["post", "comment", "article", "page", "media", "tag", "blog", "review", "category"]⟩,
      ⟨"Messaging", ["message", "notification", "email", "chat", "thread"]⟩,
      ⟨"Analytics", ["log", "event", "metric", "audit", "stat", "report", "history"]⟩,
      ⟨"Organization",
        ["company", "department", "employee", "team", "organization", "project", "task"]⟩,
      ⟨"Location", ["address", "country", "city", "region", "location"]⟩]
  viewCategory := "Views"
  fallbackCategory := "General"

/-- The colour of every category when the palette is empty. -/
def plainColor : String := "#888888"

/-- The category of a table: the first rule that admits its name. -/
def categoryOf (config : CategoryConfig) (table : Table) : String :=
  if table.isView then
    config.viewCategory
  else
    let lowerName := Text.lower table.name.toList
    match config.rules.find? (·.admits lowerName) with
    | some rule => rule.name
    | none => config.fallbackCategory

/-- The colour of the category at a place in the order of appearance; the palette repeats. -/
def colorAt (config : CategoryConfig) (index : Nat) : String :=
  (config.palette[index % config.palette.length]?).getD plainColor

/-- Gives a category the next colour, unless it has one. -/
def addColor (config : CategoryConfig) (colors : List (String × String)) (category : String) :
    List (String × String) :=
  match colors.lookup category with
  | some _ => colors
  | none => colors ++ [(category, config.colorAt colors.length)]

/-- The colours of categories, given out as the categories first appear. -/
def colorMap (config : CategoryConfig) (categories : List String) : List (String × String) :=
  categories.foldl config.addColor []

/-- Gives every table its category and that category's colour. -/
def assign (config : CategoryConfig) (tables : List Table) : List Table :=
  let colors := config.colorMap (tables.map config.categoryOf)
  tables.map fun table =>
    let category := config.categoryOf table
    { table with category, color := (colors.lookup category).getD "" }

end CategoryConfig

end Crowfoot
