import Crowfoot.Sql.Script

/-!
# Phrases

The small parts that statements are made of: optional words, names, parenthesised groups and lists
of names. A reader takes lexemes and gives back those it leaves.
-/

namespace Crowfoot.Sql

/-- The first lexeme carries the token. -/
def startsWith (token : Token) (lexemes : List Lexeme) : Bool :=
  lexemes.head?.any fun lexeme => lexeme.token = token

/-- Leaves out the first lexeme if its token passes the test. -/
def skipWhen (test : Token → Bool) : List Lexeme → List Lexeme
  | [] => []
  | lexeme :: rest => if test lexeme.token then rest else lexeme :: rest

/-- Leaves out a keyword if it comes first. -/
def skipKeyword (keyword : Keyword) (lexemes : List Lexeme) : List Lexeme :=
  skipWhen (· = .keyword keyword) lexemes

/-- Leaves out one of some words if it comes first. -/
def skipOneOf (words : List String) (lexemes : List Lexeme) : List Lexeme :=
  skipWhen (Token.isOneOf words) lexemes

/-- What follows a token that has to come first. -/
def expect? (token : Token) : List Lexeme → Option (List Lexeme)
  | [] => none
  | lexeme :: rest => if lexeme.token = token then some rest else none

/-- What follows a keyword that has to come first. -/
def expectKeyword? (keyword : Keyword) (lexemes : List Lexeme) : Option (List Lexeme) :=
  expect? (.keyword keyword) lexemes

/-- Reads a name. -/
def readName? : List Lexeme → Option (String × List Lexeme)
  | [] => none
  | lexeme :: rest => lexeme.name?.map (·, rest)

/-- Leaves out a name if one comes first. -/
def skipName (lexemes : List Lexeme) : List Lexeme :=
  match readName? lexemes with
  | some (_, rest) => rest
  | none => lexemes

/-- Goes on reading a qualified name after its first part; the last part counts. -/
def readQualification (name : String) : List Lexeme → String × List Lexeme
  | [] => (name, [])
  | [lexeme] => if lexeme.token = .dot then (name, []) else (name, [lexeme])
  | lexeme :: next :: rest =>
    if lexeme.token = .dot then
      match next.name? with
      | some part => readQualification part rest
      | none => (name, next :: rest)
    else
      (name, lexeme :: next :: rest)

/-- Reads a name with any number of qualifiers and keeps its last part. -/
def readQualifiedName? (lexemes : List Lexeme) : Option (String × List Lexeme) :=
  (readName? lexemes).map fun (name, rest) => readQualification name rest

/-- Cuts the inside of a group off, the given number of parentheses being open in it. -/
def closeGroup? (depth : Nat) : List Lexeme → Option (List Lexeme × List Lexeme)
  | [] => none
  | lexeme :: rest =>
    if lexeme.token = .rightParen ∧ depth = 0 then
      some ([], rest)
    else
      (closeGroup? (lexeme.token.depthAfter depth) rest).map fun (inner, after) =>
        (lexeme :: inner, after)

/-- Reads a group in parentheses: what stands inside and what follows. -/
def readGroup? (lexemes : List Lexeme) : Option (List Lexeme × List Lexeme) :=
  (expect? .leftParen lexemes).bind (closeGroup? 0)

/-- Leaves out a group, or everything if the group is not closed, or else one lexeme. -/
def skipGroup (lexemes : List Lexeme) : List Lexeme :=
  if startsWith .leftParen lexemes then
    match readGroup? lexemes with
    | some (_, rest) => rest
    | none => []
  else
    lexemes.tail

/-- Leaves out a group if one comes first. -/
def skipOptionalGroup (lexemes : List Lexeme) : List Lexeme :=
  if startsWith .leftParen lexemes then skipGroup lexemes else lexemes

/-- Reads a list of names in parentheses; anything else is an empty list. The first lexeme of each
item counts. -/
def readNameList (lexemes : List Lexeme) : List String × List Lexeme :=
  match readGroup? lexemes with
  | some (inner, rest) =>
    ((splitCommas inner).filterMap fun item => item.head?.bind Lexeme.name?, rest)
  | none => ([], lexemes)

/-- Reads up to the first lexeme outside of parentheses that passes the test. -/
def readUntil (stop : Token → Bool) (depth : Nat) : List Lexeme → List Lexeme × List Lexeme
  | [] => ([], [])
  | lexeme :: rest =>
    if depth = 0 ∧ stop lexeme.token then
      ([], lexeme :: rest)
    else
      let (front, after) := readUntil stop (lexeme.token.depthAfter depth) rest
      (lexeme :: front, after)

/-- Leaves out `IF [NOT] [EXISTS]`. -/
def skipIfNotExists (lexemes : List Lexeme) : List Lexeme :=
  match expectKeyword? .ifClause lexemes with
  | some rest => skipKeyword .existsClause (skipKeyword .not rest)
  | none => lexemes

theorem skipWhen_length_le (test : Token → Bool) (lexemes : List Lexeme) :
    (skipWhen test lexemes).length ≤ lexemes.length := by
  cases lexemes with
  | nil => simp [skipWhen]
  | cons lexeme rest => rw [skipWhen]; split <;> simp

theorem expect?_length {token : Token} {lexemes rest : List Lexeme}
    (hread : expect? token lexemes = some rest) : rest.length < lexemes.length := by
  cases lexemes with
  | nil => simp [expect?] at hread
  | cons lexeme tail =>
    simp only [expect?] at hread
    split at hread <;> simp_all

theorem readName?_length {lexemes rest : List Lexeme} {name : String}
    (hread : readName? lexemes = some (name, rest)) : rest.length < lexemes.length := by
  cases lexemes with
  | nil => simp [readName?] at hread
  | cons lexeme tail =>
    simp only [readName?, Option.map_eq_some_iff, Prod.mk.injEq] at hread
    obtain ⟨_, _, _, rfl⟩ := hread
    simp

theorem skipName_length_le (lexemes : List Lexeme) :
    (skipName lexemes).length ≤ lexemes.length := by
  unfold skipName
  split
  · rename_i hread
    exact Nat.le_of_lt (readName?_length hread)
  · exact Nat.le_refl _

theorem readQualification_length_le (name : String) (lexemes : List Lexeme) :
    (readQualification name lexemes).2.length ≤ lexemes.length := by
  fun_induction readQualification name lexemes <;> simp_all
  omega

theorem readQualifiedName?_length {lexemes rest : List Lexeme} {name : String}
    (hread : readQualifiedName? lexemes = some (name, rest)) : rest.length < lexemes.length := by
  simp only [readQualifiedName?, Option.map_eq_some_iff] at hread
  obtain ⟨⟨first, after⟩, hname, hqualified⟩ := hread
  have hshort := readName?_length hname
  have hle := readQualification_length_le first after
  rw [hqualified] at hle
  exact Nat.lt_of_le_of_lt hle hshort

theorem closeGroup?_length {depth : Nat} {lexemes inner rest : List Lexeme}
    (hread : closeGroup? depth lexemes = some (inner, rest)) : rest.length < lexemes.length := by
  fun_induction closeGroup? depth lexemes generalizing inner rest with
  | case1 => simp at hread
  | case2 => simp_all
  | case3 depth lexeme tail hne ih =>
    simp only [Option.map_eq_some_iff, Prod.mk.injEq, Prod.exists] at hread
    obtain ⟨first, after, hclose, _, rfl⟩ := hread
    have := ih hclose
    simp only [List.length_cons]
    omega

theorem readGroup?_length {lexemes inner rest : List Lexeme}
    (hread : readGroup? lexemes = some (inner, rest)) : rest.length < lexemes.length := by
  simp only [readGroup?, Option.bind_eq_some_iff] at hread
  obtain ⟨after, hparen, hclose⟩ := hread
  exact Nat.lt_trans (closeGroup?_length hclose) (expect?_length hparen)

theorem readNameList_length_le (lexemes : List Lexeme) :
    (readNameList lexemes).2.length ≤ lexemes.length := by
  unfold readNameList
  split
  · rename_i hread
    exact Nat.le_of_lt (readGroup?_length hread)
  · exact Nat.le_refl _

/-- A group takes at least one lexeme with it. -/
theorem skipGroup_length_le (lexeme : Lexeme) (rest : List Lexeme) :
    (skipGroup (lexeme :: rest)).length ≤ rest.length := by
  unfold skipGroup
  split
  · split
    · rename_i hread
      have := readGroup?_length hread
      simp only [List.length_cons] at this
      omega
    · simp
  · simp

theorem skipOptionalGroup_length_le (lexemes : List Lexeme) :
    (skipOptionalGroup lexemes).length ≤ lexemes.length := by
  unfold skipOptionalGroup
  split
  · cases lexemes with
    | nil => simp [skipGroup, startsWith]
    | cons lexeme rest =>
      have := skipGroup_length_le lexeme rest
      simp only [List.length_cons]
      omega
  · exact Nat.le_refl _

end Crowfoot.Sql
