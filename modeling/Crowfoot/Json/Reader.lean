import Crowfoot.Json.Text
import Crowfoot.Json.Value

/-!
# Reading JSON

Strict JSON: nothing follows the value but blanks, no comma is left over, and numbers have no
leading zeros. Readers give back the rest of the text, which is shorter than what they were given.
-/

namespace Crowfoot.Json

/-- The texts shorter than a text. -/
abbrev Shorter (text : List Char) : Type :=
  { rest : List Char // rest.length < text.length }

/-- The blanks of JSON. -/
def isSpace (c : Char) : Bool :=
  c == ' ' || c == '\n' || c == '\t' || c == '\r'

/-- Leaves out blanks. -/
def skipSpace (text : List Char) : List Char :=
  text.dropWhile isSpace

theorem skipSpace_length_le (text : List Char) : (skipSpace text).length ≤ text.length :=
  (List.dropWhile_sublist isSpace).length_le

/-- Reads one or more digits. -/
def readDigits? (text : List Char) : Option (List Char × List Char) :=
  let digits := text.takeWhile Char.isDigit
  if digits.isEmpty then none else some (digits, text.dropWhile Char.isDigit)

/-- Reads the digits in front of a point: a zero, or digits that start with none. -/
def readWhole? (text : List Char) : Option (List Char × List Char) :=
  (readDigits? text).filter fun (digits, _) => digits.length = 1 || digits.head? != some '0'

/-- Reads a point and digits, if there is a point. -/
def readFraction? (text : List Char) : Option (Option (List Char) × List Char) :=
  match text with
  | '.' :: rest => (readDigits? rest).map fun (digits, after) => (some digits, after)
  | _ => some (none, text)

/-- Reads an exponent, if there is one. -/
def readExponent? (text : List Char) : Option (Option (Bool × List Char) × List Char) :=
  let signed (isNegative : Bool) (rest : List Char) :
      Option (Option (Bool × List Char) × List Char) :=
    (readDigits? rest).map fun (digits, after) => (some (isNegative, digits), after)
  let afterMark (rest : List Char) : Option (Option (Bool × List Char) × List Char) :=
    match rest with
    | '+' :: after => signed false after
    | '-' :: after => signed true after
    | _ => signed false rest
  match text with
  | 'e' :: rest => afterMark rest
  | 'E' :: rest => afterMark rest
  | _ => some (none, text)

/-- Reads a number. -/
def readNumeral? (text : List Char) : Option (Numeral × List Char) := do
  let isNegative := text.head? = some '-'
  let (whole, afterWhole) ← readWhole? (if isNegative then text.tail else text)
  let (fraction, afterFraction) ← readFraction? afterWhole
  let (exponent, rest) ← readExponent? afterFraction
  return ({ isNegative, whole, fraction, exponent }, rest)

theorem readDigits?_length {text digits rest : List Char}
    (hread : readDigits? text = some (digits, rest)) : rest.length < text.length := by
  simp only [readDigits?] at hread
  split at hread
  · simp at hread
  · rename_i hsome
    simp only [Option.some.injEq, Prod.mk.injEq] at hread
    obtain ⟨rfl, rfl⟩ := hread
    have hsplit := congrArg List.length
      (List.takeWhile_append_dropWhile (p := Char.isDigit) (l := text))
    simp only [List.isEmpty_iff, List.length_append] at hsome hsplit
    have := List.length_pos_iff.2 hsome
    omega

theorem readFraction?_length_le {text rest : List Char} {digits : Option (List Char)}
    (hread : readFraction? text = some (digits, rest)) : rest.length ≤ text.length := by
  unfold readFraction? at hread
  split at hread
  · simp only [Option.map_eq_some_iff, Prod.mk.injEq, Prod.exists] at hread
    obtain ⟨_, _, hdigits, _, rfl⟩ := hread
    have := readDigits?_length hdigits
    simp only [List.length_cons]
    omega
  · simp_all

theorem readExponent?_length_le {text rest : List Char} {exponent : Option (Bool × List Char)}
    (hread : readExponent? text = some (exponent, rest)) : rest.length ≤ text.length := by
  have hsigned {isNegative : Bool} {after : List Char}
      (hmap : (readDigits? after).map (fun (digits, after) =>
        (some (isNegative, digits), after)) = some (exponent, rest)) :
      rest.length < after.length := by
    simp only [Option.map_eq_some_iff, Prod.mk.injEq, Prod.exists] at hmap
    obtain ⟨_, _, hdigits, _, rfl⟩ := hmap
    exact readDigits?_length hdigits
  unfold readExponent? at hread
  simp only at hread
  split at hread
  · split at hread
    all_goals
      have := hsigned hread
      simp only [List.length_cons] at *
      omega
  · split at hread
    all_goals
      have := hsigned hread
      simp only [List.length_cons] at *
      omega
  · simp_all

theorem readNumeral?_length {text rest : List Char} {numeral : Numeral}
    (hread : readNumeral? text = some (numeral, rest)) : rest.length < text.length := by
  simp only [readNumeral?, Option.bind_eq_bind, Option.bind_eq_some_iff, Option.pure_def,
    Option.some.injEq, Prod.mk.injEq, Prod.exists] at hread
  obtain ⟨whole, afterWhole, hwhole, fraction, afterFraction, hfraction, exponent, after, hexponent,
    _, rfl⟩ := hread
  simp only [readWhole?, Option.filter_eq_some_iff] at hwhole
  have hlong := readDigits?_length hwhole.1
  have := readFraction?_length_le hfraction
  have := readExponent?_length_le hexponent
  have : (if text.head? = some '-' then text.tail else text).length ≤ text.length := by
    split <;> simp
  omega

mutual

/-- Reads a value. -/
def readValue? (text : List Char) : Option (Value × Shorter text) :=
  match hskip : skipSpace text with
  | [] => none
  | c :: rest =>
    have hrest : rest.length < text.length := by
      have := skipSpace_length_le text
      simp only [hskip, List.length_cons] at this
      omega
    if c = '[' then
      (readArray? rest).map fun (items, after) =>
        (.array items, ⟨after.1, Nat.lt_trans after.2 hrest⟩)
    else if c = '\x7b' then
      (readObject? rest).map fun (members, after) =>
        (.object members, ⟨after.1, Nat.lt_trans after.2 hrest⟩)
    else if c = '\x22' then
      match hread : readPieces? rest with
      | none => none
      | some (pieces, after) =>
        some (.string ((joinPieces? pieces).map String.ofList),
          ⟨after, Nat.lt_trans (readPieces?_length hread) hrest⟩)
    else if "true".toList.isPrefixOf (c :: rest) then
      some (.bool true, ⟨rest.drop 3, by simp only [List.length_drop]; omega⟩)
    else if "false".toList.isPrefixOf (c :: rest) then
      some (.bool false, ⟨rest.drop 4, by simp only [List.length_drop]; omega⟩)
    else if "null".toList.isPrefixOf (c :: rest) then
      some (.null, ⟨rest.drop 3, by simp only [List.length_drop]; omega⟩)
    else
      match hread : readNumeral? (c :: rest) with
      | none => none
      | some (numeral, after) =>
        some (.number numeral, ⟨after, by
          have := readNumeral?_length hread
          simp only [List.length_cons] at this
          omega⟩)
termination_by (text.length, 0)

/-- Reads the rest of an array after its bracket. -/
def readArray? (text : List Char) : Option (List Value × Shorter text) :=
  match hskip : skipSpace text with
  | ']' :: rest =>
    some ([], ⟨rest, by
      have := skipSpace_length_le text
      simp only [hskip, List.length_cons] at this
      omega⟩)
  | _ => readItems? text
termination_by (text.length, 2)

/-- Reads one or more items of an array, up to its closing bracket. -/
def readItems? (text : List Char) : Option (List Value × Shorter text) :=
  match readValue? text with
  | none => none
  | some (item, ⟨after, hafter⟩) =>
    match hskip : skipSpace after with
    | ']' :: rest =>
      some ([item], ⟨rest, by
        have := skipSpace_length_le after
        simp only [hskip, List.length_cons] at this
        omega⟩)
    | ',' :: rest =>
      have hrest : rest.length < text.length := by
        have := skipSpace_length_le after
        simp only [hskip, List.length_cons] at this
        omega
      (readItems? rest).map fun (items, last) =>
        (item :: items, ⟨last.1, Nat.lt_trans last.2 hrest⟩)
    | _ => none
termination_by (text.length, 1)

/-- Reads the rest of an object after its brace. -/
def readObject? (text : List Char) : Option (List (Content × Value) × Shorter text) :=
  match hskip : skipSpace text with
  | '\x7d' :: rest =>
    some ([], ⟨rest, by
      have := skipSpace_length_le text
      simp only [hskip, List.length_cons] at this
      omega⟩)
  | _ => readMembers? text
termination_by (text.length, 2)

/-- Reads one or more members of an object, up to its closing brace. -/
def readMembers? (text : List Char) : Option (List (Content × Value) × Shorter text) :=
  match hskip : skipSpace text with
  | '\x22' :: rest =>
    match hkey : readPieces? rest with
    | none => none
    | some (pieces, afterKey) =>
      let key := (joinPieces? pieces).map String.ofList
      match hcolon : skipSpace afterKey with
      | ':' :: afterColon =>
        have hshort : afterColon.length < text.length := by
          have hspace := skipSpace_length_le text
          have hread := readPieces?_length hkey
          have hafter := skipSpace_length_le afterKey
          simp only [hskip, hcolon, List.length_cons] at hspace hafter
          omega
        match readValue? afterColon with
        | none => none
        | some (value, ⟨after, hafter⟩) =>
          match hend : skipSpace after with
          | '\x7d' :: last =>
            some ([(key, value)], ⟨last, by
              have := skipSpace_length_le after
              simp only [hend, List.length_cons] at this
              omega⟩)
          | ',' :: next =>
            have hnext : next.length < text.length := by
              have := skipSpace_length_le after
              simp only [hend, List.length_cons] at this
              omega
            (readMembers? next).map fun (members, last) =>
              ((key, value) :: members, ⟨last.1, Nat.lt_trans last.2 hnext⟩)
          | _ => none
      | _ => none
  | _ => none
termination_by (text.length, 1)

end

/-- Reads a text that holds one value and nothing else. -/
def Value.ofText? (text : String) : Option Value :=
  match readValue? text.toList with
  | none => none
  | some (value, rest) => if (skipSpace rest.1).isEmpty then some value else none

end Crowfoot.Json
