/-!
# JSON strings

The inside of a string is a sequence of characters and escapes. Escapes may name UTF-16 units; two
that form a surrogate pair make one character, and half a pair makes none.
-/

namespace Crowfoot.Json

/-- A part of a string: a character, or a UTF-16 unit named by an escape. -/
inductive Piece where
  | char (c : Char)
  | unit (code : Nat)
  deriving DecidableEq, Repr

/-- The value of a hexadecimal digit. -/
def hexDigit? (c : Char) : Option Nat :=
  if '0' ≤ c ∧ c ≤ '9' then some (c.toNat - '0'.toNat)
  else if 'a' ≤ c ∧ c ≤ 'f' then some (c.toNat - 'a'.toNat + 10)
  else if 'A' ≤ c ∧ c ≤ 'F' then some (c.toNat - 'A'.toNat + 10)
  else none

/-- The value of four hexadecimal digits. -/
def hexUnit? (a b c d : Char) : Option Nat := do
  return ((← hexDigit? a) * 16 + (← hexDigit? b)) * 256 + (← hexDigit? c) * 16 + (← hexDigit? d)

/-- The character that a letter names after a backslash. -/
def escaped? (letter : Char) : Option Char :=
  match letter with
  | '\x22' => some '\x22'
  | '\\' => some '\\'
  | '/' => some '/'
  | 'b' => some '\x08'
  | 'f' => some '\x0c'
  | 'n' => some '\n'
  | 'r' => some '\r'
  | 't' => some '\t'
  | _ => none

/-- Reads the rest of a string up to its closing quote. A bare control character is refused. -/
def readPieces? : List Char → Option (List Piece × List Char)
  | [] => none
  | '\x22' :: rest => some ([], rest)
  | '\\' :: 'u' :: a :: b :: c :: d :: rest => do
    let code ← hexUnit? a b c d
    let (pieces, after) ← readPieces? rest
    return (.unit code :: pieces, after)
  | '\\' :: letter :: rest => do
    let c ← escaped? letter
    let (pieces, after) ← readPieces? rest
    return (.char c :: pieces, after)
  | c :: rest =>
    if c.toNat < 0x20 ∨ c = '\\' then
      none
    else do
      let (pieces, after) ← readPieces? rest
      return (.char c :: pieces, after)

/-- A leading surrogate. -/
def isLeading (code : Nat) : Bool := 0xD800 ≤ code && code < 0xDC00

/-- A trailing surrogate. -/
def isTrailing (code : Nat) : Bool := 0xDC00 ≤ code && code < 0xE000

/-- The characters of a string's pieces, unless one is half a pair. -/
def joinPieces? : List Piece → Option (List Char)
  | [] => some []
  | .char c :: rest => (joinPieces? rest).map (c :: ·)
  | .unit code :: .unit next :: rest =>
    if isLeading code && isTrailing next then
      (joinPieces? rest).map (Char.ofNat (0x10000 + (code - 0xD800) * 0x400 + (next - 0xDC00)) :: ·)
    else if isLeading code || isTrailing code then
      none
    else
      (joinPieces? (.unit next :: rest)).map (Char.ofNat code :: ·)
  | .unit code :: rest =>
    if isLeading code || isTrailing code then
      none
    else
      (joinPieces? rest).map (Char.ofNat code :: ·)

/-- A hexadecimal digit. -/
def hexChar (digit : Nat) : Char :=
  if digit < 10 then Char.ofNat ('0'.toNat + digit) else Char.ofNat ('a'.toNat + (digit - 10))

/-- How a character is written in a string. Control characters, the quote and the backslash are
escaped. -/
def escapeChar (c : Char) : List Char :=
  match c with
  | '\x22' => ['\\', '\x22']
  | '\\' => ['\\', '\\']
  | '\x08' => ['\\', 'b']
  | '\x0c' => ['\\', 'f']
  | '\n' => ['\\', 'n']
  | '\r' => ['\\', 'r']
  | '\t' => ['\\', 't']
  | _ =>
    if c.toNat < 0x20 then
      ['\\', 'u', '0', '0', hexChar (c.toNat / 16), hexChar (c.toNat % 16)]
    else
      [c]

/-- A string in quotes. -/
def quotedText (content : List Char) : List Char :=
  '\x22' :: content.flatMap escapeChar ++ ['\x22']

/-- The rest behind the pieces of a string is shorter than the text. -/
theorem readPieces?_length {text rest : List Char} {pieces : List Piece}
    (hread : readPieces? text = some (pieces, rest)) : rest.length < text.length := by
  fun_induction readPieces? text generalizing pieces rest with
  | case1 => simp at hread
  | case2 => simp_all
  | case3 a b c d tail ih =>
    simp only [Option.bind_eq_bind, Option.bind_eq_some_iff, Option.pure_def, Option.some.injEq,
      Prod.mk.injEq, Prod.exists] at hread
    obtain ⟨_, _, _, _, hrest, _, rfl⟩ := hread
    have := ih hrest
    simp only [List.length_cons]
    omega
  | case4 letter tail _ ih =>
    simp only [Option.bind_eq_bind, Option.bind_eq_some_iff, Option.pure_def, Option.some.injEq,
      Prod.mk.injEq, Prod.exists] at hread
    obtain ⟨_, _, _, _, hrest, _, rfl⟩ := hread
    have := ih hrest
    simp only [List.length_cons]
    omega
  | case5 => simp at hread
  | case6 c tail _ _ _ _ ih =>
    simp only [Option.bind_eq_bind, Option.bind_eq_some_iff, Option.pure_def, Option.some.injEq,
      Prod.mk.injEq, Prod.exists] at hread
    obtain ⟨_, _, hrest, _, rfl⟩ := hread
    have := ih hrest
    simp only [List.length_cons]
    omega

end Crowfoot.Json
