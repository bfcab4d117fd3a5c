import Crowfoot.Sql.Lexer

/-!
# Written names

A name is written bare when it reads back as the same name, and in double quotes otherwise. A quote
inside a quoted name is written twice.
-/

namespace Crowfoot.Sql

/-- The name is a single bare word. -/
def isPlainWord : List Char → Bool
  | [] => false
  | c :: rest => isWordStart c && rest.all isWordChar

/-- Doubles the quotes of a text. -/
def doubleQuotes (text : List Char) : List Char :=
  text.flatMap fun c => if c = '\x22' then [c, c] else [c]

/-- The written form of a name. -/
def quoteChars (name : List Char) : List Char :=
  if isPlainWord name && (Keyword.ofWord? name).isNone then
    name
  else
    '\x22' :: doubleQuotes name ++ ['\x22']

/-- The written form of a name. -/
def quoteName (name : String) : String :=
  String.ofList (quoteChars name.toList)

end Crowfoot.Sql
