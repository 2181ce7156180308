import ScopeTree.Text.GlyphTable

/-!
# Quoted text

A text between double quotes in which every character can be seen: quotes and backslashes
are escaped, the usual controls have their short form, and a mark that extends the character
before it, or a character that has no visible form, is written by its code point, `\u` with the
least number of lower-case hexadecimal digits between braces.
-/

namespace ScopeTree.Text

/-- The escape of a character by its code point. -/
def escapeCode (c : Char) : List Char :=
  ['\\', 'u', '\x7b'] ++ Nat.toDigits 16 c.toNat ++ ['\x7d']

def quoteChar (c : Char) : List Char :=
  if c = '\x00' then ['\\', '0']
  else if c = '\t' then ['\\', 't']
  else if c = '\n' then ['\\', 'n']
  else if c = '\r' then ['\\', 'r']
  else if c = '"' then ['\\', '"']
  else if c = '\\' then ['\\', '\\']
  else if extendingMarks.has c || unprintable.has c then escapeCode c
  else [c]

/-- The text between double quotes, hidden characters escaped. -/
def quote (s : String) : String :=
  String.ofList ('"' :: s.toList.flatMap quoteChar ++ ['"'])

end ScopeTree.Text
