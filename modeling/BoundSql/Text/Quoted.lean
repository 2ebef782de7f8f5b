import BoundSql.Text.Printable

/-!
Texts in quotes, as messages show them: a quote, a backslash and the common controls stand behind
a backslash, and every other character that does not show by itself as its code point.
-/

namespace BoundSql.Text

/-- The hexadecimal text of a number, in lower case. -/
def hex (n : Nat) : String := String.ofList (Nat.toDigits 16 n)

def quoteChar (c : Char) : String :=
  if c = '"' then "\\\""
  else if c = '\\' then "\\\\"
  else if c = '\n' then "\\n"
  else if c = '\r' then "\\r"
  else if c = '\t' then "\\t"
  else if c = '\x00' then "\\0"
  else if isHidden c then "\\u\x7b" ++ hex c.toNat ++ "\x7d"
  else c.toString

def quoted (s : String) : String := "\"" ++ String.join (s.toList.map quoteChar) ++ "\""

end BoundSql.Text
