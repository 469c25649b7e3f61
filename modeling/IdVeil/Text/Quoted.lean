import IdVeil.Text.Hidden

/-!
Quoted text for messages. The backslash, the enclosing quote and the usual controls have short
escapes, other hidden characters are written by code point, and all else stands for itself.
-/
namespace IdVeil.Text

def codePoint (c : Char) : String :=
  "\\u\x7b" ++ String.ofList (Nat.toDigits 16 c.toNat) ++ "\x7d"

def escape (quote c : Char) : String :=
  if c = '\x00' then "\\0"
  else if c = '\t' then "\\t"
  else if c = '\n' then "\\n"
  else if c = '\r' then "\\r"
  else if c = '\\' then "\\\\"
  else if c = quote then "\\" ++ quote.toString
  else if isHidden c then codePoint c
  else c.toString

/-- The text in double quotes. -/
def quoted (text : String) : String :=
  "\"" ++ String.join (text.toList.map (escape '"')) ++ "\""

/-- The character in single quotes. -/
def quotedChar (c : Char) : String := "'" ++ escape '\'' c ++ "'"

end IdVeil.Text
