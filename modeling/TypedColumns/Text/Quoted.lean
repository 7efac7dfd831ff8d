import TypedColumns.Text.Numeral
import TypedColumns.Text.Unprintable

/-!
Names inside type descriptions stand between double quotes, with backslashes, quotes and the
characters that show nothing by themselves escaped.
-/
namespace TypedColumns.Quoted

def escape (c : Char) : String :=
  if c = '\x00' then "\\0"
  else if c = '\t' then "\\t"
  else if c = '\n' then "\\n"
  else if c = '\r' then "\\r"
  else if c = '\\' then "\\\\"
  else if c = '"' then "\\\""
  else if Unprintable.holds c then "\\u\x7b" ++ Numeral.hex 1 c.toNat ++ "\x7d"
  else c.toString

def encode (text : String) : String := "\"" ++ String.join (text.toList.map escape) ++ "\""

/-- Comma-separated items between brackets. -/
def sequence (items : List String) : String := "[" ++ String.intercalate ", " items ++ "]"

end TypedColumns.Quoted
