/-
# Escaping values in filters

Inside a filter a backslash, a star, the parentheses and the null character of a value are
written as a backslash and two hexadecimal digits.  The backslash is escaped first, so that
the escapes of the others are not escaped again; undoing the escapes ends with it.
-/
import EntryClaims.Text.Pieces

namespace EntryClaims
namespace Filter

/-- Escape a value, one character after the other throughout the text. -/
def escapeChars (value : List Char) : List Char :=
  let value := Text.substituteChar '\\' "\\5c".toList value
  let value := Text.substituteChar '*' "\\2a".toList value
  let value := Text.substituteChar '(' "\\28".toList value
  let value := Text.substituteChar ')' "\\29".toList value
  Text.substituteChar '\x00' "\\00".toList value

/-- Undo the escapes in a value, one after the other throughout the text. -/
def unescapeChars (value : List Char) : List Char :=
  let value := Text.substitute "\\2a".toList ['*'] value
  let value := Text.substitute "\\28".toList ['('] value
  let value := Text.substitute "\\29".toList [')'] value
  let value := Text.substitute "\\00".toList ['\x00'] value
  Text.substitute "\\5c".toList ['\\'] value

/-- A value as it stands in a filter. -/
def escape (value : String) : String := String.ofList (escapeChars value.toList)

/-- The value that stands in a filter. -/
def unescape (value : String) : String := String.ofList (unescapeChars value.toList)

end Filter
end EntryClaims
