import AxisNorm.Text.GraphemeExtend
import AxisNorm.Text.Hex
import AxisNorm.Text.Printable

/-!
# Quoted text

Text in double quotes, as messages show it: quotes, backslashes and four control characters have
short escapes; other characters that would not show by themselves are written by their number. Those
are the characters that are not printable, the ones that join the character before them, and letters
without a shape.
-/

namespace AxisNorm.Text

/-- The Hangul fillers, which are letters without a shape. -/
def fillerRanges : Ranges := [(0x115f, 0x1160), (0x3164, 0x3164), (0xffa0, 0xffa0)]

/-- The halfwidth sound marks of katakana, which extend a grapheme but have a cell of their own. -/
def soundMarkRanges : Ranges := [(0xff9e, 0xff9f)]

/-- Whether a character shows by itself. -/
def isVisible (c : Char) : Bool :=
  isPrintable c && !fillerRanges.contains c && (!extendsGrapheme c || soundMarkRanges.contains c)

/-- One character inside quotes. -/
def escaped (c : Char) : List Char :=
  if c = '\x00' then ['\\', '0']
  else if c = '\t' then ['\\', 't']
  else if c = '\r' then ['\\', 'r']
  else if c = '\n' then ['\\', 'n']
  else if c = '"' then ['\\', '"']
  else if c = '\\' then ['\\', '\\']
  else if isVisible c then [c]
  else ['\\', 'u', '\x7b'] ++ Hex.digits c.toNat ++ ['\x7d']

/-- The text in quotes. -/
def quoted (cs : List Char) : String := String.ofList ('"' :: cs.flatMap escaped ++ ['"'])

end AxisNorm.Text
