import SchemaDocs.Text.Ranges

/-!
# White space

The characters with the Unicode property White_Space, and trimming and splitting by them.
-/

namespace SchemaDocs.Text

def whiteSpaceRanges : Ranges := [
  (0x9, 0xD), (0x20, 0x20), (0x85, 0x85), (0xA0, 0xA0), (0x1680, 0x1680), (0x2000, 0x200A),
  (0x2028, 0x2029), (0x202F, 0x202F), (0x205F, 0x205F), (0x3000, 0x3000)]

/-- White space of every script, line ends included. -/
def isWhiteSpace (c : Char) : Bool := whiteSpaceRanges.holds c.toNat

def trimStart (text : List Char) : List Char := text.dropWhile isWhiteSpace

def trimEnd (text : List Char) : List Char := (text.reverse.dropWhile isWhiteSpace).reverse

def trim (text : List Char) : List Char := trimEnd (trimStart text)

end SchemaDocs.Text
