/-!
# Blank characters

Blank characters are those that separate words without being seen.  Scene
paths, switches among the environment variables and lines of a settings file
all use the same set, which is wider than the ASCII blanks.
-/

namespace Montage

namespace Text

/-- Tabs, line ends, the space, the no-break space, the Unicode space
separators, the line and paragraph separators and the byte order mark. -/
def isBlank (character : Char) : Bool :=
  let code := character.toNat
  (0x09 ≤ code && code ≤ 0x0D) || code == 0x20 || code == 0xA0 ||
    code == 0x1680 || (0x2000 ≤ code && code ≤ 0x200A) ||
    code == 0x2028 || code == 0x2029 || code == 0x202F ||
    code == 0x205F || code == 0x3000 || code == 0xFEFF

/-- Removes blanks from both ends of a list of characters. -/
def trimList (characters : List Char) : List Char :=
  ((characters.dropWhile isBlank).reverse.dropWhile isBlank).reverse

def trim (text : String) : String :=
  String.ofList (trimList text.toList)

end Text

end Montage
