/-!
# Units of UTF-16

Words and quoted texts are measured in the units of UTF-16, of which a
character takes one or two.
-/

namespace Montage.Text

/-- The units of a character: itself, or a pair of surrogates. -/
def unitsOf (character : Char) : List Nat :=
  let code := character.toNat
  if code < 0x10000 then [code]
  else [0xD800 + (code - 0x10000) / 0x400, 0xDC00 + (code - 0x10000) % 0x400]

def units (text : List Char) : List Nat := text.flatMap unitsOf

def width (text : List Char) : Nat := (units text).length

/-- The longest beginning of a text that takes no more than so many units. -/
def takeUnits (room : Nat) : List Char → List Char
  | [] => []
  | character :: rest =>
      let size := (unitsOf character).length
      if size ≤ room then character :: takeUnits (room - size) rest else []

end Montage.Text
