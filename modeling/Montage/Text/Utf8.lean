/-!
# Decoding UTF-8

Files are read as UTF-8.  Bytes that form no character are not an error: each
maximal run that began a character but did not finish one, and each byte that
can begin none, is read as one replacement character.  A byte order mark is a
character like any other.
-/

namespace Montage

namespace Text.Utf8

/-- What stands for bytes that form no character. -/
def replacement : Char := '\uFFFD'

/-- A character whose bytes have been read in part: how many continuation
bytes are owed, the range of the next one, and the bits so far. -/
structure Partial where
  owed : Nat
  lowest : Nat
  highest : Nat
  bits : Nat
deriving DecidableEq, Repr

/-- How reading goes on after a byte that begins a character. -/
inductive Lead where
  | complete (character : Char)
  | unfinished (start : Partial)
  | impossible
deriving DecidableEq, Repr

/-- Sorts a byte by what it begins.  The range of the second byte keeps out
overlong forms, surrogates and code points beyond the last one. -/
def lead (byte : Nat) : Lead :=
  if byte < 0x80 then .complete (Char.ofNat byte)
  else if 0xC2 ≤ byte ∧ byte ≤ 0xDF then .unfinished ⟨1, 0x80, 0xBF, byte - 0xC0⟩
  else if byte = 0xE0 then .unfinished ⟨2, 0xA0, 0xBF, 0⟩
  else if byte = 0xED then .unfinished ⟨2, 0x80, 0x9F, 0xD⟩
  else if 0xE1 ≤ byte ∧ byte ≤ 0xEF then .unfinished ⟨2, 0x80, 0xBF, byte - 0xE0⟩
  else if byte = 0xF0 then .unfinished ⟨3, 0x90, 0xBF, 0⟩
  else if byte = 0xF4 then .unfinished ⟨3, 0x80, 0x8F, 4⟩
  else if 0xF1 ≤ byte ∧ byte ≤ 0xF3 then .unfinished ⟨3, 0x80, 0xBF, byte - 0xF0⟩
  else .impossible

/-- The characters settled by one byte, and the character still unfinished
after it. -/
abbrev Progress := List Char × Option Partial

/-- Reads a byte where a character may begin. -/
def begin (byte : Nat) : Progress :=
  match lead byte with
  | .complete character => ([character], none)
  | .unfinished start => ([], some start)
  | .impossible => ([replacement], none)

/-- Reads a byte inside an unfinished character.  A byte out of range settles
that character as a replacement and begins the next one. -/
def resume (state : Partial) (byte : Nat) : Progress :=
  if state.lowest ≤ byte ∧ byte ≤ state.highest then
    let bits := state.bits * 64 + (byte - 0x80)
    if state.owed ≤ 1 then ([Char.ofNat bits], none)
    else ([], some ⟨state.owed - 1, 0x80, 0xBF, bits⟩)
  else
    let (settled, unfinished) := begin byte
    (replacement :: settled, unfinished)

/-- Reads one byte in either state. -/
def step (unfinished : Option Partial) (byte : Nat) : Progress :=
  match unfinished with
  | none => begin byte
  | some state => resume state byte

/-- Decodes bytes from a given state on. -/
def decodeFrom (unfinished : Option Partial) : List UInt8 → List Char
  | [] => if unfinished.isSome then [replacement] else []
  | byte :: rest =>
      let (settled, after) := step unfinished byte.toNat
      settled ++ decodeFrom after rest

def decode (bytes : List UInt8) : String :=
  String.ofList (decodeFrom none bytes)

end Text.Utf8

end Montage
