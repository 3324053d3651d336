/-!
# One-line texts

A text that a user supplies is written into a log with its line ends and tabs
replaced by visible marks.
-/

namespace Montage.Text

def oneLineChar (character : Char) : List Char :=
  if character = '\r' then ['\\', 'r']
  else if character = '\n' then ['\\', 'n']
  else if character = '\t' then ['\\', 't']
  else [character]

/-- A text as it is written on one line. -/
def oneLine (text : String) : String :=
  String.ofList (text.toList.flatMap oneLineChar)

end Montage.Text
