import Montage.CommandLine.Manual
import Montage.Composition.Builder
import Montage.Composition.Keynotes
import Montage.Value.Writer

/-!
# Bundled scenes

The installation holds three scenes to start from, and a manifest by which its
directory is recognised.  Scenes are printed with a stack over several lines
and a media file on one.
-/

namespace Montage.Scene

def braced (inside : String) : String := "\x7b" ++ inside ++ "\x7d"

/-- A name of a record, as a line of a scene begins with it. -/
def key (name : String) : String := "\"" ++ name ++ "\": "

def quotedText (text : String) : String := String.ofList (Value.Writer.quoted text)

/-- The offset of a media file, unless it is the origin. -/
def printedOffset (offset : Position) : String :=
  if offset = .origin then ""
  else
    ", " ++ key "offset" ++
      braced (" " ++ key "x" ++ offset.x.text ++ ", " ++ key "y" ++ offset.y.text ++ " ")

def indentation (depth : Nat) : String := String.ofList (List.replicate (2 * depth) ' ')

mutual

/-- A tree printed from a given depth on. -/
def printNode (depth : Nat) : Node → String
  | .resource path offset =>
      braced (" " ++ key "type" ++ "\"resource\", " ++ key "path" ++ quotedText path ++
        printedOffset offset ++ " ")
  | .stack kind children _ =>
      braced ("\n" ++ indentation (depth + 1) ++ key "type" ++ quotedText kind.name ++ ",\n" ++
        indentation (depth + 1) ++ key "children" ++ "[\n" ++
        String.intercalate ",\n" (printChildren (depth + 2) children) ++ "\n" ++
        indentation (depth + 1) ++ "]\n" ++ indentation depth)

/-- The children of a stack, each on lines of its own. -/
def printChildren (depth : Nat) : List Node → List String
  | [] => []
  | child :: rest => (indentation depth ++ printNode depth child) :: printChildren depth rest

end

/-- A scene as the text of a file, bare or as the field `root`. -/
def print (wrapped : Bool) (root : Node) : String :=
  if wrapped then
    braced ("\n" ++ indentation 1 ++ key "root" ++ printNode 1 root ++ "\n") ++ "\n"
  else printNode 0 root ++ "\n"

/-- A recording with the speaker set into it. -/
def pictureInPicture : Node :=
  zstack [
    .node (resource "screen.mp4"),
    .node (resourceAt "webcam.mp4" (.pixels 1440 810))]

def quadGrid : Node :=
  vstack [
    .node (hstack [.node (resource "camera-a.mp4"), .node (resource "camera-b.mp4")]),
    .node (hstack [.node (resource "camera-c.mp4"), .node (resource "camera-d.mp4")])]

/-- Two speakers, one of them with a caption. -/
def splitScreen : Node :=
  hstack [
    .node (zstack [
      .node (resource "host.mp4"),
      .node (resourceAt "lower-third.png" (.pixels 40 900))]),
    .node (resource "guest.mp4")]

def manifest : String :=
  (Value.record [("name", .text CommandLine.programName),
    ("version", .text CommandLine.programVersion),
    ("type", .text "module")]).write

/-- The files of the installation, by their paths in it. -/
def installedFiles : List (String × String) :=
  [("package.json", manifest),
    ("scenes/picture-in-picture.json", print false pictureInPicture),
    ("scenes/quad-grid.json", print false quadGrid),
    ("scenes/split-screen.json", print true splitScreen)]

end Montage.Scene
