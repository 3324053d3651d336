import Montage.Composition.Builder

/-!
# The demonstration scene

Two panels stand side by side.  Each shows a talk with an archive clip set
into it, and a logo where it is asked for.
-/

namespace Montage

def Position.pixels (x y : Nat) : Position := ⟨.ofNatural x, .ofNatural y⟩

/-- One panel of the demonstration. -/
def keynotePanel (showLogo : Bool) : Composable :=
  .video (.node (zstack [
    .node (resource "keynote-2020.mp4"),
    .node (resourceAt "keynote-1990.mkv" (.pixels 1200 100)),
    if showLogo then .node (resourceAt "logo.png" (.pixels 100 800)) else .skipped]))

/-- The demonstration: the right panel always carries the logo, the left one
only when both are to. -/
def sideBySideKeynotes (logoOnBothPanels : Bool) : Composable :=
  .video (.node (hstack [keynotePanel logoOnBothPanels, keynotePanel true]))

end Montage
