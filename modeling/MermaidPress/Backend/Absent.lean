/-
A backend without browsers: every launch fails with the same text, so nothing else can ever
be asked of it.
-/
import MermaidPress.Render.Session

namespace MermaidPress.Absent

/-- No browser at all. The state is the text that launches fail with. -/
def backend : Backend where
  State := Text
  Browser := Empty
  Tab := Empty
  Element := Empty
  launch why := ({ result := .error (.launch why) }, why)
  openTab browser _ := browser.elim
  closeBrowser browser _ := browser.elim
  forwardDiagnostics tab _ := tab.elim
  setViewport tab _ _ := tab.elim
  setContent tab _ _ := tab.elim
  evaluate tab _ _ := tab.elim
  findElement tab _ _ := tab.elim
  boundingBox tab _ _ := tab.elim
  capture tab _ _ := tab.elim
  closeTab tab _ := tab.elim

end MermaidPress.Absent
