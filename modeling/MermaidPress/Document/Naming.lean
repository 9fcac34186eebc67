/-
Names of what a conversion writes: the images, numbered from one, and the two documents
beside the input.
-/
import MermaidPress.Path.Relative

namespace MermaidPress.Document

/-- The name of a document without directory and extension; empty where it has none. -/
def baseName (document : Path) : Text := (Path.fileStem? document).getD []

/-- The digits of a number. -/
def digits (n : Nat) : Text := (Nat.toDigits 10 n)

/-- The file name of the image with number `index`. -/
def imageFileName (base : Text) (index : Nat) (extension : Text) : Text :=
  base ++ "-diagram-".toList ++ digits index ++ '.' :: extension

/-- The line that stands for the diagram with number `index` in a converted document. -/
def imageReference (index : Nat) (path : Text) : Text :=
  "![Mermaid Diagram ".toList ++ digits index ++ "](".toList ++ path ++ [')']

/-- The path beside a document whose name has `suffix` behind the document's. -/
def sibling (document : Path) (suffix : Text) : Path :=
  Path.join ((Path.parent? document).getD []) (baseName document ++ '-' :: suffix ++ ".md".toList)

/-- Where the converted document goes. -/
def convertedPath (document : Path) : Path := sibling document "converted".toList

/-- Where the repaired copy of the document goes. -/
def repairedPath (document : Path) : Path := sibling document "fixed".toList

end MermaidPress.Document
