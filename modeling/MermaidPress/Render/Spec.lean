/-
What a render is asked for: the format of the image, its quality and the scale of the page,
and for a whole session the script, the time limits and whether the page's messages are
passed on.
-/
import MermaidPress.Render.Duration

namespace MermaidPress

/-- The format of an image. Only JPEG loses detail. -/
inductive ImageFormat
  | png
  | jpeg
  deriving DecidableEq, Repr

namespace ImageFormat

/-- The name of a format, which is also the extension of its files. -/
def name : ImageFormat → Text
  | png => "png".toList
  | jpeg => "jpeg".toList

/-- The format with this name, in any case of ASCII letters. -/
def ofName? (t : Text) : Option ImageFormat :=
  let lower := Text.toLowerAscii t
  if lower = png.name then some png
  else if lower = jpeg.name then some jpeg
  else none

/-- Whether a quality means anything for the format. -/
def isLossy : ImageFormat → Bool
  | png => false
  | jpeg => true

theorem ofName?_name (format : ImageFormat) : ofName? format.name = some format := by
  cases format <;> rfl

end ImageFormat

/-- What one render is asked for. The values are used as they are. -/
structure RenderSpec where
  format : ImageFormat := .png
  quality : UInt8 := 85
  scale : Float := 2.0

/-- The quality that the image is taken with; none where the format has none. -/
def RenderSpec.effectiveQuality (spec : RenderSpec) : Option UInt8 :=
  if spec.format.isLossy then some spec.quality else none

/-- The time limits of one render. -/
structure Timeouts where
  pageLoad : Duration := .ofSeconds 60
  render : Duration := .ofSeconds 45
  settle : Duration := .ofSeconds 15
  deriving DecidableEq, Repr

/-- The script that pages load where no other is named. -/
def defaultScript : Text := "https://cdn.jsdelivr.net/npm/mermaid@10/dist/mermaid.min.js".toList

/-- What holds for all renders of a session. -/
structure SessionOptions where
  script : Text := defaultScript
  timeouts : Timeouts := {}
  /-- Whether what the page says is passed on. -/
  verbose : Bool := false
  deriving DecidableEq, Repr

end MermaidPress
