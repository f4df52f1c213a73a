/-!
# Measuring text

Layout needs to know how wide a text is and how high a line is; glyphs are not
its business.
-/

namespace BoxFlow

/-- Measures of text at a font size. -/
structure FontMetrics where
  textWidth : String → Float32 → Float32
  lineHeight : Float32 → Float32

namespace FontMetrics

/-- Width of a character per unit of font size. -/
def charWidth : Float32 := 0.6

/-- Height of a line per unit of font size. -/
def lineSpacing : Float32 := 1.2

/-- Measures without a font: every character is as wide as every other. -/
def approximate : FontMetrics where
  textWidth text size := Float32.ofNat text.length * size * charWidth
  lineHeight size := size * lineSpacing

end FontMetrics

end BoxFlow
