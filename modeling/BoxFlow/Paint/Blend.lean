import BoxFlow.Number.Rounding
import BoxFlow.Style.Color

/-!
# Blending colors

A color is painted over another one by its alpha. The result is always opaque:
canvases do not show through.
-/

namespace BoxFlow.Color

/-- A channel of which `share` comes from the upper color. -/
def mixChannel (share : Float32) (upper lower : UInt8) : UInt8 :=
  .ofNat (roundWithin32 0 255
    (fusedMulAdd32 upper.toFloat32 share (lower.toFloat32 * (1 - share)))).toNat

/-- A translucent color over another one. -/
def mix (upper lower : Color) : Color :=
  let share := upper.a.toFloat32 / 255
  ⟨mixChannel share upper.r lower.r, mixChannel share upper.g lower.g,
   mixChannel share upper.b lower.b, 255⟩

/-- A color painted over another one: an invisible one changes nothing, an opaque
one replaces it. -/
def paintedOver (upper lower : Color) : Color :=
  if upper.a = 0 then lower
  else if upper.a = 255 then upper
  else mix upper lower

end BoxFlow.Color
