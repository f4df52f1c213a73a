import BoxFlow.Layout.Page

/-!
# Images in a page

An image is drawn at its own size at the origin of its zone. One that is missing
is reported and takes no space.
-/

namespace BoxFlow.Page

/-- The source of an image element, trimmed; a blank one counts as missing. -/
def source? (e : Element) : Option String :=
  ((e.attribute? "src").map Text.trimmed).filter (· != "")

/-- Draws the image of an element. -/
def picture (page : Page) (e : Element) (zone : Zone) : Draw Content :=
  match source? e with
  | none => do
    .warn [.image "img without a src attribute skipped"]
    pure {}
  | some source => do
    let outcome := page.images source
    .warn outcome.warnings
    match outcome.result with
    | .error e => do
      .warn [.image e.message]
      pure {}
    | .ok image => do
      .draw [.drawImage ⟨coordinateOf zone.x, coordinateOf zone.y, image.width, image.height⟩
        image]
      pure { width := Float32.ofNat image.width, height := Float32.ofNat image.height }

end BoxFlow.Page
