import Planar.Buffer
import Planar.Chroma.Neutral
import Planar.View.Rows
set_option autoImplicit false

/-!
Blanking a region.
-/

namespace Planar

variable {σ β : Type} [Buffers σ β]

/-- The mapping is released even if the rows cannot be filled. -/
def clearPlane (b : β) (raw : RawRegion) (chroma : String) : Op σ Unit := do
  let region ← Op.ask (normalizeRegion b chroma raw)
  let desc ← Op.ask (Buffers.planeDesc b chroma)
  let pattern ← (Chroma.neutralFill chroma desc.macropixelSize : Except Fault _)
  let view ← Buffers.mapWrite b chroma region
  Op.closing
    (do
      let filled ← view.fillRows pattern
      Op.update (Buffers.commit b chroma region filled))
    (Buffers.unmap b chroma region)

/-- Stops at the first plane that fails; the planes before it stay cleared. -/
def clear (b : β) (raw : RawRegion) : Op σ Unit := do
  let chromas ← Op.ask fun s => .ok (Buffers.planes b s)
  chromas.forM (clearPlane b raw)

end Planar
