import Planar.Buffer
import Planar.View.Rows
set_option autoImplicit false

/-!
Crops and growths by copy. The shared part goes over plane by plane, and added areas keep what
the manager put there. The source is only read, so others may share it.
-/

namespace Planar

variable {σ β μ : Type} [Buffers σ β] [Allocator σ μ β]

/-- Both mappings are released once they were made, whatever fails in between. -/
def copyPlane (src dst : β) (overlap : Overlap) (chroma : String) : Op σ Unit :=
  Op.mapFault (.mapping chroma) do
    let source := RawRegion.ofRegion overlap.src
    let destination := RawRegion.ofRegion overlap.dst
    let input ← planeRead src chroma source
    Op.closing
      (do
        let (region, output) ← planeWrite dst chroma destination
        Op.closing
          (do
            let copied ← input.copyRows output
            Op.update (Buffers.commit dst chroma region copied))
          (planeUnmap dst chroma destination))
      (planeUnmap src chroma source)

def asRefusal (hsize vsize : Nat) : Fault → Fault
  | .refused h v why => .refused h v why
  | other => .refused hsize vsize (.other other.message)

def copyInto (src dst : β) (request : ResizeRequest) (chroma : String) : Op σ Unit := do
  let macropixel := request.size.macropixel
  let srcDesc ← Op.ask (Buffers.planeDesc src chroma)
  let dstDesc ← Op.mapFault (fun _ => .mismatch (.missingPlane chroma))
    (Op.ask (Buffers.planeDesc dst chroma))
  srcDesc.checkFactors chroma macropixel
  if !srcDesc.sameSampling dstDesc then
    throw (.fault (.mismatch (.sampling chroma srcDesc dstDesc)))
  copyPlane src dst request.overlap chroma

def copy (manager : μ) (src : β) (raw : RawResize) : Op σ β := do
  let request ← Op.ask (normalizeResize src raw)
  let dst ← Op.mapFault (asRefusal request.newHsize request.newVsize)
    (Allocator.alloc manager request.newHsize request.newVsize)
  Op.orElseUndo
    (do
      let size ← Op.ask (Buffers.size dst)
      if size.macropixel ≠ request.size.macropixel then
        throw (.fault (.mismatch (.macropixels request.size.macropixel size.macropixel)))
      let chromas ← Op.ask fun s => .ok (Buffers.planes src s)
      chromas.forM (copyInto src dst request)
      return dst)
    (Buffers.release dst)

def replace (manager : μ) (b : β) (raw : RawResize) : Op σ Unit := do
  let copied ← copy manager b raw
  Op.update (Buffers.succeed b copied)

end Planar
