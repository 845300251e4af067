import Planar.Buffer.Copy
set_option autoImplicit false

/-!
Crops and growths in place, with a copy as the way out.
-/

namespace Planar

inductive ResizePath where
  | inPlace | copied
  deriving DecidableEq, Repr

variable {σ β μ : Type} [Buffers σ β] [Allocator σ μ β]

/-- A shrink only narrows the window, so a shared picture may shrink but not grow. -/
def resize (b : β) (raw : RawResize) : Op σ Unit := do
  let request ← Op.ask (normalizeResize b raw)
  let refs ← Op.ask fun s => .ok (Buffers.refCount b s)
  if request.kind = .grow ∧ refs ≠ 1 then throw (.fault (.notExclusive refs))
  Buffers.tryResize b request

/-- A malformed request fails at once: a copy would refuse it too. -/
def resizeOrReplace (manager : μ) (b : β) (raw : RawResize) : Op σ ResizePath := do
  match ← (resize b raw).attempt with
  | .ok () => return .inPlace
  | .error why =>
    if why.isParameter then throw (.fault why)
    replace manager b raw
    return .copied

end Planar
