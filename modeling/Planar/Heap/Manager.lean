import Planar.Config
import Planar.Heap
set_option autoImplicit false

/-!
Allocation of heap pictures. Margins around the visible window are what a picture can later
grow into without a copy.
-/

namespace Planar

/-- The margins were rounded up to the format's grids. -/
structure Manager where
  format : PictureFormat
  hprepend : Nat
  happend : Nat
  vprepend : Nat
  vappend : Nat
  align : Nat
  /-- The most bytes of a plane that the machine finds room for. -/
  memory : Nat
  deriving DecidableEq, Repr

namespace Manager

/-- No machine is known yet, so every block has room that there can be. Nobody asks whether the words can
hold the margins. -/
def build (format : PictureFormat) (config : Config) : Manager where
  format := format
  hprepend := Word.wrap (Grid.roundUp config.hprepend format.hgrid)
  happend := Word.wrap (Grid.roundUp config.happend format.hgrid)
  vprepend := Word.wrap (Grid.roundUp config.vprepend format.vgrid)
  vappend := Word.wrap (Grid.roundUp config.vappend format.vgrid)
  align := max config.align 1
  memory := Word.maxSigned

def ofFormat (format : PictureFormat) : Except Fault Manager := do
  format.validate
  return build format { format := .custom format }

def ofConfig (config : Config) : Except ConfigFault Manager := do
  return build (← config.format.resolve) config

def plane (m : Manager) (p : PlaneFormat) (totalH totalV : Nat) : Except Refusal PlaneStore := do
  let stride := Grid.roundUp (totalH / p.hsub / m.format.macropixel * p.macropixelSize) m.align
  if stride > Word.maxUnsigned then throw (.strideOverflow p.chroma)
  let desc : PlaneDesc := ⟨stride, p.hsub, p.vsub, p.macropixelSize⟩
  let len := stride * desc.rows totalV
  if len > Word.maxUnsigned then throw (.sizeOverflow p.chroma)
  if len > Word.maxSigned then throw (.planeTooLarge p.chroma)
  if len > m.memory then throw (.outOfMemory p.chroma)
  return ⟨p.chroma, desc, Array.replicate len 0⟩

def storage (m : Manager) (hsize vsize : Nat) : Except Refusal Storage := do
  let hgrid := m.format.hgrid
  let vgrid := m.format.vgrid
  if hsize % hgrid ≠ 0 ∨ vsize % vgrid ≠ 0 then throw (.offGrid hgrid vgrid)
  let totalH := m.hprepend + hsize + m.happend
  if totalH > Word.maxUnsigned then throw .widthOverflow
  let totalV := m.vprepend + vsize + m.vappend
  if totalV > Word.maxUnsigned then throw .heightOverflow
  let planes ← m.format.planes.mapM fun p => m.plane p totalH totalV
  return ⟨m.format.macropixel, totalH, totalV, hgrid, vgrid, planes⟩

def alloc (m : Manager) (hsize vsize : Nat) : Op Heap Handle := fun h =>
  match m.storage hsize vsize with
  | .error why => (.error (.fault (.refused hsize vsize why)), h)
  | .ok storage =>
    let (handle, h) := h.allocate storage ⟨m.hprepend, m.vprepend, hsize, vsize⟩
    (.ok handle, h)

instance : Allocator Heap Manager Handle where
  alloc := alloc

end Manager

end Planar
