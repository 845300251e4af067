import Planar.Buffer
import Planar.View.Rows
set_option autoImplicit false

/-!
Packed images: plane after plane, row after row, without padding.
-/

namespace Planar

variable {σ β : Type} [Buffers σ β]

def addPlane (b : β) (size : Size) (s : σ) (total : Nat) (chroma : String) : Except Stop Nat := do
  let desc ← Buffers.planeDesc b chroma s
  let len := desc.rowBytes size.hsize size.macropixel * desc.rows size.vsize
  if total + len > Word.maxUnsigned then throw (.fault (.invalid .packedOverflow))
  return total + len

def packedLen (b : β) (s : σ) : Except Stop Nat := do
  let size ← Buffers.size b s
  (Buffers.planes b s).foldlM (addPlane b size s) 0

/-- Rows without bytes add nothing. -/
def packPlane (b : β) (packed : List (List UInt8)) (chroma : String) :
    Op σ (List (List UInt8)) := do
  let view ← planeRead b chroma .full
  let rows ← view.visitedRows
  planeUnmap b chroma .full
  return packed ++ rows

/-- More bytes than a block of memory can have are not even begun. -/
def writePacked (b : β) : Op σ (List UInt8) := do
  let len ← Op.ask (packedLen b)
  if len > Word.maxSigned then throw .crash
  let chromas ← Op.ask fun s => .ok (Buffers.planes b s)
  let rows ← chromas.foldlM (packPlane b) []
  return rows.flatten

def unpackRow (state : View × List UInt8) (y : Nat) : Except Stop (View × List UInt8) := do
  let (view, bytes) := state
  let row := bytes.take view.shape.rowBytes
  return (← Stop.ofOption (view.setRow? y row), bytes.drop view.shape.rowBytes)

def unpackRows (view : View) (bytes : List UInt8) : Except Stop (View × List UInt8) :=
  (List.range view.visits).foldlM unpackRow (view, bytes)

def unpackPlane (b : β) (bytes : List UInt8) (chroma : String) : Op σ (List UInt8) := do
  let (region, view) ← planeWrite b chroma .full
  let (filled, rest) ← unpackRows view bytes
  Op.update (Buffers.commit b chroma region filled)
  planeUnmap b chroma .full
  return rest

def readPacked (b : β) (bytes : List UInt8) : Op σ Unit := do
  let needed ← Op.ask (packedLen b)
  if bytes.length ≠ needed then
    throw (.fault (.invalid (.packedLength bytes.length needed)))
  let chromas ← Op.ask fun s => .ok (Buffers.planes b s)
  let _ ← chromas.foldlM (unpackPlane b) bytes
  return ()

end Planar
