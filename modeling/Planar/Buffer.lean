import Planar.Geometry.Resize
import Planar.View
set_option autoImplicit false

/-!
What a maker of pictures has to offer, and checked access on top of it. Pictures are handles
into a state `σ`: one operation may be given two of them, and handles may share storage.
-/

namespace Planar

/-- An operation on a state. The state is kept when the operation stops short. -/
abbrev Op (σ α : Type) := ExceptT Stop (StateM σ) α

namespace Op

variable {σ α β : Type}

theorem bind_of_ok {x : Op σ α} {f : α → Op σ β} {s t : σ} {a : α} (h : x s = (.ok a, t)) :
    (x >>= f) s = f a t := by
  simp only [bind, ExceptT.bind, ExceptT.mk, StateT.bind]
  rw [h]; rfl

theorem bind_of_error {x : Op σ α} {f : α → Op σ β} {s t : σ} {stop : Stop}
    (h : x s = (.error stop, t)) : (x >>= f) s = (.error stop, t) := by
  simp only [bind, ExceptT.bind, ExceptT.mk, StateT.bind]
  rw [h]; rfl

def ask (question : σ → Except Stop α) : Op σ α := fun s => (question s, s)

def update (f : σ → σ) : Op σ Unit := fun s => (.ok (), f s)

/-- A fault becomes a result. A crash still stops. -/
def attempt (op : Op σ α) : Op σ (Except Fault α) := fun s =>
  match op s with
  | (.ok a, s) => (.ok (.ok a), s)
  | (.error (.fault why), s) => (.ok (.error why), s)
  | (.error .crash, s) => (.error .crash, s)

def mapFault (f : Fault → Fault) (op : Op σ α) : Op σ α := do
  match ← op.attempt with
  | .ok a => return a
  | .error why => throw (.fault (f why))

/-- Runs `release` whether or not `body` fails. The fault of `body` goes first. -/
def closing (body release : Op σ Unit) : Op σ Unit := do
  let done ← body.attempt
  let released ← release.attempt
  match done with
  | .error why => throw (.fault why)
  | .ok () =>
    match released with
    | .error why => throw (.fault why)
    | .ok () => return ()

def orElseUndo (op : Op σ α) (undo : σ → σ) : Op σ α := fun s =>
  match op s with
  | (.ok a, s) => (.ok a, s)
  | (.error stop, s) => (.error stop, undo s)

end Op

/-- Pictures of one kind. Regions are absolute here, and the maps trust them to be aligned. -/
class Buffers (σ : Type) (β : outParam Type) where
  size : β → σ → Except Stop Size
  /-- The names of the planes, in a fixed order. -/
  planes : β → σ → List String
  planeDesc : β → String → σ → Except Stop PlaneDesc
  refCount : β → σ → Nat
  mapRead : β → String → Region → Op σ View
  mapWrite : β → String → Region → Op σ View
  /-- Puts the rows of a view mapped for writing back where they were taken from. -/
  commit : β → String → Region → View → σ → σ
  unmap : β → String → Region → Op σ Unit
  /-- Moves the visible window. Fails without a change. -/
  tryResize : β → ResizeRequest → Op σ Unit
  release : β → σ → σ
  /-- The first handle comes to mean the picture of the second one, which is given up. -/
  succeed : β → β → σ → σ

class Allocator (σ μ : Type) (β : outParam Type) where
  alloc : μ → Nat → Nat → Op σ β

section

variable {σ β : Type} [Buffers σ β]

def isExclusive (b : β) (s : σ) : Bool := Buffers.refCount b s == 1

def normalizeRegion (b : β) (chroma : String) (raw : RawRegion) (s : σ) : Except Stop Region := do
  let size ← Buffers.size b s
  let region ← raw.resolve size
  let desc ← Buffers.planeDesc b chroma s
  desc.checkFactors chroma size.macropixel
  region.checkPlane desc.hsub desc.vsub
  return region

def normalizeResize (b : β) (raw : RawResize) (s : σ) : Except Stop ResizeRequest := do
  raw.resolve (← Buffers.size b s)

def planeRead (b : β) (chroma : String) (raw : RawRegion) : Op σ View := do
  Buffers.mapRead b chroma (← Op.ask (normalizeRegion b chroma raw))

/-- Also gives the region, which `Buffers.commit` needs. -/
def planeWrite (b : β) (chroma : String) (raw : RawRegion) : Op σ (Region × View) := do
  let region ← Op.ask (normalizeRegion b chroma raw)
  return (region, ← Buffers.mapWrite b chroma region)

def planeUnmap (b : β) (chroma : String) (raw : RawRegion) : Op σ Unit := do
  Buffers.unmap b chroma (← Op.ask (normalizeRegion b chroma raw))

end

end Planar
