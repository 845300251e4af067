import Planar.Buffer
set_option autoImplicit false

/-!
Pictures on a heap. Handles share storage until one of them may write: each storage keeps the
number of its handles. Each handle has its own window, so that a shrink of one does not show
in another.
-/

namespace Planar

structure PlaneStore where
  chroma : String
  desc : PlaneDesc
  data : Bytes
  deriving DecidableEq, Repr

/-- One allocation. The sizes include the margins. -/
structure Storage where
  macropixel : Nat
  hsize : Nat
  vsize : Nat
  hgrid : Nat
  vgrid : Nat
  planes : List PlaneStore
  deriving DecidableEq, Repr

namespace Storage

def allocated (s : Storage) : Size := ⟨s.hsize, s.vsize, s.macropixel⟩

/-- Of planes with the same name only the first can be reached. -/
def plane? (s : Storage) (chroma : String) : Option PlaneStore :=
  s.planes.find? (·.chroma = chroma)

def writePlane (chroma : String) (start : Nat) (view : View) : List PlaneStore → List PlaneStore
  | [] => []
  | p :: rest =>
    if p.chroma = chroma then { p with data := view.putBack p.data start } :: rest
    else p :: writePlane chroma start view rest

end Storage

/-- A storage and the number of handles that have it. Without any it stays behind, out of reach. -/
structure Shared where
  storage : Storage
  refs : Nat
  deriving DecidableEq, Repr

/-- What a handle knows: its storage, the window into it and the mappings not yet released. -/
structure Picture where
  storage : Nat
  window : Region
  mapped : Nat
  deriving DecidableEq, Repr

structure Handle where
  slot : Nat
  deriving DecidableEq, Repr

/-- A slot without a picture belongs to a handle that was given up. -/
structure Heap where
  storages : Array Shared
  pictures : Array (Option Picture)
  deriving Repr

namespace Heap

def empty : Heap := ⟨#[], #[]⟩

def picture? (h : Heap) (p : Handle) : Option Picture := (h.pictures[p.slot]?).join

def storage? (h : Heap) (p : Handle) : Option Storage := do
  return (← h.storages[(← h.picture? p).storage]?).storage

def find (h : Heap) (p : Handle) : Except Stop (Picture × Storage) :=
  match h.picture? p, h.storage? p with
  | some picture, some storage => .ok (picture, storage)
  | _, _ => .error .crash

def setPicture (h : Heap) (p : Handle) (picture : Option Picture) : Heap :=
  { h with pictures := h.pictures.setIfInBounds p.slot picture }

def addPicture (h : Heap) (picture : Picture) : Handle × Heap :=
  (⟨h.pictures.size⟩, { h with pictures := h.pictures.push (some picture) })

def allocate (h : Heap) (storage : Storage) (window : Region) : Handle × Heap :=
  addPicture { h with storages := h.storages.push ⟨storage, 1⟩ } ⟨h.storages.size, window, 0⟩

def refs (h : Heap) (storage : Nat) : Nat :=
  match h.storages[storage]? with
  | some shared => shared.refs
  | none => 0

def setRefs (h : Heap) (storage count : Nat) : Heap :=
  { h with storages := h.storages.modify storage fun shared => { shared with refs := count } }

def share (p : Handle) : Op Heap Handle := fun h =>
  match h.picture? p with
  | none => (.error .crash, h)
  | some picture =>
    let (copy, h) := (h.setRefs picture.storage (h.refs picture.storage + 1)).addPicture
      { picture with mapped := 0 }
    (.ok copy, h)

def drop (p : Handle) (h : Heap) : Heap :=
  match h.picture? p with
  | none => h
  | some picture =>
    (h.setRefs picture.storage (h.refs picture.storage - 1)).setPicture p none

def sharesStorage (p q : Handle) (h : Heap) : Bool :=
  match h.picture? p, h.picture? q with
  | some a, some b => a.storage == b.storage
  | _, _ => false

end Heap

namespace Picture

def visible (picture : Picture) (storage : Storage) : Size :=
  ⟨picture.window.hsize, picture.window.vsize, storage.macropixel⟩

def locate (picture : Picture) (storage : Storage) (chroma : String) (region : Region) :
    Except Fault (PlaneStore × Span) := do
  let some plane := storage.plane? chroma | throw (.unknownPlane chroma)
  if !region.fits (picture.visible storage) then
    throw (.invalid (.regionOutside region picture.window.hsize picture.window.vsize))
  region.checkPlane plane.desc.hsub plane.desc.vsub
  let absolute : Region :=
    ⟨picture.window.hoffset + region.hoffset, picture.window.voffset + region.voffset,
      region.hsize, region.vsize⟩
  return (plane, plane.desc.span absolute storage.macropixel)

/-- The bytes of a span. An empty span has none, wherever it lies. -/
def slice (plane : PlaneStore) (span : Span) : Except Fault Bytes :=
  if span.isEmpty then .ok #[]
  else match span.range? with
    | some (start, stop) =>
      if stop ≤ plane.data.size then .ok (Bytes.window plane.data start (stop - start))
      else .error (.invalid (.spanOutside span plane.chroma))
    | none => .error (.invalid (.spanOutside span plane.chroma))

def view (plane : PlaneStore) (span : Span) : Except Fault View := do
  View.ofBytes (← slice plane span) span.toShape

def moveWindow (picture : Picture) (storage : Storage) (request : ResizeRequest) :
    Except Fault Region := do
  let hoffset := (picture.window.hoffset : Int) + request.hskip
  let voffset := (picture.window.voffset : Int) + request.vskip
  if picture.window.hoffset > Word.maxSigned || picture.window.voffset > Word.maxSigned ||
      hoffset > Word.maxSigned || voffset > Word.maxSigned then
    throw (.invalid .skipOverflow)
  if hoffset < 0 || voffset < 0 then
    throw (.unsupported (.noMargin request.hskip request.vskip))
  let window : Region := ⟨hoffset.toNat, voffset.toNat, request.newHsize, request.newVsize⟩
  if !window.fits storage.allocated then
    throw (.unsupported (.windowExceeds window storage.hsize storage.vsize))
  let onGrid (what : String) (value grid : Nat) : Except Fault Unit :=
    if value % grid ≠ 0 then .error (.misaligned what (Word.toSigned value) grid) else .ok ()
  onGrid "hskip" window.hoffset storage.hgrid
  onGrid "vskip" window.voffset storage.vgrid
  onGrid "new_hsize" window.hsize storage.hgrid
  onGrid "new_vsize" window.vsize storage.vgrid
  return window

end Picture

namespace Heap

def size (p : Handle) (h : Heap) : Except Stop Size := do
  let (picture, storage) ← h.find p
  return picture.visible storage

def planes (p : Handle) (h : Heap) : List String :=
  match h.storage? p with
  | some storage => storage.planes.map (·.chroma)
  | none => []

def planeDesc (p : Handle) (chroma : String) (h : Heap) : Except Stop PlaneDesc := do
  let (_, storage) ← h.find p
  match storage.plane? chroma with
  | some plane => return plane.desc
  | none => throw (.fault (.unknownPlane chroma))

def refCount (p : Handle) (h : Heap) : Nat :=
  match h.picture? p with
  | some picture => h.refs picture.storage
  | none => 0

def window (p : Handle) (h : Heap) : Except Stop Region := do
  return (← h.find p).1.window

def allocatedSize (p : Handle) (h : Heap) : Except Stop Size := do
  return (← h.find p).2.allocated

def mapped (p : Handle) (h : Heap) : Except Stop Nat := do
  return (← h.find p).1.mapped

def setMapped (p : Handle) (picture : Picture) (count : Nat) (h : Heap) : Heap :=
  h.setPicture p (some { picture with mapped := count })

def mapRead (p : Handle) (chroma : String) (region : Region) : Op Heap View := do
  let (picture, storage) ← Op.ask (find · p)
  let (plane, span) ← picture.locate storage chroma region
  let view ← Picture.view plane span
  Op.update (setMapped p picture (picture.mapped + 1))
  return view

def mapWrite (p : Handle) (chroma : String) (region : Region) : Op Heap View := do
  let (picture, storage) ← Op.ask (find · p)
  let (plane, span) ← picture.locate storage chroma region
  let refs ← Op.ask fun h => .ok (h.refs picture.storage)
  if refs ≠ 1 then throw (.fault (.notExclusive refs))
  let view ← Picture.view plane span
  Op.update (setMapped p picture (picture.mapped + 1))
  return view

def commit (p : Handle) (chroma : String) (region : Region) (view : View) (h : Heap) : Heap :=
  match h.find p with
  | .error _ => h
  | .ok (picture, storage) =>
    match picture.locate storage chroma region with
    | .error _ => h
    | .ok (_, span) =>
      { h with
        storages := h.storages.modify picture.storage fun shared =>
          { shared with storage.planes :=
              Storage.writePlane chroma span.offset view shared.storage.planes } }

def unmap (p : Handle) (chroma : String) (region : Region) : Op Heap Unit := do
  let (picture, storage) ← Op.ask (find · p)
  let _ ← picture.locate storage chroma region
  if picture.mapped = 0 then throw (.fault (.invalid (.notMapped chroma)))
  Op.update (setMapped p picture (picture.mapped - 1))

def tryResize (p : Handle) (request : ResizeRequest) : Op Heap Unit := do
  let (picture, storage) ← Op.ask (find · p)
  if request.size ≠ picture.visible storage then
    throw (.fault (.invalid (.staleRequest request.size (picture.visible storage))))
  let refs ← Op.ask fun h => .ok (h.refs picture.storage)
  if request.kind = .grow ∧ refs ≠ 1 then throw (.fault (.notExclusive refs))
  let window ← picture.moveWindow storage request
  Op.update fun h => h.setPicture p (some { picture with window })

/-- The mappings of the second handle go over with its picture. The storage that the first one
had before loses a handle. -/
def succeed (p q : Handle) (h : Heap) : Heap :=
  match h.picture? q with
  | some picture => ((h.drop p).setPicture q none).setPicture p (some picture)
  | none => h

instance : Buffers Heap Handle where
  size := size
  planes := planes
  planeDesc := planeDesc
  refCount := refCount
  mapRead := mapRead
  mapWrite := mapWrite
  commit := commit
  unmap := unmap
  tryResize := tryResize
  release := drop
  succeed := succeed

end Heap

end Planar
