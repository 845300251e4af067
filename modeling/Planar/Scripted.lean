import Planar.Buffer
set_option autoImplicit false

/-!
Pictures that follow a script: each answer is written down beforehand, calls fail where the
script says so, and every call is recorded. With them the operations can be watched from
outside.
-/

namespace Planar.Scripted

inductive Call where
  | mapRead (tag chroma : String) (region : Region)
  | mapWrite (tag chroma : String) (region : Region)
  | unmap (tag chroma : String) (region : Region)
  | tryResize (tag : String) (request : ResizeRequest)
  | alloc (hsize vsize : Nat)
  deriving DecidableEq, Repr

def Call.describe : Call → String
  | .mapRead tag chroma r =>
      s!"{tag}.map_read {chroma} {r.hoffset},{r.voffset},{r.hsize},{r.vsize}"
  | .mapWrite tag chroma r =>
      s!"{tag}.map_write {chroma} {r.hoffset},{r.voffset},{r.hsize},{r.vsize}"
  | .unmap tag chroma r => s!"{tag}.unmap {chroma} {r.hoffset},{r.voffset},{r.hsize},{r.vsize}"
  | .tryResize tag q => s!"{tag}.try_resize {q.hskip},{q.vskip},{q.newHsize},{q.newVsize}"
  | .alloc h v => s!"alloc {h}x{v}"

structure Plane where
  chroma : String
  desc : PlaneDesc
  data : Bytes
  /-- The shape of every mapping, in place of the one that the region asks for. -/
  shape : Option Shape

structure Picture where
  tag : String
  size : Size
  refs : Nat
  planes : List Plane
  /-- Calls that fail, by name. -/
  failures : List (String × Fault)

namespace Picture

def scripted (p : Picture) (call : String) : Except Stop Unit :=
  match p.failures.lookup call with
  | some why => .error (.fault why)
  | none => .ok ()

def plane (p : Picture) (chroma : String) : Except Stop Plane :=
  match p.planes.find? (·.chroma = chroma) with
  | some plane => .ok plane
  | none => .error (.fault (.unknownPlane chroma))

/-- Where a mapping starts: at the span, but never behind the data. -/
def start (p : Picture) (plane : Plane) (region : Region) : Nat :=
  min (plane.desc.span region p.size.macropixel).offset plane.data.size

def view (p : Picture) (plane : Plane) (region : Region) : Except Fault View :=
  let start := p.start plane region
  let shape := plane.shape.getD (plane.desc.span region p.size.macropixel).toShape
  View.ofBytes (Bytes.window plane.data start (plane.data.size - start)) shape

def write (chroma : String) (start : Nat) (view : View) : List Plane → List Plane
  | [] => []
  | p :: rest =>
    if p.chroma = chroma then { p with data := view.putBack p.data start } :: rest
    else p :: write chroma start view rest

end Picture

structure Handle where
  slot : Nat
  deriving DecidableEq, Repr

structure Stage where
  calls : Array Call
  pictures : Array Picture

namespace Stage

def record (call : Call) : Op Stage Unit :=
  Op.update fun s => { s with calls := s.calls.push call }

def picture (b : Handle) (s : Stage) : Except Stop Picture := Stop.ofOption s.pictures[b.slot]?

def setPicture (b : Handle) (p : Picture) (s : Stage) : Stage :=
  { s with pictures := s.pictures.setIfInBounds b.slot p }

def addPicture (p : Picture) : Op Stage Handle := fun s =>
  (.ok ⟨s.pictures.size⟩, { s with pictures := s.pictures.push p })

def mapRead (b : Handle) (chroma : String) (region : Region) : Op Stage View := do
  let p ← Op.ask (picture b)
  record (.mapRead p.tag chroma region)
  let plane ← p.plane chroma
  p.scripted ("map_read " ++ chroma)
  p.view plane region

def mapWrite (b : Handle) (chroma : String) (region : Region) : Op Stage View := do
  let p ← Op.ask (picture b)
  record (.mapWrite p.tag chroma region)
  let plane ← p.plane chroma
  p.scripted ("map_write " ++ chroma)
  p.view plane region

def commit (b : Handle) (chroma : String) (region : Region) (view : View) (s : Stage) : Stage :=
  match s.pictures[b.slot]? with
  | none => s
  | some p =>
    match p.plane chroma with
    | .error _ => s
    | .ok plane =>
      s.setPicture b
        { p with planes := Picture.write chroma (p.start plane region) view p.planes }

def unmap (b : Handle) (chroma : String) (region : Region) : Op Stage Unit := do
  let p ← Op.ask (picture b)
  record (.unmap p.tag chroma region)
  p.scripted ("unmap " ++ chroma)

def tryResize (b : Handle) (request : ResizeRequest) : Op Stage Unit := do
  let p ← Op.ask (picture b)
  record (.tryResize p.tag request)
  p.scripted "try_resize"
  Op.update (setPicture b
    { p with size := ⟨request.newHsize, request.newVsize, p.size.macropixel⟩ })

instance : Buffers Stage Handle where
  size b s := do
    let p ← picture b s
    p.scripted "size"
    return p.size
  planes b s := match s.pictures[b.slot]? with
    | some p => p.planes.map (·.chroma)
    | none => []
  planeDesc b chroma s := do
    let p ← picture b s
    p.scripted ("plane_desc " ++ chroma)
    return (← p.plane chroma).desc
  refCount b s := match s.pictures[b.slot]? with
    | some p => p.refs
    | none => 0
  mapRead := mapRead
  mapWrite := mapWrite
  commit := commit
  unmap := unmap
  tryResize := tryResize
  release _ s := s
  succeed b c s := match s.pictures[c.slot]? with
    | some p => s.setPicture b p
    | none => s

end Stage

/-- A manager that refuses, or that answers with the same picture in the size asked for. -/
inductive Manager where
  | refusing (why : Fault)
  | offering (picture : Picture)

def Manager.alloc (m : Manager) (hsize vsize : Nat) : Op Stage Handle := do
  Stage.record (.alloc hsize vsize)
  match m with
  | .refusing why => throw (.fault why)
  | .offering p => Stage.addPicture { p with size := { p.size with hsize, vsize } }

instance : Allocator Stage Manager Handle where
  alloc := Manager.alloc

end Planar.Scripted
