import Planar.Fault
import Planar.Grid
set_option autoImplicit false

/-!
Picture formats: the planes of a picture and how each one samples it.
-/

namespace Planar

structure PlaneFormat where
  chroma : String
  hsub : Nat
  vsub : Nat
  macropixelSize : Nat
  deriving DecidableEq, Repr

structure PictureFormat where
  macropixel : Nat
  /-- In the order in which they are enumerated and packed. -/
  planes : List PlaneFormat
  deriving DecidableEq, Repr

namespace PictureFormat

def plane? (f : PictureFormat) (chroma : String) : Option PlaneFormat :=
  f.planes.find? (·.chroma = chroma)

def hgrid (f : PictureFormat) : Nat :=
  f.planes.foldl (fun grid p => Grid.lcm grid (max p.hsub 1)) (max f.macropixel 1)

def vgrid (f : PictureFormat) : Nat :=
  f.planes.foldl (fun grid p => Grid.lcm grid (max p.vsub 1)) 1

def checkPlanes (seen : List PlaneFormat) : List PlaneFormat → Except Fault Unit
  | [] => .ok ()
  | p :: rest =>
    if p.hsub = 0 ∨ p.vsub = 0 ∨ p.macropixelSize = 0 then
      .error (.invalid (.zeroFactor p.chroma))
    else if seen.any (·.chroma = p.chroma) then .error (.invalid (.duplicatePlane p.chroma))
    else checkPlanes (p :: seen) rest

def validate (f : PictureFormat) : Except Fault Unit :=
  if f.macropixel = 0 then .error (.invalid .zeroMacropixel)
  else if f.planes.isEmpty then .error (.invalid .noPlanes)
  else checkPlanes [] f.planes

end PictureFormat

end Planar
