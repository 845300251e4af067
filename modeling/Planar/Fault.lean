import Planar.Chroma.Name
import Planar.Geometry.Plane
set_option autoImplicit false

/-!
Why an operation on a picture fails. A fault is a cause; `Fault.message` is the one place
that words it. Buffers of other makers may give a text of their own, hence the `other` causes.
-/

namespace Planar

/-- A request that no picture, or not this picture, can satisfy. -/
inductive Invalid where
  | widthTooLarge
  | heightTooLarge
  | regionExceeds (hoffset voffset hsize vsize totalH totalV : Int)
  | beforeStart (hoffset voffset : Int)
  | negativeSize (hsize vsize : Int)
  | skipExceeds (hskip vskip totalH totalV : Int)
  | uncoveredGrowth (newHsize newVsize hskip vskip : Int)
  | shortStride (stride rowBytes : Nat)
  | shortSlice (len rows rowBytes needed : Nat)
  | rowsDiffer (source destination : Shape)
  | regionOutside (region : Region) (hsize vsize : Nat)
  | spanOutside (span : Span) (chroma : String)
  | notMapped (chroma : String)
  | staleRequest (expected actual : Size)
  | skipOverflow
  | packedOverflow
  | packedLength (given needed : Nat)
  | zeroMacropixel
  | noPlanes
  | zeroFactor (chroma : String)
  | duplicatePlane (chroma : String)
  | unknownFormat (name : String) (known : List String)
  | other (text : String)
  deriving DecidableEq, Repr

def Invalid.message : Invalid → String
  | .widthTooLarge => "picture width overflows i64"
  | .heightTooLarge => "picture height overflows i64"
  | .regionExceeds ho vo h v th tv => s!"region ({ho}, {vo}, {h}x{v}) exceeds picture {th}x{tv}"
  | .beforeStart ho vo => s!"offset ({ho}, {vo}) reaches before the picture start"
  | .negativeSize h v => s!"negative size {h}x{v}"
  | .skipExceeds h v th tv => s!"skip ({h}, {v}) exceeds picture {th}x{tv}"
  | .uncoveredGrowth nh nv h v => s!"new size {nh}x{nv} does not cover growth ({h}, {v})"
  | .shortStride stride rowBytes => s!"stride {stride} shorter than row of {rowBytes} bytes"
  | .shortSlice len rows rowBytes needed =>
      s!"mapped slice of {len} bytes, {rows} rows of {rowBytes} bytes need {needed}"
  | .rowsDiffer src dst =>
      s!"row copy {src.rowBytes}x{src.rows} into {dst.rowBytes}x{dst.rows}"
  | .regionOutside region h v => s!"region {region.describe} outside picture {h}x{v}"
  | .spanOutside span chroma => s!"span {span.describe} of plane {chroma} exceeds storage"
  | .notMapped chroma => s!"plane {chroma} is not mapped"
  | .staleRequest expected actual =>
      s!"resize request for {expected.describe} applied to {actual.describe}"
  | .skipOverflow => "skip overflows"
  | .packedOverflow => "packed size overflows"
  | .packedLength given needed => s!"packed image of {given} bytes, picture needs {needed}"
  | .zeroMacropixel => "macropixel must be > 0"
  | .noPlanes => "format has no planes"
  | .zeroFactor chroma => s!"plane {chroma}: hsub, vsub and macropixel_size must be > 0"
  | .duplicatePlane chroma => s!"duplicate plane {chroma}"
  | .unknownFormat name known =>
      "unknown format '" ++ name ++ "' (known: " ++ ", ".intercalate known ++ ")"
  | .other text => text

/-- A request that is sound but that this buffer cannot carry out. -/
inductive Unsupported where
  | chromaName (name : String) (why : Chroma.NameFault)
  | chromaPattern (name : String) (patternLen macropixelSize : Nat)
  | fillPattern (patternLen rowBytes : Nat)
  | noMargin (hskip vskip : Int)
  | windowExceeds (window : Region) (hsize vsize : Nat)
  | other (text : String)
  deriving DecidableEq, Repr

def Unsupported.message : Unsupported → String
  | .chromaName name why => "chroma '" ++ name ++ "': " ++ why.message
  | .chromaPattern name len macropixelSize =>
      "chroma '" ++ name ++ s!"' pattern of {len} bytes does not tile a {macropixelSize}-byte macropixel"
  | .fillPattern len rowBytes =>
      s!"fill pattern of {len} bytes does not tile rows of {rowBytes} bytes"
  | .noMargin h v => s!"no margin to grow by ({h}, {v})"
  | .windowExceeds window h v => s!"window {window.describe} exceeds allocation {h}x{v}"
  | .other text => text

inductive Mismatch where
  | zeroFactor (chroma : String) (desc : PlaneDesc) (macropixel : Nat)
  | macropixels (source destination : Nat)
  | missingPlane (chroma : String)
  | sampling (chroma : String) (source destination : PlaneDesc)
  | other (text : String)
  deriving DecidableEq, Repr

def Mismatch.message : Mismatch → String
  | .zeroFactor chroma desc macropixel =>
      s!"plane {chroma} has a zero sampling factor: {desc.describe}, macropixel {macropixel}"
  | .macropixels src dst => s!"macropixel {src} copied into macropixel {dst}"
  | .missingPlane chroma => s!"plane {chroma} missing from the new picture"
  | .sampling chroma src dst =>
      s!"plane {chroma} sampled {src.describe} copied into {dst.describe}"
  | .other text => text

inductive Refusal where
  | offGrid (hgrid vgrid : Nat)
  | widthOverflow
  | heightOverflow
  | strideOverflow (chroma : String)
  | sizeOverflow (chroma : String)
  | planeTooLarge (chroma : String)
  | outOfMemory (chroma : String)
  | other (text : String)
  deriving DecidableEq, Repr

def Refusal.message : Refusal → String
  | .offGrid h v => s!"size not aligned on the {h}x{v} grid of the format"
  | .widthOverflow => "width overflows"
  | .heightOverflow => "height overflows"
  | .strideOverflow chroma => s!"plane {chroma} stride overflows"
  | .sizeOverflow chroma => s!"plane {chroma} size overflows"
  | .planeTooLarge chroma =>
      s!"plane {chroma}: memory allocation failed because the computed capacity exceeded" ++
        " the collection's maximum"
  | .outOfMemory chroma =>
      s!"plane {chroma}: memory allocation failed because the memory allocator returned an error"
  | .other text => text

inductive Fault where
  | invalid (why : Invalid)
  | misaligned (what : String) (value : Int) (grid : Nat)
  | unknownPlane (chroma : String)
  | notExclusive (refs : Nat)
  | unsupported (why : Unsupported)
  | mismatch (why : Mismatch)
  | refused (hsize vsize : Nat) (why : Refusal)
  | mapping (chroma : String) (cause : Fault)
  deriving DecidableEq, Repr

namespace Fault

def message : Fault → String
  | .invalid why => "invalid parameter: " ++ why.message
  | .misaligned what value grid => s!"{what} {value} is not a multiple of {grid}"
  | .unknownPlane chroma => s!"unknown plane: {chroma}"
  | .notExclusive refs => s!"buffer is shared by {refs} handles"
  | .unsupported why => "unsupported operation: " ++ why.message
  | .mismatch why => "format mismatch: " ++ why.message
  | .refused h v why => s!"failed to allocate {h}x{v} picture: " ++ why.message
  | .mapping chroma _ => s!"failed to map plane {chroma}"

/-- The request itself is at fault, so that another way to carry it out fails as well. -/
def isParameter : Fault → Bool
  | .invalid _ | .misaligned .. => true
  | _ => false

end Fault

/-- How an operation stops short: with a fault that callers may handle, or in a crash that
nothing handles, when bytes outside a mapping are asked for. -/
inductive Stop where
  | fault (why : Fault)
  | crash
  deriving DecidableEq, Repr

instance : MonadLift (Except Fault) (Except Stop) where
  monadLift := Except.mapError .fault

def Stop.ofOption {α : Type} : Option α → Except Stop α
  | some a => .ok a
  | none => .error .crash

end Planar
