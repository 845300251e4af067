import Planar.View
set_option autoImplicit false

/-!
Row kernels. Each goes through the rows of a view one by one, or, if the rows are worth
sharing out, through the pieces into which the stride cuts the bytes; a piece begins with its
row, and the pieces may be taken in any order.
-/

namespace Planar.View

/-- Fewer bytes than this are not shared out. -/
def sharingThreshold : Nat := 64 * 1024

def worthSharing (rows rowBytes : Nat) (strides : List Nat) : Bool :=
  rows > 1 && Word.saturate (rows * rowBytes) ≥ sharingThreshold &&
    strides.all fun stride => stride ≥ rowBytes && stride > 0

/-- How many pieces the stride cuts the bytes into. The last one may be shorter. -/
def pieces (v : View) : Nat := (v.data.size + v.shape.stride - 1) / v.shape.stride

def pieceStart? (v : View) (k : Nat) : Option Nat :=
  let start := k * v.shape.stride
  if start + v.shape.rowBytes ≤ min (start + v.shape.stride) v.data.size then some start else none

def pieceRow? (v : View) (k : Nat) : Option (List UInt8) :=
  (v.pieceStart? k).map fun start => (Bytes.window v.data start v.shape.rowBytes).toList

def setPieceRow? (v : View) (k : Nat) (row : List UInt8) : Option View :=
  if row.length = v.shape.rowBytes then (v.pieceStart? k).map fun start => v.overwrite start row
  else none

def copyRow (src dst : View) (y : Nat) : Except Stop View := do
  let row ← Stop.ofOption (src.row? y)
  Stop.ofOption (dst.setRow? y row)

def copyPiece (src dst : View) (k : Nat) : Except Stop View := do
  let row ← Stop.ofOption (src.pieceRow? k)
  Stop.ofOption (dst.setPieceRow? k row)

def copyRowByRow (src dst : View) : Except Stop View :=
  (List.range src.visits).foldlM (copyRow src) dst

def copyPieces (src dst : View) (order : List Nat) : Except Stop View :=
  order.foldlM (copyPiece src) dst

/-- Strides may differ, padding is left alone. -/
def copyRows (src dst : View) : Except Stop View :=
  if src.shape.rows ≠ dst.shape.rows ∨ src.shape.rowBytes ≠ dst.shape.rowBytes then
    .error (.fault (.invalid (.rowsDiffer src.shape dst.shape)))
  else if worthSharing src.shape.rows src.shape.rowBytes [src.shape.stride, dst.shape.stride] then
    copyPieces src dst (List.range (min src.pieces dst.pieces))
  else copyRowByRow src dst

def patternRow (rowBytes : Nat) (pattern : List UInt8) : List UInt8 :=
  (List.replicate (rowBytes / pattern.length) pattern).flatten

def fillRow (pattern : List UInt8) (dst : View) (y : Nat) : Except Stop View :=
  Stop.ofOption (dst.setRow? y (patternRow dst.shape.rowBytes pattern))

def fillPiece (pattern : List UInt8) (dst : View) (k : Nat) : Except Stop View :=
  Stop.ofOption (dst.setPieceRow? k (patternRow dst.shape.rowBytes pattern))

def fillRowByRow (dst : View) (pattern : List UInt8) : Except Stop View :=
  (List.range dst.visits).foldlM (fillRow pattern) dst

def fillPieces (dst : View) (pattern : List UInt8) (order : List Nat) : Except Stop View :=
  order.foldlM (fillPiece pattern) dst

/-- Every row becomes a repetition of `pattern`, which has to fit a whole number of times. -/
def fillRows (dst : View) (pattern : List UInt8) : Except Stop View :=
  if pattern.isEmpty ∨ dst.shape.rowBytes % pattern.length ≠ 0 then
    .error (.fault (.unsupported (.fillPattern pattern.length dst.shape.rowBytes)))
  else if worthSharing dst.shape.rows dst.shape.rowBytes [dst.shape.stride] then
    fillPieces dst pattern (List.range dst.pieces)
  else fillRowByRow dst pattern

end Planar.View
