import Planar.Bytes
import Planar.Fault
set_option autoImplicit false

/-!
Mapped rows of a plane. A view keeps the bytes from its first row to the end of its last row,
padding between the rows included.
-/

namespace Planar

structure View where
  shape : Shape
  data : Bytes
  size_data : data.size = shape.len

namespace View

/-- Bytes behind the last row are left out. -/
def ofBytes (data : Bytes) (shape : Shape) : Except Fault View :=
  if shape.rows > 1 ∧ shape.stride < shape.rowBytes then
    .error (.invalid (.shortStride shape.stride shape.rowBytes))
  else if h : data.size < shape.len then
    .error (.invalid (.shortSlice data.size shape.rows shape.rowBytes shape.len))
  else .ok ⟨shape, data.window 0 shape.len, Bytes.size_window _ (by omega)⟩

/-- The first byte of row `y`, if the view holds all of that row. A view of rows without bytes
holds no bytes at all, hence only the rows that start at zero. -/
def start? (v : View) (y : Nat) : Option Nat :=
  if y < v.shape.rows ∧ y * v.shape.stride + v.shape.rowBytes ≤ v.data.size then
    some (y * v.shape.stride)
  else none

def row? (v : View) (y : Nat) : Option (List UInt8) :=
  (v.start? y).map fun start => (Bytes.window v.data start v.shape.rowBytes).toList

def overwrite (v : View) (start : Nat) (bytes : List UInt8) : View :=
  ⟨v.shape, Bytes.put v.data start bytes, by rw [Bytes.size_put, v.size_data]⟩

def setRow? (v : View) (y : Nat) (row : List UInt8) : Option View :=
  if row.length = v.shape.rowBytes then (v.start? y).map fun start => v.overwrite start row
  else none

def putBack (v : View) (block : Bytes) (start : Nat) : Bytes := Bytes.put block start v.data.toList

/-- How many rows there are to go through. Rows without bytes are all alike from the second on, so
one of those stands for the rest. -/
def visits (v : View) : Nat := if v.shape.rowBytes = 0 then min v.shape.rows 2 else v.shape.rows

theorem visits_of_pos {v : View} (h : 0 < v.shape.rowBytes) : v.visits = v.shape.rows :=
  if_neg (by omega)

def visitedRows (v : View) : Except Stop (List (List UInt8)) :=
  (List.range v.visits).mapM fun y => Stop.ofOption (v.row? y)

def rows (v : View) : Except Stop (List (List UInt8)) := do
  return (← v.visitedRows) ++ List.replicate (v.shape.rows - v.visits) []

end View

end Planar
