import Planar.Main
import Planar.Scripted
import Planar.Proofs.Operation
import Planar.Proofs.Crash
import Planar.Proofs.Trace
import Planar.Proofs.Release
import Planar.Proofs.Grid
import Planar.Proofs.Grid.Multiples
import Planar.Proofs.Region
import Planar.Proofs.Normalize
import Planar.Proofs.Resize
import Planar.Proofs.Chroma.Spelling
import Planar.Proofs.Chroma.Samples
import Planar.Proofs.View
import Planar.Proofs.Overwriting
import Planar.Proofs.Rows
import Planar.Proofs.Kernels
import Planar.Proofs.View.Writing
import Planar.Proofs.Plane
import Planar.Proofs.Image
import Planar.Proofs.Crop
import Planar.Proofs.Heap.Basic
import Planar.Proofs.Heap.Allocation
import Planar.Proofs.Heap.Sound
import Planar.Proofs.Heap.Handles
import Planar.Proofs.Heap.Access
import Planar.Proofs.Heap.Operations
import Planar.Proofs.Heap.Run
import Planar.Proofs.Heap.Isolation
import Planar.Proofs.Heap.Layout
import Planar.Proofs.Heap.Mapping
import Planar.Proofs.Heap.Tiling
import Planar.Proofs.Heap.Painting
import Planar.Proofs.Heap.Margins
import Planar.Proofs.Heap.Packing
import Planar.Proofs.Heap.Steady
import Planar.Proofs.Heap.Clearing
import Planar.Proofs.Heap.Transfer
import Planar.Proofs.Heap.Joining
import Planar.Proofs.Heap.Copying
import Planar.Proofs.Heap.Replacing
import Planar.Proofs.Heap.Cropping
import Planar.Proofs.Heap.CropImage
import Planar.Proofs.Heap.Crashes
import Planar.Proofs.Heap.Agreement
import Planar.Proofs.Heap.Admission
import Planar.Proofs.Heap.Mapped
import Planar.Proofs.Heap.RoundTrip
import Planar.Proofs.Heap.Contents
import Planar.Proofs.Heap.Takeover
import Planar.Proofs.Heap.Primitive
import Planar.Proofs.Heap.Words
import Planar.Proofs.Heap.Bounds
import Planar.Proofs.Heap.Pixels
import Planar.Proofs.Heap.Writes
import Planar.Proofs.Heap.Blanking
import Planar.Proofs.Heap.Prefix
import Planar.Proofs.Heap.Unpacking
import Planar.Proofs.Heap.InPlace
import Planar.Proofs.Heap.Undo
import Planar.Proofs.Heap.Sizing
import Planar.Proofs.Overlap
