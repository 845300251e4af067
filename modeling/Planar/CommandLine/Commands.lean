import Planar.Buffer.Clear
import Planar.Buffer.Packed
import Planar.Buffer.Resize
import Planar.CommandLine.Arguments
import Planar.CommandLine.Host
import Planar.CommandLine.Report
import Planar.Config.Reader
import Planar.Heap.Manager
set_option autoImplicit false

/-!
The commands. Each one allocates a picture, fills it from a file, works on it and writes it to
another file.
-/

namespace Planar.CommandLine

variable {m : Type → Type} [Monad m] [Host m]

abbrev Job (m : Type → Type) (α : Type) := StateT Heap (ExceptT Failure m) α

namespace Job

variable {α ε : Type}

def fail (why : Failure) : Job m α := fun _ => throw why

def host (action : m α) : Job m α := fun h => do return (← action, h)

def ofExcept (failure : ε → Failure) (result : Except ε α) : Job m α :=
  match result with
  | .ok a => return a
  | .error why => fail (failure why)

def ofOp (op : Op Heap α) : Job m α := fun h =>
  match op h with
  | (.ok a, h) => return (a, h)
  | (.error stop, _) => throw (.ofStop stop)

def within (context : String) (job : Job m α) : Job m α := fun h =>
  tryCatch (job h) fun why => throw (why.within context)

def print (line : String) : Job m Unit := host (Host.printLine line)

end Job

def loadConfig (path : String) : m (Except ConfigFault Config) := do
  if !(← Host.fileExists path) then return .error (.notFound path)
  match ← Host.readFile path with
  | .error why => return .error (.file why)
  | .ok bytes =>
    match String.fromUTF8? ⟨bytes.toArray⟩ with
    | none => return .error (.file .notText)
    | some text => return Config.ofText text

/-- Margins and alignment come from a configuration only; a format that is named wins over the
one in it. -/
def manager (args : PictureArguments) : Job m Manager := do
  let config ← match args.config with
    | some path =>
      Job.within s!"Failed to load config: {path}" do
        Job.ofExcept .ofConfig (← Job.host (loadConfig path))
    | none => pure { format := .custom .yuv420p }
  let config := match args.format with
    | some name => { config with format := .preset name }
    | none => config
  let manager ← Job.within "Invalid picture format"
    (Job.ofExcept .ofConfig (Manager.ofConfig config))
  return { manager with memory := ← Job.host Host.memory }

def loadPicture (path : String) (manager : Manager) (args : PictureArguments) : Job m Handle := do
  let bytes ← Job.within s!"Failed to load: {path}" do
    Job.ofExcept .ofFile (← Job.host (Host.readFile path))
  let picture ← Job.within s!"Failed to allocate {args.hsize}x{args.vsize}"
    (Job.ofOp (manager.alloc args.hsize args.vsize))
  Job.within s!"Failed to read: {path}" (Job.ofOp (readPacked picture bytes))
  return picture

def savePicture (path : String) (picture : Handle) : Job m Unit := do
  let bytes ← Job.ofOp (writePacked picture)
  Job.within s!"Failed to save: {path}" do
    Job.ofExcept .ofFile (← Job.host (Host.writeFile path bytes))

def padName (name : String) : String :=
  name ++ String.ofList (List.replicate (10 - name.length) ' ')

def describePlane (picture : Handle) (size : Size) (chroma : String) : Job m Unit := do
  let desc ← Job.ofOp (Op.ask (Heap.planeDesc picture chroma))
  let rowBytes := desc.rowBytes size.hsize size.macropixel
  let rows := desc.rows size.vsize
  Job.print <| s!"  {padName chroma} {desc.hsub}x{desc.vsub} sub, " ++
    s!"{desc.macropixelSize} B/macropixel, {rowBytes} B x {rows} lines, stride {desc.stride}"

def runInfo (args : PictureArguments) (verbose : Bool) : Job m Unit := do
  let manager ← manager args
  let picture ← Job.ofOp (manager.alloc args.hsize args.vsize)
  let size ← Job.ofOp (Op.ask (Heap.size picture))
  let packed ← Job.ofOp (Op.ask (packedLen picture))
  Job.print s!"{size.hsize}x{size.vsize} macropixel {size.macropixel} ({packed} bytes packed)"
  (← Job.ofOp (Op.ask fun h => .ok (Heap.planes picture h))).forM (describePlane picture size)
  if verbose then
    let allocated ← Job.ofOp (Op.ask (Heap.allocatedSize picture))
    Job.print <| s!"margins: {manager.hprepend} left, {manager.happend} right, " ++
      s!"{manager.vprepend} top, {manager.vappend} bottom " ++
      s!"({allocated.hsize}x{allocated.vsize} allocated)"

def ResizePath.describe : ResizePath → String
  | .inPlace => "in place"
  | .copied => "by copy"

def runCrop (input output : String) (args : PictureArguments) (raw : RawResize) (verbose : Bool) :
    Job m Unit := do
  let manager ← manager args
  let picture ← loadPicture input manager args
  if verbose then
    Job.print <| s!"Cropping {args.hsize}x{args.vsize} by ({raw.hskip}, {raw.vskip}) " ++
      s!"to {raw.newHsize}x{raw.newVsize}"
  let path ← Job.within "Failed to crop" (Job.ofOp (resizeOrReplace manager picture raw))
  savePicture output picture
  if verbose then
    let size ← Job.ofOp (Op.ask (Heap.size picture))
    Job.print s!"Done: {size.hsize}x{size.vsize} {ResizePath.describe path}."

def runClear (input output : String) (args : PictureArguments) (plane : Option String)
    (region : RawRegion) (verbose : Bool) : Job m Unit := do
  let manager ← manager args
  let picture ← loadPicture input manager args
  if verbose then
    let what := plane.getD "all planes"
    Job.print <| s!"Clearing {what} @ ({region.hoffset},{region.voffset}) " ++
      s!"size {region.hsize}x{region.vsize}"
  Job.within "Failed to clear" <| Job.ofOp <| match plane with
    | some chroma => clearPlane picture region chroma
    | none => clear picture region
  savePicture output picture
  if verbose then Job.print "Done."

def Command.job (verbose : Bool) : Command → Job m Unit
  | .info picture => runInfo picture verbose
  | .crop input output picture raw => runCrop input output picture raw verbose
  | .clear input output picture plane region => runClear input output picture plane region verbose

structure Outcome where
  exit : Nat
  error : Option String

def helpText : String :=
  "\n".intercalate
    ["Crop, pad and blank raw planar video frames", "",
      "Commands:",
      "  info   Show plane layout of a format",
      "  crop   Crop or pad a picture",
      "  clear  Blank a region with neutral values"]

def run (args : List String) : m Outcome := do
  match parse args with
  | none => return ⟨2, some "error: the arguments are not well-formed"⟩
  | some .version =>
    Host.printLine "picbuf 0.1.0"
    return ⟨0, none⟩
  | some .help =>
    Host.printLine helpText
    return ⟨0, none⟩
  | some (.run command verbose) =>
    match ← (command.job verbose Heap.empty).run with
    | .ok _ => return ⟨0, none⟩
    | .error (.report messages) => return ⟨1, some (renderReport messages)⟩
    | .error .crash => return ⟨101, some "the picture's bytes were left"⟩

end Planar.CommandLine
