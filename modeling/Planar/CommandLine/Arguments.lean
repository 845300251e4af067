import Planar.Geometry.Resize
set_option autoImplicit false

/-!
The grammar of the command line. Options stand anywhere behind their command, each at most
once; the two that every command has may also stand before it.
-/

namespace Planar.CommandLine

structure PictureArguments where
  hsize : Nat
  vsize : Nat
  format : Option String
  config : Option String
  deriving DecidableEq, Repr

inductive Command where
  | info (picture : PictureArguments)
  | crop (input output : String) (picture : PictureArguments) (raw : RawResize)
  | clear (input output : String) (picture : PictureArguments) (plane : Option String)
      (region : RawRegion)
  deriving DecidableEq, Repr

inductive Request where
  | run (command : Command) (verbose : Bool)
  | version
  | help
  deriving DecidableEq, Repr

def digits? (cs : List Char) : Option Nat :=
  if cs.isEmpty || !cs.all Char.isDigit then none
  else some (cs.foldl (fun n c => n * 10 + (c.toNat - '0'.toNat)) 0)

def unsigned? (text : String) : Option Nat :=
  let cs := text.toList
  (digits? (if cs.head? == some '+' then cs.tail else cs)).filter (· ≤ Word.maxUnsigned)

def signed? (text : String) : Option Int :=
  let n? : Option Int := match text.toList with
    | '-' :: cs => (digits? cs).map fun n => -(n : Int)
    | '+' :: cs => (digits? cs).map fun n => (n : Int)
    | cs => (digits? cs).map fun n => (n : Int)
  n?.filter fun n => Word.minSigned ≤ n && n ≤ Word.maxSigned

def path? (text : String) : Option String := if text.isEmpty then none else some text

inductive Taking where
  | nothing
  /-- Nothing, and it asks for information only. -/
  | question (request : Request)
  | text
  | path
  | unsigned
  /-- A number that may start with a hyphen. -/
  | signed
  deriving DecidableEq, Repr

def Taking.isValue : Taking → Bool
  | .nothing | .question _ => false
  | _ => true

def Taking.admits (taking : Taking) (text : String) : Bool :=
  match taking with
  | .nothing | .question _ | .text => true
  | .path => (path? text).isSome
  | .unsigned => (unsigned? text).isSome
  | .signed => (signed? text).isSome

structure Switch where
  long : String
  short : Option Char
  taking : Taking
  deriving DecidableEq, Repr

def globalSwitches : List Switch :=
  [⟨"verbose", some 'v', .nothing⟩, ⟨"threads", some 'j', .unsigned⟩,
    ⟨"help", some 'h', .question .help⟩]

def pictureSwitches : List Switch :=
  [⟨"hsize", some 'W', .unsigned⟩, ⟨"vsize", some 'H', .unsigned⟩, ⟨"format", some 'f', .text⟩,
    ⟨"config", some 'c', .path⟩]

def cropSwitches : List Switch :=
  [⟨"hskip", none, .signed⟩, ⟨"vskip", none, .signed⟩, ⟨"width", none, .signed⟩,
    ⟨"height", none, .signed⟩]

def clearSwitches : List Switch :=
  [⟨"plane", some 'p', .text⟩, ⟨"x", none, .signed⟩, ⟨"y", none, .signed⟩, ⟨"w", none, .signed⟩,
    ⟨"h", none, .signed⟩]

structure Level where
  switches : List Switch
  /-- How many paths belong to it. The outermost level has a command in their place. -/
  paths : Option Nat

/-- The switches and operands of one level, in the order given. -/
structure Given where
  switches : List (String × String) := []
  operands : List String := []

inductive Halt where
  | malformed
  | asked (request : Request)
  deriving DecidableEq, Repr

namespace Given

/-- A switch may not be repeated, and its value has to be one. A question stops here, so that it
wins over all that follows, and a mistake before it wins over the question. -/
def add (g : Given) (switch : Switch) (value : String) : Except Halt Given :=
  if (g.switches.lookup switch.long).isSome || !switch.taking.admits value then .error .malformed
  else match switch.taking with
    | .question request => .error (.asked request)
    | _ => .ok { g with switches := g.switches ++ [(switch.long, value)] }

def addPath (g : Given) (room : Nat) (arg : String) : Except Halt Given :=
  if g.operands.length < room && (path? arg).isSome then
    .ok { g with operands := g.operands ++ [arg] }
  else .error .malformed

end Given

def isNegativeNumber (arg : String) : Bool :=
  match arg.toList with
  | '-' :: c :: cs => c.isDigit && cs.all fun x => x.isDigit || x == '.' || x == 'e' || x == 'E'
  | _ => false

def isHyphenated (arg : String) : Bool := arg.startsWith "-" && arg != "-"

/-- Another switch is no value, though a negative number may be one. -/
def mayFollow (switch : Switch) (arg : String) : Bool :=
  !isHyphenated arg || (switch.taking = .signed && isNegativeNumber arg)

def splitValue (cs : List Char) : String × Option String :=
  let name := cs.takeWhile (· != '=')
  (String.ofList name, (cs.dropWhile (· != '=')).tail?.map String.ofList)

def Level.find (level : Level) (p : Switch → Bool) : Except Halt Switch :=
  match level.switches.find? p with
  | some switch => .ok switch
  | none => .error .malformed

/-- Reads short switches that share a hyphen. The first one that takes a value takes the rest
of the argument or, if nothing is left, waits for the next one. -/
def readCluster (level : Level) : List Char → Given → Except Halt (Given × Option Switch)
  | [], g => .ok (g, none)
  | c :: cs, g => do
    let switch ← level.find (·.short = some c)
    if !switch.taking.isValue then readCluster level cs (← g.add switch "")
    else match cs with
      | [] => return (g, some switch)
      | '=' :: value => return (← g.add switch (String.ofList value), none)
      | value => return (← g.add switch (String.ofList value), none)

/-- Reads one level, with the switch that waits for its value. A command ends the outermost
level; the arguments behind it are left. -/
def readLevel (level : Level) :
    Option Switch → List String → Given → Except Halt (Given × List String)
  | some _, [], _ => .error .malformed
  | some switch, arg :: rest, g => do
    if !mayFollow switch arg then throw .malformed
    readLevel level none rest (← g.add switch arg)
  | none, [], g => .ok (g, [])
  | none, arg :: rest, g => do
    if arg = "--" then
      return (← rest.foldlM (·.addPath (level.paths.getD 0)) g, [])
    else if arg.startsWith "--" then
      let (name, value) := splitValue (arg.toList.drop 2)
      let switch ← level.find (·.long = name)
      match switch.taking.isValue, value with
      | false, none => readLevel level none rest (← g.add switch "")
      | false, some _ => throw .malformed
      | true, some value => readLevel level none rest (← g.add switch value)
      | true, none => readLevel level (some switch) rest g
    else if isHyphenated arg then
      let (g, waiting) ← readCluster level (arg.toList.drop 1) g
      readLevel level waiting rest g
    else match level.paths with
      | none => return ({ g with operands := [arg] }, rest)
      | some room => readLevel level none rest (← g.addPath room arg)

namespace Given

def optional {α : Type} (g : Given) (name : String) (read : String → Option α) :
    Option (Option α) :=
  match g.switches.lookup name with
  | none => some none
  | some text => (read text).map some

def signed (g : Given) (name : String) (default : Int) : Option Int := do
  return (← g.optional name signed?).getD default

def picture (g : Given) : Option PictureArguments := do
  return {
    hsize := ← (← g.optional "hsize" unsigned?)
    vsize := ← (← g.optional "vsize" unsigned?)
    format := ← g.optional "format" some
    config := ← g.optional "config" path? }

def paths (g : Given) : Option (String × String) :=
  match g.operands with
  | [input, output] => do return (← path? input, ← path? output)
  | _ => none

def isVerbose (g : Given) : Bool := (g.switches.lookup "verbose").isSome

def info (g : Given) : Option Command := g.picture.map .info

def crop (g : Given) : Option Command := do
  let (input, output) ← g.paths
  let raw : RawResize := {
    hskip := ← g.signed "hskip" 0
    vskip := ← g.signed "vskip" 0
    newHsize := ← g.signed "width" toEnd
    newVsize := ← g.signed "height" toEnd }
  return .crop input output (← g.picture) raw

def clear (g : Given) : Option Command := do
  let (input, output) ← g.paths
  let region : RawRegion := {
    hoffset := ← g.signed "x" 0
    voffset := ← g.signed "y" 0
    hsize := ← g.signed "w" toEnd
    vsize := ← g.signed "h" toEnd }
  return .clear input output (← g.picture) (← g.optional "plane" some) region

end Given

def command? (name : String) : Option (Level × (Given → Option Command)) :=
  match name with
  | "info" | "i" => some (⟨globalSwitches ++ pictureSwitches, some 0⟩, Given.info)
  | "crop" => some (⟨globalSwitches ++ pictureSwitches ++ cropSwitches, some 2⟩, Given.crop)
  | "clear" => some (⟨globalSwitches ++ pictureSwitches ++ clearSwitches, some 2⟩, Given.clear)
  | _ => none

def outermost : Level := ⟨globalSwitches ++ [⟨"version", some 'V', .question .version⟩], none⟩

def help? : List String → Option Request
  | [] => some .help
  | [name] => if name = "help" || (command? name).isSome then some .help else none
  | _ => none

def orMalformed {α : Type} (a : Option α) : Except Halt α :=
  match a with
  | some a => .ok a
  | none => .error .malformed

def read (args : List String) : Except Halt Request := do
  let (outer, rest) ← readLevel outermost none args {}
  let name ← orMalformed outer.operands.head?
  if name = "help" then return ← orMalformed (help? rest)
  let (level, make) ← orMalformed (command? name)
  let (inner, _) ← readLevel level none rest {}
  let command ← orMalformed (make inner)
  return .run command (outer.isVerbose || inner.isVerbose)

def parse (args : List String) : Option Request :=
  match read args with
  | .ok request => some request
  | .error (.asked request) => some request
  | .error .malformed => none

end Planar.CommandLine
