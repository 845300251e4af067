import Planar.Config
set_option autoImplicit false

/-!
How a command tells why it failed: what it was doing, and the causes below that.
-/

namespace Planar.CommandLine

inductive Failure where
  | report (messages : List String)
  | crash
  deriving DecidableEq, Repr

namespace Failure

def ofFault (why : Fault) : List String :=
  match why with
  | .mapping _ cause => why.message :: ofFault cause
  | _ => [why.message]

def ofStop : Stop → Failure
  | .fault why => .report (ofFault why)
  | .crash => .crash

def ofConfig (why : ConfigFault) : Failure :=
  match why with
  | .invalid fault => .report (why.message :: ofFault fault)
  | _ => .report (why.message :: why.causes)

def ofFile (why : FileFault) : Failure := .report [why.message]

def within (context : String) : Failure → Failure
  | .report messages => .report (context :: messages)
  | .crash => .crash

end Failure

/-- Further lines of a message stand below its first one. -/
def indent (first margin message : String) : String :=
  first ++ ("\n" ++ margin).intercalate (message.splitOn "\n")

def numbered : Nat → List String → List String
  | _, [] => []
  | n, message :: rest => indent s!"    {n}: " "       " message :: numbered (n + 1) rest

def renderCauses : List String → List String
  | [cause] => [indent "    " "    " cause]
  | causes => numbered 0 causes

def renderReport : List String → String
  | [] => "Error:"
  | [message] => "Error: " ++ message
  | message :: causes =>
    "\n".intercalate (["Error: " ++ message, "", "Caused by:"] ++ renderCauses causes)

end Planar.CommandLine
