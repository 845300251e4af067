import Planar.Yaml.Token.Scanner
set_option autoImplicit false

/-!
The tree of a document. An alias keeps the number of its anchor: the node behind it may hold
the alias itself, so it is looked up only when it is needed.
-/

namespace Planar.Yaml

inductive Node where
  | scalar (tag : Option Tag) (style : Style) (text : String)
  | sequence (tag : Option Tag) (items : List Node)
  | mapping (tag : Option Tag) (entries : List (Node × Node))
  | alias (anchor : Nat)

instance : Inhabited Node := ⟨.scalar none .plain ""⟩

structure Document where
  root : Node
  /-- The nodes with an anchor, the one that begins last first. Of two with one number the
  first counts. -/
  anchors : List (Nat × Node)
  /-- Scalars and aliases count once, and collections twice. -/
  weight : Nat

namespace Node

structure Progress where
  tokens : List Token
  handles : List (String × Tag)
  names : List (String × Nat)
  /-- In the order in which the nodes begin. -/
  anchors : List (Nat × Node)
  weight : Nat

abbrev Reading := StateT Progress (Except String)

def fail {α : Type} (why : String) : Reading α := throw why

def peek : Reading (Option Token) := do return (← get).tokens.head?

def advance : Reading Unit := modify fun p => { p with tokens := p.tokens.tail }

def weigh (n : Nat) : Reading Unit := modify fun p => { p with weight := p.weight + n }

/-- Numbers are given by how many names are in use, and a name in use is given a new one. -/
def name (anchor : String) : Reading Nat := do
  let p ← get
  let number := p.names.length
  set { p with names := (anchor, number) :: p.names.filter (·.1 ≠ anchor) }
  return number

/-- Puts a node before those inside it; `place` counts the anchored nodes that began earlier. -/
def register (number : Option Nat) (place : Nat) (node : Node) : Reading Unit :=
  match number with
  | some n => modify fun p => { p with anchors := p.anchors.insertIdx place (n, node) }
  | none => return ()

def defaultHandles : List (String × Tag) := [("!", .mark), ("!!", .coreSchema)]

def resolveTag (handle : String) (suffix : Tag) : Reading Tag := do
  if handle.isEmpty then return suffix
  match ((← get).handles ++ defaultHandles).lookup handle with
  | some expansion => return expansion ++ suffix
  | none => fail "an unknown tag handle"

def properties : Reading (Option String × Option Tag) := do
  match ← peek with
  | some (.anchor anchor) =>
    advance
    match ← peek with
    | some (.tag handle suffix) => advance; return (anchor, ← resolveTag handle suffix)
    | _ => return (anchor, none)
  | some (.tag handle suffix) =>
    advance
    match ← peek with
    | some (.anchor anchor) => advance; return (anchor, ← resolveTag handle suffix)
    | _ => return (none, ← resolveTag handle suffix)
  | _ => return (none, none)

def isOneOf (token : Option Token) (tokens : List Token) : Bool := token.any tokens.contains

/-- A node that is not written is an empty plain scalar. -/
def absent : Reading Node := do
  weigh 1
  return .scalar none .plain ""

mutual

/-- Reads a node. `block` admits block collections, and `indentless` a sequence that is not
indented further than the mapping around it. -/
def read (fuel : Nat) (block indentless : Bool) : Reading Node := do
  match fuel with
  | 0 => fail "too deep"
  | fuel + 1 =>
    if let some (.alias anchor) := ← peek then
      advance
      weigh 1
      match (← get).names.lookup anchor with
      | some number => return .alias number
      | none => fail "an unknown anchor"
    let (anchor, tag) ← properties
    let number ← anchor.mapM name
    let place := (← get).anchors.length
    let node ← do
      match ← peek with
      | some (.scalar text style) =>
        advance
        weigh 1
        pure (.scalar tag style text)
      | some .flowSequenceStart =>
        advance
        weigh 2
        pure (.sequence tag (← flowItems fuel true))
      | some .flowMappingStart =>
        advance
        weigh 2
        pure (.mapping tag (← flowEntries fuel true))
      | token =>
        if indentless && token == some .blockEntry then
          weigh 2
          pure (.sequence tag (← indentlessItems fuel))
        else if block && token == some .blockSequenceStart then
          advance
          weigh 2
          pure (.sequence tag (← blockItems fuel))
        else if block && token == some .blockMappingStart then
          advance
          weigh 2
          pure (.mapping tag (← blockEntries fuel))
        else if anchor.isSome || tag.isSome then
          weigh 1
          pure (.scalar tag .plain "")
        else fail "no node"
    register number place node
    return node

def readUnless (fuel : Nat) (stops : List Token) (block indentless : Bool) : Reading Node := do
  match fuel with
  | 0 => fail "too deep"
  | fuel + 1 =>
    if isOneOf (← peek) stops then absent else read fuel block indentless

def blockItems (fuel : Nat) : Reading (List Node) := do
  match fuel with
  | 0 => fail "too deep"
  | fuel + 1 =>
    match ← peek with
    | some .blockEntry =>
      advance
      let item ← readUnless fuel [.blockEntry, .blockEnd] true false
      return item :: (← blockItems fuel)
    | some .blockEnd => advance; return []
    | _ => fail "no sequence entry"

def indentlessItems (fuel : Nat) : Reading (List Node) := do
  match fuel with
  | 0 => fail "too deep"
  | fuel + 1 =>
    match ← peek with
    | some .blockEntry =>
      advance
      let item ← readUnless fuel [.blockEntry, .key, .value, .blockEnd] true false
      return item :: (← indentlessItems fuel)
    | _ => return []

def blockEntries (fuel : Nat) : Reading (List (Node × Node)) := do
  match fuel with
  | 0 => fail "too deep"
  | fuel + 1 =>
    match ← peek with
    | some .blockEnd => advance; return []
    | some .key =>
      advance
      let key ← readUnless fuel [.key, .value, .blockEnd] true true
      let value ← blockValue fuel
      return (key, value) :: (← blockEntries fuel)
    | _ => fail "no key"

def blockValue (fuel : Nat) : Reading Node := do
  match fuel with
  | 0 => fail "too deep"
  | fuel + 1 =>
    match ← peek with
    | some .value =>
      advance
      readUnless fuel [.key, .value, .blockEnd] true true
    | _ => absent

def flowItems (fuel : Nat) (first : Bool) : Reading (List Node) := do
  match fuel with
  | 0 => fail "too deep"
  | fuel + 1 =>
    if (← peek) == some .flowSequenceEnd then
      advance
      return []
    if !first then
      if (← peek) == some .flowEntry then advance else fail "no comma"
    match ← peek with
    | some .flowSequenceEnd => advance; return []
    | some .key =>
      advance
      weigh 2
      let entry ← flowPair fuel
      return .mapping none [entry] :: (← flowItems fuel false)
    | _ =>
      let item ← read fuel false false
      return item :: (← flowItems fuel false)

def flowPair (fuel : Nat) : Reading (Node × Node) := do
  match fuel with
  | 0 => fail "too deep"
  | fuel + 1 =>
    let key ← do
      if isOneOf (← peek) [.value, .flowEntry, .flowSequenceEnd] then
        advance
        absent
      else read fuel false false
    if (← peek) == some .value then
      advance
      return (key, ← readUnless fuel [.flowEntry, .flowSequenceEnd] false false)
    return (key, ← absent)

def flowEntries (fuel : Nat) (first : Bool) : Reading (List (Node × Node)) := do
  match fuel with
  | 0 => fail "too deep"
  | fuel + 1 =>
    if (← peek) == some .flowMappingEnd then
      advance
      return []
    if !first then
      if (← peek) == some .flowEntry then advance else fail "no comma"
    match ← peek with
    | some .flowMappingEnd => advance; return []
    | some .key =>
      advance
      let key ← readUnless fuel [.value, .flowEntry, .flowMappingEnd] false false
      let value ← do
        if (← peek) == some .value then
          advance
          readUnless fuel [.flowEntry, .flowMappingEnd] false false
        else absent
      return (key, value) :: (← flowEntries fuel false)
    | _ =>
      let key ← read fuel false false
      let value ← absent
      return (key, value) :: (← flowEntries fuel false)

end

def isDirective : Option Token → Bool
  | some (.versionDirective ..) | some (.tagDirective ..) => true
  | _ => false

def directives : Nat → Bool → Reading Unit
  | 0, _ => return ()
  | fuel + 1, versioned => do
    match ← peek with
    | some (.versionDirective major minor) =>
      if versioned then fail "two versions"
      if major ≠ 1 || (minor ≠ 1 && minor ≠ 2) then fail "an unknown version"
      advance
      directives fuel true
    | some (.tagDirective handle expansion) =>
      if ((← get).handles.lookup handle).isSome then fail "two expansions of a handle"
      advance
      modify fun p => { p with handles := (handle, expansion) :: p.handles }
      directives fuel versioned
    | _ => return ()

def skipDocumentEnds : Nat → Reading Unit
  | 0 => return ()
  | fuel + 1 => do
    if (← peek) == some .documentEnd then
      advance
      skipDocumentEnds fuel

/-- The one document of a text. Each token is read by a few calls at most. -/
def document : Reading (Option Node) := do
  let fuel := 4 * (← get).tokens.length + 4
  if (← peek).isNone then return none
  let directed := isDirective (← peek)
  directives fuel false
  let explicit := (← peek) == some .documentStart
  if explicit then advance
  if directed && !explicit then fail "directives without a document"
  let token ← peek
  let root ← do
    if explicit && (token.isNone || isDirective token ||
        isOneOf token [.documentStart, .documentEnd]) then absent
    else read fuel true false
  skipDocumentEnds fuel
  if (← peek).isSome then fail "more than one document"
  return some root

end Node

def Document.read (text : String) : Except String (Option Document) := do
  let tokens ← Token.scan text
  let (root, progress) ← Node.document.run ⟨tokens, [], [], [], 0⟩
  return root.map fun root => ⟨root, progress.anchors.reverse, progress.weight⟩

end Planar.Yaml
