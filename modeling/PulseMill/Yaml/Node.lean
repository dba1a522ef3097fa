import PulseMill.Yaml.Layout
set_option autoImplicit false

namespace PulseMill.Yaml

inductive Node where
  | scalar (text : String) (style : Style) (tag : Option String)
  | mapping (entries : List (Node × Node))
  | sequence (items : List Node)
  | labelled (label : Nat) (node : Node)
  | reference (label : Nat)
  deriving Repr, Inhabited

namespace Node

def empty : Node := .scalar "" .plain none

mutual

def find? (label : Nat) : Node → Option Node
  | .labelled l node => find? label node <|> if l = label then some node else none
  | .mapping entries => findInEntries? label entries
  | .sequence items => findInItems? label items
  | _ => none

def findInItems? (label : Nat) : List Node → Option Node
  | [] => none
  | item :: items => findInItems? label items <|> find? label item

def findInEntries? (label : Nat) : List (Node × Node) → Option Node
  | [] => none
  | (key, value) :: entries =>
    findInEntries? label entries <|> find? label value <|> find? label key

end

/-- A node without its label, or for a reference in the tree of `root` the node that it
stands for. -/
def resolve (root : Node) : Node → Option Node
  | .reference label => root.find? label
  | .labelled _ node => some node
  | node => some node

end Node

structure Reading where
  tokens : List Token
  labels : List (String × Nat) := []
  handles : List (String × String) := []
  deriving Repr

abbrev Reader := StateT Reading Option

namespace Reader

def peek : Reader (Option Token) := do return (← get).tokens.head?

def skip : Reader Unit := modify fun r => { r with tokens := r.tokens.drop 1 }

def accept (t : Token) : Reader Bool := do
  if (← peek) = some t then
    skip
    return true
  return false

def expect (t : Token) : Reader Unit := do
  if !(← accept t) then failure

def isNext (ts : List Token) : Reader Bool := do
  return (← peek).any fun t => ts.contains t

/-- A name gets a new label each time: the number of names that have one already. -/
def newLabel (name : String) : Reader Nat := do
  let label := (← get).labels.length
  modify fun r => { r with labels := (name, label) :: r.labels.filter (·.1 ≠ name) }
  return label

def fullTag (handle ending : String) : Reader String := do
  if handle.isEmpty then return ending
  match (← get).handles.lookup handle with
  | some lead => return lead ++ ending
  | none => failure

def anchor? : Reader (Option String) := do
  match ← peek with
  | some (.anchor name) =>
    skip
    return some name
  | _ => return none

def tag? : Reader (Option String) := do
  match ← peek with
  | some (.tag handle ending) =>
    skip
    return some (← fullTag handle ending)
  | _ => return none

def properties : Reader (Option String × Option String) := do
  match ← anchor? with
  | some name => return (some name, ← tag?)
  | none =>
    let tag ← tag?
    return (← anchor?, tag)

end Reader

/-- What is around a node: in a flow collection no block collection can start, and in a
block mapping the items of a sequence may stand as far left as the key. -/
inductive Around where
  | flow
  | block
  | entry
  deriving DecidableEq, Repr

namespace Node

open Reader

mutual

def read (around : Around) : (fuel : Nat) → Reader Node
  | 0 => failure
  | fuel + 1 => do
    if let some (.reference name) ← peek then
      skip
      let some label := (← get).labels.lookup name | failure
      return .reference label
    let (name, tag) ← properties
    let label ← name.mapM newLabel
    let node ← readContent around tag (name.isSome || tag.isSome) fuel
    return match label with
      | some label => .labelled label node
      | none => node

def readContent (around : Around) (tag : Option String) (mayBeEmpty : Bool) :
    (fuel : Nat) → Reader Node
  | 0 => failure
  | fuel + 1 => do
    match ← peek with
    | some (.scalar text style) =>
      skip
      return .scalar text style tag
    | some .flowSequence =>
      skip
      return .sequence (← readFlowItems true fuel)
    | some .flowMapping =>
      skip
      return .mapping (← readFlowEntries true fuel)
    | some .item =>
      if around = .entry then return .sequence (← readIndentless fuel)
    | some .blockSequence =>
      if around ≠ .flow then
        skip
        return .sequence (← readBlockItems fuel)
    | some .blockMapping =>
      if around ≠ .flow then
        skip
        return .mapping (← readBlockEntries fuel)
    | _ => pure ()
    if mayBeEmpty then return .scalar "" .plain tag
    failure

def readUnless (ends : List Token) (around : Around) : (fuel : Nat) → Reader Node
  | 0 => failure
  | fuel + 1 => do
    if ← isNext ends then return empty
    read around fuel

def readBlockItems : (fuel : Nat) → Reader (List Node)
  | 0 => failure
  | fuel + 1 => do
    if ← accept .blockEnd then return []
    expect .item
    let item ← readUnless [.item, .blockEnd] .block fuel
    return item :: (← readBlockItems fuel)

/-- Items of a sequence that the end of the mapping around it ends too. -/
def readIndentless : (fuel : Nat) → Reader (List Node)
  | 0 => failure
  | fuel + 1 => do
    if !(← accept .item) then return []
    let item ← readUnless [.item, .key, .value, .blockEnd] .block fuel
    return item :: (← readIndentless fuel)

def readBlockEntries : (fuel : Nat) → Reader (List (Node × Node))
  | 0 => failure
  | fuel + 1 => do
    if ← accept .blockEnd then return []
    expect .key
    let key ← readUnless [.key, .value, .blockEnd] .entry fuel
    let value ←
      if ← accept .value then readUnless [.key, .value, .blockEnd] .entry fuel
      else pure empty
    return (key, value) :: (← readBlockEntries fuel)

def readFlowValue (close : Token) : (fuel : Nat) → Reader Node
  | 0 => failure
  | fuel + 1 => do
    if ← accept .value then readUnless [.comma, close] .flow fuel
    else return empty

/-- A mapping of one key may stand as an item. Where that key is left out, the token
after its mark counts for it. -/
def readFlowItems (first : Bool) : (fuel : Nat) → Reader (List Node)
  | 0 => failure
  | fuel + 1 => do
    if ← accept .flowSequenceEnd then return []
    if !first then
      expect .comma
      if ← accept .flowSequenceEnd then return []
    let item ←
      if ← accept .key then
        let key ←
          if ← isNext [.value, .comma, .flowSequenceEnd] then
            skip
            pure empty
          else read .flow fuel
        let value ← readFlowValue .flowSequenceEnd fuel
        pure (.mapping [(key, value)])
      else read .flow fuel
    return item :: (← readFlowItems false fuel)

def readFlowEntries (first : Bool) : (fuel : Nat) → Reader (List (Node × Node))
  | 0 => failure
  | fuel + 1 => do
    if ← accept .flowMappingEnd then return []
    if !first then
      expect .comma
      if ← accept .flowMappingEnd then return []
    let entry ←
      if ← accept .key then
        let key ← readUnless [.value, .comma, .flowMappingEnd] .flow fuel
        pure (key, ← readFlowValue .flowMappingEnd fuel)
      else pure (← read .flow fuel, empty)
    return entry :: (← readFlowEntries false fuel)

end

def usualHandles : List (String × String) := [("!", "!"), ("!!", "tag:yaml.org,2002:")]

/-- Directives before a document. Each may be given once, for tags once a handle. -/
def readDirectives (versioned : Bool) (handles : List (String × String)) :
    List Token → Option (List (String × String) × List Token)
  | .version :: rest => if versioned then none else readDirectives true handles rest
  | .tagHandle handle lead :: rest =>
    if (handles.lookup handle).isSome then none
    else readDirectives versioned ((handle, lead) :: handles) rest
  | rest => some (handles, rest)

def readDocument (fuel : Nat) (tokens : List Token) : Option (Node × List Token) := do
  let (handles, rest) ← readDirectives false [] tokens
  let reading : Reading := { tokens := rest, handles := handles ++ usualHandles }
  let (node, after) ←
    match tokens, rest with
    | [], _ => some (empty, reading)
    | _, .documentStart :: rest =>
      let reading := { reading with tokens := rest }
      if rest.isEmpty then some (empty, reading)
      else (readUnless [.documentEnd] .block fuel).run reading
    | .version :: _, _ | .tagHandle .. :: _, _ => none
    | _, _ => (read .block fuel).run reading
  return (node, after.tokens)

def parse? (text : String) : Option Node := do
  let tokens ← Token.ofText? text
  let (node, after) ← readDocument (4 * tokens.length + 8) tokens
  if (after.dropWhile (· = .documentEnd)).isEmpty then some node else none

end Node

end PulseMill.Yaml
