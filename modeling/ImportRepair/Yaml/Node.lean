import ImportRepair.Yaml.Graph
import ImportRepair.Yaml.Scan

/-!
# From tokens to nodes

The nodes of a document are read from its tokens. An alias is the node that it names, also where it
stands within that node.
-/

namespace ImportRepair.Yaml

namespace Node

/-- What is left of a document, and what has been named in it. -/
structure Reader where
  tokens : List Token
  /-- The error that ends the tokens. -/
  error : Option Error
  /-- The texts that tag handles stand for. -/
  handles : List (Text × Text)
  /-- The nodes that have a name. -/
  anchors : List (Text × Nat)
  /-- The nodes read so far; collections that are still open among them. -/
  graph : Graph
  /-- The number of open collections. -/
  level : Nat

/-- A computation that reads nodes. -/
abbrev Read := StateT Reader (Except Error)

/-- The next token, which is not read. -/
def peek : Read Token := do
  let s ← get
  match s.tokens with
  | token :: _ => return token
  | [] => throw (s.error.getD .malformed)

/-- Reads the next token. -/
def skip : Read Unit := modify fun s => { s with tokens := s.tokens.drop 1 }

/-- Whether the next token is one of the given. -/
def nextIs (tokens : List Token) : Read Bool := do return tokens.contains (← peek)

/-- Reads the next token, which has to be the given one. -/
def expect (token : Token) : Read Unit := do
  if (← peek) = token then skip else throw .malformed

/-- Adds a node, which may have a name. A name may not be used twice. -/
def add (anchor : Option Text) (node : Node) : Read Nat := do
  let s ← get
  let number := s.graph.size
  match anchor with
  | none => set { s with graph := s.graph.push node }
  | some name =>
    if (s.anchors.lookup name).isSome then throw .malformed
    set { s with graph := s.graph.push node, anchors := (name, number) :: s.anchors }
  return number

/-- Adds the node of what is left out. -/
def addAbsent : Read Nat := add none absent

/-- The anchor and the tag before a node. -/
def readProperties : Read (Option Text × Option Text) := do
  let full (handle : Option Text) (suffix : Text) : Read Text := do
    match handle with
    | none => return suffix
    | some handle =>
      match (← get).handles.lookup handle with
      | none => throw .malformed
      | some meaning => return meaning ++ suffix
  match ← peek with
  | .anchor name =>
    skip
    match ← peek with
    | .tag handle suffix =>
      skip
      return (some name, some (← full handle suffix))
    | _ => return (some name, none)
  | .tag handle suffix =>
    skip
    match ← peek with
    | .anchor name =>
      skip
      return (some name, some (← full handle suffix))
    | _ => return (none, some (← full handle suffix))
  | _ => return (none, none)

/-- The tag of a node whose full tag is known; `default` is for none, and for the lone
mark that asks for it. -/
def tagOr (tag : Option Text) (default : StandardTag) : Tag :=
  match tag with
  | none => .standard default
  | some name =>
    if name = ("!" : Text) then .standard default
    else
      match StandardTag.ofName? name with
      | some tag => .standard tag
      | none => .unknown

/-- The node of a scalar. Quoted text without a tag is text. -/
def ofScalar (tag : Option Text) (plain : Bool) (text : Text) : Node :=
  .scalar (tagOr tag (if plain || tag.isSome then implicitTag text else .str)) text

/-- How many collections can be open at once. -/
def maxLevel : Nat := 490

/-- Adds a collection, which has its number and its name before its parts are read. -/
def addCollection (anchor : Option Text) (readParts : Read Node) : Read Nat := do
  let number ← add anchor absent
  if maxLevel ≤ (← get).level then throw .tooDeep
  modify fun s => { s with level := s.level + 1 }
  let node ← readParts
  modify fun s => { s with graph := s.graph.change number fun _ => node, level := s.level - 1 }
  return number

/-! Each reader below takes a bound for the depth of calls, which the number of tokens gives. -/

mutual

/-- A node. In a block it may be a block collection; where a mapping allows it, a sequence
need not be indented. -/
def read : (depth : Nat) → (block indentless : Bool) → Read Nat
  | 0, _, _ => throw .malformed
  | depth + 1, block, indentless => do
    match ← peek with
    | .alias name =>
      skip
      match (← get).anchors.lookup name with
      | none => throw .malformed
      | some number => return number
    | _ =>
      let (anchor, tag) ← readProperties
      match ← peek with
      | .scalar plain text =>
        skip
        add anchor (ofScalar tag plain text)
      | .flowSequenceStart =>
        skip
        addCollection anchor do return .sequence (tagOr tag .seq) (← readFlowItems depth true)
      | .flowMappingStart =>
        skip
        addCollection anchor do return .mapping (tagOr tag .map) (← readFlowEntries depth true)
      | token =>
        if indentless && token = .blockEntry then
          addCollection anchor do return .sequence (tagOr tag .seq) (← readIndentlessItems depth)
        else if block && token = .blockSequenceStart then
          skip
          addCollection anchor do return .sequence (tagOr tag .seq) (← readBlockItems depth)
        else if block && token = .blockMappingStart then
          skip
          addCollection anchor do return .mapping (tagOr tag .map) (← readBlockEntries depth)
        else if anchor.isSome || tag.isSome then add anchor (ofScalar tag true [])
        else throw .malformed

/-- A node, or nothing if one of the given tokens comes next. -/
def readUnless : (depth : Nat) → (ends : List Token) → (block indentless : Bool) → Read Nat
  | 0, _, _, _ => throw .malformed
  | depth + 1, ends, block, indentless => do
    if ← nextIs ends then addAbsent else read depth block indentless

/-- The items of a block sequence. -/
def readBlockItems : (depth : Nat) → Read (List Nat)
  | 0 => throw .malformed
  | depth + 1 => do
    if (← peek) = .blockEntry then
      skip
      let item ← readUnless depth [.blockEntry, .blockEnd] true false
      return item :: (← readBlockItems depth)
    else
      expect .blockEnd
      return []

/-- The items of a sequence that is not indented. -/
def readIndentlessItems : (depth : Nat) → Read (List Nat)
  | 0 => throw .malformed
  | depth + 1 => do
    if (← peek) = .blockEntry then
      skip
      let item ← readUnless depth [.blockEntry, .key, .value, .blockEnd] true false
      return item :: (← readIndentlessItems depth)
    else return []

/-- The entries of a block mapping. -/
def readBlockEntries : (depth : Nat) → Read (List (Nat × Nat))
  | 0 => throw .malformed
  | depth + 1 => do
    let ends : List Token := [.key, .value, .blockEnd]
    let readValue : Read Nat := do
      if (← peek) = .value then
        skip
        readUnless depth ends true true
      else addAbsent
    match ← peek with
    | .key =>
      skip
      let key ← readUnless depth ends true true
      let value ← readValue
      return (key, value) :: (← readBlockEntries depth)
    | _ =>
      expect .blockEnd
      return []

/-- The items of a flow sequence. A key among them makes a mapping of one entry. -/
def readFlowItems : (depth : Nat) → (first : Bool) → Read (List Nat)
  | 0, _ => throw .malformed
  | depth + 1, first => do
    if (← peek) = .flowSequenceEnd then
      skip
      return []
    if !first then expect .flowEntry
    match ← peek with
    | .key =>
      skip
      let entry ← addCollection none do
        let key ← readUnless depth [.value, .flowEntry, .flowSequenceEnd] false false
        let value ←
          if (← peek) = .value then
            skip
            readUnless depth [.flowEntry, .flowSequenceEnd] false false
          else addAbsent
        return .mapping (.standard .map) [(key, value)]
      return entry :: (← readFlowItems depth false)
    | .flowSequenceEnd =>
      skip
      return []
    | _ =>
      let item ← read depth false false
      return item :: (← readFlowItems depth false)

/-- The entries of a flow mapping. -/
def readFlowEntries : (depth : Nat) → (first : Bool) → Read (List (Nat × Nat))
  | 0, _ => throw .malformed
  | depth + 1, first => do
    if (← peek) = .flowMappingEnd then
      skip
      return []
    if !first then expect .flowEntry
    match ← peek with
    | .key =>
      skip
      let key ← readUnless depth [.value, .flowEntry, .flowMappingEnd] false false
      let value ←
        if (← peek) = .value then
          skip
          readUnless depth [.flowEntry, .flowMappingEnd] false false
        else addAbsent
      return (key, value) :: (← readFlowEntries depth false)
    | .flowMappingEnd =>
      skip
      return []
    | _ =>
      let key ← read depth false false
      return (key, ← addAbsent) :: (← readFlowEntries depth false)

end

/-! ## Documents -/

/-- The directives before a document: at most one version, which has to be of the first kind,
and each handle once. -/
def readDirectives : (versioned : Bool) → List Token → Read Unit
  | versioned, .version major :: rest => do
    if versioned || major ≠ 1 then throw .malformed
    skip
    readDirectives true rest
  | versioned, .tagDirective handle meaning :: rest => do
    let s ← get
    if (s.handles.lookup handle).isSome then throw .malformed
    set { s with handles := (handle, meaning) :: s.handles }
    skip
    readDirectives versioned rest
  | versioned, .directive :: rest => do
    skip
    readDirectives versioned rest
  | _, _ => return

/-- The handles that stand for something without a directive. -/
def defaultHandles : List (Text × Text) := [("!", "!"), ("!!", StandardTag.stem)]

/-- Whether a token is a directive. -/
def isDirective : Token → Bool
  | .version _ | .tagDirective _ _ | .directive => true
  | _ => false

/-- Reads the ends of documents. -/
def skipEnds : List Token → Read Unit
  | .documentEnd :: rest => do
    skip
    skipEnds rest
  | _ => return

/-- Refuses a second document, once its directives are read. -/
def refuseNext : Read Unit := do
  modify fun s => { s with handles := [] }
  readDirectives false (← get).tokens
  let _ ← peek
  throw .malformed

/-- The root of the only document of the tokens; nothing if there is none. -/
def readDocument (depth : Nat) : Read (Option Nat) := do
  let token ← peek
  if token = .streamEnd then return none
  let root ←
    if isDirective token || token = .documentStart then
      readDirectives false (← get).tokens
      modify fun s => { s with handles := s.handles ++ defaultHandles }
      expect .documentStart
      let token ← peek
      if isDirective token || token = .documentStart || token = .documentEnd ||
          token = .streamEnd then
        addAbsent
      else read depth true false
    else
      modify fun s => { s with handles := defaultHandles }
      read depth true false
  let _ ← peek
  skipEnds (← get).tokens
  if (← peek) ≠ .streamEnd then refuseNext
  return some root

/-- The nodes of the only document of the tokens, and its root. -/
def ofTokens (tokens : List Token) (error : Option Error) : Except Error (Option (Nat × Graph)) :=
  (readDocument (4 * tokens.length + 16) ⟨tokens, error, [], [], #[], 0⟩).map fun (root, s) =>
    root.map (·, s.graph)

end Node

end ImportRepair.Yaml
