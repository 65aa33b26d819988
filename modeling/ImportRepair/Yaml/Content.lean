import ImportRepair.Text.Basic
import ImportRepair.Value.Basic
import ImportRepair.Yaml.Merge
import ImportRepair.Yaml.Number

/-!
# From nodes to contents

What a node stands for by its tag: a value, or a collection whose parts are given by their numbers.
Collections are filled level by level, in the order in which they are met, so that of several errors
the one nearest to the root counts, and of those the first.
-/

namespace ImportRepair.Yaml

/-! ## Bytes in base 64

Four characters of the alphabet stand for three bytes. All other characters are skipped, and the
first complete padding ends the text.
-/

namespace Base64

/-- The value of a character of the alphabet. -/
def sextet? (c : CodePoint) : Option Nat :=
  if 65 ≤ c.val ∧ c.val ≤ 90 then some (c.val - 65)
  else if 97 ≤ c.val ∧ c.val ≤ 122 then some (c.val - 71)
  else if 48 ≤ c.val ∧ c.val ≤ 57 then some (c.val + 4)
  else if c.val = 43 then some 62
  else if c.val = 47 then some 63
  else none

/-- Reads on after `read` characters of a group of four, of which the bits in `left` are still to be
used, and `pads` signs of padding. -/
def readFrom : (read left pads : Nat) → Text → Option (List UInt8)
  | read, _, _, [] => if read = 0 then some [] else none
  | read, left, pads, c :: t =>
    if c.val = 61 then
      if 2 ≤ read then
        if 4 ≤ read + pads + 1 then some [] else readFrom read left (pads + 1) t
      else readFrom read left pads t
    else
      match sextet? c with
      | none => readFrom read left pads t
      | some v =>
        match read with
        | 0 => readFrom 1 v 0 t
        | 1 => (readFrom 2 (v % 16) 0 t).map (UInt8.ofNat (left * 4 + v / 16) :: ·)
        | 2 => (readFrom 3 (v % 4) 0 t).map (UInt8.ofNat (left * 16 + v / 4) :: ·)
        | _ => (readFrom 0 0 0 t).map (UInt8.ofNat (left * 64 + v) :: ·)

/-- The bytes that a text stands for. -/
def read? (t : Text) : Option (List UInt8) :=
  if t.all fun c => c.val < 128 then readFrom 0 0 0 t else none

end Base64

/-! ## Scalars -/

/-- The words for truth values. -/
def truthWords : List (Text × Bool) :=
  [("yes", true), ("no", false), ("true", true), ("false", false), ("on", true), ("off", false)]

/-- The date or the moment that a text stands for. A line feed after it does not count. -/
def readTimestamp (t : Text) : Except Error Value := do
  let bare := if t.getLast? = some (10 : CodePoint) then t.dropLast else t
  let some d := DateText.read? bare | throw .badDate
  let number (digits : Text) : Nat := digits.foldl (fun n c => n * 10 + (c.val - 48)) 0
  match d.time with
  | none =>
    return .date (← (Date.of (number d.year) (number d.month) (number d.day)).mapError .calendar)
  | some (hour, minute, second, fraction) =>
    let micro := number ((fraction.take 6 ++ List.replicate 6 (48 : CodePoint)).take 6)
    let offset : Option Int := d.zone.map fun zone =>
      match zone with
      | none => 0
      | some (negative, hour, minute) =>
        let minutes : Int := (number hour * 60 + number minute : Nat)
        if negative then -minutes else minutes
    let m ← (Moment.of (number d.year) (number d.month) (number d.day) (number hour) (number minute)
      (number second) micro offset).mapError .calendar
    return .moment m

/-- The value of a scalar with a tag. -/
def scalarValue (tag : StandardTag) (t : Text) : Except Error Value :=
  match tag with
  | .null => .ok .null
  | .bool =>
    let word := Text.toLower t
    match truthWords.lookup word with
    | some b => .ok (.bool b)
    | none => .error (.badTruth word)
  | .int => (Number.readInt t).map .int
  | .float => (Number.readFloat t).map .float
  | .binary =>
    match Base64.read? t with
    | some bytes => .ok (.bytes bytes)
    | none => .error .malformed
  | .timestamp => readTimestamp t
  | .str => .ok (.text t)
  | _ => .error .malformed

/-- Whether a tag is for collections. -/
def StandardTag.isCollection : StandardTag → Bool
  | .omap | .pairs | .set | .seq | .map => true
  | _ => false

namespace Graph

/-- The text of a node that stands for a scalar: a mapping does by its plain value. Plain values are
looked for down to a depth. -/
def plainText (g : Graph) : (depth : Nat) → (number : Nat) → Except Error Text
  | 0, _ => .error .tooDeep
  | depth + 1, number =>
    match g.node number with
    | .scalar _ t => .ok t
    | .sequence _ _ => .error .malformed
    | .mapping _ entries =>
      match entries.find? fun entry => g.hasTag entry.1 .value with
      | some (_, value) => g.plainText depth value
      | none => .error .malformed

end Graph

/-! ## Collections -/

/-- What is known of a node's value. -/
inductive Content
  | scalar (v : Value)
  | list (items : List Nat)
  | pairs (items : List (Nat × Nat))
  | set (keys : List Nat)
  | map (entries : List (Nat × Nat))

/-- The contents of nodes, as far as they are known. -/
structure Contents where
  graph : Graph
  known : Array (Option Content)
  /-- The collections that are met but not filled, the last one first. -/
  waiting : List Nat

/-- A computation that finds contents. -/
abbrev Fill := StateT Contents (Except Error)

namespace Contents

/-- The content of a node, if it is known. -/
def content? (s : Contents) (number : Nat) : Option Content := (s.known[number]?).join

/-- The value of a node that is known to be a scalar. -/
def scalar? (s : Contents) (number : Nat) : Option Value :=
  match s.content? number with
  | some (.scalar v) => some v
  | _ => none

/-- The contents with one of them learnt. -/
def learn (number : Nat) (content : Content) (s : Contents) : Contents :=
  { s with known := s.known.setIfInBounds number (some content) }

/-- Whether two nodes are the same key. -/
def sameKey (s : Contents) (a b : Nat) : Bool :=
  a = b ||
    match s.scalar? a, s.scalar? b with
    | some v, some w => v.sameKey w
    | _, _ => false

/-- The entries with a value put at a key: a key keeps its place. -/
def put (s : Contents) (key value : Nat) : List (Nat × Nat) → List (Nat × Nat)
  | [] => [(key, value)]
  | (k, v) :: rest => if s.sameKey k key then (k, value) :: rest else (k, v) :: s.put key value rest

end Contents

namespace Fill

/-- Meets a node: a scalar has its value at once, a collection is filled later. All
scalars that are spelled as what is no number have one value in common; any other way to
it gives a value of its own. -/
def visit (number : Nat) : Fill Unit := do
  let s ← get
  if (s.content? number).isSome then return
  match (s.graph.node number).tag with
  | .unknown => throw .malformed
  | .standard tag =>
    if tag.isCollection then
      set { s.learn number (.list []) with waiting := number :: s.waiting }
    else
      let depth := s.graph.size + 1
      match tag, s.graph.node number with
      | .timestamp, .mapping _ _ =>
        let _ ← s.graph.plainText depth number
        throw .dateOfMapping
      | _, _ =>
        if [StandardTag.merge, .value, .indicator].contains tag then throw .malformed
        let t ← s.graph.plainText depth number
        let v ← scalarValue tag t
        set (s.learn number
          (.scalar (if tag = .float && Number.isNanWord t then v else v.own number)))

/-- Meets the key of a mapping, which has to be a scalar. -/
def visitKey (number : Nat) : Fill Unit := do
  visit number
  if ((← get).scalar? number).isNone then throw .malformed

/-- The pair that a mapping of one entry stands for. -/
def visitPair (number : Nat) : Fill (Nat × Nat) := do
  match (← get).graph.node number with
  | .mapping _ [(key, value)] =>
    visit key
    visit value
    return (key, value)
  | _ => throw .malformed

/-- The entries of a mapping, those that it takes over among them, each key once. -/
def visitEntries (depth number : Nat) : Fill (List (Nat × Nat)) := do
  let s ← get
  let ((), graph) ← (Graph.takeOver depth number).run s.graph
  set { s with graph }
  (graph.node number).entries.foldlM (fun entries (key, value) => do
    visitKey key
    visit value
    return (← get).put key value entries) []

/-- Fills a collection. -/
def fill (depth number : Nat) : Fill Unit := do
  let content ← match (← get).graph.node number with
    | .sequence (.standard .seq) items =>
      items.forM visit
      pure (.list items)
    | .sequence (.standard .omap) items => .pairs <$> items.mapM visitPair
    | .sequence (.standard .pairs) items => .pairs <$> items.mapM visitPair
    | .mapping (.standard .map) _ => .map <$> visitEntries depth number
    | .mapping (.standard .set) _ =>
      (fun entries => .set (entries.map (·.1))) <$> visitEntries depth number
    | _ => throw .malformed
  modify (·.learn number content)

/-- Fills the collections that were met, then those that were met meanwhile, and so on. A node is
met once, so the number of nodes bounds the rounds. -/
def fillAll (depth : Nat) : (rounds : Nat) → Fill Unit
  | 0 => return
  | rounds + 1 => do
    let waiting := (← get).waiting.reverse
    if !waiting.isEmpty then
      modify fun s => { s with waiting := [] }
      waiting.forM (fill depth)
      fillAll depth rounds

end Fill

/-- The contents of all nodes that can be reached from a root. -/
def Graph.contents (g : Graph) (root : Nat) : Except Error Contents := do
  let fillFrom : Fill Unit := do
    Fill.visit root
    Fill.fillAll (g.entryCount + 1) (g.size + 1)
  let ((), s) ← fillFrom.run ⟨g, Array.replicate g.size none, []⟩
  return s

end ImportRepair.Yaml
