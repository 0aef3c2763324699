import Admission.Yaml.Token

/-!
# Nodes of YAML documents

Tokens make up documents, each of one node.  A node may carry a tag and an anchor; an alias stands
for the node with the anchor of its name.  Anchors are local to a document, and so are the handles
that its directives give meaning to.  What is left out, between a colon and the next key say, is an
empty plain scalar.
-/

namespace Admission.Yaml

/-- A node, its aliases by number. -/
inductive Node where
  | scalar (tag : Option String) (plain : Bool) (text : String)
  | sequence (tag : Option String) (items : List Node)
  | mapping (tag : Option String) (pairs : List (Node × Node))
  | alias (number : Nat)
  deriving Inhabited

/-- What is left out. -/
def Node.empty : Node := .scalar none true ""

/-- A document: its node and the nodes that aliases stand for. -/
structure Document where
  root : Node
  /-- The nodes with an anchor, with the order they begin in and the number of the anchor. -/
  anchored : List (Nat × Nat × Node)
  /-- How many parts the nodes have: a scalar or an alias counts once, a collection twice. -/
  size : Nat

/-- What is known while tokens are put together. -/
structure Composer where
  tokens : List Token
  /-- What the handles of tags stand for. -/
  handles : List (String × String) := []
  /-- The names of anchors with their numbers, the latest first. -/
  names : List (String × Nat) := []
  /-- How many anchors there were. -/
  begun : Nat := 0
  anchored : List (Nat × Nat × Node) := []
  size : Nat := 0

abbrev Compose := StateT Composer (Except Fault)

namespace Compose

/-! ## 1. tokens and properties -/

/-- The next token, none at the end. -/
def peek : Compose (Option Token) := do return (← get).tokens.head?

def skip : Compose Unit := modify fun s => { s with tokens := s.tokens.drop 1 }

/-- Whether the next token is one of some. -/
def isNext (tokens : List Token) : Compose Bool := do
  match ← peek with
  | some token => return tokens.contains token
  | none => return false

/-- Counts parts of a node. -/
def count (n : Nat) : Compose Unit := modify fun s => { s with size := s.size + n }

/-- The scalar for what is left out. -/
def omitted : Compose Node := do
  count 1
  return .empty

/-- The handles that have a meaning when no directive says another. -/
def commonHandles : List (String × String) := [("!", "!"), ("!!", "tag:yaml.org,2002:")]

/-- The tag that a handle and a suffix make. -/
def tagOf (handle suffix : String) : Compose String := do
  if handle = "" then return suffix
  else
    match ((← get).handles ++ commonHandles).lookup handle with
    | some start => return start ++ suffix
    | none => throw .tag

/-- The anchor and the tag in front of a node, in either order. -/
def properties : Compose (Option String × Option String) := do
  match ← peek with
  | some (.anchor name) =>
    skip
    match ← peek with
    | some (.tag handle suffix) =>
      skip
      return (some name, some (← tagOf handle suffix))
    | _ => return (some name, none)
  | some (.tag handle suffix) =>
    skip
    let tag ← tagOf handle suffix
    match ← peek with
    | some (.anchor name) =>
      skip
      return (some name, some tag)
    | _ => return (none, some tag)
  | _ => return (none, none)

/-! ## 2. anchors -/

/-- Begins a node with an anchor: the number of the anchor is the number of names so far. -/
def beginAnchor (name : String) : Compose (Nat × Nat) := do
  let s ← get
  let number := s.names.length
  let names := (name, number) :: s.names.filter (·.1 ≠ name)
  set { s with names := names, begun := s.begun + 1 }
  return (s.begun, number)

def endAnchor (mark : Nat × Nat) (node : Node) : Compose Unit :=
  modify fun s => { s with anchored := (mark.1, mark.2, node) :: s.anchored }

/-- The alias of a name. -/
def aliasOf (name : String) : Compose Node := do
  count 1
  match (← get).names.lookup name with
  | some number => return .alias number
  | none => throw .alias

/-! ## 3. nodes -/

/-- Where a node stands, which decides what it may be. -/
inductive Place where
  | block
  /-- A key or a value of a block mapping: its items may stand at the indentation of the mapping. -/
  | pair
  | flow
  deriving DecidableEq, Repr

/-- The tag of a scalar; a lone exclamation mark leaves the scalar as it is. -/
def scalarTag (tag : Option String) : Option String := tag.filter (· ≠ "!")

mutual

/-- Reads a node. -/
def node : (fuel : Nat) → Place → Compose Node
  | 0, _ => throw .arrangement
  | fuel + 1, place => do
    match ← peek with
    | some (.alias name) =>
      skip
      aliasOf name
    | _ =>
      let (anchor?, tag) ← properties
      let mark? ← anchor?.mapM beginAnchor
      let node ← content fuel place (anchor?.isSome || tag.isSome) tag
      if let some mark := mark? then endAnchor mark node
      return node

/-- Reads what a node is besides its anchor and its tag, which may stand alone. -/
def content : (fuel : Nat) → Place → (marked : Bool) → (tag : Option String) → Compose Node
  | 0, _, _, _ => throw .arrangement
  | fuel + 1, place, marked, tag => do
    let collection (items : Compose Node) : Compose Node := do
      count 2
      skip
      items
    match ← peek with
    | some (.scalar plain text) =>
      count 1
      skip
      return .scalar (scalarTag tag) plain text
    | some .flowSequence => collection (.sequence tag <$> flowItems fuel true)
    | some .flowMapping => collection (.mapping tag <$> flowPairs fuel true)
    | some .blockSequence =>
      if place = .flow then throw .arrangement
      else collection (.sequence tag <$> blockItems fuel)
    | some .blockMapping =>
      if place = .flow then throw .arrangement
      else collection (.mapping tag <$> blockPairs fuel)
    | some .item =>
      if place = .pair then
        count 2
        .sequence tag <$> bareItems fuel
      else throw .arrangement
    | _ =>
      if marked then
        count 1
        return .scalar tag true ""
      else throw .arrangement

/-- Reads the items of a block sequence up to its end. -/
def blockItems : (fuel : Nat) → Compose (List Node)
  | 0 => throw .arrangement
  | fuel + 1 => do
    match ← peek with
    | some .item =>
      skip
      let item ← if ← isNext [.item, .blockEnd] then omitted else node fuel .block
      return item :: (← blockItems fuel)
    | some .blockEnd =>
      skip
      return []
    | _ => throw .arrangement

/-- Reads the items of a sequence that stands at the indentation of the mapping around it. -/
def bareItems : (fuel : Nat) → Compose (List Node)
  | 0 => throw .arrangement
  | fuel + 1 => do
    match ← peek with
    | some .item =>
      skip
      let item ← if ← isNext [.item, .key, .value, .blockEnd] then omitted else node fuel .block
      return item :: (← bareItems fuel)
    | _ => return []

/-- Reads the pairs of a block mapping up to its end. -/
def blockPairs : (fuel : Nat) → Compose (List (Node × Node))
  | 0 => throw .arrangement
  | fuel + 1 => do
    let part : Compose Node := do
      skip
      if ← isNext [.key, .value, .blockEnd] then omitted else node fuel .pair
    match ← peek with
    | some .key =>
      let key ← part
      let value ← if ← isNext [.value] then part else omitted
      return (key, value) :: (← blockPairs fuel)
    | some .blockEnd =>
      skip
      return []
    | _ => throw .arrangement

/-- Reads the items of a flow sequence up to its end; an item may be one pair. -/
def flowItems : (fuel : Nat) → (first : Bool) → Compose (List Node)
  | 0, _ => throw .arrangement
  | fuel + 1, first => do
    if ← isNext [.flowSequenceEnd] then
      skip
      return []
    else
      if !first then
        if ← isNext [.comma] then skip else throw .arrangement
      match ← peek with
      | some .flowSequenceEnd =>
        skip
        return []
      | some .key =>
        skip
        let pair ← flowPair fuel
        return .mapping none [pair] :: (← flowItems fuel false)
      | _ =>
        let item ← node fuel .flow
        return item :: (← flowItems fuel false)

/-- Reads the pair that is an item of a flow sequence, after the mark of its key.  Where the key is
left out, the token in its place is lost. -/
def flowPair : (fuel : Nat) → Compose (Node × Node)
  | 0 => throw .arrangement
  | fuel + 1 => do
    count 2
    let key ← if ← isNext [.value, .comma, .flowSequenceEnd] then do
        skip
        omitted
      else node fuel .flow
    if ← isNext [.value] then
      skip
      let value ← if ← isNext [.comma, .flowSequenceEnd] then omitted else node fuel .flow
      return (key, value)
    else return (key, ← omitted)

/-- Reads the pairs of a flow mapping up to its end; a node without a mark is a key alone. -/
def flowPairs : (fuel : Nat) → (first : Bool) → Compose (List (Node × Node))
  | 0, _ => throw .arrangement
  | fuel + 1, first => do
    if ← isNext [.flowMappingEnd] then
      skip
      return []
    else
      if !first then
        if ← isNext [.comma] then skip else throw .arrangement
      match ← peek with
      | some .flowMappingEnd =>
        skip
        return []
      | some .key =>
        skip
        let key ← if ← isNext [.value, .comma, .flowMappingEnd] then omitted else node fuel .flow
        let value ← if ← isNext [.value] then do
            skip
            if ← isNext [.comma, .flowMappingEnd] then omitted else node fuel .flow
          else omitted
        return (key, value) :: (← flowPairs fuel false)
      | _ =>
        let key ← node fuel .flow
        return (key, ← omitted) :: (← flowPairs fuel false)

end

/-! ## 4. documents -/

/-- Reads the directives in front of a document: at most one version, which must be 1.1 or 1.2, and
every handle once. -/
def directives : (versioned : Bool) → (handles : List (String × String)) → List Token →
    Except Fault (List (String × String) × List Token)
  | versioned, handles, .version major minor :: rest =>
    if versioned ∨ major ≠ 1 ∨ (minor ≠ 1 ∧ minor ≠ 2) then .error .directive
    else directives true handles rest
  | versioned, handles, .handle name start :: rest =>
    if (handles.lookup name).isSome then .error .directive
    else directives versioned ((name, start) :: handles) rest
  | _, handles, rest => .ok (handles, rest)

/-- Whether a token belongs to what stands around documents. -/
def isBoundary : Token → Bool
  | .version _ _ | .handle _ _ | .documentStart | .documentEnd => true
  | _ => false

/-- Reads one document. -/
def document (handles : List (String × String)) (tokens : List Token) :
    Except Fault (Document × List Token) := do
  let boundary := match tokens with
    | [] => true
    | token :: _ => isBoundary token
  let read : Compose Node := if boundary then omitted else node (2 * tokens.length + 2) .block
  let (root, s) ← read.run { tokens := tokens, handles := handles }
  let rest := match s.tokens with
    | .documentEnd :: rest => rest
    | rest => rest
  return (⟨root, s.anchored, s.size⟩, rest)

/-- Reads documents up to the end.  Only the first one may go without its mark. -/
def documents : (fuel : Nat) → (first : Bool) → List Token → Except Fault (List Document)
  | 0, _, _ => throw .arrangement
  | fuel + 1, first, tokens => do
    let tokens := if first then tokens else tokens.dropWhile (· = .documentEnd)
    match tokens with
    | [] => return []
    | token :: _ =>
      let bare := first && (token = .documentEnd || !isBoundary token)
      let (handles, tokens) ← directives false [] tokens
      let (d, rest) ← if bare then do
          if token = .documentEnd then throw .arrangement
          document handles tokens
        else
          match tokens with
          | .documentStart :: tokens => document handles tokens
          | _ => throw .arrangement
      return d :: (← documents fuel false rest)

end Compose

/-- The documents of a text. -/
def documents (text : String) : Except Fault (List Document) := do
  let tokens ← tokens text
  Compose.documents (tokens.length + 1) true tokens

end Admission.Yaml
