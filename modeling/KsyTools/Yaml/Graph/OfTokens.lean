/-
# From tokens to node graphs

The grammar of YAML as a recursive descent over the tokens.  A node is entered into the graph when
it starts, so that an alias inside it can already refer to it.  How deeply nodes may be nested is
bounded, and the bound is what the recursion goes by; the entries of a collection are counted by
the tokens that are left.
-/
import KsyTools.Yaml.Graph
import KsyTools.Yaml.Token.Stream

namespace KsyTools.Yaml

/-- The state of the descent: the tokens ahead, the nodes so far, and what is declared in the
current document. -/
structure Composer where
  stream : TokenStream
  nodes : Array GraphNode
  anchors : List (String × NodeId)
  handles : List (String × String)

/-- The computations of the descent. -/
abbrev Compose := StateT Composer (Except Failure)

/-- The handles that need no declaration. -/
def defaultHandles : List (String × String) :=
  [("!", "!"), ("!!", Tag.standardRoot)]

/-- How deeply nodes may be nested. -/
def maxDepth : Nat := 490

namespace Compose

/-- The next token.  Behind the last token stands the failure of the stream. -/
def peek : Compose Token := do
  let s := (← get).stream
  match s.tokens, s.failure with
  | t :: _, _ => return t
  | [], some failure => throw failure
  | [], none => return ⟨.streamEnd, 0, 0⟩

/-- Moves over a token. -/
def skip : Compose Unit :=
  modify fun c => { c with stream.tokens := c.stream.tokens.tail }

/-- Takes the next token. -/
def next : Compose Token := do
  let t ← peek
  skip
  return t

/-- Whether the next token is one of several. -/
def nextIs (kinds : List TokenKind) : Compose Bool :=
  return kinds.contains (← peek).kind

/-- A bound on the number of entries that a collection can still have. -/
def entryBound : Compose Nat :=
  return (← get).stream.tokens.length + 1

/-- Fails at an offset, without or with a context. -/
def failAt {α : Type} (problem : String) (offset : Nat) (context : Option (String × Nat)) :
    Compose α :=
  throw (.marked ⟨context.map Prod.fst, context.map Prod.snd, problem, offset⟩)

/-- Enters a node into the graph. -/
def enter (node : GraphNode) : Compose NodeId := do
  let c ← get
  set { c with nodes := c.nodes.push node }
  return c.nodes.size

/-- Completes a collection. -/
def complete (id : NodeId) (content : Content) (stop : Nat) : Compose NodeId := do
  modify fun c => { c with nodes := c.nodes.modify id fun n => { n with content, stop } }
  return id

/-- An empty scalar at an offset. -/
def emptyScalar (offset : Nat) : Compose NodeId :=
  enter ⟨.null, .scalar "", offset, offset⟩

/-- The name of a token in quotes. -/
def found (t : Token) : String :=
  Text.quote t.kind.name

/-- An anchor, if one comes next, with its end. -/
def anchor? : Compose (Option (String × Token)) := do
  let t ← peek
  match t.kind with
  | .anchor name => skip; return some (name, t)
  | _ => return none

/-- A tag, if one comes next. -/
def tag? : Compose (Option ((Option String × String) × Token)) := do
  let t ← peek
  match t.kind with
  | .tag handle suffix => skip; return some ((handle, suffix), t)
  | _ => return none

/-- The properties in front of a node: an anchor, a tag with its place, and the extent of both. -/
structure Properties where
  anchor : Option String
  tag : Option ((Option String × String) × Token)
  extent : Option (Nat × Nat)

/-- Reads the properties in front of a node, in either order. -/
def properties : Compose Properties := do
  match ← anchor? with
  | some (name, t) =>
    match ← tag? with
    | some (tag, u) => return ⟨some name, some (tag, u), some (t.start, u.stop)⟩
    | none => return ⟨some name, none, some (t.start, t.stop)⟩
  | none =>
    match ← tag? with
    | some (tag, t) =>
      match ← anchor? with
      | some (name, u) => return ⟨some name, some (tag, t), some (t.start, u.stop)⟩
      | none => return ⟨none, some (tag, t), some (t.start, t.stop)⟩
    | none => return ⟨none, none, none⟩

/-- The full text of a tag. -/
def expandTag (p : Properties) : Compose (Option String) := do
  match p.tag with
  | none => return none
  | some ((none, suffix), _) => return some suffix
  | some ((some handle, suffix), t) =>
    match (← get).handles.lookup handle with
    | some expansion => return some (expansion ++ suffix)
    | none =>
      failAt s!"found undefined tag handle {Text.quote handle}" t.start
        (p.extent.map fun (start, _) => ("while parsing a node", start))

/-- Makes the node that an anchor stands for known; an anchor is given once in a document. -/
def declare (anchor : Option String) (id : NodeId) : Compose Unit :=
  match anchor with
  | some name => modify fun c => { c with anchors := (name, id) :: c.anchors }
  | none => pure ()

/-- Checks that an anchor is new. -/
def checkAnchor (anchor : Option String) (start : Nat) : Compose Unit := do
  match anchor with
  | none => return
  | some name =>
    let c ← get
    match c.anchors.lookup name with
    | none => return
    | some id =>
      let first := (c.nodes[id]?.map GraphNode.start).getD 0
      failAt "second occurrence" start
        (some (s!"found duplicate anchor {Text.quote name}; first occurrence", first))

/-- Enters a node with its anchor. -/
def enterAnchored (anchor : Option String) (node : GraphNode) : Compose NodeId := do
  checkAnchor anchor node.start
  let id ← enter node
  declare anchor id
  return id

/-! ## Collections

The readers for collections take a reader for the nodes inside, which says whether block nodes, and
sequences that are not indented, may stand there. -/

/-- A reader of inner nodes, in block or flow context, with or without sequences that are not
indented. -/
abbrev Inner := (block indentless : Bool) → Compose NodeId

/-- An inner node, or an empty scalar where one of the tokens `ends` comes next. -/
def innerOrEmpty (ends : List TokenKind) (offset : Nat) (inner : Compose NodeId) :
    Compose NodeId := do
  if ← nextIs ends then emptyScalar offset else inner

/-- The entries of a block sequence that started at `start`. -/
def blockEntries (inner : Inner) (start : Nat) : (fuel : Nat) → Compose (List NodeId × Nat)
  | 0 => return ([], start)
  | fuel + 1 => do
    let t ← peek
    match t.kind with
    | .blockEntry =>
      skip
      let item ← innerOrEmpty [.blockEntry, .blockEnd] t.stop (inner true false)
      let (items, stop) ← blockEntries inner start fuel
      return (item :: items, stop)
    | .blockEnd => skip; return ([], t.stop)
    | _ =>
      failAt s!"expected <block end>, but found {found t}" t.start
        (some ("while parsing a block collection", start))

/-- The entries of a sequence that is not indented. -/
def indentlessEntries (inner : Inner) : (fuel : Nat) → Compose (List NodeId × Nat)
  | 0 => return ([], 0)
  | fuel + 1 => do
    let t ← peek
    match t.kind with
    | .blockEntry =>
      skip
      let item ← innerOrEmpty [.blockEntry, .key, .value, .blockEnd] t.stop (inner true false)
      let (items, stop) ← indentlessEntries inner fuel
      return (item :: items, stop)
    | _ => return ([], t.start)

/-- The value behind a key: behind its colon, or empty where there is none. -/
def valueNode (ends : List TokenKind) (inner : Compose NodeId) : Compose NodeId := do
  let t ← peek
  match t.kind with
  | .value => skip; innerOrEmpty ends t.stop inner
  | _ => emptyScalar t.start

/-- The pairs of a block mapping that started at `start`. -/
def blockPairs (inner : Inner) (start : Nat) : (fuel : Nat) →
    Compose (List (NodeId × NodeId) × Nat)
  | 0 => return ([], start)
  | fuel + 1 => do
    let t ← peek
    match t.kind with
    | .key =>
      skip
      let ends := [.key, .value, .blockEnd]
      let key ← innerOrEmpty ends t.stop (inner true true)
      let value ← valueNode ends (inner true true)
      let (pairs, stop) ← blockPairs inner start fuel
      return ((key, value) :: pairs, stop)
    | .blockEnd => skip; return ([], t.stop)
    | _ =>
      failAt s!"expected <block end>, but found {found t}" t.start
        (some ("while parsing a block mapping", start))

/-- Moves over the comma in front of every entry but the first. -/
def separator (first : Bool) (closing : String) (what : String) (start : Nat) : Compose Unit := do
  if !first then
    let t ← peek
    if t.kind = .flowEntry then skip
    else
      failAt s!"expected ',' or '{closing}', but got {found t}" t.start
        (some (s!"while parsing a flow {what}", start))

/-- A single pair that stands as an entry of a flow sequence. -/
def flowPair (inner : Inner) : Compose NodeId := do
  let t ← next
  let id ← enter ⟨.map, .mapping [], t.start, t.start⟩
  let key ← innerOrEmpty [.value, .flowEntry, .flowSequenceEnd] t.stop (inner false false)
  let value ← valueNode [.flowEntry, .flowSequenceEnd] (inner false false)
  complete id (.mapping [(key, value)]) (← peek).start

/-- The entries of a flow sequence that started at `start`. -/
def flowEntries (inner : Inner) (start : Nat) (first : Bool) : (fuel : Nat) →
    Compose (List NodeId × Nat)
  | 0 => return ([], start)
  | fuel + 1 => do
    if !(← nextIs [.flowSequenceEnd]) then separator first "]" "sequence" start
    let t ← peek
    match t.kind with
    | .flowSequenceEnd => skip; return ([], t.stop)
    | .key =>
      let item ← flowPair inner
      let (items, stop) ← flowEntries inner start false fuel
      return (item :: items, stop)
    | _ =>
      let item ← inner false false
      let (items, stop) ← flowEntries inner start false fuel
      return (item :: items, stop)

/-- The pairs of a flow mapping that started at `start`. -/
def flowPairs (inner : Inner) (start : Nat) (first : Bool) : (fuel : Nat) →
    Compose (List (NodeId × NodeId) × Nat)
  | 0 => return ([], start)
  | fuel + 1 => do
    if !(← nextIs [.flowMappingEnd]) then separator first "\x7d" "mapping" start
    let t ← peek
    match t.kind with
    | .flowMappingEnd => skip; return ([], t.stop)
    | .key =>
      skip
      let key ← innerOrEmpty [.value, .flowEntry, .flowMappingEnd] t.stop (inner false false)
      let value ← valueNode [.flowEntry, .flowMappingEnd] (inner false false)
      let (pairs, stop) ← flowPairs inner start false fuel
      return ((key, value) :: pairs, stop)
    | _ =>
      let key ← inner false false
      let value ← emptyScalar (← peek).start
      let (pairs, stop) ← flowPairs inner start false fuel
      return ((key, value) :: pairs, stop)

/-! ## Nodes -/

/-- The tag of a scalar: the one given, or the one that its form or its quotes ask for. -/
def scalarTag (tag : Option String) (text : String) (plain : Bool) : Tag :=
  match tag with
  | none => if plain then Tag.ofForm text else .str
  | some "!" => Tag.ofForm text
  | some uri => Tag.ofUri uri

/-- The tag of a collection: the one given, or the usual one. -/
def collectionTag (tag : Option String) (usual : Tag) : Tag :=
  match tag with
  | none => usual
  | some "!" => usual
  | some uri => Tag.ofUri uri

/-- Reads the content of a node behind its properties. -/
def contentNode (inner : Inner) (block indentless : Bool) (p : Properties)
    (tag : Option String) : Compose NodeId := do
  let t ← peek
  let (start, propertyStop) := p.extent.getD (t.start, t.start)
  let sequence (entries : Compose (List NodeId × Nat)) : Compose NodeId := do
    let id ← enterAnchored p.anchor ⟨collectionTag tag .seq, .sequence [], start, start⟩
    let (items, stop) ← entries
    complete id (.sequence items) stop
  let mapping (entries : Compose (List (NodeId × NodeId) × Nat)) : Compose NodeId := do
    let id ← enterAnchored p.anchor ⟨collectionTag tag .map, .mapping [], start, start⟩
    let (pairs, stop) ← entries
    complete id (.mapping pairs) stop
  match t.kind, block, indentless with
  | .blockEntry, _, true => sequence do indentlessEntries inner (← entryBound)
  | .scalar text plain, _, _ =>
    skip
    enterAnchored p.anchor ⟨scalarTag tag text plain, .scalar text, start, t.stop⟩
  | .flowSequenceStart, _, _ =>
    sequence do skip; flowEntries inner t.start true (← entryBound)
  | .flowMappingStart, _, _ => mapping do skip; flowPairs inner t.start true (← entryBound)
  | .blockSequenceStart, true, _ => sequence do skip; blockEntries inner t.start (← entryBound)
  | .blockMappingStart, true, _ => mapping do skip; blockPairs inner t.start (← entryBound)
  | _, _, _ =>
    if p.extent.isSome then
      enterAnchored p.anchor ⟨scalarTag tag "" true, .scalar "", start, propertyStop⟩
    else
      let context := if block then "while parsing a block node" else "while parsing a flow node"
      failAt s!"expected the node content, but found {found t}" t.start (some (context, start))

/-- Reads a node with at most `depth` nodes around each other. -/
def node : (depth : Nat) → Inner
  | 0 => fun _ _ => throw .tooDeep
  | depth + 1 => fun block indentless => do
    let t ← peek
    match t.kind with
    | .alias name =>
      skip
      match (← get).anchors.lookup name with
      | some id => return id
      | none => failAt s!"found undefined alias {Text.quote name}" t.start none
    | _ =>
      let p ← properties
      let tag ← expandTag p
      contentNode (node depth) block indentless p tag

/-! ## Documents -/

/-- What the directives of a document declare. -/
structure Declarations where
  version : Bool
  handles : List (String × String)

/-- Reads directives. -/
def directives : (fuel : Nat) → Declarations → Compose Declarations
  | 0, declared => return declared
  | fuel + 1, declared => do
    let t ← peek
    match t.kind with
    | .directive d =>
      skip
      match d with
      | .version major _ =>
        if declared.version then failAt "found duplicate YAML directive" t.start none
        if major != 1 then
          failAt "found incompatible YAML document (version 1.* is required)" t.start none
        directives fuel { declared with version := true }
      | .tag handle expansion =>
        if (declared.handles.lookup handle).isSome then
          failAt s!"duplicate tag handle {Text.quote handle}" t.start none
        directives fuel { declared with handles := declared.handles ++ [(handle, expansion)] }
      | .other _ => directives fuel declared
    | _ => return declared

/-- Ends a document: its anchors are forgotten. -/
def endDocument : Compose Unit := do
  if (← peek).kind = .documentEnd then skip
  modify fun c => { c with anchors := [] }

/-- Whether a token stands between documents. -/
def isDocumentBoundary : TokenKind → Bool
  | .directive _ => true
  | .documentStart => true
  | .documentEnd => true
  | .streamEnd => true
  | _ => false

/-- Reads the documents that start with a marker. -/
def explicitDocuments : (fuel : Nat) → Compose (List NodeId)
  | 0 => return []
  | fuel + 1 => do
    let t ← peek
    match t.kind with
    | .documentEnd => skip; explicitDocuments fuel
    | .streamEnd => return []
    | _ =>
      let declared ← directives (← entryBound) ⟨false, []⟩
      let t ← peek
      if t.kind != .documentStart then
        failAt s!"expected '<document start>', but found {found t}" t.start none
      skip
      modify fun c => { c with handles := declared.handles ++ defaultHandles }
      let t ← peek
      let root ←
        if isDocumentBoundary t.kind then emptyScalar t.start else node maxDepth true false
      endDocument
      return root :: (← explicitDocuments fuel)

/-- Reads all documents; only the first one can do without a marker. -/
def documents : Compose (List NodeId) := do
  skip
  let t ← peek
  let first ←
    match t.kind with
    | .directive _ => pure []
    | .documentStart => pure []
    | .streamEnd => pure []
    | _ => do
      let root ← node maxDepth true false
      endDocument
      pure [root]
  return first ++ (← explicitDocuments (← entryBound))

end Compose

/-- The node graph of a stream of tokens. -/
def Graph.ofTokens (stream : TokenStream) : Except Failure Graph := do
  let (roots, c) ← Compose.documents.run ⟨stream, #[], [], defaultHandles⟩
  return ⟨c.nodes, roots⟩

/-- The node graph of a text. -/
def Graph.ofText (source : List Char) : Except Failure Graph :=
  match findUnacceptable source with
  | some (c, offset) => .error (.character c offset)
  | none => Graph.ofTokens (TokenStream.ofText source)

end KsyTools.Yaml
