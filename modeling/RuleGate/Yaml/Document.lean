import RuleGate.Yaml.Node
import RuleGate.Yaml.Scalar

/-!
# YAML documents

Reading a text as one document. Block collections are told apart by columns: all their entries start in
one, and what belongs to an entry stands further right. A key is recognised by the colon after it, has
to fit on its line, and is at most 1024 characters long.
-/

namespace RuleGate.Yaml

/-- Where reading is, and the anchored nodes so far. -/
structure Progress where
  cursor : Cursor
  anchors : List (String × Node)

/-- Reads something, or finds the text malformed. -/
abbrev Reader := StateT Progress Option

namespace Reader

def malformed {α : Type} : Reader α := fun _ => none

def cursor : Reader Cursor := do return (← get).cursor

def moveTo (c : Cursor) : Reader Unit := modify fun p => { p with cursor := c }

def advance (n : Nat) : Reader Unit := modify fun p => { p with cursor := p.cursor.advance n }

/-- Goes to the start of the next token. -/
def skip (inFlow : Bool) : Reader Unit := modify fun p => { p with cursor := p.cursor.skip inFlow }

def peek : Reader (Option Char) := do return (← cursor).rest.head?

def require (b : Bool) : Reader Unit := if b then pure () else malformed

def ofOption {α : Type} (o : Option α) : Reader α := fun p => o.map fun a => (a, p)

/-- Reads a scalar. -/
def scalar (plain : Bool) (read : Cursor → Option (List Char × Cursor)) : Reader Node := do
  let (text, c) ← ofOption (read (← cursor))
  moveTo c
  return .scalar none plain (String.ofList text)

end Reader

open Reader

/-! ## Properties -/

/-- The prefixes that tag handles stand for. -/
abbrev TagHandles := List (String × String)

/-- The anchor and the tag in front of a node. -/
structure Properties where
  anchor : Option String
  tag : Option String

namespace Properties

def none : Properties := ⟨.none, .none⟩

def isNone (p : Properties) : Bool := p.anchor.isNone && p.tag.isNone

/-- Both kinds together; neither may be given twice. -/
def merge (p q : Properties) : Reader Properties := do
  require (!(p.anchor.isSome && q.anchor.isSome) && !(p.tag.isSome && q.tag.isSome))
  return ⟨p.anchor.or q.anchor, p.tag.or q.tag⟩

end Properties

def isNameChar (c : Char) : Bool := c.isAlphanum || c == '_' || c == '-'

/-- The name of an anchor or an alias, behind its indicator. -/
def anchorName : Reader String := do
  advance 1
  let (name, c) := (← cursor).takeWhile isNameChar
  require (!name.isEmpty && (endsWord c.rest || c.rest.head?.any fun x => "?:,]\x7d%@\x60".toList.contains x))
  moveTo c
  return String.ofList name

def isTagChar (c : Char) : Bool := isNameChar c || ";/?:@&=+$.%!~*'()".toList.contains c

/-- The tag that a written tag stands for. -/
def resolveTag (handles : TagHandles) (written : List Char) : Reader String :=
  let expand (handle suffix : List Char) : Reader String := do
    match handles.lookup (String.ofList handle) with
    | some start => return start ++ String.ofList suffix
    | none => malformed
  match written with
  | '!' :: r =>
    match Text.cut? '!' r with
    | some (name, suffix) => do
      require (name.all isNameChar && !suffix.isEmpty)
      expand ('!' :: name ++ ['!']) suffix
    | none => expand ['!'] r
  | _ => malformed

/-- A tag from its indicator on. -/
def tag (handles : TagHandles) (inFlow : Bool) : Reader String := do
  let c ← cursor
  match c.rest.drop 1 with
  | '<' :: _ =>
    let (uri, c) := (c.advance 2).takeWhile fun x => isTagChar x || x == ',' || x == '[' || x == ']'
    require (!uri.isEmpty && c.rest.head? == some '>')
    moveTo (c.advance 1)
    require (endsWord (← cursor).rest)
    return String.ofList uri
  | _ =>
    let (written, c) := c.takeWhile isTagChar
    moveTo c
    require (endsWord c.rest || (inFlow && c.rest.head? == some ','))
    resolveTag handles written

/-- The properties that follow on the line, or in a flow collection anywhere. -/
def propertiesFrom (handles : TagHandles) (inFlow : Bool) : Nat → Properties → Reader Properties
  | 0, p => pure p
  | n + 1, p => do
    let before ← cursor
    skip inFlow
    let here ← cursor
    if here.atEnd || (!inFlow && here.line != before.line) then
      moveTo before
      return p
    match here.rest.head? with
    | some '&' => propertiesFrom handles inFlow n (← p.merge ⟨some (← anchorName), .none⟩)
    | some '!' => propertiesFrom handles inFlow n (← p.merge ⟨.none, some (← tag handles inFlow)⟩)
    | _ => moveTo before; return p

def properties (handles : TagHandles) (inFlow : Bool) : Reader Properties :=
  propertiesFrom handles inFlow 3 .none

/-- Reads a node that has the given properties. Within the node its anchor stands for itself. -/
def withProperties (p : Properties) (read : Reader Node) : Reader Node := do
  if let some name := p.anchor then
    modify fun s => { s with anchors := (name, .cyclic) :: s.anchors }
  let node ← read
  let node := if p.tag.isSome then node.withTag p.tag else node
  if let some name := p.anchor then
    modify fun s => { s with anchors := (name, node) :: s.anchors }
  return node

/-- The node an alias stands for. -/
def aliasNode : Reader Node := do
  let name ← anchorName
  match (← get).anchors.lookup name with
  | some node => return node
  | none => malformed

/-! ## Keys -/

/-- The longest a key without an indicator may be. -/
def maxKeyLength : Nat := 1024

/-- Whether a colon follows that makes what was read from `start` a key; then goes to the colon. -/
def isKeyFrom (inFlow : Bool) (start : Cursor) : Reader Bool := do
  let (_, c) := (← cursor).takeWhile isBlank
  let colon := if inFlow then c.rest.head? == some ':' else c.atIndicator ':'
  if colon && c.line == start.line && c.index ≤ start.index + maxKeyLength then
    moveTo c
    return true
  else return false

/-! ## Flow collections -/

/-- Whether nothing is written for a node in a flow collection. -/
def isAbsentInFlow : Reader Bool := do
  return (← peek).any fun c => c == ',' || c == ']' || c == '\x7d' || c == ':'

mutual

/-- A node inside of a flow collection, or a flow collection itself. -/
def flowNode (handles : TagHandles) (floor : Nat) : Nat → Reader Node
  | 0 => malformed
  | fuel + 1 => do
    let p ← properties handles true
    skip true
    require (!(← cursor).atEnd)
    if !p.isNone && (← isAbsentInFlow) then withProperties p (pure .absent)
    else
      match ← peek with
      | some '*' => require p.isNone; aliasNode
      | some '[' => withProperties p do
          advance 1
          return .sequence none (← flowItems handles floor fuel true)
      | some '\x7b' => withProperties p do
          advance 1
          return .mapping none (← flowEntries handles floor fuel true)
      | some '"' => withProperties p (scalar false quoted)
      | some '\'' => withProperties p (scalar false quoted)
      | _ =>
        require (startsPlain true (← cursor).rest)
        withProperties p (scalar true (plain true floor))

/-- What follows a colon in a flow collection. -/
def flowValue (handles : TagHandles) (floor : Nat) : Nat → Reader Node
  | 0 => malformed
  | fuel + 1 => do
    advance 1
    skip true
    if (← peek).any fun c => c == ',' || c == ']' || c == '\x7d' then return .absent
    flowNode handles floor fuel

/-- A pair whose key has an indicator. -/
def flowPair (handles : TagHandles) (floor : Nat) : Nat → Reader (Node × Node)
  | 0 => malformed
  | fuel + 1 => do
    advance 1
    skip true
    let key ← if ← isAbsentInFlow then pure .absent else flowNode handles floor fuel
    skip true
    if (← peek) == some ':' then return (key, ← flowValue handles floor fuel)
    return (key, .absent)

/-- The items of a sequence up to its closing bracket. -/
def flowItems (handles : TagHandles) (floor : Nat) : Nat → Bool → Reader (List Node)
  | 0, _ => malformed
  | fuel + 1, first => do
    skip true
    if !first && (← peek) == some ',' then
      advance 1
      skip true
    else require (first || (← peek) == some ']')
    if (← peek) == some ']' then
      advance 1
      return []
    if (← cursor).atIndicator '?' then
      let (key, value) ← flowPair handles floor fuel
      return .mapping none [(key, value)] :: (← flowItems handles floor fuel false)
    let start ← cursor
    let node ← flowNode handles floor fuel
    if ← isKeyFrom true start then
      let value ← flowValue handles floor fuel
      return .mapping none [(node, value)] :: (← flowItems handles floor fuel false)
    return node :: (← flowItems handles floor fuel false)

/-- The entries of a mapping up to its closing brace. -/
def flowEntries (handles : TagHandles) (floor : Nat) : Nat → Bool → Reader (List (Node × Node))
  | 0, _ => malformed
  | fuel + 1, first => do
    skip true
    if !first && (← peek) == some ',' then
      advance 1
      skip true
    else require (first || (← peek) == some '\x7d')
    if (← peek) == some '\x7d' then
      advance 1
      return []
    if (← cursor).atIndicator '?' then
      let pair ← flowPair handles floor fuel
      return pair :: (← flowEntries handles floor fuel false)
    let start ← cursor
    let key ← flowNode handles floor fuel
    if ← isKeyFrom true start then
      let value ← flowValue handles floor fuel
      return (key, value) :: (← flowEntries handles floor fuel false)
    return (key, .absent) :: (← flowEntries handles floor fuel false)

end

/-! ## Block collections -/

/-- A node that can be a key: an alias, a flow collection, a quoted or a plain scalar, or properties
without anything behind them. -/
def inlineNode (handles : TagHandles) (floor fuel : Nat) (p : Properties) : Reader Node := do
  match ← peek with
  | some '*' => require p.isNone; aliasNode
  | some '"' => withProperties p (scalar false quoted)
  | some '\'' => withProperties p (scalar false quoted)
  | some '[' => withProperties p (flowNode handles floor fuel)
  | some '\x7b' => withProperties p (flowNode handles floor fuel)
  | some ':' =>
    if !p.isNone && (← cursor).atIndicator ':' then withProperties p (pure .absent)
    else
      require (startsPlain false (← cursor).rest)
      withProperties p (scalar true (plain false floor))
  | _ =>
    require (startsPlain false (← cursor).rest)
    withProperties p (scalar true (plain false floor))

/-- How a node in a block may start. -/
structure Allowed where
  /-- A collection may start on this line. -/
  collection : Bool
  /-- A sequence may start in the column of the key it belongs to. -/
  sequence : Bool

/-- Where the entries of a block collection that starts in `column` end: goes to the next entry if there
is one. -/
def nextEntry (column : Nat) : Reader Bool := do
  skip false
  let c ← cursor
  if c.atEnd then return false
  require c.fresh
  require (c.column ≤ column)
  return c.column == column

mutual

/-- A node of a block. Its lines start at the column `floor` or further right, and `outer` are
properties read before it. -/
def blockNode (handles : TagHandles) (floor : Nat) (allowed : Allowed) (outer : Properties) :
    Nat → Reader Node
  | 0 => malformed
  | fuel + 1 => do
    skip false
    let start ← cursor
    let allowed : Allowed := ⟨allowed.collection || start.fresh, allowed.sequence⟩
    let isItem := start.atIndicator '-' && allowed.collection
    if start.atEnd then withProperties outer (pure .absent)
    else if start.column < floor then
      if isItem && allowed.sequence && start.column + 1 == floor then
        withProperties outer do
          return .sequence none (← blockItems handles start.column true fuel)
      else withProperties outer (pure .absent)
    else if isItem then
      withProperties outer do
        return .sequence none (← blockItems handles start.column false fuel)
    else if start.atIndicator '?' && allowed.collection then
      withProperties outer do
        return .mapping none (← blockEntries handles start.column fuel)
    else
      let p ← properties handles false
      let before ← cursor
      skip false
      let here ← cursor
      if !p.isNone && (here.atEnd || here.line != before.line) then
        moveTo before
        blockNode handles floor ⟨false, allowed.sequence⟩ (← outer.merge p) fuel
      else if here.rest.head? == some '|' || here.rest.head? == some '>' then
        withProperties (← outer.merge p) (scalar false (block floor))
      else
        let anchors := (← get).anchors
        let node ← inlineNode handles floor fuel p
        if allowed.collection && (← isKeyFrom false start) then
          withProperties outer do
            let value ← blockValue handles start.column fuel
            return .mapping none ((node, value) :: (← moreEntries handles start.column fuel))
        else if outer.isNone then return node
        else
          modify fun s => { s with anchors := anchors, cursor := here }
          withProperties (← outer.merge p) (inlineNode handles floor fuel .none)
termination_by structural fuel => fuel

/-- What follows the colon of a key that started in `column`. -/
def blockValue (handles : TagHandles) (column : Nat) : Nat → Reader Node
  | 0 => malformed
  | fuel + 1 => do
    advance 1
    blockNode handles (column + 1) ⟨false, true⟩ .none fuel
termination_by structural fuel => fuel

/-- The items of a sequence in `column`, which stands at the first of them. Where the sequence shares
its column with the keys around it the next key ends it. -/
def blockItems (handles : TagHandles) (column : Nat) (shared : Bool) : Nat → Reader (List Node)
  | 0 => malformed
  | fuel + 1 => do
    advance 1
    let item ← blockNode handles (column + 1) ⟨true, false⟩ .none fuel
    if ← nextEntry column then
      if (← cursor).atIndicator '-' then return item :: (← blockItems handles column shared fuel)
      require shared
    return [item]
termination_by structural fuel => fuel

/-- The entries of a mapping in `column`, which stands at the first of them. -/
def blockEntries (handles : TagHandles) (column : Nat) : Nat → Reader (List (Node × Node))
  | 0 => malformed
  | fuel + 1 => do
    let start ← cursor
    if start.atIndicator '?' then
      advance 1
      let key ← blockNode handles (column + 1) ⟨true, true⟩ .none fuel
      let more ← nextEntry column
      if more && (← cursor).atIndicator ':' then
        advance 1
        let value ← blockNode handles (column + 1) ⟨true, true⟩ .none fuel
        return (key, value) :: (← moreEntries handles column fuel)
      return (key, .absent) :: (← moreEntries handles column fuel)
    let p ← properties handles false
    skip false
    let key ← inlineNode handles (column + 1) fuel p
    require (← isKeyFrom false start)
    let value ← blockValue handles column fuel
    return (key, value) :: (← moreEntries handles column fuel)
termination_by structural fuel => fuel

/-- The entries of a mapping in `column` after one of them. -/
def moreEntries (handles : TagHandles) (column : Nat) : Nat → Reader (List (Node × Node))
  | 0 => malformed
  | fuel + 1 => do
    if ← nextEntry column then blockEntries handles column fuel else return []
termination_by structural fuel => fuel

end

/-! ## Streams -/

/-- The handles known without directives. -/
def defaultHandles : TagHandles := [("!", "!"), ("!!", "tag:yaml.org,2002:")]

/-- The words of a directive line. -/
def directiveWords (line : List Char) : List String :=
  let words := (Text.splitWhere isBlank line).filter fun w => !w.isEmpty
  (words.takeWhile fun w => w.head? != some '#').map String.ofList

/-- What a directive says about tags. -/
def readDirective (handles : TagHandles) (line : List Char) : Reader TagHandles :=
  match directiveWords line with
  | ["%YAML", version] => do
    require (version == "1.1" || version == "1.2")
    return handles
  | ["%TAG", handle, start] => return (handle, start) :: handles
  | _ => malformed

/-- The directives before a document. -/
def directives : Nat → TagHandles → Reader TagHandles
  | 0, _ => malformed
  | fuel + 1, handles => do
    skip false
    let c ← cursor
    if c.column == 0 && c.rest.head? == some '%' then
      let (line, c) := c.takeWhile fun _ => true
      moveTo c
      directives fuel (← readDirective handles line)
    else return handles

/-- Over the markers that end a document. -/
def endMarkers : Nat → Reader Unit
  | 0 => malformed
  | fuel + 1 => do
    skip false
    let c ← cursor
    if c.column == 0 && isDocumentMarker c.rest && c.rest.head? == some '.' then
      advance 3
      endMarkers fuel
    else pure ()

/-- A stream of one document; nothing if there is none. -/
def document (fuel : Nat) : Reader (Option Node) := do
  let handles ← directives fuel defaultHandles
  let c ← cursor
  let explicit := c.atEnd && c.rest.head? == some '-'
  if c.rest.isEmpty then
    require (handles.length == defaultHandles.length)
    return none
  if explicit then advance 3
  let node ← blockNode handles 0 ⟨false, false⟩ .none fuel
  endMarkers fuel
  require (← cursor).rest.isEmpty
  return some node

/-- Reads a text as one document, or as none at all. -/
def parse? (text : List Char) : Option (Option Node) :=
  let text := match text with
    | '\uFEFF' :: r => r
    | s => s
  if text.all isAllowed then
    let cs := normalizeBreaks text
    ((document (4 * cs.length + 16)).run ⟨.start cs, []⟩).map (·.1)
  else none

end RuleGate.Yaml
