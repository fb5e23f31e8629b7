import Palette.Datum
import Palette.Yaml.Token

/-!
# From tokens to data

A document is one node: a scalar, which is always a text, a sequence or a
mapping, in block or in flow form.  An anchor names a node and a reference
repeats it.  A node cannot contain itself, and the keys of mappings are texts;
a document that breaks this is refused only when it is complete.  An empty place
is an empty text, and a stream without a document is no datum.
-/

namespace Palette
namespace Yaml

/-- What is known of the nodes read so far. -/
structure Nodes (ν : Type) where
  /-- The nodes that anchors name; those that are still being read have no datum yet. -/
  anchored : List (String × Option (Datum ν))
  /-- Whether all keys are texts and no node contains itself. -/
  isSound : Bool

/-- A datum that was read, the nodes so far, and the tokens that follow. -/
structure Part (ν : Type) where
  datum : Datum ν
  nodes : Nodes ν
  rest : List Token

/-- Items that were read, the nodes so far, and the tokens that follow. -/
structure Parts (α ν : Type) where
  items : List α
  nodes : Nodes ν
  rest : List Token

def Parts.cons (item : α) (p : Parts α ν) : Parts α ν :=
  { p with items := item :: p.items }

/-- The fault of tokens that nothing of the grammar starts with. -/
def unexpected : List Token → Fault
  | .fault fault :: _ => fault
  | _ => .malformed

namespace Nodes

def start : Nodes ν :=
  ⟨[], true⟩

def hasAnchor (nodes : Nodes ν) (name : String) : Bool :=
  Entries.hasKey nodes.anchored name

/-- What a reference repeats.  Inside the node that it names there is nothing to
repeat yet. -/
def repeated? (nodes : Nodes ν) (name : String) : Option (Datum ν × Nodes ν) :=
  (Entries.get? nodes.anchored name).map fun datum? =>
    match datum? with
    | some datum => (datum, nodes)
    | none => (.none, { nodes with isSound := false })

/-- Notes that the node of an anchor is being read. -/
def announce (nodes : Nodes ν) (name : String) : Nodes ν :=
  { nodes with anchored := (name, none) :: nodes.anchored }

/-- Gives the node that was read to its anchor. -/
def settle (nodes : Nodes ν) (name : String) (datum : Datum ν) : Nodes ν :=
  { nodes with anchored := Entries.put nodes.anchored name (some datum) }

end Nodes

/-! ## Properties -/

/-- An anchor and a tag in front of a node. -/
structure Properties where
  anchor? : Option String
  tag? : Option TagHandle

def properties : List Token → Properties × List Token
  | .anchor name :: .tag handle :: rest => (⟨some name, some handle⟩, rest)
  | .anchor name :: rest => (⟨some name, none⟩, rest)
  | .tag handle :: .anchor name :: rest => (⟨some name, some handle⟩, rest)
  | .tag handle :: rest => (⟨none, some handle⟩, rest)
  | rest => (⟨none, none⟩, rest)

def Properties.isEmpty (p : Properties) : Bool :=
  p.anchor?.isNone && p.tag?.isNone

/-- A tag must have a known handle. -/
def Properties.hasKnownHandle (p : Properties) (handles : List String) : Bool :=
  match p.tag? with
  | some (some handle) => handles.contains handle
  | _ => true

/-- An anchor must be new. -/
def Properties.hasNewAnchor (p : Properties) (nodes : Nodes ν) : Bool :=
  match p.anchor? with
  | some name => !nodes.hasAnchor name
  | none => true

/-- What is wrong with properties in front of a token.  The token is looked at
before an anchor is, and before the tag is unless there are both. -/
def Properties.fault? (p : Properties) (handles : List String) (nodes : Nodes ν)
    (rest : List Token) : Option Fault :=
  let isFull := p.anchor?.isSome && p.tag?.isSome
  let handleFault := if p.hasKnownHandle handles then none else some Fault.malformed
  let tokenFault :=
    match rest with
    | .fault fault :: _ => some fault
    | _ => none
  let anchorFault := if p.hasNewAnchor nodes then none else some Fault.malformed
  if isFull then handleFault <|> tokenFault <|> anchorFault
  else tokenFault <|> handleFault <|> anchorFault

def Properties.open (p : Properties) (nodes : Nodes ν) : Nodes ν :=
  match p.anchor? with
  | some name => nodes.announce name
  | none => nodes

def Properties.close (p : Properties) (part : Part ν) : Part ν :=
  match p.anchor? with
  | some name => { part with nodes := part.nodes.settle name part.datum }
  | none => part

/-! ## Nodes -/

/-- The places of a node: inside a flow collection, in a block, or behind a key
or a value of a block mapping, where a sequence needs no indentation. -/
inductive Place where
  | flow
  | block
  | entry
deriving DecidableEq

def emptyPart (nodes : Nodes ν) (rest : List Token) : Part ν :=
  ⟨.text [], nodes, rest⟩

def isText : Datum ν → Bool
  | .text _ => true
  | _ => false

def sameText (d e : Datum ν) : Bool :=
  match d, e with
  | .text s, .text t => s == t
  | _, _ => false

/-- The mapping of the entries that were read.  The value of an entry replaces
that of an earlier one with the same key, and keys must be texts. -/
def mappingPart (parts : Parts (Datum ν × Datum ν) ν) : Part ν where
  datum :=
    .mapping (parts.items.foldl (fun es (key, value) => Entries.putBy sameText es key value) [])
  nodes :=
    { parts.nodes with isSound := parts.nodes.isSound && parts.items.all fun e => isText e.1 }
  rest := parts.rest

/-- Whether the value of a block mapping, or a key behind its indicator, is missing. -/
def noEntry : List Token → Bool
  | .key :: _ => true
  | .value :: _ => true
  | .blockEnd :: _ => true
  | _ => false

def noItem : List Token → Bool
  | .blockEntry :: _ => true
  | .blockEnd :: _ => true
  | _ => false

def noIndentlessItem : List Token → Bool
  | .blockEntry :: _ => true
  | tokens => noEntry tokens

/-- Whether the node behind an indicator is missing in front of the end of a
flow collection. -/
def noFlowNode (ending : Token) : List Token → Bool
  | .flowEntry :: _ => true
  | token :: _ => token == ending
  | [] => false

def noFlowKey (ending : Token) : List Token → Bool
  | .value :: _ => true
  | tokens => noFlowNode ending tokens

mutual

def node (handles : List String) :
    Nat → Place → Nodes ν → List Token → Except Fault (Part ν)
  | 0, _, _, _ => .error .malformed
  | fuel + 1, place, nodes, tokens =>
      match tokens with
      | .reference name :: rest =>
          match nodes.repeated? name with
          | some (datum, nodes) => .ok ⟨datum, nodes, rest⟩
          | none => .error .malformed
      | _ =>
          let (p, rest) := properties tokens
          match p.fault? handles nodes rest with
          | some fault => .error fault
          | none =>
            let nodes := p.open nodes
            let sequence (parts : Parts (Datum ν) ν) : Part ν :=
              p.close ⟨.list parts.items, parts.nodes, parts.rest⟩
            let mapping (parts : Parts (Datum ν × Datum ν) ν) : Part ν :=
              p.close (mappingPart parts)
            match rest, place with
            | .blockEntry :: _, .entry => (indentlessItems handles fuel nodes rest).map sequence
            | .scalar phrase :: rest, _ => .ok (p.close ⟨.text phrase, nodes, rest⟩)
            | .flowSequenceStart :: rest, _ =>
                (flowItems handles fuel true nodes rest).map sequence
            | .flowMappingStart :: rest, _ =>
                (flowEntries handles fuel true nodes rest).map mapping
            | rest, place =>
                match rest, place == .flow with
                | .blockSequenceStart :: rest, false =>
                    (blockItems handles fuel nodes rest).map sequence
                | .blockMappingStart :: rest, false =>
                    (blockEntries handles fuel nodes rest).map mapping
                | rest, _ =>
                    if p.isEmpty then .error (unexpected rest)
                    else .ok (p.close (emptyPart nodes rest))

/-- The items of a block sequence, up to its end. -/
def blockItems (handles : List String) :
    Nat → Nodes ν → List Token → Except Fault (Parts (Datum ν) ν)
  | 0, _, _ => .error .malformed
  | fuel + 1, nodes, tokens =>
      match tokens with
      | .blockEntry :: rest => do
          let part ←
            if noItem rest then .ok (emptyPart nodes rest)
            else node handles fuel .block nodes rest
          let more ← blockItems handles fuel part.nodes part.rest
          .ok (more.cons part.datum)
      | .blockEnd :: rest => .ok ⟨[], nodes, rest⟩
      | _ => .error (unexpected tokens)

/-- The items of a sequence without indentation, which ends by what follows it. -/
def indentlessItems (handles : List String) :
    Nat → Nodes ν → List Token → Except Fault (Parts (Datum ν) ν)
  | 0, _, _ => .error .malformed
  | fuel + 1, nodes, tokens =>
      match tokens with
      | .blockEntry :: rest => do
          let part ←
            if noIndentlessItem rest then .ok (emptyPart nodes rest)
            else node handles fuel .block nodes rest
          let more ← indentlessItems handles fuel part.nodes part.rest
          .ok (more.cons part.datum)
      | _ => .ok ⟨[], nodes, tokens⟩

/-- The value behind a key of a block mapping. -/
def blockValue (handles : List String) :
    Nat → Nodes ν → List Token → Except Fault (Part ν)
  | 0, _, _ => .error .malformed
  | fuel + 1, nodes, tokens =>
      match tokens with
      | .value :: rest =>
          if noEntry rest then .ok (emptyPart nodes rest)
          else node handles fuel .entry nodes rest
      | _ => .ok (emptyPart nodes tokens)

/-- The entries of a block mapping, up to its end. -/
def blockEntries (handles : List String) :
    Nat → Nodes ν → List Token → Except Fault (Parts (Datum ν × Datum ν) ν)
  | 0, _, _ => .error .malformed
  | fuel + 1, nodes, tokens =>
      match tokens with
      | .key :: rest => do
          let key ←
            if noEntry rest then .ok (emptyPart nodes rest)
            else node handles fuel .entry nodes rest
          let value ← blockValue handles fuel key.nodes key.rest
          let more ← blockEntries handles fuel value.nodes value.rest
          .ok (more.cons (key.datum, value.datum))
      | .blockEnd :: rest => .ok ⟨[], nodes, rest⟩
      | _ => .error (unexpected tokens)

/-- The value behind a key of a flow collection. -/
def flowValue (handles : List String) (ending : Token) :
    Nat → Nodes ν → List Token → Except Fault (Part ν)
  | 0, _, _ => .error .malformed
  | fuel + 1, nodes, tokens =>
      match tokens with
      | .value :: rest =>
          if noFlowNode ending rest then .ok (emptyPart nodes rest)
          else node handles fuel .flow nodes rest
      | _ => .ok (emptyPart nodes tokens)

/-- A key behind its indicator and its value, in a flow collection. -/
def flowPair (handles : List String) (ending : Token) :
    Nat → Nodes ν → List Token → Except Fault (Parts (Datum ν × Datum ν) ν)
  | 0, _, _ => .error .malformed
  | fuel + 1, nodes, tokens => do
      let key ←
        if noFlowKey ending tokens then .ok (emptyPart nodes tokens)
        else node handles fuel .flow nodes tokens
      let value ← flowValue handles ending fuel key.nodes key.rest
      .ok ⟨[(key.datum, value.datum)], value.nodes, value.rest⟩

/-- The items of a flow sequence, up to its end.  All but the first follow a
comma, and a pair of a key and a value is a mapping of its own. -/
def flowItems (handles : List String) :
    Nat → Bool → Nodes ν → List Token → Except Fault (Parts (Datum ν) ν)
  | 0, _, _, _ => .error .malformed
  | fuel + 1, first, nodes, tokens =>
      let item (tokens : List Token) : Except Fault (Parts (Datum ν) ν) :=
        match tokens with
        | .flowSequenceEnd :: rest => .ok ⟨[], nodes, rest⟩
        | .key :: rest => do
            let pair ← flowPair handles .flowSequenceEnd fuel nodes rest
            let part := mappingPart pair
            let more ← flowItems handles fuel false part.nodes part.rest
            .ok (more.cons part.datum)
        | _ => do
            let part ← node handles fuel .flow nodes tokens
            let more ← flowItems handles fuel false part.nodes part.rest
            .ok (more.cons part.datum)
      if first then item tokens
      else
        match tokens with
        | .flowEntry :: rest => item rest
        | .flowSequenceEnd :: rest => .ok ⟨[], nodes, rest⟩
        | _ => .error (unexpected tokens)

/-- The entries of a flow mapping, up to its end.  A node that is no key stands
for an entry without a value. -/
def flowEntries (handles : List String) :
    Nat → Bool → Nodes ν → List Token → Except Fault (Parts (Datum ν × Datum ν) ν)
  | 0, _, _, _ => .error .malformed
  | fuel + 1, first, nodes, tokens =>
      let entry (tokens : List Token) : Except Fault (Parts (Datum ν × Datum ν) ν) :=
        match tokens with
        | .flowMappingEnd :: rest => .ok ⟨[], nodes, rest⟩
        | .key :: rest => do
            let pair ← flowPair handles .flowMappingEnd fuel nodes rest
            let more ← flowEntries handles fuel false pair.nodes pair.rest
            .ok { more with items := pair.items ++ more.items }
        | _ => do
            let part ← node handles fuel .flow nodes tokens
            let more ← flowEntries handles fuel false part.nodes part.rest
            .ok (more.cons (part.datum, .text []))
      if first then entry tokens
      else
        match tokens with
        | .flowEntry :: rest => entry rest
        | .flowMappingEnd :: rest => .ok ⟨[], nodes, rest⟩
        | _ => .error (unexpected tokens)

end

/-! ## Documents -/

def standardHandles : List String :=
  ["!", "!!"]

/-- The directives in front of a document: one version at most, which must be
the first, and each handle once. -/
def directives (versioned : Bool) (handles : List String) :
    List Token → Except Fault (List String × List Token)
  | .directive (.version major) :: rest =>
      if versioned ∨ major ≠ 1 then .error .malformed else directives true handles rest
  | .directive (.handle handle) :: rest =>
      if handles.contains handle then .error .malformed
      else directives versioned (handle :: handles) rest
  | .directive .other :: rest => directives versioned handles rest
  | tokens => .ok (handles ++ standardHandles, tokens)

/-- Whether a document that was started has no node. -/
def noDocument : List Token → Bool
  | .directive _ :: _ => true
  | .documentStart :: _ => true
  | .documentEnd :: _ => true
  | .streamEnd :: _ => true
  | _ => false

/-- Nothing may follow a document but marks of its end.  The directives of a
further document are read before it is refused. -/
def endDocument : List Token → Except Fault Unit
  | .documentEnd :: rest => endDocument rest
  | .streamEnd :: _ => .ok ()
  | tokens => (directives false [] tokens).bind fun (_, rest) => .error (unexpected rest)

/-- The datum of a whole document, in which nothing unsound was read. -/
def Part.finish (part : Part ν) : Except Fault (Datum ν) :=
  match endDocument part.rest with
  | .error fault => .error fault
  | .ok _ => if part.nodes.isSound then .ok part.datum else .error .malformed

/-- The datum of a stream of tokens that holds at most one document. -/
def document (tokens : List Token) : Except Fault (Datum ν) :=
  let fuel := 2 * tokens.length + 2
  let explicit : Except Fault (Datum ν) := do
    let (handles, rest) ← directives false [] tokens
    match rest with
    | .documentStart :: rest =>
        let part ←
          if noDocument rest then .ok (emptyPart .start rest)
          else node handles fuel .block .start rest
        part.finish
    | _ => .error (unexpected rest)
  match tokens with
  | .streamEnd :: _ => .ok .none
  | .directive _ :: _ => explicit
  | .documentStart :: _ => explicit
  | _ => do
      let part ← node standardHandles fuel .block .start tokens
      part.finish

end Yaml
end Palette
