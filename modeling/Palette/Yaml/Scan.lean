import Palette.Yaml.Block
import Palette.Yaml.Plain
import Palette.Yaml.Property
import Palette.Yaml.Quoted

/-!
# From text to tokens

The text is cut into tokens in one pass.  A stack of columns holds the block
collections that are open; a line that starts further left closes them.  A node
in front of a colon is a key, which is not known before the colon is met: the
place of each node that could be one is kept, one for each level of flow
collections, and the tokens of the key are put there afterwards.  A fault of the
text takes the place of all tokens that it leaves uncertain.
-/

namespace Palette
namespace Yaml

/-- A node that becomes a key if a colon follows it on its line. -/
structure Candidate where
  /-- The number of tokens in front of it. -/
  place : Nat
  /-- Whether the node can be nothing but a key. -/
  required : Bool
  position : Position

structure Scanner where
  cursor : Cursor
  /-- The columns of the open block collections, the innermost first. -/
  indents : List Nat
  /-- The candidate of each flow collection, the innermost first; the last one
  is that of the block around them. -/
  candidates : List (Option Candidate)
  /-- Whether a key may start here. -/
  keyAllowed : Bool
  /-- The tokens so far, the last one first. -/
  tokens : List Token

namespace Scanner

def start (text : List Char) : Scanner where
  cursor := .start (if text.head? = some byteOrderMark then text.drop 1 else text)
  indents := []
  candidates := [none]
  keyAllowed := true
  tokens := []

def column (s : Scanner) : Nat :=
  s.cursor.position.column

def inFlow (s : Scanner) : Bool :=
  1 < s.candidates.length

/-- The least column of what is inside the innermost block collection. -/
def innerIndent (s : Scanner) : Nat :=
  match s.indents with
  | [] => 0
  | column :: _ => column + 1

def push (s : Scanner) (token : Token) : Scanner :=
  { s with tokens := token :: s.tokens }

def moveTo (s : Scanner) (rest : List Char) : Scanner :=
  { s with cursor := s.cursor.moveTo rest }

/-- Takes a token of a fixed number of characters. -/
def take (s : Scanner) (count : Nat) (token : Token) : Scanner :=
  { s with cursor := s.cursor.skip count, tokens := token :: s.tokens }

def allowKey (s : Scanner) (allowed : Bool) : Scanner :=
  { s with keyAllowed := allowed }

/-! ## Blanks between tokens -/

/-- Drops spaces, comments and breaks in front of a token.  A break outside flow
collections makes room for a key. -/
def dropGaps (inFlow : Bool) : Bool → Bool → List Char → List Char × Bool
  | keyAllowed, _, [] => ([], keyAllowed)
  | keyAllowed, inComment, c :: rest =>
      if isBreak c then dropGaps inFlow (keyAllowed || !inFlow) false rest
      else if inComment || c = ' ' then dropGaps inFlow keyAllowed inComment rest
      else if c = '#' then dropGaps inFlow keyAllowed true rest
      else (c :: rest, keyAllowed)

def toNextToken (s : Scanner) : Scanner :=
  match dropGaps s.inFlow s.keyAllowed false s.cursor.rest with
  | (rest, keyAllowed) => (s.moveTo rest).allowKey keyAllowed

/-! ## Block collections -/

/-- Closes the block collections that start to the right of a column. -/
def unwindTo (column : Nat) : List Nat → List Token → List Nat × List Token
  | [], tokens => ([], tokens)
  | indent :: outer, tokens =>
      if column < indent then unwindTo column outer (.blockEnd :: tokens)
      else (indent :: outer, tokens)

def unwind (s : Scanner) : Scanner :=
  if s.inFlow then s
  else
    match unwindTo s.column s.indents s.tokens with
    | (indents, tokens) => { s with indents := indents, tokens := tokens }

/-- Closes all block collections. -/
def unwindAll (s : Scanner) : Scanner :=
  if s.inFlow then s
  else
    { s with
      indents := []
      tokens := List.replicate s.indents.length .blockEnd ++ s.tokens }

/-- Whether a collection that starts in a column is a new one. -/
def opensAt (s : Scanner) (column : Nat) : Bool :=
  match s.indents with
  | [] => true
  | indent :: _ => indent < column

/-- Opens a block collection here unless it is open already. -/
def openBlock (s : Scanner) (token : Token) : Scanner :=
  if s.opensAt s.column then
    { s with indents := s.column :: s.indents, tokens := token :: s.tokens }
  else s

/-! ## Candidates for keys -/

/-- A candidate is void on another line or too far away. -/
def isStale (position : Position) (k : Candidate) : Bool :=
  k.position.line != position.line || k.position.index + 1024 < position.index

/-- Drops void candidates, none of which may be required. -/
def dropStale (s : Scanner) : Option Scanner :=
  let stale (k : Option Candidate) : Bool := k.any (isStale s.cursor.position)
  if s.candidates.any fun k => stale k && k.any (·.required) then none
  else some { s with candidates := s.candidates.map fun k => if stale k then none else k }

def candidate (s : Scanner) : Option Candidate :=
  s.candidates.head?.join

def setCandidate (s : Scanner) (k : Option Candidate) : Scanner :=
  { s with candidates := k :: s.candidates.drop 1 }

/-- Drops the candidate of this level, which must not be required. -/
def dropCandidate (s : Scanner) : Option Scanner :=
  if s.candidate.any (·.required) then none else some (s.setCandidate none)

/-- Notes that a node starts here. -/
def saveCandidate (s : Scanner) : Option Scanner :=
  if s.keyAllowed then
    s.dropCandidate.map fun s =>
      s.setCandidate (some
        { place := s.tokens.length
          required := !s.inFlow && s.indents.head? == some s.column
          position := s.cursor.position })
  else some s

/-- Puts tokens, the last one first, to a place among those so far. -/
def insertAt (tokens : List Token) (place : Nat) (new : List Token) : List Token :=
  tokens.take (tokens.length - place) ++ new ++ tokens.drop (tokens.length - place)

/-! ## Single tokens -/

/-- A mark between documents, or a directive, closes all blocks. -/
def atDocumentLevel (s : Scanner) : Except Fault Scanner :=
  (orMalformed s.unwindAll.dropCandidate).map (·.allowKey false)

def fetchStreamEnd (s : Scanner) : Except Fault Scanner :=
  (atDocumentLevel s).map (·.push .streamEnd)

def fetchDirective (s : Scanner) : Except Fault Scanner := do
  let s ← s.atDocumentLevel
  let (directive, rest) ← Property.directive (s.cursor.rest.drop 1)
  .ok ((s.moveTo rest).push (.directive directive))

def fetchDocumentMark (s : Scanner) (token : Token) : Except Fault Scanner := do
  let s ← s.atDocumentLevel
  .ok (s.take 3 token)

def fetchFlowStart (s : Scanner) (token : Token) : Except Fault Scanner := do
  let s ← orMalformed s.saveCandidate
  .ok ({ s with candidates := none :: s.candidates, keyAllowed := true }.take 1 token)

/-- The end of a flow collection; there must be one that is open. -/
def fetchFlowEnd (s : Scanner) (token : Token) : Except Fault Scanner := do
  let s ← orMalformed s.dropCandidate
  if s.inFlow then
    .ok ({ s with candidates := s.candidates.drop 1, keyAllowed := false }.take 1 token)
  else .error .malformed

def fetchFlowEntry (s : Scanner) : Except Fault Scanner := do
  let s ← orMalformed s.dropCandidate
  .ok ((s.allowKey true).take 1 .flowEntry)

/-- An indicator that opens a block collection is allowed only where a key is. -/
def openFor (s : Scanner) (token : Token) : Except Fault Scanner :=
  if s.inFlow then .ok s
  else if s.keyAllowed then .ok (s.openBlock token)
  else .error .malformed

def fetchBlockEntry (s : Scanner) : Except Fault Scanner := do
  let s ← s.openFor .blockSequenceStart
  let s ← orMalformed s.dropCandidate
  .ok ((s.allowKey true).take 1 .blockEntry)

def fetchKey (s : Scanner) : Except Fault Scanner := do
  let s ← s.openFor .blockMappingStart
  let s ← orMalformed s.dropCandidate
  .ok ((s.allowKey (!s.inFlow)).take 1 .key)

/-- The tokens of a key that a colon reveals, the last one first. -/
def keyTokens (s : Scanner) (k : Candidate) : List Token :=
  if !s.inFlow && s.opensAt k.position.column then [.key, .blockMappingStart] else [.key]

def fetchValue (s : Scanner) : Except Fault Scanner :=
  match s.candidate with
  | some k =>
      let indents :=
        if !s.inFlow && s.opensAt k.position.column then k.position.column :: s.indents
        else s.indents
      let s :=
        { s with
          indents := indents
          tokens := insertAt s.tokens k.place (s.keyTokens k)
          keyAllowed := false }
      .ok ((s.setCandidate none).take 1 .value)
  | none => do
      let s ← s.openFor .blockMappingStart
      .ok ((s.allowKey (!s.inFlow)).take 1 .value)

/-- A node that may be a key, or a property in front of one. -/
def beginNode (s : Scanner) : Except Fault Scanner :=
  (orMalformed s.saveCandidate).map (·.allowKey false)

def fetchName (s : Scanner) (token : String → Token) : Except Fault Scanner := do
  let s ← s.beginNode
  match Property.name? (s.cursor.rest.drop 1) with
  | some (name, rest) => .ok ((s.moveTo rest).push (token name))
  | none => .error .malformed

def fetchTag (s : Scanner) : Except Fault Scanner := do
  let s ← s.beginNode
  match Property.tag? (s.cursor.rest.drop 1) with
  | some (handle, rest) => .ok ((s.moveTo rest).push (.tag handle))
  | none => .error .malformed

def fetchBlockScalar (s : Scanner) (folded : Bool) : Except Fault Scanner := do
  let s ← orMalformed s.dropCandidate
  let (text, rest) ← Block.scan folded s.innerIndent (s.cursor.rest.drop 1)
  .ok (((s.allowKey true).moveTo rest).push (.scalar (.ofChars text)))

def fetchQuoted (s : Scanner) (quote : Char) : Except Fault Scanner := do
  let s ← s.beginNode
  let (phrase, rest) ← Quoted.scan quote (s.cursor.rest.drop 1)
  .ok ((s.moveTo rest).push (.scalar phrase))

def fetchPlain (s : Scanner) : Except Fault Scanner := do
  let s ← s.beginNode
  let scalar := Plain.scan s.inFlow s.innerIndent s.cursor
  .ok ({ s with cursor := scalar.cursor, keyAllowed := scalar.atLineStart }.push
    (.scalar (.ofChars scalar.text)))

/-- Whether a plain scalar may start with a character. -/
def startsPlain (inFlow : Bool) (c : Char) (rest : List Char) : Bool :=
  if c == '-' then !atGap rest
  else if c == '?' || c == ':' then !inFlow && !atGap rest
  else !(isBlank c || ",[]\x7b\x7d#&*!|>'\"%@\x60".toList.contains c)

/-- Takes the token that starts with a character, in front of a text. -/
def fetch (s : Scanner) (c : Char) (rest : List Char) : Except Fault Scanner :=
  let lineStart := s.column = 0
  if c = '%' ∧ lineStart then s.fetchDirective
  else if c = '-' ∧ lineStart ∧ atDocumentMark (c :: rest) then s.fetchDocumentMark .documentStart
  else if c = '.' ∧ lineStart ∧ atDocumentMark (c :: rest) then s.fetchDocumentMark .documentEnd
  else if c = '[' then s.fetchFlowStart .flowSequenceStart
  else if c = '\x7b' then s.fetchFlowStart .flowMappingStart
  else if c = ']' then s.fetchFlowEnd .flowSequenceEnd
  else if c = '\x7d' then s.fetchFlowEnd .flowMappingEnd
  else if c = ',' then s.fetchFlowEntry
  else if c = '-' ∧ atGap rest then s.fetchBlockEntry
  else if c = '?' ∧ (s.inFlow ∨ atGap rest) then s.fetchKey
  else if c = ':' ∧ (s.inFlow ∨ atGap rest) then s.fetchValue
  else if c = '*' then s.fetchName .reference
  else if c = '&' then s.fetchName .anchor
  else if c = '!' then s.fetchTag
  else if c = '|' ∧ !s.inFlow then s.fetchBlockScalar false
  else if c = '>' ∧ !s.inFlow then s.fetchBlockScalar true
  else if c = '\'' ∨ c = '"' then s.fetchQuoted c
  else if startsPlain s.inFlow c rest then s.fetchPlain
  else .error .malformed

/-! ## All tokens -/

/-- Goes to the next token, if there is one, and closes what ends before it. -/
def prepare (s : Scanner) : Except Fault Scanner :=
  (orMalformed s.toNextToken.dropStale).map unwind

/-- The number of tokens that are known for certain: those in front of the first
candidate that is not void. -/
def settledCount (s : Scanner) : Nat :=
  (s.candidates.filterMap fun k =>
    if k.any (isStale s.cursor.position) then none else k.map (·.place)).foldl min s.tokens.length

/-- The tokens up to a fault that the text behind them has.  No token is handed
out that the text behind it may still change, so that the fault shows in place of
the first such token. -/
def endWith (s : Scanner) (fault : Fault) : List Token :=
  s.tokens.reverse.take s.settledCount ++ [.fault fault]

/-- Takes the tokens up to the end, or to a fault. -/
def run : Nat → Scanner → List Token
  | 0, s => s.endWith .malformed
  | fuel + 1, s =>
      match s.prepare with
      | .error fault => s.endWith fault
      | .ok next =>
          match next.cursor.rest with
          | [] =>
              match next.fetchStreamEnd with
              | .error fault => s.endWith fault
              | .ok s => s.tokens.reverse
          | c :: rest =>
              match next.fetch c rest with
              | .error fault => s.endWith fault
              | .ok s => run fuel s

end Scanner

/-- The tokens of a text. -/
def tokens (text : List Char) : List Token :=
  Scanner.run (text.length + 1) (.start text)

end Yaml
end Palette
