import Palette.Text.Digits

/-!
# Grammars of command lines

A grammar has options, which may stand anywhere, and operands, which are matched
as one block.  Each word of a command line is first marked as an option, as a
plain word, or as the separator behind which every word is plain.  Then options
and operands are taken alternately.

A long option may be shortened as long as only one option starts like that, and
may have its value behind an equals sign.  Short options without values may be
joined, and a value may be joined to the last of them.  Two dashes attached to an
option are no value: the option then counts as given without one.  A word that
looks like a negative number, or holds a space, is plain unless it is an option.
-/

namespace Palette
namespace CommandLine

/-- Why a command line ends before anything is run. -/
inductive Stop where
  /-- The help of a grammar was asked for. -/
  | help (usage : String)
  /-- The words do not fit the grammar. -/
  | misuse (usage : String)
deriving DecidableEq

inductive Action (α : Type) where
  | help
  | flag (set : α → α)
  /-- Takes a value, if it was given one, which may be refused. -/
  | value (set : Option String → α → Option α)

structure OptionRule (α : Type) where
  names : List String
  action : Action α

inductive Arity where
  | one
  | optional
  | many
  /-- A word and everything behind it. -/
  | command
deriving DecidableEq

/-- The operands of a grammar.  Taking them may leave words over. -/
structure Operands (α : Type) where
  arity : Arity
  take : List String → α → Except Stop (α × List String)

structure Grammar (α : Type) where
  usage : String
  options : List (OptionRule α)
  operands? : Option (Operands α)

def OptionRule.takesValue (rule : OptionRule α) : Bool :=
  match rule.action with
  | .value _ => true
  | _ => false

/-! ## Marks -/

/-- An option that a word names, and the text attached to the name, if any: what
is joined to it, or stands behind an equals sign. -/
structure Named (α : Type) where
  rule : OptionRule α
  name : String
  attached : Option (List Char)

inductive Mark (α : Type) where
  | plain
  | separator
  /-- An option, which may be an unknown one. -/
  | option (named : Option (Named α))

structure Word (α : Type) where
  text : String
  mark : Mark α

namespace Mark

def isOption : Mark α → Bool
  | option _ => true
  | _ => false

def isSeparator : Mark α → Bool
  | separator => true
  | _ => false

end Mark

/-- Splits at the first equals sign. -/
def splitEquals : List Char → List Char × Option (List Char)
  | [] => ([], none)
  | c :: rest =>
      if c = '=' then ([], some rest)
      else
        match splitEquals rest with
        | (before, after) => (c :: before, after)

/-- Whether a word is a dash and a number, with a point or without; a line feed
may follow. -/
def isNegativeNumber (word : List Char) : Bool :=
  match word with
  | '-' :: rest =>
      let rest := if rest.getLast? = some '\n' then rest.dropLast else rest
      let tail := rest.dropWhile Text.isDigit
      if tail.isEmpty then !rest.isEmpty
      else
        match tail with
        | '.' :: fraction => !fraction.isEmpty && fraction.all Text.isDigit
        | _ => false
  | _ => false

namespace Grammar

/-- The rule of an option by its full name. -/
def rule? (g : Grammar α) (name : String) : Option (OptionRule α) :=
  g.options.find? fun rule => rule.names.contains name

/-- All names of options with their rules. -/
def namedRules (g : Grammar α) : List (String × OptionRule α) :=
  g.options.flatMap fun rule => rule.names.map fun name => (name, rule)

/-- The options that a word may stand for without being the full name of one. -/
def readings (g : Grammar α) (word : List Char) : List (Named α) :=
  match word with
  | '-' :: '-' :: _ =>
      let (start, value) := splitEquals word
      (g.namedRules.filter fun (name, _) => start.isPrefixOf name.toList).map
        fun (name, rule) => ⟨rule, name, value⟩
  | _ =>
      g.namedRules.filterMap fun (name, rule) =>
        if name.toList = word.take 2 then some ⟨rule, name, some (word.drop 2)⟩
        else if word.isPrefixOf name.toList then some ⟨rule, name, none⟩
        else none

/-- The mark of a word that is not the separator.  An ambiguous one has none. -/
def mark? (g : Grammar α) (word : String) : Option (Mark α) :=
  match word.toList with
  | '-' :: c :: rest =>
      let full := '-' :: c :: rest
      match g.rule? word with
      | some rule => some (.option (some ⟨rule, word, none⟩))
      | none =>
          match splitEquals full with
          | (start, value) =>
              match value, g.rule? (String.ofList start) with
              | some text, some rule =>
                  some (.option (some ⟨rule, String.ofList start, some text⟩))
              | _, _ =>
                  match g.readings full with
                  | [named] => some (.option (some named))
                  | _ :: _ :: _ => none
                  | [] =>
                      if isNegativeNumber full || full.contains ' ' then some .plain
                      else some (.option none)
  | _ => some .plain

def marked (g : Grammar α) : List String → Option (List (Word α))
  | [] => some []
  | word :: rest =>
      if word = "--" then some (⟨word, .separator⟩ :: rest.map fun w => ⟨w, .plain⟩)
      else
        match g.mark? word, g.marked rest with
        | some mark, some words => some (⟨word, mark⟩ :: words)
        | _, _ => none

/-! ## Options -/

/-- An option with its value, if it has one. -/
abbrev Step (α : Type) := OptionRule α × Option String

/-- What an option word asks for: options with their values, and one more that
still has to look for its value. -/
structure Request (α : Type) where
  steps : List (Step α)
  waiting : Option (OptionRule α)

def Request.cons (step : Step α) (r : Request α) : Request α :=
  { r with steps := step :: r.steps }

/-- The value that an attached text gives. -/
def attachedValue (text : List Char) : Option String :=
  if text = ['-', '-'] then none else some (String.ofList text)

/-- Reads the text attached to an option.  An option with a value takes all of it.
Behind a short option without a value the text joins further short options, and
there is at least one. -/
def attachedTo (g : Grammar α) (rule : OptionRule α) (short : Bool) (text : List Char) :
    Option (Request α) :=
  if rule.takesValue then some ⟨[(rule, attachedValue text)], none⟩
  else
    match text with
    | [] => none
    | c :: rest =>
        if !short then none
        else
          match g.rule? (String.ofList ['-', c]) with
          | none => none
          | some next =>
              let more : Option (Request α) :=
                match rest with
                | [] => some ⟨[], some next⟩
                | d :: rest => g.attachedTo next true (d :: rest)
              more.map (Request.cons (rule, none))

def request? (g : Grammar α) (named : Named α) : Option (Request α) :=
  match named.attached with
  | none => some ⟨[], some named.rule⟩
  | some text => g.attachedTo named.rule (!"--".toList.isPrefixOf named.name.toList) text

/-- Takes options one after the other. -/
def apply (g : Grammar α) (value : α) : List (Step α) → Except Stop α
  | [] => .ok value
  | (rule, given) :: rest =>
      match rule.action with
      | .help => .error (.help g.usage)
      | .flag set => g.apply (set value) rest
      | .value set =>
          match set given value with
          | some value => g.apply value rest
          | none => .error (.misuse g.usage)

/-! ## Taking words -/

/-- What was read so far, the words that are left over, and whether the operands
are still to come. -/
structure Progress (α : Type) where
  value : α
  surplus : List String
  awaitsOperands : Bool

/-- Takes an option and, if it waits for a value, the plain word behind it. -/
def takeOption (g : Grammar α) (p : Progress α) (text : String) (named? : Option (Named α))
    (rest : List (Word α)) : Except Stop (Progress α × List (Word α)) :=
  match named? with
  | none => .ok ({ p with surplus := p.surplus ++ [text] }, rest)
  | some named =>
      match g.request? named with
      | none => .error (.misuse g.usage)
      | some request =>
          let finish (steps : List (Step α)) (rest : List (Word α)) :
              Except Stop (Progress α × List (Word α)) :=
            (g.apply p.value steps).map fun value => ({ p with value := value }, rest)
          match request.waiting with
          | none => finish request.steps rest
          | some rule =>
              if !rule.takesValue then finish (request.steps ++ [(rule, none)]) rest
              else
                match rest with
                | ⟨word, .plain⟩ :: rest => finish (request.steps ++ [(rule, some word)]) rest
                | _ => .error (.misuse g.usage)

/-- The number of words that operands take, if they fit. -/
def operandCount? (arity : Arity) (words : List (Word α)) : Option Nat :=
  let separators := (words.takeWhile (·.mark.isSeparator)).length
  let rest := words.drop separators
  match arity, rest with
  | .optional, ⟨_, .plain⟩ :: rest =>
      some (separators + 1 + (rest.takeWhile (·.mark.isSeparator)).length)
  | .optional, _ => some separators
  | .one, ⟨_, .plain⟩ :: rest =>
      some (separators + 1 + (rest.takeWhile (·.mark.isSeparator)).length)
  | .many, ⟨_, .plain⟩ :: rest =>
      some (separators + 1 + (rest.takeWhile (!·.mark.isOption)).length)
  | .command, ⟨_, .plain⟩ :: rest => some (separators + 1 + rest.length)
  | _, _ => none

/-- Takes the operands at the start of the words, if they are still to come and fit. -/
def takeOperands? (g : Grammar α) (p : Progress α) (words : List (Word α)) :
    Option (Except Stop (Progress α) × List (Word α)) :=
  match g.operands? with
  | none => none
  | some operands =>
      if !p.awaitsOperands then none
      else
        match operandCount? operands.arity words with
        | none => none
        | some count =>
            let texts := (words.take count).map (·.text)
            let texts := if operands.arity = .command then texts else texts.erase "--"
            let taken := (operands.take texts p.value).map fun (value, surplus) =>
              (⟨value, p.surplus ++ surplus, false⟩ : Progress α)
            some (taken, words.drop count)

/-- Whether operands that must be there are not. -/
def lacksOperands (g : Grammar α) (p : Progress α) : Bool :=
  p.awaitsOperands &&
    match g.operands? with
    | some operands => operands.arity = .one || operands.arity = .many
    | none => false

/-- Takes the words behind the last option. -/
def finish (g : Grammar α) (p : Progress α) (words : List (Word α)) :
    Except Stop (Progress α) :=
  match g.takeOperands? p words with
  | some (.error stop, _) => .error stop
  | some (.ok p, rest) => .ok { p with surplus := p.surplus ++ rest.map (·.text) }
  | none =>
      if g.lacksOperands p then .error (.misuse g.usage)
      else .ok { p with surplus := p.surplus ++ words.map (·.text) }

/-- Takes all words.  Each step takes one at least, so their number is fuel enough. -/
def takeAll (g : Grammar α) : Nat → Progress α → List (Word α) → Except Stop (Progress α)
  | 0, p, words => g.finish p words
  | fuel + 1, p, words =>
      if !words.any (·.mark.isOption) then g.finish p words
      else
        match words with
        | ⟨text, .option named?⟩ :: rest => do
            let (p, rest) ← g.takeOption p text named? rest
            g.takeAll fuel p rest
        | words =>
            match g.takeOperands? p words with
            | some (.error stop, _) => .error stop
            | some (.ok p, rest) => g.takeAll fuel p rest
            | none =>
                let surplus := (words.takeWhile (!·.mark.isOption)).map (·.text)
                g.takeAll fuel { p with surplus := p.surplus ++ surplus }
                  (words.dropWhile (!·.mark.isOption))

/-- Reads the words of a command line; those that fit nowhere are left over. -/
def parse (g : Grammar α) (value : α) (words : List String) : Except Stop (α × List String) :=
  match g.marked words with
  | none => .error (.misuse g.usage)
  | some words =>
      (g.takeAll (words.length + 1) ⟨value, [], true⟩ words).map fun p => (p.value, p.surplus)

end Grammar
end CommandLine
end Palette
