import Palette.Yaml.Chars

/-!
# Plain scalars

A plain scalar has no quotes.  It is made of words with gaps between them; a
gap is a run of spaces, or line breaks with the spaces around them, which fold.
A gap belongs to the scalar only if a word follows it.
-/

namespace Palette
namespace Yaml
namespace Plain

/-- The indicators that end a plain scalar in a flow collection. -/
def isFlowIndicator (c : Char) : Bool :=
  c == ',' || c == '[' || c == ']' || c == '\x7b' || c == '\x7d'

/-- Whether a colon in front of a text is an indicator. -/
def endsKey (flow : Bool) : List Char → Bool
  | [] => true
  | c :: _ => isBlank c || isBreak c || (flow && isFlowIndicator c)

/-- Whether a word ends in front of a character and the text behind it. -/
def endsWord (flow : Bool) (c : Char) (rest : List Char) : Bool :=
  isBlank c || isBreak c || (c == ':' && endsKey flow rest) ||
    (flow && (isFlowIndicator c || c == '?'))

/-- The word at the start of a text, and what follows it. -/
def word (flow : Bool) : List Char → List Char × List Char
  | [] => ([], [])
  | c :: rest =>
      if endsWord flow c rest then ([], c :: rest)
      else
        match word flow rest with
        | (w, after) => (c :: w, after)

/-- The breaks of empty lines; nothing if a mark between documents is met. -/
def emptyLines : List Char → Option (List Char) × List Char
  | [] => (some [], [])
  | c :: rest =>
      if c = ' ' then emptyLines rest
      else if isBreak c then
        if atDocumentMark rest then (none, rest)
        else
          match emptyLines rest with
          | (breaks, after) => (breaks.map (c :: ·), after)
      else (some [], c :: rest)

/-- What a gap stands for, if the scalar may go on behind it, what follows it,
and whether it crosses a line break. -/
structure Gap where
  text? : Option (List Char)
  after : List Char
  crossesLine : Bool

def gap (s : List Char) : Gap :=
  let spaces := s.takeWhile (· == ' ')
  match s.dropWhile (· == ' ') with
  | [] => ⟨some spaces, [], false⟩
  | c :: rest =>
      if isBreak c then
        if atDocumentMark rest then ⟨none, rest, true⟩
        else
          match emptyLines rest with
          | (breaks, after) => ⟨breaks.map (foldBreaks c), after, true⟩
      else ⟨some spaces, c :: rest, false⟩

/-! ## Words and gaps do not grow the text -/

theorem length_word (flow : Bool) (s : List Char) :
    (word flow s).1.length + (word flow s).2.length = s.length := by
  induction s with
  | nil =>
      rfl
  | cons c rest ih =>
      simp only [word]
      split
      · simp
      · simp only [List.length_cons]
        omega

theorem length_emptyLines_le (s : List Char) : (emptyLines s).2.length ≤ s.length := by
  induction s with
  | nil =>
      exact Nat.le_refl _
  | cons c rest ih =>
      simp only [emptyLines]
      split
      · simp only [List.length_cons]
        omega
      · split
        · split
          · simp
          · simp only [List.length_cons]
            omega
        · exact Nat.le_refl _

theorem length_dropSpaces_le (s : List Char) :
    (s.dropWhile (· == ' ')).length ≤ s.length := by
  induction s with
  | nil =>
      exact Nat.le_refl _
  | cons c rest ih =>
      rw [List.dropWhile_cons]
      split
      · simp only [List.length_cons]
        omega
      · exact Nat.le_refl _

theorem length_gap_le (s : List Char) : (gap s).after.length ≤ s.length := by
  have hdrop := length_dropSpaces_le s
  simp only [gap]
  split
  case h_1 =>
    simp
  case h_2 c rest hs =>
    rw [hs, List.length_cons] at hdrop
    split
    · split
      · simp only
        omega
      · have := length_emptyLines_le rest
        simp only
        omega
    · simp only [List.length_cons]
      omega

/-! ## Scalars -/

/-- A scalar that was read, the place behind it, and whether that place is at
the start of a line. -/
structure Scalar where
  text : List Char
  cursor : Cursor
  atLineStart : Bool

/-- Reads the words from a place on.  `before` is the text of the gap in front
of the first of them.  Outside flow collections a line must be indented. -/
def scanFrom (flow : Bool) (indent : Nat) (before : List Char) (cursor : Cursor)
    (atLineStart : Bool) : Scalar :=
  if cursor.rest.head? = some '#' then ⟨[], cursor, atLineStart⟩
  else if _hw : (word flow cursor.rest).1 = [] then ⟨[], cursor, atLineStart⟩
  else
    let text := before ++ (word flow cursor.rest).1
    let g := gap (word flow cursor.rest).2
    let place := (cursor.moveTo (word flow cursor.rest).2).moveTo g.after
    match g.text? with
    | none => ⟨text, place, g.crossesLine⟩
    | some [] => ⟨text, place, g.crossesLine⟩
    | some between =>
        if g.after.head? = some '#' ∨ (!flow ∧ place.position.column < indent) then
          ⟨text, place, g.crossesLine⟩
        else
          let more := scanFrom flow indent between place g.crossesLine
          ⟨text ++ more.text, more.cursor, more.atLineStart⟩
termination_by cursor.rest.length
decreasing_by
  have hword := length_word flow cursor.rest
  have hgap := length_gap_le (word flow cursor.rest).2
  have hpos := List.length_pos_iff.mpr _hw
  show (gap (word flow cursor.rest).2).after.length < cursor.rest.length
  omega

def scan (flow : Bool) (indent : Nat) (cursor : Cursor) : Scalar :=
  scanFrom flow indent [] cursor false

end Plain
end Yaml
end Palette
