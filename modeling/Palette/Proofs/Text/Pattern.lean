/-!
# Patterns

A pattern is matched by backtracking.  Of two choices the first is tried first; a
greedy repetition tries to go on before it stops, a lazy one to stop before it goes
on.  A way is taken back when what stands behind it finds no match.
-/

namespace Palette
namespace Text

inductive Pattern where
  | empty
  | char (accepts : Char → Bool)
  | sequence (front back : Pattern)
  | choice (first second : Pattern)
  | repeated (greedy : Bool) (body : Pattern)
  /-- Keeps the text that the body takes under a number. -/
  | group (number : Nat) (body : Pattern)

/-- A place in a text, with the groups that were kept on the way to it, the last one
first. -/
structure Cursor where
  position : Nat
  rest : List Char
  groups : List (Nat × List Char)

namespace Cursor

def skip (s : Cursor) (count : Nat) : Cursor :=
  { s with position := s.position + count, rest := s.rest.drop count }

def keep (s : Cursor) (number : Nat) (chars : List Char) : Cursor :=
  { s with groups := (number, chars) :: s.groups }

/-- The text between two places. -/
def textTo (s t : Cursor) : List Char :=
  s.rest.take (t.position - s.position)

theorem skip_zero (s : Cursor) : s.skip 0 = s :=
  rfl

theorem skip_skip (s : Cursor) (m n : Nat) : (s.skip m).skip n = s.skip (m + n) := by
  simp only [skip, List.drop_drop, Nat.add_assoc]

theorem rest_skip (s : Cursor) (count : Nat) : (s.skip count).rest = s.rest.drop count :=
  rfl

theorem textTo_skip (s : Cursor) (count : Nat) : s.textTo (s.skip count) = s.rest.take count := by
  rw [textTo, skip, Nat.add_sub_cancel_left]

end Cursor

/-- What a pattern takes of a text, from a start up to a stop. -/
structure Match where
  start : Nat
  stop : Nat
  groups : List (Nat × List Char)
deriving DecidableEq

def Match.group? (m : Match) (number : Nat) : Option (List Char) :=
  m.groups.lookup number

namespace Pattern

variable {β : Type}

/-- Repeats a step.  A round that takes nothing is not repeated. -/
def iterate (greedy : Bool) (step : Cursor → (Cursor → Option β) → Option β) (s : Cursor)
    (next : Cursor → Option β) : Option β :=
  let more := step s fun t =>
    if _h : t.rest.length < s.rest.length then iterate greedy step t next else none
  if greedy then more.or (next s) else (next s).or more
termination_by s.rest.length

/-- Runs a pattern from a place on; `next` says whether what stands behind it finds a
match. -/
def run : Pattern → Cursor → (Cursor → Option β) → Option β
  | empty, s, next => next s
  | char accepts, s, next =>
      match s.rest with
      | [] => none
      | c :: _ => if accepts c then next (s.skip 1) else none
  | sequence front back, s, next => front.run s fun t => back.run t next
  | choice first second, s, next => (first.run s next).or (second.run s next)
  | repeated greedy body, s, next => iterate greedy body.run s next
  | group number body, s, next => body.run s fun t => next (t.keep number (s.textTo t))

def matchAt? (p : Pattern) (position : Nat) (rest : List Char) : Option Match :=
  p.run ⟨position, rest, []⟩ fun t => some ⟨position, t.position, t.groups⟩

def search? (p : Pattern) (position : Nat) : List Char → Option Match
  | [] => p.matchAt? position []
  | c :: rest => (p.matchAt? position (c :: rest)).or (p.search? (position + 1) rest)

/-- The matches of a pattern from left to right.  The search goes on where a match
stops, as long as it took something. -/
def findAll (p : Pattern) (position : Nat) (rest : List Char) : List Match :=
  match p.search? position rest with
  | none => []
  | some m =>
      if _h : (rest.drop (m.stop - position)).length < rest.length then
        m :: p.findAll m.stop (rest.drop (m.stop - position))
      else [m]
termination_by rest.length
decreasing_by exact _h

/-!
# Words and sequences
-/

def word : List Char → Pattern
  | [] => empty
  | c :: rest => sequence (char (· == c)) (word rest)

def sequenceOf : List Pattern → Pattern
  | [] => empty
  | p :: rest => sequence p (sequenceOf rest)

theorem run_char_cons {accepts : Char → Bool} {s : Cursor} {c : Char} {rest : List Char}
    (hrest : s.rest = c :: rest) (next : Cursor → Option β) :
    (char accepts).run s next = if accepts c then next (s.skip 1) else none := by
  rw [run, hrest]

theorem run_char_nil {accepts : Char → Bool} {s : Cursor} (hrest : s.rest = [])
    (next : Cursor → Option β) : (char accepts).run s next = none := by
  rw [run, hrest]

theorem run_word {w : List Char} {s : Cursor} {rest : List Char} (hrest : s.rest = w ++ rest)
    (next : Cursor → Option β) : (word w).run s next = next (s.skip w.length) := by
  induction w generalizing s with
  | nil =>
      rfl
  | cons c w ih =>
      have hskip : (s.skip 1).rest = w ++ rest := by
        rw [Cursor.rest_skip, hrest]
        rfl
      rw [word, run, run_char_cons hrest, if_pos (beq_self_eq_true c), ih hskip,
        Cursor.skip_skip, Nat.add_comm, List.length_cons]

theorem run_word_eq_none {w : List Char} {s : Cursor} (hrest : ¬w <+: s.rest)
    (next : Cursor → Option β) : (word w).run s next = none := by
  induction w generalizing s with
  | nil =>
      exact absurd List.nil_prefix hrest
  | cons c w ih =>
      rw [word, run]
      cases hs : s.rest with
      | nil =>
          exact run_char_nil hs _
      | cons d rest =>
          rw [run_char_cons hs]
          by_cases hd : d = c
          · have hskip : ¬w <+: (s.skip 1).rest := by
              intro hw
              apply hrest
              rw [Cursor.rest_skip, hs, List.drop_one, List.tail_cons] at hw
              rw [hs, hd, List.cons_prefix_cons]
              exact ⟨rfl, hw⟩
            rw [if_pos (beq_iff_eq.mpr hd), ih hskip]
          · rw [if_neg (by simpa using hd)]

/-- What stands behind finds a match exactly where a word stands. -/
def Needs (w : List Char) (next : Cursor → Option β) : Prop :=
  forall s : Cursor, (next s).isSome = true <-> w <+: s.rest

theorem Needs.char {w : List Char} {next : Cursor → Option β} (h : Needs w next) (c : Char) :
    Needs (c :: w) fun s => (char (· == c)).run s next := by
  intro s
  show ((Pattern.char (· == c)).run s next).isSome = true <-> c :: w <+: s.rest
  cases hrest : s.rest with
  | nil =>
      rw [run_char_nil hrest]
      simp
  | cons d rest =>
      rw [run_char_cons hrest]
      by_cases hd : d = c
      · rw [if_pos (beq_iff_eq.mpr hd), h (s.skip 1), Cursor.rest_skip, hrest, List.drop_one,
          List.tail_cons, List.cons_prefix_cons, hd]
        simp
      · rw [if_neg (by simpa using hd), List.cons_prefix_cons]
        simp [Ne.symm hd]

/-!
# Repeated characters

A repetition of single characters stops at one of the places of the run that it may
take.  Which one depends on what stands behind it.
-/

theorem takeWhile_dropWhile (accepts : Char → Bool) (s : List Char) :
    (s.dropWhile accepts).takeWhile accepts = [] := by
  induction s with
  | nil =>
      rfl
  | cons c rest ih =>
      by_cases hc : accepts c = true
      · rw [List.dropWhile_cons_of_pos hc, ih]
      · rw [List.dropWhile_cons_of_neg hc, List.takeWhile_cons_of_neg hc]

theorem run_repeated_cons {greedy : Bool} {accepts : Char → Bool} {s : Cursor} {c : Char}
    {rest : List Char} (hrest : s.rest = c :: rest) (hc : accepts c = true)
    (next : Cursor → Option β) :
    (repeated greedy (char accepts)).run s next =
      if greedy then ((repeated greedy (char accepts)).run (s.skip 1) next).or (next s)
      else (next s).or ((repeated greedy (char accepts)).run (s.skip 1) next) := by
  have hshorter : (s.skip 1).rest.length < s.rest.length := by
    rw [Cursor.rest_skip, hrest]
    exact Nat.lt_succ_self rest.length
  rw [run, iterate, run_char_cons hrest, if_pos hc, dif_pos hshorter]
  rfl

theorem run_repeated_stop {greedy : Bool} {accepts : Char → Bool} {s : Cursor}
    (hstop : s.rest.takeWhile accepts = []) (next : Cursor → Option β) :
    (repeated greedy (char accepts)).run s next = next s := by
  have hnone : forall next' : Cursor → Option β, (char accepts).run s next' = none := by
    intro next'
    cases hrest : s.rest with
    | nil =>
        exact run_char_nil hrest next'
    | cons c rest =>
        have hc : ¬accepts c = true := by
          intro hc
          rw [hrest, List.takeWhile_cons_of_pos hc] at hstop
          cases hstop
        rw [run_char_cons hrest, if_neg hc]
  rw [run, iterate, hnone]
  cases greedy with
  | false =>
      exact Option.or_none
  | true =>
      rfl

theorem run_greedy_append {accepts : Char → Bool} {s : Cursor} {taken tail : List Char}
    (hrest : s.rest = taken ++ tail) (htaken : forall c, c ∈ taken -> accepts c = true)
    (next : Cursor → Option β) :
    (repeated true (char accepts)).run s next =
      ((repeated true (char accepts)).run (s.skip taken.length) next).or
        ((List.range taken.length).reverse.findSome? fun i => next (s.skip i)) := by
  induction taken generalizing s with
  | nil =>
      exact Option.or_none.symm
  | cons c taken ih =>
      have hskip : (s.skip 1).rest = taken ++ tail := by
        rw [Cursor.rest_skip, hrest]
        rfl
      have hrun := ih hskip fun d hd => htaken d (List.mem_cons_of_mem c hd)
      rw [run_repeated_cons hrest (htaken c List.mem_cons_self), if_pos rfl, hrun, Option.or_assoc,
        List.length_cons, List.range_succ_eq_map, List.reverse_cons, List.findSome?_append,
        ← List.map_reverse, List.findSome?_map]
      simp only [Cursor.skip_skip, Nat.add_comm 1, Function.comp_def, List.findSome?_singleton,
        Cursor.skip_zero]

theorem run_greedy {accepts : Char → Bool} {s : Cursor} {taken tail : List Char}
    (hrest : s.rest = taken ++ tail) (htaken : forall c, c ∈ taken -> accepts c = true)
    (htail : tail.takeWhile accepts = []) (next : Cursor → Option β) :
    (repeated true (char accepts)).run s next =
      (next (s.skip taken.length)).or
        ((List.range taken.length).reverse.findSome? fun i => next (s.skip i)) := by
  have hstop : (s.skip taken.length).rest.takeWhile accepts = [] := by
    rw [Cursor.rest_skip, hrest, List.drop_left, htail]
  rw [run_greedy_append hrest htaken, run_repeated_stop hstop]

/-- A greedy repetition takes all it may if no match goes on with a character that it
may take. -/
theorem run_greedy_of_rejects {accepts : Char → Bool} (s : Cursor) {next : Cursor → Option β}
    (hrejects : forall (t : Cursor) (c : Char) (rest : List Char),
      t.rest = c :: rest -> accepts c = true -> next t = none) :
    (repeated true (char accepts)).run s next =
      next (s.skip (s.rest.takeWhile accepts).length) := by
  have hsplit := (List.takeWhile_append_dropWhile (p := accepts) (l := s.rest)).symm
  have htaken := List.all_eq_true.mp (List.all_takeWhile (p := accepts) (l := s.rest))
  have hearlier : (List.range (s.rest.takeWhile accepts).length).reverse.findSome?
      (fun i => next (s.skip i)) = none := by
    rw [List.findSome?_eq_none_iff]
    intro i hi
    rw [List.mem_reverse, List.mem_range] at hi
    have hdrop : (s.skip i).rest = (s.rest.takeWhile accepts)[i] ::
        ((s.rest.takeWhile accepts).drop (i + 1) ++ s.rest.dropWhile accepts) := by
      rw [Cursor.rest_skip]
      conv => lhs; rw [hsplit]
      rw [List.drop_append_of_le_length (Nat.le_of_lt hi), List.drop_eq_getElem_cons hi,
        List.cons_append]
    exact hrejects _ _ _ hdrop (htaken _ (List.getElem_mem hi))
  rw [run_greedy hsplit htaken (takeWhile_dropWhile accepts s.rest), hearlier, Option.or_none]

/-!
# All matches

A pattern whose matches take something is looked for again where its last match stops.
-/

/-- Each match of the pattern starts where it is looked for and takes something. -/
def Advances (p : Pattern) : Prop :=
  forall (position : Nat) (rest : List Char) (m : Match), p.matchAt? position rest = some m ->
    m.start = position ∧ position < m.stop ∧ m.stop ≤ position + rest.length

variable {p : Pattern}

theorem Advances.matchAt?_nil (hp : p.Advances) (position : Nat) :
    p.matchAt? position [] = none := by
  cases hmatch : p.matchAt? position [] with
  | none =>
      rfl
  | some m =>
      rcases hp position [] m hmatch with ⟨_, hlt, hle⟩
      exact absurd hle (Nat.not_le_of_lt hlt)

theorem Advances.search?_bounds (hp : p.Advances) {position : Nat} {rest : List Char} {m : Match}
    (h : p.search? position rest = some m) :
    position ≤ m.start ∧ m.start < m.stop ∧ m.stop ≤ position + rest.length := by
  induction rest generalizing position with
  | nil =>
      rw [search?, hp.matchAt?_nil] at h
      cases h
  | cons c rest ih =>
      rw [search?] at h
      cases hmatch : p.matchAt? position (c :: rest) with
      | none =>
          rw [hmatch, Option.none_or] at h
          rcases ih h with ⟨hstart, hlt, hstop⟩
          rw [List.length_cons]
          exact ⟨by omega, hlt, by omega⟩
      | some other =>
          rw [hmatch, Option.some_or] at h
          injection h with hm
          rw [← hm]
          rcases hp position (c :: rest) other hmatch with ⟨hstart, hlt, hstop⟩
          exact ⟨Nat.le_of_eq hstart.symm, by omega, hstop⟩

theorem Advances.findAll_nil (hp : p.Advances) (position : Nat) : p.findAll position [] = [] := by
  rw [findAll, search?, hp.matchAt?_nil]

theorem Advances.findAll_of_search? (hp : p.Advances) {position : Nat} {rest : List Char}
    {m : Match} (h : p.search? position rest = some m) :
    p.findAll position rest = m :: p.findAll m.stop (rest.drop (m.stop - position)) := by
  have hbounds := hp.search?_bounds h
  have hshorter : (rest.drop (m.stop - position)).length < rest.length := by
    rw [List.length_drop]
    omega
  rw [findAll, h]
  simp only [dif_pos hshorter]

theorem Advances.findAll_of_some (hp : p.Advances) {position : Nat} {c : Char}
    {rest : List Char} {m : Match} (h : p.matchAt? position (c :: rest) = some m) :
    p.findAll position (c :: rest) =
      m :: p.findAll m.stop ((c :: rest).drop (m.stop - position)) := by
  apply hp.findAll_of_search?
  rw [search?, h, Option.some_or]

theorem Advances.findAll_of_none (hp : p.Advances) {position : Nat} {c : Char}
    {rest : List Char} (h : p.matchAt? position (c :: rest) = none) :
    p.findAll position (c :: rest) = p.findAll (position + 1) rest := by
  have hsearch : p.search? position (c :: rest) = p.search? (position + 1) rest := by
    rw [search?, h, Option.none_or]
  cases hnext : p.search? (position + 1) rest with
  | none =>
      rw [findAll, findAll, hsearch, hnext]
  | some m =>
      have hbounds := hp.search?_bounds hnext
      have hdrop : (c :: rest).drop (m.stop - position) =
          rest.drop (m.stop - (position + 1)) := by
        have hstop : m.stop - position = (m.stop - (position + 1)) + 1 := by omega
        rw [hstop, List.drop_succ_cons]
      rw [hp.findAll_of_search? (hsearch.trans hnext), hp.findAll_of_search? hnext, hdrop]

end Pattern
end Text
end Palette
