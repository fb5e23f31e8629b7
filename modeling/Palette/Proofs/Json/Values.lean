import Palette.Proofs.Json.Numbers

/-!
# Values that are read back

What is printed of a value is read as the value again, with the pairs of surrogates in its texts
joined and with the decimals in place of its numbers that are not whole.  Every printed value
begins with a character that is no space, and ends where what follows begins.
-/

namespace Palette
namespace Json

/-!
# Joined values
-/

mutual

/-- A value with the pairs of surrogates in its texts joined. -/
def joined : Json ν → Json ν
  | null => null
  | bool b => bool b
  | int i => int i
  | real x => real x
  | text p => text p.joined
  | array items => array (joinedItems items)
  | object members => object (joinedMembers members)

def joinedItems : List (Json ν) → List (Json ν)
  | [] => []
  | item :: rest => joined item :: joinedItems rest

def joinedMembers : List (String × Json ν) → List (String × Json ν)
  | [] => []
  | (key, value) :: rest => (key, joined value) :: joinedMembers rest

end

/-- A value of whose texts and of whose numbers that are not whole properties hold. -/
inductive Holds (isText : Phrase → Prop) (isReal : ν → Prop) : Json ν → Prop where
  | null : Holds isText isReal null
  | bool (b : Bool) : Holds isText isReal (bool b)
  | int (i : Int) : Holds isText isReal (int i)
  | real {x : ν} (h : isReal x) : Holds isText isReal (real x)
  | text {p : Phrase} (h : isText p) : Holds isText isReal (text p)
  | array {items : List (Json ν)} (h : forall item, item ∈ items -> Holds isText isReal item) :
      Holds isText isReal (array items)
  | object {members : List (String × Json ν)}
      (h : forall m, m ∈ members -> Holds isText isReal m.2) : Holds isText isReal (object members)

abbrev HasReals (isReal : ν → Prop) : Json ν → Prop :=
  Holds (fun _ => True) isReal

/-- A value whose texts have no pairs of surrogates. -/
abbrev IsUnpaired : Json ν → Prop :=
  Holds Phrase.IsUnpaired fun _ => True

/-!
# Space
-/

theorem skipSpace_cons {c : Char} (h : isSpace c = false) (s : List Char) :
    skipSpace (c :: s) = c :: s := by
  rw [skipSpace, List.dropWhile_cons, h]
  rfl

theorem skipSpace_newLine (depth : Nat) (s : List Char) :
    skipSpace (newLine depth ++ s) = skipSpace s := by
  have hblanks : forall n, skipSpace (List.replicate n ' ' ++ s) = skipSpace s := by
    intro n
    induction n with
    | zero =>
        rfl
    | succ n ih =>
        exact ih
  exact hblanks (2 * depth)

theorem value?_congr {s t : List Char} (h : skipSpace s = skipSpace t) (fuel : Nat) :
    value? fuel s = value? fuel t := by
  cases fuel with
  | zero =>
      rfl
  | succ fuel =>
      rw [value?, value?, h]

theorem items?_congr {s t : List Char} (h : skipSpace s = skipSpace t) (fuel : Nat) :
    items? fuel s = items? fuel t := by
  cases fuel with
  | zero =>
      rfl
  | succ fuel =>
      rw [items?, items?, value?_congr h]

theorem members?_congr {s t : List Char} (h : skipSpace s = skipSpace t) (fuel : Nat) :
    members? fuel s = members? fuel t := by
  cases fuel with
  | zero =>
      rfl
  | succ fuel =>
      rw [members?, members?, h]

/-!
# Numbers
-/

theorem isSpace_of_isDigit {c : Char} (h : c.isDigit = true) : isSpace c = false := by
  have hne : forall d : Char, d.isDigit = false -> (c == d) = false := fun _ hd =>
    beq_false_of_ne (ne_of_isDigit h hd)
  rw [isSpace, hne ' ' (by decide), hne '\n' (by decide), hne '\r' (by decide),
    hne '\t' (by decide)]
  rfl

theorem named?_of_isDigit {c : Char} (h : c.isDigit = true) (s : List Char) :
    named? (c :: s) = none := by
  rw [named?]
  · intro _ heq
    injection heq with hc _
    exact ne_of_isDigit h (by decide) hc
  · intro _ heq
    injection heq with hc _
    exact ne_of_isDigit h (by decide) hc
  · intro _ heq
    injection heq with hc _
    exact ne_of_isDigit h (by decide) hc

theorem value?_number {s rest : List Char} {value : Json Decimal}
    (h : number? s = some (value, rest)) (fuel : Nat) :
    value? (fuel + 1) s = some (value, rest) := by
  rcases head_of_number? h with ⟨c, more, rfl, hc | hc⟩
  · rw [hc] at h
    rw [hc]
    exact h
  · rw [number?_of_ne (ne_of_isDigit hc (by decide))] at h
    rw [value?, skipSpace_cons (isSpace_of_isDigit hc)]
    split
    case h_1 heq =>
      injection heq with heq _
      exact absurd heq (ne_of_isDigit hc (by decide))
    case h_2 heq =>
      injection heq with heq _
      exact absurd heq (ne_of_isDigit hc (by decide))
    case h_3 heq =>
      injection heq with heq _
      exact absurd heq (ne_of_isDigit hc (by decide))
    case h_4 heq =>
      injection heq with heq _
      exact absurd heq (ne_of_isDigit hc (by decide))
    case h_5 =>
      rw [named?_of_isDigit hc, h]
      rfl

/-!
# Beginnings of values
-/

/-- Whether a text begins with a character that is no space and closes no array. -/
def Begins (s : List Char) : Prop :=
  exists c more, s = c :: more ∧ isSpace c = false ∧ c ≠ ']'

theorem Begins.append {s : List Char} (h : Begins s) (rest : List Char) : Begins (s ++ rest) := by
  rcases h with ⟨c, more, rfl, hc⟩
  exact ⟨c, more ++ rest, rfl, hc⟩

theorem begins_of_number? {s rest : List Char} {value : Json Decimal}
    (h : number? s = some (value, rest)) : Begins s := by
  rcases head_of_number? h with ⟨c, more, rfl, hc | hc⟩
  · rw [hc]
    exact ⟨'-', more, rfl, by decide, by decide⟩
  · exact ⟨c, more, rfl, isSpace_of_isDigit hc, ne_of_isDigit hc (by decide)⟩

section Printed

variable {ν : Type} [Scalar ν] {isReal : ν → Prop} {decimalOf : ν → Decimal}

variable (hreal : forall x, isReal x -> IsNumeral x (decimalOf x))

include hreal

theorem begins_printAt {v : Json ν} (h : HasReals isReal v) (depth : Nat) :
    Begins (printAt depth v) := by
  cases h with
  | null =>
      exact ⟨'n', _, rfl, by decide, by decide⟩
  | bool b =>
      cases b with
      | true =>
          exact ⟨'t', _, rfl, by decide, by decide⟩
      | false =>
          exact ⟨'f', _, rfl, by decide, by decide⟩
  | int i =>
      exact begins_of_number? (number?_toString i)
  | real h =>
      exact begins_of_number? (hreal _ h)
  | text _ =>
      exact ⟨'"', _, rfl, by decide, by decide⟩
  | @array items _ =>
      cases items with
      | nil =>
          exact ⟨'[', _, rfl, by decide, by decide⟩
      | cons item rest =>
          exact ⟨'[', _, rfl, by decide, by decide⟩
  | @object members _ =>
      cases members with
      | nil =>
          exact ⟨'\x7b', _, rfl, by decide, by decide⟩
      | cons m rest =>
          exact ⟨'\x7b', _, rfl, by decide, by decide⟩

end Printed

/-- Whether a value is read back from wherever it is printed. -/
def ReadsBack [Scalar ν] (decimalOf : ν → Decimal) (v : Json ν) : Prop :=
  forall depth fuel rest, (printAt depth v).length ≤ fuel -> NumberEnds rest ->
    value? fuel (printAt depth v ++ rest) = some (v.joined.mapReal decimalOf, rest)

theorem numberEnds_newLine (depth : Nat) (s : List Char) : NumberEnds (newLine depth ++ s) :=
  numberEnds_cons (by decide) _

section Parts

variable {ν : Type} [Scalar ν] {decimalOf : ν → Decimal}

theorem items?_last {fuel outer : Nat} {s after : List Char} {item : Json Decimal}
    (h : value? fuel s = some (item, newLine outer ++ ']' :: after)) :
    items? (fuel + 1) s = some ([item], after) := by
  rw [items?, h]
  dsimp only
  rw [skipSpace_newLine]
  rfl

theorem items?_more {fuel : Nat} {s rest after : List Char} {item : Json Decimal}
    {items : List (Json Decimal)} (h : value? fuel s = some (item, ',' :: rest))
    (hrest : items? fuel rest = some (items, after)) :
    items? (fuel + 1) s = some (item :: items, after) := by
  rw [items?, h]
  show (items? fuel rest).map _ = _
  rw [hrest]
  rfl

theorem printItems_append (depth : Nat) (item : Json ν) (rest : List (Json ν)) (s : List Char) :
    printItems depth (item :: rest) ++ s =
      ',' :: (newLine depth ++ (printAt depth item ++ printItems depth rest ++ s)) := by
  rw [printItems]
  simp only [List.append_assoc, List.cons_append]

theorem readsBack_items {item : Json ν} {rest : List (Json ν)}
    (h : forall v, v ∈ item :: rest -> ReadsBack decimalOf v) {depth outer fuel : Nat}
    (hfuel : (printAt depth item ++ printItems depth rest).length < fuel) (after : List Char) :
    items? fuel (printAt depth item ++ printItems depth rest ++ (newLine outer ++ ']' :: after)) =
      some (mapItems decimalOf (joinedItems (item :: rest)), after) := by
  induction rest generalizing item fuel with
  | nil =>
      cases fuel with
      | zero =>
          cases hfuel
      | succ fuel =>
      rw [printItems, List.append_nil] at hfuel
      rw [printItems, List.append_nil]
      exact items?_last (h item List.mem_cons_self depth fuel _ (Nat.le_of_lt_succ hfuel)
        (numberEnds_newLine outer _))
  | cons next rest ih =>
      cases fuel with
      | zero =>
          cases hfuel
      | succ fuel =>
      have hlength := congrArg List.length (printItems_append depth next rest [])
      simp only [List.length_append, List.length_cons, List.append_nil] at hfuel hlength
      have hitem := h item List.mem_cons_self depth fuel
        (printItems depth (next :: rest) ++ (newLine outer ++ ']' :: after)) (by omega)
      rw [List.append_assoc, printItems_append]
      rw [printItems_append] at hitem
      refine items?_more (hitem (numberEnds_cons (by decide) _)) ?_
      rw [items?_congr (skipSpace_newLine depth _)]
      refine ih (fun v hv => h v (List.mem_cons_of_mem item hv)) ?_
      rw [List.length_append]
      omega

def printMember (depth : Nat) (m : String × Json ν) : List Char :=
  printText (.ofText m.1) ++ ':' :: ' ' :: printAt depth m.2

theorem printMembers_append (depth : Nat) (m : String × Json ν) (rest : List (String × Json ν))
    (s : List Char) :
    printMembers depth (m :: rest) ++ s =
      ',' :: (newLine depth ++ (printMember depth m ++ printMembers depth rest ++ s)) := by
  rcases m with ⟨key, value⟩
  rw [printMembers, printMember]
  simp only [List.append_assoc, List.cons_append, List.nil_append]

def ReadsMember (fuel : Nat) (s : List Char) (m : String × Json Decimal)
    (rest : List Char) : Prop :=
  exists inside behind after, skipSpace s = '"' :: inside ∧
    string? inside = some (Phrase.ofText m.1, behind) ∧ skipSpace behind = ':' :: after ∧
      value? fuel after = some (m.2, rest)

theorem members?_last {fuel outer : Nat} {s after : List Char} {m : String × Json Decimal}
    (h : ReadsMember fuel s m (newLine outer ++ '\x7d' :: after)) :
    members? (fuel + 1) s = some ([m], after) := by
  rcases h with ⟨inside, behind, more, hskip, hkey, hcolon, hvalue⟩
  have hclose : skipSpace (newLine outer ++ '\x7d' :: after) = '\x7d' :: after :=
    skipSpace_newLine outer _
  simp only [members?, hskip, hkey, hcolon, hvalue, hclose, Phrase.shown_ofText]

theorem members?_more {fuel : Nat} {s rest after : List Char} {m : String × Json Decimal}
    {members : List (String × Json Decimal)} (h : ReadsMember fuel s m (',' :: rest))
    (hrest : members? fuel rest = some (members, after)) :
    members? (fuel + 1) s = some (m :: members, after) := by
  rcases h with ⟨inside, behind, more, hskip, hkey, hcolon, hvalue⟩
  have hcomma : skipSpace (',' :: rest) = ',' :: rest := skipSpace_cons (by decide) rest
  simp only [members?, hskip, hkey, hcolon, hvalue, hcomma, hrest, Phrase.shown_ofText,
    Option.map_some]

theorem readsMember_printMember {m : String × Json ν} (h : ReadsBack decimalOf m.2)
    {depth fuel : Nat} (hfuel : (printMember depth m).length ≤ fuel) {rest : List Char}
    (hrest : NumberEnds rest) :
    ReadsMember fuel (printMember depth m ++ rest) (m.1, m.2.joined.mapReal decimalOf) rest := by
  have hlength : (printAt depth m.2).length ≤ fuel := by
    rw [printMember, List.length_append, List.length_cons, List.length_cons] at hfuel
    omega
  have hkey := string?_printText (.ofText m.1)
    (':' :: ' ' :: (printAt depth m.2 ++ rest))
  rw [Phrase.joined_ofText] at hkey
  have hblank : skipSpace (' ' :: (printAt depth m.2 ++ rest)) =
      skipSpace (printAt depth m.2 ++ rest) := rfl
  have hvalue := h depth fuel rest hlength hrest
  rw [← value?_congr hblank] at hvalue
  refine ⟨_, _, _, ?_, hkey, skipSpace_cons (by decide) _, hvalue⟩
  rw [printMember, List.append_assoc, printText_append]
  rfl

theorem readsBack_members {m : String × Json ν} {rest : List (String × Json ν)}
    (h : forall m', m' ∈ m :: rest -> ReadsBack decimalOf m'.2) {depth outer fuel : Nat}
    (hfuel : (printMember depth m ++ printMembers depth rest).length < fuel)
    (after : List Char) :
    members? fuel
      (printMember depth m ++ printMembers depth rest ++ (newLine outer ++ '\x7d' :: after)) =
      some (mapMembers decimalOf (joinedMembers (m :: rest)), after) := by
  induction rest generalizing m fuel with
  | nil =>
      cases fuel with
      | zero =>
          cases hfuel
      | succ fuel =>
      rw [printMembers, List.append_nil] at hfuel
      rw [printMembers, List.append_nil]
      exact members?_last (readsMember_printMember (h m List.mem_cons_self)
        (Nat.le_of_lt_succ hfuel) (numberEnds_newLine outer _))
  | cons next rest ih =>
      cases fuel with
      | zero =>
          cases hfuel
      | succ fuel =>
      have hlength := congrArg List.length (printMembers_append depth next rest [])
      simp only [List.length_append, List.length_cons, List.append_nil] at hfuel hlength
      rw [List.append_assoc, printMembers_append]
      refine members?_more (readsMember_printMember (h m List.mem_cons_self) (by omega)
        (numberEnds_cons (by decide) _)) ?_
      rw [members?_congr (skipSpace_newLine depth _)]
      refine ih (fun m' hm' => h m' (List.mem_cons_of_mem m hm')) ?_
      rw [List.length_append]
      omega

end Parts

/-!
# Whole values
-/

theorem value?_bracket (fuel : Nat) (s : List Char) :
    value? (fuel + 1) ('[' :: s) =
      match skipSpace s with
      | ']' :: rest => some (.array [], rest)
      | rest => (items? fuel rest).map fun (items, rest) => (.array items, rest) :=
  rfl

theorem value?_brace (fuel : Nat) (s : List Char) :
    value? (fuel + 1) ('\x7b' :: s) =
      match skipSpace s with
      | '\x7d' :: rest => some (.object [], rest)
      | rest => (members? fuel rest).map fun (members, rest) => (.object members, rest) :=
  rfl

theorem value?_array {fuel depth : Nat} {s after : List Char} {items : List (Json Decimal)}
    (hs : Begins s) (h : items? fuel s = some (items, after)) :
    value? (fuel + 1) ('[' :: (newLine depth ++ s)) = some (.array items, after) := by
  rcases hs with ⟨c, more, rfl, hspace, hclose⟩
  rw [value?_bracket, skipSpace_newLine, skipSpace_cons hspace]
  split
  case h_1 heq =>
    injection heq with hc _
    exact absurd hc hclose
  case h_2 =>
    rw [h]
    rfl

theorem value?_object {fuel depth : Nat} {s rest after : List Char}
    {members : List (String × Json Decimal)} (hs : skipSpace s = '"' :: rest)
    (h : members? fuel s = some (members, after)) :
    value? (fuel + 1) ('\x7b' :: (newLine depth ++ s)) = some (.object members, after) := by
  have hskip : skipSpace ('"' :: rest) = '"' :: rest := skipSpace_cons (by decide) rest
  rw [members?_congr (hs.trans hskip.symm)] at h
  rw [value?_brace, skipSpace_newLine, hs]
  show (members? fuel ('"' :: rest)).map _ = _
  rw [h]
  rfl

section Printed

variable {ν : Type} [Scalar ν] {isReal : ν → Prop} {decimalOf : ν → Decimal}

theorem printAt_array_append (depth : Nat) (item : Json ν) (rest : List (Json ν))
    (s : List Char) :
    printAt depth (.array (item :: rest)) ++ s =
      '[' :: (newLine (depth + 1) ++ (printAt (depth + 1) item ++ printItems (depth + 1) rest ++
        (newLine depth ++ ']' :: s))) := by
  rw [printAt]
  simp only [List.append_assoc, List.cons_append, List.nil_append]

theorem printAt_object_append (depth : Nat) (m : String × Json ν) (rest : List (String × Json ν))
    (s : List Char) :
    printAt depth (.object (m :: rest)) ++ s =
      '\x7b' :: (newLine (depth + 1) ++ (printMember (depth + 1) m ++
        printMembers (depth + 1) rest ++ (newLine depth ++ '\x7d' :: s))) := by
  rcases m with ⟨key, value⟩
  rw [printAt, printMember]
  simp only [List.append_assoc, List.cons_append, List.nil_append]

theorem exists_skipSpace_printMember (depth : Nat) (m : String × Json ν) (s : List Char) :
    exists rest, skipSpace (printMember depth m ++ s) = '"' :: rest := by
  rw [printMember, List.append_assoc, printText_append]
  exact ⟨_, skipSpace_cons (by decide) _⟩

variable (hreal : forall x, isReal x -> IsNumeral x (decimalOf x))

include hreal

theorem length_printAt_pos {v : Json ν} (h : HasReals isReal v) (depth : Nat) :
    0 < (printAt depth v).length := by
  rcases begins_printAt hreal h depth with ⟨c, more, heq, _⟩
  rw [heq]
  exact Nat.succ_pos _

theorem readsBack_of_succ {v : Json ν} (hv : HasReals isReal v)
    (h : forall depth fuel rest, (printAt depth v).length ≤ fuel + 1 -> NumberEnds rest ->
      value? (fuel + 1) (printAt depth v ++ rest) = some (v.joined.mapReal decimalOf, rest)) :
    ReadsBack decimalOf v := by
  intro depth fuel rest hfuel hrest
  cases fuel with
  | zero =>
      exact absurd hfuel (Nat.not_le_of_lt (length_printAt_pos hreal hv depth))
  | succ fuel =>
      exact h depth fuel rest hfuel hrest

theorem readsBack_of_holds {v : Json ν} (h : HasReals isReal v) :
    ReadsBack decimalOf v := by
  -- A text is longer than the texts of its parts, so its length is fuel enough for each of them.
  induction h with
  | null =>
      exact readsBack_of_succ hreal .null fun _ _ _ _ _ => rfl
  | bool b =>
      refine readsBack_of_succ hreal (.bool b) fun _ _ _ _ _ => ?_
      cases b with
      | true =>
          rfl
      | false =>
          rfl
  | int i =>
      refine readsBack_of_succ hreal (.int i) fun depth fuel rest _ hrest => ?_
      exact value?_number (number?_append hrest (number?_toString i)) fuel
  | @real x h =>
      refine readsBack_of_succ hreal (.real h) fun depth fuel rest _ hrest => ?_
      exact value?_number (number?_append hrest (hreal x h)) fuel
  | @text p h =>
      refine readsBack_of_succ hreal (.text h) fun depth fuel rest _ _ => ?_
      rw [printAt, printText_append]
      show (string? (p.flatMap escapePoint ++ '"' :: rest)).map _ = _
      rw [string?_printText p]
      rfl
  | @array items h ih =>
      refine readsBack_of_succ hreal (.array h) fun depth fuel rest hfuel _ => ?_
      cases items with
      | nil =>
          rfl
      | cons item more =>
          have hlength := congrArg List.length (printAt_array_append depth item more [])
          simp only [List.length_append, List.length_cons, List.append_nil] at hlength
          rw [printAt_array_append]
          refine value?_array ?_ (readsBack_items ih ?_ rest)
          · exact ((begins_printAt hreal (h item List.mem_cons_self) (depth + 1)).append _).append _
          · rw [List.length_append]
            omega
  | @object members h ih =>
      refine readsBack_of_succ hreal (.object h) fun depth fuel rest hfuel _ => ?_
      cases members with
      | nil =>
          rfl
      | cons m more =>
          have hlength := congrArg List.length (printAt_object_append depth m more [])
          simp only [List.length_append, List.length_cons, List.append_nil] at hlength
          rw [printAt_object_append]
          rcases exists_skipSpace_printMember (depth + 1) m
            (printMembers (depth + 1) more ++ (newLine depth ++ '\x7d' :: rest)) with ⟨inside, hs⟩
          rw [← List.append_assoc] at hs
          refine value?_object hs (readsBack_members ih ?_ rest)
          rw [List.length_append]
          omega

theorem parse?_print {v : Json ν} (h : HasReals isReal v) :
    parse? v.print.toList = some (v.joined.mapReal decimalOf) := by
  have hread := readsBack_of_holds hreal h 0 (2 * (printAt 0 v).length + 2) [] (by omega)
    numberEnds_nil
  rw [List.append_nil] at hread
  rw [Json.print, String.toList_ofList, parse?, hread]
  rfl

end Printed

/-!
# Characters of a value
-/

theorem isAscii_newLine (depth : Nat) : IsAscii (newLine depth) := by
  refine isAscii_cons.mpr ⟨by decide, ?_⟩
  intro c hc
  rw [List.eq_of_mem_replicate hc]
  decide

section Ascii

variable {ν : Type} [Scalar ν] {isReal : ν → Prop} {decimalOf : ν → Decimal}

theorem isAscii_printItems {depth : Nat} {items : List (Json ν)}
    (h : forall v, v ∈ items -> IsAscii (printAt depth v)) : IsAscii (printItems depth items) := by
  induction items with
  | nil =>
      exact isAscii_nil
  | cons item rest ih =>
      have hrest := ih fun v hv => h v (List.mem_cons_of_mem item hv)
      rw [← List.append_nil (printItems depth (item :: rest)), printItems_append, List.append_nil]
      exact isAscii_cons.mpr ⟨by decide, isAscii_append.mpr ⟨isAscii_newLine depth,
        isAscii_append.mpr ⟨h item List.mem_cons_self, hrest⟩⟩⟩

theorem isAscii_printMember {depth : Nat} {m : String × Json ν}
    (h : IsAscii (printAt depth m.2)) : IsAscii (printMember depth m) :=
  isAscii_append.mpr ⟨isAscii_printText _,
    isAscii_cons.mpr ⟨by decide, isAscii_cons.mpr ⟨by decide, h⟩⟩⟩

theorem isAscii_printMembers {depth : Nat} {members : List (String × Json ν)}
    (h : forall m, m ∈ members -> IsAscii (printAt depth m.2)) :
    IsAscii (printMembers depth members) := by
  induction members with
  | nil =>
      exact isAscii_nil
  | cons m rest ih =>
      have hrest := ih fun m' hm => h m' (List.mem_cons_of_mem m hm)
      rw [← List.append_nil (printMembers depth (m :: rest)), printMembers_append,
        List.append_nil]
      exact isAscii_cons.mpr ⟨by decide, isAscii_append.mpr ⟨isAscii_newLine depth,
        isAscii_append.mpr ⟨isAscii_printMember (h m List.mem_cons_self), hrest⟩⟩⟩

theorem isAscii_printAt (hreal : forall x, isReal x -> IsNumeral x (decimalOf x)) {v : Json ν}
    (h : HasReals isReal v) (depth : Nat) : IsAscii (printAt depth v) := by
  induction h generalizing depth with
  | null =>
      rw [printAt]
      decide
  | bool b =>
      cases b with
      | true =>
          rw [printAt]
          decide
      | false =>
          rw [printAt]
          decide
  | int i =>
      exact isAscii_of_number? (number?_toString i)
  | @real x h =>
      exact isAscii_of_number? (hreal x h)
  | @text p h =>
      exact isAscii_printText p
  | @array items h ih =>
      cases items with
      | nil =>
          rw [printAt]
          decide
      | cons item rest =>
          have hitems : IsAscii (printItems (depth + 1) rest) :=
            isAscii_printItems fun v hv => ih v (List.mem_cons_of_mem item hv) (depth + 1)
          rw [← List.append_nil (printAt depth _), printAt_array_append]
          exact isAscii_cons.mpr ⟨by decide, isAscii_append.mpr ⟨isAscii_newLine (depth + 1),
            isAscii_append.mpr ⟨isAscii_append.mpr ⟨ih item List.mem_cons_self (depth + 1), hitems⟩,
              isAscii_append.mpr ⟨isAscii_newLine depth, by decide⟩⟩⟩⟩
  | @object members h ih =>
      cases members with
      | nil =>
          rw [printAt]
          decide
      | cons m rest =>
          have hmember := isAscii_printMember (ih m List.mem_cons_self (depth + 1))
          have hmembers : IsAscii (printMembers (depth + 1) rest) :=
            isAscii_printMembers fun m' hm => ih m' (List.mem_cons_of_mem m hm) (depth + 1)
          rw [← List.append_nil (printAt depth _), printAt_object_append]
          exact isAscii_cons.mpr ⟨by decide, isAscii_append.mpr ⟨isAscii_newLine (depth + 1),
            isAscii_append.mpr ⟨isAscii_append.mpr ⟨hmember, hmembers⟩,
              isAscii_append.mpr ⟨isAscii_newLine depth, by decide⟩⟩⟩⟩

end Ascii

end Json
end Palette
