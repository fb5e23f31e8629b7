import Palette.Proofs.Text.HexDigits
import Palette.Proofs.Text.Surrogates
import Palette.Proofs.Yaml.Chars

/-!
# Reading double quotes back

In double quotes a character stands for itself or is escaped, and lines are broken
only behind a backslash, so that the reader drops the breaks again.  Whatever its
characters are, a text is read back as it was.
-/

namespace Palette
namespace Yaml
namespace Quoted

/-!
# Single characters
-/

theorem double_blank (pending : Pending) {c : Char} (rest : List Char) (h : isBlank c = true) :
    double (.text pending) (c :: rest) = double (.text (pending.addBlank c)) rest := by
  have hquote : c ≠ '"' := by
    intro hc
    rw [hc] at h
    cases h
  have hslash : c ≠ '\\' := by
    intro hc
    rw [hc] at h
    cases h
  rw [double]
  simp only [hquote, hslash, h, if_true, if_false]

theorem double_ordinary (pending : Pending) {c : Char} (rest : List Char)
    (hquote : c ≠ '"') (hslash : c ≠ '\\') (hblank : isBlank c = false)
    (hbreak : isBreak c = false) :
    double (.text pending) (c :: rest) =
      prepend (Phrase.ofChars (pending.text ++ [c])) (double (.text .nothing) rest) := by
  rw [double]
  simp only [hquote, hslash, hblank, hbreak, if_false, Bool.false_eq_true]

theorem double_close (pending : Pending) (rest : List Char) :
    double (.text pending) ('"' :: rest) = .ok (Phrase.ofChars pending.text, rest) := by
  rw [double]
  rfl

theorem double_backslash (pending : Pending) (rest : List Char) :
    double (.text pending) ('\\' :: rest) =
      prepend (Phrase.ofChars pending.text) (double .escape rest) := by
  rw [double]
  rfl

theorem double_continuation (rest : List Char) :
    double .escape (continuation ++ rest) = double (.text (.joined [])) rest := by
  show double .escape ('\n' :: ' ' :: ' ' :: rest) = _
  rw [double]
  show double (.text (.joined [])) (' ' :: ' ' :: rest) = _
  rw [double_blank _ _ rfl]
  exact double_blank (.joined []) rest rfl

/-!
# Escapes
-/

theorem simpleEscape?_of_escapeLetter? {c letter : Char} (h : escapeLetter? c = some letter) :
    simpleEscape? letter = some c := by
  have hc := Char.ofNat_toNat c
  unfold escapeLetter? at h
  split at h
  case h_15 =>
    cases h
  all_goals
    rename_i hcode
    injection h with hletter
    rw [← hletter, ← hc, hcode]
    rfl

theorem double_letter {c letter : Char} (h : escapeLetter? c = some letter) (rest : List Char) :
    double .escape (letter :: rest) = prepend [.char c] (double (.text .nothing) rest) := by
  rw [double]
  simp only [simpleEscape?_of_escapeLetter? h]

theorem double_digits {more : List Char} (digits rest : List Char) (hne : more ≠ [])
    (h : forall c, c ∈ more -> Text.isHexDigit c = true) {point : CodePoint}
    (hpoint : pointOfCode (Text.hexNumber (digits ++ more)) = .ok point) :
    double (.code more.length digits) (more ++ rest) =
      prepend [point] (double (.text .nothing) rest) := by
  induction more generalizing digits with
  | nil =>
      exact absurd rfl hne
  | cons c more ih =>
      have hc : (!Text.isHexDigit c) = false := by
        rw [h c List.mem_cons_self]
        rfl
      rw [List.cons_append, double, hc, if_neg Bool.false_ne_true, List.length_cons]
      cases more with
      | nil =>
          have hlength : ([] : List Char).length + 1 ≤ 1 := Nat.le_refl 1
          rw [if_pos hlength, hpoint]
          rfl
      | cons d tail =>
          have hlength : ¬(d :: tail).length + 1 ≤ 1 := by
            rw [List.length_cons]
            omega
          rw [if_neg hlength, Nat.add_sub_cancel]
          refine ih (digits ++ [c]) (List.cons_ne_nil d tail) ?_ ?_
          · intro e he
            exact h e (List.mem_cons_of_mem c he)
          · rw [List.append_assoc]
            exact hpoint

theorem pointOfCode_toNat (c : Char) : pointOfCode c.toNat = .ok (.char c) := by
  have hrange : c.toNat < 0xD800 ∨ (0xDFFF < c.toNat ∧ c.toNat < 0x110000) := c.valid
  have hlarge : ¬0x80000000 ≤ c.toNat := by omega
  have hout : ¬0x110000 ≤ c.toNat := by omega
  rw [pointOfCode, if_neg hlarge, if_neg hout, CodePoint.ofNat_toNat]

theorem double_code {letter : Char} {width : Nat} {c : Char} (hsimple : simpleEscape? letter = none)
    (hlength : codeLength? letter = some width) (hpos : 0 < width) (hc : c.toNat < 16 ^ width)
    (rest : List Char) :
    double .escape (letter :: Text.hexDigits Text.upperHexDigit width c.toNat ++ rest) =
      prepend [.char c] (double (.text .nothing) rest) := by
  have hdigits : (Text.hexDigits Text.upperHexDigit width c.toNat).length = width :=
    Text.length_hexDigits Text.upperHexDigit width c.toNat
  have hne : Text.hexDigits Text.upperHexDigit width c.toNat ≠ [] := by
    apply List.ne_nil_of_length_pos
    rw [hdigits]
    exact hpos
  have hpoint :
      pointOfCode (Text.hexNumber ([] ++ Text.hexDigits Text.upperHexDigit width c.toNat)) =
        .ok (.char c) := by
    rw [List.nil_append, Text.hexNumber_hexDigits Text.hexValue?_upperHexDigit,
      Nat.mod_eq_of_lt hc, pointOfCode_toNat]
  have hhex : forall d, d ∈ Text.hexDigits Text.upperHexDigit width c.toNat ->
      Text.isHexDigit d = true :=
    fun d hd => Text.isHexDigit_of_mem_hexDigits Text.hexValue?_upperHexDigit hd
  have hread := double_digits [] rest hne hhex hpoint
  rw [hdigits] at hread
  rw [List.cons_append, double]
  simp only [hsimple, hlength]
  exact hread

theorem double_escapeCode (c : Char) (pending : Pending) (rest : List Char) :
    double (.text pending) (escapeCode c.toNat ++ rest) =
      prepend (Phrase.ofChars pending.text)
        (prepend [.char c] (double (.text .nothing) rest)) := by
  have hrange : c.toNat < 0xD800 ∨ (0xDFFF < c.toNat ∧ c.toNat < 0x110000) := c.valid
  rw [escapeCode]
  by_cases htwo : c.toNat < 0x100
  · rw [if_pos htwo, List.cons_append, double_backslash,
      double_code rfl rfl (by decide) (by omega) rest]
  · by_cases hfour : c.toNat < 0x10000
    · rw [if_neg htwo, if_pos hfour, List.cons_append, double_backslash,
        double_code rfl rfl (by decide) (by omega) rest]
    · rw [if_neg htwo, if_neg hfour, List.cons_append, double_backslash,
        double_code rfl rfl (by decide) (by omega) rest]

theorem double_escape (c : Char) (pending : Pending) (rest : List Char) :
    double (.text pending) (escape (.char c) ++ rest) =
      prepend (Phrase.ofChars pending.text)
        (prepend [.char c] (double (.text .nothing) rest)) := by
  rw [escape]
  cases hletter : escapeLetter? c with
  | none =>
      exact double_escapeCode c pending rest
  | some letter =>
      show double (.text pending) ('\\' :: letter :: rest) = _
      rw [double_backslash, double_letter hletter]

end Quoted

/-!
# What is written for one character
-/

theorem doubleFrom_nil (column run : Nat) (first : Bool) : doubleFrom column run first [] = [] := by
  rw [doubleFrom.eq_def]

theorem doubleFrom_literal (column run : Nat) (first : Bool) {c : Char} (rest : Phrase)
    (h : isLiteral c = true) :
    (exists run', doubleFrom column run first (.char c :: rest) =
      c :: doubleFrom column run' false rest) ∨
    exists column', doubleFrom column run first (.char c :: rest) =
      (escapedBreak (.char c :: rest)).1 ++ c :: doubleFrom column' 1 false rest := by
  have hfilter : (CodePoint.char c).char?.filter isLiteral = some c := by
    simp [CodePoint.char?, h]
  rw [doubleFrom.eq_def]
  simp only [hfilter]
  split
  · exact Or.inr ⟨_, rfl⟩
  · exact Or.inl ⟨_, rfl⟩

theorem doubleFrom_escape (column run : Nat) (first : Bool) {c : Char} (rest : Phrase)
    (h : isLiteral c = false) :
    (exists column', doubleFrom column run first (.char c :: rest) =
      escape (.char c) ++ doubleFrom column' 0 false rest) ∨
    (rest ≠ [] ∧ doubleFrom column run first (.char c :: rest) =
      escape (.char c) ++ ((escapedBreak rest).1 ++
        doubleFrom (escapedBreak rest).2 0 false rest)) := by
  have hfilter : (CodePoint.char c).char?.filter isLiteral = none := by
    simp [CodePoint.char?, h]
  rw [doubleFrom.eq_def]
  simp only [hfilter]
  split
  case isTrue hbreak =>
    refine Or.inr ⟨?_, ?_⟩
    · intro hnil
      rw [hnil] at hbreak
      simp at hbreak
    · rw [List.append_assoc]
  case isFalse =>
    exact Or.inl ⟨_, rfl⟩

/-!
# Whole values

Behind an escaped break the reader waits for a character that is no blank, which is
why a space at the start of a line is escaped.
-/

namespace Quoted

theorem prepend_ok_point (front p : Phrase) (rest : List Char) :
    prepend front (.ok (p, rest)) = .ok (front ++ p, rest) :=
  rfl

/-- A pending text that takes what comes next as it stands. -/
def Pending.Takes (s : List Char) : Pending → Prop
  | blanks _ => True
  | folded _ _ => False
  | joined reversed => reversed = [] ∧ s.head? ≠ some ' '

theorem isLiteral_ne {c : Char} (h : isLiteral c = true) :
    c ≠ '"' ∧ c ≠ '\\' ∧ isBreak c = false ∧ c ≠ '\t' := by
  refine ⟨?_, ?_, ?_, ?_⟩
  · intro hc
    rw [hc] at h
    cases h
  · intro hc
    rw [hc] at h
    cases h
  · have hfeed : c ≠ '\n' := by
      intro hc
      rw [hc] at h
      cases h
    simp only [isLiteral, Bool.and_eq_true, bne_iff_ne, ne_eq] at h
    simp only [isBreak, Bool.or_eq_false_iff, beq_eq_false_iff_ne, ne_eq]
    exact ⟨⟨hfeed, h.left.left.left.right⟩, h.left.left.right⟩
  · intro hc
    rw [hc] at h
    cases h

theorem double_literal {s : List Char} {c : Char} {pending : Pending} {written tail : List Char}
    (h : isLiteral c = true) (htakes : pending.Takes (c :: s))
    (hread : forall next : Pending, next.Takes s ->
      double (.text next) written = .ok (Phrase.ofChars (next.text ++ s), tail)) :
    double (.text pending) (c :: written) =
      .ok (Phrase.ofChars (pending.text ++ c :: s), tail) := by
  rcases isLiteral_ne h with ⟨hquote, hslash, hbreak, htab⟩
  by_cases hspace : c = ' '
  · rw [hspace] at htakes ⊢
    rw [double_blank pending written rfl]
    cases pending with
    | blanks reversed =>
        rw [Pending.addBlank, hread (.blanks (' ' :: reversed)) trivial]
        simp [Pending.text]
    | folded first reversed =>
        exact htakes.elim
    | joined reversed =>
        exact absurd rfl htakes.right
  · have hblank : isBlank c = false := by
      simp [isBlank, hspace, htab]
    rw [double_ordinary pending written hquote hslash hblank hbreak,
      hread .nothing trivial, prepend_ok_point]
    simp [Phrase.ofChars, Pending.text, Pending.nothing]

theorem double_escapedBreak {s : List Char} {pending : Pending} {written tail : List Char}
    (hspace : s.head? = some ' ' -> exists more, written = ' ' :: more ∧
      double (.text .nothing) more = .ok (Phrase.ofChars (s.drop 1), tail))
    (hother : s.head? ≠ some ' ' ->
      double (.text (.joined [])) written = .ok (Phrase.ofChars s, tail)) :
    double (.text pending) ((escapedBreak (Phrase.ofChars s)).1 ++ written) =
      .ok (Phrase.ofChars (pending.text ++ s), tail) := by
  have hhead : (Phrase.ofChars s).head? = some (.char ' ') <-> s.head? = some ' ' := by
    cases s with
    | nil =>
        simp [Phrase.ofChars]
    | cons c rest =>
        simp [Phrase.ofChars]
  have hjoin : Phrase.ofChars (pending.text ++ s) =
      Phrase.ofChars pending.text ++ Phrase.ofChars s :=
    List.map_append
  by_cases hs : s.head? = some ' '
  · rcases hspace hs with ⟨more, hwritten, hread⟩
    have hcons : Phrase.ofChars s = .char ' ' :: Phrase.ofChars (s.drop 1) := by
      cases s with
      | nil =>
          cases hs
      | cons c rest =>
          injection hs with hc
          rw [hc]
          rfl
    rw [escapedBreak, if_pos (hhead.mpr hs), hwritten]
    show double (.text pending) ('\\' :: (continuation ++ '\\' :: ' ' :: more)) = _
    rw [double_backslash, double_continuation, double_backslash, double]
    show prepend _ (prepend _ (prepend [.char ' '] (double (.text .nothing) more))) = _
    rw [hread, hjoin, hcons]
    rfl
  · rw [escapedBreak, if_neg (fun h => hs (hhead.mp h)), List.cons_append, double_backslash,
      double_continuation, hother hs, prepend_ok_point, hjoin]

end Quoted

theorem doubleFrom_space (rest : Phrase) :
    doubleFrom (escapedBreak (.char ' ' :: rest)).2 0 false (.char ' ' :: rest) =
      ' ' :: doubleFrom (escapedBreak (.char ' ' :: rest)).2 1 false rest := by
  have hcolumn : (escapedBreak (.char ' ' :: rest)).2 = continuationColumn + 1 := rfl
  have hnarrow : ¬width < continuationColumn + 1 + 0 := by decide
  have hfilter : (CodePoint.char ' ').char?.filter isLiteral = some ' ' := rfl
  rw [doubleFrom.eq_def, hcolumn]
  simp [hfilter, hnarrow]

/-- The induction is on the length, since an escaped break may take two characters. -/
theorem double_doubleFrom (s tail : List Char) (column run : Nat) (first : Bool)
    (pending : Quoted.Pending) (htakes : pending.Takes s) :
    Quoted.double (.text pending) (doubleFrom column run first (Phrase.ofChars s) ++ '"' :: tail) =
      .ok (Phrase.ofChars (pending.text ++ s), tail) := by
  induction hn : s.length using Nat.strongRecOn generalizing s column run first pending with
  | ind n ih =>
      cases s with
      | nil =>
          show Quoted.double (.text pending) (doubleFrom column run first [] ++ '"' :: tail) = _
          rw [doubleFrom_nil, List.nil_append, Quoted.double_close, List.append_nil]
      | cons c rest =>
          have hlt : rest.length < n := by
            rw [← hn]
            exact Nat.lt_succ_self rest.length
          have hrest := fun column run first pending htakes =>
            ih rest.length hlt rest column run first pending htakes rfl
          show Quoted.double (.text pending)
            (doubleFrom column run first (.char c :: Phrase.ofChars rest) ++ '"' :: tail) = _
          by_cases hc : isLiteral c = true
          · rcases doubleFrom_literal column run first (Phrase.ofChars rest) hc with
              ⟨run', hwritten⟩ | ⟨column', hwritten⟩
            · rw [hwritten]
              exact Quoted.double_literal hc htakes (hrest column run' false)
            · rw [hwritten, List.append_assoc]
              apply Quoted.double_escapedBreak (s := c :: rest)
              · intro hspace
                injection hspace with hspace
                rw [hspace]
                exact ⟨_, rfl, hrest column' 1 false .nothing trivial⟩
              · intro hspace
                have hjoined : Quoted.Pending.Takes (c :: rest) (.joined []) := ⟨rfl, hspace⟩
                exact Quoted.double_literal hc hjoined (hrest column' 1 false)
          · have hc' : isLiteral c = false := by simpa using hc
            have hjoin : Phrase.ofChars (pending.text ++ c :: rest) =
                Phrase.ofChars pending.text ++ ([.char c] ++ Phrase.ofChars rest) :=
              List.map_append
            rcases doubleFrom_escape column run first (Phrase.ofChars rest) hc' with
              ⟨column', hwritten⟩ | ⟨_, hwritten⟩
            · rw [hwritten, List.append_assoc, Quoted.double_escape,
                hrest column' 0 false .nothing trivial, hjoin]
              rfl
            · have hread : Quoted.double (.text .nothing)
                  ((escapedBreak (Phrase.ofChars rest)).1 ++
                    (doubleFrom (escapedBreak (Phrase.ofChars rest)).2 0 false
                      (Phrase.ofChars rest) ++ '"' :: tail)) =
                  .ok (Phrase.ofChars rest, tail) := by
                apply Quoted.double_escapedBreak (s := rest)
                · intro hspace
                  cases rest with
                  | nil =>
                      cases hspace
                  | cons d more =>
                      injection hspace with hspace
                      have hmore : more.length < n := Nat.lt_of_succ_lt hlt
                      rw [hspace]
                      refine ⟨_, congrArg (· ++ '"' :: tail) (doubleFrom_space _), ?_⟩
                      exact ih more.length hmore more _ 1 false .nothing trivial rfl
                · intro hspace
                  exact hrest _ 0 false (.joined []) ⟨rfl, hspace⟩
              rw [hwritten, List.append_assoc, Quoted.double_escape, List.append_assoc, hread,
                hjoin]
              rfl

theorem scan_double (s tail : List Char) (column : Nat) :
    Quoted.scan '"' ((double column (Phrase.ofChars s) ++ tail).drop 1) =
      .ok (Phrase.ofChars s, tail) := by
  rw [Quoted.scan, if_pos rfl, double, List.append_assoc]
  exact double_doubleFrom s tail (column + 1) 0 true .nothing trivial

/-!
# What stands in the quotes
-/

theorem isFixed_of_isHexDigit {c : Char} (h : Text.isHexDigit c = true) : isFixed c = true := by
  have hlower : forall n : Fin 16, isFixed (Text.lowerHexDigit n.val) = true := by decide
  have hupper : forall n : Fin 16, isFixed (Text.upperHexDigit n.val) = true := by decide
  rcases Option.isSome_iff_exists.mp h with ⟨n, hn⟩
  rcases Text.digit_of_hexValue? hn with ⟨hlt, hc | hc⟩
  · rw [hc]
    exact hlower ⟨n, hlt⟩
  · rw [hc]
    exact hupper ⟨n, hlt⟩

theorem isFixed_of_isLiteral {c : Char} (h : isLiteral c = true) : isFixed c = true := by
  have hreturn : c ≠ '\r' := by
    intro hc
    rw [hc] at h
    cases h
  have hnext : c ≠ nextLine := by
    intro hc
    rw [hc] at h
    cases h
  simp only [isLiteral, Bool.and_eq_true, Bool.or_eq_true, bne_iff_ne, decide_eq_true_eq] at h
  simp only [isFixed, isKept, isReadable, Bool.and_eq_true, Bool.or_eq_true, beq_iff_eq,
    bne_iff_ne, decide_eq_true_eq]
  refine ⟨⟨?_, hreturn⟩, hnext⟩
  omega

theorem isFixed_escapeLetter {c letter : Char} (h : escapeLetter? c = some letter) :
    isFixed letter = true := by
  unfold escapeLetter? at h
  split at h
  case h_15 =>
    cases h
  all_goals
    injection h with hletter
    rw [← hletter]
    rfl

theorem isFixed_escapeCode {n : Nat} {c : Char} (h : c ∈ escapeCode n) : isFixed c = true := by
  have hcode : forall (letter : Char) (width : Nat), isFixed letter = true ->
      c ∈ '\\' :: letter :: Text.hexDigits Text.upperHexDigit width n -> isFixed c = true := by
    intro letter width hletter hmem
    rw [List.mem_cons, List.mem_cons] at hmem
    rcases hmem with hmem | hmem | hmem
    · rw [hmem]
      rfl
    · rw [hmem]
      exact hletter
    · exact isFixed_of_isHexDigit
        (Text.isHexDigit_of_mem_hexDigits Text.hexValue?_upperHexDigit hmem)
  unfold escapeCode at h
  split at h
  · exact hcode 'x' 2 rfl h
  · split at h
    · exact hcode 'u' 4 rfl h
    · exact hcode 'U' 8 rfl h

theorem isFixed_escape {c d : Char} (h : c ∈ escape (.char d)) : isFixed c = true := by
  rw [escape] at h
  cases hletter : escapeLetter? d with
  | none =>
      rw [hletter] at h
      exact isFixed_escapeCode h
  | some letter =>
      rw [hletter] at h
      simp only [List.mem_cons, List.not_mem_nil, or_false] at h
      rcases h with h | h
      · rw [h]
        rfl
      · rw [h]
        exact isFixed_escapeLetter hletter

theorem isFixed_escapedBreak {p : Phrase} {c : Char} (h : c ∈ (escapedBreak p).1) :
    isFixed c = true := by
  have hall : ('\\' :: continuation ++ ['\\']).all isFixed = true := by decide
  have hfront : c ∈ '\\' :: continuation ++ ['\\'] := by
    unfold escapedBreak at h
    split at h
    · exact h
    · exact List.mem_append_left _ h
  exact List.all_eq_true.mp hall c hfront

theorem isFixed_doubleFrom {s : List Char} {column run : Nat} {first : Bool} {c : Char}
    (h : c ∈ doubleFrom column run first (Phrase.ofChars s)) : isFixed c = true := by
  induction s generalizing column run first with
  | nil =>
      rw [Phrase.ofChars, List.map_nil, doubleFrom_nil] at h
      cases h
  | cons d rest ih =>
      change c ∈ doubleFrom column run first (.char d :: Phrase.ofChars rest) at h
      by_cases hd : isLiteral d = true
      · rcases doubleFrom_literal column run first (Phrase.ofChars rest) hd with
          ⟨run', hwritten⟩ | ⟨column', hwritten⟩
        · rw [hwritten, List.mem_cons] at h
          rcases h with h | h
          · rw [h]
            exact isFixed_of_isLiteral hd
          · exact ih h
        · rw [hwritten, List.mem_append, List.mem_cons] at h
          rcases h with h | h | h
          · exact isFixed_escapedBreak h
          · rw [h]
            exact isFixed_of_isLiteral hd
          · exact ih h
      · rcases doubleFrom_escape column run first (Phrase.ofChars rest) (by simpa using hd) with
          ⟨column', hwritten⟩ | ⟨_, hwritten⟩
        · rw [hwritten, List.mem_append] at h
          rcases h with h | h
          · exact isFixed_escape h
          · exact ih h
        · rw [hwritten, List.mem_append, List.mem_append] at h
          rcases h with h | h | h
          · exact isFixed_escape h
          · exact isFixed_escapedBreak h
          · exact ih h

theorem isFixed_double {s : List Char} {column : Nat} {c : Char}
    (h : c ∈ double column (Phrase.ofChars s)) : isFixed c = true := by
  rw [double, List.mem_append, List.mem_cons, List.mem_singleton] at h
  rcases h with (h | h) | h
  · rw [h]
    rfl
  · exact isFixed_doubleFrom h
  · rw [h]
    rfl

end Yaml
end Palette
