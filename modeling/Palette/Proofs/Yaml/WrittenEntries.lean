import Palette.Proofs.Yaml.DoubleQuotes
import Palette.Proofs.Yaml.PlainScalars
import Palette.Proofs.Yaml.SingleQuotes

/-!
# Scanning a written mapping

Each entry is taken in three steps: its key, the colon that reveals it, and its
value.  Between two entries the scanner is at the start of a line with nothing open
but the block of the mapping.
-/

namespace Palette
namespace Yaml
namespace Scanner

/-!
# States of the scanner
-/

def inBlock (rest : List Char) (p : Position) (indents : List Nat) (k : Option Candidate)
    (keyAllowed : Bool) (tokens : List Token) : Scanner :=
  ⟨⟨rest, p⟩, indents, [k], keyAllowed, tokens⟩

/-- The columns of the blocks around the entries of a mapping, which is opened by its
first key. -/
def AroundEntries (indents : List Nat) : Prop :=
  indents = [] ∨ indents = [0]

/-- The scanner will next be at the start of a line, between entries. -/
def BetweenEntries (s : Scanner) (rest : List Char) (indents : List Nat) (tokens : List Token) :
    Prop :=
  exists p : Position, p.column = 0 ∧ s.toNextToken = inBlock rest p indents none true tokens

theorem unwindTo_eq_self {indents : List Nat} (h : AroundEntries indents) (column : Nat)
    (tokens : List Token) : unwindTo column indents tokens = (indents, tokens) := by
  rcases h with h | h
  · rw [h]
    rfl
  · rw [h]
    rfl

theorem prepare_eq_ok {s : Scanner} {rest : List Char} {p : Position} {indents : List Nat}
    {k : Option Candidate} {keyAllowed : Bool} {tokens : List Token}
    (hnext : s.toNextToken = inBlock rest p indents k keyAllowed tokens)
    (hk : k.any (isStale p) = false) (hindents : AroundEntries indents) :
    s.prepare = .ok (inBlock rest p indents k keyAllowed tokens) := by
  have hstale : (inBlock rest p indents k keyAllowed tokens).dropStale =
      some (inBlock rest p indents k keyAllowed tokens) := by
    simp [dropStale, inBlock, hk]
  rw [prepare, hnext, hstale]
  show Except.ok (unwind (inBlock rest p indents k keyAllowed tokens)) = _
  rw [unwind, if_neg (by simp [inFlow, inBlock])]
  simp only [inBlock, unwindTo_eq_self hindents]

theorem run_step (fuel : Nat) {s next after : Scanner} {c : Char} {rest : List Char}
    (hprepare : s.prepare = .ok next) (hrest : next.cursor.rest = c :: rest)
    (hfetch : next.fetch c rest = .ok after) : run (fuel + 1) s = run fuel after := by
  rw [run, hprepare]
  simp only [hrest, hfetch]

theorem dropGaps_of_ordinary {c : Char} (rest : List Char) (keyAllowed : Bool)
    (hbreak : isBreak c = false) (hspace : c ≠ ' ') (hhash : c ≠ '#') :
    dropGaps false keyAllowed false (c :: rest) = (c :: rest, keyAllowed) := by
  simp [dropGaps, hbreak, hspace, hhash]

theorem dropGaps_of_atEntry {s : List Char} (h : atEntry s = true) :
    dropGaps false true false s = (s, true) := by
  cases s with
  | nil =>
      rfl
  | cons c rest =>
      exact dropGaps_of_ordinary rest true (not_isBreak_of_isAlphanum h) (ne_of_isAlphanum h rfl)
        (ne_of_isAlphanum h rfl)

theorem toNextToken_eq_self {rest : List Char} {p : Position} {indents : List Nat}
    {k : Option Candidate} {keyAllowed : Bool} {tokens : List Token}
    (h : dropGaps false keyAllowed false rest = (rest, keyAllowed)) :
    (inBlock rest p indents k keyAllowed tokens).toNextToken =
      inBlock rest p indents k keyAllowed tokens := by
  have hflow : (inBlock rest p indents k keyAllowed tokens).inFlow = false := rfl
  rw [toNextToken, hflow]
  simp only [inBlock, h, moveTo, allowKey, Cursor.moveTo_self ⟨rest, p⟩]

/-!
# Dispatch
-/

theorem fetch_plain {s : Scanner} {c : Char} {rest : List Char} (hflow : s.inFlow = false)
    (hfirst : c ∉ firstIndicators) (hblank : isBlank c = false)
    (hmark : s.column = 0 -> c ≠ '-' ∧ c ≠ '.')
    (hgap : c = '?' ∨ c = ':' ∨ c = '-' -> atGap rest = false) :
    s.fetch c rest = s.fetchPlain := by
  have hne : forall d, d ∈ firstIndicators -> c ≠ d := by
    intro d hd hc
    exact hfirst (hc ▸ hd)
  have hdash : ¬(c = '-' ∧ s.column = 0 ∧ atDocumentMark (c :: rest) = true) :=
    fun h => (hmark h.right.left).left h.left
  have hdot : ¬(c = '.' ∧ s.column = 0 ∧ atDocumentMark (c :: rest) = true) :=
    fun h => (hmark h.right.left).right h.left
  have hentry : ¬(c = '-' ∧ atGap rest = true) := by
    intro h
    rw [hgap (Or.inr (Or.inr h.left))] at h
    exact Bool.false_ne_true h.right
  have hkey : ¬(c = '?' ∧ atGap rest = true) := by
    intro h
    rw [hgap (Or.inl h.left)] at h
    exact Bool.false_ne_true h.right
  have hvalue : ¬(c = ':' ∧ atGap rest = true) := by
    intro h
    rw [hgap (Or.inr (Or.inl h.left))] at h
    exact Bool.false_ne_true h.right
  have hstarts : startsPlain false c rest = true := by
    rw [startsPlain]
    by_cases hd : c = '-'
    · simp [hd, hgap (Or.inr (Or.inr hd))]
    · by_cases hq : c = '?' ∨ c = ':'
      · have hrest : atGap rest = false := hgap (hq.imp_right Or.inl)
        simp [hd, hq, hrest]
      · have hsame : (",[]\x7b\x7d#&*!|>'\"%@\x60".toList.all firstIndicators.contains) = true := by
          decide
        have hcontains : ",[]\x7b\x7d#&*!|>'\"%@\x60".toList.contains c = false := by
          rw [List.contains_eq_mem, decide_eq_false_iff_not]
          intro hmem
          exact hfirst (List.contains_iff_mem.mp (List.all_eq_true.mp hsame c hmem))
        rw [hcontains, hblank]
        simp only [not_or] at hq
        simp [hd, hq]
  rw [fetch]
  simp only [hflow, Bool.false_eq_true, false_or, hdash, hdot, hentry, hkey, hvalue, if_false,
    hne '%' (by decide), hne '[' (by decide), hne '\x7b' (by decide), hne ']' (by decide),
    hne '\x7d' (by decide), hne ',' (by decide), hne '*' (by decide), hne '&' (by decide),
    hne '!' (by decide), hne '|' (by decide), hne '>' (by decide), hne '\'' (by decide),
    hne '"' (by decide), false_and, or_self, hstarts, if_true]

theorem fetch_quoted {s : Scanner} {quote : Char} (rest : List Char)
    (h : quote = '\'' ∨ quote = '"') : s.fetch quote rest = s.fetchQuoted quote := by
  rcases h with h | h
  · rw [h]
    simp [fetch]
  · rw [h]
    simp [fetch]

theorem fetch_colon {s : Scanner} {rest : List Char} (h : atGap rest = true) :
    s.fetch ':' rest = s.fetchValue := by
  simp [fetch, h]

/-!
# Scalars
-/

def candidateAt (p : Position) (indents : List Nat) (tokens : List Token) : Candidate :=
  ⟨tokens.length, indents.head? == some p.column, p⟩

theorem beginNode_allowed (rest : List Char) (p : Position) (indents : List Nat)
    (tokens : List Token) :
    (inBlock rest p indents none true tokens).beginNode =
      .ok (inBlock rest p indents (some (candidateAt p indents tokens)) false tokens) :=
  rfl

theorem beginNode_not_allowed (rest : List Char) (p : Position) (indents : List Nat)
    (k : Option Candidate) (tokens : List Token) :
    (inBlock rest p indents k false tokens).beginNode =
      .ok (inBlock rest p indents k false tokens) :=
  rfl

theorem fetchPlain_eq_ok {s : Scanner} {rest text after : List Char} {p q : Position}
    {indents : List Nat} {k : Option Candidate} {atLineStart : Bool} {tokens : List Token}
    (hbegin : s.beginNode = .ok (inBlock rest p indents k false tokens))
    (hscan : Plain.scan false (inBlock rest p indents k false tokens).innerIndent ⟨rest, p⟩ =
      ⟨text, ⟨after, q⟩, atLineStart⟩) :
    s.fetchPlain =
      .ok (inBlock after q indents k atLineStart (.scalar (.ofChars text) :: tokens)) := by
  have hflow : (inBlock rest p indents k false tokens).inFlow = false := rfl
  have hcursor : (inBlock rest p indents k false tokens).cursor = ⟨rest, p⟩ := rfl
  rw [fetchPlain, hbegin]
  show Except.ok _ = _
  rw [hflow, hcursor, hscan]
  rfl

theorem fetchQuoted_eq_ok {s : Scanner} {quote : Char} {body after : List Char} {p : Position}
    {indents : List Nat} {k : Option Candidate} {tokens : List Token} {phrase : Phrase}
    (hbegin : s.beginNode = .ok (inBlock (quote :: body) p indents k false tokens))
    (hscan : Quoted.scan quote body = .ok (phrase, after)) :
    s.fetchQuoted quote =
      .ok (inBlock after (Cursor.moveTo ⟨quote :: body, p⟩ after).position indents k false
        (.scalar phrase :: tokens)) := by
  have hrest : (inBlock (quote :: body) p indents k false tokens).cursor.rest.drop 1 = body := rfl
  rw [fetchQuoted, hbegin]
  show (Quoted.scan quote
      ((inBlock (quote :: body) p indents k false tokens).cursor.rest.drop 1)).bind (fun scanned =>
    .ok (((inBlock (quote :: body) p indents k false tokens).moveTo scanned.2).push
      (.scalar scanned.1))) = _
  rw [hrest, hscan]
  rfl

/-!
# Keys
-/

/-- A text of letters and digits that is short enough for a key. -/
structure IsKey (key : List Char) : Prop where
  nonempty : key ≠ []
  alphanum : forall c, c ∈ key -> c.isAlphanum = true
  short : key.length ≤ 1024

theorem isKey_of_all {key : List Char} (hne : key ≠ []) (h : key.all Char.isAlphanum = true)
    (hlength : key.length ≤ 1024) : IsKey key :=
  ⟨hne, fun c hc => List.all_eq_true.mp h c hc, hlength⟩

theorem column_foldl_key (p : Position) {key : List Char}
    (h : forall c, c ∈ key -> c.isAlphanum = true) :
    (key.foldl Position.after p).line = p.line ∧
      (key.foldl Position.after p).index = p.index + key.length := by
  induction key generalizing p with
  | nil =>
      exact ⟨rfl, rfl⟩
  | cons c rest ih =>
      have hbreak := not_isBreak_of_isAlphanum (h c List.mem_cons_self)
      have hline : (p.after c).line = p.line := by
        rw [Position.after, hbreak]
        rfl
      have hindex : (p.after c).index = p.index + 1 := by
        rw [Position.after, hbreak]
        rfl
      rcases ih (p.after c) fun d hd => h d (List.mem_cons_of_mem c hd) with ⟨ihline, ihindex⟩
      constructor
      · rw [List.foldl_cons, ihline, hline]
      · rw [List.foldl_cons, ihindex, hindex, List.length_cons]
        omega

theorem word_key {key : List Char} (h : forall c, c ∈ key -> c.isAlphanum = true)
    (after : List Char) :
    Plain.word false (key ++ ':' :: ' ' :: after) = (key, ':' :: ' ' :: after) := by
  induction key with
  | nil =>
      rfl
  | cons c rest ih =>
      have hc := h c List.mem_cons_self
      have hcolon : c ≠ ':' := ne_of_isAlphanum hc rfl
      have hend : Plain.endsWord false c (rest ++ ':' :: ' ' :: after) = false := by
        simp [Plain.endsWord, not_isBlank_of_isAlphanum hc, not_isBreak_of_isAlphanum hc, hcolon]
      rw [List.cons_append, Plain.word, hend, if_neg Bool.false_ne_true,
        ih fun d hd => h d (List.mem_cons_of_mem c hd)]

theorem scan_key {key : List Char} (h : IsKey key) (indent : Nat) (after : List Char)
    (p : Position) :
    Plain.scan false indent ⟨key ++ ':' :: ' ' :: after, p⟩ =
      ⟨key, ⟨':' :: ' ' :: after, key.foldl Position.after p⟩, false⟩ := by
  have hgap : Plain.gap (':' :: ' ' :: after) = ⟨some [], ':' :: ' ' :: after, false⟩ :=
    Plain.gap_spaces 0 (' ' :: after) (by decide) rfl
  have hplace : (Cursor.moveTo ⟨key ++ ':' :: ' ' :: after, p⟩ (':' :: ' ' :: after)).moveTo
      (':' :: ' ' :: after) = ⟨':' :: ' ' :: after, key.foldl Position.after p⟩ := by
    rw [Cursor.moveTo_append]
    exact Cursor.moveTo_self ⟨':' :: ' ' :: after, key.foldl Position.after p⟩
  have hhash : (key ++ ':' :: ' ' :: after).head? ≠ some '#' := by
    cases key with
    | nil =>
        exact absurd rfl h.nonempty
    | cons c rest =>
        intro hhash
        injection hhash with hc
        exact ne_of_isAlphanum (h.alphanum c List.mem_cons_self) rfl hc
  exact Plain.scanFrom_last hhash h.nonempty (word_key h.alphanum after) hgap hplace (Or.inl rfl)

theorem fetch_key {c : Char} {rest : List Char} (h : IsKey (c :: rest)) (after : List Char)
    (p : Position) (indents : List Nat) (tokens : List Token) :
    (inBlock (c :: rest ++ ':' :: ' ' :: after) p indents none true tokens).fetch c
        (rest ++ ':' :: ' ' :: after) =
      .ok (inBlock (':' :: ' ' :: after) ((c :: rest).foldl Position.after p) indents
        (some (candidateAt p indents tokens)) false
        (.scalar (.ofChars (c :: rest)) :: tokens)) := by
  have hc := h.alphanum c List.mem_cons_self
  have hfirst : c ∉ firstIndicators := by
    have hall : firstIndicators.all (fun d => !d.isAlphanum) = true := by decide
    intro hmem
    have hnot := List.all_eq_true.mp hall c hmem
    rw [hc] at hnot
    cases hnot
  have hplain : (inBlock (c :: rest ++ ':' :: ' ' :: after) p indents none true tokens).fetch c
      (rest ++ ':' :: ' ' :: after) =
      (inBlock (c :: rest ++ ':' :: ' ' :: after) p indents none true tokens).fetchPlain := by
    apply fetch_plain rfl hfirst (not_isBlank_of_isAlphanum hc)
    · intro _
      exact ⟨ne_of_isAlphanum hc rfl, ne_of_isAlphanum hc rfl⟩
    · rintro (heq | heq | heq)
      · exact absurd heq (ne_of_isAlphanum hc rfl)
      · exact absurd heq (ne_of_isAlphanum hc rfl)
      · exact absurd heq (ne_of_isAlphanum hc rfl)
  rw [hplain]
  exact fetchPlain_eq_ok (beginNode_allowed _ p indents tokens) (scan_key h _ after p)

def opening : List Nat → List Token
  | [] => [.blockMappingStart]
  | _ :: _ => []

theorem fetchValue_behind_key {indents : List Nat} (hindents : AroundEntries indents)
    (after : List Char) {p : Position} (hp : p.column = 0) (q : Position) (key : Phrase)
    (tokens : List Token) :
    (inBlock (':' :: after) q indents (some (candidateAt p indents tokens)) false
        (.scalar key :: tokens)).fetchValue =
      .ok (inBlock after (q.after ':') [0] none false
        (.value :: .scalar key :: .key :: (opening indents ++ tokens))) := by
  have hplace : (Token.scalar key :: tokens).length - tokens.length = 1 := by
    rw [List.length_cons, Nat.add_sub_cancel_left]
  have hskip : (Cursor.skip ⟨':' :: after, q⟩ 1) = ⟨after, q.after ':'⟩ :=
    Cursor.moveTo_cons ':' after q
  rcases hindents with hindents | hindents
  · rw [hindents]
    simp only [fetchValue, candidate, inBlock, List.head?_cons, Option.join_some, candidateAt,
      inFlow, opensAt, hp, keyTokens, insertAt, hplace, setCandidate, take, hskip]
    rfl
  · rw [hindents]
    simp only [fetchValue, candidate, inBlock, List.head?_cons, Option.join_some, candidateAt,
      inFlow, opensAt, hp, keyTokens, insertAt, hplace, setCandidate, take, hskip]
    rfl

theorem run_key (fuel : Nat) {s : Scanner} {key after : List Char} {indents : List Nat}
    {tokens : List Token} (hkey : IsKey key) (hindents : AroundEntries indents)
    (h : BetweenEntries s (key ++ ':' :: ' ' :: after) indents tokens) :
    exists q : Position, 1 ≤ q.column ∧
      run (fuel + 2) s = run fuel (inBlock (' ' :: after) q [0] none false
        (.value :: .scalar (.ofChars key) :: .key :: (opening indents ++ tokens))) := by
  rcases h with ⟨p, hp, hnext⟩
  have hprepare := prepare_eq_ok hnext rfl hindents
  cases key with
  | nil =>
      exact absurd rfl hkey.nonempty
  | cons c rest =>
      let q := (c :: rest).foldl Position.after p
      let k := candidateAt p indents tokens
      rcases column_foldl_key p hkey.alphanum with ⟨hline, hindex⟩
      have hfresh : isStale q k = false := by
        have hshort := hkey.short
        simp only [isStale, k, candidateAt, q, hline, hindex, bne_self_eq_false, Bool.false_or,
          decide_eq_false_iff_not]
        omega
      have hself : (inBlock (':' :: ' ' :: after) q indents (some k) false
          (.scalar (.ofChars (c :: rest)) :: tokens)).toNextToken =
          inBlock (':' :: ' ' :: after) q indents (some k) false
            (.scalar (.ofChars (c :: rest)) :: tokens) :=
        toNextToken_eq_self (dropGaps_of_ordinary (' ' :: after) false rfl (by decide) (by decide))
      refine ⟨q.after ':', Nat.le_add_left 1 q.column, ?_⟩
      rw [run_step (fuel + 1) hprepare rfl (fetch_key hkey after p indents tokens),
        run_step fuel (prepare_eq_ok hself hfresh hindents) rfl]
      rw [fetch_colon rfl]
      exact fetchValue_behind_key hindents (' ' :: after) hp q _ tokens

/-!
# Values
-/

theorem prepare_value {c : Char} (rest : List Char) (q : Position) (tokens : List Token)
    (hbreak : isBreak c = false) (hspace : c ≠ ' ') (hhash : c ≠ '#') :
    (inBlock (' ' :: c :: rest) q [0] none false tokens).prepare =
      .ok (inBlock (c :: rest) (q.after ' ') [0] none false tokens) := by
  have hdrop : dropGaps false false false (' ' :: c :: rest) = (c :: rest, false) :=
    dropGaps_of_ordinary rest false hbreak hspace hhash
  have hmove : Cursor.moveTo ⟨' ' :: c :: rest, q⟩ (c :: rest) = ⟨c :: rest, q.after ' '⟩ :=
    Cursor.moveTo_cons ' ' (c :: rest) q
  apply prepare_eq_ok _ rfl (Or.inr rfl)
  show ((inBlock (' ' :: c :: rest) q [0] none false tokens).moveTo
    (dropGaps false false false (' ' :: c :: rest)).1).allowKey
      (dropGaps false false false (' ' :: c :: rest)).2 = _
  rw [hdrop]
  simp only [inBlock, moveTo, allowKey, hmove]

theorem betweenEntries_of_lineEnd {more : List Char} (h : atEntry more = true) (q : Position)
    (tokens : List Token) :
    BetweenEntries (inBlock ('\n' :: more) q [0] none false tokens) more [0] tokens := by
  have hdrop : dropGaps false false false ('\n' :: more) = (more, true) :=
    dropGaps_of_atEntry h
  have hmove : Cursor.moveTo ⟨'\n' :: more, q⟩ more = ⟨more, q.after '\n'⟩ :=
    Cursor.moveTo_cons '\n' more q
  refine ⟨q.after '\n', Position.column_after_break q rfl, ?_⟩
  show ((inBlock ('\n' :: more) q [0] none false tokens).moveTo
    (dropGaps false false false ('\n' :: more)).1).allowKey
      (dropGaps false false false ('\n' :: more)).2 = _
  rw [hdrop]
  simp only [inBlock, moveTo, allowKey, hmove]

theorem run_plain (fuel : Nat) {s more : List Char} (h : allowsPlain s = true)
    (hmore : atEntry more = true) (column : Nat) {q : Position} (hq : 1 ≤ q.column)
    (tokens : List Token) :
    exists after : Scanner,
      run (fuel + 1) (inBlock (' ' :: (plainFrom column 0 s ++ '\n' :: more)) q [0] none false
        tokens) = run fuel after ∧
      BetweenEntries after more [0] (.scalar (.ofChars s) :: tokens) := by
  have hword := atWord_of_allowsPlain h
  cases s with
  | nil =>
      exact absurd rfl hword.nonempty
  | cons c rest =>
      have hc := hword.plain c List.mem_cons_self
      have hspace : c ≠ ' ' := by
        intro hspace
        exact hword.head (by rw [hspace, List.head?_cons])
      have hbreak := not_isBreak_of_isPlainChar hc
      rcases not_indicator_of_startsWithIndicator (not_startsWithIndicator_of_allowsPlain h) with
        ⟨hfirst, hgap⟩
      have hhash : c ≠ '#' := by
        intro hhash
        exact hfirst (by rw [hhash]; decide)
      have hcolumn : 1 ≤ (q.after ' ').column := Nat.le_trans hq (Position.column_le_after q rfl)
      rcases Plain.scan_plainFrom h hmore column hcolumn with ⟨p, hp, hscan⟩
      rw [plainFrom_cons column hspace, List.cons_append] at hscan ⊢
      have hplain :
          (inBlock (c :: (plainFrom (column + 1) 0 rest ++ '\n' :: more)) (q.after ' ') [0]
            none false tokens).fetch c (plainFrom (column + 1) 0 rest ++ '\n' :: more) =
          (inBlock (c :: (plainFrom (column + 1) 0 rest ++ '\n' :: more)) (q.after ' ') [0]
            none false tokens).fetchPlain := by
        apply fetch_plain rfl hfirst (not_isBlank_of_isPlainChar hc hspace)
        · intro hzero
          have hzero' : (q.after ' ').column = 0 := hzero
          omega
        · intro hindicator
          apply not_atGap_plainFrom
          · exact fun d hd => hword.plain d (List.mem_cons_of_mem c hd)
          · rcases hindicator with heq | heq | heq
            all_goals
              rw [heq] at hgap
              exact hgap
      refine ⟨_, run_step fuel (prepare_value _ q tokens hbreak hspace hhash) rfl
        (hplain.trans (fetchPlain_eq_ok (beginNode_not_allowed _ _ _ _ _) hscan)), p, hp, ?_⟩
      exact toNextToken_eq_self (dropGaps_of_atEntry hmore)

theorem run_quoted (fuel : Nat) {quote : Char} {body after : List Char} {phrase : Phrase}
    (hquote : quote = '\'' ∨ quote = '"') (hscan : Quoted.scan quote body = .ok (phrase, after))
    (q : Position) (tokens : List Token) :
    exists p : Position,
      run (fuel + 1) (inBlock (' ' :: quote :: body) q [0] none false tokens) =
      run fuel (inBlock after p [0] none false (.scalar phrase :: tokens)) := by
  have hordinary : isBreak quote = false ∧ quote ≠ ' ' ∧ quote ≠ '#' := by
    rcases hquote with hquote | hquote
    · rw [hquote]
      exact ⟨rfl, by decide, by decide⟩
    · rw [hquote]
      exact ⟨rfl, by decide, by decide⟩
  rcases hordinary with ⟨hbreak, hspace, hhash⟩
  rw [run_step fuel (prepare_value body q tokens hbreak hspace hhash) rfl
    ((fetch_quoted body hquote).trans
      (fetchQuoted_eq_ok (beginNode_not_allowed _ _ _ _ _) hscan))]
  exact ⟨_, rfl⟩

theorem run_single (fuel : Nat) {s : List Char} (more : List Char) (h : allowsSingle s = true)
    (column : Nat) (q : Position) (tokens : List Token) :
    exists p : Position,
      run (fuel + 1) (inBlock (' ' :: ((single column s).map lineFeedFor ++ '\n' :: more)) q [0]
        none false tokens) =
      run fuel (inBlock ('\n' :: more) p [0] none false
        (.scalar (.ofChars (singleBack false s)) :: tokens)) := by
  have hhead : ('\n' :: more).head? ≠ some '\'' := by
    intro hsome
    cases hsome
  have hscan := scan_single h column hhead
  have hwritten : (single column s).map lineFeedFor ++ '\n' :: more =
      '\'' :: ((single column s).map lineFeedFor ++ '\n' :: more).drop 1 :=
    rfl
  rw [hwritten]
  exact run_quoted fuel (Or.inl rfl) hscan q tokens

theorem run_double (fuel : Nat) (s more : List Char) (column : Nat) (q : Position)
    (tokens : List Token) :
    exists p : Position,
      run (fuel + 1) (inBlock (' ' :: (double column (.ofChars s) ++ '\n' :: more)) q [0] none
        false tokens) =
      run fuel (inBlock ('\n' :: more) p [0] none false (.scalar (.ofChars s) :: tokens)) := by
  have hscan := scan_double s ('\n' :: more) column
  have hwritten : double column (.ofChars s) ++ '\n' :: more =
      '"' :: (double column (.ofChars s) ++ '\n' :: more).drop 1 :=
    rfl
  rw [hwritten]
  exact run_quoted fuel (Or.inr rfl) hscan q tokens

end Scanner

/-- What is read of a text that was written.  In single quotes its next-line characters
are read as breaks; all else is kept. -/
def reread (s : List Char) : List Char :=
  if allowsSingle s then singleBack false s else s

theorem reread_of_not_mem {s : List Char} (h : nextLine ∉ s) : reread s = s := by
  rw [reread]
  split
  · exact singleBack_of_not_mem false h
  · rfl

theorem reread_of_allowsPlain {s : List Char} (h : allowsPlain s = true) : reread s = s := by
  apply reread_of_not_mem
  intro hmem
  have hplain := (atWord_of_allowsPlain h).plain nextLine hmem
  cases hplain

/-- A text is lost exactly if it holds a next-line character and is kept in single quotes. -/
theorem reread_eq_self_iff (s : List Char) :
    reread s = s <-> ¬(nextLine ∈ s ∧ allowsSingle s = true) := by
  constructor
  · intro h hlost
    apply nextLine_not_mem_singleBack false s
    rw [reread, if_pos hlost.right] at h
    rw [h]
    exact hlost.left
  · intro h
    by_cases hmem : nextLine ∈ s
    · rw [reread, if_neg fun hsingle => h ⟨hmem, hsingle⟩]
    · exact reread_of_not_mem hmem

theorem scalar_ofChars (column : Nat) (s : List Char) :
    scalar column (.ofChars s) =
      if allowsPlain s then plainFrom column 0 s
      else if allowsSingle s then single column s
      else double column (.ofChars s) := by
  rw [scalar, Phrase.chars?_ofChars]

theorem isKept_scalar (column : Nat) (s : List Char) :
    forall c, c ∈ scalar column (.ofChars s) -> isKept c = true := by
  intro c hc
  rw [scalar_ofChars] at hc
  split at hc
  case isTrue hplain =>
    exact isKept_of_isFixed (isFixed_plainFrom (atWord_of_allowsPlain hplain).plain hc)
  case isFalse =>
    split at hc
    case isTrue hsingle =>
      exact isKept_single hsingle column c hc
    case isFalse =>
      exact isKept_of_isFixed (isFixed_double hc)

namespace Scanner

theorem run_value (fuel : Nat) (s : List Char) {more : List Char} (hmore : atEntry more = true)
    (column : Nat) {q : Position} (hq : 1 ≤ q.column) (tokens : List Token) :
    exists after : Scanner,
      run (fuel + 1) (inBlock (' ' :: ((scalar column (.ofChars s)).map lineFeedFor ++
        '\n' :: more)) q [0] none false tokens) = run fuel after ∧
      BetweenEntries after more [0] (.scalar (.ofChars (reread s)) :: tokens) := by
  rw [scalar_ofChars]
  split
  case isTrue hplain =>
    have hfixed : (plainFrom column 0 s).map lineFeedFor = plainFrom column 0 s :=
      map_lineFeedFor_of_isFixed fun c hc =>
        isFixed_plainFrom (atWord_of_allowsPlain hplain).plain hc
    rw [hfixed, reread_of_allowsPlain hplain]
    exact run_plain fuel hplain hmore column hq tokens
  case isFalse =>
    split
    case isTrue hsingle =>
      rcases run_single fuel more hsingle column q tokens with ⟨p, hrun⟩
      rw [reread, if_pos hsingle]
      exact ⟨_, hrun, betweenEntries_of_lineEnd hmore p _⟩
    case isFalse hsingle =>
      have hfixed : (double column (.ofChars s)).map lineFeedFor = double column (.ofChars s) :=
        map_lineFeedFor_of_isFixed fun c hc => isFixed_double hc
      rcases run_double fuel s more column q tokens with ⟨p, hrun⟩
      rw [hfixed, reread, if_neg hsingle]
      exact ⟨_, hrun, betweenEntries_of_lineEnd hmore p _⟩

/-!
# Entries
-/

/-- An entry as it is written. -/
def written (e : List Char × List Char) : List Char :=
  (entry e.1 (.ofChars e.2)).map lineFeedFor

def entryTokens (e : List Char × List Char) : List Token :=
  [.key, .scalar (.ofChars e.1), .value, .scalar (.ofChars (reread e.2))]

theorem written_eq {e : List Char × List Char} (h : IsKey e.1) :
    written e = e.1 ++ ':' :: ' ' ::
      ((scalar (e.1.length + 2) (.ofChars e.2)).map lineFeedFor ++ ['\n']) := by
  have hkey : e.1.map lineFeedFor = e.1 :=
    map_lineFeedFor_of_isFixed fun c hc => isFixed_of_isAlphanum (h.alphanum c hc)
  rw [written, entry, List.map_append, List.map_append, hkey, List.append_assoc]
  rfl

theorem atEntry_key {key : List Char} (h : IsKey key) (after : List Char) :
    atEntry (key ++ after) = true := by
  cases key with
  | nil =>
      exact absurd rfl h.nonempty
  | cons c rest =>
      exact h.alphanum c List.mem_cons_self

theorem atEntry_written {entries : List (List Char × List Char)}
    (h : forall e, e ∈ entries -> IsKey e.1) : atEntry (entries.flatMap written) = true := by
  cases entries with
  | nil =>
      rfl
  | cons e rest =>
      rw [List.flatMap_cons, written_eq (h e List.mem_cons_self), List.append_assoc]
      exact atEntry_key (h e List.mem_cons_self) _

theorem run_entry (fuel : Nat) {s : Scanner} {e : List Char × List Char} {more : List Char}
    {indents : List Nat} {tokens : List Token} (hkey : IsKey e.1) (hindents : AroundEntries indents)
    (hmore : atEntry more = true) (h : BetweenEntries s (written e ++ more) indents tokens) :
    exists after : Scanner, run (fuel + 3) s = run fuel after ∧
      BetweenEntries after more [0] ((entryTokens e).reverse ++ (opening indents ++ tokens)) := by
  have htext : written e ++ more = e.1 ++ ':' :: ' ' ::
      ((scalar (e.1.length + 2) (.ofChars e.2)).map lineFeedFor ++ '\n' :: more) := by
    rw [written_eq hkey, List.append_assoc, List.cons_append, List.cons_append, List.append_assoc]
    rfl
  rw [htext] at h
  rcases run_key (fuel + 1) hkey hindents h with ⟨q, hq, hrunKey⟩
  rcases run_value fuel e.2 hmore (e.1.length + 2) hq
    (.value :: .scalar (.ofChars e.1) :: .key :: (opening indents ++ tokens)) with
    ⟨after, hrunValue, hafter⟩
  exact ⟨after, hrunKey.trans hrunValue, hafter⟩

theorem run_end (fuel : Nat) {s : Scanner} {tokens : List Token}
    (h : BetweenEntries s [] [0] tokens) :
    run (fuel + 1) s = tokens.reverse ++ [.blockEnd, .streamEnd] := by
  rcases h with ⟨p, _, hnext⟩
  rw [run, prepare_eq_ok hnext rfl (Or.inr rfl)]
  show (Token.streamEnd :: .blockEnd :: tokens).reverse = _
  rw [List.reverse_cons, List.reverse_cons, List.append_assoc]
  rfl

theorem run_entries (fuel : Nat) {entries : List (List Char × List Char)}
    (hkeys : forall e, e ∈ entries -> IsKey e.1) {s : Scanner} {tokens : List Token}
    (h : BetweenEntries s (entries.flatMap written) [0] tokens) :
    run (fuel + 3 * entries.length + 1) s =
      tokens.reverse ++ (entries.flatMap entryTokens ++ [.blockEnd, .streamEnd]) := by
  induction entries generalizing s tokens with
  | nil =>
      exact run_end fuel h
  | cons e rest ih =>
      have hrest : forall d, d ∈ rest -> IsKey d.1 :=
        fun d hd => hkeys d (List.mem_cons_of_mem e hd)
      have hfuel : fuel + 3 * (e :: rest).length + 1 = fuel + 3 * rest.length + 1 + 3 := by
        rw [List.length_cons]
        omega
      rcases run_entry (fuel + 3 * rest.length + 1) (hkeys e List.mem_cons_self) (Or.inr rfl)
        (atEntry_written hrest) h with ⟨after, hrun, hafter⟩
      rw [hfuel, hrun, ih hrest hafter, List.flatMap_cons]
      simp [opening]

end Scanner

theorem three_mul_length_le {entries : List (List Char × List Char)}
    (hkeys : forall e, e ∈ entries -> Scanner.IsKey e.1) :
    3 * entries.length ≤ (entries.flatMap Scanner.written).length := by
  induction entries with
  | nil =>
      exact Nat.zero_le 0
  | cons e rest ih =>
      have hrest := ih fun d hd => hkeys d (List.mem_cons_of_mem e hd)
      rw [List.flatMap_cons, Scanner.written_eq (hkeys e List.mem_cons_self)]
      simp only [List.length_append, List.length_cons]
      omega

theorem tokens_written {entries : List (List Char × List Char)} (hne : entries ≠ [])
    (hkeys : forall e, e ∈ entries -> Scanner.IsKey e.1) :
    tokens (entries.flatMap Scanner.written) =
      .blockMappingStart :: (entries.flatMap Scanner.entryTokens ++ [.blockEnd, .streamEnd]) := by
  cases entries with
  | nil =>
      exact absurd rfl hne
  | cons e rest =>
      let text := (e :: rest).flatMap Scanner.written
      have hrest : forall d, d ∈ rest -> Scanner.IsKey d.1 :=
        fun d hd => hkeys d (List.mem_cons_of_mem e hd)
      have hentry : atEntry text = true := Scanner.atEntry_written hkeys
      have hmark : text.head? ≠ some byteOrderMark := by
        intro hsome
        rw [atEntry, hsome] at hentry
        cases hentry
      have hstart : Scanner.start text = Scanner.inBlock text ⟨0, 0, 0⟩ [] none true [] := by
        rw [Scanner.start, if_neg hmark]
        rfl
      have hbetween : Scanner.BetweenEntries (Scanner.start text)
          (Scanner.written e ++ rest.flatMap Scanner.written) [] [] := by
        refine ⟨⟨0, 0, 0⟩, rfl, ?_⟩
        rw [hstart]
        exact Scanner.toNextToken_eq_self (Scanner.dropGaps_of_atEntry hentry)
      have hlength : 3 * (e :: rest).length ≤ text.length := three_mul_length_le hkeys
      have hfuel : text.length + 1 =
          text.length - 3 * (e :: rest).length + 3 * rest.length + 1 + 3 := by
        rw [List.length_cons] at hlength ⊢
        omega
      rcases Scanner.run_entry (text.length - 3 * (e :: rest).length + 3 * rest.length + 1)
        (hkeys e List.mem_cons_self) (Or.inl rfl) (Scanner.atEntry_written hrest) hbetween with
        ⟨after, hrun, hafter⟩
      rw [tokens, hfuel, hrun, Scanner.run_entries _ hrest hafter, List.flatMap_cons]
      simp [Scanner.opening]

end Yaml
end Palette
