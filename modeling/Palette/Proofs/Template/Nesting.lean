import Mathlib.Algebra.Ring.Int.Defs
import Palette.Proofs.Template.Marks

/-!
# Well-nested templates

A source has a tree exactly if its sections are balanced, and then the tree is the
only one with its marks.  A source that has none is refused at the first closing
tag that does not close the innermost open section or, if there is no such tag,
for the innermost section that is open at the end.
-/

namespace Palette
namespace Template

def Mark.isLeaf : Mark → Bool
  | opening _ _ => false
  | closing _ => false
  | _ => true

/-- Marks whose sections are well nested, each closed by a tag of its own name. -/
inductive Balanced : List Mark → Prop where
  | nil : Balanced []
  | leaf {m : Mark} {rest : List Mark} : m.isLeaf = true → Balanced rest → Balanced (m :: rest)
  | block {gate : Gate} {name : String} {inner rest : List Mark} :
      Balanced inner → Balanced rest →
        Balanced (.opening gate name :: (inner ++ .closing name :: rest))

/-- A section is the innermost one that is open behind some marks if only balanced
marks follow its opening tag. -/
def InnermostOpen (ms : List Mark) (name : String) : Prop :=
  exists front gate inner, ms = front ++ .opening gate name :: inner ∧ Balanced inner

/-- Each closing tag has the name of the innermost section open in front of it. -/
def ClosesInnermost (ms : List Mark) : Prop :=
  forall before name after, ms = before ++ .closing name :: after -> InnermostOpen before name

/-- The first closing tag that does not close the innermost open section. -/
def FirstStray (ms : List Mark) (name : String) : Prop :=
  exists before after,
    ms = before ++ .closing name :: after ∧ ClosesInnermost before ∧ ¬InnermostOpen before name

/-!
# Balanced marks and trees

The marks of a tree are balanced, and balanced marks are those of a tree.
-/

theorem Balanced.append {front back : List Mark} (hf : Balanced front) (hb : Balanced back) :
    Balanced (front ++ back) := by
  induction hf with
  | nil =>
      exact hb
  | leaf hm _ ih =>
      exact Balanced.leaf hm ih
  | block hinner _ _ ih =>
      rw [List.cons_append, List.append_assoc, List.cons_append]
      exact Balanced.block hinner ih

mutual

theorem balanced_flatten (node : Node) : Balanced node.flatten := by
  cases node with
  | text chars =>
      exact Balanced.leaf rfl Balanced.nil
  | var name =>
      exact Balanced.leaf rfl Balanced.nil
  | raw name =>
      exact Balanced.leaf rfl Balanced.nil
  | block gate name children =>
      exact Balanced.block (balanced_flattenNodes children) Balanced.nil

theorem balanced_flattenNodes (tree : List Node) : Balanced (flattenNodes tree) := by
  cases tree with
  | nil =>
      exact Balanced.nil
  | cons node rest =>
      exact (balanced_flatten node).append (balanced_flattenNodes rest)

end

theorem exists_flattenNodes_of_balanced {ms : List Mark} (h : Balanced ms) :
    exists tree, flattenNodes tree = ms := by
  induction h with
  | nil =>
      exists []
  | @leaf m rest hm _ ih =>
      rcases ih with ⟨tree, htree⟩
      cases m with
      | text chars =>
          exists .text chars :: tree
          rw [flattenNodes, htree]
          rfl
      | var name =>
          exists .var name :: tree
          rw [flattenNodes, htree]
          rfl
      | raw name =>
          exists .raw name :: tree
          rw [flattenNodes, htree]
          rfl
      | opening gate name =>
          cases hm
      | closing name =>
          cases hm
  | @block gate name inner rest _ _ ihInner ihRest =>
      rcases ihInner with ⟨children, hchildren⟩
      rcases ihRest with ⟨tree, htree⟩
      exists .block gate name children :: tree
      rw [flattenNodes, Node.flatten, hchildren, htree]
      simp

theorem balanced_of_leaves {ms : List Mark} (h : forall m, m ∈ ms -> m.isLeaf = true) :
    Balanced ms := by
  induction ms with
  | nil =>
      exact .nil
  | cons m rest ih =>
      exact .leaf (h m List.mem_cons_self) (ih fun n hn => h n (List.mem_cons_of_mem m hn))

theorem balanced_filter_iff {ms : List Mark} :
    Balanced (ms.filter (!·.isLeaf)) <-> Balanced ms := by
  constructor
  · intro h
    generalize hfilter : ms.filter (!·.isLeaf) = sections at h
    induction h generalizing ms with
    | nil =>
        rw [List.filter_eq_nil_iff] at hfilter
        exact balanced_of_leaves fun m hm => by simpa using hfilter m hm
    | @leaf m _ hm _ _ =>
        have hmem : m ∈ ms.filter (!·.isLeaf) := by
          rw [hfilter]
          exact List.mem_cons_self
        rw [List.mem_filter, hm] at hmem
        cases hmem.right
    | block _ _ ihInner ihRest =>
        rcases List.filter_eq_cons_iff.mp hfilter with ⟨before, behind, rfl, hbefore, _, hbehind⟩
        rcases List.filter_eq_append_iff.mp hbehind with ⟨inside, more, rfl, hinside, hmore⟩
        rcases List.filter_eq_cons_iff.mp hmore with ⟨last, after, rfl, hlast, _, hafter⟩
        have hleaves : forall {leaves : List Mark},
            (forall m, m ∈ leaves -> ¬(!m.isLeaf) = true) -> Balanced leaves :=
          fun h => balanced_of_leaves fun m hm => by simpa using h m hm
        rw [← List.append_assoc]
        exact (hleaves hbefore).append
          (.block ((ihInner hinside).append (hleaves hlast)) (ihRest hafter))
  · intro h
    induction h with
    | nil =>
        exact .nil
    | leaf hm _ ih =>
        rw [List.filter_cons_of_neg (by rw [hm]; exact Bool.false_ne_true)]
        exact ih
    | block _ _ ihInner ihRest =>
        rw [List.filter_cons_of_pos rfl, List.filter_append, List.filter_cons_of_pos rfl]
        exact .block ihInner ihRest

/-!
# The height of marks

The number of sections opened less that of sections closed is zero for balanced
marks and never negative on the way.  So nothing stays open behind them, and the
innermost open section is unique.
-/

def Mark.height : Mark → Int
  | opening _ _ => 1
  | closing _ => -1
  | _ => 0

def height (ms : List Mark) : Int :=
  (ms.map Mark.height).sum

@[simp] theorem height_nil : height [] = 0 := rfl

@[simp] theorem height_cons (m : Mark) (ms : List Mark) :
    height (m :: ms) = m.height + height ms := by
  simp [height]

@[simp] theorem height_append (front back : List Mark) :
    height (front ++ back) = height front + height back := by
  simp [height]

theorem Mark.height_of_isLeaf {m : Mark} (h : m.isLeaf = true) : m.height = 0 := by
  cases m with
  | opening gate name =>
      cases h
  | closing name =>
      cases h
  | _ =>
      rfl

theorem Balanced.height_eq_zero {ms : List Mark} (h : Balanced ms) : height ms = 0 := by
  induction h with
  | nil =>
      rfl
  | leaf hm _ ih =>
      rw [height_cons, Mark.height_of_isLeaf hm, ih]
      rfl
  | block _ _ ihInner ihRest =>
      simp [Mark.height, ihInner, ihRest]

theorem Balanced.height_nonneg {ms : List Mark} (h : Balanced ms) :
    forall {front back : List Mark}, ms = front ++ back -> 0 ≤ height front := by
  induction h with
  | nil =>
      intro front back hms
      have hfront : front = [] := (List.append_eq_nil_iff.mp hms.symm).left
      rw [hfront]
      exact Int.le_refl 0
  | leaf hm _ ih =>
      intro front back hms
      cases front with
      | nil =>
          exact Int.le_refl 0
      | cons m front =>
          injection hms with hhead htail
          rw [height_cons, ← hhead, Mark.height_of_isLeaf hm, Int.zero_add]
          exact ih htail
  | block hinner _ ihInner ihRest =>
      intro front back hms
      cases front with
      | nil =>
          exact Int.le_refl 0
      | cons m front =>
          injection hms with hhead htail
          rw [height_cons, ← hhead]
          show 0 ≤ 1 + height front
          rcases List.append_eq_append_iff.mp htail with ⟨mid, hfront, hmid⟩ | ⟨mid, hin, _⟩
          · rw [hfront, height_append, hinner.height_eq_zero]
            cases mid with
            | nil =>
                simp
            | cons c mid =>
                injection hmid with hc hrest
                have hnonneg := ihRest hrest
                rw [height_cons, ← hc]
                simp only [Mark.height]
                omega
          · have hnonneg := ihInner hin
            omega

theorem Balanced.not_innermostOpen {ms : List Mark} {name : String} (h : Balanced ms) :
    ¬InnermostOpen ms name := by
  rintro ⟨front, gate, inner, hms, hinner⟩
  have hzero := h.height_eq_zero
  have hnonneg := h.height_nonneg hms
  rw [hms, height_append, height_cons, hinner.height_eq_zero] at hzero
  simp only [Mark.height] at hzero
  omega

theorem InnermostOpen.unique {ms : List Mark} {name other : String}
    (h : InnermostOpen ms name) (ho : InnermostOpen ms other) : name = other := by
  rcases h with ⟨front, gate, inner, hms, hinner⟩
  rcases ho with ⟨front', gate', inner', hms', hinner'⟩
  rw [hms] at hms'
  -- A later one of two different opening tags would lie inside the balanced marks behind the other.
  rcases List.append_eq_append_iff.mp hms' with ⟨mid, _, hmid⟩ | ⟨mid, _, hmid⟩
  · cases mid with
    | nil =>
        injection hmid with hhead _
        injection hhead
    | cons m mid =>
        injection hmid with _ htail
        exact absurd ⟨mid, gate', inner', htail, hinner'⟩ hinner.not_innermostOpen
  · cases mid with
    | nil =>
        injection hmid with hhead _
        injection hhead with _ hname
        exact hname.symm
    | cons m mid =>
        injection hmid with _ htail
        exact absurd ⟨mid, gate, inner, htail, hinner⟩ hinner'.not_innermostOpen

/-!
# Prefixes with matching closing tags
-/

theorem closesInnermost_nil : ClosesInnermost [] := by
  intro before name after h
  cases before <;> cases h

theorem ClosesInnermost.snoc {ms : List Mark} {m : Mark} (h : ClosesInnermost ms)
    (hm : forall name, m = .closing name -> InnermostOpen ms name) :
    ClosesInnermost (ms ++ [m]) := by
  intro before name after heq
  rcases List.append_eq_append_iff.mp heq with ⟨mid, hbefore, hmid⟩ | ⟨mid, hms, hmid⟩
  · cases mid with
    | nil =>
        injection hmid with hhead _
        rw [hbefore, List.append_nil]
        exact hm name hhead
    | cons c mid =>
        injection hmid with _ htail
        cases mid <;> cases htail
  · cases mid with
    | nil =>
        injection hmid with hhead _
        rw [hms, List.append_nil] at hm
        exact hm name hhead.symm
    | cons c mid =>
        injection hmid with hhead _
        apply h before name mid
        rw [hms, hhead]

theorem ClosesInnermost.snoc_other {ms : List Mark} {m : Mark} (h : ClosesInnermost ms)
    (hm : forall name, m ≠ .closing name) : ClosesInnermost (ms ++ [m]) := by
  apply h.snoc
  intro name hname
  exact absurd hname (hm name)

theorem ClosesInnermost.append_balanced {front back : List Mark} (hb : Balanced back) :
    ClosesInnermost front -> ClosesInnermost (front ++ back) := by
  induction hb generalizing front with
  | nil =>
      intro h
      rw [List.append_nil]
      exact h
  | @leaf m rest hm _ ih =>
      intro h
      rw [List.append_cons]
      apply ih
      apply h.snoc_other
      intro name hname
      rw [hname] at hm
      cases hm
  | @block gate name inner rest hinner _ ihInner ihRest =>
      intro h
      have hopen : ClosesInnermost (front ++ [.opening gate name]) := by
        apply h.snoc_other
        intro other hother
        cases hother
      have hclose :
          ClosesInnermost (front ++ [.opening gate name] ++ inner ++ [.closing name]) := by
        apply (ihInner hopen).snoc
        intro other hother
        injection hother with hname
        rw [← hname]
        exact ⟨front, gate, inner, by simp, hinner⟩
      have hall := ihRest hclose
      simpa using hall

theorem Balanced.closesInnermost {ms : List Mark} (h : Balanced ms) : ClosesInnermost ms :=
  closesInnermost_nil.append_balanced h

theorem FirstStray.not_closesInnermost {ms : List Mark} {name : String} (h : FirstStray ms name) :
    ¬ClosesInnermost ms := by
  rcases h with ⟨before, after, hms, _, hopen⟩
  intro hcloses
  exact hopen (hcloses before name after hms)

theorem FirstStray.unique {ms : List Mark} {name other : String}
    (h : FirstStray ms name) (ho : FirstStray ms other) : name = other := by
  rcases h with ⟨before, after, hms, hcloses, hopen⟩
  rcases ho with ⟨before', after', hms', hcloses', hopen'⟩
  rw [hms] at hms'
  rcases List.append_eq_append_iff.mp hms' with ⟨mid, hbefore, hmid⟩ | ⟨mid, hbefore, hmid⟩
  · cases mid with
    | nil =>
        injection hmid with hhead _
        injection hhead
    | cons m mid =>
        injection hmid with hhead _
        exact absurd (hcloses' before name mid (by rw [hbefore, hhead])) hopen
  · cases mid with
    | nil =>
        injection hmid with hhead _
        injection hhead with hname
        exact hname.symm
    | cons m mid =>
        injection hmid with hhead _
        exact absurd (hcloses before' other mid (by rw [hbefore, hhead])) hopen'

/-!
# The run of the parser

The marks that were read so far can be told from the open sections and the nodes
found in them.  Together with the marks still to come they are the same at every
step.
-/

/-- The marks read so far: those in front of each open section, its opening tag, and
those of the nodes of the innermost one. -/
def readSoFar : List Frame → List Node → List Mark
  | [], nodes => flattenNodes nodes.reverse
  | frame :: outer, nodes =>
      readSoFar outer frame.before ++ .opening frame.gate frame.name :: flattenNodes nodes.reverse

theorem readSoFar_node (stack : List Frame) (node : Node) (nodes : List Node) :
    readSoFar stack (node :: nodes) = readSoFar stack nodes ++ node.flatten := by
  cases stack with
  | nil =>
      exact flattenNodes_reverse_cons node nodes
  | cons frame outer =>
      rw [readSoFar, readSoFar, flattenNodes_reverse_cons, List.append_assoc, List.cons_append]

theorem readSoFar_opening (stack : List Frame) (nodes : List Node) (gate : Gate) (name : String) :
    readSoFar (⟨gate, name, nodes⟩ :: stack) [] = readSoFar stack nodes ++ [.opening gate name] :=
  rfl

theorem readSoFar_closing (frame : Frame) (outer : List Frame) (nodes : List Node) :
    readSoFar outer (.block frame.gate frame.name nodes.reverse :: frame.before) =
      readSoFar (frame :: outer) nodes ++ [.closing frame.name] := by
  rw [readSoFar_node, readSoFar, Node.flatten, List.append_assoc, List.cons_append]

theorem innermostOpen_readSoFar (frame : Frame) (outer : List Frame) (nodes : List Node) :
    InnermostOpen (readSoFar (frame :: outer) nodes) frame.name :=
  ⟨readSoFar outer frame.before, frame.gate, flattenNodes nodes.reverse, rfl,
    balanced_flattenNodes nodes.reverse⟩

theorem not_innermostOpen_readSoFar_nil (nodes : List Node) (name : String) :
    ¬InnermostOpen (readSoFar [] nodes) name :=
  (balanced_flattenNodes nodes.reverse).not_innermostOpen

def Explains (ms : List Mark) : Except Fault (List Node) → Prop
  | .ok tree => flattenNodes tree = ms
  | .error (.unexpectedClosing name) => FirstStray ms name
  | .error (.unclosed name) => ClosesInnermost ms ∧ InnermostOpen ms name

theorem explains_nestMarks (rest : List Mark) (stack : List Frame) (nodes : List Node)
    (h : ClosesInnermost (readSoFar stack nodes)) :
    Explains (readSoFar stack nodes ++ rest) (nestMarks stack nodes rest) := by
  induction rest generalizing stack nodes with
  | nil =>
      rw [List.append_nil]
      cases stack with
      | nil =>
          rfl
      | cons frame outer =>
          exact ⟨h, innermostOpen_readSoFar frame outer nodes⟩
  | cons m rest ih =>
      rw [List.append_cons]
      cases m with
      | text chars =>
          have hnext := ih stack (.text chars :: nodes)
          rw [readSoFar_node] at hnext
          exact hnext (h.snoc_other nofun)
      | var name =>
          have hnext := ih stack (.var name :: nodes)
          rw [readSoFar_node] at hnext
          exact hnext (h.snoc_other nofun)
      | raw name =>
          have hnext := ih stack (.raw name :: nodes)
          rw [readSoFar_node] at hnext
          exact hnext (h.snoc_other nofun)
      | opening gate name =>
          have hnext := ih (⟨gate, name, nodes⟩ :: stack) []
          rw [readSoFar_opening] at hnext
          exact hnext (h.snoc_other nofun)
      | closing name =>
          cases stack with
          | nil =>
              exact ⟨readSoFar [] nodes, rest, by simp, h,
                not_innermostOpen_readSoFar_nil nodes name⟩
          | cons frame outer =>
              have hinner := innermostOpen_readSoFar frame outer nodes
              rw [nestMarks]
              by_cases hname : frame.name = name
              · rw [if_pos hname, ← hname]
                have hnext := ih outer (.block frame.gate frame.name nodes.reverse :: frame.before)
                rw [readSoFar_closing] at hnext
                apply hnext
                apply h.snoc
                intro other hother
                injection hother with hsame
                rw [← hsame]
                exact hinner
              · rw [if_neg hname]
                refine ⟨readSoFar (frame :: outer) nodes, rest, by simp, h, ?_⟩
                intro hopen
                exact hname (hinner.unique hopen)

theorem explains_parse (source : String) : Explains (marks source) (parse source) := by
  rw [parse_eq_nestMarks]
  exact explains_nestMarks (marks source) [] [] closesInnermost_nil

/-!
# Which sources have a tree
-/

theorem parse_eq_ok_of_flattenNodes {source : String} {tree : List Node}
    (h : flattenNodes tree = marks source) : parse source = .ok tree := by
  have hrun := nestMarks_flattenNodes tree [] [] []
  rw [List.append_nil, List.append_nil, h] at hrun
  rw [parse_eq_nestMarks, hrun, nestMarks, List.reverse_reverse]

theorem flattenNodes_of_parse_eq_ok {source : String} {tree : List Node}
    (h : parse source = .ok tree) : flattenNodes tree = marks source := by
  have hexplains := explains_parse source
  rw [h] at hexplains
  exact hexplains

theorem exists_parse_iff_balanced (source : String) :
    (exists tree, parse source = .ok tree) <-> Balanced (marks source) := by
  constructor
  · rintro ⟨tree, hparse⟩
    rw [← flattenNodes_of_parse_eq_ok hparse]
    exact balanced_flattenNodes tree
  · intro hbalanced
    rcases exists_flattenNodes_of_balanced hbalanced with ⟨tree, htree⟩
    exact ⟨tree, parse_eq_ok_of_flattenNodes htree⟩

theorem parse_of_firstStray {source name : String} (h : FirstStray (marks source) name) :
    parse source = .error (.unexpectedClosing name) := by
  have hexplains := explains_parse source
  cases hparse : parse source with
  | ok tree =>
      have hbalanced := balanced_flattenNodes tree
      rw [flattenNodes_of_parse_eq_ok hparse] at hbalanced
      exact absurd hbalanced.closesInnermost h.not_closesInnermost
  | error fault =>
      rw [hparse] at hexplains
      cases fault with
      | unexpectedClosing other =>
          have hsame : other = name := FirstStray.unique hexplains h
          rw [hsame]
      | unclosed other =>
          exact absurd hexplains.left h.not_closesInnermost

theorem parse_of_innermostOpen {source name : String} (hc : ClosesInnermost (marks source))
    (h : InnermostOpen (marks source) name) : parse source = .error (.unclosed name) := by
  have hexplains := explains_parse source
  cases hparse : parse source with
  | ok tree =>
      have hbalanced := balanced_flattenNodes tree
      rw [flattenNodes_of_parse_eq_ok hparse] at hbalanced
      exact absurd h hbalanced.not_innermostOpen
  | error fault =>
      rw [hparse] at hexplains
      cases fault with
      | unexpectedClosing other =>
          exact absurd hc hexplains.not_closesInnermost
      | unclosed other =>
          have hsame : other = name := InnermostOpen.unique hexplains.right h
          rw [hsame]

/-- The pieces of a source are all of it.  It has a tree exactly if its marks are
balanced, namely the one with these marks; else the fault names the first stray closing
tag, or, where each closing tag matches, the innermost section left open. -/
theorem parse_accepts_exactly_balanced (source : String) :
    (scan source.toList).flatMap Piece.source = source.toList ∧
      ((exists tree, parse source = .ok tree) <-> Balanced (marks source)) ∧
      (forall tree, parse source = .ok tree <-> flattenNodes tree = marks source) ∧
      (forall name,
        parse source = .error (.unexpectedClosing name) <-> FirstStray (marks source) name) ∧
      (forall name,
        parse source = .error (.unclosed name) <->
          ClosesInnermost (marks source) ∧ InnermostOpen (marks source) name) := by
  refine ⟨flatMap_source_scan source.toList, exists_parse_iff_balanced source, ?_, ?_, ?_⟩
  · intro tree
    exact ⟨flattenNodes_of_parse_eq_ok, parse_eq_ok_of_flattenNodes⟩
  · intro name
    constructor
    · intro hparse
      have hexplains := explains_parse source
      rw [hparse] at hexplains
      exact hexplains
    · exact parse_of_firstStray
  · intro name
    constructor
    · intro hparse
      have hexplains := explains_parse source
      rw [hparse] at hexplains
      exact hexplains
    · rintro ⟨hc, hopen⟩
      exact parse_of_innermostOpen hc hopen

end Template
end Palette
