import Mathlib.Data.List.Infix
import Palette.Proofs.Template.Nesting
import Palette.Template.Render

/-!
# Rendering without a tree

A source can be rendered from its texts and tags alone: each of them gives its value if
all sections are open that stand around it, and nothing otherwise.
-/

namespace Palette
namespace Template

/-!
# The sections around a mark

A section stands around what follows its opening tag up to the closing tag that closes
it.  The sections that are not closed yet can be counted while the marks are read.
-/

/-- A section stands around what comes next if the closing tags behind its opening tag
close other sections. -/
def Encloses (front : List Mark) (gate : Gate) (name : String) : Prop :=
  exists before inner, front = before ++ .opening gate name :: inner ∧ ClosesInnermost inner

def Mark.track (sections : List (Gate × String)) : Mark → List (Gate × String)
  | opening gate name => (gate, name) :: sections
  | closing _ => sections.tail
  | _ => sections

/-- The sections that are not closed behind some marks, the innermost first. -/
def openSections (front : List Mark) : List (Gate × String) :=
  front.foldl Mark.track []

theorem openSections_concat (front : List Mark) (m : Mark) :
    openSections (front ++ [m]) = m.track (openSections front) :=
  List.foldl_concat Mark.track [] m front

theorem Mark.track_of_isLeaf {m : Mark} (hm : m.isLeaf = true) (sections : List (Gate × String)) :
    m.track sections = sections := by
  cases m with
  | opening gate name =>
      cases hm
  | closing name =>
      cases hm
  | _ =>
      rfl

inductive Leaves : List (Gate × String) → List Mark → Prop where
  | balanced {ms : List Mark} : Balanced ms → Leaves [] ms
  | opening {sections : List (Gate × String)} {ms inner : List Mark} {gate : Gate}
      {name : String} : Leaves sections ms → Balanced inner →
        Leaves ((gate, name) :: sections) (ms ++ .opening gate name :: inner)

theorem Leaves.append_balanced {sections : List (Gate × String)} {ms back : List Mark}
    (h : Leaves sections ms) (hback : Balanced back) : Leaves sections (ms ++ back) := by
  cases h with
  | balanced hms =>
      exact Leaves.balanced (hms.append hback)
  | opening hms hinner =>
      rw [List.append_assoc, List.cons_append]
      exact Leaves.opening hms (hinner.append hback)

theorem Leaves.append_closing {sections : List (Gate × String)} {ms : List Mark} {name : String}
    (h : Leaves sections ms) (hname : InnermostOpen ms name) :
    Leaves sections.tail (ms ++ [.closing name]) := by
  cases h with
  | balanced hms =>
      exact absurd hname hms.not_innermostOpen
  | @opening sections ms inner gate other hms hinner =>
      have hsame : other = name :=
        InnermostOpen.unique ⟨ms, gate, inner, rfl, hinner⟩ hname
      rw [hsame, List.append_assoc, List.cons_append]
      exact hms.append_balanced (Balanced.block hinner Balanced.nil)

theorem ClosesInnermost.of_append {front back : List Mark} (h : ClosesInnermost (front ++ back)) :
    ClosesInnermost front := by
  intro before name after hfront
  apply h before name (after ++ back)
  rw [hfront, List.append_assoc, List.cons_append]

theorem ClosesInnermost.snoc_opening {ms : List Mark} (h : ClosesInnermost ms) (gate : Gate)
    (name : String) : ClosesInnermost (ms ++ [.opening gate name]) := by
  apply h.snoc_other
  intro other hother
  cases hother

theorem leaves_openSections {ms : List Mark} (h : ClosesInnermost ms) :
    Leaves (openSections ms) ms := by
  induction ms using List.reverseRecOn with
  | nil =>
      exact Leaves.balanced Balanced.nil
  | append_singleton front m ih =>
      have hfront := ih h.of_append
      rw [openSections_concat]
      by_cases hm : m.isLeaf = true
      · rw [Mark.track_of_isLeaf hm]
        exact hfront.append_balanced (Balanced.leaf hm Balanced.nil)
      · cases m with
        | opening gate name =>
            exact Leaves.opening hfront Balanced.nil
        | closing name =>
            exact hfront.append_closing (h front name [] rfl)
        | text chars =>
            exact absurd rfl hm
        | var name =>
            exact absurd rfl hm
        | raw name =>
            exact absurd rfl hm

theorem Leaves.height_eq {sections : List (Gate × String)} {ms : List Mark}
    (h : Leaves sections ms) : height ms = sections.length := by
  induction h with
  | balanced hms =>
      exact hms.height_eq_zero
  | opening _ hinner ih =>
      rw [height_append, height_cons, hinner.height_eq_zero, ih, List.length_cons]
      rfl

theorem ClosesInnermost.height_nonneg {ms : List Mark} (h : ClosesInnermost ms) :
    0 ≤ height ms := by
  rw [(leaves_openSections h).height_eq]
  exact Int.natCast_nonneg _

theorem Leaves.closesInnermost {sections : List (Gate × String)} {ms : List Mark}
    (h : Leaves sections ms) : ClosesInnermost ms := by
  induction h with
  | balanced hms =>
      exact hms.closesInnermost
  | opening _ hinner ih =>
      rw [List.append_cons]
      exact (ih.snoc_opening _ _).append_balanced hinner

theorem Balanced.not_encloses {ms : List Mark} {gate : Gate} {name : String}
    (h : Balanced ms) : ¬Encloses ms gate name := by
  rintro ⟨before, inner, hms, hinner⟩
  have hzero := h.height_eq_zero
  have hbefore := h.height_nonneg hms
  have hback := hinner.height_nonneg
  rw [hms, height_append, height_cons] at hzero
  simp only [Mark.height] at hzero
  omega

theorem Leaves.encloses_of_mem {sections : List (Gate × String)} {ms : List Mark} {gate : Gate}
    {name : String} (h : Leaves sections ms) (hmem : (gate, name) ∈ sections) :
    Encloses ms gate name := by
  induction h with
  | balanced _ =>
      cases hmem
  | @opening sections ms inner innermost other _ hinner ih =>
      cases hmem with
      | head =>
          exact ⟨ms, inner, rfl, hinner.closesInnermost⟩
      | tail _ hmem =>
          rcases ih hmem with ⟨before, between, hms, hbetween⟩
          refine ⟨before, between ++ .opening innermost other :: inner, ?_, ?_⟩
          · rw [hms, List.append_assoc, List.cons_append]
          · rw [List.append_cons]
            exact (hbetween.snoc_opening innermost other).append_balanced hinner

theorem Leaves.mem_of_encloses {sections : List (Gate × String)} {ms : List Mark} {gate : Gate}
    {name : String} (h : Leaves sections ms) (hencloses : Encloses ms gate name) :
    (gate, name) ∈ sections := by
  induction h with
  | balanced hms =>
      exact absurd hencloses hms.not_encloses
  | @opening sections ms inner innermost other _ hinner ih =>
      rcases hencloses with ⟨before, between, hms, hbetween⟩
      rcases List.append_eq_append_iff.mp hms with ⟨mid, hbefore, hmid⟩ | ⟨mid, hfront, hmid⟩
      · cases mid with
        | nil =>
            injection hmid with hhead _
            injection hhead with hgate hname
            rw [hgate, hname]
            exact List.mem_cons_self
        | cons m mid =>
            injection hmid with _ htail
            exact absurd ⟨mid, between, htail, hbetween⟩ hinner.not_encloses
      · cases mid with
        | nil =>
            injection hmid with hhead _
            injection hhead with hgate hname
            rw [hgate, hname]
            exact List.mem_cons_self
        | cons m mid =>
            injection hmid with hhead htail
            rw [htail] at hbetween
            rw [← hhead] at hfront
            exact List.mem_cons_of_mem _ (ih ⟨before, mid, hfront, hbetween.of_append⟩)

theorem mem_openSections_iff {front : List Mark} (h : ClosesInnermost front) (gate : Gate)
    (name : String) : (gate, name) ∈ openSections front <-> Encloses front gate name := by
  constructor
  · exact (leaves_openSections h).encloses_of_mem
  · exact (leaves_openSections h).mem_of_encloses

/-!
# The value of each mark
-/

/-- What a mark gives where it is shown.  A field that is not found gives nothing. -/
def Mark.value (context : Context) : Mark → Phrase
  | text chars => Phrase.ofChars chars
  | var name =>
      match context.renderField name with
      | some value => escape value
      | none => []
  | raw name =>
      match context.renderField name with
      | some value => value
      | none => []
  | opening _ _ => []
  | closing _ => []

theorem Mark.value_var (context : Context) (name : String) :
    (var name).value context = renderNode context (.var name) := by
  rw [value, renderNode, Context.rawValue]
  cases context.renderField name with
  | none =>
      rfl
  | some value =>
      rfl

theorem Mark.value_raw (context : Context) (name : String) :
    (raw name).value context = renderNode context (.raw name) := by
  rw [value, renderNode, Context.rawValue]
  cases context.renderField name with
  | none =>
      rfl
  | some value =>
      rfl

def allOpen (context : Context) (sections : List (Gate × String)) : Bool :=
  sections.all fun (gate, name) => context.opens gate name

def contribution (context : Context) (front : List Mark) (m : Mark) : Phrase :=
  if allOpen context (openSections front) then m.value context else []

def flatRender (context : Context) (ms : List Mark) : Phrase :=
  (ms.inits.zip ms).flatMap fun (front, m) => contribution context front m

/-- The marks that are shown. -/
def shown (context : Context) (ms : List Mark) : List Mark :=
  ((ms.inits.zip ms).filter fun (front, _) => allOpen context (openSections front)).map Prod.snd

theorem flatRender_eq_shown (context : Context) (ms : List Mark) :
    flatRender context ms = (shown context ms).flatMap (Mark.value context) := by
  rw [flatRender, shown]
  generalize ms.inits.zip ms = places
  induction places with
  | nil =>
      rfl
  | cons place rest ih =>
      cases place with
      | mk front m =>
          rw [List.flatMap_cons, ih]
          by_cases hopen : allOpen context (openSections front) = true
          · simp [contribution, hopen]
          · simp [contribution, hopen]

theorem shown_sublist (context : Context) (ms : List Mark) :
    (shown context ms).Sublist ms := by
  have hsecond : (ms.inits.zip ms).map Prod.snd = ms := by
    apply List.map_snd_zip
    rw [List.length_inits]
    exact Nat.le_succ ms.length
  conv => rhs; rw [← hsecond]
  exact List.filter_sublist.map Prod.snd

/-!
# The run over the marks

The sections that are open go along with the marks.
-/

def renderMarks (context : Context) (sections : List (Gate × String)) : List Mark → Phrase
  | [] => []
  | m :: rest =>
      (if allOpen context sections then m.value context else []) ++
        renderMarks context (m.track sections) rest

theorem flatMap_inits_eq_renderMarks (context : Context) (front ms : List Mark) :
    ((ms.inits.map (front ++ ·)).zip ms).flatMap (fun (before, m) =>
        contribution context before m) =
      renderMarks context (openSections front) ms := by
  induction ms generalizing front with
  | nil =>
      rfl
  | cons m rest ih =>
      have hfront : (front ++ ·) ∘ (m :: ·) = (front ++ [m] ++ ·) := by
        funext before
        exact List.append_cons front m before
      have hnext := ih (front ++ [m])
      rw [openSections_concat] at hnext
      rw [List.inits_cons, List.map_cons, List.map_map, hfront, List.zip_cons_cons,
        List.flatMap_cons, hnext, List.append_nil]
      rfl

theorem flatRender_eq_renderMarks (context : Context) (ms : List Mark) :
    flatRender context ms = renderMarks context [] ms := by
  have hrun := flatMap_inits_eq_renderMarks context [] ms
  simp only [List.nil_append, List.map_id'] at hrun
  exact hrun

section Runs

variable (context : Context)

mutual

theorem renderMarks_flatten (node : Node) (sections : List (Gate × String)) (rest : List Mark) :
    renderMarks context sections (node.flatten ++ rest) =
      (if allOpen context sections then renderNode context node else []) ++
        renderMarks context sections rest := by
  cases node with
  | text chars =>
      rfl
  | var name =>
      rw [← Mark.value_var]
      rfl
  | raw name =>
      rw [← Mark.value_raw]
      rfl
  | block gate name children =>
      have hinner : allOpen context ((gate, name) :: sections) =
          (context.opens gate name && allOpen context sections) := rfl
      rw [Node.flatten, List.cons_append, List.cons_append, renderMarks, Mark.track,
        List.append_assoc, renderMarks_flattenNodes children, List.singleton_append, renderMarks,
        Mark.track, List.tail_cons, Mark.value, Mark.value, ite_self, ite_self, List.nil_append,
        List.nil_append, hinner, renderNode]
      cases context.opens gate name with
      | false =>
          rw [Bool.false_and, if_neg Bool.false_ne_true, ite_self]
      | true =>
          rw [Bool.true_and, if_pos rfl]

theorem renderMarks_flattenNodes (tree : List Node) (sections : List (Gate × String))
    (rest : List Mark) :
    renderMarks context sections (flattenNodes tree ++ rest) =
      (if allOpen context sections then renderNodes context tree else []) ++
        renderMarks context sections rest := by
  cases tree with
  | nil =>
      rw [flattenNodes, renderNodes, ite_self]
      rfl
  | cons node more =>
      rw [flattenNodes, List.append_assoc, renderMarks_flatten node, renderMarks_flattenNodes more,
        renderNodes, ← List.append_assoc]
      split
      · rfl
      · rfl

end

end Runs

theorem renderNodes_eq_flatRender (context : Context) (tree : List Node) :
    renderNodes context tree = flatRender context (flattenNodes tree) := by
  have hrun := renderMarks_flattenNodes context tree [] []
  rw [List.append_nil] at hrun
  rw [flatRender_eq_renderMarks, hrun]
  exact (List.append_nil _).symm

/-- A source that has a tree is rendered piece by piece.  A text or a tag gives its value
if every section that encloses it is open, and nothing otherwise, so each of them comes
up at most once and in the order of the source. -/
theorem render_eq_flatRender {source : String} {tree : List Node} (h : parse source = .ok tree)
    (context : Context) :
    render source context = .ok (flatRender context (marks source)) ∧
      (forall front m back, marks source = front ++ m :: back -> forall gate name,
        (gate, name) ∈ openSections front <-> Encloses front gate name) ∧
      flatRender context (marks source) =
        (shown context (marks source)).flatMap (Mark.value context) ∧
      (shown context (marks source)).Sublist (marks source) := by
  have hmarks := flattenNodes_of_parse_eq_ok h
  have hcloses : ClosesInnermost (marks source) := by
    rw [← hmarks]
    exact (balanced_flattenNodes tree).closesInnermost
  refine ⟨?_, ?_, flatRender_eq_shown context (marks source),
    shown_sublist context (marks source)⟩
  · rw [render, h, ← hmarks, ← renderNodes_eq_flatRender]
  · intro front m back hsplit gate name
    rw [hsplit] at hcloses
    exact mem_openSections_iff hcloses.of_append gate name

def nestedSource : String :=
  "\x7b\x7b#a\x7d\x7d\x7b\x7b^b\x7d\x7d\x7b\x7bc\x7d\x7d\x7b\x7b/b\x7d\x7d\x7b\x7b/a\x7d\x7d"

theorem render_eq_flatRender_of_nested :
    parse nestedSource = .ok [.block .found "a" [.block .missing "b" [.var "c"]]] ∧
      render nestedSource ⟨fun _ => some (Phrase.ofChars ['<']), fun name => name == "a"⟩ =
        .ok (Phrase.ofChars ['&', 'l', 't', ';']) := by
  have hparse : parse nestedSource = .ok [.block .found "a" [.block .missing "b" [.var "c"]]] :=
    parse_eq_ok_of_flattenNodes (by decide +kernel)
  refine ⟨hparse, ?_⟩
  rw [(render_eq_flatRender hparse _).left]
  exact congrArg Except.ok (by decide +kernel)

end Template
end Palette
