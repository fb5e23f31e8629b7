import Palette.Proofs.Template.Printing

/-!
# Spellings of tags

A tag is written with blanks around its name.  Where the name itself is all blank it stands in
triple braces, and the last of the blanks there is the name.
-/

namespace Palette
namespace Template

def AllBlank (s : List Char) : Prop :=
  forall c, c ∈ s -> Text.isBlank c = true

instance (s : List Char) : Decidable (AllBlank s) :=
  decidable_of_iff (s.all Text.isBlank = true) List.all_eq_true

theorem allBlank_append_iff {s t : List Char} :
    AllBlank (s ++ t) <-> AllBlank s ∧ AllBlank t :=
  List.forall_mem_append

theorem AllBlank.append {s t : List Char} (hs : AllBlank s) (ht : AllBlank t) :
    AllBlank (s ++ t) :=
  allBlank_append_iff.mpr ⟨hs, ht⟩

def Form.sigil : Form → List Char
  | escaped => []
  | raw => ['&']
  | triple => []
  | opening gate => gate.sigil
  | closing => ['/']
  | comment => ['!']

def Form.opener : Form → List Char
  | triple => ['{', '{', '{']
  | _ => ['{', '{']

def Form.closer : Form → List Char
  | triple => ['}', '}', '}']
  | _ => ['}', '}']

/-- What a tag is written as, with blanks around its name. -/
def Tag.spelling (tag : Tag) (gap tail : List Char) : List Char :=
  tag.form.opener ++ (tag.form.sigil ++ (gap ++ (tag.name.toList ++ (tail ++ tag.form.closer))))

/-!
# Parts of spellings
-/

theorem isBrace_of_isBlank {c : Char} (h : Text.isBlank c = true) : isBrace c = false := by
  by_contra hbrace
  rw [Bool.not_eq_false, isBrace, Bool.or_eq_true, beq_iff_eq, beq_iff_eq] at hbrace
  rcases hbrace with rfl | rfl <;> cases h

theorem isBlank_of_mem_sigils {c : Char} (h : c ∈ sigils) : Text.isBlank c = false := by
  have hsolid : sigils.all (!Text.isBlank ·) = true := by decide
  simpa using List.all_eq_true.mp hsolid c h

theorem not_mem_sigils_of_isBlank {c : Char} (h : Text.isBlank c = true) : c ∉ sigils := by
  intro hc
  rw [isBlank_of_mem_sigils hc] at h
  cases h

theorem Form.formOf?_sigil {form : Form} (h : form ≠ .triple) :
    formOf? form.sigil = some form := by
  cases form with
  | triple =>
      exact absurd rfl h
  | opening gate =>
      exact formOf?_gate gate
  | _ =>
      rfl

theorem Form.eq_sigil {form : Form} {sigil : List Char} (h : formOf? sigil = some form) :
    sigil = form.sigil ∧ form ≠ .triple := by
  unfold formOf? at h
  split at h
  case h_7 =>
    cases h
  all_goals
    cases h
    exact ⟨rfl, nofun⟩

theorem Form.opener_of_ne {form : Form} (h : form ≠ .triple) : form.opener = ['{', '{'] := by
  cases form with
  | triple =>
      exact absurd rfl h
  | _ =>
      rfl

theorem Form.closer_of_ne {form : Form} (h : form ≠ .triple) : form.closer = ['}', '}'] := by
  cases form with
  | triple =>
      exact absurd rfl h
  | _ =>
      rfl

theorem exists_of_blanks_append {gap s front back : List Char} (hgap : AllBlank gap)
    (h : gap ++ s = front ++ back) (hback : forall c, c ∈ back.head? -> Text.isBlank c = false) :
    exists more, front = gap ++ more ∧ s = more ++ back := by
  rcases List.append_eq_append_iff.mp h with ⟨more, hfront, hs⟩ | ⟨more, hmore, hs⟩
  · exact ⟨more, hfront, hs⟩
  · cases more with
    | nil =>
        exact ⟨[], by rw [hmore]; simp, hs.symm⟩
    | cons c more =>
        have hblank := hgap c (by rw [hmore]; simp)
        rw [hback c (by rw [hs]; rfl)] at hblank
        cases hblank

theorem allBlank_or_exists (s : List Char) :
    AllBlank s ∨ exists gap c cs, s = gap ++ c :: cs ∧ AllBlank gap ∧ Text.isBlank c = false := by
  have hsplit := (List.takeWhile_append_dropWhile (p := Text.isBlank) (l := s)).symm
  have hgap := List.all_eq_true.mp (List.all_takeWhile (p := Text.isBlank) (l := s))
  have hstop := List.head?_dropWhile_not Text.isBlank s
  cases hdrop : s.dropWhile Text.isBlank with
  | nil =>
      left
      rw [hdrop, List.append_nil] at hsplit
      rw [hsplit]
      exact hgap
  | cons c cs =>
      right
      rw [hdrop] at hsplit hstop
      exact ⟨_, c, cs, hsplit, hgap, hstop⟩

theorem trimEnd_cons_of_solid {c : Char} (hc : Text.isBlank c = false) (cs : List Char) :
    Text.trimEnd (c :: cs) = c :: Text.trimEnd cs :=
  Text.trimEndOf_cons_of_exists ⟨c, List.mem_cons_self, hc⟩

/-!
# Spellings of tags
-/

section

variable {tag : Tag} {gap tail : List Char} (hname : IsTagName tag.name.toList)
  (hgap : AllBlank gap) (htail : AllBlank tail)

include hname htail

theorem trimEnd_name_append : Text.trimEnd (tag.name.toList ++ tail) = tag.name.toList := by
  rw [Text.trimEnd, Text.trimEndOf_append_of_all _ htail]
  exact hname.trimEnd_eq

include hgap

theorem isBrace_of_mem_name {c : Char} (hc : c ∈ gap ++ (tag.name.toList ++ tail)) :
    isBrace c = false := by
  rw [List.mem_append, List.mem_append] at hc
  rcases hc with hc | hc | hc
  · exact isBrace_of_isBlank (hgap c hc)
  · exact hname.unbraced c hc
  · exact isBrace_of_isBlank (htail c hc)

theorem tripleName_name (hne : tag.name ≠ "") :
    tripleName (gap ++ (tag.name.toList ++ tail)) = tag.name.toList := by
  have htrim := trimEnd_name_append hname htail
  cases hchars : tag.name.toList with
  | nil =>
      exact absurd (String.toList_eq_nil_iff.mp hchars) hne
  | cons c more =>
      have hc := hname.starts c (by rw [hchars]; rfl)
      rw [hchars, List.cons_append, trimEnd_cons_of_solid hc] at htrim
      rw [List.cons_append, tripleName_of_solid hgap hc]
      exact htrim

theorem reads_spelling (hne : tag.name ≠ "")
    (hunsigned : tag.form.sigil = [] ->
      forall c, c ∈ (gap ++ tag.name.toList).head? -> c ∉ sigils) :
    Reads tag (tag.spelling gap tail) := by
  have hinside : forall c, c ∈ gap ++ (tag.name.toList ++ tail) -> isBrace c = false :=
    fun c hc => isBrace_of_mem_name hname hgap htail hc
  have hchars : tag.name.toList ≠ [] := mt String.toList_eq_nil_iff.mp hne
  by_cases hform : tag.form = .triple
  · have hsource : '{' :: '{' :: '{' :: (gap ++ (tag.name.toList ++ tail) ++ ['}', '}', '}']) =
        tag.spelling gap tail := by
      simp [Tag.spelling, hform, Form.opener, Form.sigil, Form.closer]
    have hreads := reads_triple (by simp [hne]) hinside
    rw [tripleName_name hname hgap htail hne, String.ofList_toList, hsource, ← hform] at hreads
    exact hreads
  · have hplain : forall c, c ∈ tag.name.toList ++ tail -> isBrace c = false :=
      fun c hc => hinside c (List.mem_append_right gap hc)
    have hdouble : IsDouble tag.form tag.form.sigil gap (tag.name.toList ++ tail) := by
      refine ⟨Form.formOf?_sigil hform, ?_, hgap, ?_, beforeClosing?_append hplain []⟩
      · intro hsigil c hc
        have happend := List.append_ne_nil_of_right_ne_nil gap hchars
        rw [← List.append_assoc, List.head?_append_of_ne_nil _ happend] at hc
        exact hunsigned hsigil c hc
      · intro c hc
        rw [List.head?_append_of_ne_nil _ hchars] at hc
        exact hname.starts c hc
    have hsource : '{' :: '{' ::
        (tag.form.sigil ++ (gap ++ (tag.name.toList ++ tail ++ ['}', '}']))) =
          tag.spelling gap tail := by
      simp [Tag.spelling, Form.opener_of_ne hform, Form.closer_of_ne hform]
    have hreads := hdouble.reads (hdouble.head?_ne hplain)
    rw [trimEnd_name_append hname htail, String.ofList_toList, hsource] at hreads
    exact hreads

end

/-!
# Blank names
-/

def blankTag (inside : List Char) : Tag :=
  ⟨.triple, String.ofList inside.getLast?.toList⟩

theorem blankTag_append (front : List Char) {last : List Char} (hne : last ≠ []) :
    blankTag (front ++ last) = blankTag last := by
  rw [blankTag, List.getLast?_append_of_ne_nil _ hne, blankTag]

theorem allBlank_blankTag {inside : List Char} (h : AllBlank inside) :
    AllBlank (blankTag inside).name.toList := by
  rw [blankTag, String.toList_ofList]
  intro c hc
  rw [Option.mem_toList] at hc
  exact h c (List.mem_of_getLast? hc)

theorem tripleName_of_allBlank {inside : List Char} (hne : inside ≠ []) (h : AllBlank inside) :
    tripleName inside = inside.getLast?.toList := by
  rcases List.eq_nil_or_concat inside with hnil | ⟨front, d, hinside⟩
  · exact absurd hnil hne
  · rw [List.concat_eq_append] at hinside
    rw [hinside] at h ⊢
    rw [tripleName_of_blanks h, List.getLast?_concat]
    rfl

/-!
# Tags and their spellings
-/

theorem Spells.exists_spelling {tag : Tag} {source : List Char} (h : Spells tag source)
    (hunbraced : forall c, c ∈ tag.name.toList -> isBrace c = false)
    (hsolid : ¬AllBlank tag.name.toList) :
    IsTagName tag.name.toList ∧
      exists gap tail, AllBlank gap ∧ AllBlank tail ∧ source = tag.spelling gap tail := by
  cases h with
  | @double form sigil gap inside hparts =>
      rcases Form.eq_sigil hparts.form with ⟨rfl, hform⟩
      rcases Text.exists_trimEnd_append inside with ⟨tail, hinside, htail⟩
      rw [String.toList_ofList] at hunbraced hsolid ⊢
      refine ⟨⟨hunbraced, ?_, fun c => Text.getLast?_trimEndOf⟩, gap, tail, hparts.gap, htail, ?_⟩
      · intro c hc
        apply hparts.starts c
        rw [hinside, List.head?_append, Option.mem_def.mp hc]
        rfl
      · rw [Tag.spelling, Form.opener_of_ne hform, Form.closer_of_ne hform, String.toList_ofList,
          ← List.append_assoc (Text.trimEnd inside), ← hinside]
        rfl
  | @triple inside hne hinside =>
      rw [String.toList_ofList] at hunbraced hsolid ⊢
      rcases allBlank_or_exists inside with hblank | ⟨gap, c, cs, rfl, hgap, hc⟩
      · have hlast := allBlank_blankTag hblank
        rw [blankTag, String.toList_ofList, ← tripleName_of_allBlank hne hblank] at hlast
        exact absurd hlast hsolid
      · have hname := (tripleName_of_solid hgap hc cs).trans (trimEnd_cons_of_solid hc cs).symm
        rcases Text.exists_trimEnd_append (c :: cs) with ⟨tail, hsplit, htail⟩
        rw [hname] at hunbraced hsolid ⊢
        refine ⟨⟨hunbraced, ?_, fun d => Text.getLast?_trimEndOf⟩, gap, tail, hgap, htail, ?_⟩
        · intro d hd
          rw [trimEnd_cons_of_solid hc] at hd
          injection hd with hd
          rw [← hd]
          exact hc
        · rw [Tag.spelling, String.toList_ofList, ← List.append_assoc (Text.trimEnd (c :: cs)),
            ← hsplit]
          simp [Form.opener, Form.sigil, Form.closer]

theorem Spells.exists_blanks {tag : Tag} {source : List Char} (h : Spells tag source)
    (hne : tag.name ≠ "") (hblank : AllBlank tag.name.toList) :
    exists inside, inside ≠ [] ∧ AllBlank inside ∧ tag = blankTag inside ∧
      source = inTriple inside := by
  cases h with
  | @double form sigil gap inside hparts =>
      rw [String.toList_ofList] at hblank
      cases inside with
      | nil =>
          exact absurd rfl hne
      | cons c cs =>
          have hc := hparts.starts c rfl
          rw [trimEnd_cons_of_solid hc] at hblank
          rw [hblank c List.mem_cons_self] at hc
          cases hc
  | @triple inside hinside _ =>
      rw [String.toList_ofList] at hblank
      rcases allBlank_or_exists inside with hall | ⟨gap, c, cs, rfl, hgap, hc⟩
      · refine ⟨inside, hinside, hall, ?_, rfl⟩
        rw [blankTag, tripleName_of_allBlank hinside hall]
      · rw [tripleName_of_solid hgap hc] at hblank
        rw [hblank c List.mem_cons_self] at hc
        cases hc

theorem reads_inTriple {inside : List Char} (hne : inside ≠ []) (hinside : AllBlank inside) :
    Reads (blankTag inside) (inTriple inside) := by
  have hreads := reads_triple hne fun c hc => isBrace_of_isBlank (hinside c hc)
  rw [tripleName_of_allBlank hne hinside] at hreads
  exact hreads

end Template
end Palette
