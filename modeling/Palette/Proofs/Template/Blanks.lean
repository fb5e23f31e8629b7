import Palette.Proofs.Template.Dependence
import Palette.Proofs.Template.Seams
import Palette.Proofs.Template.Spellings

/-!
# Blanks in tags

Blanks around the name of a tag do not count, behind its sigil as in front of its closing braces.
But a sigil stands right behind the opening braces: with blanks in front of it, it is the first
character of a name.  And of a name in triple braces that is all blank the last blank counts.
-/

namespace Palette
namespace Template

structure Tag.IsNamed (tag : Tag) : Prop where
  form : tag.form ≠ .comment
  nonempty : tag.name ≠ ""
  unbraced : forall c, c ∈ tag.name.toList -> isBrace c = false
  unsigned : forall c, c ∈ tag.name.toList.head? -> c ∉ sigils

theorem Tag.isNamed_iff (tag : Tag) :
    tag.IsNamed <->
      tag.form ≠ .comment ∧ tag.name ≠ "" ∧ tag.name.toList.all (!isBrace ·) = true ∧
        tag.name.toList.head?.all (decide <| · ∉ sigils) = true := by
  simp only [List.all_eq_true, Option.all_eq_true, Bool.not_eq_true', decide_eq_true_eq]
  exact ⟨fun h => ⟨h.form, h.nonempty, h.unbraced, h.unsigned⟩,
    fun h => ⟨h.left, h.right.left, h.right.right.left, h.right.right.right⟩⟩

instance (tag : Tag) : Decidable tag.IsNamed :=
  decidable_of_iff _ tag.isNamed_iff.symm

/-- A place in the source of a tag. -/
inductive Place where
  | behindBraces
  | beforeName
  | beforeBraces

def Place.Cuts (tag : Tag) (left right : List Char) : Place → Prop
  | behindBraces => left = tag.form.opener
  | beforeName =>
      exists gap more tail, AllBlank (gap ++ more) ∧
        left = tag.form.opener ++ (tag.form.sigil ++ gap) ∧
        right = more ++ (tag.name.toList ++ tail)
  | beforeBraces => right = tag.form.closer

/-- Whether blanks at a place leave a tag as it is. -/
def Place.Keeps (tag : Tag) (blanks : List Char) : Place → Prop
  | behindBraces => tag.form.sigil = []
  | beforeName => True
  | beforeBraces => AllBlank tag.name.toList -> blanks.getLast?.toList = tag.name.toList

/-- The source with blanks put at a place of one of its tags. -/
structure Pads (source : String) (tag : Tag) (place : Place) (blanks : List Char)
    (padded : String) : Prop where
  named : tag.IsNamed
  nonempty : blanks ≠ []
  blank : AllBlank blanks
  cut : exists front left right back,
    scan source.toList = front ++ .tag tag (left ++ right) :: back ∧
      place.Cuts tag left right ∧
      padded.toList =
        front.flatMap Piece.source ++ (left ++ (blanks ++ right) ++ back.flatMap Piece.source)

/-!
# Blanks at a place

A tag with blanks at a place is the same tag, a variable whose name starts with the sigil, or a
tag with another blank name.
-/

def Tag.signed (tag : Tag) (gap : List Char) : Tag :=
  ⟨.escaped, String.ofList (tag.form.sigil ++ (gap ++ tag.name.toList))⟩

/-- What a tag is with blanks put at a place of it. -/
inductive Becomes (place : Place) (tag : Tag) (blanks : List Char) : Tag → Prop
  | same (h : place.Keeps tag blanks) : Becomes place tag blanks tag
  | signed {gap : List Char} (hplace : place = .behindBraces) (hsigil : tag.form.sigil ≠ [])
      (hgap : AllBlank gap) :
      Becomes place tag blanks (tag.signed gap)
  | blank (hform : tag.form = .triple) (h : ¬place.Keeps tag blanks) :
      Becomes place tag blanks (blankTag blanks)

theorem Form.sigil_cases (form : Form) :
    form.sigil = [] ∨ exists c, c ∈ sigils ∧ form.sigil = [c] := by
  cases form with
  | escaped =>
      exact .inl rfl
  | triple =>
      exact .inl rfl
  | opening gate =>
      cases gate <;> exact .inr ⟨_, by decide, rfl⟩
  | _ =>
      exact .inr ⟨_, by decide, rfl⟩

theorem head_not_mem_sigils {gap chars : List Char} (hgap : AllBlank gap)
    (h : gap = [] -> forall c, c ∈ chars.head? -> c ∉ sigils) :
    forall c, c ∈ (gap ++ chars).head? -> c ∉ sigils := by
  cases gap with
  | nil =>
      exact h rfl
  | cons d gap =>
      intro c hc
      injection hc with hc
      rw [← hc]
      exact not_mem_sigils_of_isBlank (hgap d List.mem_cons_self)

theorem isTagName_sigil {c : Char} {gap name : List Char} (hc : c ∈ sigils)
    (hgap : AllBlank gap) (hname : IsTagName name) (hne : name ≠ []) :
    IsTagName (c :: (gap ++ name)) := by
  have hsigils : sigils.all (!isBrace ·) = true := by decide
  refine ⟨?_, ?_, ?_⟩
  · intro d hd
    rw [List.mem_cons, List.mem_append] at hd
    rcases hd with rfl | hd | hd
    · simpa using List.all_eq_true.mp hsigils d hc
    · exact isBrace_of_isBlank (hgap d hd)
    · exact hname.unbraced d hd
  · intro d hd
    injection hd with hd
    rw [← hd]
    exact isBlank_of_mem_sigils hc
  · intro d hd
    rw [← List.cons_append, List.getLast?_append_of_ne_nil _ hne] at hd
    exact hname.ends d hd

/-!
# Blanks in blank names
-/

section

variable {place : Place} {left right inside blanks : List Char} (hinside : inside ≠ [])
  (hall : AllBlank inside) (hcuts : place.Cuts (blankTag inside) left right)
  (hsource : left ++ right = inTriple inside)

include hinside hall hcuts hsource

theorem exists_split_of_cuts :
    exists front last, inside = front ++ last ∧ left = Form.triple.opener ++ front ∧
      right = last ++ Form.triple.closer ∧ (last = [] <-> place = .beforeBraces) := by
  have hsplit : inTriple inside = Form.triple.opener ++ (inside ++ Form.triple.closer) := rfl
  cases place with
  | behindBraces =>
      rw [Place.Cuts] at hcuts
      rw [hcuts, hsplit] at hsource
      refine ⟨[], inside, rfl, by rw [hcuts]; rfl, List.append_cancel_left hsource, ?_⟩
      exact ⟨fun h => absurd h hinside, nofun⟩
  | beforeName =>
      rcases hcuts with ⟨front, more, behind, hfront, rfl, rfl⟩
      have hstart : forall c, c ∈ Form.triple.closer.head? -> Text.isBlank c = false := by
        intro c hc
        cases hc
        rfl
      rcases allBlank_append_iff.mp hfront with ⟨hgap, hmore⟩
      rw [hsplit] at hsource
      have hparts := List.append_cancel_left ((List.append_assoc _ _ _).symm.trans hsource)
      rcases exists_of_blanks_append hgap hparts hstart with ⟨last, hfirst, hlast⟩
      refine ⟨front, last, hfirst, rfl, hlast, fun hnil => ?_, nofun⟩
      rw [hnil, ← List.append_assoc] at hlast
      have hname := hmore.append (allBlank_blankTag hall)
      rcases exists_of_blanks_append hname hlast hstart with ⟨_, hnone, _⟩
      have hempty := (List.append_eq_nil_iff.mp (List.append_eq_nil_iff.mp hnone.symm).left).right
      rw [blankTag, String.toList_ofList, Option.toList_eq_nil_iff, List.getLast?_eq_none_iff]
        at hempty
      exact absurd hempty hinside
  | beforeBraces =>
      rw [Place.Cuts] at hcuts
      rw [hcuts, hsplit, ← List.append_assoc] at hsource
      refine ⟨inside, [], (List.append_nil inside).symm, ?_, hcuts, fun _ => rfl, fun _ => rfl⟩
      exact List.append_cancel_right hsource

theorem becomes_of_blank (hblanks : AllBlank blanks) (hne : blanks ≠ []) :
    exists other, Becomes place (blankTag inside) blanks other ∧
      Reads other (left ++ (blanks ++ right)) := by
  rcases exists_split_of_cuts hinside hall hcuts hsource with
    ⟨front, last, rfl, rfl, rfl, hlast⟩
  rcases allBlank_append_iff.mp hall with ⟨hfront, hback⟩
  have hpadded : Form.triple.opener ++ front ++ (blanks ++ (last ++ Form.triple.closer)) =
      inTriple (front ++ (blanks ++ last)) := by
    simp [Form.opener, Form.closer, inTriple]
  have hsome : blanks ++ last ≠ [] := List.append_ne_nil_of_left_ne_nil hne last
  have hreads := reads_inTriple (List.append_ne_nil_of_right_ne_nil front hsome)
    (hfront.append (hblanks.append hback))
  rw [hpadded]
  by_cases hnil : last = []
  · subst hnil
    have hplace := hlast.mp rfl
    rw [List.append_nil, blankTag_append front hne] at hreads
    rw [List.append_nil, List.append_nil]
    refine ⟨blankTag blanks, ?_, hreads⟩
    by_cases hkeeps : place.Keeps (blankTag front) blanks
    · have hsame : blankTag blanks = blankTag front := by
        rw [hplace] at hkeeps
        rw [blankTag, hkeeps (allBlank_blankTag hfront), String.ofList_toList]
        rfl
      rw [hsame]
      exact .same hkeeps
    · exact .blank rfl hkeeps
  · rw [blankTag_append front hsome, blankTag_append blanks hnil] at hreads
    rw [blankTag_append front hnil]
    refine ⟨blankTag last, .same ?_, hreads⟩
    cases place with
    | behindBraces =>
        rfl
    | beforeName =>
        exact trivial
    | beforeBraces =>
        exact absurd (hlast.mpr rfl) hnil

end

/-!
# Blanks around names
-/

section

variable {place : Place} {tag : Tag} {left right gap tail blanks : List Char}
  (hname : IsTagName tag.name.toList) (hne : tag.name ≠ "") (hgap : AllBlank gap)
  (htail : AllBlank tail) (hcuts : place.Cuts tag left right)
  (hsource : left ++ right = tag.spelling gap tail) (hblanks : AllBlank blanks)

include hname hne hgap htail hcuts hsource hblanks

theorem exists_spelling_of_cuts (hplace : place = .behindBraces -> tag.form.sigil = []) :
    exists front back, AllBlank front ∧ AllBlank back ∧
      left ++ (blanks ++ right) = tag.spelling front back := by
  cases place with
  | behindBraces =>
      rw [Place.Cuts] at hcuts
      rw [hcuts, Tag.spelling] at hsource
      refine ⟨blanks ++ gap, tail, hblanks.append hgap, htail, ?_⟩
      rw [hcuts, List.append_cancel_left hsource, Tag.spelling, hplace rfl]
      simp
  | beforeName =>
      rcases hcuts with ⟨front, more, rest, hfront, rfl, _⟩
      rw [Tag.spelling, List.append_assoc, List.append_assoc] at hsource
      have hparts := List.append_cancel_left (List.append_cancel_left hsource)
      have hstart : forall c, c ∈ (tag.name.toList ++ (tail ++ tag.form.closer)).head? ->
          Text.isBlank c = false := by
        rw [List.head?_append_of_ne_nil _ (mt String.toList_eq_nil_iff.mp hne)]
        exact hname.starts
      have hblank := (allBlank_append_iff.mp hfront).left
      rcases exists_of_blanks_append hblank hparts hstart with ⟨last, rfl, rfl⟩
      have hlast := (allBlank_append_iff.mp hgap).right
      refine ⟨front ++ (blanks ++ last), tail, hblank.append (hblanks.append hlast), htail, ?_⟩
      simp [Tag.spelling]
  | beforeBraces =>
      rw [Place.Cuts] at hcuts
      have hsplit : forall back, tag.spelling gap back =
          tag.form.opener ++ (tag.form.sigil ++ (gap ++ (tag.name.toList ++ back))) ++
            tag.form.closer := by
        simp [Tag.spelling]
      rw [hcuts, hsplit] at hsource
      refine ⟨gap, tail ++ blanks, hgap, htail.append hblanks, ?_⟩
      rw [List.append_cancel_right hsource, hcuts, hsplit]
      simp

omit hcuts hsource in
theorem reads_signed (hsigil : tag.form.sigil ≠ []) (hblank : blanks ≠ []) :
    Reads (tag.signed gap)
      (['{', '{'] ++ (blanks ++ (tag.form.sigil ++
        (gap ++ (tag.name.toList ++ (tail ++ ['}', '}'])))))) := by
  rcases tag.form.sigil_cases with hnil | ⟨c, hc, hsingle⟩
  · exact absurd hnil hsigil
  · have hchars : (tag.signed gap).name.toList = c :: (gap ++ tag.name.toList) := by
      rw [Tag.signed, String.toList_ofList, hsingle]
      rfl
    have hsigned : IsTagName (tag.signed gap).name.toList := by
      rw [hchars]
      exact isTagName_sigil hc hgap hname (mt String.toList_eq_nil_iff.mp hne)
    have hsome : (tag.signed gap).name ≠ "" := by
      rw [ne_eq, ← String.toList_eq_nil_iff, hchars]
      exact List.cons_ne_nil _ _
    have hspelling : (tag.signed gap).spelling blanks tail =
        ['{', '{'] ++ (blanks ++ (tag.form.sigil ++
          (gap ++ (tag.name.toList ++ (tail ++ ['}', '}']))))) := by
      rw [Tag.spelling, hchars, hsingle]
      simp [Tag.signed, Form.opener, Form.sigil, Form.closer]
    rw [← hspelling]
    apply reads_spelling hsigned hblanks htail hsome
    intro _
    exact head_not_mem_sigils hblanks fun h => absurd h hblank

theorem becomes_of_solid (hunsigned : forall c, c ∈ tag.name.toList.head? -> c ∉ sigils)
    (hsolid : ¬AllBlank tag.name.toList) (hblank : blanks ≠ []) :
    exists other, Becomes place tag blanks other ∧ Reads other (left ++ (blanks ++ right)) := by
  by_cases hplace : place = .behindBraces -> tag.form.sigil = []
  · rcases exists_spelling_of_cuts hname hne hgap htail hcuts hsource hblanks hplace with
      ⟨front, back, hfront, hback, hpadded⟩
    have hkeeps : place.Keeps tag blanks := by
      cases place with
      | behindBraces =>
          exact hplace rfl
      | beforeName =>
          exact trivial
      | beforeBraces =>
          exact fun h => absurd h hsolid
    rw [hpadded]
    refine ⟨tag, .same hkeeps, reads_spelling hname hfront hback hne fun _ => ?_⟩
    exact head_not_mem_sigils hfront fun _ => hunsigned
  · rcases Classical.not_imp.mp hplace with ⟨rfl, hsigil⟩
    have hform : tag.form ≠ .triple := by
      intro hform
      rw [hform] at hsigil
      exact hsigil rfl
    rw [Place.Cuts] at hcuts
    rw [hcuts, Tag.spelling] at hsource
    rw [hcuts, List.append_cancel_left hsource, Form.opener_of_ne hform, Form.closer_of_ne hform]
    exact ⟨_, .signed rfl hsigil hgap, reads_signed hname hne hgap htail hblanks hsigil hblank⟩

end

theorem Pads.exists_scan {source padded : String} {tag : Tag} {place : Place}
    {blanks : List Char} (h : Pads source tag place blanks padded) :
    exists front old new back other, scan source.toList = front ++ .tag tag old :: back ∧
      scan padded.toList = front ++ .tag other new :: back ∧ Becomes place tag blanks other := by
  rcases h.cut with ⟨front, left, right, back, hscan, hcuts, hpadded⟩
  rcases split_of_scan hscan with ⟨rest, _, hat, _⟩
  have hspells := spells_of_tagAt? hat
  rw [List.take_left] at hspells
  have hother : exists other, Becomes place tag blanks other ∧
      Reads other (left ++ (blanks ++ right)) := by
    by_cases hblank : AllBlank tag.name.toList
    · rcases hspells.exists_blanks h.named.nonempty hblank with ⟨inside, hne, hall, rfl, hsource⟩
      exact becomes_of_blank hne hall hcuts hsource h.blank h.nonempty
    · rcases hspells.exists_spelling h.named.unbraced hblank with
        ⟨hname, gap, tail, hgap, htail, hsource⟩
      exact becomes_of_solid hname h.named.nonempty hgap htail hcuts hsource h.blank
        h.named.unsigned hblank h.nonempty
  rcases hother with ⟨other, hbecomes, hread⟩
  have hne : left ++ (blanks ++ right) ≠ [] := by
    simp [h.nonempty]
  refine ⟨front, left ++ right, left ++ (blanks ++ right), back, other, hscan, ?_, hbecomes⟩
  rw [hpadded]
  exact scan_retag hscan hne (hread _)

/-!
# Trees of padded sources
-/

def Form.isSection : Form → Bool
  | opening _ => true
  | closing => true
  | _ => false

theorem Form.isSection_of_sigil {form : Form} (h : form.sigil = []) : form.isSection = false := by
  cases form with
  | opening gate =>
      cases gate <;> cases h
  | closing =>
      cases h
  | _ =>
      rfl

theorem Tag.filter_mark? {tag : Tag} (h : tag.form.isSection = false) :
    tag.mark?.toList.filter (!·.isLeaf) = [] := by
  cases tag with
  | mk form name =>
      cases form with
      | opening gate =>
          cases h
      | closing =>
          cases h
      | _ =>
          rfl

theorem Tag.height_mark?_eq_zero_iff (tag : Tag) :
    height tag.mark?.toList = 0 <-> tag.form.isSection = false := by
  cases tag with
  | mk form name =>
      cases form <;> simp [Tag.mark?, Mark.height, Form.isSection]

theorem filterMap_append_tag (front back : List Piece) (tag : Tag) (source : List Char) :
    (front ++ .tag tag source :: back).filterMap Piece.mark? =
      front.filterMap Piece.mark? ++ (tag.mark?.toList ++ back.filterMap Piece.mark?) := by
  rw [List.filterMap_append, List.filterMap_cons, Piece.mark?]
  cases tag.mark? <;> rfl

theorem Pads.exists_marks {source padded : String} {tag : Tag} {place : Place}
    {blanks : List Char} (h : Pads source tag place blanks padded) :
    exists front back other, marks source = front ++ (tag.mark?.toList ++ back) ∧
      marks padded = front ++ (other.mark?.toList ++ back) ∧ Becomes place tag blanks other := by
  rcases h.exists_scan with ⟨front, old, new, back, other, hsource, hpadded, hbecomes⟩
  refine ⟨front.filterMap Piece.mark?, back.filterMap Piece.mark?, other, ?_, ?_, hbecomes⟩
  · rw [marks, hsource, filterMap_append_tag]
  · rw [marks, hpadded, filterMap_append_tag]

section

variable {place : Place} {tag other : Tag} {blanks : List Char}
  (h : Becomes place tag blanks other)

include h

theorem Becomes.eq_of_keeps (hkeeps : place.Keeps tag blanks) : other = tag := by
  cases h with
  | same _ =>
      rfl
  | signed hplace hsigil _ =>
      rw [hplace] at hkeeps
      exact absurd hkeeps hsigil
  | blank _ hnot =>
      exact absurd hkeeps hnot

theorem Becomes.mark?_ne (hform : tag.form ≠ .comment) (hkeeps : ¬place.Keeps tag blanks) :
    other.mark?.toList ≠ tag.mark?.toList := by
  intro hmark
  cases h with
  | same hsame =>
      exact hkeeps hsame
  | signed _ hsigil _ =>
      cases tag with
      | mk form name =>
          cases form with
          | escaped =>
              exact hsigil rfl
          | comment =>
              exact hform rfl
          | _ =>
              cases hmark
  | blank htriple _ =>
      apply hkeeps
      cases place with
      | behindBraces =>
          rw [Place.Keeps, htriple]
          rfl
      | beforeName =>
          exact trivial
      | beforeBraces =>
          intro _
          have htag : tag.mark? = some (.raw tag.name) := by
            rw [Tag.mark?, htriple]
          rw [htag] at hmark
          injection hmark with hmark
          injection hmark with hname
          rw [← hname, blankTag, String.toList_ofList]

theorem Becomes.isSection (hkeeps : ¬place.Keeps tag blanks) : other.form.isSection = false := by
  cases h with
  | same hsame =>
      exact absurd hsame hkeeps
  | _ =>
      rfl

theorem Becomes.behindBraces_of_isSection (hkeeps : ¬place.Keeps tag blanks)
    (hsection : tag.form.isSection = true) : place = .behindBraces := by
  cases h with
  | same hsame =>
      exact absurd hsame hkeeps
  | signed hplace _ _ =>
      exact hplace
  | blank hform _ =>
      rw [hform] at hsection
      cases hsection

end

theorem Pads.marks_eq_of_keeps {source padded : String} {tag : Tag} {place : Place}
    {blanks : List Char} (h : Pads source tag place blanks padded)
    (hkeeps : place.Keeps tag blanks) : marks padded = marks source := by
  rcases h.exists_marks with ⟨front, back, other, hsource, hpadded, hbecomes⟩
  rw [hsource, hpadded, hbecomes.eq_of_keeps hkeeps]

theorem Pads.balanced_iff {source padded : String} {tag : Tag} {place : Place}
    {blanks : List Char} (h : Pads source tag place blanks padded)
    (hbalanced : Balanced (marks source)) :
    Balanced (marks padded) <-> (place = .behindBraces -> tag.form.isSection = false) := by
  by_cases hkeeps : place.Keeps tag blanks
  · rw [h.marks_eq_of_keeps hkeeps]
    refine ⟨fun _ hplace => ?_, fun _ => hbalanced⟩
    rw [hplace] at hkeeps
    exact Form.isSection_of_sigil hkeeps
  · rcases h.exists_marks with ⟨front, back, other, hsource, hpadded, hbecomes⟩
    have hother := hbecomes.isSection hkeeps
    rw [hsource] at hbalanced
    rw [hpadded]
    cases hsection : tag.form.isSection with
    | false =>
        refine ⟨fun _ _ => rfl, fun _ => ?_⟩
        rw [← balanced_filter_iff] at hbalanced ⊢
        simp only [List.filter_append, Tag.filter_mark? hsection, Tag.filter_mark? hother]
          at hbalanced ⊢
        exact hbalanced
    | true =>
        have hplace := hbecomes.behindBraces_of_isSection hkeeps hsection
        refine ⟨fun hpad => ?_, fun h => absurd (h hplace) (by decide)⟩
        have hzero := hbalanced.height_eq_zero
        have hnone := hpad.height_eq_zero
        rw [height_append, height_append] at hzero hnone
        rw [other.height_mark?_eq_zero_iff.mpr hother] at hnone
        have htag : height tag.mark?.toList = 0 := by omega
        rw [Tag.height_mark?_eq_zero_iff, hsection] at htag
        cases htag

/-- Blanks in a tag leave the tree of a source as it is unless they stand in front of a sigil or
behind a name that is all blank and does not end like them; then they always change it.  There is
a tree unless they stand in front of the sigil of a section. -/
theorem parse_padded {source padded : String} {tree : List Node} {tag : Tag} {place : Place}
    {blanks : List Char} (hparse : parse source = .ok tree)
    (h : Pads source tag place blanks padded) :
    (parse padded = .ok tree <-> place.Keeps tag blanks) ∧
      (place.Keeps tag blanks -> fieldNames padded = fieldNames source) ∧
      ((exists other, parse padded = .ok other) <->
        (place = .behindBraces -> tag.form.isSection = false)) := by
  have hmarks := flattenNodes_of_parse_eq_ok hparse
  refine ⟨⟨?_, ?_⟩, ?_, ?_⟩
  · intro hsame
    by_contra hkeeps
    rcases h.exists_marks with ⟨front, back, other, hsource, hpadded, hbecomes⟩
    have hequal := (flattenNodes_of_parse_eq_ok hsame).symm.trans hmarks
    rw [hsource, hpadded] at hequal
    have hmark := List.append_cancel_right (List.append_cancel_left hequal)
    exact hbecomes.mark?_ne h.named.form hkeeps hmark
  · intro hkeeps
    apply parse_eq_ok_of_flattenNodes
    rw [h.marks_eq_of_keeps hkeeps]
    exact hmarks
  · intro hkeeps
    rw [fieldNames_eq_distinct, fieldNames_eq_distinct, h.marks_eq_of_keeps hkeeps]
  · rw [exists_parse_iff_balanced]
    exact h.balanced_iff ((exists_parse_iff_balanced source).mp ⟨tree, hparse⟩)

def sectionTree : List Node :=
  [.block .found "a" [.text ['x']]]

def sectionSource : String :=
  "\x7b\x7b#a\x7d\x7dx\x7b\x7b/a\x7d\x7d"

def spacedClosing : String :=
  "\x7b\x7b#a\x7d\x7dx\x7b\x7b/ \u2003a\x7d\x7d"

theorem parse_padded_of_closing :
    Pads sectionSource ⟨.closing, "a"⟩ .beforeName [' ', '\u2003'] spacedClosing ∧
      parse spacedClosing = .ok sectionTree ∧
      fieldNames spacedClosing = fieldNames sectionSource := by
  have hparse : parse sectionSource = .ok sectionTree :=
    parse_eq_ok_of_flattenNodes (by decide +kernel)
  have hpads : Pads sectionSource ⟨.closing, "a"⟩ .beforeName [' ', '\u2003'] spacedClosing := by
    refine ⟨by decide, by decide, by decide, ?_⟩
    refine ⟨[.tag ⟨.opening .found, "a"⟩ "\x7b\x7b#a\x7d\x7d".toList, .text ['x']],
      "\x7b\x7b/".toList, "a\x7d\x7d".toList, [], by decide +kernel, ?_, by decide +kernel⟩
    exact ⟨[], [], "\x7d\x7d".toList, by decide, by decide, by decide⟩
  have hpadded := parse_padded hparse hpads
  exact ⟨hpads, hpadded.left.mpr trivial, hpadded.right.left trivial⟩

def IgnoresBlanks (source : String) : Prop :=
  forall tree, parse source = .ok tree ->
    forall tag place blanks padded, Pads source tag place blanks padded ->
      parse padded = .ok tree ∧ fieldNames padded = fieldNames source

def spacedOpening : String :=
  "\x7b\x7b #a\x7d\x7dx\x7b\x7b/a\x7d\x7d"

theorem not_ignoresBlanks_section : ¬IgnoresBlanks sectionSource := by
  intro h
  have hparse : parse sectionSource = .ok sectionTree :=
    parse_eq_ok_of_flattenNodes (by decide +kernel)
  have hpads : Pads sectionSource ⟨.opening .found, "a"⟩ .behindBraces [' '] spacedOpening := by
    refine ⟨by decide, by decide, by decide, ?_⟩
    exact ⟨[], "\x7b\x7b".toList, "#a\x7d\x7d".toList,
      [.text ['x'], .tag ⟨.closing, "a"⟩ "\x7b\x7b/a\x7d\x7d".toList],
      by decide +kernel, rfl, by decide +kernel⟩
  have hmarks := flattenNodes_of_parse_eq_ok (h _ hparse _ _ _ _ hpads).left
  exact absurd hmarks (by decide +kernel)

end Template
end Palette
