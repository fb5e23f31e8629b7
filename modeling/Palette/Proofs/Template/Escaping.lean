import Palette.Proofs.Color.Print
import Palette.Proofs.Scheme.Codes
import Palette.Proofs.Template.Rendering

/-!
# Escapes are read back

Escaping a text replaces each of its characters by itself, whatever stands around it.  No
character of an escaped text means anything in markup but the ampersands of its entities, and the
text is read back by putting the characters in the place of their entities from left to right.
-/

namespace Palette
namespace Template

/-- The characters that mean something in markup, each with the entity that stands for it. -/
def entities : List (Char × List Char) :=
  [('&', "&amp;".toList), ('<', "&lt;".toList), ('>', "&gt;".toList), ('"', "&quot;".toList)]

def escapePoint : CodePoint → Phrase
  | .char c =>
      match entities.lookup c with
      | some entity => Phrase.ofChars entity
      | none => [.char c]
  | .surrogate code => [.surrogate code]

/-- The character whose entity stands at the start of a phrase, and what follows the entity. -/
def entityAt? (p : Phrase) : Option (Char × Phrase) :=
  entities.findSome? fun (c, entity) => (p.after? entity).map (c, ·)

theorem eq_append_of_entityAt? {p tail : Phrase} {c : Char} (h : entityAt? p = some (c, tail)) :
    exists entity, (c, entity) ∈ entities ∧ p = Phrase.ofChars entity ++ tail := by
  rcases List.exists_of_findSome?_eq_some h with ⟨⟨d, entity⟩, hmem, hafter⟩
  rcases Option.map_eq_some_iff.mp hafter with ⟨rest, hrest, hpair⟩
  injection hpair with hc htail
  rw [← hc, ← htail]
  exact ⟨entity, hmem, Phrase.after?_eq_some_iff.mp hrest⟩

theorem length_pos_of_mem_entities {c : Char} {entity : List Char} (h : (c, entity) ∈ entities) :
    0 < entity.length := by
  have hall : forall e, e ∈ entities -> 0 < e.2.length := by decide
  exact hall (c, entity) h

theorem length_lt_of_entityAt? {p tail : Phrase} {c : Char} (h : entityAt? p = some (c, tail)) :
    tail.length < p.length := by
  rcases eq_append_of_entityAt? h with ⟨entity, hmem, hp⟩
  have hpos := length_pos_of_mem_entities hmem
  rw [hp, List.length_append, Phrase.ofChars, List.length_map]
  exact Nat.lt_add_of_pos_left hpos

def unescape (p : Phrase) : Phrase :=
  match p with
  | [] => []
  | point :: rest =>
      match _h : entityAt? (point :: rest) with
      | some (c, tail) => .char c :: unescape tail
      | none => point :: unescape rest
termination_by p.length
decreasing_by
  · exact length_lt_of_entityAt? _h
  · exact Nat.lt_succ_self rest.length

/-- A phrase that holds no character of markup, and no ampersand but those of entities. -/
structure IsMarkupFree (p : Phrase) : Prop where
  unmarked : forall c, c ∈ ['<', '>', '"'] -> CodePoint.char c ∉ p
  entity : forall front back, p = front ++ .char '&' :: back ->
    exists c entity, (c, entity) ∈ entities ∧ Phrase.ofChars entity <+: .char '&' :: back

/-!
# One code point
-/

theorem lookup_entities_eq_none_iff (c : Char) : entities.lookup c = none <-> c ∉ markup := by
  simp [entities, markup, List.lookup_eq_none_iff]

theorem replaceChar_append (c : Char) (entity : List Char) (front back : Phrase) :
    replaceChar c entity (front ++ back) =
      replaceChar c entity front ++ replaceChar c entity back :=
  List.flatMap_append

theorem escape_append (front back : Phrase) :
    escape (front ++ back) = escape front ++ escape back := by
  simp only [escape, replaceChar_append]

theorem escape_singleton (point : CodePoint) : escape [point] = escapePoint point := by
  cases point with
  | surrogate code =>
      exact escape_of_not_mem fun c _ hmem => by cases List.mem_singleton.mp hmem
  | char c =>
      by_cases hc : c ∈ markup
      · have hall : forall d, d ∈ markup -> escape [.char d] = escapePoint (.char d) :=
          forall_mem_markup.mpr (by decide)
        exact hall c hc
      · have hnone := (lookup_entities_eq_none_iff c).mpr hc
        rw [escapePoint, hnone]
        apply escape_of_not_mem
        intro d hd hmem
        injection List.mem_singleton.mp hmem with hsame
        exact hc (hsame ▸ hd)

theorem escape_eq_flatMap (p : Phrase) : escape p = p.flatMap escapePoint := by
  induction p with
  | nil =>
      rfl
  | cons point rest ih =>
      rw [List.flatMap_cons, ← ih, ← escape_singleton, ← escape_append, List.singleton_append]

theorem escapePoint_cases (point : CodePoint) :
    (exists c entity, (c, entity) ∈ entities ∧ point = .char c ∧
        escapePoint point = Phrase.ofChars entity) ∨
      escapePoint point = [point] ∧ forall c, c ∈ markup -> point ≠ .char c := by
  cases point with
  | surrogate code =>
      exact Or.inr ⟨rfl, nofun⟩
  | char c =>
      cases hlookup : entities.lookup c with
      | none =>
          refine Or.inr ⟨by rw [escapePoint, hlookup], ?_⟩
          rintro d hd heq
          injection heq with hsame
          exact (lookup_entities_eq_none_iff c).mp hlookup (hsame ▸ hd)
      | some entity =>
          refine Or.inl ⟨c, entity, ?_, rfl, by rw [escapePoint, hlookup]⟩
          rcases List.lookup_eq_some_iff.mp hlookup with ⟨front, back, hsplit, _⟩
          rw [hsplit]
          exact List.mem_append_right front List.mem_cons_self

/-!
# Escaped texts hold no markup
-/

theorem IsMarkupFree.append {front back : Phrase} (hfront : IsMarkupFree front)
    (hback : IsMarkupFree back) : IsMarkupFree (front ++ back) := by
  constructor
  · intro c hc hmem
    rcases List.mem_append.mp hmem with hmem | hmem
    · exact hfront.unmarked c hc hmem
    · exact hback.unmarked c hc hmem
  · intro before after hsplit
    rcases List.append_eq_append_iff.mp hsplit with ⟨mid, _, hmid⟩ | ⟨mid, hmid, hrest⟩
    · exact hback.entity mid after hmid
    · cases mid with
      | nil =>
          exact hback.entity [] after hrest.symm
      | cons point more =>
          injection hrest with hpoint hmore
          rw [← hpoint] at hmid
          rcases hfront.entity before more hmid with ⟨c, entity, hmem, hentity⟩
          refine ⟨c, entity, hmem, hentity.trans ?_⟩
          rw [hmore]
          exact List.prefix_append (.char '&' :: more) back

theorem isMarkupFree_nil : IsMarkupFree [] where
  unmarked _ _ := List.not_mem_nil
  entity front _ h := by
    cases front <;> cases h

theorem isMarkupFree_singleton {point : CodePoint} (h : forall c, c ∈ markup -> point ≠ .char c) :
    IsMarkupFree [point] := by
  rcases forall_mem_markup.mp h with ⟨hamp, hless, hgreater, hquote⟩
  constructor
  · intro c hc hmem
    have hpoint := (List.mem_singleton.mp hmem).symm
    simp only [List.mem_cons, List.not_mem_nil, or_false] at hc
    rcases hc with rfl | rfl | rfl
    · exact hless hpoint
    · exact hgreater hpoint
    · exact hquote hpoint
  · intro front back hsplit
    cases front with
    | nil =>
        injection hsplit with hpoint _
        exact absurd hpoint hamp
    | cons other front =>
        injection hsplit with _ hrest
        cases front <;> cases hrest

theorem isMarkupFree_entity {c : Char} {entity : List Char} (h : (c, entity) ∈ entities) :
    IsMarkupFree (Phrase.ofChars entity) := by
  have hunmarked : forall e, e ∈ entities -> e.2.all (decide <| · ∉ ['<', '>', '"']) = true := by
    decide
  have hletters : forall e, e ∈ entities -> '&' ∉ e.2.tail := by
    decide
  constructor
  · intro d hd hmem
    rcases List.mem_map.mp hmem with ⟨other, hother, heq⟩
    injection heq with hsame
    have hplain := List.all_eq_true.mp (hunmarked (c, entity) h) other hother
    rw [hsame] at hplain
    exact of_decide_eq_true hplain hd
  · intro front back hsplit
    cases front with
    | nil =>
        refine ⟨c, entity, h, ?_⟩
        rw [hsplit]
        exact List.prefix_rfl
    | cons point front =>
        have htail := congrArg List.tail hsplit
        rw [Phrase.ofChars, ← List.map_tail] at htail
        have hmem : CodePoint.char '&' ∈ entity.tail.map CodePoint.char := by
          rw [htail]
          exact List.mem_append_right front List.mem_cons_self
        rcases List.mem_map.mp hmem with ⟨other, hother, heq⟩
        injection heq with hsame
        exact absurd (hsame ▸ hother) (hletters (c, entity) h)

theorem isMarkupFree_escape (p : Phrase) : IsMarkupFree (escape p) := by
  rw [escape_eq_flatMap]
  induction p with
  | nil =>
      exact isMarkupFree_nil
  | cons point rest ih =>
      rw [List.flatMap_cons]
      refine IsMarkupFree.append ?_ ih
      rcases escapePoint_cases point with ⟨c, entity, hmem, _, hentity⟩ | ⟨hself, hplain⟩
      · rw [hentity]
        exact isMarkupFree_entity hmem
      · rw [hself]
        exact isMarkupFree_singleton hplain

/-!
# Escaped texts are read back
-/

theorem entityAt?_entity {c : Char} {entity : List Char} (h : (c, entity) ∈ entities)
    (tail : Phrase) : entityAt? (Phrase.ofChars entity ++ tail) = some (c, tail) := by
  simp only [entities, List.mem_cons, List.not_mem_nil, or_false, Prod.mk.injEq] at h
  rcases h with ⟨rfl, rfl⟩ | ⟨rfl, rfl⟩ | ⟨rfl, rfl⟩ | ⟨rfl, rfl⟩
  · rfl
  · rfl
  · rfl
  · rfl

theorem entityAt?_cons_of_ne {point : CodePoint} (h : point ≠ .char '&') (rest : Phrase) :
    entityAt? (point :: rest) = none := by
  have hstarts : forall e, e ∈ entities -> e.2.head? = some '&' := by
    decide
  cases hentity : entityAt? (point :: rest) with
  | none =>
      rfl
  | some found =>
      cases found with
      | mk c tail =>
          rcases eq_append_of_entityAt? hentity with ⟨entity, hmem, hsplit⟩
          have hhead := hstarts (c, entity) hmem
          cases entity with
          | nil =>
              cases hhead
          | cons d letters =>
              injection hhead with hd
              injection hsplit with hpoint _
              exact absurd (hpoint.trans (congrArg CodePoint.char hd)) h

theorem unescape_of_some {p tail : Phrase} {c : Char} (h : entityAt? p = some (c, tail)) :
    unescape p = .char c :: unescape tail := by
  cases p with
  | nil =>
      cases h
  | cons point rest =>
      rw [unescape]
      split
      case h_1 d other hother =>
        rw [h] at hother
        cases hother
        rfl
      case h_2 hnone =>
        rw [h] at hnone
        cases hnone

theorem unescape_of_none {point : CodePoint} {rest : Phrase}
    (h : entityAt? (point :: rest) = none) : unescape (point :: rest) = point :: unescape rest := by
  rw [unescape]
  split
  case h_1 d other hother =>
    rw [h] at hother
    cases hother
  case h_2 =>
    rfl

theorem unescape_escape (p : Phrase) : unescape (escape p) = p := by
  rw [escape_eq_flatMap]
  induction p with
  | nil =>
      rw [List.flatMap_nil, unescape]
  | cons point rest ih =>
      rw [List.flatMap_cons]
      rcases escapePoint_cases point with ⟨c, entity, hmem, rfl, hentity⟩ | ⟨hself, hplain⟩
      · rw [hentity, unescape_of_some (entityAt?_entity hmem _), ih]
      · have hamp := (forall_mem_markup.mp hplain).left
        rw [hself, List.singleton_append, unescape_of_none (entityAt?_cons_of_ne hamp _), ih]

/-!
# Tags of escaped values
-/

theorem isMarkupFree_contribution (context : Context) (front : List Mark) (name : String) :
    IsMarkupFree (contribution context front (.var name)) := by
  rw [contribution]
  split
  · rw [Mark.value]
    split
    · exact isMarkupFree_escape _
    · exact isMarkupFree_nil
  · exact isMarkupFree_nil

theorem contribution_var {context : Context} {front : List Mark} {name : String} {value : Phrase}
    (hopen : allOpen context (openSections front) = true)
    (hvalue : context.renderField name = some value) :
    contribution context front (.var name) = escape value := by
  rw [contribution, if_pos hopen, Mark.value, hvalue]

/-- Escaping replaces each code point by itself, leaves no markup and is undone by reading the
entities back.  So what the tag of a field adds to a rendering holds no markup, and where it is
shown the value of the field is read back from it. -/
theorem escape_is_faithful :
    (forall p, escape p = p.flatMap escapePoint ∧ IsMarkupFree (escape p) ∧
      unescape (escape p) = p) ∧
      forall (source : String) (tree : List Node) (context : Context), parse source = .ok tree ->
        render source context = .ok (flatRender context (marks source)) ∧
          forall front name back, marks source = front ++ .var name :: back ->
            IsMarkupFree (contribution context front (.var name)) ∧
              forall value, context.renderField name = some value ->
                allOpen context (openSections front) = true ->
                  contribution context front (.var name) = escape value ∧
                    unescape (contribution context front (.var name)) = value := by
  constructor
  · intro p
    exact ⟨escape_eq_flatMap p, isMarkupFree_escape p, unescape_escape p⟩
  · intro source tree context h
    constructor
    · rw [render, h, ← flattenNodes_of_parse_eq_ok h, ← renderNodes_eq_flatRender]
    · intro front name back _
      refine ⟨isMarkupFree_contribution context front name, ?_⟩
      intro value hvalue hopen
      have hescaped := contribution_var hopen hvalue
      exact ⟨hescaped, by rw [hescaped, unescape_escape]⟩

def shownSource : String :=
  "\x7b\x7b#a\x7d\x7d\x7b\x7ba\x7d\x7d\x7b\x7b/a\x7d\x7d"

/-- A value that holds an entity is not taken for markup, nor is the entity taken for its
character. -/
theorem escape_is_faithful_of_entity :
    exists (tree : List Node) (context : Context), parse shownSource = .ok tree ∧
      context.renderField "a" = some (Phrase.ofText "&lt;\x22") ∧
      render shownSource context = .ok (Phrase.ofText "&amp;lt;&quot;") ∧
      unescape (Phrase.ofText "&amp;lt;&quot;") = Phrase.ofText "&lt;\x22" := by
  let context : Context := ⟨fun _ => some (Phrase.ofText "&lt;\x22"), fun name => name == "a"⟩
  have hparse : parse shownSource = .ok [.block .found "a" [.var "a"]] :=
    parse_eq_ok_of_flattenNodes (by decide +kernel)
  have hmarks : marks shownSource =
      [.opening .found "a"] ++ .var "a" :: [.closing "a"] := by decide +kernel
  rcases escape_is_faithful with ⟨_, htemplates⟩
  rcases htemplates shownSource _ context hparse with ⟨hrender, htags⟩
  rcases (htags _ "a" _ hmarks).right (Phrase.ofText "&lt;\x22") rfl (by decide) with
    ⟨hescaped, hread⟩
  have htext : escape (Phrase.ofText "&lt;\x22") = Phrase.ofText "&amp;lt;&quot;" := by
    decide +kernel
  refine ⟨_, context, hparse, rfl, ?_, ?_⟩
  · rw [hrender]
    exact congrArg Except.ok (by decide +kernel)
  · rw [← htext, ← hescaped, hread]

end Template
end Palette
