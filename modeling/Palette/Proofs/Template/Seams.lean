import Palette.Proofs.Template.TagParts

/-!
# Seams of a source

In front of a tag a source is cut in the same way whatever tag it is and whatever stands behind
it.  So a tag of a source can be put in the place of another one, and all pieces around it stay.
-/

namespace Palette
namespace Template

/-!
# Pieces in front of a tag
-/

theorem consText_append_tag (c : Char) (front : List Piece) (tag : Tag) (source : List Char)
    (back : List Piece) :
    consText c (front ++ .tag tag source :: back) =
      consText c front ++ .tag tag source :: back := by
  cases front with
  | nil =>
      rfl
  | cons piece rest =>
      cases piece <;> rfl

theorem exists_of_consText_eq {c : Char} {pieces front back : List Piece} {tag : Tag}
    {source : List Char} (h : consText c pieces = front ++ .tag tag source :: back) :
    exists rest, pieces = rest ++ .tag tag source :: back ∧ front = consText c rest := by
  cases pieces with
  | nil =>
      cases front with
      | nil =>
          cases h
      | cons piece front =>
          injection h with _ h
          cases front <;> cases h
  | cons first more =>
      cases first with
      | text chars =>
          cases front with
          | nil =>
              cases h
          | cons piece front =>
              injection h with hpiece hmore
              exact ⟨.text chars :: front, by rw [hmore]; rfl, by rw [← hpiece]; rfl⟩
      | tag other chars =>
          cases front with
          | nil =>
              cases h
          | cons piece front =>
              injection h with hpiece hmore
              refine ⟨front, hmore, ?_⟩
              cases front with
              | nil =>
                  rw [← hpiece]
                  rfl
              | cons next front =>
                  injection hmore with hnext _
                  rw [← hpiece, ← hnext]
                  rfl

theorem split_of_scan {s : List Char} {front back : List Piece} {tag : Tag} {source : List Char}
    (h : scan s = front ++ .tag tag source :: back) :
    exists rest, s = front.flatMap Piece.source ++ (source ++ rest) ∧
      tagAt? (source ++ rest) = some (tag, source.length) ∧ scan rest = back := by
  induction s using scan.induct generalizing front with
  | case1 =>
      rw [scan] at h
      cases front <;> cases h
  | case2 c more first length htag ih =>
      rw [scan_of_some htag] at h
      cases front with
      | nil =>
          injection h with hpiece hback
          injection hpiece with hfirst hsource
          refine ⟨(c :: more).drop length, ?_, ?_, hback⟩
          · rw [← hsource, List.take_append_drop]
            rfl
          · rw [← hsource, List.take_append_drop, List.length_take_of_le (tagAt?_length htag).right,
              ← hfirst]
            exact htag
      | cons piece front =>
          injection h with hpiece hmore
          rw [drop_of_tagAt? htag] at hmore
          rcases ih hmore with ⟨rest, hsplit, hat, hrest⟩
          refine ⟨rest, ?_, hat, hrest⟩
          rw [← hpiece, List.flatMap_cons, List.append_assoc, ← hsplit, ← drop_of_tagAt? htag]
          exact (List.take_append_drop length (c :: more)).symm
  | case3 c more htag ih =>
      rw [scan_of_none htag] at h
      rcases exists_of_consText_eq h with ⟨inner, hmore, hfront⟩
      rcases ih hmore with ⟨rest, hsplit, hat, hrest⟩
      refine ⟨rest, ?_, hat, hrest⟩
      rw [hfront, flatMap_source_consText, List.cons_append, ← hsplit]

theorem exists_scan_of_isSome {s : List Char} (h : (tagAt? s).isSome = true) :
    exists tag source back, scan s = .tag tag source :: back := by
  rcases Option.isSome_iff_exists.mp h with ⟨⟨tag, length⟩, htag⟩
  rcases isSome_tagAt?_iff.mp h with ⟨rest, rfl, _⟩
  exact ⟨tag, _, _, scan_of_some htag⟩

theorem head?_of_isSome {s : List Char} (h : (tagAt? s).isSome = true) : s.head? = some '{' := by
  rcases isSome_tagAt?_iff.mp h with ⟨rest, rfl, _⟩
  rfl

theorem tagAt?_cons_append_eq_none {c : Char} {s rest other : List Char}
    (h : tagAt? (c :: (s ++ rest)) = none) (hrest : (tagAt? rest).isSome = true)
    (hother : (tagAt? other).isSome = true) : tagAt? (c :: (s ++ other)) = none := by
  rcases isSome_tagAt?_iff.mp hrest with ⟨after, rfl, hclosing⟩
  rcases isSome_tagAt?_iff.mp hother with ⟨behind, rfl, _⟩
  rw [← Option.not_isSome_iff_eq_none] at h ⊢
  intro hsome
  apply h
  rcases isSome_tagAt?_iff.mp hsome with ⟨inner, hinner, _⟩
  injection hinner with hc hinner
  rw [isSome_tagAt?_iff, hc]
  cases s with
  | nil =>
      exact ⟨'{' :: after, rfl, isSome_beforeClosing?_append ['{'] hclosing⟩
  | cons d s =>
      injection hinner with hd _
      refine ⟨s ++ '{' :: '{' :: after, by rw [hd]; rfl, ?_⟩
      exact isSome_beforeClosing?_append s (isSome_beforeClosing?_append ['{', '{'] hclosing)

theorem scan_append_congr {front : List Piece} {s rest other : List Char}
    (h : scan (s ++ rest) = front ++ scan rest) (hfront : front.flatMap Piece.source = s)
    (hrest : (tagAt? rest).isSome = true) (hother : (tagAt? other).isSome = true) :
    scan (s ++ other) = front ++ scan other := by
  generalize hs : s ++ rest = whole at h
  induction whole using scan.induct generalizing front s with
  | case1 =>
      rw [(List.append_eq_nil_iff.mp hs).right] at hrest
      cases hrest
  | case2 c more tag length htag ih =>
      cases front with
      | nil =>
          rw [← hfront]
          rfl
      | cons piece front =>
          have hlength := List.length_take_of_le (tagAt?_length htag).right
          have hsplit := List.take_append_drop length (c :: more)
          rw [scan_of_some htag] at h
          injection h with hpiece hmore
          rw [drop_of_tagAt? htag] at hmore
          rw [List.flatMap_cons, ← hpiece, Piece.source] at hfront
          rw [← hfront, List.append_assoc] at hs
          have hdrop := List.append_cancel_left (hs.trans hsplit.symm)
          have hinner := ih rfl (hdrop.trans (drop_of_tagAt? htag)) hmore
          have hnext : (front.flatMap Piece.source ++ other).head? = some '}' ->
              (front.flatMap Piece.source ++ rest).head? = some '}' := by
            rw [List.head?_append, List.head?_append, head?_of_isSome hrest,
              head?_of_isSome hother]
            exact id
          have hat : tagAt? ((c :: more).take length ++ (front.flatMap Piece.source ++ rest)) =
              some (tag, ((c :: more).take length).length) := by
            rw [hdrop, hsplit, hlength]
            exact htag
          have hne : (c :: more).take length ≠ [] := by
            rw [← List.length_pos_iff, hlength]
            exact (tagAt?_length htag).left
          rw [← hfront, ← hpiece, List.append_assoc,
            scan_append_of_tagAt? hne (tagAt?_append_congr hat hnext), hinner, List.cons_append]
  | case3 c more hnone ih =>
      rcases exists_scan_of_isSome hrest with ⟨first, source, back, hscan⟩
      rcases exists_scan_of_isSome hother with ⟨second, chars, after, hbehind⟩
      rw [scan_of_none hnone, hscan] at h
      rcases exists_of_consText_eq h with ⟨inner, hmore, rfl⟩
      rw [flatMap_source_consText] at hfront
      rw [← hfront] at hs ⊢
      injection hs with _ hs
      have hinner := ih rfl hs (hmore.trans (by rw [hscan]))
      rw [← hs] at hnone
      rw [List.cons_append, scan_of_none (tagAt?_cons_append_eq_none hnone hrest hother), hinner,
        hbehind, consText_append_tag]

/-!
# Tags in place of others
-/

theorem scan_retag {s source other : List Char} {front back : List Piece} {tag new : Tag}
    (h : scan s = front ++ .tag tag source :: back) (hother : other ≠ [])
    (hnew : tagAt? (other ++ back.flatMap Piece.source) = some (new, other.length)) :
    scan (front.flatMap Piece.source ++ (other ++ back.flatMap Piece.source)) =
      front ++ .tag new other :: back := by
  rcases split_of_scan h with ⟨rest, rfl, hat, rfl⟩
  rw [flatMap_source_scan] at hnew ⊢
  have hsource : source ≠ [] := by
    have hpiece : .tag tag source ∈ scan (front.flatMap Piece.source ++ (source ++ rest)) := by
      rw [h]
      exact List.mem_append_right front List.mem_cons_self
    exact source_ne_nil_of_mem_scan hpiece
  have hrest := scan_append_of_tagAt? hsource hat
  have hbehind := scan_append_of_tagAt? hother hnew
  have hold : (tagAt? (source ++ rest)).isSome = true := by
    rw [hat, Option.isSome_some]
  have hsome : (tagAt? (other ++ rest)).isSome = true := by
    rw [hnew, Option.isSome_some]
  rw [scan_append_congr (h.trans (by rw [hrest])) rfl hold hsome, hbehind]

end Template
end Palette
