import Palette.Proofs.Template.Marks
import Palette.Proofs.Template.TagPattern

/-!
# Scanning as matching

The tags of a source are all matches of the tag pattern, from left to right.  Its texts
are what stands in front of the first match, between two of them and behind the last one.
-/

namespace Palette
namespace Template

open Text (Pattern Match)
open Text.Pattern

def spans (position : Nat) : List Piece → List Span
  | [] => []
  | .text chars :: rest => spans (position + chars.length) rest
  | .tag tag source :: rest =>
      ⟨position, position + source.length, tag⟩ :: spans (position + source.length) rest

def textPiece (chars : List Char) : List Piece :=
  if chars = [] then [] else [.text chars]

/-- Cuts what is left of a source from a position on at the places of its tags. -/
def cut (position : Nat) (rest : List Char) : List Span → List Piece
  | [] => textPiece rest
  | span :: more =>
      textPiece (rest.take (span.start - position)) ++
        .tag span.tag ((rest.drop (span.start - position)).take (span.stop - span.start)) ::
          cut span.stop (rest.drop (span.stop - position)) more

/-!
# The length of a tag
-/

theorem beforeClosing?_length {s inside : List Char} (h : beforeClosing? s = some inside) :
    inside.length + 2 ≤ s.length := by
  rw [beforeClosing?_eq] at h
  have hle := (append_prefix_of_before? h).length_le
  rw [List.length_append] at hle
  exact hle

theorem double?_length {s : List Char} {tag : Tag} {length : Nat}
    (h : double? s = some (tag, length)) : 0 < length ∧ length ≤ s.length := by
  rw [double?] at h
  rcases Option.map_eq_some_iff.mp h with ⟨inside, hinside, htag⟩
  have hle := beforeClosing?_length hinside
  rw [List.length_drop] at hle
  cases htag
  constructor
  · exact Nat.succ_pos _
  · omega

theorem triple?_length {s : List Char} {tag : Tag} {length : Nat}
    (h : triple? s = some (tag, length)) : length ≤ s.length := by
  rw [triple?_eq] at h
  rcases Option.bind_eq_some_iff.mp h with ⟨inside, hinside, htag⟩
  have hle := (append_prefix_of_before? hinside).length_le
  rw [List.length_append] at hle
  split at htag
  · cases htag
  · cases htag
    exact hle

theorem tagAt?_length {s : List Char} {tag : Tag} {length : Nat}
    (h : tagAt? s = some (tag, length)) : 0 < length ∧ length ≤ s.length := by
  unfold tagAt? at h
  split at h
  case h_1 rest =>
    rcases Option.or_eq_some_iff.mp h with htriple | ⟨_, hdouble⟩
    · rcases Option.map_eq_some_iff.mp htriple with ⟨⟨other, count⟩, hcount, htag⟩
      cases htag
      have hle := triple?_length hcount
      constructor
      · exact Nat.succ_pos _
      · exact Nat.add_le_add_right hle 3
    · rcases Option.map_eq_some_iff.mp hdouble with ⟨⟨other, count⟩, hcount, htag⟩
      cases htag
      have hle := (double?_length hcount).right
      constructor
      · exact Nat.succ_pos _
      · exact Nat.add_le_add_right hle 2
  case h_2 rest _ =>
    rcases Option.map_eq_some_iff.mp h with ⟨⟨other, count⟩, hcount, htag⟩
    cases htag
    have hle := (double?_length hcount).right
    constructor
    · exact Nat.succ_pos _
    · exact Nat.add_le_add_right hle 2
  case h_3 =>
    cases h

/-!
# Single pieces
-/

theorem drop_of_tagAt? {c : Char} {rest : List Char} {tag : Tag} {length : Nat}
    (h : tagAt? (c :: rest) = some (tag, length)) :
    (c :: rest).drop length = rest.drop (length - 1) := by
  have hlength : length = length - 1 + 1 :=
    (Nat.sub_add_cancel (tagAt?_length h).left).symm
  conv => lhs; rw [hlength, List.drop_succ_cons]

theorem scan_of_some {c : Char} {rest : List Char} {tag : Tag} {length : Nat}
    (h : tagAt? (c :: rest) = some (tag, length)) :
    scan (c :: rest) =
      .tag tag ((c :: rest).take length) :: scan ((c :: rest).drop length) := by
  have hlength : length = length - 1 + 1 :=
    (Nat.sub_add_cancel (tagAt?_length h).left).symm
  have htake : (c :: rest).take length = c :: rest.take (length - 1) := by
    conv => lhs; rw [hlength, List.take_succ_cons]
  rw [htake, drop_of_tagAt? h, scan, h]

theorem scan_of_none {c : Char} {rest : List Char} (h : tagAt? (c :: rest) = none) :
    scan (c :: rest) = consText c (scan rest) := by
  rw [scan, h]

theorem spans_scan_of_some (position : Nat) {c : Char} {rest : List Char} {tag : Tag}
    {length : Nat} (h : tagAt? (c :: rest) = some (tag, length)) :
    spans position (scan (c :: rest)) =
      ⟨position, position + length, tag⟩ ::
        spans (position + length) (scan ((c :: rest).drop length)) := by
  rw [scan_of_some h, spans, List.length_take_of_le (tagAt?_length h).right]

/-!
# Matches and tags
-/

theorem matchAt?_eq_none {position : Nat} {s : List Char} (h : tagAt? s = none) :
    tagPattern.matchAt? position s = none := by
  have hmatch := map_spanOf?_matchAt? position s
  rw [h] at hmatch
  exact Option.map_eq_none_iff.mp hmatch

theorem exists_matchAt? (position : Nat) {s : List Char} {tag : Tag} {length : Nat}
    (h : tagAt? s = some (tag, length)) :
    exists m, tagPattern.matchAt? position s = some m ∧ m.stop = position + length ∧
      spanOf? m = some ⟨position, position + length, tag⟩ := by
  have hmatch := map_spanOf?_matchAt? position s
  rw [h] at hmatch
  rcases Option.map_eq_some_iff.mp hmatch with ⟨m, hm, hspan⟩
  rcases Option.map_eq_some_iff.mp hspan with ⟨other, _, hplace⟩
  injection hplace with _ hstop _
  exact ⟨m, hm, hstop, hspan⟩

theorem advances_tagPattern : tagPattern.Advances := by
  intro position s m hm
  cases htag : tagAt? s with
  | none =>
      rw [matchAt?_eq_none htag] at hm
      cases hm
  | some found =>
      cases found with
      | mk tag length =>
          rcases exists_matchAt? position htag with ⟨other, hother, _, hspan⟩
          rw [hm] at hother
          injection hother with hsame
          rw [← hsame] at hspan
          rcases Option.map_eq_some_iff.mp hspan with ⟨_, _, hplace⟩
          injection hplace with hstart hstop _
          rcases tagAt?_length htag with ⟨hpos, hle⟩
          rw [hstart, hstop]
          exact ⟨rfl, Nat.lt_add_of_pos_right hpos, Nat.add_le_add_left hle position⟩

theorem spans_consText (position : Nat) (c : Char) (pieces : List Piece) :
    spans position (consText c pieces) = spans (position + 1) pieces := by
  cases pieces with
  | nil =>
      rfl
  | cons piece rest =>
      cases piece with
      | text chars =>
          have hlength : position + (chars.length + 1) = position + 1 + chars.length := by
            omega
          rw [consText, spans, spans, List.length_cons, hlength]
      | tag tag source =>
          rfl

theorem map_spanOf?_findAll (position : Nat) (s : List Char) :
    (tagPattern.findAll position s).map spanOf? = (spans position (scan s)).map some := by
  induction s using scan.induct generalizing position with
  | case1 =>
      rw [advances_tagPattern.findAll_nil, scan]
      rfl
  | case2 c rest tag length htag ih =>
      rcases exists_matchAt? position htag with ⟨m, hm, hstop, hspan⟩
      have hcount : m.stop - position = length := by
        rw [hstop, Nat.add_sub_cancel_left]
      rw [advances_tagPattern.findAll_of_some hm, hcount, hstop, spans_scan_of_some position htag,
        List.map_cons, List.map_cons, hspan, drop_of_tagAt? htag, ih]
  | case3 c rest htag ih =>
      rw [advances_tagPattern.findAll_of_none (matchAt?_eq_none htag), ih, scan_of_none htag,
        spans_consText]

/-!
# Texts between tags
-/

theorem le_start_of_mem_spans {position : Nat} {pieces : List Piece} {span : Span}
    (h : span ∈ spans position pieces) : position ≤ span.start ∧ span.start ≤ span.stop := by
  induction pieces generalizing position with
  | nil =>
      cases h
  | cons piece rest ih =>
      cases piece with
      | text chars =>
          rcases ih h with ⟨hstart, hstop⟩
          exact ⟨Nat.le_trans (Nat.le_add_right position chars.length) hstart, hstop⟩
      | tag tag source =>
          cases h with
          | head =>
              exact ⟨Nat.le_refl position, Nat.le_add_right position source.length⟩
          | tail _ h =>
              rcases ih h with ⟨hstart, hstop⟩
              exact ⟨Nat.le_trans (Nat.le_add_right position source.length) hstart, hstop⟩

theorem textPiece_cons_append (c : Char) (chars : List Char) {pieces : List Piece}
    (hpieces : forall t, pieces.head? ≠ some (.text t)) :
    textPiece (c :: chars) ++ pieces = consText c (textPiece chars ++ pieces) := by
  cases chars with
  | nil =>
      cases pieces with
      | nil =>
          rfl
      | cons piece rest =>
          cases piece with
          | text t =>
              exact absurd rfl (hpieces t)
          | tag tag source =>
              rfl
  | cons d more =>
      rfl

theorem cut_cons {position : Nat} (c : Char) (rest : List Char) {found : List Span}
    (hfound : forall span, span ∈ found ->
      position + 1 ≤ span.start ∧ span.start ≤ span.stop) :
    cut position (c :: rest) found = consText c (cut (position + 1) rest found) := by
  cases found with
  | nil =>
      rw [cut, cut, ← List.append_nil (textPiece (c :: rest)), ← List.append_nil (textPiece rest)]
      exact textPiece_cons_append c rest nofun
  | cons span more =>
      rcases hfound span List.mem_cons_self with ⟨hstart, hstop⟩
      have hfront : span.start - position = span.start - (position + 1) + 1 := by omega
      have hback : span.stop - position = span.stop - (position + 1) + 1 := by omega
      rw [cut, cut, hfront, hback, List.take_succ_cons, List.drop_succ_cons, List.drop_succ_cons]
      exact textPiece_cons_append c _ nofun

theorem scan_eq_cut (position : Nat) (s : List Char) :
    scan s = cut position s (spans position (scan s)) := by
  induction s using scan.induct generalizing position with
  | case1 =>
      rw [scan]
      rfl
  | case2 c rest tag length htag ih =>
      rw [spans_scan_of_some position htag, cut, Nat.sub_self, Nat.add_sub_cancel_left,
        List.take_zero, List.drop_zero, drop_of_tagAt? htag, ← ih (position + length),
        scan_of_some htag, drop_of_tagAt? htag]
      rfl
  | case3 c rest htag ih =>
      rw [scan_of_none htag, spans_consText, cut_cons c rest fun span => le_start_of_mem_spans,
        ← ih (position + 1)]

theorem source_ne_nil_of_mem_consText {c : Char} {pieces : List Piece}
    (hpieces : forall piece, piece ∈ pieces -> piece.source ≠ []) {piece : Piece}
    (h : piece ∈ consText c pieces) : piece.source ≠ [] := by
  cases pieces with
  | nil =>
      rw [List.mem_singleton.mp h]
      exact List.cons_ne_nil c []
  | cons first rest =>
      cases first with
      | text chars =>
          cases h with
          | head =>
              exact List.cons_ne_nil c chars
          | tail _ h =>
              exact hpieces piece (List.mem_cons_of_mem _ h)
      | tag tag source =>
          cases h with
          | head =>
              exact List.cons_ne_nil c []
          | tail _ h =>
              exact hpieces piece h

theorem source_ne_nil_of_mem_scan {s : List Char} {piece : Piece} (h : piece ∈ scan s) :
    piece.source ≠ [] := by
  induction s using scan.induct generalizing piece with
  | case1 =>
      rw [scan] at h
      cases h
  | case2 c rest tag length htag ih =>
      rw [scan, htag] at h
      cases h with
      | head =>
          exact List.cons_ne_nil c _
      | tail _ h =>
          exact ih h
  | case3 c rest htag ih =>
      rw [scan_of_none htag] at h
      exact source_ne_nil_of_mem_consText (fun _ => ih) h

theorem start_lt_stop_of_mem_spans {position : Nat} {pieces : List Piece}
    (hpieces : forall piece, piece ∈ pieces -> piece.source ≠ []) {span : Span}
    (h : span ∈ spans position pieces) : span.start < span.stop := by
  induction pieces generalizing position with
  | nil =>
      cases h
  | cons piece rest ih =>
      have hrest : forall other, other ∈ rest -> other.source ≠ [] := by
        intro other hother
        exact hpieces other (List.mem_cons_of_mem piece hother)
      cases piece with
      | text chars =>
          exact ih hrest h
      | tag tag source =>
          cases h with
          | head =>
              have hsource : source ≠ [] := hpieces (.tag tag source) List.mem_cons_self
              exact Nat.lt_add_of_pos_right (List.length_pos_iff.mpr hsource)
          | tail _ h =>
              exact ih hrest h

/-!
# Names of fields
-/

theorem filterMap_fieldOf? {found : List Match} {position : Nat} {pieces : List Piece}
    (h : found.map spanOf? = (spans position pieces).map some) :
    found.filterMap fieldOf? = pieces.filterMap Piece.fieldName? := by
  induction pieces generalizing position found with
  | nil =>
      rw [List.map_eq_nil_iff.mp h]
      rfl
  | cons piece rest ih =>
      cases piece with
      | text chars =>
          exact ih h
      | tag tag source =>
          rcases List.map_eq_cons_iff.mp h with ⟨m, more, hfound, hspan, hmore⟩
          have hfield := fieldOf?_of_spanOf? hspan source
          rw [hfound, List.filterMap_cons, List.filterMap_cons, hfield, ih hmore]

/-- Parsing a source and listing its fields work from all matches of the tag pattern. -/
theorem scan_eq_matches (source : String) :
    exists found : List Span,
      (tagPattern.findAll 0 source.toList).map spanOf? = found.map some ∧
      spans 0 (scan source.toList) = found ∧
      scan source.toList = cut 0 source.toList found ∧
      parse source = nest [] [] (cut 0 source.toList found) ∧
      fieldNames source = distinct ((tagPattern.findAll 0 source.toList).filterMap fieldOf?) ∧
      (scan source.toList).flatMap Piece.source = source.toList ∧
      (forall piece, piece ∈ scan source.toList -> piece.source ≠ []) ∧
      forall span, span ∈ found -> span.start < span.stop := by
  have hmatches := map_spanOf?_findAll 0 source.toList
  have hcut := scan_eq_cut 0 source.toList
  have hpieces : forall piece, piece ∈ scan source.toList -> piece.source ≠ [] := by
    intro piece hpiece
    exact source_ne_nil_of_mem_scan hpiece
  refine ⟨spans 0 (scan source.toList), hmatches, rfl, hcut, ?_, ?_,
    flatMap_source_scan source.toList, hpieces, ?_⟩
  · rw [← hcut]
    rfl
  · rw [filterMap_fieldOf? hmatches]
    rfl
  · intro span hspan
    exact start_lt_stop_of_mem_spans hpieces hspan

end Template
end Palette
