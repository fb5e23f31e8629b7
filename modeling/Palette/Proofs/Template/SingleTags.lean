import Palette.Proofs.Template.TagForms
import Palette.Template.Render

/-!
# Single tags

A source that is the tag of one plain name renders as the value of its field.
-/

namespace Palette
namespace Template

/-- A name without blanks and braces that starts with no sigil. -/
structure IsPlain (name : List Char) : Prop where
  nonempty : name ≠ []
  solid : forall c, c ∈ name -> Text.isBlank c = false
  unbraced : forall c, c ∈ name -> isBrace c = false
  unsigned : forall c, name.head? = some c -> sigil? c = none

namespace IsPlain

variable {name : List Char}

theorem isTagName (h : IsPlain name) : IsTagName name where
  unbraced := h.unbraced
  starts c hc := h.solid c (List.mem_of_mem_head? hc)
  ends c hc := h.solid c (List.mem_of_getLast? hc)

theorem scan_double (h : IsPlain name) :
    scan ('{' :: '{' :: (name ++ ['}', '}'])) =
      [.tag ⟨.escaped, String.ofList name⟩ ('{' :: '{' :: (name ++ ['}', '}']))] := by
  have hscan := h.isTagName.scan_inDouble [] rfl (fun _ => h.unsigned) []
  rw [List.append_nil, scan] at hscan
  exact hscan

theorem scan_triple (h : IsPlain name) :
    scan ('{' :: '{' :: '{' :: (name ++ ['}', '}', '}'])) =
      [.tag ⟨.triple, String.ofList name⟩ ('{' :: '{' :: '{' :: (name ++ ['}', '}', '}']))] := by
  have hscan := h.isTagName.scan_inTriple h.nonempty []
  rw [List.append_nil, scan] at hscan
  exact hscan

end IsPlain

theorem render_double {name : String} (h : IsPlain name.toList) (context : Context) :
    render ("\x7b\x7b" ++ name ++ "\x7d\x7d") context = .ok (escape (context.rawValue name)) := by
  have hsource : ("\x7b\x7b" ++ name ++ "\x7d\x7d").toList =
      '{' :: '{' :: (name.toList ++ ['}', '}']) := by
    simp
  rw [render, parse, hsource, h.scan_double, String.ofList_toList]
  show Except.ok (escape (context.rawValue name) ++ []) = _
  rw [List.append_nil]

theorem render_triple {name : String} (h : IsPlain name.toList) (context : Context) :
    render ("\x7b\x7b\x7b" ++ name ++ "\x7d\x7d\x7d") context = .ok (context.rawValue name) := by
  have hsource : ("\x7b\x7b\x7b" ++ name ++ "\x7d\x7d\x7d").toList =
      '{' :: '{' :: '{' :: (name.toList ++ ['}', '}', '}']) := by
    simp
  rw [render, parse, hsource, h.scan_triple, String.ofList_toList]
  show Except.ok (context.rawValue name ++ []) = _
  rw [List.append_nil]

end Template
end Palette
