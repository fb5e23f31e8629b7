import Palette.Proofs.Template.TagParts

/-!
# Forms of tags

A name without braces that neither begins nor ends with a blank is read back from every form
of a tag that holds it, whatever stands behind the tag.
-/

namespace Palette
namespace Template

structure IsTagName (name : List Char) : Prop where
  unbraced : forall c, c ∈ name -> isBrace c = false
  starts : forall c, c ∈ name.head? -> Text.isBlank c = false
  ends : forall c, c ∈ name.getLast? -> Text.isBlank c = false

theorem isTagName_iff (name : List Char) :
    IsTagName name <->
      name.all (!isBrace ·) = true ∧ name.head?.all (!Text.isBlank ·) = true ∧
        name.getLast?.all (!Text.isBlank ·) = true := by
  simp only [List.all_eq_true, Option.all_eq_true, Bool.not_eq_true']
  exact ⟨fun h => ⟨h.unbraced, h.starts, h.ends⟩, fun h => ⟨h.left, h.right.left, h.right.right⟩⟩

instance (name : List Char) : Decidable (IsTagName name) :=
  decidable_of_iff _ (isTagName_iff name).symm

/-- A name in double braces behind a sigil, which may be missing. -/
def inDouble (sigil name : List Char) : List Char :=
  '{' :: '{' :: (sigil ++ name ++ ['}', '}'])

def inTriple (name : List Char) : List Char :=
  '{' :: '{' :: '{' :: (name ++ ['}', '}', '}'])

/-!
# Names
-/

namespace IsTagName

variable {name : List Char} (h : IsTagName name)

include h

theorem trimEnd_eq : Text.trimEnd name = name :=
  Text.trimEndOf_of_getLast? h.ends

theorem trim_eq : Text.trim name = name :=
  Text.trim_of_ends h.starts h.ends

theorem tripleName_eq (hname : name ≠ []) : tripleName name = name := by
  rw [tripleName, h.trim_eq]
  cases name with
  | nil =>
      exact absurd rfl hname
  | cons c more =>
      rfl

/-!
# Double braces
-/

variable {sigil : List Char} {form : Form} (hform : formOf? sigil = some form)
  (hsigil : sigil = [] -> forall c, c ∈ name.head? -> sigil? c = none)

include hform hsigil

theorem isDouble : IsDouble form sigil [] name where
  form := hform
  unsigned hnil c hc := (sigil?_eq_none_iff c).mp (hsigil hnil c hc)
  gap := nofun
  starts := h.starts
  closed := beforeClosing?_append h.unbraced []

variable (sigil)

theorem scan_inDouble (rest : List Char) :
    scan (inDouble sigil name ++ rest) =
      .tag ⟨form, String.ofList name⟩ (inDouble sigil name) :: scan rest := by
  have hdouble := h.isDouble hform hsigil
  have hreads := hdouble.reads (hdouble.head?_ne h.unbraced)
  have hsource : '{' :: '{' :: (sigil ++ ([] ++ (name ++ ['}', '}']))) = inDouble sigil name := by
    rw [inDouble, List.append_assoc]
    rfl
  rw [h.trimEnd_eq, hsource] at hreads
  exact hreads.scan_append (List.cons_ne_nil _ _) rest

end IsTagName

/-!
# Triple braces
-/

namespace IsTagName

variable {name : List Char} (h : IsTagName name)

include h

theorem scan_inTriple (hname : name ≠ []) (rest : List Char) :
    scan (inTriple name ++ rest) =
      .tag ⟨.triple, String.ofList name⟩ (inTriple name) :: scan rest := by
  have hreads := reads_triple hname h.unbraced
  rw [h.tripleName_eq hname] at hreads
  exact hreads.scan_append (List.cons_ne_nil _ _) rest

end IsTagName

end Template
end Palette
