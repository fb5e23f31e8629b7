import Palette.Proofs.Entries
import Palette.Proofs.Environment.Load
import Palette.Proofs.Text.Trim

/-!
# What loading adds

Loading adds the variables of a file that are not set yet, behind those that are.  It stops at
the first of them that cannot be set, which is one with a NUL character: no other name or value
that a file gives is refused.
-/

namespace Palette

def Workspace.extend (w : Workspace) (more : List (String × String)) : Workspace :=
  { w with environment := w.environment ++ more }

namespace Workspace

@[simp] theorem tree_extend (w : Workspace) (more : List (String × String)) :
    (w.extend more).tree = w.tree :=
  rfl

@[simp] theorem directory_extend (w : Workspace) (more : List (String × String)) :
    (w.extend more).directory = w.directory :=
  rfl

@[simp] theorem read_extend (w : Workspace) (more : List (String × String)) (path : String) :
    (w.extend more).read path = w.read path :=
  rfl

@[simp] theorem fullPath_extend (w : Workspace) (more : List (String × String)) (place : Place) :
    (w.extend more).fullPath place = w.fullPath place :=
  rfl

@[simp] theorem extend_nil (w : Workspace) : w.extend [] = w := by
  rw [extend, List.append_nil]

theorem extend_extend (w : Workspace) (front back : List (String × String)) :
    (w.extend front).extend back = w.extend (front ++ back) := by
  rw [extend, extend, extend, List.append_assoc]

theorem valueOf?_extend (w : Workspace) (more : List (String × String)) (name : String) :
    (w.extend more).valueOf? name = (w.valueOf? name).or (Entries.get? more name) :=
  Entries.get?_append w.environment more name

theorem setVariable_of_none {w : Workspace} {name : String} (h : w.valueOf? name = none)
    (value : String) : w.setVariable name value = w.extend [(name, value)] := by
  rw [setVariable, extend, Entries.put_of_not_mem value (Entries.get?_eq_none_iff.mp h)]

end Workspace

namespace Dotenv

/-!
# Names in files
-/

/-- A text that can be the name of a variable, as far as it holds no NUL character. -/
structure IsName (name : String) : Prop where
  nonempty : name ≠ ""
  noEquals : '=' ∉ name.toList

structure IsFree (b : String × String) : Prop where
  name : holdsNull b.1 = false
  value : holdsNull b.2 = false

/-- What a file can give: proper names, each of them once. -/
structure IsListing (bindings : List (String × String)) : Prop where
  names : forall b, b ∈ bindings -> IsName b.1
  distinct : (bindings.map Prod.fst).Nodup

theorem IsListing.tail {b : String × String} {rest : List (String × String)}
    (h : IsListing (b :: rest)) : IsListing rest where
  names c hc := h.names c (List.mem_cons_of_mem b hc)
  distinct := (List.nodup_cons.mp h.distinct).right

theorem IsListing.head_not_mem {b : String × String} {rest : List (String × String)}
    (h : IsListing (b :: rest)) : b.1 ∉ rest.map Prod.fst :=
  (List.nodup_cons.mp h.distinct).left

theorem not_mem_of_splitEquals? {line key value : List Char}
    (h : splitEquals? line = some (key, value)) : '=' ∉ key := by
  induction line generalizing key with
  | nil =>
      cases h
  | cons c rest ih =>
      rw [splitEquals?] at h
      split at h
      · injection h with h
        injection h with hkey _
        rw [← hkey]
        exact List.not_mem_nil
      case isFalse hc =>
        rcases Option.map_eq_some_iff.mp h with ⟨⟨front, back⟩, hrest, heq⟩
        injection heq with hkey hvalue
        rw [hvalue] at hrest
        rw [← hkey, List.mem_cons, not_or]
        exact ⟨Ne.symm hc, ih hrest⟩

theorem isName_of_parseLine? {line : List Char} {b : String × String}
    (h : parseLine? line = some b) : IsName b.1 := by
  rw [parseLine?] at h
  dsimp only at h
  split at h
  · cases h
  · split at h
    · cases h
    case h_2 key value hsplit =>
      split at h
      · cases h
      case isFalse hkey =>
        injection h with h
        rw [← h]
        refine ⟨?_, ?_⟩
        · intro hempty
          apply hkey
          rw [List.isEmpty_iff]
          exact (String.ofList_eq_empty_iff).mp hempty
        · intro hmem
          rw [String.toList_ofList] at hmem
          exact not_mem_of_splitEquals? hsplit (Text.mem_of_mem_trimOf hmem)

theorem isListing_parse (text : List Char) : IsListing (parse text) where
  names b hb := by
    rcases List.mem_filterMap.mp (Entries.mem_of_mem_ofList hb) with ⟨line, _, hline⟩
    exact isName_of_parseLine? hline
  distinct := Entries.nodup_keys_ofList _

/-!
# Adding variables
-/

/-- The variables of a listing that are not set. -/
def absent (w : Workspace) (bindings : List (String × String)) : List (String × String) :=
  bindings.filter fun b => (w.valueOf? b.1).isNone

theorem absent_cons_of_none {w : Workspace} {b : String × String}
    (h : w.valueOf? b.1 = none) (rest : List (String × String)) :
    absent w (b :: rest) = b :: absent w rest := by
  rw [absent, List.filter_cons_of_pos (by rw [h]; rfl), absent]

theorem absent_cons_of_some {w : Workspace} {b : String × String} {value : String}
    (h : w.valueOf? b.1 = some value) (rest : List (String × String)) :
    absent w (b :: rest) = absent w rest := by
  rw [absent, List.filter_cons_of_neg (by rw [h]; nofun), absent]

theorem absent_extend {w : Workspace} {bindings more : List (String × String)}
    (h : forall b, b ∈ bindings -> b.1 ∉ more.map Prod.fst) :
    absent (w.extend more) bindings = absent w bindings := by
  apply List.filter_congr
  intro b hb
  rw [Workspace.valueOf?_extend, Entries.get?_eq_none_iff.mpr (h b hb), Option.or_none]

theorem absent_extend_absent (w : Workspace) (bindings : List (String × String)) :
    absent (w.extend (absent w bindings)) bindings = [] := by
  rw [absent, List.filter_eq_nil_iff]
  intro b hb hnone
  rw [Option.isNone_iff_eq_none, Workspace.valueOf?_extend, Option.or_eq_none_iff] at hnone
  apply Entries.get?_eq_none_iff.mp hnone.right
  apply List.mem_map_of_mem
  rw [absent, List.mem_filter]
  exact ⟨hb, by rw [hnone.left]; rfl⟩

theorem get?_absent {w : Workspace} {name : String} (h : w.valueOf? name = none)
    (bindings : List (String × String)) :
    Entries.get? (absent w bindings) name = Entries.get? bindings name := by
  rw [Entries.get?, Entries.get?, absent, List.find?_filter]
  congr 2
  funext b
  by_cases hb : b.1 = name
  · simp [hb, h]
  · simp [hb]

theorem valueOf?_extend_absent (w : Workspace) (bindings : List (String × String))
    (name : String) :
    (w.extend (absent w bindings)).valueOf? name =
      (w.valueOf? name).or (Entries.get? bindings name) := by
  rw [Workspace.valueOf?_extend]
  cases h : w.valueOf? name with
  | none =>
      rw [get?_absent h]
  | some value =>
      rfl

theorem set_of_isFree {b : String × String} (hname : IsName b.1) (h : IsFree b)
    (w : Workspace) : set w b.1 b.2 = .ok (w.setVariable b.1 b.2) := by
  rw [set, h.name, h.value, if_neg (by decide), if_neg (by simpa using hname.noEquals),
    if_neg hname.nonempty]

theorem set_of_not_isFree {b : String × String} (h : ¬IsFree b) (w : Workspace) :
    set w b.1 b.2 = .error .nullCharacter := by
  have hnull : (holdsNull b.1 || holdsNull b.2) = true := by
    by_contra hnot
    rw [Bool.not_eq_true, Bool.or_eq_false_iff] at hnot
    exact h ⟨hnot.left, hnot.right⟩
  rw [set, if_pos hnull]

theorem addAbsent_cons_of_some {w : Workspace} {b : String × String} {value : String}
    (h : w.valueOf? b.1 = some value) (rest : List (String × String)) :
    addAbsent w (b :: rest) = addAbsent w rest := by
  rw [addAbsent, h]
  rfl

theorem addAbsent_cons_of_isFree {w : Workspace} {b : String × String}
    (h : w.valueOf? b.1 = none) (hname : IsName b.1) (hfree : IsFree b)
    (rest : List (String × String)) :
    addAbsent w (b :: rest) = addAbsent (w.extend [b]) rest := by
  rw [addAbsent, h, set_of_isFree hname hfree, Workspace.setVariable_of_none h]
  rfl

theorem addAbsent_cons_of_not_isFree {w : Workspace} {b : String × String}
    (h : w.valueOf? b.1 = none) (hfree : ¬IsFree b) (rest : List (String × String)) :
    addAbsent w (b :: rest) = (w, .error .nullCharacter) := by
  rw [addAbsent, h, set_of_not_isFree hfree]
  rfl

theorem addAbsent_append {w : Workspace} {before after : List (String × String)}
    (hlisting : IsListing (before ++ after))
    (hfree : forall b, b ∈ absent w before -> IsFree b) :
    addAbsent w (before ++ after) = addAbsent (w.extend (absent w before)) after := by
  induction before generalizing w with
  | nil =>
      rw [absent, List.filter_nil, Workspace.extend_nil, List.nil_append]
  | cons b rest ih =>
      have hrest : forall c, c ∈ rest -> c.1 ∉ [b].map Prod.fst := by
        intro c hc hmem
        apply hlisting.head_not_mem
        rw [← List.mem_singleton.mp hmem]
        exact List.mem_map_of_mem (List.mem_append_left after hc)
      rw [List.cons_append] at hlisting ⊢
      cases hb : w.valueOf? b.1 with
      | some value =>
          rw [absent_cons_of_some hb] at hfree ⊢
          rw [addAbsent_cons_of_some hb, ih hlisting.tail hfree]
      | none =>
          rw [absent_cons_of_none hb] at hfree ⊢
          have hname := hlisting.names b List.mem_cons_self
          have habsent := absent_extend (w := w) hrest
          rw [addAbsent_cons_of_isFree hb hname (hfree b List.mem_cons_self),
            ih hlisting.tail fun c hc => hfree c (List.mem_cons_of_mem b (habsent ▸ hc)),
            habsent, Workspace.extend_extend, List.singleton_append]

end Dotenv
end Palette
