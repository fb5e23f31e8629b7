import Palette.Proofs.Entries
import Palette.Proofs.Template.Dependence

/-!
# Names of a tree

The names of a source are those of its tree, from the root on and from left to right: a section
names its field in front of what stands in it.  Each name comes up where it comes first.
-/

namespace Palette
namespace Template

mutual

/-- The names that a node and the nodes in it look up, a section before its children. -/
def Node.names : Node → List String
  | .text _ => []
  | .var name => [name]
  | .raw name => [name]
  | .block _ name children => name :: treeNames children

def treeNames : List Node → List String
  | [] => []
  | node :: rest => node.names ++ treeNames rest

end

mutual

theorem filterMap_flatten (node : Node) : node.flatten.filterMap Mark.fieldName? = node.names := by
  cases node with
  | text chars =>
      rfl
  | var name =>
      rfl
  | raw name =>
      rfl
  | block gate name children =>
      have hinner := filterMap_flattenNodes children
      rw [Node.flatten, List.filterMap_append, List.filterMap_cons, hinner]
      exact List.append_nil _

theorem filterMap_flattenNodes (tree : List Node) :
    (flattenNodes tree).filterMap Mark.fieldName? = treeNames tree := by
  cases tree with
  | nil =>
      rfl
  | cons node rest =>
      rw [flattenNodes, List.filterMap_append, filterMap_flatten node, filterMap_flattenNodes rest,
        treeNames]

end

/-!
# First places
-/

theorem distinct_eq_eraseDups (names : List String) : distinct names = names.eraseDups := by
  induction names using List.reverseRecOn with
  | nil =>
      rfl
  | append_singleton front last ih =>
      rw [distinct_concat, Entries.eraseDups_concat, ih]
      simp only [List.mem_eraseDups]
      split
      · exact (List.append_nil _).symm
      · rfl

theorem distinct_append (front back : List String) :
    distinct (front ++ back) =
      distinct front ++ (distinct back).filter fun name => name ∉ distinct front := by
  simp only [mem_distinct_iff]
  rw [distinct_eq_eraseDups, distinct_eq_eraseDups, distinct_eq_eraseDups,
    Entries.eraseDups_append_eq_filter]

theorem pairwise_idxOf_distinct (names : List String) :
    (distinct names).Pairwise fun a b => names.idxOf a < names.idxOf b := by
  induction names using List.reverseRecOn with
  | nil =>
      exact List.Pairwise.nil
  | append_singleton front last ih =>
      have hkept : (distinct front).Pairwise fun a b =>
          (front ++ [last]).idxOf a < (front ++ [last]).idxOf b := by
        apply ih.imp_of_mem
        intro a b ha hb hlt
        rw [List.idxOf_append_of_mem (mem_distinct_iff.mp ha),
          List.idxOf_append_of_mem (mem_distinct_iff.mp hb)]
        exact hlt
      rw [distinct_concat]
      split
      case isTrue =>
        exact hkept
      case isFalse hlast =>
        rw [List.pairwise_append]
        refine ⟨hkept, List.pairwise_singleton _ last, ?_⟩
        intro a ha b hb
        rw [List.mem_singleton.mp hb]
        have hfront := mem_distinct_iff.mp ha
        have hnew : last ∉ front := fun hmem => hlast (mem_distinct_iff.mpr hmem)
        rw [List.idxOf_append_of_mem hfront, List.idxOf_append_of_notMem hnew]
        exact Nat.lt_add_right _ (List.idxOf_lt_length_of_mem hfront)

/-- The names of a source that has a tree are all names of the tree and no others, each of them
once and in the order in which the tree names them first. -/
theorem fieldNames_eq_names_of_tree {source : String} {tree : List Node}
    (h : parse source = .ok tree) :
    fieldNames source = (treeNames tree).eraseDups ∧
      (forall name, name ∈ fieldNames source <-> name ∈ treeNames tree) ∧
      (fieldNames source).Nodup ∧
      (fieldNames source).Pairwise fun a b =>
        (treeNames tree).idxOf a < (treeNames tree).idxOf b := by
  have hnames : fieldNames source = distinct (treeNames tree) := by
    rw [fieldNames_eq_distinct, ← flattenNodes_of_parse_eq_ok h, filterMap_flattenNodes]
  have hplaces := pairwise_idxOf_distinct (treeNames tree)
  rw [hnames]
  refine ⟨distinct_eq_eraseDups _, fun name => mem_distinct_iff, ?_, hplaces⟩
  apply hplaces.imp
  rintro a b hlt rfl
  exact Nat.lt_irrefl _ hlt

def repeatedSource : String :=
  "\x7b\x7ba\x7d\x7d\x7b\x7b#b\x7d\x7d\x7b\x7ba\x7d\x7d\x7b\x7b\x7bc\x7d\x7d\x7d\x7b\x7b/b\x7d\x7d" ++
    "\x7b\x7b! x \x7d\x7d\x7b\x7b& d\x7d\x7d"

theorem fieldNames_eq_names_of_tree_of_repeats :
    exists tree, parse repeatedSource = .ok tree ∧
      tree = [.var "a", .block .found "b" [.var "a", .raw "c"], .raw "d"] ∧
      fieldNames repeatedSource = ["a", "b", "c", "d"] := by
  have hparse : parse repeatedSource =
      .ok [.var "a", .block .found "b" [.var "a", .raw "c"], .raw "d"] :=
    parse_eq_ok_of_flattenNodes (by decide +kernel)
  refine ⟨_, hparse, rfl, ?_⟩
  rw [(fieldNames_eq_names_of_tree hparse).left]
  decide +kernel

end Template
end Palette
