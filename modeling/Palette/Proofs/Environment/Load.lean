import Palette.Environment.Load

/-!
# What loading changes

Loading variables changes nothing of a workspace but its variables.
-/

namespace Palette
namespace Dotenv

theorem set_ok {w v : Workspace} {name value : String} (h : set w name value = .ok v) :
    v = w.setVariable name value := by
  rw [set] at h
  split at h
  · cases h
  · split at h
    · cases h
    · split at h
      · cases h
      · injection h with h
        exact h.symm

theorem addAbsent_eq (w : Workspace) (bindings : List (String × String)) :
    (addAbsent w bindings).1 =
      { w with environment := (addAbsent w bindings).1.environment } := by
  induction bindings generalizing w with
  | nil =>
      rfl
  | cons binding rest ih =>
      rcases binding with ⟨name, value⟩
      rw [addAbsent]
      split
      · exact ih w
      · split
        · rfl
        case h_2 v hset =>
          have hrest := ih v
          rw [set_ok hset] at hrest ⊢
          exact hrest

theorem load_eq (w : Workspace) (file : Option String) :
    (load w file).1 = { w with environment := (load w file).1.environment } := by
  rw [load]
  split
  · rfl
  · rfl
  · split
    · rfl
    case h_2 bindings _ =>
      have hadd := addAbsent_eq w bindings
      split
      case h_1 v fault heq =>
        rw [heq] at hadd
        exact hadd
      case h_2 v heq =>
        rw [heq] at hadd
        exact hadd

end Dotenv
end Palette
