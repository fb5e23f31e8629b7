import Palette.Proofs.Json.Values

/-!
# Values that are told apart

Texts of different values differ, up to the pairs of surrogates in them and if numbers that are
not whole have different decimals: reading a text gives the value back.  Joining the pairs
changes nothing in the text, so nothing else is told apart.
-/

namespace Palette
namespace Json

/-!
# Items and members
-/

section Lists

theorem mapItems_eq_map (f : ν → μ) (items : List (Json ν)) :
    mapItems f items = items.map (mapReal f) := by
  induction items with
  | nil =>
      rfl
  | cons item rest ih =>
      rw [mapItems, ih, List.map_cons]

theorem joinedItems_eq_map (items : List (Json ν)) : joinedItems items = items.map joined := by
  induction items with
  | nil =>
      rfl
  | cons item rest ih =>
      rw [joinedItems, ih, List.map_cons]

theorem mapMembers_eq_map (f : ν → μ) (members : List (String × Json ν)) :
    mapMembers f members = members.map fun m => (m.1, mapReal f m.2) := by
  induction members with
  | nil =>
      rfl
  | cons m rest ih =>
      rw [mapMembers, ih, List.map_cons]

theorem joinedMembers_eq_map (members : List (String × Json ν)) :
    joinedMembers members = members.map fun m => (m.1, m.2.joined) := by
  induction members with
  | nil =>
      rfl
  | cons m rest ih =>
      rw [joinedMembers, ih, List.map_cons]

theorem eq_of_map_eq {f : α → β} {s t : List α}
    (h : forall x, x ∈ s -> forall y, y ∈ t -> f x = f y -> x = y) (hmap : s.map f = t.map f) :
    s = t := by
  induction s generalizing t with
  | nil =>
      exact (List.map_eq_nil_iff.mp hmap.symm).symm
  | cons x s ih =>
      cases t with
      | nil =>
          cases hmap
      | cons y t =>
          injection hmap with hhead htail
          have hx := h x List.mem_cons_self y List.mem_cons_self hhead
          have hs : s = t := by
            refine ih (fun x' hx' y' hy' => ?_) htail
            exact h x' (List.mem_cons_of_mem x hx') y' (List.mem_cons_of_mem y hy')
          rw [hx, hs]

end Lists

section Same

variable {ν : Type} {isReal : ν → Prop}

theorem HasReals.joined {v : Json ν} (h : HasReals isReal v) :
    HasReals isReal v.joined := by
  induction h with
  | null =>
      exact .null
  | bool b =>
      exact .bool b
  | int i =>
      exact .int i
  | real h =>
      exact .real h
  | text _ =>
      exact .text trivial
  | @array items h ih =>
      rw [Json.joined, joinedItems_eq_map]
      refine .array fun w hw => ?_
      rcases List.mem_map.mp hw with ⟨item, hitem, rfl⟩
      exact ih item hitem
  | @object members h ih =>
      rw [Json.joined, joinedMembers_eq_map]
      refine .object fun w hw => ?_
      rcases List.mem_map.mp hw with ⟨m, hm, rfl⟩
      exact ih m hm

theorem eq_of_mapReal_eq {f : ν → μ}
    (hf : forall x y, isReal x -> isReal y -> f x = f y -> x = y) {v w : Json ν}
    (hv : HasReals isReal v) (hw : HasReals isReal w)
    (h : v.mapReal f = w.mapReal f) : v = w := by
  induction hv generalizing w with
  | null =>
      cases hw with
      | null =>
          rfl
      | _ =>
          cases h
  | bool b =>
      cases hw with
      | bool c =>
          cases h
          rfl
      | _ =>
          cases h
  | int i =>
      cases hw with
      | int j =>
          cases h
          rfl
      | _ =>
          cases h
  | @real x hx =>
      cases hw with
      | @real y hy =>
          injection h with hxy
          rw [hf x y hx hy hxy]
      | _ =>
          cases h
  | text hp =>
      cases hw with
      | text hq =>
          injection h with hpq
          rw [hpq]
      | _ =>
          cases h
  | @array items _ ih =>
      cases hw with
      | @array others hothers =>
          injection h with hmap
          rw [mapItems_eq_map, mapItems_eq_map] at hmap
          rw [eq_of_map_eq (fun item hitem other hother => ih item hitem (hothers other hother))
            hmap]
      | _ =>
          cases h
  | @object members _ ih =>
      cases hw with
      | @object others hothers =>
          injection h with hmap
          rw [mapMembers_eq_map, mapMembers_eq_map] at hmap
          have hsame : members = others := by
            refine eq_of_map_eq (fun m hm m' hm' heq => ?_) hmap
            have hvalue := ih m hm (hothers m' hm') (Prod.mk.inj heq).right
            exact Prod.ext (Prod.mk.inj heq).left hvalue
          rw [hsame]
      | _ =>
          cases h

theorem joined_eq_self {v : Json ν} (h : v.IsUnpaired) : v.joined = v := by
  induction h with
  | null =>
      rfl
  | bool b =>
      rfl
  | int i =>
      rfl
  | real _ =>
      rfl
  | text hp =>
      rw [joined, Phrase.joined_eq_self_iff.mpr hp]
  | @array items _ ih =>
      rw [joined, joinedItems_eq_map, List.map_congr_left ih, List.map_id']
  | @object members _ ih =>
      have hmembers : forall m, m ∈ members -> (m.1, m.2.joined) = m := by
        intro m hm
        rw [ih m hm]
      rw [joined, joinedMembers_eq_map, List.map_congr_left hmembers, List.map_id']

variable [Scalar ν]

theorem printItems_joined {depth : Nat} {items : List (Json ν)}
    (h : forall v, v ∈ items -> printAt depth v.joined = printAt depth v) :
    printItems depth (joinedItems items) = printItems depth items := by
  induction items with
  | nil =>
      rfl
  | cons item rest ih =>
      rw [joinedItems, printItems, printItems, h item List.mem_cons_self,
        ih fun v hv => h v (List.mem_cons_of_mem item hv)]

theorem printMembers_joined {depth : Nat} {members : List (String × Json ν)}
    (h : forall m, m ∈ members -> printAt depth m.2.joined = printAt depth m.2) :
    printMembers depth (joinedMembers members) = printMembers depth members := by
  induction members with
  | nil =>
      rfl
  | cons m rest ih =>
      rw [joinedMembers, printMembers, printMembers, h m List.mem_cons_self,
        ih fun m' hm => h m' (List.mem_cons_of_mem m hm)]

theorem printAt_joined {v : Json ν} (h : HasReals isReal v) (depth : Nat) :
    printAt depth v.joined = printAt depth v := by
  induction h generalizing depth with
  | null =>
      rfl
  | bool b =>
      rfl
  | int i =>
      rfl
  | real hx =>
      rfl
  | @text p _ =>
      exact printText_joined p
  | @array items _ ih =>
      cases items with
      | nil =>
          rfl
      | cons item rest =>
          rw [Json.joined, joinedItems, printAt, printAt, ih item List.mem_cons_self,
            printItems_joined fun v hv => ih v (List.mem_cons_of_mem item hv) (depth + 1)]
  | @object members _ ih =>
      cases members with
      | nil =>
          rfl
      | cons m rest =>
          rw [Json.joined, joinedMembers, printAt, printAt, ih m List.mem_cons_self,
            printMembers_joined fun m' hm => ih m' (List.mem_cons_of_mem m hm) (depth + 1)]

/-- Texts of values are the same exactly if the values are, apart from pairs of surrogates. -/
theorem print_eq_iff {decimalOf : ν → Decimal}
    (hreal : forall x, isReal x -> IsNumeral x (decimalOf x))
    (hdistinct : forall x y, isReal x -> isReal y -> decimalOf x = decimalOf y -> x = y)
    {v w : Json ν} (hv : HasReals isReal v) (hw : HasReals isReal w) :
    v.print = w.print <-> v.joined = w.joined := by
  constructor
  · intro h
    have hread := parse?_print hreal hv
    rw [h, parse?_print hreal hw, Option.some.injEq] at hread
    exact eq_of_mapReal_eq hdistinct hv.joined hw.joined hread.symm
  · intro h
    rw [Json.print, Json.print, ← printAt_joined hv, ← printAt_joined hw, h]

end Same

end Json
end Palette
