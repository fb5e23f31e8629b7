import Mathlib.Data.List.Induction
import Palette.Entries

/-!
# Entries that are put one after the other

The keys stand in the order in which they first came, and each has the value that
came last with it.
-/

namespace Palette
namespace Entries

variable {α β : Type} [BEq α]

theorem putAll_append (es front back : List (α × β)) :
    putAll es (front ++ back) = putAll (putAll es front) back :=
  List.foldl_append

theorem putAll_concat (es items : List (α × β)) (e : α × β) :
    putAll es (items ++ [e]) = put (putAll es items) e.1 e.2 :=
  putAll_append es items [e]

theorem ofList_append_eq_putAll (front back : List (α × β)) :
    ofList (front ++ back) = putAll (ofList front) back :=
  putAll_append [] front back

theorem ofList_concat (items : List (α × β)) (e : α × β) :
    ofList (items ++ [e]) = put (ofList items) e.1 e.2 :=
  putAll_concat [] items e

theorem get?_append (front back : List (α × β)) (key : α) :
    get? (front ++ back) key = (get? front key).or (get? back key) := by
  rw [get?, List.find?_append]
  cases hfront : front.find? (fun e => e.1 == key) with
  | none =>
      simp [get?, hfront]
  | some e =>
      simp [get?, hfront]

variable [LawfulBEq α]

/-!
# One entry
-/

theorem put_cons_of_eq {k key : α} (h : k = key) (v value : β) (rest : List (α × β)) :
    put ((k, v) :: rest) key value = (key, value) :: rest := by
  rw [h, put, putBy, if_pos (beq_self_eq_true key)]

theorem put_cons_of_ne {k key : α} (h : k ≠ key) (v value : β) (rest : List (α × β)) :
    put ((k, v) :: rest) key value = (k, v) :: put rest key value := by
  have hkey : ¬(k == key) = true := fun heq => h (beq_iff_eq.mp heq)
  rw [put, putBy, if_neg hkey, put]

theorem put_of_not_mem {es : List (α × β)} {key : α} (value : β)
    (h : key ∉ es.map Prod.fst) : put es key value = es ++ [(key, value)] := by
  induction es with
  | nil =>
      rfl
  | cons e rest ih =>
      rw [List.map_cons, List.mem_cons, not_or] at h
      rw [put_cons_of_ne (Ne.symm h.left), ih h.right, List.cons_append]

theorem mem_put {es : List (α × β)} {key : α} {value : β} {e : α × β}
    (h : e ∈ put es key value) : e = (key, value) ∨ e ∈ es := by
  induction es with
  | nil =>
      exact Or.inl (List.mem_singleton.mp h)
  | cons d rest ih =>
      by_cases hkey : d.1 = key
      · rw [put_cons_of_eq hkey] at h
        exact (List.mem_cons.mp h).imp_right (List.mem_cons_of_mem d)
      · rw [put_cons_of_ne hkey] at h
        rcases List.mem_cons.mp h with rfl | hrest
        · exact Or.inr List.mem_cons_self
        · exact (ih hrest).imp_right (List.mem_cons_of_mem d)

theorem mem_putAll {es more : List (α × β)} {e : α × β} (h : e ∈ putAll es more) :
    e ∈ more ∨ e ∈ es := by
  induction more generalizing es with
  | nil =>
      exact Or.inr h
  | cons d rest ih =>
      rcases ih h with hrest | hput
      · exact Or.inl (List.mem_cons_of_mem d hrest)
      · rcases mem_put hput with rfl | hmem
        · exact Or.inl List.mem_cons_self
        · exact Or.inr hmem

theorem get?_eq_none_iff {es : List (α × β)} {key : α} :
    get? es key = none <-> key ∉ es.map Prod.fst := by
  simp only [get?, Option.map_eq_none_iff, List.find?_eq_none, List.mem_map, beq_iff_eq]
  constructor
  · rintro h ⟨e, he, hkey⟩
    exact h e he hkey
  · intro h e he hkey
    exact h ⟨e, he, hkey⟩

theorem keys_put_of_mem {es : List (α × β)} {key : α} (value : β)
    (h : key ∈ es.map Prod.fst) : (put es key value).map Prod.fst = es.map Prod.fst := by
  induction es with
  | nil =>
      cases h
  | cons e rest ih =>
      rcases e with ⟨k, v⟩
      by_cases hk : k = key
      · rw [put_cons_of_eq hk, ← hk]
        rfl
      · rw [List.map_cons, List.mem_cons] at h
        have hrest := h.resolve_left fun heq => hk heq.symm
        rw [put_cons_of_ne hk, List.map_cons, List.map_cons, ih hrest]

theorem keys_put (es : List (α × β)) (key : α) (value : β) :
    (put es key value).map Prod.fst =
      es.map Prod.fst ++ if key ∈ es.map Prod.fst then [] else [key] := by
  split
  case isTrue hmem =>
    rw [keys_put_of_mem value hmem, List.append_nil]
  case isFalse hmem =>
    rw [put_of_not_mem value hmem, List.map_append]
    rfl

theorem get?_put_self (es : List (α × β)) (key : α) (value : β) :
    get? (put es key value) key = some value := by
  induction es with
  | nil =>
      simp [put, putBy, get?]
  | cons e rest ih =>
      rcases e with ⟨k, v⟩
      by_cases hk : k = key
      · rw [put_cons_of_eq hk]
        simp [get?]
      · rw [put_cons_of_ne hk]
        rw [get?] at ih ⊢
        rw [List.find?_cons_of_neg (by simpa using hk), ih]

theorem get?_put_of_ne (es : List (α × β)) {key other : α} (value : β) (h : key ≠ other) :
    get? (put es key value) other = get? es other := by
  induction es with
  | nil =>
      simp [put, putBy, get?, h]
  | cons e rest ih =>
      rcases e with ⟨k, v⟩
      by_cases hk : k = key
      · rw [put_cons_of_eq hk, hk]
        simp [get?, h]
      · rw [put_cons_of_ne hk]
        simp only [get?, List.find?_cons] at ih ⊢
        cases hother : k == other with
        | true =>
            rfl
        | false =>
            exact ih

theorem get?_erase_of_ne (es : List (α × β)) {key other : α} (h : key ≠ other) :
    get? (erase es key) other = get? es other := by
  rw [get?, get?, erase, List.find?_filter]
  congr 2
  funext e
  by_cases he : e.1 = other
  · simp [he, Ne.symm h]
  · simp [he]

/-!
# First places
-/

omit β in
theorem eraseDups_concat (names : List α) (last : α) :
    (names ++ [last]).eraseDups = names.eraseDups ++ if last ∈ names then [] else [last] := by
  rw [List.eraseDups_append]
  by_cases hlast : last ∈ names
  · simp [List.removeAll, hlast]
  · simp [List.removeAll, hlast, List.eraseDups_cons]

theorem eraseDups_append_eq_filter (front back : List α) :
    (front ++ back).eraseDups =
      front.eraseDups ++ back.eraseDups.filter fun name => name ∉ front := by
  induction back using List.reverseRecOn with
  | nil =>
      rw [List.append_nil]
      exact (List.append_nil _).symm
  | append_singleton back last ih =>
      rw [← List.append_assoc, eraseDups_concat, ih, eraseDups_concat, List.filter_append,
        List.append_assoc]
      congr 1
      by_cases hfront : last ∈ front
      · by_cases hback : last ∈ back
        · simp [hfront, hback]
        · simp [hfront, hback]
      · by_cases hback : last ∈ back
        · simp [hfront, hback]
        · simp [hfront, hback]

/-!
# All entries
-/

theorem keys_ofList (items : List (α × β)) :
    (ofList items).map Prod.fst = (items.map Prod.fst).eraseDups := by
  induction items using List.reverseRecOn with
  | nil =>
      rfl
  | append_singleton items e ih =>
      rw [ofList_concat, keys_put, ih, List.map_append, List.map_singleton, eraseDups_concat]
      simp only [List.mem_eraseDups]

theorem get?_ofList (items : List (α × β)) (key : α) :
    get? (ofList items) key = get? items.reverse key := by
  induction items using List.reverseRecOn with
  | nil =>
      rfl
  | append_singleton items e ih =>
      rw [ofList_concat, List.reverse_append]
      by_cases hkey : e.1 = key
      · rw [hkey, get?_put_self]
        simp [get?, hkey]
      · rw [get?_put_of_ne _ _ hkey, ih]
        simp [get?, hkey]

/-- The entry with a key behind which no other one has it. -/
def IsLast (items : List (α × β)) (key : α) (value : β) : Prop :=
  exists before after, items = before ++ (key, value) :: after ∧ key ∉ after.map Prod.fst

theorem get?_ofList_eq_some_iff {items : List (α × β)} {key : α} {value : β} :
    get? (ofList items) key = some value <-> IsLast items key value := by
  rw [get?_ofList, get?, Option.map_eq_some_iff]
  constructor
  · rintro ⟨e, hfind, rfl⟩
    rcases List.find?_eq_some_iff_append.mp hfind with ⟨hkey, after, before, hsplit, hafter⟩
    refine ⟨before.reverse, after.reverse, ?_, ?_⟩
    · rw [← beq_iff_eq.mp hkey, ← List.reverse_reverse items, hsplit]
      simp
    · intro hmem
      rcases List.mem_map.mp hmem with ⟨d, hd, hdkey⟩
      have hne : (!d.1 == key) = true := hafter d (List.mem_reverse.mp hd)
      rw [hdkey, beq_self_eq_true] at hne
      cases hne
  · rintro ⟨before, after, rfl, hafter⟩
    refine ⟨(key, value), ?_, rfl⟩
    rw [List.find?_eq_some_iff_append]
    refine ⟨beq_self_eq_true key, after.reverse, before.reverse, by simp, ?_⟩
    intro d hd
    have hne : d.1 ≠ key := fun heq =>
      hafter (List.mem_map.mpr ⟨d, List.mem_reverse.mp hd, heq⟩)
    show (!d.1 == key) = true
    rw [beq_eq_false_iff_ne.mpr hne]
    rfl

theorem nodup_keys_ofList (items : List (α × β)) : ((ofList items).map Prod.fst).Nodup := by
  induction items using List.reverseRecOn with
  | nil =>
      exact List.nodup_nil
  | append_singleton items e ih =>
      rw [ofList_concat]
      by_cases hmem : e.1 ∈ (ofList items).map Prod.fst
      · rw [keys_put_of_mem e.2 hmem]
        exact ih
      · rw [put_of_not_mem e.2 hmem, List.map_append, List.map_singleton]
        rw [List.nodup_append]
        refine ⟨ih, List.pairwise_singleton _ e.1, ?_⟩
        intro a ha b hb heq
        rw [List.mem_singleton.mp hb] at heq
        exact hmem (heq ▸ ha)

omit β in
theorem nodup_eraseDups (names : List α) : names.eraseDups.Nodup := by
  have hkeys := nodup_keys_ofList (names.map fun name => (name, ()))
  rw [keys_ofList, List.map_map] at hkeys
  simpa [Function.comp_def] using hkeys

theorem ofList_of_nodup {items : List (α × β)} (h : (items.map Prod.fst).Nodup) :
    ofList items = items := by
  induction items using List.reverseRecOn with
  | nil =>
      rfl
  | append_singleton items e ih =>
      rw [List.map_append, List.nodup_append] at h
      have hmem : e.1 ∉ items.map Prod.fst := by
        intro hmem
        exact h.right.right e.1 hmem e.1 List.mem_cons_self rfl
      have hitems := ih h.left
      rw [ofList_concat, hitems, put_of_not_mem e.2 hmem]

theorem get?_of_mem {es : List (α × β)} (h : (es.map Prod.fst).Nodup) {e : α × β} (he : e ∈ es) :
    get? es e.1 = some e.2 := by
  induction es with
  | nil =>
      cases he
  | cons d rest ih =>
      rw [List.map_cons, List.nodup_cons] at h
      rw [get?]
      cases he with
      | head =>
          simp
      | tail _ hmem =>
          have hne : d.1 ≠ e.1 := by
            intro heq
            exact h.left (List.mem_map.mpr ⟨e, hmem, heq.symm⟩)
          rw [List.find?_cons_of_neg (by simpa using hne)]
          exact ih h.right hmem

theorem mem_of_get?_eq_some {es : List (α × β)} {key : α} {value : β}
    (h : get? es key = some value) : (key, value) ∈ es := by
  rw [get?, Option.map_eq_some_iff] at h
  rcases h with ⟨e, hfind, hvalue⟩
  have hkey := List.find?_some hfind
  rw [← beq_iff_eq.mp hkey, ← hvalue]
  exact List.mem_of_find?_eq_some hfind

theorem get?_eq_some_iff_mem {es : List (α × β)} (h : (es.map Prod.fst).Nodup) {key : α}
    {value : β} : get? es key = some value <-> (key, value) ∈ es :=
  ⟨mem_of_get?_eq_some, fun hmem => get?_of_mem h hmem⟩

theorem mem_of_mem_ofList {items : List (α × β)} {e : α × β} (h : e ∈ ofList items) :
    e ∈ items := by
  have hget := get?_of_mem (nodup_keys_ofList items) h
  rw [get?_ofList] at hget
  exact List.mem_reverse.mp (mem_of_get?_eq_some hget)

/-!
# Updates
-/

theorem get?_putAll (es items : List (α × β)) (key : α) :
    get? (putAll es items) key = (get? items.reverse key).or (get? es key) := by
  induction items using List.reverseRecOn with
  | nil =>
      rfl
  | append_singleton items e ih =>
      rw [putAll_concat, List.reverse_append, get?_append]
      by_cases hkey : e.1 = key
      · rw [hkey, get?_put_self]
        simp [get?, hkey]
      · rw [get?_put_of_ne _ _ hkey, ih]
        simp [get?, hkey]

/-- A mapping that was updated by another one: the keys that were there keep their places, new
ones follow in the order of the other, and the values of the other count. -/
structure IsUpdate (old more updated : List (α × β)) : Prop where
  keys : updated.map Prod.fst =
    old.map Prod.fst ++ (more.map Prod.fst).filter fun key => key ∉ old.map Prod.fst
  values : forall key, get? updated key = (get? more key).or (get? old key)

theorem get?_reverse {items : List (α × β)} (h : (items.map Prod.fst).Nodup) (key : α) :
    get? items.reverse key = get? items key := by
  rw [← get?_ofList, ofList_of_nodup h]

theorem keys_putAll (es : List (α × β)) {items : List (α × β)}
    (h : (items.map Prod.fst).Nodup) :
    (putAll es items).map Prod.fst =
      es.map Prod.fst ++ (items.map Prod.fst).filter fun key => key ∉ es.map Prod.fst := by
  induction items using List.reverseRecOn with
  | nil =>
      exact (List.append_nil _).symm
  | append_singleton items e ih =>
      rw [List.map_append, List.map_singleton, List.nodup_append] at h
      have hnew : e.1 ∉ items.map Prod.fst := fun hmem =>
        h.right.right e.1 hmem e.1 (List.mem_singleton.mpr rfl) rfl
      have hmem : e.1 ∈ (putAll es items).map Prod.fst <-> e.1 ∈ es.map Prod.fst := by
        rw [ih h.left, List.mem_append, List.mem_filter]
        exact or_iff_left fun hitems => hnew hitems.left
      rw [putAll_concat, keys_put, ih h.left, List.map_append, List.filter_append,
        List.append_assoc]
      simp only [← ih h.left, hmem]
      by_cases hold : e.1 ∈ es.map Prod.fst
      · simp [hold]
      · simp [hold]

theorem isUpdate_putAll (es : List (α × β)) {items : List (α × β)}
    (h : (items.map Prod.fst).Nodup) : IsUpdate es items (putAll es items) where
  keys := keys_putAll es h
  values key := by rw [get?_putAll, get?_reverse h]

theorem eq_of_keys_of_get? {es fs : List (α × β)} (hes : (es.map Prod.fst).Nodup)
    (hkeys : es.map Prod.fst = fs.map Prod.fst) (hget : forall key, get? es key = get? fs key) :
    es = fs := by
  apply List.ext_getElem?
  intro k
  have hfs := hes
  rw [hkeys] at hfs
  have hkey := congrArg (fun keys : List α => keys[k]?) hkeys
  simp only [List.getElem?_map] at hkey
  cases he : es[k]? with
  | none =>
      rw [he, Option.map_none] at hkey
      exact (Option.map_eq_none_iff.mp hkey.symm).symm
  | some e =>
      rw [he, Option.map_some] at hkey
      rcases Option.map_eq_some_iff.mp hkey.symm with ⟨d, hd, hsame⟩
      have hvalue := hget e.1
      rw [get?_of_mem hes (List.mem_of_getElem? he), ← hsame,
        get?_of_mem hfs (List.mem_of_getElem? hd)] at hvalue
      rw [hd, Prod.ext hsame (Option.some.inj hvalue).symm]

theorem eq_of_keys_of_mem {es fs : List (α × β)} (hes : (es.map Prod.fst).Nodup)
    (hkeys : es.map Prod.fst = fs.map Prod.fst)
    (hmem : forall key value, (key, value) ∈ es <-> (key, value) ∈ fs) : es = fs := by
  have hfs := hes
  rw [hkeys] at hfs
  refine eq_of_keys_of_get? hes hkeys fun key => Option.ext fun value => ?_
  rw [get?_eq_some_iff_mem hes, get?_eq_some_iff_mem hfs, hmem]

theorem ofList_append (front back : List (α × β)) :
    ofList (front ++ back) = putAll (ofList front) (ofList back) := by
  have hback := nodup_keys_ofList back
  refine eq_of_keys_of_get? (nodup_keys_ofList _) ?_ ?_
  · rw [keys_putAll _ hback, keys_ofList, keys_ofList, keys_ofList, List.map_append,
      eraseDups_append_eq_filter]
    simp only [List.mem_eraseDups]
  · intro key
    rw [ofList_append_eq_putAll, get?_putAll, get?_putAll, get?_reverse hback, get?_ofList back]

/-!
# The last entry
-/

/-- The value that came last with the key that was the last to come up. -/
def newest (items : List (α × β)) : Option β :=
  (items.map Prod.fst).eraseDups.getLast?.bind fun key => get? items.reverse key

theorem getLast?_ofList (items : List (α × β)) :
    (ofList items).getLast?.map Prod.snd = newest items := by
  rw [newest, ← keys_ofList, List.getLast?_map]
  cases hlast : (ofList items).getLast? with
  | none =>
      rfl
  | some e =>
      have hmem := List.mem_of_getLast? hlast
      have hget := get?_of_mem (nodup_keys_ofList items) hmem
      rw [get?_ofList] at hget
      exact hget.symm

theorem length_ofList (items : List (α × β)) :
    (ofList items).length = (items.map Prod.fst).eraseDups.length := by
  rw [← keys_ofList, List.length_map]

end Entries
end Palette
