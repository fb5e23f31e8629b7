import Palette.Proofs.Yaml.Listing
import Palette.Proofs.Yaml.WrittenEntries

/-!
# Reading a written mapping

A mapping of texts that was written is read as a mapping of texts, entry by entry,
whose keys are as they were.
-/

namespace Palette
namespace Yaml

variable {ν : Type}

/-!
# The document of the tokens
-/

theorem node_scalar (handles : List String) (fuel : Nat) (nodes : Nodes ν) (p : Phrase)
    (rest : List Token) :
    node handles (fuel + 1) .entry nodes (.scalar p :: rest) = .ok ⟨.text p, nodes, rest⟩ := by
  rw [node]
  · rfl
  · intro name tail h
    cases h

def readEntry (e : List Char × List Char) : Phrase × Datum ν :=
  (.ofChars e.1, .text (.ofChars (reread e.2)))

theorem blockValue_scalar (handles : List String) (fuel : Nat) (nodes : Nodes ν) (p : Phrase)
    (rest : List Token) :
    blockValue handles (fuel + 2) nodes (.value :: .scalar p :: rest) =
      .ok ⟨.text p, nodes, rest⟩ := by
  have hnode : blockValue handles (fuel + 2) nodes (.value :: .scalar p :: rest) =
      node handles (fuel + 1) .entry nodes (.scalar p :: rest) := by
    rw [blockValue]
    rfl
  rw [hnode, node_scalar]

theorem blockEntries_cons (handles : List String) (fuel : Nat) (nodes : Nodes ν)
    (e : List Char × List Char) (rest : List Token) :
    blockEntries handles (fuel + 3) nodes (Scanner.entryTokens e ++ rest) =
      (blockEntries handles (fuel + 2) nodes rest).map fun more =>
        more.cons (textEntry (readEntry e)) := by
  show blockEntries handles (fuel + 3) nodes (.key :: .scalar (.ofChars e.1) :: .value ::
    .scalar (.ofChars (reread e.2)) :: rest) = _
  rw [blockEntries]
  show (do
    let key ← node handles (fuel + 2) .entry nodes (.scalar (.ofChars e.1) :: .value ::
      .scalar (.ofChars (reread e.2)) :: rest)
    let value ← blockValue handles (fuel + 2) key.nodes key.rest
    let more ← blockEntries handles (fuel + 2) value.nodes value.rest
    .ok (more.cons (key.datum, value.datum))) = _
  rw [node_scalar]
  show (do
    let value ← blockValue handles (fuel + 2) nodes
      (.value :: .scalar (.ofChars (reread e.2)) :: rest)
    let more ← blockEntries handles (fuel + 2) value.nodes value.rest
    .ok (more.cons (Datum.text (.ofChars e.1), value.datum))) = _
  rw [blockValue_scalar]
  rfl

theorem blockEntries_written (handles : List String) (fuel : Nat) (nodes : Nodes ν)
    (entries : List (List Char × List Char)) :
    blockEntries handles (fuel + entries.length + 3) nodes
        (entries.flatMap Scanner.entryTokens ++ [.blockEnd, .streamEnd]) =
      .ok ⟨(entries.map readEntry).map textEntry, nodes, [.streamEnd]⟩ := by
  induction entries with
  | nil =>
      rw [List.flatMap_nil, List.nil_append, blockEntries]
      rfl
  | cons e rest ih =>
      have hfuel : fuel + (e :: rest).length + 3 = fuel + rest.length + 1 + 3 := rfl
      have hless : fuel + rest.length + 1 + 2 = fuel + rest.length + 3 := rfl
      rw [List.flatMap_cons, List.append_assoc, hfuel, blockEntries_cons, hless, ih]
      rfl

/-!
# The text as a whole
-/

theorem write_map_lineFeedFor (entries : List (List Char × List Char)) :
    (write (entries.map fun e => (e.1, .ofChars e.2))).map lineFeedFor =
      entries.flatMap Scanner.written := by
  induction entries with
  | nil =>
      rfl
  | cons e rest ih =>
      rw [List.flatMap_cons, ← ih, Scanner.written, ← List.map_append]
      rfl

theorem isKept_write_entries {entries : List (List Char × List Char)}
    (hkeys : forall e, e ∈ entries -> Scanner.IsKey e.1) :
    forall c, c ∈ write (entries.map fun e => (e.1, .ofChars e.2)) -> isKept c = true := by
  intro c hc
  simp only [write, List.mem_flatMap, List.mem_map] at hc
  rcases hc with ⟨_, ⟨e, he, rfl⟩, hc⟩
  simp only [entry, List.mem_append, List.mem_cons, List.not_mem_nil, or_false] at hc
  rcases hc with (hc | hc | hc | hc) | hc
  · exact isKept_of_isFixed (isFixed_of_isAlphanum ((hkeys e he).alphanum c hc))
  · rw [hc]
    rfl
  · rw [hc]
    rfl
  · exact isKept_scalar _ e.2 c hc
  · rw [hc]
    rfl

theorem ofChars_injective {s t : List Char} (h : Phrase.ofChars s = Phrase.ofChars t) : s = t := by
  have hchars := congrArg Phrase.chars? h
  rw [Phrase.chars?_ofChars, Phrase.chars?_ofChars] at hchars
  injection hchars

theorem length_flatMap_entryTokens (entries : List (List Char × List Char)) :
    (entries.flatMap Scanner.entryTokens).length = 4 * entries.length := by
  induction entries with
  | nil =>
      rfl
  | cons e rest ih =>
      rw [List.flatMap_cons, List.length_append, ih, List.length_cons]
      show 4 + 4 * rest.length = _
      omega

theorem lists_write {entries : List (List Char × List Char)} (hne : entries ≠ [])
    (hkeys : forall e, e ∈ entries -> Scanner.IsKey e.1) :
    Lists (write (entries.map fun e => (e.1, .ofChars e.2))) (entries.map (@readEntry ν)) := by
  let text := write (entries.map fun e => (e.1, .ofChars e.2))
  have hkept : forall c, c ∈ text -> isKept c = true := isKept_write_entries hkeys
  have hreadable : text.all isReadable = true := by
    rw [List.all_eq_true]
    intro c hc
    have hc' := hkept c hc
    rw [isKept, Bool.and_eq_true] at hc'
    exact hc'.left
  have hreturn : '\r' ∉ text := by
    intro hmem
    have hc := hkept '\r' hmem
    cases hc
  have htokens : tokens (normalize text) = .blockMappingStart ::
      (entries.flatMap Scanner.entryTokens ++ [.blockEnd, .streamEnd]) := by
    rw [normalize_of_no_return hreturn, write_map_lineFeedFor, tokens_written hne hkeys]
  have hlength : (tokens (normalize text)).length = 4 * entries.length + 3 := by
    rw [htokens, List.length_cons, List.length_append, length_flatMap_entryTokens]
    rfl
  have hfuel : 2 * (tokens (normalize text)).length + 1 =
      7 * entries.length + 4 + entries.length + 3 := by
    rw [hlength]
    omega
  refine ⟨hreadable, standardHandles, tokens (normalize text), [.streamEnd], .start, ?_, ?_, rfl,
    rfl⟩
  · rw [htokens]
    rfl
  · rw [hfuel, htokens]
    exact blockEntries_written standardHandles _ _ entries

theorem read_write {entries : List (List Char × List Char)} (hne : entries ≠ [])
    (hkeys : forall e, e ∈ entries -> Scanner.IsKey e.1)
    (hdistinct : entries.Pairwise fun d e => d.1 ≠ e.1) :
    (read (write (entries.map fun e => (e.1, .ofChars e.2))) : Except Fault (Datum ν)) =
      .ok (.mapping ((entries.map readEntry).map textEntry)) := by
  have hnodup : ((entries.map (@readEntry ν)).map Prod.fst).Nodup := by
    rw [List.map_map, List.Nodup, List.pairwise_map]
    apply hdistinct.imp
    intro d e hne heq
    exact hne (ofChars_injective heq)
  rw [read_eq_mapping_iff]
  refine ⟨entries.map readEntry, lists_write hne hkeys, ?_⟩
  rw [Entries.ofList_of_nodup hnodup]

end Yaml
end Palette
