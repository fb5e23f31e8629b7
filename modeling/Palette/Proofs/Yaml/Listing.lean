import Palette.Proofs.Entries
import Palette.Yaml.Read

/-!
# The entries of a document as they stand

A document that is a mapping lists its entries in some order, and a key may come more
than once.  The mapping that is read has each key where it first came, with the value
that came last.
-/

namespace Palette
namespace Yaml

variable {ν : Type}

/-!
# Mappings with texts as keys
-/

def textEntry (e : Phrase × Datum ν) : Datum ν × Datum ν :=
  (.text e.1, e.2)

theorem putBy_textEntry (es : List (Phrase × Datum ν)) (key : Phrase) (value : Datum ν) :
    Entries.putBy sameText (es.map textEntry) (.text key) value =
      (Entries.put es key value).map textEntry := by
  induction es with
  | nil =>
      rfl
  | cons e rest ih =>
      rcases e with ⟨k, v⟩
      by_cases hkey : k = key
      · rw [Entries.put_cons_of_eq hkey]
        show (if (k == key) = true then _ else _) = _
        rw [hkey, if_pos (beq_self_eq_true key)]
        rfl
      · have hbeq : ¬(k == key) = true := fun heq => hkey (beq_iff_eq.mp heq)
        rw [Entries.put_cons_of_ne hkey]
        show (if (k == key) = true then _ else _) = _
        rw [if_neg hbeq, ih]
        rfl

theorem foldl_putBy_textEntry (items : List (Phrase × Datum ν)) :
    (items.map textEntry).foldl (fun es e => Entries.putBy sameText es e.1 e.2) [] =
      (Entries.ofList items).map textEntry := by
  induction items using List.reverseRecOn with
  | nil =>
      rfl
  | append_singleton items e ih =>
      rw [List.map_append, List.foldl_append, ih, Entries.ofList_concat, ← putBy_textEntry]
      rfl

theorem all_isText_textEntry (items : List (Phrase × Datum ν)) :
    (items.map textEntry).all (fun e => isText e.1) = true := by
  rw [List.all_map, List.all_eq_true]
  intro e _
  rfl

theorem exists_text_of_isText {d : Datum ν} (h : isText d = true) :
    exists p : Phrase, d = .text p := by
  cases d with
  | text p => exact ⟨p, rfl⟩
  | none => cases h
  | bool b => cases h
  | int n => cases h
  | real x => cases h
  | list ds => cases h
  | mapping ms => cases h

theorem exists_textEntry {items : List (Datum ν × Datum ν)}
    (h : items.all (fun e => isText e.1) = true) :
    exists es : List (Phrase × Datum ν), items = es.map textEntry := by
  induction items with
  | nil =>
      exact ⟨[], rfl⟩
  | cons e rest ih =>
      rw [List.all_cons, Bool.and_eq_true] at h
      rcases ih h.right with ⟨es, hes⟩
      rcases exists_text_of_isText h.left with ⟨p, hp⟩
      refine ⟨(p, e.2) :: es, ?_⟩
      rw [hes, List.map_cons, textEntry, ← hp]

theorem mappingPart_textEntry (items : List (Phrase × Datum ν)) (nodes : Nodes ν)
    (rest : List Token) :
    mappingPart ⟨items.map textEntry, nodes, rest⟩ =
      ⟨.mapping ((Entries.ofList items).map textEntry), nodes, rest⟩ := by
  have hfold := foldl_putBy_textEntry items
  simp only [mappingPart, all_isText_textEntry, Bool.and_true]
  rw [← hfold]

/-!
# The mapping of a document
-/

/-- The entries of a mapping, in front of which properties may stand. -/
def mappingItems (handles : List String) (fuel : Nat) (tokens : List Token) :
    Except Fault (Parts (Datum ν × Datum ν) ν) :=
  match (properties tokens).1.fault? handles (@Nodes.start ν) (properties tokens).2 with
  | some fault => .error fault
  | none =>
      match (properties tokens).2 with
      | .flowMappingStart :: rest =>
          flowEntries handles fuel true ((properties tokens).1.open .start) rest
      | .blockMappingStart :: rest =>
          blockEntries handles fuel ((properties tokens).1.open .start) rest
      | rest => .error (unexpected rest)

/-- The handles that are known in a document, and the tokens of its node. -/
def documentBody (tokens : List Token) : Except Fault (List String × List Token) :=
  match tokens with
  | .directive _ :: _ | .documentStart :: _ =>
      match directives false [] tokens with
      | .ok (handles, .documentStart :: rest) => .ok (handles, rest)
      | .ok (_, rest) => .error (unexpected rest)
      | .error fault => .error fault
  | _ => .ok (standardHandles, tokens)

/-- A text lists some entries if it is a document with just these entries at its top,
in this order. -/
def Lists (text : List Char) (items : List (Phrase × Datum ν)) : Prop :=
  text.all isReadable = true ∧
  exists (handles : List String) (body rest : List Token) (nodes : Nodes ν),
    documentBody (tokens (normalize text)) = .ok (handles, body) ∧
    mappingItems handles (2 * (tokens (normalize text)).length + 1) body =
      .ok ⟨items.map textEntry, nodes, rest⟩ ∧
    nodes.isSound = true ∧ endDocument rest = .ok ()

/-!
# Nodes that are mappings
-/

theorem Properties.datum_close (p : Properties) (part : Part ν) :
    (p.close part).datum = part.datum := by
  unfold Properties.close
  split
  · rfl
  · rfl

theorem Properties.rest_close (p : Properties) (part : Part ν) :
    (p.close part).rest = part.rest := by
  unfold Properties.close
  split
  · rfl
  · rfl

theorem Properties.isSound_close (p : Properties) (part : Part ν) :
    (p.close part).nodes.isSound = part.nodes.isSound := by
  unfold Properties.close
  split
  · rfl
  · rfl

theorem node_of_mappingItems {handles : List String} {fuel : Nat} {tokens : List Token}
    {parts : Parts (Datum ν × Datum ν) ν} (h : mappingItems handles fuel tokens = .ok parts) :
    node handles (fuel + 1) .block .start tokens =
      .ok ((properties tokens).1.close (mappingPart parts)) := by
  have href : forall (name : String) (rest : List Token), tokens = .reference name :: rest ->
      False := by
    intro name rest heq
    rw [heq] at h
    cases h
  rw [node]
  · unfold mappingItems at h
    split at h
    case h_1 =>
      cases h
    case h_2 hfault =>
      simp only [hfault]
      split at h
      case h_1 hrest =>
        simp only [hrest, h]
        rfl
      case h_2 hrest =>
        have hplace : (Place.block == Place.flow) = false := rfl
        simp only [hrest, hplace, h]
        rfl
      case h_3 =>
        cases h
  · exact href

theorem exists_of_map_eq_ok {α β : Type} {f : α → β} {x : Except Fault α} {y : β}
    (h : x.map f = .ok y) : exists a : α, x = .ok a ∧ f a = y := by
  cases x with
  | error fault =>
      cases h
  | ok a =>
      injection h with hy
      exact ⟨a, rfl, hy⟩

theorem mappingItems_of_node {handles : List String} {fuel : Nat} {tokens : List Token}
    {part : Part ν} {es : List (Datum ν × Datum ν)}
    (h : node handles (fuel + 1) .block .start tokens = .ok part) (hes : part.datum = .mapping es) :
    exists parts : Parts (Datum ν × Datum ν) ν, mappingItems handles fuel tokens = .ok parts ∧
      part = (properties tokens).1.close (mappingPart parts) := by
  have href : forall (name : String) (rest : List Token), tokens = .reference name :: rest ->
      False := by
    intro name rest heq
    rw [heq, node] at h
    cases h
  rcases hprops : properties tokens with ⟨p, rest⟩
  rw [node] at h
  · rw [hprops] at h
    dsimp only at h
    split at h
    case h_1 =>
      cases h
    case h_2 hfault =>
      unfold mappingItems
      simp only [hprops, hfault]
      split at h
      case h_1 hplace =>
        cases hplace
      case h_2 =>
        injection h with hpart
        rw [← hpart, Properties.datum_close] at hes
        cases hes
      case h_3 =>
        rcases exists_of_map_eq_ok h with ⟨parts, _, hpart⟩
        rw [← hpart, Properties.datum_close] at hes
        cases hes
      case h_4 =>
        rcases exists_of_map_eq_ok h with ⟨parts, hparts, hpart⟩
        exact ⟨parts, hparts, hpart.symm⟩
      case h_5 =>
        split at h
        case h_1 =>
          rcases exists_of_map_eq_ok h with ⟨parts, _, hpart⟩
          rw [← hpart, Properties.datum_close] at hes
          cases hes
        case h_2 =>
          rcases exists_of_map_eq_ok h with ⟨parts, hparts, hpart⟩
          exact ⟨parts, hparts, hpart.symm⟩
        case h_3 =>
          split at h
          · cases h
          · injection h with hpart
            rw [← hpart, Properties.datum_close] at hes
            cases hes
  · exact href

/-!
# Documents that are mappings
-/

theorem finish_eq_ok_iff {part : Part ν} {datum : Datum ν} :
    part.finish = .ok datum <->
      endDocument part.rest = .ok () ∧ part.nodes.isSound = true ∧ part.datum = datum := by
  unfold Part.finish
  cases hend : endDocument part.rest with
  | error fault =>
      simp
  | ok done =>
      cases hsound : part.nodes.isSound with
      | true =>
          simp
      | false =>
          simp

def explicitDocument (tokens : List Token) : Except Fault (Datum ν) :=
  match directives false [] tokens with
  | .error fault => .error fault
  | .ok (handles, .documentStart :: rest) =>
      if noDocument rest then (emptyPart .start rest).finish
      else (node handles (2 * tokens.length + 2) .block .start rest).bind Part.finish
  | .ok (_, rest) => .error (unexpected rest)

theorem explicitDocument_eq (tokens : List Token) :
    (explicitDocument tokens : Except Fault (Datum ν)) = (do
      let (handles, rest) ← directives false [] tokens
      match rest with
      | .documentStart :: rest =>
          let part ←
            if noDocument rest then .ok (emptyPart .start rest)
            else node handles (2 * tokens.length + 2) .block .start rest
          part.finish
      | _ => .error (unexpected rest)) := by
  rw [explicitDocument]
  split
  case h_1 hdirectives =>
    rw [hdirectives]
    rfl
  case h_2 hdirectives =>
    rw [hdirectives]
    rfl
  case h_3 handles rest hother hdirectives =>
    rw [hdirectives]
    show Except.error (unexpected rest) = (match rest with
      | .documentStart :: rest => _
      | _ => Except.error (unexpected rest))
    split
    case h_1 rest' =>
      exact absurd rfl (hother rest')
    case h_2 =>
      rfl

theorem document_directive (d : Directive) (tokens : List Token) :
    (document (.directive d :: tokens) : Except Fault (Datum ν)) =
      explicitDocument (.directive d :: tokens) := by
  rw [explicitDocument_eq]
  rfl

theorem document_documentStart (tokens : List Token) :
    (document (.documentStart :: tokens) : Except Fault (Datum ν)) =
      explicitDocument (.documentStart :: tokens) := by
  rw [explicitDocument_eq]
  rfl

theorem noDocument_of_mappingItems {handles : List String} {fuel : Nat} {tokens : List Token}
    {parts : Parts (Datum ν × Datum ν) ν} (h : mappingItems handles fuel tokens = .ok parts) :
    noDocument tokens = false := by
  unfold noDocument
  split
  case h_5 =>
    rfl
  all_goals
    cases h

theorem document_of_documentBody {tokens body : List Token} {handles : List String}
    (h : documentBody tokens = .ok (handles, body)) (hno : noDocument body = false) :
    (document tokens : Except Fault (Datum ν)) =
      (node handles (2 * tokens.length + 2) .block .start body).bind Part.finish := by
  have hexplicit : forall {rest : List Token} {known : List String},
      directives false [] tokens = .ok (known, .documentStart :: rest) ->
      (Except.ok (known, rest) : Except Fault _) = .ok (handles, body) ->
      (explicitDocument tokens : Except Fault (Datum ν)) =
        (node handles (2 * tokens.length + 2) .block .start body).bind Part.finish := by
    intro rest known hdirectives heq
    injection heq with hpair
    injection hpair with hknown hrest
    rw [hknown, hrest] at hdirectives
    rw [explicitDocument, hdirectives]
    simp only [hno, Bool.false_eq_true, if_false]
  unfold documentBody at h
  split at h
  case h_1 =>
    split at h
    case h_1 hdirectives =>
      rw [document_directive]
      exact hexplicit hdirectives h
    case h_2 =>
      cases h
    case h_3 =>
      cases h
  case h_2 =>
    split at h
    case h_1 hdirectives =>
      rw [document_documentStart]
      exact hexplicit hdirectives h
    case h_2 =>
      cases h
    case h_3 =>
      cases h
  case h_3 hdirective hstart =>
    injection h with hpair
    injection hpair with hhandles hbody
    rw [← hbody] at hno
    rw [← hhandles, ← hbody]
    unfold document
    split
    case h_1 =>
      cases hno
    case h_2 =>
      exact absurd rfl (hdirective _ _)
    case h_3 =>
      exact absurd rfl (hstart _)
    case h_4 =>
      rfl

theorem directives_of_explicitDocument {tokens : List Token} {es : List (Datum ν × Datum ν)}
    (h : explicitDocument tokens = .ok (.mapping es)) :
    exists (handles : List String) (rest : List Token),
      directives false [] tokens = .ok (handles, .documentStart :: rest) ∧
      noDocument rest = false := by
  unfold explicitDocument at h
  split at h
  case h_1 =>
    cases h
  case h_2 handles rest hdirectives =>
    split at h
    case isTrue =>
      have hdatum := (finish_eq_ok_iff.mp h).right.right
      cases hdatum
    case isFalse hno =>
      exact ⟨handles, rest, hdirectives, by simpa using hno⟩
  case h_3 =>
    cases h

theorem exists_documentBody {tokens : List Token} {es : List (Datum ν × Datum ν)}
    (h : document tokens = .ok (.mapping es)) :
    exists (handles : List String) (body : List Token),
      documentBody tokens = .ok (handles, body) ∧ noDocument body = false := by
  unfold documentBody
  split
  case h_1 =>
    rw [document_directive] at h
    rcases directives_of_explicitDocument h with ⟨handles, rest, hdirectives, hno⟩
    rw [hdirectives]
    exact ⟨handles, rest, rfl, hno⟩
  case h_2 =>
    rw [document_documentStart] at h
    rcases directives_of_explicitDocument h with ⟨handles, rest, hdirectives, hno⟩
    rw [hdirectives]
    exact ⟨handles, rest, rfl, hno⟩
  case h_3 hdirective hstart =>
    refine ⟨standardHandles, tokens, rfl, ?_⟩
    unfold noDocument
    split
    case h_1 =>
      exact absurd rfl (hdirective _ _)
    case h_2 =>
      exact absurd rfl (hstart _)
    case h_3 rest =>
      have hnode : @node ν standardHandles (2 * (Token.documentEnd :: rest).length + 2) .block
          .start (.documentEnd :: rest) = .error .malformed := by
        rw [node]
        · rfl
        · intro name tail heq
          cases heq
      have hdocument : (document (.documentEnd :: rest) : Except Fault (Datum ν)) =
          .error .malformed := by
        simp only [document, hnode]
        rfl
      rw [hdocument] at h
      cases h
    case h_4 =>
      cases h
    case h_5 =>
      rfl

/-- Each document that is a mapping lists its entries, and the mapping is that of the
entries put one after the other. -/
theorem read_eq_mapping_iff (text : List Char) (es : List (Datum ν × Datum ν)) :
    read text = .ok (.mapping es) <->
      exists items : List (Phrase × Datum ν),
        Lists text items ∧ es = (Entries.ofList items).map textEntry := by
  constructor
  · intro h
    unfold read at h
    split at h
    case isFalse =>
      cases h
    case isTrue hreadable =>
      rcases exists_documentBody h with ⟨handles, body, hbody, hno⟩
      rw [document_of_documentBody hbody hno] at h
      cases hnode : @node ν handles (2 * (tokens (normalize text)).length + 2) .block .start
          body with
      | error fault =>
          rw [hnode] at h
          cases h
      | ok part =>
          rw [hnode] at h
          rcases finish_eq_ok_iff.mp h with ⟨hend, hsound, hdatum⟩
          rcases mappingItems_of_node hnode hdatum with ⟨⟨all, nodes, rest⟩, hitems, hpart⟩
          rw [hpart, Properties.isSound_close, mappingPart, Bool.and_eq_true] at hsound
          rcases exists_textEntry hsound.right with ⟨items, hall⟩
          have hall' : all = items.map textEntry := hall
          rw [hall'] at hpart hitems
          rw [hpart, Properties.rest_close] at hend
          rw [hpart, Properties.datum_close, mappingPart_textEntry] at hdatum
          injection hdatum with hes
          exact ⟨items, ⟨hreadable, handles, body, rest, nodes, hbody, hitems, hsound.left, hend⟩,
            hes.symm⟩
  · rintro ⟨items, ⟨hreadable, handles, body, rest, nodes, hbody, hitems, hsound, hend⟩, hes⟩
    rw [read, if_pos hreadable,
      document_of_documentBody hbody (noDocument_of_mappingItems hitems),
      node_of_mappingItems hitems]
    show Part.finish _ = _
    rw [finish_eq_ok_iff, Properties.rest_close, Properties.isSound_close, Properties.datum_close,
      mappingPart_textEntry, hes]
    exact ⟨hend, hsound, rfl⟩

end Yaml
end Palette
