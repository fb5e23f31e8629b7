import Palette.Environment.Load
import Palette.Proofs.Entries
import Palette.Proofs.Text.Lines
import Palette.Proofs.Text.Trim
import Palette.Proofs.Text.Utf8

/-!
# Values in double quotes

A file of one line that gives a name its value in double quotes sets that one
variable.  What stands between the quotes is kept but for the apostrophes at its
ends, which are trimmed, too.
-/

namespace Palette
namespace Dotenv

/-!
# The line
-/

structure IsPlainKey (key : String) : Prop where
  nonempty : key.toList ≠ []
  oneLine : Text.IsLine key.toList
  noEquals : '=' ∉ key.toList
  noComment : key.toList.head? ≠ some '#'
  head : forall c, c ∈ key.toList.head? -> Text.isBlank c = false
  last : forall c, c ∈ key.toList.getLast? -> Text.isBlank c = false

theorem isPlainKey_iff (key : String) :
    IsPlainKey key <->
      (key.toList ≠ [] ∧ Text.IsLine key.toList ∧ '=' ∉ key.toList ∧
        key.toList.head? ≠ some '#') ∧
      key.toList.head?.all (!Text.isBlank ·) = true ∧
        key.toList.getLast?.all (!Text.isBlank ·) = true := by
  simp only [Option.all_eq_true, Bool.not_eq_true']
  exact ⟨fun h => ⟨⟨h.nonempty, h.oneLine, h.noEquals, h.noComment⟩, h.head, h.last⟩,
    fun ⟨⟨hnonempty, hline, hequals, hcomment⟩, hhead, hlast⟩ =>
      ⟨hnonempty, hline, hequals, hcomment, hhead, hlast⟩⟩

instance (key : String) : Decidable (IsPlainKey key) :=
  decidable_of_iff _ (isPlainKey_iff key).symm

/-- A value as it can stand in double quotes. -/
structure IsQuotable (value : String) : Prop where
  oneLine : Text.IsLine value.toList
  noQuote : '"' ∉ value.toList

def quotedValue (value : String) : List Char :=
  '"' :: value.toList ++ ['"']

def quotedLine (key value : String) : List Char :=
  key.toList ++ '=' :: quotedValue value

/-- A value without the apostrophes at its ends. -/
def withoutApostrophes (value : String) : String :=
  String.ofList (Text.trimOf (· == '\'') value.toList)

/-- The file of one quoted line sets its variable to the very value. -/
def KeepsValue (key value : String) (ending : List Char) : Prop :=
  parseBytes (Text.Utf8.encode (quotedLine key value ++ ending)) = .ok [(key, value)]

theorem withoutApostrophes_eq_self_iff {value : String} :
    withoutApostrophes value = value <->
      value.toList.head? ≠ some '\'' ∧ value.toList.getLast? ≠ some '\'' := by
  have hends : forall o : Option Char,
      (forall c, c ∈ o -> (c == '\'') = false) <-> o ≠ some '\'' := by
    intro o
    constructor
    · rintro h rfl
      cases h '\'' rfl
    · rintro h c rfl
      simpa using h
  rw [withoutApostrophes, ← hends, ← hends, ← Text.trimOf_eq_self_iff]
  constructor
  · intro h
    have hchars := congrArg String.toList h
    rwa [String.toList_ofList] at hchars
  · intro h
    rw [h, String.ofList_toList]

/-!
# Reading it
-/

theorem splitEquals?_append {front : List Char} (h : '=' ∉ front) (back : List Char) :
    splitEquals? (front ++ '=' :: back) = some (front, back) := by
  induction front with
  | nil => rfl
  | cons c rest ih =>
      rw [List.mem_cons, not_or] at h
      rw [List.cons_append, splitEquals?, if_neg (Ne.symm h.1), ih h.2]
      rfl

theorem isBlank_quote : Text.isBlank '"' = false := by
  decide

theorem unquote_quotedValue {value : String} (h : '"' ∉ value.toList) :
    unquote (quotedValue value) = Text.trimOf (· == '\'') value.toList := by
  have htrim : Text.trim (quotedValue value) = quotedValue value := by
    refine Text.trim_of_ends ?_ ?_
    · rintro c ⟨⟩
      exact isBlank_quote
    · intro c hc
      rw [quotedValue, List.getLast?_concat] at hc
      rcases hc with ⟨⟩
      exact isBlank_quote
  have hquotes : Text.trimOf (· == '"') (quotedValue value) = value.toList := by
    have hquote : forall c, c ∈ ['"'] -> (c == '"') = true := by simp
    have haround : Text.trimOf (· == '"') (quotedValue value) =
        Text.trimOf (· == '"') value.toList :=
      Text.trimOf_around hquote hquote value.toList
    rw [haround]
    refine Text.trimOf_of_not_mem fun c hc => ?_
    simpa using fun heq : c = '"' => h (heq ▸ hc)
  rw [unquote, htrim, hquotes]

theorem isLine_quotedLine {key value : String} (hkey : IsPlainKey key)
    (hvalue : IsQuotable value) : Text.IsLine (quotedLine key value) := by
  intro c hc
  simp only [quotedLine, quotedValue, List.mem_append, List.mem_cons, List.not_mem_nil,
    or_false] at hc
  rcases hc with hc | rfl | (rfl | hc) | rfl
  · exact hkey.oneLine c hc
  · decide
  · decide
  · exact hvalue.oneLine c hc
  · decide

theorem parseLine?_quotedLine {key value : String} (hkey : IsPlainKey key)
    (hvalue : IsQuotable value) :
    parseLine? (quotedLine key value) = some (key, withoutApostrophes value) := by
  have hhead : (quotedLine key value).head? = key.toList.head? := by
    rw [quotedLine, List.head?_append_of_ne_nil _ hkey.nonempty]
  have hlast : (quotedLine key value).getLast? = some '"' := by
    rw [quotedLine, quotedValue, ← List.cons_append, ← List.append_assoc, List.getLast?_concat]
  have htrim : Text.trim (quotedLine key value) = quotedLine key value := by
    refine Text.trim_of_ends ?_ ?_
    · rw [hhead]
      exact hkey.head
    · rw [hlast]
      rintro c ⟨⟩
      exact isBlank_quote
  have hkeyTrim : Text.trim key.toList = key.toList := Text.trim_of_ends hkey.head hkey.last
  rw [parseLine?, htrim, hhead, if_neg hkey.noComment, quotedLine,
    splitEquals?_append hkey.noEquals]
  dsimp only
  rw [hkeyTrim, if_neg (by simpa using hkey.nonempty), unquote_quotedValue hvalue.noQuote,
    String.ofList_toList, withoutApostrophes]

theorem parse_of_line {line ending : List Char} (hline : Text.IsLine line)
    (hending : Text.IsLineEnd ending) {b : String × String} (h : parseLine? line = some b) :
    parse (line ++ ending) = [b] := by
  have hne : line ≠ [] := by
    rintro rfl
    cases h
  rw [parse, Text.splitLines_append hne hline hending, List.filterMap_cons_some h]
  exact Entries.ofList_of_nodup (by simp)

theorem parseBytes_encode (text : List Char) :
    parseBytes (Text.Utf8.encode text) = .ok (parse (Text.toLineFeeds text)) := by
  rw [parseBytes, Text.Utf8.decode_encode]

/-- A file of one quoted line sets one variable, to the value without the
apostrophes at its ends.  So a value is kept exactly if it neither begins nor ends
with one. -/
theorem parseBytes_quotedLine {key value : String} {ending : List Char}
    (hkey : IsPlainKey key) (hvalue : IsQuotable value) (hending : Text.IsLineEnd ending) :
    parseBytes (Text.Utf8.encode (quotedLine key value ++ ending))
        = .ok [(key, withoutApostrophes value)] ∧
      (KeepsValue key value ending <->
        value.toList.head? ≠ some '\'' ∧ value.toList.getLast? ≠ some '\'') := by
  have hline := isLine_quotedLine hkey hvalue
  have hparse : parseBytes (Text.Utf8.encode (quotedLine key value ++ ending))
      = .ok [(key, withoutApostrophes value)] := by
    rw [parseBytes_encode, Text.toLineFeeds_append hline,
      parse_of_line hline hending.toLineFeeds (parseLine?_quotedLine hkey hvalue)]
  refine ⟨hparse, ?_⟩
  rw [KeepsValue, hparse, ← withoutApostrophes_eq_self_iff]
  simp

theorem parseBytes_quotedLine_of_blanks :
    parseBytes (Text.Utf8.encode "KEY=\" #a='b'= \"\r\n".toList)
      = .ok [("KEY", " #a='b'= ")] := by
  have hkey : IsPlainKey "KEY" := by decide
  have hvalue : IsQuotable " #a='b'= " := ⟨by decide, by decide⟩
  have hkeeps : KeepsValue "KEY" " #a='b'= " ['\r', '\n'] :=
    (parseBytes_quotedLine hkey hvalue .pair).2.mpr ⟨by decide, by decide⟩
  exact hkeeps

/-- Apostrophes inside the quotes do not belong to the value. -/
theorem not_keepsValue_of_apostrophes :
    IsPlainKey "KEY" ∧ IsQuotable "'a'" ∧ Text.IsLineEnd ['\n'] ∧
      quotedLine "KEY" "'a'" ++ ['\n'] = "KEY=\"'a'\"\n".toList ∧
      parseBytes (Text.Utf8.encode (quotedLine "KEY" "'a'" ++ ['\n'])) = .ok [("KEY", "a")] ∧
      ¬KeepsValue "KEY" "'a'" ['\n'] := by
  have hparse : parseBytes (Text.Utf8.encode (quotedLine "KEY" "'a'" ++ ['\n']))
      = .ok [("KEY", "a")] := by
    rw [parseBytes_encode]
    decide
  refine ⟨by decide, ⟨by decide, by decide⟩, .boundary (by decide), by decide, hparse, ?_⟩
  rw [KeepsValue, hparse]
  decide

end Dotenv
end Palette
