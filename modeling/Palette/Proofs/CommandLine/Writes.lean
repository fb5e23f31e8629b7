import Palette.Proofs.CommandLine.Outcomes
import Palette.Proofs.Scheme.Codes

/-!
# What runs write

A run that fails leaves all files as they were, and one that succeeds writes only its output,
with one exception.  A rendering may hold a surrogate, which a scheme can name by an escape;
such a rendering has no encoding, which is found out when the file that it is meant for has
been emptied already.
-/

namespace Palette

/-!
# Encodings
-/

namespace Text.Utf8

theorem chars?_eq_none_iff (p : Phrase) :
    p.chars? = none <-> exists point, point ∈ p ∧ point.isSurrogate = true := by
  induction p with
  | nil =>
      simp [Phrase.chars?]
  | cons point rest ih =>
      cases point with
      | char c =>
          rw [Phrase.chars?, Option.map_eq_none_iff, ih]
          simp [CodePoint.isSurrogate]
      | surrogate code =>
          simp [Phrase.chars?, CodePoint.isSurrogate]

theorem encodePhrase_ok {p : Phrase} {bytes : Bytes} (h : encodePhrase p = .ok bytes) :
    exists text, p = .ofChars text ∧ bytes = encode text := by
  rw [encodePhrase] at h
  split at h
  case h_1 text hchars =>
    injection h with h
    exact ⟨text, Phrase.chars?_eq_some_iff.mp hchars, h.symm⟩
  case h_2 =>
    cases h

theorem encodePhrase_error {p : Phrase} {fault : EncodeFault}
    (h : encodePhrase p = .error fault) : exists point, point ∈ p ∧ point.isSurrogate = true := by
  rw [encodePhrase] at h
  split at h
  · cases h
  case h_2 hchars =>
    exact (chars?_eq_none_iff p).mp hchars

end Text.Utf8

namespace CommandLine

open Palette.Tree (SameFiles Wrote)

/-!
# Effects
-/

/-- What a run of a request does to the files of a workspace and to the output.  The variables
are those of a second workspace, which is otherwise the same. -/
structure Effects (w v : Workspace) (request : Option Request) (session : Session)
    (ending : Ending) : Prop where
  environment : v = { w with environment := v.environment }
  /-- A run that fails changes no file. -/
  failed : ending ≠ .exit 0 -> (forall fault, ending ≠ .escape (.encoding fault)) ->
    SameFiles w.tree session.workspace.tree
  /-- A render run that fails prints nothing. -/
  silent : forall settings, request = some (.work .render settings) -> ending ≠ .exit 0 ->
    session.output = []
  /-- A rendering with a surrogate leaves its file empty, and all others as they were. -/
  emptied : forall fault, ending = .escape (.encoding fault) ->
    exists (settings : Settings) (s : Scheme) (rendering : Phrase) (path : String),
      request = some (.work .render settings) ∧ Loads v settings s ∧
        Renders v settings s rendering ∧ settings.output.filter (· != "") = some path ∧
        (exists point, point ∈ rendering ∧ point.isSurrogate = true) ∧
        Wrote w.tree (w.placeOf path) (.file []) session.workspace.tree
  /-- A rendering is printed, or written to the file that is named for it. -/
  rendered : forall settings, request = some (.work .render settings) -> ending = .exit 0 ->
    exists (s : Scheme) (rendering : Phrase),
      Loads v settings s ∧ Renders v settings s rendering ∧
        match settings.output.filter (· != "") with
        | none => session.output = rendering ∧ SameFiles w.tree session.workspace.tree
        | some path =>
            session.output = [] ∧
              exists text, rendering = .ofChars text ∧
                Wrote w.tree (w.placeOf path) (.file (Text.Utf8.encode text))
                  session.workspace.tree
  /-- What is no render or swatch run changes no file. -/
  kept : (forall settings, request ≠ some (.work .render settings)) ->
    (forall settings, request ≠ some (.work .swatch settings)) ->
      SameFiles w.tree session.workspace.tree
  /-- A swatch is written to the file that is named for it. -/
  drawn : forall settings, request = some (.work .swatch settings) -> ending = .exit 0 ->
    exists file, Wrote w.tree (w.placeOf (settings.output.getD "")) file session.workspace.tree

theorem Outcome.effects {w : Workspace} {environment : List (String × String)}
    {request : Option Request} {session : Session} {ending : Ending}
    (h : Outcome { w with environment := environment } request session ending) :
    Effects w { w with environment := environment } request session ending := by
  cases h with
  | failed other files silent =>
      exact {
        environment := rfl
        failed := fun _ _ => files
        silent := fun settings hrequest _ => silent settings hrequest
        emptied := fun fault hending => absurd hending (other.encoding fault)
        rendered := fun _ _ hexit => absurd hexit other.exit
        kept := fun _ _ => files
        drawn := fun _ _ hexit => absurd hexit other.exit }
  | informed hrender hswatch files =>
      exact {
        environment := rfl
        failed := fun _ _ => files
        silent := fun settings hrequest => absurd hrequest (hrender settings)
        emptied := fun _ => nofun
        rendered := fun settings hrequest => absurd hrequest (hrender settings)
        kept := fun _ _ => files
        drawn := fun settings hrequest => absurd hrequest (hswatch settings) }
  | printed loads renders houtput files =>
      exact {
        environment := rfl
        failed := fun _ _ => files
        silent := fun _ _ hfails => absurd rfl hfails
        emptied := fun _ => nofun
        rendered := by
          intro settings hrequest _
          cases hrequest
          refine ⟨_, _, loads, renders, ?_⟩
          rw [houtput]
          exact ⟨rfl, files⟩
        kept := fun _ _ => files
        drawn := fun _ => nofun }
  | @saved settings session s rendering path bytes loads renders houtput encodes silent wrote =>
      exact {
        environment := rfl
        failed := fun hfails => absurd rfl hfails
        silent := fun _ _ hfails => absurd rfl hfails
        emptied := fun _ => nofun
        rendered := by
          intro settings hrequest _
          cases hrequest
          rcases Text.Utf8.encodePhrase_ok encodes with ⟨text, hrendering, rfl⟩
          refine ⟨s, rendering, loads, renders, ?_⟩
          rw [houtput]
          exact ⟨silent, text, hrendering, wrote⟩
        kept := fun hrender _ => absurd rfl (hrender settings)
        drawn := fun _ => nofun }
  | @emptied settings session s rendering path fault loads renders houtput fails silent wrote =>
      exact {
        environment := rfl
        failed := fun _ hencoding => absurd rfl (hencoding fault)
        silent := fun _ _ _ => silent
        emptied := fun _ _ => ⟨settings, s, rendering, path, rfl, loads, renders, houtput,
          Text.Utf8.encodePhrase_error fails, wrote⟩
        rendered := fun _ _ => nofun
        kept := fun hrender _ => absurd rfl (hrender settings)
        drawn := fun _ _ => nofun }
  | @drawn settings session wrote =>
      exact {
        environment := rfl
        failed := fun hfails => absurd rfl hfails
        silent := fun _ => nofun
        emptied := fun _ => nofun
        rendered := fun _ => nofun
        kept := fun _ hswatch => absurd rfl (hswatch settings)
        drawn := by
          intro settings hrequest _
          cases hrequest
          exact wrote }

/-- A run whose command line can be read changes no file if it fails, unless it writes a
rendering with a surrogate, and changes only its output if it succeeds. -/
theorem run_writes_only_output {arguments : List String} {i : Invocation}
    (hparse : parse arguments = .ok i) (w : Workspace)
    (hformat : forall settings, i.request = some (.work .swatch settings) ->
      ¬OpensInVain (settings.output.getD "")) :
    Effects w (Dotenv.load w i.envFile).1 i.request (run arguments w).1 (run arguments w).2 := by
  have houtcome := outcome_of_perform w i hformat
  rw [← run_of_parse hparse, Dotenv.load_eq] at houtcome
  rw [Dotenv.load_eq]
  exact houtcome.effects

/-!
# A render run

The scheme is named by what stands between double quotes, and the template asks for its name.
-/

def renderWords (output : String) : List String :=
  ["render", "-s", "s.yaml", "t", "-o", output]

def renderSettings (output : String) : Settings :=
  { Settings.default with scheme := some "s.yaml", template := some "t", output := some output }

def renderInvocation (output : String) : Invocation :=
  ⟨none, false, some (.work .render (renderSettings output))⟩

def renderFiles (quoted : String) : Workspace where
  rootPath := ""
  tree :=
    let document := "scheme: \"" ++ quoted ++ "\"\nauthor: x\n"
    let template := "\x7b\x7bscheme\x7d\x7d"
    ((Tree.empty.put ["s.yaml"] (.file (Text.Utf8.encode document.toList))).put ["t"]
      (.file (Text.Utf8.encode template.toList))).put ["out.txt"] (.file [0x6F])
  directory := Workspace.root
  environment := []

/-- A template can be the output of its own rendering. -/
theorem run_writes_only_output_of_template :
    parse (renderWords "t") = .ok (renderInvocation "t") ∧
      (run (renderWords "t") (renderFiles "X")).2 = .exit 0 ∧
      exists (rendering : Phrase) (text : List Char), rendering = .ofChars text ∧
        Wrote (renderFiles "X").tree ((renderFiles "X").placeOf "t")
          (.file (Text.Utf8.encode text))
          (run (renderWords "t") (renderFiles "X")).1.workspace.tree := by
  have hparse : parse (renderWords "t") = .ok (renderInvocation "t") := rfl
  have hformat : forall settings,
      (renderInvocation "t").request = some (.work .swatch settings) ->
        ¬OpensInVain (settings.output.getD "") := by
    intro settings hrequest
    cases hrequest
  have hexit : (run (renderWords "t") (renderFiles "X")).2 = .exit 0 := by
    decide +kernel
  have hrendered :=
    (run_writes_only_output hparse (renderFiles "X") hformat).rendered _ rfl hexit
  rcases hrendered with ⟨_, rendering, _, _, _, text, htext, hwrote⟩
  exact ⟨hparse, hexit, rendering, text, htext, hwrote⟩

/-- A run that fails can change a file: the rendering is a surrogate. -/
theorem run_empties_output_of_surrogate :
    parse (renderWords "out.txt") = .ok (renderInvocation "out.txt") ∧
      (run (renderWords "out.txt") (renderFiles "\\uD800")).2 =
        .escape (.encoding ⟨0, [.ofNat 0xD800]⟩) ∧
      ¬((run (renderWords "out.txt") (renderFiles "\\uD800")).2 ≠ .exit 0 ->
        SameFiles (renderFiles "\\uD800").tree
          (run (renderWords "out.txt") (renderFiles "\\uD800")).1.workspace.tree) := by
  have hparse : parse (renderWords "out.txt") = .ok (renderInvocation "out.txt") := rfl
  have hperform :
      ((perform (renderFiles "\\uD800") (renderInvocation "out.txt")).2,
        (perform (renderFiles "\\uD800") (renderInvocation "out.txt")).1.workspace.tree.fileAt?
          (.inside ["out.txt"])) =
        (.escape (.encoding ⟨0, [.ofNat 0xD800]⟩), some (.file [])) := by
    decide +kernel
  rw [Prod.mk.injEq] at hperform
  rw [run_of_parse hparse]
  refine ⟨hparse, hperform.left, fun hkeeps => ?_⟩
  have hfails :
      (perform (renderFiles "\\uD800") (renderInvocation "out.txt")).2 ≠ .exit 0 := by
    rw [hperform.left]
    intro heq
    cases heq
  have hfile := (hkeeps hfails).files (.inside ["out.txt"])
  have hbefore : (renderFiles "\\uD800").tree.fileAt? (.inside ["out.txt"]) =
      some (.file [0x6F]) := rfl
  rw [hperform.right, hbefore] at hfile
  cases hfile

end CommandLine
end Palette
