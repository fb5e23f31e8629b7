import Palette.Proofs.CommandLine.Stages
import Palette.Proofs.Environment.Load
import Palette.Proofs.Workspace.Files

/-!
# Outcomes of runs

A run that gets past its command line ends in one of a few ways.  It fails with all files as
they were; it comes to its end without writing; it prints a rendering; or it writes one file.
There is one way to fail that changes a file: a rendering that has no encoding leaves the file
that it was meant for empty.
-/

namespace Palette

theorem Workspace.write_ok {w u : Workspace} {path : String} {file : Entry}
    (hfile : file.isDirectory = false) (h : w.write path file = .ok u) :
    Tree.Wrote w.tree (w.placeOf path) file u.tree := by
  rw [Workspace.write] at h
  cases hwrite : w.tree.write w.directory path file with
  | error fault =>
      rw [hwrite] at h
      cases h
  | ok tree =>
      rw [hwrite] at h
      injection h with h
      rw [← h]
      exact Tree.write_ok hfile hwrite

namespace CommandLine

open Palette.Tree (SameFiles Wrote)

/-!
# Sessions
-/

/-- A failure that has nothing to do with the encoding of a rendering. -/
def Failure.IsOther (failure : Failure) : Prop :=
  forall fault, failure ≠ .encoding fault

structure Ending.IsOther (ending : Ending) : Prop where
  exit : ending ≠ .exit 0
  encoding : forall fault, ending ≠ .escape (.encoding fault)

theorem isOther_exit_one : (Ending.exit 1).IsOther :=
  ⟨by decide, fun _ => nofun⟩

theorem isOther_escape_file (fault : FileFault) : (Ending.escape (.file fault)).IsOther :=
  ⟨nofun, fun _ => nofun⟩

theorem isOther_escape_character (fault : Yaml.Fault) :
    (Ending.escape (.character fault)).IsOther :=
  ⟨nofun, fun _ => nofun⟩

theorem isOther_escape_stackOverflow : (Ending.escape .stackOverflow).IsOther :=
  ⟨nofun, fun _ => nofun⟩

theorem isOther_file (fault : FileFault) : (Failure.file fault).IsOther :=
  fun _ => nofun

theorem failCommand_keeps (session : Session) (failure : Failure) :
    (failCommand session failure).1.workspace = session.workspace ∧
      (failCommand session failure).1.output = session.output := by
  cases failure with
  | file fault =>
      rw [failCommand]
      split <;> exact ⟨rfl, rfl⟩
  | _ =>
      exact ⟨rfl, rfl⟩

theorem failCommand_isOther (session : Session) {failure : Failure} (h : failure.IsOther) :
    (failCommand session failure).2.IsOther := by
  cases failure with
  | file fault =>
      rw [failCommand]
      split
      · exact isOther_exit_one
      · exact isOther_escape_file fault
  | encoding fault =>
      exact absurd rfl (h fault)
  | notUtf8 path fault =>
      exact isOther_exit_one
  | template fault =>
      exact isOther_exit_one
  | _ =>
      exact ⟨nofun, fun _ => nofun⟩

/-!
# Renderings
-/

/-- The scheme that is loaded from the path that settings or variables name. -/
def Loads (w : Workspace) (settings : Settings) (s : Scheme) : Prop :=
  exists (path : String) (bytes : Text.Bytes) (log : List Scheme.LogLine),
    w.choosePath settings.scheme schemeVariable = some path ∧ w.read path = .ok bytes ∧
      isTooDeep w.machine bytes = false ∧ Scheme.load Float path bytes = (log, .ok s)

/-- The rendering of the text of the template that settings or variables name. -/
def Renders (w : Workspace) (settings : Settings) (s : Scheme) (rendering : Phrase) : Prop :=
  exists (path : String) (bytes : Text.Bytes) (source : List Char),
    w.choosePath settings.template templateVariable = some path ∧ w.read path = .ok bytes ∧
      Text.Utf8.decode bytes = .ok source ∧
      w.machine.holdsTemplate (String.ofList (Text.toLineFeeds source)) s.fieldTruthy = true ∧
      Template.render (String.ofList (Text.toLineFeeds source))
        ⟨s.renderField Float, s.fieldTruthy⟩ = .ok rendering

theorem renders_iff {w : Workspace} {settings : Settings} {s : Scheme} {rendering : Phrase} :
    Renders w settings s rendering <->
      exists path, w.choosePath settings.template templateVariable = some path ∧
        renderFile w s path = .ok rendering := by
  constructor
  · rintro ⟨path, bytes, source, hpath, hread, hdecode, hholds, hrender⟩
    refine ⟨path, hpath, ?_⟩
    rw [renderFile, hread]
    dsimp only
    rw [hdecode]
    dsimp only
    rw [hrender]
    exact if_pos hholds
  · rintro ⟨path, hpath, h⟩
    rw [renderFile] at h
    split at h
    · cases h
    case h_2 bytes hread =>
      split at h
      · cases h
      case h_2 source hdecode =>
        dsimp only at h
        split at h
        · cases h
        case h_2 hrender =>
          split at h
          case isTrue hholds =>
            injection h with h
            rw [h] at hrender
            exact ⟨path, bytes, source, hpath, hread, hdecode, hholds, hrender⟩
          case isFalse =>
            cases h

theorem isOther_of_renderFile {w : Workspace} {s : Scheme} {path : String} {failure : Failure}
    (h : renderFile w s path = .error failure) : failure.IsOther := by
  rw [renderFile] at h
  split at h
  · cases h
    exact fun _ => nofun
  · split at h
    · cases h
      exact fun _ => nofun
    · dsimp only at h
      split at h
      · cases h
        exact fun _ => nofun
      · split at h
        · cases h
        · cases h
          exact fun _ => nofun

theorem saveRendering_cases (w : Workspace) (rendering : Phrase) (path : String) :
    (exists fault, saveRendering w rendering path = (w, .error (.file fault))) ∨
      (exists u bytes, saveRendering w rendering path = (u, .ok ()) ∧
        Text.Utf8.encodePhrase rendering = .ok bytes ∧
        Wrote w.tree (w.placeOf path) (.file bytes) u.tree) ∨
      exists u fault, saveRendering w rendering path = (u, .error (.encoding fault)) ∧
        Text.Utf8.encodePhrase rendering = .error fault ∧
        Wrote w.tree (w.placeOf path) (.file []) u.tree := by
  rw [saveRendering]
  cases hencode : Text.Utf8.encodePhrase rendering with
  | error encodeFault =>
      cases hwrite : w.write path (.file []) with
      | error fault =>
          refine Or.inl ⟨fault, ?_⟩
          rw [Except.toOption, Option.getD_none, hwrite]
      | ok u =>
          refine Or.inr (Or.inr ⟨u, encodeFault, ?_, rfl, Workspace.write_ok rfl hwrite⟩)
          rw [Except.toOption, Option.getD_none, hwrite]
  | ok bytes =>
      cases hwrite : w.write path (.file bytes) with
      | error fault =>
          refine Or.inl ⟨fault, ?_⟩
          rw [Except.toOption, Option.getD_some, hwrite]
      | ok u =>
          refine Or.inr (Or.inl ⟨u, bytes, ?_, rfl, Workspace.write_ok rfl hwrite⟩)
          rw [Except.toOption, Option.getD_some, hwrite]

/-!
# Swatches
-/

/-- The format of a path refuses swatches only when its file has been opened. -/
def OpensInVain (path : String) : Prop :=
  exists fault, ImageFormat.ofExtension?
    (String.ofList (Text.lower (Path.extension path.toList))) = some (.refusing fault)

theorem saveImage_cases (w : Workspace) (image : Image) {path : String}
    (hformat : ¬OpensInVain path) :
    (exists u failure, saveImage w image path = (u, .error failure) ∧ failure.IsOther ∧
        SameFiles w.tree u.tree) ∨
      exists u file, saveImage w image path = (u, .ok ()) ∧
        Wrote w.tree (w.placeOf path) file u.tree := by
  rw [saveImage]
  split
  case h_1 fault _ =>
    exact Or.inl ⟨w, .file fault, rfl, fun _ => nofun, .refl w.tree⟩
  case h_2 tree hparents =>
    have hsame := Tree.makeParents_ok hparents
    have hplace : ({ w with tree := tree } : Workspace).placeOf path = w.placeOf path :=
      Tree.normalize_of_above hsame.above w.directory path.toList
    dsimp only
    split
    case h_1 =>
      exact Or.inl ⟨_, _, rfl, fun _ => nofun, hsame⟩
    case h_2 =>
      exact Or.inl ⟨_, _, rfl, fun _ => nofun, hsame⟩
    case h_3 fault hrefusing =>
      exact absurd ⟨fault, hrefusing⟩ hformat
    all_goals
      split
      · exact Or.inl ⟨_, _, rfl, fun _ => nofun, hsame⟩
      case h_2 hwrite _ =>
        have hwrote := Workspace.write_ok rfl hwrite
        rw [hplace] at hwrote
        exact Or.inr ⟨_, _, rfl, hsame.wrote hwrote⟩
      case h_3 hfault =>
        cases hfault

theorem isOther_of_drawSwatch {m : Machine} {s : Scheme} {settings : Settings}
    {failure : Failure} (h : drawSwatch m s settings = .error failure) : failure.IsOther := by
  rw [drawSwatch] at h
  split at h
  · split at h
    · cases h
    · cases h
    · split at h
      · cases h
      · cases h
        exact fun _ => nofun
  · split at h
    · cases h
    · cases h
      exact fun _ => nofun
  · cases h
    exact fun _ => nofun

/-!
# Ways to end
-/

/-- What a run of a request may do in a workspace. -/
inductive Outcome (w : Workspace) : Option Request → Session → Ending → Prop
  | failed {request : Option Request} {session : Session} {ending : Ending}
      (other : ending.IsOther) (files : SameFiles w.tree session.workspace.tree)
      (silent : forall settings, request = some (.work .render settings) -> session.output = []) :
      Outcome w request session ending
  | informed {request : Option Request} {session : Session}
      (hrender : forall settings, request ≠ some (.work .render settings))
      (hswatch : forall settings, request ≠ some (.work .swatch settings))
      (files : SameFiles w.tree session.workspace.tree) : Outcome w request session (.exit 0)
  | printed {settings : Settings} {session : Session} {s : Scheme}
      (loads : Loads w settings s) (renders : Renders w settings s session.output)
      (houtput : settings.output.filter (· != "") = none)
      (files : SameFiles w.tree session.workspace.tree) :
      Outcome w (some (.work .render settings)) session (.exit 0)
  | saved {settings : Settings} {session : Session} {s : Scheme} {rendering : Phrase}
      {path : String} {bytes : Text.Bytes}
      (loads : Loads w settings s) (renders : Renders w settings s rendering)
      (houtput : settings.output.filter (· != "") = some path)
      (encodes : Text.Utf8.encodePhrase rendering = .ok bytes) (silent : session.output = [])
      (wrote : Wrote w.tree (w.placeOf path) (.file bytes) session.workspace.tree) :
      Outcome w (some (.work .render settings)) session (.exit 0)
  | emptied {settings : Settings} {session : Session} {s : Scheme} {rendering : Phrase}
      {path : String} {fault : Text.Utf8.EncodeFault}
      (loads : Loads w settings s) (renders : Renders w settings s rendering)
      (houtput : settings.output.filter (· != "") = some path)
      (fails : Text.Utf8.encodePhrase rendering = .error fault) (silent : session.output = [])
      (wrote : Wrote w.tree (w.placeOf path) (.file []) session.workspace.tree) :
      Outcome w (some (.work .render settings)) session (.escape (.encoding fault))
  | drawn {settings : Settings} {session : Session}
      (wrote : exists file,
        Wrote w.tree (w.placeOf (settings.output.getD "")) file session.workspace.tree) :
      Outcome w (some (.work .swatch settings)) session (.exit 0)

theorem outcome_of_failCommand {w : Workspace} {request : Option Request} {session : Session}
    {failure : Failure} (other : failure.IsOther)
    (files : SameFiles w.tree session.workspace.tree)
    (silent : forall settings, request = some (.work .render settings) -> session.output = []) :
    Outcome w request (failCommand session failure).1 (failCommand session failure).2 := by
  rcases failCommand_keeps session failure with ⟨hworkspace, houtput⟩
  refine .failed (failCommand_isOther session other) ?_ fun settings hrequest => ?_
  · rw [hworkspace]
    exact files
  · rw [houtput]
    exact silent settings hrequest

section Commands

variable {session : Session} {path : String} {s : Scheme} {settings : Settings}

variable {w : Workspace} (hworkspace : session.workspace = w)

include hworkspace

theorem outcome_of_report {c : Builtin} {report : Report Float} {code : Int}
    (hshown : report.IsShown) (hrender : c ≠ .render)
    (hcode : (code = 0 ∧ c ≠ .swatch) ∨ code = 1) :
    Outcome w (some (.work c settings)) (finish ⟨session, report⟩ c settings code).1
      (finish ⟨session, report⟩ c settings code).2 := by
  subst hworkspace
  have hfiles : SameFiles session.workspace.tree
      (finish ⟨session, report⟩ c settings code).1.workspace.tree := by
    rw [(finish_keeps ⟨session, report⟩ c settings code).left]
    exact .refl session.workspace.tree
  have hnot : forall {d : Builtin}, c ≠ d -> forall other, some (Request.work c settings) ≠
      some (.work d other) := by
    intro d hne other heq
    injection heq with heq
    injection heq with heq
    exact hne heq
  rw [finish_of_isShown hshown]
  rcases hcode with ⟨rfl, hswatch⟩ | rfl
  · exact .informed (hnot hrender) (hnot hswatch) hfiles
  · exact .failed isOther_exit_one hfiles fun other heq => absurd heq (hnot hrender other)

theorem outcome_of_render (hsilent : session.output = []) (hloads : Loads w settings s) :
    Outcome w (some (.work .render settings)) (execute session path s .render settings).1
      (execute session path s .render settings).2 := by
  subst hworkspace
  have hfiles := SameFiles.refl session.workspace.tree
  rw [execute_render]
  cases htemplate : session.workspace.choosePath settings.template templateVariable with
  | none =>
      exact .failed isOther_exit_one hfiles fun _ _ => hsilent
  | some template =>
      dsimp only
      rw [renderAt]
      cases hrendering : renderFile session.workspace s template with
      | error failure =>
          exact outcome_of_failCommand (isOther_of_renderFile hrendering) hfiles fun _ _ => hsilent
      | ok rendering =>
          have hrenders := renders_iff.mpr ⟨template, htemplate, hrendering⟩
          dsimp only
          cases houtput : settings.output.filter (· != "") with
          | none =>
              have hprinted : session.output ++ rendering = rendering := by
                rw [hsilent, List.nil_append]
              rw [← hprinted] at hrenders
              exact .printed hloads hrenders houtput hfiles
          | some target =>
              dsimp only
              rcases saveRendering_cases session.workspace rendering target with
                ⟨fault, heq⟩ | ⟨u, bytes, heq, hencode, hwrote⟩ | ⟨u, fault, heq, hencode, hwrote⟩
              · rw [heq]
                exact outcome_of_failCommand (isOther_file fault) hfiles fun _ _ => hsilent
              · rw [heq]
                exact .saved hloads hrenders houtput hencode hsilent hwrote
              · rw [heq]
                exact .emptied hloads hrenders houtput hencode hsilent hwrote

theorem outcome_of_swatch (hformat : ¬OpensInVain (settings.output.getD "")) :
    Outcome w (some (.work .swatch settings)) (execute session path s .swatch settings).1
      (execute session path s .swatch settings).2 := by
  subst hworkspace
  rw [execute_swatch]
  cases hdraw : drawSwatch session.workspace.machine s settings with
  | error failure =>
      exact outcome_of_failCommand (isOther_of_drawSwatch hdraw)
        (.refl session.workspace.tree) fun _ => nofun
  | ok drawing =>
      cases drawing with
      | error message =>
          have hsession :
              (session.report ("Error: " ++ message)).workspace = session.workspace := rfl
          exact outcome_of_report hsession (Report.isShown_ofScheme path s) nofun (Or.inr rfl)
      | ok image =>
          dsimp only
          rcases saveImage_cases session.workspace image hformat with
            ⟨u, failure, heq, hother, hsame⟩ | ⟨u, file, heq, hwrote⟩
          · rw [heq]
            exact outcome_of_failCommand hother hsame fun _ => nofun
          · rw [heq]
            dsimp only
            rw [finish_of_isShown ((Report.isShown_ofScheme path s).drawn s _)]
            refine .drawn ⟨file, ?_⟩
            rw [(finish_keeps _ _ _ _).left]
            exact hwrote

end Commands

/-!
# Runs
-/

section Runs

variable {w : Workspace} {session : Session} (hworkspace : session.workspace = w)
  (hsilent : session.output = [])

include hworkspace hsilent

theorem outcome_of_failure {request : Option Request} {ending : Ending} (other : ending.IsOther) :
    Outcome w request session ending := by
  subst hworkspace
  exact .failed other (.refl session.workspace.tree) fun _ _ => hsilent

theorem outcome_of_failWith {request : Option Request} (message : String) :
    Outcome w request (failWith session message).1 (failWith session message).2 := by
  subst hworkspace
  exact .failed isOther_exit_one (.refl session.workspace.tree) fun _ _ => hsilent

theorem outcome_of_execute {path : String} {s : Scheme} {c : Builtin} {settings : Settings}
    (hloads : Loads w settings s)
    (hformat : c = .swatch -> ¬OpensInVain (settings.output.getD "")) :
    Outcome w (some (.work c settings)) (execute session path s c settings).1
      (execute session path s c settings).2 := by
  have hshown := Report.isShown_ofScheme (ν := Float) path s
  cases c with
  | field =>
      have hcode : forall r : Report Float, r.lookUpCode = 0 ∨ r.lookUpCode = 1 := by
        intro r
        rw [Report.lookUpCode]
        split
        · exact Or.inl rfl
        · exact Or.inr rfl
      rw [execute_field]
      exact outcome_of_report hworkspace (hshown.lookUp s settings.fields) nofun
        ((hcode _).imp_left fun h => ⟨h, nofun⟩)
  | inspect =>
      rw [execute_inspect]
      exact outcome_of_report hworkspace (hshown.inspect s) nofun (Or.inl ⟨rfl, nofun⟩)
  | render =>
      exact outcome_of_render hworkspace hsilent hloads
  | swatch =>
      exact outcome_of_swatch hworkspace (hformat rfl)

theorem outcome_of_work {verbose : Bool} {c : Builtin} {settings : Settings}
    (hformat : c = .swatch -> ¬OpensInVain (settings.output.getD "")) :
    Outcome w (some (.work c settings)) (work session verbose c settings).1
      (work session verbose c settings).2 := by
  rw [work, hworkspace]
  cases hpath : w.choosePath settings.scheme schemeVariable with
  | none =>
      exact outcome_of_failWith hworkspace hsilent _
  | some path =>
      dsimp only
      cases hread : w.read path with
      | error fault =>
          dsimp only
          split
          · exact outcome_of_failWith hworkspace hsilent _
          · exact outcome_of_failure hworkspace hsilent (isOther_escape_file fault)
      | ok bytes =>
          dsimp only
          cases hdeep : isTooDeep w.machine bytes with
          | true =>
              exact outcome_of_failure hworkspace hsilent isOther_escape_stackOverflow
          | false =>
              rw [if_neg Bool.false_ne_true]
              rcases hload : Scheme.load Float path bytes with ⟨log, result⟩
              have hkeeps := session.reportAll_keeps (shownLog verbose log)
              have hworkspace := hkeeps.left.trans hworkspace
              have hsilent := hkeeps.right.trans hsilent
              cases result with
              | error fault =>
                  split
                  case h_1 heq =>
                    cases heq
                    exact outcome_of_failure hworkspace hsilent (isOther_escape_character _)
                  case h_2 heq =>
                    cases heq
                    exact outcome_of_failWith hworkspace hsilent _
                  case h_3 heq =>
                    cases heq
              | ok s =>
                  exact outcome_of_execute hworkspace hsilent
                    ⟨path, bytes, log, hpath, hread, hdeep, hload⟩ hformat

end Runs

theorem outcome_of_showHelp {w : Workspace} {session : Session}
    (hworkspace : session.workspace = w) (topic : Option String) :
    Outcome w (some (.help topic)) (showHelp session topic).1 (showHelp session topic).2 := by
  subst hworkspace
  have hfiles := SameFiles.refl session.workspace.tree
  cases topic with
  | none =>
      exact .informed (fun _ => nofun) (fun _ => nofun) hfiles
  | some name =>
      rw [showHelp]
      split
      · exact .informed (fun _ => nofun) (fun _ => nofun) hfiles
      · exact .failed isOther_exit_one hfiles fun _ => nofun

/-- What was read of a command line is done with one of the outcomes, as the workspace with
the variables that are loaded tells it. -/
theorem outcome_of_perform (w : Workspace) (i : Invocation)
    (hformat : forall settings, i.request = some (.work .swatch settings) ->
      ¬OpensInVain (settings.output.getD "")) :
    Outcome (Dotenv.load w i.envFile).1 i.request (perform w i).1 (perform w i).2 := by
  rw [perform_eq]
  rcases Dotenv.load w i.envFile with ⟨w, fault | loaded⟩
  · exact .failed ⟨nofun, fun _ => nofun⟩ (.refl w.tree) fun _ _ => rfl
  · have hworkspace : (announced w loaded).workspace = w := by cases loaded <;> rfl
    have hsilent : (announced w loaded).output = [] := by cases loaded <;> rfl
    dsimp only
    rw [answer]
    cases hrequest : i.request with
    | none =>
        refine .failed isOther_exit_one ?_ fun _ => nofun
        show SameFiles w.tree (announced w loaded).workspace.tree
        rw [hworkspace]
        exact .refl w.tree
    | some request =>
        cases request with
        | help topic =>
            exact outcome_of_showHelp hworkspace topic
        | work c settings =>
            refine outcome_of_work hworkspace hsilent fun hswatch => hformat settings ?_
            rw [hrequest, hswatch]

end CommandLine
end Palette
