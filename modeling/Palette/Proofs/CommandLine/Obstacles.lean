import Palette.Proofs.CommandLine.Outcomes

/-!
# Obstacles

What stands in the way of a run is told in an error line, and the exit code is one; or it is a
failure that the run has no message for.  The latter is so for most failures of files: only a
file that is missing is told of.
-/

namespace Palette
namespace CommandLine

inductive Obstacle where
  /-- The variables cannot be loaded. -/
  | environment (fault : Dotenv.Fault)
  | noScheme
  | schemeFile (path : String) (fault : FileFault)
  | deepScheme
  | scheme (path : String) (fault : Scheme.Fault Float)
  | noTemplate
  /-- The numbers of a swatch are refused. -/
  | numbers (message : String)
  | command (failure : Failure)

/-- What is told of a failed command, or the failure if there is no message for it. -/
def Failure.told : Failure → Except Escape String
  | file fault =>
      if fault.cause = .missing then .ok ("file not found: " ++ fault.path)
      else .error (.file fault)
  | notUtf8 path fault => .ok (path ++ ": not valid UTF-8 (" ++ fault.message ++ ")")
  | template fault => .ok fault.message
  | encoding fault => .error (.encoding fault)
  | image fault => .error (.image fault)
  | excess e => .error (.excess e)
  | missingNumber => .error .missingNumber
  | stackOverflow => .error .stackOverflow

def Obstacle.told : Obstacle → Except Escape String
  | environment fault => .error (.environment fault)
  | noScheme => .ok "no scheme given (use --scheme or set $BASE16_SCHEME)"
  | schemeFile path fault =>
      if fault.cause = .missing then .ok ("scheme not found: " ++ path)
      else .error (.file fault)
  | deepScheme => .error .stackOverflow
  | scheme _ (.code fault) => .error (.character fault)
  | scheme path fault => .ok (path ++ ": " ++ fault.message)
  | noTemplate => .ok "no template given and $BASE16_TEMPLATE is not set"
  | numbers message => .ok message
  | command failure => failure.told

/-- How a run ends that has met an obstacle. -/
def Obstacle.Ends (o : Obstacle) (result : Session × Ending) : Prop :=
  match o.told with
  | .ok message =>
      result.2 = .exit 1 ∧ exists before, result.1.errors = before ++ "Error: " ++ message ++ "\n"
  | .error failure => result.2 = .escape failure

/-!
# Endings
-/

theorem ends_of_exit {o : Obstacle} {message : String} (htold : o.told = .ok message)
    {result : Session × Ending} {before : String} (hexit : result.2 = .exit 1)
    (herrors : result.1.errors = before ++ ("Error: " ++ message) ++ "\n") : o.Ends result := by
  rw [Obstacle.Ends, htold]
  refine ⟨hexit, before, ?_⟩
  rw [herrors]
  simp only [String.append_assoc]

theorem ends_failWith {o : Obstacle} {message : String} (htold : o.told = .ok message)
    (session : Session) : o.Ends (failWith session message) :=
  ends_of_exit htold rfl rfl

theorem ends_failCommand (session : Session) (failure : Failure) :
    (Obstacle.command failure).Ends (failCommand session failure) := by
  cases failure with
  | file fault =>
      by_cases hmissing : fault.cause = .missing
      · rw [failCommand, if_pos hmissing]
        apply ends_failWith
        rw [Obstacle.told, Failure.told, if_pos hmissing]
      · rw [failCommand, if_neg hmissing, Obstacle.Ends, Obstacle.told, Failure.told,
          if_neg hmissing]
  | notUtf8 path fault =>
      exact ends_failWith rfl session
  | template fault =>
      exact ends_failWith rfl session
  | _ =>
      rfl

/-!
# Commands
-/

inductive CommandMeets (w : Workspace) (s : Scheme) (settings : Settings) :
    Builtin → Obstacle → Prop
  | noTemplate (h : w.choosePath settings.template templateVariable = none) :
      CommandMeets w s settings .render .noTemplate
  | template {path : String} {failure : Failure}
      (hpath : w.choosePath settings.template templateVariable = some path)
      (h : renderFile w s path = .error failure) :
      CommandMeets w s settings .render (.command failure)
  | output {rendering : Phrase} {path : String} {failure : Failure}
      (hrenders : Renders w settings s rendering)
      (hpath : settings.output.filter (· != "") = some path)
      (h : (saveRendering w rendering path).2 = .error failure) :
      CommandMeets w s settings .render (.command failure)
  | numbers {message : String} (h : drawSwatch w.machine s settings = .ok (.error message)) :
      CommandMeets w s settings .swatch (.numbers message)
  | drawing {failure : Failure} (h : drawSwatch w.machine s settings = .error failure) :
      CommandMeets w s settings .swatch (.command failure)
  | image {image : Image} {failure : Failure}
      (hdraw : drawSwatch w.machine s settings = .ok (.ok image))
      (h : (saveImage w image (settings.output.getD "")).2 = .error failure) :
      CommandMeets w s settings .swatch (.command failure)

section Commands

variable {session : Session} {path : String} {s : Scheme} {settings : Settings}

theorem ends_of_commandMeets {c : Builtin} {o : Obstacle}
    (h : CommandMeets session.workspace s settings c o) :
    o.Ends (execute session path s c settings) := by
  cases h with
  | noTemplate h =>
      rw [execute_render, h]
      exact ends_failWith rfl session
  | template hpath h =>
      rw [execute_render, hpath]
      dsimp only
      rw [renderAt, h]
      exact ends_failCommand session _
  | @output rendering target failure hrenders hpath h =>
      rcases renders_iff.mp hrenders with ⟨template, htemplate, hrendering⟩
      rw [execute_render, htemplate]
      dsimp only
      rw [renderAt, hrendering]
      dsimp only
      rw [hpath]
      dsimp only
      rcases hsave : saveRendering session.workspace rendering target with ⟨u, result⟩
      rw [hsave] at h
      dsimp only at h
      rw [h]
      exact ends_failCommand { session with workspace := u } failure
  | numbers h =>
      rw [execute_swatch, h]
      dsimp only
      refine ends_of_exit rfl ?_ (finish_keeps _ _ _ _).right
      exact finish_of_isShown (Report.isShown_ofScheme path s) .swatch settings 1
  | drawing h =>
      rw [execute_swatch, h]
      exact ends_failCommand session _
  | @image image failure hdraw h =>
      rw [execute_swatch, hdraw]
      dsimp only
      rcases hsave : saveImage session.workspace image (settings.output.getD "") with ⟨u, result⟩
      rw [hsave] at h
      dsimp only at h
      rw [h]
      exact ends_failCommand { session with workspace := u } failure

theorem exit_or_commandMeets (session : Session) (path : String) (s : Scheme) (c : Builtin)
    (settings : Settings) :
    (exists code, (execute session path s c settings).2 = .exit code) ∨
      exists o, CommandMeets session.workspace s settings c o := by
  have hshown := Report.isShown_ofScheme (ν := Float) path s
  cases c with
  | field =>
      exact Or.inl ⟨_, finish_of_isShown (hshown.lookUp s settings.fields) .field settings _⟩
  | inspect =>
      exact Or.inl ⟨_, finish_of_isShown (hshown.inspect s) .inspect settings 0⟩
  | render =>
      cases htemplate : session.workspace.choosePath settings.template templateVariable with
      | none =>
          exact Or.inr ⟨_, .noTemplate htemplate⟩
      | some template =>
          cases hrendering : renderFile session.workspace s template with
          | error failure =>
              exact Or.inr ⟨_, .template htemplate hrendering⟩
          | ok rendering =>
              rw [execute_render, htemplate]
              dsimp only
              rw [renderAt, hrendering]
              dsimp only
              cases hpath : settings.output.filter (· != "") with
              | none =>
                  exact Or.inl ⟨0, rfl⟩
              | some target =>
                  dsimp only
                  rcases hsave : saveRendering session.workspace rendering target with
                    ⟨u, failure | _⟩
                  · have hrenders := renders_iff.mpr ⟨template, htemplate, hrendering⟩
                    exact Or.inr ⟨_, .output hrenders hpath (congrArg Prod.snd hsave)⟩
                  · exact Or.inl ⟨0, rfl⟩
  | swatch =>
      cases hdraw : drawSwatch session.workspace.machine s settings with
      | error failure =>
          exact Or.inr ⟨_, .drawing hdraw⟩
      | ok drawing =>
          cases drawing with
          | error message =>
              exact Or.inr ⟨_, .numbers hdraw⟩
          | ok image =>
              rw [execute_swatch, hdraw]
              dsimp only
              rcases hsave : saveImage session.workspace image (settings.output.getD "") with
                ⟨u, failure | _⟩
              · exact Or.inr ⟨_, .image hdraw (congrArg Prod.snd hsave)⟩
              · exact Or.inl ⟨0, finish_of_isShown (hshown.drawn s _) .swatch settings 0⟩

end Commands

/-!
# Runs
-/

/-- The command that a run executes, and the workspace with the variables that are loaded. -/
structure Asks (w : Workspace) (i : Invocation) (v : Workspace) (c : Builtin)
    (settings : Settings) : Prop where
  load : exists loaded, Dotenv.load w i.envFile = (v, .ok loaded)
  request : i.request = some (.work c settings)

inductive Meets (w : Workspace) (i : Invocation) : Obstacle → Prop
  | environment {fault : Dotenv.Fault} (h : (Dotenv.load w i.envFile).2 = .error fault) :
      Meets w i (.environment fault)
  | noScheme {v : Workspace} {c : Builtin} {settings : Settings} (asks : Asks w i v c settings)
      (h : v.choosePath settings.scheme schemeVariable = none) : Meets w i .noScheme
  | schemeFile {v : Workspace} {c : Builtin} {settings : Settings} {path : String}
      {fault : FileFault} (asks : Asks w i v c settings)
      (hpath : v.choosePath settings.scheme schemeVariable = some path)
      (h : v.read path = .error fault) : Meets w i (.schemeFile path fault)
  | deepScheme {v : Workspace} {c : Builtin} {settings : Settings} {path : String}
      {bytes : Text.Bytes} (asks : Asks w i v c settings)
      (hpath : v.choosePath settings.scheme schemeVariable = some path)
      (hread : v.read path = .ok bytes) (h : isTooDeep v.machine bytes = true) :
      Meets w i .deepScheme
  | scheme {v : Workspace} {c : Builtin} {settings : Settings} {path : String}
      {bytes : Text.Bytes} {fault : Scheme.Fault Float} (asks : Asks w i v c settings)
      (hpath : v.choosePath settings.scheme schemeVariable = some path)
      (hread : v.read path = .ok bytes) (hdeep : isTooDeep v.machine bytes = false)
      (h : (Scheme.load Float path bytes).2 = .error fault) : Meets w i (.scheme path fault)
  | command {v : Workspace} {c : Builtin} {settings : Settings} {s : Scheme} {o : Obstacle}
      (asks : Asks w i v c settings) (loads : Loads v settings s)
      (h : CommandMeets v s settings c o) : Meets w i o

theorem Asks.perform_eq {w v : Workspace} {i : Invocation} {c : Builtin} {settings : Settings}
    (h : Asks w i v c settings) :
    exists session, session.workspace = v ∧ perform w i = work session i.verbose c settings := by
  rcases h.load with ⟨loaded, hload⟩
  refine ⟨announced v loaded, by cases loaded <;> rfl, ?_⟩
  rw [CommandLine.perform_eq, hload]
  dsimp only
  rw [answer, h.request]

theorem ends_of_meets {w : Workspace} {i : Invocation} {o : Obstacle} (h : Meets w i o) :
    o.Ends (perform w i) := by
  cases h with
  | environment h =>
      rw [perform_eq]
      rcases hload : Dotenv.load w i.envFile with ⟨v, result⟩
      rw [hload] at h
      dsimp only at h
      rw [h]
      rfl
  | noScheme asks h =>
      rcases asks.perform_eq with ⟨session, rfl, hperform⟩
      rw [hperform, work_eq, h]
      exact ends_failWith rfl session
  | @schemeFile v c settings path fault asks hpath h =>
      rcases asks.perform_eq with ⟨session, rfl, hperform⟩
      rw [hperform, work_eq, hpath]
      dsimp only
      rw [withScheme, h]
      dsimp only
      by_cases hmissing : fault.cause = .missing
      · rw [if_pos hmissing]
        apply ends_failWith
        rw [Obstacle.told, if_pos hmissing]
      · rw [if_neg hmissing, Obstacle.Ends, Obstacle.told, if_neg hmissing]
  | deepScheme asks hpath hread h =>
      rcases asks.perform_eq with ⟨session, rfl, hperform⟩
      rw [hperform, work_eq, hpath]
      dsimp only
      rw [withScheme, hread]
      dsimp only
      rw [if_pos h]
      rfl
  | @scheme v c settings path bytes fault asks hpath hread hdeep h =>
      rcases asks.perform_eq with ⟨session, rfl, hperform⟩
      rw [hperform, work_eq, hpath]
      dsimp only
      rw [withScheme, hread]
      dsimp only
      rw [hdeep, if_neg Bool.false_ne_true]
      rcases hload : Scheme.load Float path bytes with ⟨log, result⟩
      rw [hload] at h
      dsimp only at h
      rw [h]
      cases fault with
      | code fault =>
          rfl
      | _ =>
          exact ends_failWith rfl _
  | command asks loads h =>
      rcases asks.perform_eq with ⟨session, rfl, hperform⟩
      rcases loads with ⟨path, bytes, log, hpath, hread, hdeep, hload⟩
      have hkeeps := (session.reportAll_keeps (shownLog i.verbose log)).left
      rw [hperform, work_eq, hpath]
      dsimp only
      rw [withScheme, hread]
      dsimp only
      rw [hdeep, if_neg Bool.false_ne_true, hload]
      dsimp only
      rw [← hkeeps] at h
      exact ends_of_commandMeets h

theorem exists_exit_showHelp (session : Session) (topic : Option String) :
    exists code, (showHelp session topic).2 = .exit code := by
  cases topic with
  | none =>
      exact ⟨0, rfl⟩
  | some name =>
      rw [showHelp]
      split
      · exact ⟨0, rfl⟩
      · exact ⟨1, rfl⟩

theorem exit_or_meets_of_path {w : Workspace} {i : Invocation} {session : Session} {c : Builtin}
    {settings : Settings} {path : String} (asks : Asks w i session.workspace c settings)
    (hpath : session.workspace.choosePath settings.scheme schemeVariable = some path) :
    (exists code, (withScheme session i.verbose path
      fun session s => execute session path s c settings).2 = .exit code) ∨
        exists o, Meets w i o := by
  rw [withScheme]
  cases hread : session.workspace.read path with
  | error fault =>
      exact Or.inr ⟨_, .schemeFile asks hpath hread⟩
  | ok bytes =>
      dsimp only
      cases hdeep : isTooDeep session.workspace.machine bytes with
      | true =>
          exact Or.inr ⟨_, .deepScheme asks hpath hread hdeep⟩
      | false =>
          rw [if_neg Bool.false_ne_true]
          rcases hscheme : Scheme.load Float path bytes with ⟨log, fault | s⟩
          · exact Or.inr ⟨_, .scheme asks hpath hread hdeep (congrArg Prod.snd hscheme)⟩
          · have hkeeps := (session.reportAll_keeps (shownLog i.verbose log)).left
            have hloads : Loads session.workspace settings s :=
              ⟨path, bytes, log, hpath, hread, hdeep, hscheme⟩
            rcases exit_or_commandMeets (session.reportAll (shownLog i.verbose log)) path s c
              settings with hexit | ⟨o, hmeets⟩
            · exact Or.inl hexit
            · rw [hkeeps] at hmeets
              exact Or.inr ⟨o, .command asks hloads hmeets⟩

theorem exit_or_meets (w : Workspace) (i : Invocation) :
    (exists code, (perform w i).2 = .exit code) ∨ exists o, Meets w i o := by
  rcases hload : Dotenv.load w i.envFile with ⟨v, fault | loaded⟩
  · exact Or.inr ⟨_, .environment (congrArg Prod.snd hload)⟩
  · cases hrequest : i.request with
    | none =>
        refine Or.inl ⟨1, ?_⟩
        rw [perform_eq, hload]
        dsimp only
        rw [answer, hrequest]
    | some request =>
        cases request with
        | help topic =>
            rw [perform_eq, hload]
            dsimp only
            rw [answer, hrequest]
            exact Or.inl (exists_exit_showHelp _ topic)
        | work c settings =>
            have asks : Asks w i v c settings := ⟨⟨loaded, hload⟩, hrequest⟩
            rcases asks.perform_eq with ⟨session, rfl, hperform⟩
            rw [hperform, work_eq]
            cases hpath : session.workspace.choosePath settings.scheme schemeVariable with
            | none =>
                exact Or.inr ⟨_, .noScheme asks hpath⟩
            | some path =>
                exact exit_or_meets_of_path asks hpath

/-- A run ends without an exit code exactly if it meets an obstacle that it has no message for.
It tells of all other obstacles in an error line, and then its exit code is one. -/
theorem run_escapes_iff {arguments : List String} {i : Invocation}
    (hparse : parse arguments = .ok i) (w : Workspace) :
    (forall failure, (run arguments w).2 = .escape failure <->
      exists o, Meets w i o ∧ o.told = .error failure) ∧
      forall o message, Meets w i o -> o.told = .ok message ->
        (run arguments w).2 = .exit 1 ∧
          exists before, (run arguments w).1.errors = before ++ "Error: " ++ message ++ "\n" := by
  rw [run_of_parse hparse]
  refine ⟨fun failure => ⟨fun hescape => ?_, ?_⟩, ?_⟩
  · rcases exit_or_meets w i with ⟨code, hexit⟩ | ⟨o, hmeets⟩
    · rw [hexit] at hescape
      cases hescape
    · refine ⟨o, hmeets, ?_⟩
      have hends := ends_of_meets hmeets
      rw [Obstacle.Ends] at hends
      cases htold : o.told with
      | ok message =>
          rw [htold] at hends
          rw [hends.left] at hescape
          cases hescape
      | error other =>
          rw [htold] at hends
          rw [hends] at hescape
          cases hescape
          rfl
  · rintro ⟨o, hmeets, htold⟩
    have hends := ends_of_meets hmeets
    rw [Obstacle.Ends, htold] at hends
    exact hends
  · intro o message hmeets htold
    have hends := ends_of_meets hmeets
    rw [Obstacle.Ends, htold] at hends
    exact hends

/-!
# A directory in place of a scheme

There may be a directory where the scheme should be, or nothing at all.
-/

def inspectWords : List String :=
  ["inspect", "-s", "d"]

def inspectSettings : Settings :=
  { Settings.default with scheme := some "d" }

def inspectInvocation : Invocation :=
  ⟨none, false, some (.work .inspect inspectSettings)⟩

def inspectFiles (tree : Tree) : Workspace where
  rootPath := ""
  tree := tree
  directory := Workspace.root
  environment := []

/-- A scheme that is missing is told of. -/
theorem run_escapes_iff_of_missing :
    Meets (inspectFiles .empty) inspectInvocation (.schemeFile "d" ⟨.missing, "d"⟩) ∧
      (run inspectWords (inspectFiles .empty)).2 = .exit 1 ∧
      exists before, (run inspectWords (inspectFiles .empty)).1.errors =
        before ++ "Error: " ++ "scheme not found: d" ++ "\n" := by
  have hparse : parse inspectWords = .ok inspectInvocation := rfl
  have asks : Asks (inspectFiles .empty) inspectInvocation (inspectFiles .empty) .inspect
      inspectSettings := ⟨⟨none, rfl⟩, rfl⟩
  have hread : (inspectFiles .empty).read "d" = .error ⟨.missing, "d"⟩ := rfl
  have hmeets := Meets.schemeFile asks rfl hread
  exact ⟨hmeets, (run_escapes_iff hparse (inspectFiles .empty)).right _ _ hmeets rfl⟩

/-- A directory in place of a scheme is an obstacle that a run has no message for. -/
theorem run_escapes_on_directory :
    parse inspectWords = .ok inspectInvocation ∧
      (run inspectWords (inspectFiles (Tree.empty.put ["d"] .directory))).2 =
        .escape (.file ⟨.isDirectory, "d"⟩) ∧
      ¬exists code, (run inspectWords (inspectFiles (Tree.empty.put ["d"] .directory))).2 =
        .exit code := by
  have hescape : (run inspectWords (inspectFiles (Tree.empty.put ["d"] .directory))).2 =
      .escape (.file ⟨.isDirectory, "d"⟩) := rfl
  refine ⟨rfl, hescape, ?_⟩
  rintro ⟨code, hexit⟩
  rw [hescape] at hexit
  cases hexit

end CommandLine
end Palette
