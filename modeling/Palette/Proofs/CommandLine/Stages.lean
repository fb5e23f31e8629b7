import Palette.CommandLine.Run
import Palette.Proofs.Report.Texts

/-!
# Stages of runs

A run loads variables, reads a scheme and executes a command on it.  Each stage is told by one
equation; what a stage hands on goes to an argument of it.
-/

namespace Palette
namespace CommandLine

theorem run_of_parse {arguments : List String} {i : Invocation} (h : parse arguments = .ok i)
    (w : Workspace) : run arguments w = perform w i := by
  rw [run, h]

def announced (w : Workspace) : Option String → Session
  | some path => (Session.start w).report ("base16-scheme: loaded " ++ path)
  | none => .start w

def answer (session : Session) (i : Invocation) : Session × Ending :=
  match i.request with
  | none => (session.printText mainUsage, .exit 1)
  | some (.help topic) => showHelp session topic
  | some (.work c settings) => work session i.verbose c settings

theorem perform_eq (w : Workspace) (i : Invocation) :
    perform w i =
      match Dotenv.load w i.envFile with
      | (w, .error fault) => (.start w, .escape (.environment fault))
      | (w, .ok path) => answer (announced w path) i := by
  rw [perform]
  rcases Dotenv.load w i.envFile with ⟨w, fault | path⟩
  · rfl
  · cases path <;> rfl

/-!
# Schemes
-/

theorem Session.reportAll_keeps (session : Session) (lines : List String) :
    (session.reportAll lines).workspace = session.workspace ∧
      (session.reportAll lines).output = session.output := by
  induction lines generalizing session with
  | nil =>
      exact ⟨rfl, rfl⟩
  | cons line rest ih =>
      exact ih (session.report line)

/-- Reads the scheme at a path, and gives it to what is done next. -/
def withScheme (session : Session) (verbose : Bool) (path : String)
    (next : Session → Scheme → Session × Ending) : Session × Ending :=
  match session.workspace.read path with
  | .error fault =>
      if fault.cause = .missing then failWith session ("scheme not found: " ++ path)
      else (session, .escape (.file fault))
  | .ok bytes =>
      if isTooDeep session.workspace.machine bytes then (session, .escape .stackOverflow)
      else
        match Scheme.load Float path bytes with
        | (log, .error (.code fault)) =>
            (session.reportAll (shownLog verbose log), .escape (.character fault))
        | (log, .error fault) =>
            failWith (session.reportAll (shownLog verbose log)) (path ++ ": " ++ fault.message)
        | (log, .ok s) => next (session.reportAll (shownLog verbose log)) s

theorem work_eq (session : Session) (verbose : Bool) (c : Builtin) (settings : Settings) :
    work session verbose c settings =
      match session.workspace.choosePath settings.scheme schemeVariable with
      | none => failWith session ("no scheme given (use --scheme or set $" ++ schemeVariable ++ ")")
      | some path =>
          withScheme session verbose path fun session s => execute session path s c settings := by
  rw [work]
  cases session.workspace.choosePath settings.scheme schemeVariable <;> rfl

theorem withScheme_congr {session : Session} {verbose : Bool} {path : String}
    {next next' : Session → Scheme → Session × Ending}
    (h : forall (session' : Session) (s : Scheme),
      session'.workspace = session.workspace -> next session' s = next' session' s) :
    withScheme session verbose path next = withScheme session verbose path next' := by
  rw [withScheme, withScheme]
  cases session.workspace.read path with
  | error fault =>
      rfl
  | ok bytes =>
      dsimp only
      split
      · rfl
      · rcases Scheme.load Float path bytes with ⟨log, fault | s⟩
        · cases fault <;> rfl
        · exact h _ s (session.reportAll_keeps (shownLog verbose log)).left

/-!
# Endings
-/

theorem finish_keeps (work : Work) (c : Builtin) (settings : Settings) (code : Int) :
    (finish work c settings code).1.workspace = work.session.workspace ∧
      (finish work c settings code).1.errors = work.session.errors := by
  rw [finish]
  split
  · exact ⟨rfl, rfl⟩
  · split
    · exact ⟨rfl, rfl⟩
    · split <;> exact ⟨rfl, rfl⟩

theorem finish_of_isShown {work : Work} (h : work.report.IsShown) (c : Builtin)
    (settings : Settings) (code : Int) : (finish work c settings code).2 = .exit code := by
  rcases h.exists_text with ⟨text, htext⟩
  rw [finish]
  split
  · rfl
  · split
    · rfl
    · rw [htext]

/-!
# Commands
-/

theorem execute_of_run (session : Session) (path : String) (s : Scheme) (settings : Settings)
    {c : Builtin} {run : Scheme → Settings → Work → Work × Except Failure (Option Int)}
    (h : (task c).run? = some run) :
    execute session path s c settings =
      match run s settings ⟨session, .ofScheme path s⟩ with
      | (work, .ok code) => finish work c settings (code.getD 0)
      | (work, .error failure) => failCommand work.session failure := by
  rw [execute, Command.execute, h]
  dsimp only
  rcases run s settings ⟨session, .ofScheme path s⟩ with ⟨work, failure | code⟩ <;> rfl

def renderAt (session : Session) (s : Scheme) (settings : Settings) (path : String) :
    Session × Ending :=
  match renderFile session.workspace s path with
  | .error failure => failCommand session failure
  | .ok rendering =>
      match settings.output.filter (· != "") with
      | none => (session.print rendering, .exit 0)
      | some target =>
          match saveRendering session.workspace rendering target with
          | (w, .error failure) => failCommand { session with workspace := w } failure
          | (w, .ok ()) =>
              ({ session with workspace := w }.report ("base16-scheme: wrote " ++ target), .exit 0)

section Commands

variable (session : Session) (path : String) (s : Scheme) (settings : Settings)

theorem execute_inspect :
    execute session path s .inspect settings =
      finish ⟨session, (Report.ofScheme path s).inspect s⟩ .inspect settings 0 :=
  rfl

theorem execute_field :
    execute session path s .field settings =
      finish ⟨session, (Report.ofScheme path s).lookUp s settings.fields⟩ .field settings
        ((Report.ofScheme path s).lookUp s settings.fields : Report Float).lookUpCode :=
  rfl

theorem execute_render :
    execute session path s .render settings =
      match session.workspace.choosePath settings.template templateVariable with
      | none => failWith session ("no template given and $" ++ templateVariable ++ " is not set")
      | some template => renderAt session s settings template := by
  have hrun : (task .render).run? = some runRender := rfl
  rw [execute_of_run session path s settings hrun, runRender]
  dsimp only
  cases session.workspace.choosePath settings.template templateVariable with
  | none =>
      rfl
  | some template =>
      dsimp only
      rw [renderAt]
      cases renderFile session.workspace s template with
      | error failure =>
          rfl
      | ok rendering =>
          dsimp only
          cases settings.output.filter (· != "") with
          | none =>
              rfl
          | some target =>
              dsimp only
              rcases saveRendering session.workspace rendering target with ⟨w, failure | _⟩ <;> rfl

theorem execute_swatch :
    execute session path s .swatch settings =
      match drawSwatch session.workspace.machine s settings with
      | .error failure => failCommand session failure
      | .ok (.error message) =>
          finish ⟨session.report ("Error: " ++ message), .ofScheme path s⟩ .swatch settings 1
      | .ok (.ok image) =>
          match saveImage session.workspace image (settings.output.getD "") with
          | (w, .error failure) => failCommand { session with workspace := w } failure
          | (w, .ok ()) =>
              finish
                ⟨{ session with workspace := w },
                  (Report.ofScheme path s).drawn s (settings.output.getD "")⟩
                .swatch settings 0 := by
  have hrun : (task .swatch).run? = some runSwatch := rfl
  rw [execute_of_run session path s settings hrun, runSwatch]
  dsimp only
  cases drawSwatch session.workspace.machine s settings with
  | error failure =>
      rfl
  | ok drawing =>
      cases drawing with
      | error message =>
          rfl
      | ok image =>
          dsimp only
          rcases saveImage session.workspace image (settings.output.getD "") with ⟨w, failure | _⟩
          · rfl
          · rfl

end Commands

end CommandLine
end Palette
