import Palette.Command.Basic
import Palette.Command.Findings
import Palette.CommandLine.Options
import Palette.Environment.Load
import Palette.ImageFormat
import Palette.Pixmap
import Palette.Report.Json
import Palette.Report.Text
import Palette.Scheme.Text
import Palette.Swatch.Memory
import Palette.Template.Render

/-!
# Runs of the program

A run reads its command line, loads variables, reads a scheme and executes a
command on it.  It changes a workspace, prints text, and ends with an exit code,
or with a failure that it has no message for.

Some things are taken to be as one would wish.  Whatever is printed can be
printed, a surrogate too, where a terminal may have no encoding for it.  Files
are there for all to read and write, and there is room for what is written.  The
words of a command line, the names of files and the values of variables are
text, without bytes that are none.
-/

namespace Palette
namespace CommandLine

/-- A workspace with what was printed so far. -/
structure Session where
  workspace : Workspace
  output : Phrase
  errors : String

namespace Session

def start (w : Workspace) : Session :=
  ⟨w, [], ""⟩

def print (s : Session) (p : Phrase) : Session :=
  { s with output := s.output ++ p }

def printText (s : Session) (text : String) : Session :=
  s.print (Phrase.ofText text)

/-- Prints a line to the error output. -/
def report (s : Session) (line : String) : Session :=
  { s with errors := s.errors ++ line ++ "\n" }

def reportAll (s : Session) (lines : List String) : Session :=
  lines.foldl report s

end Session

/-- A failure that a run has no message for. -/
inductive Escape where
  | file (fault : FileFault)
  | environment (fault : Dotenv.Fault)
  | character (fault : Yaml.Fault)
  | image (fault : ImageFault)
  | report (fault : Report.Fault)
  /-- A text that cannot be written to a file. -/
  | encoding (fault : Text.Utf8.EncodeFault)
  /-- A swatch that cannot be held. -/
  | excess (excess : Swatch.Excess)
  /-- A number that is compared with another one is missing. -/
  | missingNumber
  /-- The stack of the interpreter is not deep enough. -/
  | stackOverflow
  | noRunFunction (name : String)
deriving DecidableEq

namespace Escape

def message : Escape → String
  | file fault => fault.message
  | environment fault => fault.message
  | character fault => fault.message
  | image fault => fault.message
  | report fault => fault.message
  | encoding fault => fault.message
  | excess e => e.message
  | missingNumber => "'<' not supported between instances of 'list' and 'int'"
  | stackOverflow => "maximum recursion depth exceeded"
  | noRunFunction name => Command.noRunMessage name

end Escape

inductive Ending where
  | exit (code : Int)
  | escape (failure : Escape)
deriving DecidableEq

/-- Why a command fails. -/
inductive Failure where
  | file (fault : FileFault)
  | notUtf8 (path : String) (fault : Text.Utf8.Fault)
  | template (fault : Template.Fault)
  | encoding (fault : Text.Utf8.EncodeFault)
  | image (fault : ImageFault)
  | excess (excess : Swatch.Excess)
  | missingNumber
  | stackOverflow

/-! ## Variables -/

def schemeVariable : String :=
  "BASE16_SCHEME"

def templateVariable : String :=
  "BASE16_TEMPLATE"

/-! ## Commands -/

/-- A session with the report that a command fills. -/
structure Work where
  session : Session
  report : Report Float

abbrev Task := Command Unit Scheme Settings Work Failure Int

def Work.changing (work : Work) (change : Session → Session) : Work :=
  { work with session := change work.session }

def runInspect (s : Scheme) (_ : Settings) (work : Work) : Work × Except Failure (Option Int) :=
  ({ work with report := work.report.inspect s }, .ok none)

def runField (s : Scheme) (settings : Settings) (work : Work) :
    Work × Except Failure (Option Int) :=
  let report := work.report.lookUp s settings.fields
  ({ work with report := report }, .ok (some report.lookUpCode))

/-- The rendering of the template at a path. -/
def renderFile (w : Workspace) (s : Scheme) (path : String) : Except Failure Phrase :=
  match w.read path with
  | .error fault => .error (.file fault)
  | .ok bytes =>
      match Text.Utf8.decode bytes with
      | .error fault => .error (.notUtf8 path fault)
      | .ok source =>
          let source := String.ofList (Text.toLineFeeds source)
          match Template.render source ⟨s.renderField Float, s.fieldTruthy⟩ with
          | .error fault => .error (.template fault)
          | .ok rendering =>
              if w.machine.holdsTemplate source s.fieldTruthy then .ok rendering
              else .error .stackOverflow

/-- Writes a rendering to a file.  If it cannot be encoded, the file is left empty. -/
def saveRendering (w : Workspace) (rendering : Phrase) (path : String) :
    Workspace × Except Failure Unit :=
  let encoded := Text.Utf8.encodePhrase rendering
  match w.write path (.file (encoded.toOption.getD [])), encoded with
  | .error fault, _ => (w, .error (.file fault))
  | .ok w, .error fault => (w, .error (.encoding fault))
  | .ok w, .ok _ => (w, .ok ())

def runRender (s : Scheme) (settings : Settings) (work : Work) :
    Work × Except Failure (Option Int) :=
  let w := work.session.workspace
  match w.choosePath settings.template templateVariable with
  | none =>
      (work.changing (·.report ("Error: no template given and $" ++ templateVariable ++
        " is not set")), .ok (some 1))
  | some path =>
      match renderFile w s path with
      | .error failure => (work, .error failure)
      | .ok rendering =>
          match settings.output.filter (· != "") with
          | none => (work.changing (·.print rendering), .ok (some 0))
          | some target =>
              match saveRendering w rendering target with
              | (w, .error failure) =>
                  (work.changing fun session => { session with workspace := w }, .error failure)
              | (w, .ok ()) =>
                  ({ session :=
                      { work.session with workspace := w }.report
                        ("base16-scheme: wrote " ++ target)
                     report := work.report.addFile target }, .ok (some 0))

/-- Writes an image; the directory of its path is made first.  A file that is
opened for an image that its format does not take is left empty, or removed if
it was not there before. -/
def saveImage (w : Workspace) (image : Image) (path : String) :
    Workspace × Except Failure Unit :=
  match w.tree.makeParents w.directory path.toList with
  | .error fault => (w, .error (.file fault))
  | .ok tree =>
      let w := { w with tree := tree }
      let extension := String.ofList (Text.lower (Path.extension path.toList))
      let store (entry : Entry) (fault? : Option ImageFault) : Workspace × Except Failure Unit :=
        match w.write path entry, fault? with
        | .error fault, _ => (w, .error (.file fault))
        | .ok stored, none => (stored, .ok ())
        | .ok stored, some fault =>
            (if (w.tree.find? w.directory path.toList).isSome then stored else w,
              .error (.image fault))
      match ImageFormat.ofExtension? extension with
      | none => (w, .error (.image (.unknownExtension extension)))
      | some (.readOnly name) => (w, .error (.image (.readOnly name)))
      | some (.refusing fault) => store (.file []) (some fault)
      | some .pixmap => store (.file (Pixmap.encode image)) none
      | some .picture => store (.picture image) none

/-- Draws the swatch that the settings ask for, or says what is wrong with its
numbers.  The columns are looked at only if the size is positive. -/
def drawSwatch (m : Machine) (s : Scheme) (settings : Settings) :
    Except Failure (Except String Image) :=
  match settings.size, settings.columns with
  | some size, some columns =>
      match Swatch.make m s.colors.colors size columns with
      | .ok image => .ok (.ok image)
      | .error (.refused fault) => .ok (.error fault.message)
      | .error (.excess e) =>
          if e.isRefused then .ok (.error e.message) else .error (.excess e)
  | some size, none =>
      if size < 1 then .ok (.error (Swatch.refusal (toString size) "[]"))
      else .error .missingNumber
  | none, _ => .error .missingNumber

def runSwatch (s : Scheme) (settings : Settings) (work : Work) :
    Work × Except Failure (Option Int) :=
  match drawSwatch work.session.workspace.machine s settings with
  | .error failure => (work, .error failure)
  | .ok (.error message) => (work.changing (·.report ("Error: " ++ message)), .ok (some 1))
  | .ok (.ok image) =>
      let path := settings.output.getD ""
      match saveImage work.session.workspace image path with
      | (w, .error failure) =>
          (work.changing fun session => { session with workspace := w }, .error failure)
      | (w, .ok ()) =>
          ({ session := { work.session with workspace := w }
             report := work.report.drawn s path }, .ok (some 0))

/-- The command of a name with its run function. -/
def task (c : Builtin) : Task :=
  let start : Task := .start c.name c.help
  start.withRun
    (match c with
    | .field => runField
    | .inspect => runInspect
    | .render => runRender
    | .swatch => runSwatch)

/-- Whether a command prints its own output in place of a report. -/
def printsItself : Builtin → Bool
  | .render => true
  | _ => false

/-! ## Endings -/

/-- Ends a run with an error line. -/
def failWith (session : Session) (message : String) : Session × Ending :=
  (session.report ("Error: " ++ message), .exit 1)

/-- Ends a run whose command failed. -/
def failCommand (session : Session) : Failure → Session × Ending
  | .file fault =>
      if fault.cause = .missing then failWith session ("file not found: " ++ fault.path)
      else (session, .escape (.file fault))
  | .notUtf8 path fault =>
      failWith session (path ++ ": not valid UTF-8 (" ++ fault.message ++ ")")
  | .template fault => failWith session fault.message
  | .encoding fault => (session, .escape (.encoding fault))
  | .image fault => (session, .escape (.image fault))
  | .excess e => (session, .escape (.excess e))
  | .missingNumber => (session, .escape .missingNumber)
  | .stackOverflow => (session, .escape .stackOverflow)

/-- Prints the report of a command that has come to its end. -/
def finish (work : Work) (c : Builtin) (settings : Settings) (code : Int) : Session × Ending :=
  if printsItself c then (work.session, .exit code)
  else if settings.json then (work.session.printText (work.report.json ++ "\n"), .exit code)
  else
    match work.report.text with
    | .ok text => (work.session.print (text ++ Phrase.ofText "\n"), .exit code)
    | .error fault => (work.session, .escape (.report fault))

/-- Executes a command on a scheme. -/
def execute (session : Session) (path : String) (s : Scheme) (c : Builtin)
    (settings : Settings) : Session × Ending :=
  match (task c).execute s settings ⟨session, .ofScheme path s⟩ with
  | (work, .ok code) => finish work c settings code
  | (work, .error (.run failure)) => failCommand work.session failure
  | (work, .error (.noRunFunction name)) => (work.session, .escape (.noRunFunction name))

/-! ## Schemes -/

/-- The name of the log in front of each of its lines. -/
def logName : String :=
  "base16_scheme.core.scheme: "

/-- The lines of a log that are shown: warnings as they are, or all lines with
the name of the log in front. -/
def shownLog (verbose : Bool) (log : List Scheme.LogLine) : List String :=
  if verbose then log.map fun line => logName ++ line.message
  else (log.filter (·.isWarning)).map (·.message)

/-- Whether the text in the bytes of a scheme is nested too deep for a machine. -/
def isTooDeep (m : Machine) (bytes : Text.Bytes) : Bool :=
  match Text.Utf8.decode bytes with
  | .error _ => false
  | .ok text => !m.holdsDocument (Text.toLineFeeds text)

/-- Reads the scheme of a run and executes its command. -/
def work (session : Session) (verbose : Bool) (c : Builtin) (settings : Settings) :
    Session × Ending :=
  match session.workspace.choosePath settings.scheme schemeVariable with
  | none =>
      failWith session ("no scheme given (use --scheme or set $" ++ schemeVariable ++ ")")
  | some path =>
      match session.workspace.read path with
      | .error fault =>
          if fault.cause = .missing then failWith session ("scheme not found: " ++ path)
          else (session, .escape (.file fault))
      | .ok bytes =>
          if isTooDeep session.workspace.machine bytes then (session, .escape .stackOverflow)
          else
            match Scheme.load Float path bytes with
            | (log, .error (.code fault)) =>
                (session.reportAll (shownLog verbose log), .escape (.character fault))
            | (log, .error fault) =>
                failWith (session.reportAll (shownLog verbose log)) (path ++ ": " ++ fault.message)
            | (log, .ok s) => execute (session.reportAll (shownLog verbose log)) path s c settings

/-! ## Documentation -/

/-- Fills a text up with blanks behind it. -/
def padEnd (width : Nat) (s : String) : String :=
  s ++ String.ofList (List.replicate (width - s.length) ' ')

def listing : String :=
  "Available commands:\n\n" ++
    String.join (Builtin.all.map fun c =>
      "  " ++ padEnd 10 c.name ++ " " ++ c.summary ++ "\n") ++
    "\nRun: base16-scheme help <command> for full docs.\n"

def showHelp (session : Session) (topic : Option String) : Session × Ending :=
  match topic with
  | none => (session.printText listing, .exit 0)
  | some name =>
      match Builtin.ofName? name with
      | .ok c => (session.printText (c.doc ++ "\n"), .exit 0)
      | .error _ =>
          (session.reportAll
            [ "Unknown command: " ++ name, "Available: " ++ ", ".intercalate Builtin.names ],
            .exit 1)

/-! ## Runs -/

/-- Loads the variables and does what was asked for. -/
def perform (w : Workspace) (i : Invocation) : Session × Ending :=
  match Dotenv.load w i.envFile with
  | (w, .error fault) => (.start w, .escape (.environment fault))
  | (w, .ok path) =>
      let session :=
        match path with
        | some path => (Session.start w).report ("base16-scheme: loaded " ++ path)
        | none => .start w
      match i.request with
      | none => (session.printText mainUsage, .exit 1)
      | some (.help topic) => showHelp session topic
      | some (.work c settings) => work session i.verbose c settings

/-- Runs the program on the words of a command line. -/
def run (arguments : List String) (w : Workspace) : Session × Ending :=
  match parse arguments with
  | .error (.help usage) => ((Session.start w).printText usage, .exit 0)
  | .error (.misuse usage) =>
      ({ Session.start w with errors := usage }, .exit 2)
  | .ok invocation => perform w invocation

end CommandLine
end Palette
