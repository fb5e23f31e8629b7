import Palette.Proofs.CommandLine.Stages
import Palette.Proofs.Environment.Runs
import Palette.Proofs.Environment.Search

/-!
# Paths of schemes and templates

A path is given on the command line, or it is the value of a variable.  A variable that the
process has set counts before the file of variables, even if it is empty.
-/

namespace Palette

theorem Tree.toOption_read (t : Tree) (base : Place) (path : String) :
    (t.read base path).toOption = (t.find? base path.toList).bind Entry.bytes? := by
  rw [Tree.read, Tree.find?]
  cases t.resolve base path.toList with
  | error cause =>
      rfl
  | ok place =>
      dsimp only
      cases t.entryAt? place with
      | none =>
          rfl
      | some entry =>
          cases entry <;> rfl

namespace Dotenv

/-!
# The file of variables
-/

def fileBytes? (w : Workspace) (path : List Char) : Option Text.Bytes :=
  ((w.tree.find? w.directory path).filter Entry.isFile).bind Entry.bytes?

/-- What the file of variables holds: the one that is named, which may not be there, or else the
one that is found on the way up. -/
def selected? (w : Workspace) (file : Option String) : Option Text.Bytes :=
  match file.filter (· != "") with
  | some path => fileBytes? w (Path.tidy path.toList)
  | none =>
      (find w.tree w.directory).bind fun place => (w.tree.entryAt? place).bind Entry.bytes?

def lastValue? (text : List Char) (name : String) : Option String :=
  Entries.get? ((Text.splitLines text).filterMap parseLine?).reverse name

/-- The value that the file of variables gives to a variable. -/
def fileValue? (w : Workspace) (file : Option String) (name : String) : Option String :=
  (selected? w file).bind fun bytes =>
    (Text.Utf8.decode bytes).toOption.bind fun text => lastValue? (Text.toLineFeeds text) name

theorem fileBytes?_of_error {w : Workspace} {path : String} {fault : FileFault}
    (h : w.read path = .error fault) : fileBytes? w path.toList = none := by
  have hread := w.tree.toOption_read w.directory path
  rw [Workspace.read] at h
  rw [h] at hread
  rw [fileBytes?]
  cases hfind : w.tree.find? w.directory path.toList with
  | none =>
      rfl
  | some entry =>
      rw [hfind] at hread
      rw [Option.filter_some]
      split
      · exact hread.symm
      · rfl

theorem fileBytes?_of_ok {w : Workspace} {path : String} {bytes : Text.Bytes}
    (h : w.read path = .ok bytes) :
    fileBytes? w path.toList =
      if (w.tree.find? w.directory path.toList).any Entry.isFile then some bytes else none := by
  have hread := w.tree.toOption_read w.directory path
  rw [Workspace.read] at h
  rw [h] at hread
  rw [fileBytes?]
  cases hfind : w.tree.find? w.directory path.toList with
  | none =>
      rfl
  | some entry =>
      rw [hfind] at hread
      rw [Option.filter_some, Option.any_some]
      split
      · exact hread.symm
      · rfl

theorem selected?_of_select {w : Workspace} {file : Option String}
    {found : Option (String × Text.Bytes)} (h : select w file = .ok found) :
    selected? w file = found.map Prod.snd := by
  rw [select] at h
  rw [selected?]
  cases hfile : file.filter (· != "") with
  | none =>
      rw [hfile] at h
      dsimp only at h ⊢
      cases hfind : findAt w w.directory with
      | error fault =>
          rw [hfind] at h
          cases h
      | ok place? =>
          rw [← (findAt_eq_ok_iff.mp hfind).right]
          rw [hfind] at h
          cases place? with
          | none =>
              cases h
              rfl
          | some place =>
              cases h
              rw [Option.map_map]
              exact Option.map_id'.symm
  | some path =>
      rw [hfile] at h
      dsimp only at h ⊢
      rw [← String.toList_ofList (l := Path.tidy path.toList)]
      generalize String.ofList (Path.tidy path.toList) = path at h ⊢
      cases hbytes : w.read path with
      | error fault =>
          rw [hbytes] at h
          dsimp only at h
          split at h
          · cases h
          · cases h
            exact fileBytes?_of_error hbytes
      | ok bytes =>
          rw [hbytes] at h
          dsimp only at h
          rw [fileBytes?_of_ok hbytes]
          split at h
          case isTrue hany =>
            cases h
            rw [if_pos hany]
            rfl
          case isFalse hany =>
            cases h
            rw [if_neg hany]
            rfl

theorem Reads.fileValue?_eq {w : Workspace} {file : Option String} {path : String}
    {bindings : List (String × String)} (h : Reads w file path bindings) (name : String) :
    fileValue? w file name = Entries.get? bindings name := by
  rcases h with ⟨bytes, hselect, hparse⟩
  rw [fileValue?, selected?_of_select hselect, Option.map_some, Option.bind_some]
  rw [parseBytes] at hparse
  cases hdecode : Text.Utf8.decode bytes with
  | error fault =>
      rw [hdecode] at hparse
      cases hparse
  | ok text =>
      rw [hdecode] at hparse
      cases hparse
      rw [parse, Entries.get?_ofList]
      rfl

theorem select_of_load_none {w : Workspace} {file : Option String}
    (h : (load w file).2 = .ok none) : select w file = .ok none := by
  rw [load] at h
  cases hselect : select w file with
  | error fault =>
      rw [hselect] at h
      cases h
  | ok found =>
      cases found with
      | none =>
          rfl
      | some found =>
          rw [hselect] at h
          dsimp only at h
          split at h
          · cases h
          · split at h <;> cases h

theorem valueOf?_load {w : Workspace} {file loaded : Option String}
    (h : (load w file).2 = .ok loaded) (name : String) :
    (load w file).1.valueOf? name = (w.valueOf? name).or (fileValue? w file name) := by
  cases loaded with
  | none =>
      rw [(onlyAdds w file).nothing h, fileValue?, selected?_of_select (select_of_load_none h)]
      exact Option.or_none.symm
  | some path =>
      rcases reads_of_load h with ⟨bindings, hreads, _⟩
      rw [valueOf?_load_of_reads hreads h, hreads.fileValue?_eq]

end Dotenv

namespace CommandLine

/-!
# Choice of paths
-/

/-- The path that is used for a purpose: the one that is given, unless it is empty; then the value
of the variable as the process has it, where an empty one names no path; and only then the value
that the file of variables gives. -/
def chosenPath? (w : Workspace) (file given : Option String) (name : String) : Option String :=
  match given.filter (· != "") with
  | some path => some path
  | none =>
      match w.valueOf? name with
      | some value => if value = "" then none else some value
      | none => (Dotenv.fileValue? w file name).filter (· != "")

theorem choosePath_eq (w : Workspace) (given : Option String) (name : String) :
    w.choosePath given name =
      (given.filter (· != "")).or ((w.valueOf? name).filter (· != "")) := by
  cases given with
  | none =>
      rfl
  | some path =>
      rw [Workspace.choosePath]
      by_cases hempty : path = ""
      · rw [if_pos hempty, hempty]
        rfl
      · rw [if_neg hempty, Option.filter_some, if_pos (bne_iff_ne.mpr hempty)]
        rfl

theorem choosePath_load {w : Workspace} {file loaded : Option String}
    (h : (Dotenv.load w file).2 = .ok loaded) (given : Option String) (name : String) :
    (Dotenv.load w file).1.choosePath given name = chosenPath? w file given name := by
  rw [choosePath_eq, chosenPath?, Dotenv.valueOf?_load h]
  cases given.filter (· != "") with
  | some path =>
      rfl
  | none =>
      cases w.valueOf? name with
      | none =>
          rfl
      | some value =>
          dsimp only
          by_cases hempty : value = ""
          · rw [if_pos hempty, hempty]
            rfl
          · rw [if_neg hempty, Option.none_or, Option.some_or, Option.filter_some,
              if_pos (bne_iff_ne.mpr hempty)]

def executeWith (template? : Option String) (session : Session) (path : String) (s : Scheme)
    (c : Builtin) (settings : Settings) : Session × Ending :=
  match c, template? with
  | .render, none => failWith session "no template given and $BASE16_TEMPLATE is not set"
  | .render, some template => renderAt session s settings template
  | c, _ => execute session path s c settings

/-- A command reads its scheme and its template from the paths that are chosen for them. -/
theorem run_reads_chosen_paths {arguments : List String} {i : Invocation} {c : Builtin}
    {settings : Settings} (hparse : parse arguments = .ok i)
    (hrequest : i.request = some (.work c settings)) {w : Workspace} {loaded : Option String}
    (hload : (Dotenv.load w i.envFile).2 = .ok loaded) :
    run arguments w =
      let session := announced (Dotenv.load w i.envFile).1 loaded
      match chosenPath? w i.envFile settings.scheme schemeVariable with
      | none => failWith session "no scheme given (use --scheme or set $BASE16_SCHEME)"
      | some path =>
          withScheme session i.verbose path fun session s =>
            executeWith (chosenPath? w i.envFile settings.template templateVariable) session path s
              c settings := by
  have hworkspace : (announced (Dotenv.load w i.envFile).1 loaded).workspace =
      (Dotenv.load w i.envFile).1 := by
    cases loaded <;> rfl
  have hperform : perform w i = work (announced (Dotenv.load w i.envFile).1 loaded) i.verbose c
      settings := by
    rw [perform_eq]
    rcases hresult : Dotenv.load w i.envFile with ⟨v, result⟩
    rw [hresult] at hload
    cases hload
    dsimp only
    rw [answer, hrequest]
  rw [run_of_parse hparse, hperform, work_eq, hworkspace, choosePath_load hload]
  dsimp only
  cases chosenPath? w i.envFile settings.scheme schemeVariable with
  | none =>
      rfl
  | some path =>
      apply withScheme_congr
      intro session s hsession
      cases c with
      | render =>
          rw [execute_render, hsession, hworkspace, choosePath_load hload]
          cases chosenPath? w i.envFile settings.template templateVariable <;> rfl
      | _ =>
          rfl

/-!
# Variables in a file

The process has an empty variable for the template, and the file has two lines for the scheme.
-/

def listedWords : List String :=
  ["render", "-s", ""]

def listedSettings : Settings :=
  { Settings.default with scheme := some "" }

def listedInvocation : Invocation :=
  ⟨none, false, some (.work .render listedSettings)⟩

def listedText : String :=
  "BASE16_SCHEME=t\nBASE16_TEMPLATE=t\nBASE16_SCHEME=s\n"

def listedVariables : List (String × String) :=
  [(schemeVariable, "s"), (templateVariable, "t")]

def listedFiles : Workspace where
  rootPath := ""
  tree := Tree.empty.put [".env"] (.file (Text.Utf8.encode listedText.toList))
  directory := Workspace.root
  environment := [(templateVariable, "")]

theorem reads_listedFiles :
    Dotenv.Reads listedFiles listedInvocation.envFile "/.env" listedVariables := by
  refine ⟨Text.Utf8.encode listedText.toList, rfl, ?_⟩
  decide +kernel

theorem load_listedFiles :
    Dotenv.load listedFiles listedInvocation.envFile =
      (listedFiles.extend [(schemeVariable, "s")], .ok (some "/.env")) := by
  have habsent : Dotenv.absent listedFiles listedVariables = [(schemeVariable, "s")] := by
    decide +kernel
  have hload := Dotenv.load_of_free reads_listedFiles
  rw [habsent] at hload
  apply hload
  intro b hb
  rw [List.mem_singleton.mp hb]
  exact ⟨rfl, rfl⟩

/-- The scheme is the one of the last line, and the template of the file does not count. -/
theorem run_reads_chosen_paths_of_last_line :
    chosenPath? listedFiles none (some "") schemeVariable = some "s" ∧
      chosenPath? listedFiles none none templateVariable = none ∧
      (run listedWords listedFiles).2 = .exit 1 ∧
      (run listedWords listedFiles).1.errors =
        "base16-scheme: loaded /.env\nError: scheme not found: s\n" := by
  have hparse : parse listedWords = .ok listedInvocation := rfl
  have hrequest : listedInvocation.request = some (.work .render listedSettings) := rfl
  have hload := congrArg Prod.snd load_listedFiles
  have hscheme : chosenPath? listedFiles listedInvocation.envFile listedSettings.scheme
      schemeVariable = some "s" := by
    rw [chosenPath?, reads_listedFiles.fileValue?_eq]
    rfl
  have htemplate : chosenPath? listedFiles listedInvocation.envFile listedSettings.template
      templateVariable = none := by
    rw [chosenPath?, reads_listedFiles.fileValue?_eq]
    rfl
  refine ⟨hscheme, htemplate, ?_⟩
  rw [run_reads_chosen_paths hparse hrequest hload, hscheme, load_listedFiles]
  dsimp only
  constructor
  · decide +kernel
  · decide +kernel

end CommandLine
end Palette
