import Palette.Proofs.Environment.Additions

/-!
# Runs of loads and other steps

Variables are loaded, set and unset, directories are entered and files written in any order.
A load only ever adds variables, and what is set stays as it is until a step sets or unsets it.
-/

namespace Palette
namespace Dotenv

/-!
# What a file gives
-/

theorem findAt_extend (w : Workspace) (more : List (String × String)) (directory : Place) :
    findAt (w.extend more) directory = findAt w directory :=
  rfl

theorem select_extend (w : Workspace) (more : List (String × String)) (file : Option String) :
    select (w.extend more) file = select w file := by
  rw [select, select, Workspace.tree_extend, Workspace.directory_extend]
  cases file.filter (· != "") with
  | some path =>
      dsimp only
      rw [Workspace.read_extend]
  | none =>
      simp only [findAt_extend, Workspace.fullPath_extend]

/-- The path of the file that is loaded, and the variables that the file gives. -/
def Reads (w : Workspace) (file : Option String) (path : String)
    (bindings : List (String × String)) : Prop :=
  exists bytes, select w file = .ok (some (path, bytes)) ∧ parseBytes bytes = .ok bindings

/-- A listing can be added up to a first variable that is new and cannot be set. -/
structure Stops (w : Workspace) (bindings before : List (String × String))
    (b : String × String) : Prop where
  split : exists after, bindings = before ++ b :: after
  free : forall c, c ∈ absent w before -> IsFree c
  new : w.valueOf? b.1 = none
  null : ¬IsFree b

theorem free_or_stops (w : Workspace) (bindings : List (String × String)) :
    (forall b, b ∈ absent w bindings -> IsFree b) ∨ exists before b, Stops w bindings before b := by
  induction bindings with
  | nil =>
      exact Or.inl nofun
  | cons b rest ih =>
      cases hb : w.valueOf? b.1 with
      | some value =>
          rw [absent_cons_of_some hb]
          apply ih.imp_right
          rintro ⟨before, c, ⟨after, hsplit⟩, hfree, hnew, hnull⟩
          refine ⟨b :: before, c, ⟨after, by rw [hsplit]; rfl⟩, ?_, hnew, hnull⟩
          rw [absent_cons_of_some hb]
          exact hfree
      | none =>
          rw [absent_cons_of_none hb]
          by_cases hfree : IsFree b
          · rcases ih with hrest | ⟨before, c, ⟨after, hsplit⟩, hbefore, hnew, hnull⟩
            · exact Or.inl (List.forall_mem_cons.mpr ⟨hfree, hrest⟩)
            · refine Or.inr ⟨b :: before, c, ⟨after, by rw [hsplit]; rfl⟩, ?_, hnew, hnull⟩
              rw [absent_cons_of_none hb]
              exact List.forall_mem_cons.mpr ⟨hfree, hbefore⟩
          · exact Or.inr ⟨[], b, ⟨rest, rfl⟩, nofun, hb, hfree⟩

theorem isListing_of_parseBytes {bytes : Text.Bytes} {bindings : List (String × String)}
    (h : parseBytes bytes = .ok bindings) : IsListing bindings := by
  rw [parseBytes] at h
  split at h
  · cases h
  case h_2 text _ =>
    injection h with h
    rw [← h]
    exact isListing_parse _

section Load

variable {w : Workspace} {file : Option String} {path : String}
  {bindings before : List (String × String)} {b : String × String}

theorem Reads.unique (h : Reads w file path bindings) {other : String}
    {more : List (String × String)} (ho : Reads w file other more) :
    path = other ∧ bindings = more := by
  rcases h with ⟨bytes, hselect, hparse⟩
  rcases ho with ⟨bytes', hselect', hparse'⟩
  rw [hselect] at hselect'
  cases hselect'
  rw [hparse] at hparse'
  cases hparse'
  exact ⟨rfl, rfl⟩

theorem Reads.extend (h : Reads w file path bindings) (more : List (String × String)) :
    Reads (w.extend more) file path bindings := by
  rw [Reads, select_extend]
  exact h

theorem Stops.again (hlisting : IsListing bindings) (h : Stops w bindings before b) :
    Stops (w.extend (absent w before)) bindings before b := by
  refine ⟨h.split, ?_, ?_, h.null⟩
  · rw [absent_extend_absent]
    nofun
  · rcases h.split with ⟨after, hsplit⟩
    have hmem : b.1 ∉ before.map Prod.fst := by
      intro hmem
      have hdistinct := hlisting.distinct
      rw [hsplit, List.map_append, List.nodup_append] at hdistinct
      exact hdistinct.right.right b.1 hmem b.1 List.mem_cons_self rfl
    rw [valueOf?_extend_absent, h.new, Entries.get?_eq_none_iff.mpr hmem]
    rfl

theorem load_of_free (h : Reads w file path bindings)
    (hfree : forall b, b ∈ absent w bindings -> IsFree b) :
    load w file = (w.extend (absent w bindings), .ok (some path)) := by
  rcases h with ⟨bytes, hselect, hparse⟩
  have hlisting := isListing_of_parseBytes hparse
  have hadd : addAbsent w (bindings ++ []) = addAbsent (w.extend (absent w bindings)) [] :=
    addAbsent_append (by rwa [List.append_nil]) hfree
  rw [List.append_nil, addAbsent] at hadd
  rw [load, hselect]
  dsimp only
  rw [hparse]
  dsimp only
  rw [hadd]

theorem load_of_stops (h : Reads w file path bindings) (hstops : Stops w bindings before b) :
    load w file = (w.extend (absent w before), .error .nullCharacter) := by
  rcases h with ⟨bytes, hselect, hparse⟩
  have hlisting := isListing_of_parseBytes hparse
  have hnew := (hstops.again hlisting).new
  rcases hstops with ⟨⟨after, rfl⟩, hfree, _, hnull⟩
  rw [load, hselect]
  dsimp only
  rw [hparse]
  dsimp only
  rw [addAbsent_append hlisting hfree, addAbsent_cons_of_not_isFree hnew hnull]

theorem load_of_not_reads (h : forall path bindings, ¬Reads w file path bindings) :
    (load w file).1 = w ∧ forall path, (load w file).2 ≠ .ok (some path) := by
  rw [load]
  cases hselect : select w file with
  | error fault =>
      refine ⟨rfl, fun path heq => ?_⟩
      cases heq
  | ok selected =>
      cases selected with
      | none =>
          refine ⟨rfl, fun path heq => ?_⟩
          cases heq
      | some found =>
          dsimp only
          cases hparse : parseBytes found.2 with
          | error fault =>
              refine ⟨rfl, fun path heq => ?_⟩
              cases heq
          | ok bindings =>
              exact absurd ⟨found.2, hselect, hparse⟩ (h found.1 bindings)

end Load

/-!
# What a load does
-/

inductive Loading (w : Workspace) (file : Option String) :
    Workspace × Except Fault (Option String) → Prop
  | unread {result : Except Fault (Option String)}
      (h : forall path bindings, ¬Reads w file path bindings)
      (hresult : forall path, result ≠ .ok (some path)) : Loading w file (w, result)
  | added {path : String} {bindings : List (String × String)} (h : Reads w file path bindings)
      (hfree : forall b, b ∈ absent w bindings -> IsFree b) :
      Loading w file (w.extend (absent w bindings), .ok (some path))
  | stopped {path : String} {bindings before : List (String × String)} {b : String × String}
      (h : Reads w file path bindings) (hstops : Stops w bindings before b) :
      Loading w file (w.extend (absent w before), .error .nullCharacter)

theorem loading_load (w : Workspace) (file : Option String) : Loading w file (load w file) := by
  by_cases h : exists path bindings, Reads w file path bindings
  · rcases h with ⟨path, bindings, h⟩
    rcases free_or_stops w bindings with hfree | ⟨before, b, hstops⟩
    · rw [load_of_free h hfree]
      exact .added h hfree
    · rw [load_of_stops h hstops]
      exact .stopped h hstops
  · have hnot : forall path bindings, ¬Reads w file path bindings :=
      fun path bindings hreads => h ⟨path, bindings, hreads⟩
    rcases load_of_not_reads hnot with ⟨hkept, hresult⟩
    have hload : load w file = (w, (load w file).2) := Prod.ext hkept rfl
    rw [hload]
    exact .unread hnot hresult

/-- Loading a file once more changes nothing and ends in the same way. -/
theorem load_load (w : Workspace) (file : Option String) :
    load (load w file).1 file = load w file := by
  have hloading := loading_load w file
  generalize hresult : load w file = result at hloading ⊢
  cases hloading with
  | unread _ _ =>
      exact hresult
  | @added path bindings h hfree =>
      have habsent := absent_extend_absent w bindings
      rw [load_of_free (h.extend _) (by rw [habsent]; nofun), habsent, Workspace.extend_nil]
  | @stopped path bindings before b h hstops =>
      rcases h with ⟨bytes, hselect, hparse⟩
      have hagain := hstops.again (isListing_of_parseBytes hparse)
      have hreads : Reads w file path bindings := ⟨bytes, hselect, hparse⟩
      rw [load_of_stops (hreads.extend _) hagain, absent_extend_absent, Workspace.extend_nil]

/-- What a load does in a workspace. -/
structure OnlyAdds (w : Workspace) (file : Option String) : Prop where
  /-- What is set stays as it is. -/
  kept : forall name value, w.valueOf? name = some value ->
    (load w file).1.valueOf? name = some value
  /-- A file that is read is loaded, unless a variable of it cannot be set. -/
  loaded : forall path bindings, Reads w file path bindings ->
    (load w file).2 = .ok (some path) ∨ (load w file).2 = .error .nullCharacter
  /-- A load that succeeds adds the variables of the file that are absent. -/
  added : forall path, (load w file).2 = .ok (some path) ->
    exists bindings, Reads w file path bindings ∧
      (load w file).1 = w.extend (absent w bindings)
  /-- Without a file nothing is added. -/
  nothing : (load w file).2 = .ok none -> (load w file).1 = w
  /-- A load that fails has not read a file, or has added what is absent in front of the first
  variable with a NUL character. -/
  failed : forall fault, (load w file).2 = .error fault ->
    (load w file).1 = w ∧ (forall path bindings, ¬Reads w file path bindings) ∨
      exists path bindings before b, Reads w file path bindings ∧ Stops w bindings before b ∧
        fault = .nullCharacter ∧ (load w file).1 = w.extend (absent w before)
  /-- Loading the file again changes nothing. -/
  again : load (load w file).1 file = load w file
  /-- Of two files that are loaded one after the other, the first one counts. -/
  first : forall other path path' bindings bindings', Reads w file path bindings ->
    Reads w other path' bindings' -> (load w file).2 = .ok (some path) ->
      (load (load w file).1 other).2 = .ok (some path') ->
        forall name, (load (load w file).1 other).1.valueOf? name =
          ((w.valueOf? name).or (Entries.get? bindings name)).or (Entries.get? bindings' name)

theorem valueOf?_load_of_some {w : Workspace} {name value : String}
    (h : w.valueOf? name = some value) (file : Option String) :
    (load w file).1.valueOf? name = some value := by
  have hloading := loading_load w file
  generalize load w file = result at hloading ⊢
  cases hloading with
  | unread _ _ =>
      exact h
  | added _ _ =>
      rw [valueOf?_extend_absent, h]
      rfl
  | stopped _ _ =>
      rw [valueOf?_extend_absent, h]
      rfl

theorem valueOf?_load_of_reads {w : Workspace} {file : Option String} {path path' : String}
    {bindings : List (String × String)} (h : Reads w file path bindings)
    (hload : (load w file).2 = .ok (some path')) (name : String) :
    (load w file).1.valueOf? name = (w.valueOf? name).or (Entries.get? bindings name) := by
  have hloading := loading_load w file
  generalize load w file = result at hload hloading ⊢
  cases hloading with
  | unread hnot _ =>
      exact absurd h (hnot path bindings)
  | added hreads _ =>
      rw [(h.unique hreads).right, valueOf?_extend_absent]
  | stopped _ _ =>
      cases hload

theorem reads_of_load {w : Workspace} {file : Option String} {path : String}
    (hload : (load w file).2 = .ok (some path)) :
    exists bindings, Reads w file path bindings ∧
      (load w file).1 = w.extend (absent w bindings) := by
  have hloading := loading_load w file
  generalize load w file = result at hload hloading ⊢
  cases hloading with
  | unread _ hresult =>
      exact absurd hload (hresult path)
  | @added found bindings h _ =>
      injection hload with hload
      injection hload with hload
      rw [← hload]
      exact ⟨bindings, h, rfl⟩
  | stopped _ _ =>
      cases hload

theorem onlyAdds (w : Workspace) (file : Option String) : OnlyAdds w file where
  kept _ _ h := valueOf?_load_of_some h file
  loaded path bindings h := by
    rcases free_or_stops w bindings with hfree | ⟨before, b, hstops⟩
    · rw [load_of_free h hfree]
      exact Or.inl rfl
    · rw [load_of_stops h hstops]
      exact Or.inr rfl
  added _ := reads_of_load
  nothing h := by
    have hloading := loading_load w file
    generalize load w file = result at h hloading ⊢
    cases hloading with
    | unread _ _ =>
        rfl
    | added _ _ =>
        cases h
    | stopped _ _ =>
        cases h
  failed fault h := by
    have hloading := loading_load w file
    generalize load w file = result at h hloading ⊢
    cases hloading with
    | unread hnot _ =>
        exact Or.inl ⟨rfl, hnot⟩
    | added _ _ =>
        cases h
    | stopped hreads hstops =>
        injection h with h
        exact Or.inr ⟨_, _, _, _, hreads, hstops, h.symm, rfl⟩
  again := load_load w file
  first other path path' bindings bindings' h h' hload hload' name := by
    rcases reads_of_load hload with ⟨more, _, heq⟩
    rw [heq] at hload' ⊢
    rw [valueOf?_load_of_reads (h'.extend _) hload', ← heq, valueOf?_load_of_reads h hload]

/-!
# Runs
-/

inductive Step where
  | load (file : Option String)
  | set (name value : String)
  | unset (name : String)
  | goTo (path : String)
  | store (path : String) (bytes : Text.Bytes)
  | remove (path : String)

/-- The workspace behind a step, which is as it was if the step fails.  A load may fail halfway. -/
def Step.apply (w : Workspace) : Step → Workspace
  | load file => (Dotenv.load w file).1
  | set name value => (Dotenv.set w name value).toOption.getD w
  | unset name => w.unsetVariable name
  | goTo path => (w.goTo path).toOption.getD w
  | store path bytes => (w.store path bytes).toOption.getD w
  | remove path => (w.remove path).toOption.getD w

def run (w : Workspace) (steps : List Step) : Workspace :=
  steps.foldl Step.apply w

def Step.Assigns (name : String) : Step → Prop
  | set other _ => other = name
  | unset other => other = name
  | _ => False

theorem environment_goTo {w v : Workspace} {path : String} (h : w.goTo path = .ok v) :
    v.environment = w.environment := by
  rw [Workspace.goTo] at h
  split at h
  · cases h
  · split at h
    · injection h with h
      rw [← h]
    · cases h
    · cases h

theorem environment_store {w v : Workspace} {path : String} {bytes : Text.Bytes}
    (h : w.store path bytes = .ok v) : v.environment = w.environment := by
  rw [Workspace.store] at h
  split at h
  · cases h
  · split at h
    · cases h
    · injection h with h
      rw [← h]

theorem environment_remove {w v : Workspace} {path : String} (h : w.remove path = .ok v) :
    v.environment = w.environment := by
  rw [Workspace.remove] at h
  split at h
  · cases h
  · split at h
    · cases h
    · injection h with h
      rw [← h]
    · cases h

theorem valueOf?_toOption {w : Workspace} {name value : String} {ε : Type}
    {result : Except ε Workspace} (h : w.valueOf? name = some value)
    (hresult : forall v, result = .ok v -> v.valueOf? name = w.valueOf? name) :
    (result.toOption.getD w).valueOf? name = some value := by
  cases result with
  | error fault =>
      exact h
  | ok v =>
      exact (hresult v rfl).trans h

theorem valueOf?_apply {w : Workspace} {name value : String} (h : w.valueOf? name = some value)
    {step : Step} (hstep : ¬step.Assigns name) : (step.apply w).valueOf? name = some value := by
  cases step with
  | load file =>
      exact valueOf?_load_of_some h file
  | set other more =>
      apply valueOf?_toOption h
      intro v hset
      rw [set_ok hset]
      exact Entries.get?_put_of_ne w.environment more hstep
  | unset other =>
      exact (Entries.get?_erase_of_ne w.environment hstep).trans h
  | goTo path =>
      apply valueOf?_toOption h
      intro v hv
      rw [Workspace.valueOf?, Workspace.valueOf?, environment_goTo hv]
  | store path bytes =>
      apply valueOf?_toOption h
      intro v hv
      rw [Workspace.valueOf?, Workspace.valueOf?, environment_store hv]
  | remove path =>
      apply valueOf?_toOption h
      intro v hv
      rw [Workspace.valueOf?, Workspace.valueOf?, environment_remove hv]

theorem valueOf?_run {w : Workspace} {name value : String} (h : w.valueOf? name = some value)
    {steps : List Step} (hsteps : forall step, step ∈ steps -> ¬step.Assigns name) :
    (run w steps).valueOf? name = some value := by
  induction steps generalizing w with
  | nil =>
      exact h
  | cons step rest ih =>
      have hstep := hsteps step List.mem_cons_self
      exact ih (valueOf?_apply h hstep) fun s hs => hsteps s (List.mem_cons_of_mem step hs)

/-- A load at any point of a run only adds variables.  What is set then has its value until a
step sets or unsets it. -/
theorem load_in_run_only_adds (w : Workspace) (before after : List Step) (file : Option String) :
    OnlyAdds (run w before) file ∧
      forall name value, (run w before).valueOf? name = some value ->
        (forall step, step ∈ after -> ¬step.Assigns name) ->
          (run w (before ++ .load file :: after)).valueOf? name = some value := by
  refine ⟨onlyAdds (run w before) file, fun name value h hafter => ?_⟩
  rw [run, List.foldl_append, List.foldl_cons]
  exact valueOf?_run (valueOf?_load_of_some h file) hafter

end Dotenv
end Palette
