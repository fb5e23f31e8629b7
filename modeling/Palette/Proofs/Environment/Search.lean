import Palette.Environment.Load

/-!
# The search for a file of variables

A search climbs from its first directory towards the top.  The way that it takes
is told here by single steps to the directory above, and the search gives the
nearest file that lies on the way up to the first `.git`.
-/

namespace Palette
namespace Dotenv

/-!
# Climbing
-/

/-- The way from a place up to itself or to a directory above it, one step to the
directory above after the other, through the given places below. -/
inductive Climbs (t : Tree) : Place -> List Place -> Place -> Prop where
  | here (d : Place) : Climbs t d [] d
  | up {d e : Place} {below : List Place} (hparent : t.parent d ≠ d)
      (h : Climbs t (t.parent d) below e) : Climbs t d (d :: below) e

theorem parent_concat (t : Tree) (landmark : Landmark) (parts : Location) (name : String) :
    t.parent ⟨landmark, parts ++ [name]⟩ = ⟨landmark, parts⟩ := by
  cases parts with
  | nil => rfl
  | cons part parts =>
      show (⟨landmark, (part :: parts ++ [name]).dropLast⟩ : Place) = _
      rw [List.dropLast_concat]

theorem lineage_concat (t : Tree) (landmark : Landmark) (parts : Location) (name : String) :
    t.lineage ⟨landmark, parts ++ [name]⟩
      = ⟨landmark, parts ++ [name]⟩ :: t.lineage ⟨landmark, parts⟩ := by
  simp [Tree.lineage, Tree.upward]

theorem lineage_root_of_above {t : Tree} {above : Location} (h : t.above = some above) :
    t.lineage ⟨.root, []⟩ = ⟨.root, []⟩ :: t.lineage ⟨.top, above⟩ := by
  simp [Tree.lineage, Tree.upward, h]

theorem lineage_eq (t : Tree) (d : Place) :
    t.lineage d = d :: if t.parent d = d then [] else t.lineage (t.parent d) := by
  rcases d with ⟨landmark, location⟩
  rcases location.eq_nil_or_concat with hnil | ⟨parts, name, hconcat⟩
  · subst hnil
    cases landmark with
    | top => simp [Tree.lineage, Tree.upward, Tree.parent]
    | root =>
        cases habove : t.above with
        | none => simp [Tree.lineage, Tree.upward, Tree.parent, habove]
        | some above =>
            have hparent : t.parent ⟨.root, []⟩ = ⟨.top, above⟩ := by
              simp [Tree.parent, habove]
            rw [lineage_root_of_above habove, hparent, if_neg (by simp)]
  · subst hconcat
    rw [List.concat_eq_append, parent_concat, lineage_concat, if_neg (by simp)]

theorem exists_climbs_top (t : Tree) (start : Place) :
    exists below top, Climbs t start below top ∧ t.parent top = top := by
  -- The directories still ahead get fewer with each step.
  generalize hline : t.lineage start = places
  induction places generalizing start with
  | nil =>
      rw [lineage_eq] at hline
      cases hline
  | cons place above ih =>
      by_cases hparent : t.parent start = start
      · exact ⟨[], start, .here start, hparent⟩
      · rw [lineage_eq, if_neg hparent, List.cons.injEq] at hline
        rcases ih (t.parent start) hline.2 with ⟨below, top, hclimbs, htop⟩
        exact ⟨start :: below, top, .up hparent hclimbs, htop⟩

theorem Climbs.exists_of_mem {t : Tree} {start d b : Place} {below : List Place}
    (h : Climbs t start below d) (hb : b ∈ below) :
    exists under, Climbs t start under b ∧ forall u, u ∈ under -> u ∈ below := by
  induction h with
  | here d => cases hb
  | @up d e below hparent _ ih =>
      rcases List.mem_cons.mp hb with rfl | hb
      · exact ⟨[], .here b, by simp⟩
      · rcases ih hb with ⟨under, hunder, hsub⟩
        exact ⟨d :: under, .up hparent hunder, List.cons_subset_cons d hsub⟩

theorem Climbs.mem_or_mem {t : Tree} {start d e : Place} {below under : List Place}
    (hd : Climbs t start below d) (he : Climbs t start under e) :
    d ∈ under ++ [e] ∨ e ∈ below := by
  induction hd generalizing under with
  | here d =>
      cases he with
      | here => exact .inl (by simp)
      | up => exact .inl (by simp)
  | up hparent _ ih =>
      cases he with
      | here => exact .inr (by simp)
      | up _ he =>
          rcases ih he with h | h
          · exact .inl (by simp_all)
          · exact .inr (List.mem_cons_of_mem _ h)

/-!
# What a search looks for
-/

def HoldsFile (t : Tree) (directory : Place) : Prop :=
  exists entry, t.entryAt? (directory.child ".env") = some entry ∧ entry.isFile = true

/-- A directory has an entry `.git` in it, of whatever kind. -/
def HoldsGit (t : Tree) (directory : Place) : Prop :=
  exists entry, t.entryAt? (directory.child ".git") = some entry

/-- A directory on the way up has a file of variables, and there is no `.git` on the
way below it. -/
def Offers (t : Tree) (start directory : Place) : Prop :=
  exists below, Climbs t start below directory ∧ HoldsFile t directory ∧
    forall b, b ∈ below -> ¬HoldsGit t b

/-- The first directory on the way up that offers a file. -/
def IsNearest (t : Tree) (start directory : Place) : Prop :=
  exists below, Climbs t start below directory ∧ HoldsFile t directory ∧
    forall b, b ∈ below -> ¬HoldsGit t b ∧ ¬Offers t start b

theorem holdsFile_iff {t : Tree} {directory : Place} :
    holdsFile t directory = true <-> HoldsFile t directory := by
  simp [holdsFile, HoldsFile, Tree.isFile, fileName, Option.any_eq_true]

theorem isBoundary_iff {t : Tree} {directory : Place} :
    isBoundary t directory = true <-> HoldsGit t directory := by
  simp [isBoundary, HoldsGit, boundaryName, Option.isSome_iff_exists]

theorem Offers.holdsFile {t : Tree} {start d : Place} (h : Offers t start d) : HoldsFile t d := by
  rcases h with ⟨_, _, hfile, _⟩
  exact hfile

theorem IsNearest.offers {t : Tree} {start d : Place} (h : IsNearest t start d) :
    Offers t start d := by
  rcases h with ⟨below, hclimbs, hfile, hbelow⟩
  exact ⟨below, hclimbs, hfile, fun b hb => (hbelow b hb).1⟩

/-- A directory is nearest if nothing on the way below it makes the search end. -/
theorem isNearest_iff {t : Tree} {start d : Place} :
    IsNearest t start d <->
      exists below, Climbs t start below d ∧ HoldsFile t d ∧
        forall b, b ∈ below -> ¬HoldsGit t b ∧ ¬HoldsFile t b := by
  constructor
  · rintro ⟨below, hclimbs, hfile, hbelow⟩
    refine ⟨below, hclimbs, hfile, fun b hb => ⟨(hbelow b hb).1, fun hb' => ?_⟩⟩
    rcases hclimbs.exists_of_mem hb with ⟨under, hunder, hsub⟩
    exact (hbelow b hb).2 ⟨under, hunder, hb', fun u hu => (hbelow u (hsub u hu)).1⟩
  · rintro ⟨below, hclimbs, hfile, hbelow⟩
    exact ⟨below, hclimbs, hfile,
      fun b hb => ⟨(hbelow b hb).1, fun hoffers => (hbelow b hb).2 hoffers.holdsFile⟩⟩

theorem isNearest_self {t : Tree} {d : Place} (h : HoldsFile t d) : IsNearest t d d :=
  isNearest_iff.mpr ⟨[], .here d, h, by simp⟩

theorem IsNearest.of_parent {t : Tree} {start d : Place} (h : IsNearest t (t.parent start) d)
    (hfile : ¬HoldsFile t start) (hgit : ¬HoldsGit t start) (hparent : t.parent start ≠ start) :
    IsNearest t start d := by
  rcases isNearest_iff.mp h with ⟨below, hclimbs, hd, hbelow⟩
  exact isNearest_iff.mpr ⟨start :: below, .up hparent hclimbs, hd,
    List.forall_mem_cons.mpr ⟨⟨hgit, hfile⟩, hbelow⟩⟩

/-!
# Searching
-/

theorem find_eq (t : Tree) (d : Place) :
    find t d =
      if holdsFile t d then some (d.child ".env")
      else if isBoundary t d then none
      else if t.parent d = d then none
      else find t (t.parent d) := by
  have hsearch : forall above, search t (d :: above) =
      if holdsFile t d then some (d.child ".env")
      else if isBoundary t d then none else search t above := fun _ => rfl
  rw [find, lineage_eq, hsearch]
  by_cases hparent : t.parent d = d
  · rw [if_pos hparent, if_pos hparent]
    rfl
  · rw [if_neg hparent, if_neg hparent]
    rfl

theorem findAt_of_isTooLong {w : Workspace} {d : Place}
    (h : isTooLong w (d.child ".env") = true) :
    findAt w d = .error (.file ⟨.nameTooLong, w.fullPath (d.child ".env")⟩) :=
  if_pos h

theorem findAt_eq_ok_iff {w : Workspace} {d : Place} {found : Option Place} :
    findAt w d = .ok found <-> isTooLong w (d.child ".env") = false ∧ found = find w.tree d := by
  cases hlong : isTooLong w (d.child ".env") with
  | true =>
      rw [findAt_of_isTooLong hlong]
      simp
  | false =>
      have hfind : findAt w d = .ok (find w.tree d) := if_neg (ne_true_of_eq_false hlong)
      rw [hfind]
      simp [eq_comm]

theorem find_of_holdsFile {t : Tree} {d : Place} (h : HoldsFile t d) :
    find t d = some (d.child ".env") := by
  rw [find_eq, if_pos (holdsFile_iff.mpr h)]

theorem find_of_holdsGit {t : Tree} {d : Place} (hfile : ¬HoldsFile t d) (hgit : HoldsGit t d) :
    find t d = none := by
  rw [find_eq, if_neg (mt holdsFile_iff.mp hfile), if_pos (isBoundary_iff.mpr hgit)]

theorem find_of_top {t : Tree} {d : Place} (hfile : ¬HoldsFile t d) (htop : t.parent d = d) :
    find t d = none := by
  rw [find_eq, if_neg (mt holdsFile_iff.mp hfile), if_pos htop, ite_self]

theorem find_of_not {t : Tree} {d : Place} (hfile : ¬HoldsFile t d) (hgit : ¬HoldsGit t d)
    (hparent : t.parent d ≠ d) : find t d = find t (t.parent d) := by
  rw [find_eq, if_neg (mt holdsFile_iff.mp hfile), if_neg (mt isBoundary_iff.mp hgit),
    if_neg hparent]

theorem Climbs.find_eq_of_passed {t : Tree} {start d : Place} {below : List Place}
    (h : Climbs t start below d)
    (hbelow : forall b, b ∈ below -> ¬HoldsGit t b ∧ ¬HoldsFile t b) :
    find t start = find t d := by
  induction h with
  | here d => rfl
  | up hparent _ ih =>
      rcases List.forall_mem_cons.mp hbelow with ⟨hd, hbelow⟩
      rw [find_of_not hd.2 hd.1 hparent]
      exact ih hbelow

theorem Climbs.isNearest_of_find {t : Tree} {start top p : Place} {below : List Place}
    (h : Climbs t start below top) (htop : t.parent top = top) (hfind : find t start = some p) :
    exists d, IsNearest t start d ∧ p = d.child ".env" := by
  induction h with
  | here d =>
      by_cases hfile : HoldsFile t d
      · rw [find_of_holdsFile hfile, Option.some.injEq] at hfind
        exact ⟨d, isNearest_self hfile, hfind.symm⟩
      · rw [find_of_top hfile htop] at hfind
        cases hfind
  | @up start top below hparent _ ih =>
      by_cases hfile : HoldsFile t start
      · rw [find_of_holdsFile hfile, Option.some.injEq] at hfind
        exact ⟨start, isNearest_self hfile, hfind.symm⟩
      · by_cases hgit : HoldsGit t start
        · rw [find_of_holdsGit hfile hgit] at hfind
          cases hfind
        · rw [find_of_not hfile hgit hparent] at hfind
          rcases ih htop hfind with ⟨d, hnearest, hp⟩
          exact ⟨d, hnearest.of_parent hfile hgit hparent, hp⟩

theorem find_eq_some_iff {t : Tree} {start p : Place} :
    find t start = some p <-> exists d, IsNearest t start d ∧ p = d.child ".env" := by
  constructor
  · intro hfind
    rcases exists_climbs_top t start with ⟨below, top, hclimbs, htop⟩
    exact hclimbs.isNearest_of_find htop hfind
  · rintro ⟨d, hnearest, rfl⟩
    rcases isNearest_iff.mp hnearest with ⟨below, hclimbs, hfile, hbelow⟩
    rw [hclimbs.find_eq_of_passed hbelow, find_of_holdsFile hfile]

theorem Offers.find_ne_none {t : Tree} {start d : Place} (h : Offers t start d) :
    find t start ≠ none := by
  rcases h with ⟨below, hclimbs, hfile, hbelow⟩
  induction hclimbs with
  | here d => simp [find_of_holdsFile hfile]
  | @up start d below hparent _ ih =>
      rcases List.forall_mem_cons.mp hbelow with ⟨hgit, hbelow⟩
      by_cases hstart : HoldsFile t start
      · simp [find_of_holdsFile hstart]
      · rw [find_of_not hstart hgit hparent]
        exact ih hfile hbelow

theorem find_eq_none_iff {t : Tree} {start : Place} :
    find t start = none <-> forall d, ¬Offers t start d := by
  constructor
  · intro hfind d hoffers
    exact hoffers.find_ne_none hfind
  · intro hnone
    cases hfind : find t start with
    | none => rfl
    | some p =>
        rcases find_eq_some_iff.mp hfind with ⟨d, hnearest, -⟩
        exact absurd hnearest.offers (hnone d)

theorem Offers.mem_of_holdsGit {t : Tree} {start d git : Place} {below : List Place}
    (h : Offers t start d) (hclimbs : Climbs t start below git) (hgit : HoldsGit t git) :
    d ∈ below ++ [git] := by
  rcases h with ⟨under, hunder, -, hgits⟩
  rcases hunder.mem_or_mem hclimbs with hd | hmem
  · exact hd
  · exact absurd hgit (hgits git hmem)

theorem child_injective {name : String} {d e : Place} (h : d.child name = e.child name) :
    d = e := by
  rcases d with ⟨landmark, location⟩
  rcases e with ⟨landmark', location'⟩
  simpa [Place.child] using h

theorem not_holdsFile_of_directory {t : Tree} {d : Place}
    (h : t.entryAt? (d.child ".env") = some .directory) : ¬HoldsFile t d := by
  rintro ⟨entry, hentry, hfile⟩
  rw [h, Option.some.injEq] at hentry
  subst hentry
  cases hfile

/-!
# Paths that are too long
-/

structure Fits (w : Workspace) (place : Place) : Prop where
  path : Tree.byteCount (w.fullPath place).toList ≤ Tree.pathLimit
  parts : forall name, name ∈ place.location -> Tree.byteCount name.toList ≤ Tree.partLimit

theorem walk_ne_nameTooLong (t : Tree) {parts : List (List Char)}
    (h : forall part, part ∈ parts -> Tree.byteCount part ≤ Tree.partLimit) (place : Place) :
    t.walk place parts ≠ .error .nameTooLong := by
  induction parts generalizing place with
  | nil =>
      rw [Tree.walk]
      nofun
  | cons part rest ih =>
      rcases List.forall_mem_cons.mp h with ⟨hpart, hrest⟩
      rw [Tree.walk]
      split
      · nofun
      · split
        · nofun
        · rw [if_neg (Nat.not_lt_of_le hpart)]
          exact ih hrest _

theorem Fits.isTooLong_eq_false {w : Workspace} {place : Place} (h : Fits w place) :
    isTooLong w place = false := by
  have hparts : forall part, part ∈ place.location.map String.toList ->
      Tree.byteCount part ≤ Tree.partLimit := by
    intro part hpart
    rcases List.mem_map.mp hpart with ⟨name, hname, rfl⟩
    exact h.parts name hname
  have hwalk := walk_ne_nameTooLong w.tree hparts ⟨place.landmark, []⟩
  rw [isTooLong, if_neg (Nat.not_lt_of_le h.path)]
  split
  · rfl
  case h_2 cause hcause =>
    rw [hcause, ne_eq, Except.error.injEq] at hwalk
    exact decide_eq_false hwalk

/-- How a search fails, before it has looked at anything. -/
inductive Fails (w : Workspace) (start : String) : Fault → Prop where
  | null (h : holdsNull start = true) : Fails w start .nullCharacter
  | tooLong (hnull : holdsNull start = false)
      (h : isTooLong w ((w.placeOf start).child ".env") = true) :
      Fails w start (.file ⟨.nameTooLong, w.fullPath ((w.placeOf start).child ".env")⟩)

theorem Fits.not_fails {w : Workspace} {start : String} (hnull : holdsNull start = false)
    (h : Fits w ((w.placeOf start).child ".env")) (fault : Fault) : ¬Fails w start fault := by
  rintro (hstart | ⟨_, hlong⟩)
  · rw [hnull] at hstart
    cases hstart
  · rw [h.isTooLong_eq_false] at hlong
    cases hlong

theorem Fails.findFrom_eq {w : Workspace} {start : String} {fault : Fault}
    (h : Fails w start fault) : findFrom w start = .error fault := by
  cases h with
  | null h =>
      rw [findFrom, if_pos h]
  | tooLong hnull h =>
      rw [findFrom, hnull, if_neg Bool.false_ne_true, findAt_of_isTooLong h]
      rfl

theorem findFrom_of_not_fails {w : Workspace} {start : String}
    (h : forall fault, ¬Fails w start fault) :
    findFrom w start = .ok ((find w.tree (w.placeOf start)).map w.fullPath) := by
  cases hnull : holdsNull start with
  | true =>
      exact absurd (.null hnull) (h _)
  | false =>
      cases hlong : isTooLong w ((w.placeOf start).child ".env") with
      | true =>
          exact absurd (.tooLong hnull hlong) (h _)
      | false =>
          rw [findFrom, hnull, if_neg Bool.false_ne_true, findAt_eq_ok_iff.mpr ⟨hlong, rfl⟩]
          rfl

theorem findFrom_eq_error_iff {w : Workspace} {start : String} {fault : Fault} :
    findFrom w start = .error fault <-> Fails w start fault := by
  refine ⟨fun hfault => ?_, Fails.findFrom_eq⟩
  by_cases hfails : exists other, Fails w start other
  · rcases hfails with ⟨other, hother⟩
    rw [hother.findFrom_eq, Except.error.injEq] at hfault
    rw [← hfault]
    exact hother
  · rw [findFrom_of_not_fails (not_exists.mp hfails)] at hfault
    cases hfault

/-!
# What a search gives
-/

/-- What is found from a directory up.  It is the file of the nearest directory that offers one,
and nothing exactly if none does.  It lies no higher than any `.git` on the way up; a file beside
the first `.git` is found if none lies below it, and the search climbs past a directory that is
named like the file. -/
structure Finds (t : Tree) (first : Place) (found : Option Place) : Prop where
  nearest : forall p, found = some p <-> exists d, IsNearest t first d ∧ p = d.child ".env"
  nothing : found = none <-> forall d, ¬Offers t first d
  inside : forall below git, Climbs t first below git -> HoldsGit t git ->
    forall p, found = some p -> exists d, d ∈ below ++ [git] ∧ p = d.child ".env"
  beside : forall below git, Climbs t first below git -> HoldsGit t git -> HoldsFile t git ->
    (forall b, b ∈ below -> ¬HoldsGit t b ∧ ¬HoldsFile t b) -> found = some (git.child ".env")
  noDirectory : forall d : Place, t.entryAt? (d.child ".env") = some .directory ->
    found ≠ some (d.child ".env")
  passed : forall d : Place, t.entryAt? (d.child ".env") = some .directory ->
    forall below, Climbs t first below d ->
      (forall b, b ∈ below -> ¬HoldsGit t b ∧ ¬HoldsFile t b) -> ¬HoldsGit t d ->
      t.parent d ≠ d -> found = find t (t.parent d)

theorem finds_find (t : Tree) (first : Place) : Finds t first (find t first) where
  nearest _ := find_eq_some_iff
  nothing := find_eq_none_iff
  inside := by
    intro below git hclimbs hgit p hfind
    rcases find_eq_some_iff.mp hfind with ⟨d, hnearest, hp⟩
    exact ⟨d, hnearest.offers.mem_of_holdsGit hclimbs hgit, hp⟩
  beside := by
    intro below git hclimbs _ hfile hbelow
    rw [hclimbs.find_eq_of_passed hbelow, find_of_holdsFile hfile]
  noDirectory := by
    intro d hdirectory hfind
    rcases find_eq_some_iff.mp hfind with ⟨e, hnearest, hchild⟩
    have hsame : d = e := child_injective hchild
    exact not_holdsFile_of_directory hdirectory (hsame ▸ hnearest.offers.holdsFile)
  passed := by
    intro d hdirectory below hclimbs hbelow hgit hparent
    rw [hclimbs.find_eq_of_passed hbelow,
      find_of_not (not_holdsFile_of_directory hdirectory) hgit hparent]

/-- Every way up from the start of a search ends at a top.  The search fails only if it cannot
look at its first path, which it can if that is not too long, and else it gives the path of the
file of the nearest directory that offers one. -/
theorem findFrom_gives_nearest_offer (w : Workspace) (start : String) :
    (exists below top, Climbs w.tree (w.placeOf start) below top ∧ w.tree.parent top = top) ∧
      (forall fault, findFrom w start = .error fault <-> Fails w start fault) ∧
      (holdsNull start = false -> Fits w ((w.placeOf start).child ".env") ->
        forall fault, ¬Fails w start fault) ∧
      ((forall fault, ¬Fails w start fault) ->
        exists found, findFrom w start = .ok (found.map w.fullPath) ∧
          Finds w.tree (w.placeOf start) found) := by
  refine ⟨exists_climbs_top w.tree (w.placeOf start), fun _ => findFrom_eq_error_iff,
    Fits.not_fails, fun hnever => ?_⟩
  exact ⟨_, findFrom_of_not_fails hnever, finds_find w.tree (w.placeOf start)⟩

def nestedTree : Tree :=
  { Tree.empty with
    entries :=
      [([".env"], .file []), (["repo"], .directory), (["repo", ".env"], .file []),
        (["repo", ".git"], .file []), (["repo", "sub"], .directory),
        (["repo", "sub", ".env"], .directory)] }

def nestedFiles : Workspace where
  rootPath := "/home"
  tree := nestedTree
  directory := .inside ["repo"]
  environment := []

theorem findFrom_gives_nearest_offer_of_nested :
    Fits nestedFiles ((nestedFiles.placeOf "sub").child ".env") ∧
      IsNearest nestedTree (.inside ["repo", "sub"]) (.inside ["repo"]) ∧
      findFrom nestedFiles "sub" = .ok (some "/home/repo/.env") := by
  have hfits : Fits nestedFiles ((nestedFiles.placeOf "sub").child ".env") :=
    ⟨by decide, by decide⟩
  have hclimbs : Climbs nestedTree (.inside ["repo", "sub"]) [.inside ["repo", "sub"]]
      (.inside ["repo"]) := .up (by decide) (.here _)
  have hgit : HoldsGit nestedTree (.inside ["repo"]) := ⟨.file [], by decide⟩
  have hfile : HoldsFile nestedTree (.inside ["repo"]) := ⟨.file [], by decide, by decide⟩
  have hsub : ¬HoldsGit nestedTree (.inside ["repo", "sub"]) ∧
      ¬HoldsFile nestedTree (.inside ["repo", "sub"]) :=
    ⟨mt isBoundary_iff.mpr (by decide), mt holdsFile_iff.mpr (by decide)⟩
  rcases findFrom_gives_nearest_offer nestedFiles "sub" with ⟨-, -, hnever, hfound⟩
  rcases hfound (hnever rfl hfits) with ⟨found, hfind, hfinds⟩
  have hnested : Finds nestedTree (.inside ["repo", "sub"]) found := hfinds
  have hsome : found = some (.inside ["repo", ".env"]) :=
    hnested.beside _ _ hclimbs hgit hfile (by simpa using hsub)
  rcases (hnested.nearest _).mp hsome with ⟨d, hnearest, hchild⟩
  have hsame : (.inside ["repo"] : Place) = d := @child_injective ".env" _ _ hchild
  rw [hsome] at hfind
  exact ⟨hfits, hsame ▸ hnearest, hfind⟩

end Dotenv
end Palette
