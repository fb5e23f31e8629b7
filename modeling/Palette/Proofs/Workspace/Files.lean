import Palette.Proofs.Entries
import Palette.Workspace.Basic

/-!
# What writing changes

Directories are made without a change of any file.  A write that succeeds changes the file at
one place, which is the one that its path leads to by its text alone; a write that fails gives
no new tree at all.
-/

namespace Palette
namespace Tree

/-!
# Files
-/

def fileAt? (t : Tree) (place : Place) : Option Entry :=
  (t.entryAt? place).filter (!·.isDirectory)

/-- Two states of a tree that have the same files. -/
structure SameFiles (before after : Tree) : Prop where
  above : after.above = before.above
  files : forall p : Place, after.fileAt? p = before.fileAt? p

def held (t : Tree) (place : Place) (entry : Entry) : Entry :=
  if t.entryAt? place = some .nullDevice then .nullDevice else entry

/-- Two states of a tree between which a file was written to a place, and no other one. -/
structure Wrote (before : Tree) (place : Place) (file : Entry) (after : Tree) : Prop where
  others : forall p : Place, p ≠ place -> after.fileAt? p = before.fileAt? p
  written : after.fileAt? place = some (before.held place file)

theorem SameFiles.refl (t : Tree) : SameFiles t t :=
  ⟨rfl, fun _ => rfl⟩

theorem SameFiles.trans {t u v : Tree} (htu : SameFiles t u) (huv : SameFiles u v) :
    SameFiles t v :=
  ⟨huv.above.trans htu.above, fun p => (huv.files p).trans (htu.files p)⟩

theorem fileAt?_of_entryAt? {t u : Tree} {p : Place} (h : u.entryAt? p = t.entryAt? p) :
    u.fileAt? p = t.fileAt? p := by
  rw [fileAt?, fileAt?, h]

theorem SameFiles.held_eq {t u : Tree} (h : SameFiles t u) (place : Place) (entry : Entry) :
    u.held place entry = t.held place entry := by
  have hiff : forall v : Tree,
      v.entryAt? place = some .nullDevice <-> v.fileAt? place = some .nullDevice := by
    intro v
    rw [fileAt?, Option.filter_eq_some_iff]
    exact ⟨fun hdevice => ⟨hdevice, rfl⟩, And.left⟩
  have hsame : (u.entryAt? place = some .nullDevice) = (t.entryAt? place = some .nullDevice) := by
    rw [propext (hiff u), propext (hiff t), h.files]
  simp only [held, hsame]

theorem SameFiles.wrote {t u v : Tree} {place : Place} {file : Entry} (htu : SameFiles t u)
    (huv : Wrote u place file v) : Wrote t place file v where
  others p hne := (huv.others p hne).trans (htu.files p)
  written := by rw [huv.written, htu.held_eq]

/-!
# Entries that are put
-/

theorem above_putAt (t : Tree) (place : Place) (entry : Entry) :
    (t.putAt place entry).above = t.above := by
  rw [putAt]
  split
  · rfl
  · split <;> rfl

theorem entryAt?_putAt_of_ne (t : Tree) {place p : Place} (hne : p ≠ place) (entry : Entry) :
    (t.putAt place entry).entryAt? p = t.entryAt? p := by
  rw [putAt]
  split
  · rfl
  · split
    case isTrue hroot =>
      rw [entryAt?, entryAt?]
      split
      · rfl
      · split
        case isTrue hp =>
          have hlocation : place.location ≠ p.location := by
            intro heq
            apply hne
            cases p
            cases place
            rw [Place.mk.injEq]
            exact ⟨hp.trans hroot.symm, heq.symm⟩
          rw [get?, get?, put, Entries.get?_put_of_ne _ _ hlocation]
        case isFalse =>
          rfl
    case isFalse =>
      have hget := Entries.get?_put_of_ne t.outside entry (Ne.symm hne)
      simp only [entryAt?, get?, hget]

theorem entryAt?_putAt_self (t : Tree) {place : Place} (hlocation : place.location ≠ [])
    (entry : Entry) : (t.putAt place entry).entryAt? place = some (t.held place entry) := by
  rw [putAt, held]
  split
  case isTrue hdevice =>
    exact hdevice
  case isFalse =>
    split
    case isTrue hroot =>
      rw [entryAt?, if_neg hlocation, if_pos hroot, get?, if_neg hlocation, put,
        Entries.get?_put_self]
    case isFalse hroot =>
      rw [entryAt?, if_neg hlocation, if_neg hroot, Entries.get?_put_self]

theorem location_ne_nil_of_entryAt? {t : Tree} {place : Place}
    (h : t.entryAt? place ≠ some .directory) : place.location ≠ [] := by
  intro hnil
  rw [entryAt?, if_pos hnil] at h
  exact h rfl

theorem sameFiles_putAt_directory {t : Tree} {place : Place} (h : t.entryAt? place = none) :
    SameFiles t (t.putAt place .directory) := by
  refine ⟨above_putAt t place .directory, fun p => ?_⟩
  by_cases hp : p = place
  · have hlocation : place.location ≠ [] := location_ne_nil_of_entryAt? (by rw [h]; nofun)
    have hheld : t.held place .directory = .directory := by
      rw [held, h]
      rfl
    rw [hp, fileAt?, fileAt?, h, entryAt?_putAt_self t hlocation, hheld]
    rfl
  · exact fileAt?_of_entryAt? (entryAt?_putAt_of_ne t hp .directory)

theorem wrote_putAt {t : Tree} {place : Place} {file : Entry}
    (h : ¬(t.entryAt? place).any Entry.isDirectory = true) (hfile : file.isDirectory = false) :
    Wrote t place file (t.putAt place file) := by
  have hlocation : place.location ≠ [] := by
    apply location_ne_nil_of_entryAt? (t := t)
    intro hdirectory
    rw [hdirectory] at h
    exact h rfl
  refine ⟨fun p hne => fileAt?_of_entryAt? (entryAt?_putAt_of_ne t hne file), ?_⟩
  rw [fileAt?, entryAt?_putAt_self t hlocation, Option.filter_eq_some_iff]
  refine ⟨rfl, ?_⟩
  rw [held]
  split
  · rfl
  · rw [hfile]
    rfl

/-!
# Paths
-/

theorem walk_ok {t : Tree} {place target : Place} {parts : List (List Char)}
    (h : t.walk place parts = .ok target) : target = parts.foldl t.enter place := by
  induction parts generalizing place with
  | nil =>
      rw [walk] at h
      injection h with h
      exact h.symm
  | cons part rest ih =>
      rw [walk] at h
      split at h
      · cases h
      · split at h
        · cases h
        · split at h
          · cases h
          · exact ih h

theorem follow_ok {t : Tree} {base target : Place} {path : List Char} {parts : List (List Char)}
    (h : t.follow base path parts = .ok target) :
    target = parts.foldl t.enter (t.start base path) := by
  rw [follow] at h
  split at h
  · cases h
  · split at h
    · cases h
    · split at h
      · cases h
      · exact walk_ok h

theorem resolve_ok {t : Tree} {base target : Place} {path : List Char}
    (h : t.resolve base path = .ok target) : target = t.normalize base path :=
  follow_ok h

theorem normalize_of_above {t u : Tree} (h : u.above = t.above) (base : Place)
    (path : List Char) : u.normalize base path = t.normalize base path := by
  have henter : u.enter = t.enter := by
    funext place part
    simp only [enter, parent, h]
  rw [normalize, normalize, henter, start, start, top, top, h]

/-!
# Writing
-/

theorem write_ok {t u : Tree} {base : Place} {path : String} {file : Entry}
    (hfile : file.isDirectory = false) (h : t.write base path file = .ok u) :
    Wrote t (t.normalize base path.toList) file u := by
  rw [write] at h
  split at h
  · split at h <;> cases h
  · split at h
    · cases h
    · split at h
      · cases h
      case h_2 hresolve hdirectory =>
        injection h with h
        rw [← h, ← resolve_ok hresolve]
        exact wrote_putAt hdirectory hfile

/-!
# Making directories
-/

theorem makeDirectory_ok {t u : Tree} {base : Place} {path : List Char}
    (h : t.makeDirectory base path = .ok u) : SameFiles t u := by
  rw [makeDirectory] at h
  split at h
  · cases h
  · split at h
    · cases h
    case isFalse hnone =>
      injection h with h
      rw [← h]
      exact sameFiles_putAt_directory (Option.not_isSome_iff_eq_none.mp hnone)

theorem ensureDirectory_ok {t u : Tree} {base : Place} {path : List Char}
    (h : t.ensureDirectory base path = .ok u) : SameFiles t u := by
  rw [ensureDirectory] at h
  split at h
  case h_1 hmake =>
    injection h with h
    rw [← h]
    exact makeDirectory_ok hmake
  case h_2 =>
    split at h
    · injection h with h
      rw [h]
      exact .refl u
    · cases h

theorem makeDirectories_ok {base : Place} {count : Nat} {t u : Tree} {path : List Char}
    (h : makeDirectories base count t path = .ok u) : SameFiles t u := by
  induction count generalizing u path with
  | zero =>
      exact ensureDirectory_ok h
  | succ count ih =>
      rw [makeDirectories] at h
      dsimp only at h
      split at h
      · exact ensureDirectory_ok h
      · split at h
        · cases h
        case h_2 v habove =>
          have hv : SameFiles t v := by
            split at habove
            case h_1 hmake =>
              injection habove with habove
              rw [← habove]
              exact ih hmake
            case h_2 =>
              split at habove
              · injection habove with habove
                rw [habove]
                exact .refl v
              · cases habove
          split at h
          · injection h with h
            rw [← h]
            exact hv
          · exact hv.trans (ensureDirectory_ok h)

theorem makeParents_ok {t u : Tree} {base : Place} {path : List Char}
    (h : t.makeParents base path = .ok u) : SameFiles t u := by
  rw [makeParents] at h
  split at h
  · injection h with h
    rw [h]
    exact .refl u
  · exact makeDirectories_ok h

end Tree
end Palette
