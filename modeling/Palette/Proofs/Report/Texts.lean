import Palette.Command.Findings
import Palette.Proofs.Entries
import Palette.Report.Text

/-!
# Texts of reports

What commands record of colours always fits into the lines of a report, so that the reports of
commands have texts.
-/

namespace Palette

namespace Report

variable {ν : Type}

/-- A value of a colour that fits into its line: what stands for channels are three numbers. -/
structure Fits (e : String × Json ν) : Prop where
  rgb : e.1 = "rgb" -> exists red green blue : Int,
    e.2 = .array [.int red, .int green, .int blue]
  hsl : e.1 = "hsl" -> exists hue saturation luminance : ν,
    e.2 = .array [.real hue, .real saturation, .real luminance]

def IsShown (r : Report ν) : Prop :=
  forall c, c ∈ r.colors -> forall e, e ∈ c.2 -> Fits e

theorem isShown_ofScheme (path : String) (s : Scheme) : (ofScheme path s : Report ν).IsShown :=
  nofun

theorem IsShown.addColor {r : Report ν} (h : r.IsShown) (i : Index)
    {data : List (String × Json ν)} (hdata : forall e, e ∈ data -> Fits e) :
    (r.addColor i data).IsShown := by
  intro c hc e he
  rcases Entries.mem_put hc with rfl | hmem
  · rcases Entries.mem_putAll he with hnew | hrecorded
    · exact hdata e hnew
    · cases hget : Entries.get? r.colors i with
      | none =>
          rw [hget] at hrecorded
          cases hrecorded
      | some recorded =>
          rw [hget] at hrecorded
          exact h (i, recorded) (Entries.mem_of_get?_eq_some hget) e hrecorded
  · exact h c hmem e he

theorem IsShown.addColors {data : Index × Rgb → List (String × Json ν)}
    (hdata : forall c e, e ∈ data c -> Fits e) (entries : List (Index × Rgb)) {r : Report ν}
    (h : r.IsShown) : (entries.foldl (fun r c => r.addColor c.1 (data c)) r).IsShown := by
  induction entries generalizing r with
  | nil =>
      exact h
  | cons c rest ih =>
      exact ih (h.addColor c.1 (hdata c))

theorem fits_hexData (c : Rgb) : Fits (hexData c : String × Json ν) :=
  ⟨fun h => absurd h (show "hex" ≠ "rgb" by decide),
    fun h => absurd h (show "hex" ≠ "hsl" by decide)⟩

theorem fits_rgbData (c : Rgb) : Fits (rgbData c : String × Json ν) :=
  ⟨fun _ => ⟨_, _, _, rfl⟩, fun h => absurd h (show "rgb" ≠ "hsl" by decide)⟩

theorem fits_hslData [Scalar ν] (v : Hsl ν) : Fits (hslData v) :=
  ⟨fun h => absurd h (show "hsl" ≠ "rgb" by decide), fun _ => ⟨_, _, _, rfl⟩⟩

theorem IsShown.drawn {r : Report ν} (h : r.IsShown) (s : Scheme) (path : String) :
    (r.drawn s path).IsShown := by
  have hdata : forall (c : Index × Rgb) (e : String × Json ν), e ∈ [hexData c.2] -> Fits e := by
    intro c e he
    rw [List.mem_singleton.mp he]
    exact fits_hexData c.2
  have hfile : (r.addFile path).IsShown := h
  exact hfile.addColors hdata s.colors.entries

theorem IsShown.lookUp [Scalar ν] {r : Report ν} (h : r.IsShown) (s : Scheme)
    (names : List String) : (r.lookUp s names).IsShown := by
  rw [Report.lookUp]
  induction names generalizing r with
  | nil =>
      exact h
  | cons name rest ih =>
      have hfield : (r.addField name (s.renderField ν name)).IsShown := h
      exact ih hfield

variable [Scalar ν]

theorem fits_inspection (table : List (Index × Hsl ν)) (i : Index) (c : Rgb) :
    forall e, e ∈ inspection table i c -> Fits e := by
  intro e he
  rw [inspection, List.mem_append] at he
  rcases he with hchannels | hhsl
  · rcases List.mem_cons.mp hchannels with rfl | hrgb
    · exact fits_hexData c
    · rw [List.mem_singleton.mp hrgb]
      exact fits_rgbData c
  · rw [Option.mem_toList, Option.map_eq_some_iff] at hhsl
    rcases hhsl with ⟨v, _, rfl⟩
    exact fits_hslData v

theorem IsShown.inspect {r : Report ν} (h : r.IsShown) (s : Scheme) : (r.inspect s).IsShown :=
  h.addColors (fun c => fits_inspection (s.hslTable ν) c.1 c.2) s.colors.entries

/-!
# Lines
-/

omit [Scalar ν] in
theorem exists_part {data : List (String × Json ν)} {key : String}
    {write : Json ν → Except Fault Phrase}
    (h : forall value, (key, value) ∈ data -> exists p, write value = .ok p) :
    exists parts, part data key write = .ok parts := by
  rw [part]
  cases hget : Entries.get? data key with
  | none =>
      exact ⟨[], rfl⟩
  | some value =>
      rcases h value (Entries.mem_of_get?_eq_some hget) with ⟨p, hp⟩
      dsimp only
      rw [hp]
      exact ⟨[p], rfl⟩

theorem exists_colorLine (i : Index) {data : List (String × Json ν)}
    (h : forall e, e ∈ data -> Fits e) : exists line, colorLine i data = .ok line := by
  have hhex : exists parts, part data "hex" (fun value => .ok (hexPart value)) = .ok parts :=
    exists_part fun value _ => ⟨hexPart value, rfl⟩
  have hrgb : exists parts, part data "rgb" rgbPart = .ok parts := by
    apply exists_part
    intro value hmem
    rcases (h _ hmem).rgb rfl with ⟨red, green, blue, rfl⟩
    exact ⟨_, rfl⟩
  have hhsl : exists parts, part data "hsl" hslPart = .ok parts := by
    apply exists_part
    intro value hmem
    rcases (h _ hmem).hsl rfl with ⟨hue, saturation, luminance, rfl⟩
    exact ⟨_, rfl⟩
  rcases hhex with ⟨hex, hhex⟩
  rcases hrgb with ⟨rgb, hrgb⟩
  rcases hhsl with ⟨hsl, hhsl⟩
  rw [colorLine, colorParts, hhex, hrgb, hhsl]
  exact ⟨_, rfl⟩

theorem exists_mapM_ok {f : α → Except ε β} {items : List α}
    (h : forall x, x ∈ items -> exists y, f x = .ok y) : exists ys, items.mapM f = .ok ys := by
  induction items with
  | nil =>
      exact ⟨[], rfl⟩
  | cons x rest ih =>
      rcases h x List.mem_cons_self with ⟨y, hy⟩
      rcases ih fun z hz => h z (List.mem_cons_of_mem x hz) with ⟨ys, hys⟩
      refine ⟨y :: ys, ?_⟩
      rw [List.mapM_cons, hy, hys]
      rfl

theorem IsShown.exists_text {r : Report ν} (h : r.IsShown) : exists text, r.text = .ok text := by
  have hlines : exists lines, (r.colors.mapM fun c => colorLine c.1 c.2) = .ok lines :=
    exists_mapM_ok fun c hc => exists_colorLine c.1 (h c hc)
  rcases hlines with ⟨lines, hlines⟩
  rw [text, Report.lines, hlines]
  exact ⟨_, rfl⟩

end Report
end Palette
