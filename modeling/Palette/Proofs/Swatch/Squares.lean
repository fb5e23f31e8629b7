import Mathlib.Algebra.Order.Floor.Div
import Mathlib.Data.Finset.Prod
import Mathlib.Order.Interval.Finset.Nat
import Palette.Proofs.Swatch.Layout
import Palette.Swatch.Memory

/-!
# Squares of a swatch

The pixels of an image are shared out among numbered squares.  The squares of the colours come
first, and the few that are left over lie at the end of the last row.  A swatch that the machine
can count is refused for a size or a number of columns below one only.
-/

namespace Palette
namespace Swatch

/-- The squares of a row: as many as asked for, but no more than there are colours. -/
def columnCount (count columns : Nat) : Nat :=
  if count = 0 then 1 else min columns count

def rowCount (count columns : Nat) : Nat :=
  if count = 0 then 1 else count ⌈/⌉ columnCount count columns

/-- The number of the square in which a pixel lies. -/
def squareAt (size columns x y : Nat) : Nat :=
  y / size * columns + x / size

/-- The pixels of an image that lie in a square, each by its column and its row. -/
def pixelsOfSquare (image : Image) (size columns k : Nat) : Finset (Nat × Nat) :=
  (Finset.range image.width ×ˢ Finset.range image.height).filter fun place =>
    squareAt size columns place.1 place.2 = k

def squareFrom (x y length : Nat) : Finset (Nat × Nat) :=
  Finset.Ico x (x + length) ×ˢ Finset.Ico y (y + length)

/-- An image that shows each colour in a square of its own, row by row. -/
structure IsLaidOut (colors : List Rgb) (size columns rows : Nat) (image : Image) : Prop where
  width : image.width = columns * size
  height : image.height = rows * size
  fullHeight : image.rows.length = image.height
  fullWidth : forall row, row ∈ image.rows -> row.length = image.width
  colored : forall x y color, x < image.width -> y < image.height ->
    colors[squareAt size columns x y]? = some color ->
      image.pixel? x y = some ⟨color.red, color.green, color.blue, 255⟩
  blank : forall x y, x < image.width -> y < image.height ->
    colors.length ≤ squareAt size columns x y -> image.pixel? x y = some ⟨0, 0, 0, 0⟩
  square : forall k, k < rows * columns ->
    pixelsOfSquare image size columns k =
      squareFrom (k % columns * size) (k / columns * size) size
  area : forall k, k < rows * columns -> (pixelsOfSquare image size columns k).card = size * size
  room : colors.length ≤ rows * columns
  few : colors ≠ [] -> rows * columns - colors.length < columns
  lastRow : forall k, colors.length ≤ k -> k < rows * columns -> k / columns + 1 = rows

/-!
# Counts
-/

theorem columnCount_pos (count : Nat) {columns : Nat} (h : 0 < columns) :
    0 < columnCount count columns := by
  rw [columnCount]
  split
  · exact Nat.one_pos
  · omega

theorem usedColumns_eq (count : Nat) {columns : Nat} (h : 0 < columns) :
    usedColumns count columns = columnCount count columns := by
  rw [usedColumns, columnCount]
  split
  · omega
  · omega

theorem usedRows_eq (count : Nat) {columns : Nat} (h : 0 < columns) :
    usedRows count (columnCount count columns) = rowCount count columns := by
  rw [usedRows, rowCount, columnCount]
  split
  case isTrue hcount =>
    rw [hcount]
    rfl
  case isFalse hcount =>
    have hpos : 0 < min columns count := by omega
    rw [Nat.ceilDiv_eq_add_pred_div]
    apply max_eq_right
    rw [Nat.one_le_div_iff hpos]
    omega

theorem le_rowCount_mul (count : Nat) {columns : Nat} (h : 0 < columns) :
    count ≤ rowCount count columns * columnCount count columns := by
  rw [← usedRows_eq count h]
  exact le_usedRows_mul count (columnCount_pos count h)

theorem mul_lt_of_lt_rowCount {count columns row : Nat} (hcount : 0 < count) (h : 0 < columns)
    (hrow : row + 1 = rowCount count columns) : row * columnCount count columns < count := by
  rw [rowCount, if_neg (Nat.ne_of_gt hcount)] at hrow
  apply Nat.lt_of_not_le
  intro hle
  have hceil : count ⌈/⌉ columnCount count columns ≤ row := by
    rw [ceilDiv_le_iff_le_mul (columnCount_pos count h), Nat.mul_comm]
    exact hle
  omega

theorem rowCount_pos (count : Nat) {columns : Nat} (h : 0 < columns) :
    0 < rowCount count columns := by
  rw [← usedRows_eq count h]
  exact Nat.le_max_left 1 _

theorem div_add_one_eq_rowCount {count columns k : Nat} (h : 0 < columns) (hcount : count ≤ k)
    (hk : k < rowCount count columns * columnCount count columns) :
    k / columnCount count columns + 1 = rowCount count columns := by
  have hpos := columnCount_pos count h
  have hlt : k / columnCount count columns < rowCount count columns :=
    Nat.div_lt_of_lt_mul (by rwa [Nat.mul_comm])
  apply Nat.le_antisymm hlt
  have hrows := rowCount_pos count h
  have hlast : (rowCount count columns - 1) * columnCount count columns ≤ k := by
    rcases Nat.eq_zero_or_pos count with hzero | hcolors
    · rw [rowCount, if_pos hzero, Nat.zero_mul]
      exact Nat.zero_le k
    · exact Nat.le_trans (Nat.le_of_lt (mul_lt_of_lt_rowCount hcolors h
        (Nat.sub_add_cancel hrows))) hcount
  have hquotient := (Nat.le_div_iff_mul_le hpos).mpr hlast
  omega

/-!
# Rows of pixels
-/

theorem length_stretch (times : Nat) (items : List α) :
    (stretch times items).length = items.length * times := by
  induction items with
  | nil =>
      exact (Nat.zero_mul times).symm
  | cons item rest ih =>
      rw [stretch_cons, List.length_append, List.length_replicate, ih, List.length_cons,
        Nat.succ_mul, Nat.add_comm]

theorem mem_stretch {times : Nat} {items : List α} {item : α} (h : item ∈ stretch times items) :
    item ∈ items := by
  rcases List.mem_flatMap.mp h with ⟨other, hother, hitem⟩
  rw [List.eq_of_mem_replicate hitem]
  exact hother

theorem length_chunks (width rows : Nat) (cells : List α) :
    (chunks width rows cells).length = rows := by
  induction rows generalizing cells with
  | zero =>
      rfl
  | succ rows ih =>
      rw [chunks, List.length_cons, ih]

theorem length_of_mem_chunks {width rows : Nat} {cells chunk : List α}
    (hcells : cells.length = rows * width) (h : chunk ∈ chunks width rows cells) :
    chunk.length = width := by
  induction rows generalizing cells with
  | zero =>
      cases h
  | succ rows ih =>
      rw [Nat.succ_mul] at hcells
      cases h with
      | head =>
          rw [List.length_take]
          omega
      | tail _ hrest =>
          refine ih ?_ hrest
          rw [List.length_drop]
          omega

theorem length_cells {count : Nat} {colors : List Rgb} (h : colors.length ≤ count) :
    (cells count colors).length = count := by
  rw [cells, List.length_append, List.length_map, List.length_replicate]
  omega

theorem length_rows_draw (colors : List Rgb) (size columns : Nat) :
    (draw colors size columns).rows.length = (draw colors size columns).height := by
  rw [draw, length_stretch, List.length_map, length_chunks]

theorem length_of_mem_rows_draw {colors : List Rgb} {size columns : Nat} {row : List Pixel}
    (h : row ∈ (draw colors size columns).rows) :
    row.length = (draw colors size columns).width := by
  rcases List.mem_map.mp (mem_stretch h) with ⟨chunk, hchunk, hrow⟩
  have hroom := le_usedRows_mul colors.length (usedColumns_pos colors.length columns)
  rw [← hrow, length_stretch, length_of_mem_chunks (length_cells hroom) hchunk, draw]

/-!
# Pixels of a square
-/

theorem squareAt_eq_iff {size columns x y k : Nat} (hx : x < columns * size) :
    squareAt size columns x y = k <-> x / size = k % columns ∧ y / size = k / columns := by
  have hcolumn : x / size < columns := Nat.div_lt_of_lt_mul (by rwa [Nat.mul_comm])
  have hpos : 0 < columns := Nat.zero_lt_of_lt hcolumn
  rw [squareAt]
  constructor
  · rintro rfl
    rw [Nat.mul_comm, Nat.mul_add_mod, Nat.mod_eq_of_lt hcolumn, Nat.mul_add_div hpos,
      Nat.div_eq_of_lt hcolumn]
    exact ⟨rfl, rfl⟩
  · rintro ⟨hmod, hdiv⟩
    rw [hmod, hdiv]
    exact Nat.div_add_mod' k columns

theorem div_eq_iff_mem_Ico {size x a : Nat} (hsize : 0 < size) :
    x / size = a <-> x ∈ Finset.Ico (a * size) (a * size + size) := by
  rw [Finset.mem_Ico, Nat.div_eq_iff hsize]
  omega

theorem pixelsOfSquare_eq {image : Image} {size columns rows k : Nat} (hsize : 0 < size)
    (hwidth : image.width = columns * size) (hheight : image.height = rows * size)
    (hk : k < rows * columns) :
    pixelsOfSquare image size columns k =
      squareFrom (k % columns * size) (k / columns * size) size := by
  have hpos : 0 < columns := Nat.pos_of_mul_pos_left (Nat.zero_lt_of_lt hk)
  have hinside : forall {a b x : Nat}, a < b -> x ∈ Finset.Ico (a * size) (a * size + size) ->
      x < b * size := by
    intro a b x hab hx
    have hle : (a + 1) * size ≤ b * size := Nat.mul_le_mul_right size hab
    rw [Nat.succ_mul] at hle
    exact Nat.lt_of_lt_of_le (Finset.mem_Ico.mp hx).right hle
  ext ⟨x, y⟩
  rw [pixelsOfSquare, squareFrom, Finset.mem_filter, Finset.mem_product, Finset.mem_product,
    Finset.mem_range, Finset.mem_range, hwidth, hheight]
  constructor
  · rintro ⟨⟨hx, _⟩, hsquare⟩
    rcases (squareAt_eq_iff hx).mp hsquare with ⟨hcolumn, hrow⟩
    exact ⟨(div_eq_iff_mem_Ico hsize).mp hcolumn, (div_eq_iff_mem_Ico hsize).mp hrow⟩
  · rintro ⟨hcolumn, hrow⟩
    have hx : x < columns * size := hinside (Nat.mod_lt k hpos) hcolumn
    have hy : y < rows * size :=
      hinside (Nat.div_lt_of_lt_mul (by rwa [Nat.mul_comm])) hrow
    refine ⟨⟨hx, hy⟩, (squareAt_eq_iff hx).mpr ⟨?_, ?_⟩⟩
    · exact (div_eq_iff_mem_Ico hsize).mpr hcolumn
    · exact (div_eq_iff_mem_Ico hsize).mpr hrow

theorem card_squareFrom (x y length : Nat) : (squareFrom x y length).card = length * length := by
  rw [squareFrom, Finset.card_product, Nat.card_Ico, Nat.card_Ico, Nat.add_sub_cancel_left,
    Nat.add_sub_cancel_left]

/-!
# The layout
-/

theorem isLaidOut_draw (colors : List Rgb) {size columns : Nat} (hsize : 0 < size)
    (hcolumns : 0 < columns) :
    IsLaidOut colors size (columnCount colors.length columns) (rowCount colors.length columns)
      (draw colors size columns) := by
  have hused := usedColumns_eq colors.length hcolumns
  have hwidth : (draw colors size columns).width = columnCount colors.length columns * size := by
    rw [draw, hused]
  have hheight : (draw colors size columns).height = rowCount colors.length columns * size := by
    rw [draw, hused, usedRows_eq colors.length hcolumns]
  have hpixel : forall {x y : Nat}, x < (draw colors size columns).width ->
      y < (draw colors size columns).height ->
      (draw colors size columns).pixel? x y =
        some ((colors[squareAt size (columnCount colors.length columns) x y]?.map
          Pixel.opaqueOf).getD Pixel.transparent) := by
    intro x y hx hy
    rw [pixel?_draw colors hsize columns hx hy, hused]
    rfl
  have hpixels : forall {k : Nat},
      k < rowCount colors.length columns * columnCount colors.length columns ->
      pixelsOfSquare (draw colors size columns) size (columnCount colors.length columns) k =
        squareFrom (k % columnCount colors.length columns * size)
          (k / columnCount colors.length columns * size) size := by
    intro k hk
    exact pixelsOfSquare_eq hsize hwidth hheight hk
  constructor
  case width =>
    exact hwidth
  case height =>
    exact hheight
  case fullHeight =>
    exact length_rows_draw colors size columns
  case fullWidth =>
    intro row hrow
    exact length_of_mem_rows_draw hrow
  case colored =>
    intro x y color hx hy hcolor
    rw [hpixel hx hy, hcolor]
    rfl
  case blank =>
    intro x y hx hy hle
    rw [hpixel hx hy, List.getElem?_eq_none hle]
    rfl
  case square =>
    intro k hk
    exact hpixels hk
  case area =>
    intro k hk
    rw [hpixels hk, card_squareFrom]
  case room =>
    exact le_rowCount_mul colors.length hcolumns
  case few =>
    intro hne
    have hcount : 0 < colors.length := List.length_pos_iff.mpr hne
    have hrows := rowCount_pos colors.length hcolumns
    have hpos := columnCount_pos colors.length hcolumns
    have hlast := mul_lt_of_lt_rowCount hcount hcolumns (Nat.sub_add_cancel hrows)
    have hsplit : rowCount colors.length columns * columnCount colors.length columns =
        (rowCount colors.length columns - 1) * columnCount colors.length columns +
          columnCount colors.length columns := by
      rw [← Nat.succ_mul, Nat.succ_eq_add_one, Nat.sub_add_cancel hrows]
    omega
  case lastRow =>
    intro k hle hk
    exact div_add_one_eq_rowCount hcolumns hle hk

/-!
# Swatches that the machine can count
-/

/-- The bytes of the image of a swatch. -/
def swatchBytes (count size columns : Nat) : Nat :=
  arrayBytes (rowCount count columns * size) (columnCount count columns * size)

/-- Whether a swatch is refused because of the values that it is made of. -/
def MakeFault.isRefused : MakeFault → Bool
  | refused _ => true
  | excess e => e.isRefused

theorem wrapped_of_lt {n : Nat} (h : n < countLimit) : wrapped n = n := by
  apply Int.bmod_eq_of_le
  · rw [countLimit]
    omega
  · rw [countLimit] at h ⊢
    omega

section Limits

variable {m : Machine}

theorem arrayExcess?_of_lt {height width : Nat} (hheight : 0 < height) (hwidth : 0 < width)
    (h : arrayBytes height width < countLimit) :
    arrayExcess? m height width =
      if m.memory ≤ arrayBytes height width then some (.memory height width) else none := by
  have hnonneg : ¬((height : Int) < 0 ∨ (width : Int) < 0) := by omega
  have hmax : forall {n : Nat}, 0 < n -> max 1 n = n := fun hn => max_eq_right hn
  rw [arrayExcess?]
  simp only [Int.toNat_natCast, hmax hheight, hmax hwidth, if_neg hnonneg,
    if_neg (Nat.not_le_of_lt h)]

theorem excess?_of_lt {count size columns : Nat} (hsize : 0 < size) (hcolumns : 0 < columns)
    (h : swatchBytes count size columns < countLimit) :
    (swatchBytes count size columns < m.memory ->
      excess? m count size columns =
        imageExcess? m (columnCount count columns * size) (rowCount count columns * size)) ∧
      (m.memory ≤ swatchBytes count size columns ->
        exists height width, excess? m count size columns = some (.memory height width)) := by
  have hwide := columnCount_pos count hcolumns
  have hrows := rowCount_pos count hcolumns
  rw [excess?, usedColumns_eq count hcolumns, usedRows_eq count hcolumns]
  rw [swatchBytes] at h ⊢
  generalize columnCount count columns = wide at *
  generalize hheight : rowCount count columns * size = height at *
  have hheightPos : 0 < height := hheight ▸ Nat.mul_pos hrows hsize
  have hsizeLe : size ≤ height := hheight ▸ Nat.le_mul_of_pos_left size hrows
  have hwideLe : wide ≤ wide * size := Nat.le_mul_of_pos_right wide hsize
  have hstretched : arrayBytes height wide ≤ arrayBytes height (wide * size) :=
    Nat.mul_le_mul_left 4 (Nat.mul_le_mul_left height hwideLe)
  have hheightLe : height ≤ height * (wide * size) :=
    Nat.le_mul_of_pos_right height (Nat.mul_pos hwide hsize)
  have hwidthLe : wide * size ≤ height * (wide * size) := Nat.le_mul_of_pos_left _ hheightPos
  have hfour : arrayBytes height (wide * size) = 4 * (height * (wide * size)) := rfl
  have hcounted : ¬countLimit ≤ size := by omega
  have hwrapped : wrapped height = height := wrapped_of_lt (by omega)
  have hwrappedWidth : wrapped (wide * size) = (wide * size : Nat) := wrapped_of_lt (by omega)
  rw [if_neg hcounted, hwrapped, hwrappedWidth, arrayExcess?_of_lt hheightPos hwide (by omega),
    arrayExcess?_of_lt hheightPos (Nat.mul_pos hwide hsize) h]
  constructor
  · intro hfits
    rw [if_neg (by omega), if_neg (by omega)]
    rfl
  · intro hexceeds
    by_cases hfirst : m.memory ≤ arrayBytes height wide
    · rw [if_pos hfirst]
      exact ⟨height, wide, rfl⟩
    · rw [if_neg hfirst, if_pos hexceeds]
      exact ⟨height, wide * size, rfl⟩

/-- What can be counted is not refused. -/
theorem isRefused_of_excess?_of_lt {count size columns : Nat} {e : Excess} (hsize : 0 < size)
    (hcolumns : 0 < columns) (h : swatchBytes count size columns < countLimit)
    (hexcess : excess? m count size columns = some e) : e.isRefused = false := by
  rcases excess?_of_lt (m := m) hsize hcolumns h with ⟨hfits, hexceeds⟩
  rcases Nat.lt_or_ge (swatchBytes count size columns) m.memory with hlt | hge
  · rw [hfits hlt, imageExcess?] at hexcess
    split at hexcess
    · cases hexcess
    · cases hexcess
      rfl
  · rcases hexceeds hge with ⟨height, width, hmemory⟩
    rw [hmemory] at hexcess
    cases hexcess
    rfl

theorem make_of_excess {colors : List Rgb} {size columns : Int} {e : Excess} (hsize : 1 ≤ size)
    (hcolumns : 1 ≤ columns)
    (h : excess? m colors.length size.toNat columns.toNat = some e) :
    make m colors size columns = .error (.excess e) := by
  rw [make, if_neg (by omega), h]

theorem build_of_pos (colors : List Rgb) {size columns : Int} (hsize : 1 ≤ size)
    (hcolumns : 1 ≤ columns) :
    build colors size columns = .ok (draw colors size.toNat columns.toNat) := by
  rw [build, if_neg (by omega)]

theorem make_of_not_excess {colors : List Rgb} {size columns : Int} (hsize : 1 ≤ size)
    (hcolumns : 1 ≤ columns) (h : excess? m colors.length size.toNat columns.toNat = none) :
    make m colors size columns = .ok (draw colors size.toNat columns.toNat) := by
  rw [make, if_neg (by omega), h, build_of_pos colors hsize hcolumns]
  rfl

theorem make_of_small (colors : List Rgb) {size columns : Int} (h : size < 1 ∨ columns < 1) :
    make m colors size columns = .error (.refused ⟨size, columns⟩) := by
  rw [make, if_pos h]

theorem build_eq_error_iff {colors : List Rgb} {size columns : Int} :
    build colors size columns = .error ⟨size, columns⟩ <-> size < 1 ∨ columns < 1 := by
  constructor
  · intro hbuild
    by_contra hlarge
    rw [build_of_pos colors (by omega) (by omega)] at hbuild
    cases hbuild
  · intro hsmall
    rw [build, if_pos hsmall]

theorem make_eq_refused_iff {colors : List Rgb} {size columns : Int} :
    make m colors size columns = .error (.refused ⟨size, columns⟩) <->
      size < 1 ∨ columns < 1 := by
  refine ⟨fun hmake => ?_, make_of_small colors⟩
  by_contra hlarge
  cases hexcess : excess? m colors.length size.toNat columns.toNat with
  | none =>
      rw [make_of_not_excess (by omega) (by omega) hexcess] at hmake
      cases hmake
  | some e =>
      rw [make_of_excess (by omega) (by omega) hexcess] at hmake
      cases hmake

def RefusesOnlySmall (m : Machine) (colors : List Rgb) (size columns : Int) : Prop :=
  (exists fault, make m colors size columns = .error fault ∧ fault.isRefused = true) <->
    size < 1 ∨ columns < 1

theorem refusesOnlySmall_of_lt {colors : List Rgb} {size columns : Int}
    (h : swatchBytes colors.length size.toNat columns.toNat < countLimit) :
    RefusesOnlySmall m colors size columns := by
  constructor
  · rintro ⟨fault, hmake, hrefused⟩
    by_contra hlarge
    have hsize : 1 ≤ size := by omega
    have hcolumns : 1 ≤ columns := by omega
    cases hexcess : excess? m colors.length size.toNat columns.toNat with
    | none =>
        rw [make_of_not_excess hsize hcolumns hexcess] at hmake
        cases hmake
    | some e =>
        rw [make_of_excess hsize hcolumns hexcess] at hmake
        injection hmake with hfault
        have hkept : e.isRefused = false :=
          isRefused_of_excess?_of_lt (by omega) (by omega) h hexcess
        rw [← hfault] at hrefused
        exact Bool.false_ne_true (hkept.symm.trans hrefused)
  · intro hsmall
    exact ⟨_, make_of_small colors hsmall, rfl⟩

end Limits

/-- A swatch of two to the power of 63 bytes is refused though its values are positive. -/
theorem not_refusesOnlySmall_huge :
    ¬RefusesOnlySmall .usual [⟨1, 2, 3⟩] 2305843009213693952 1 := by
  intro h
  have hexcess : excess? .usual 1 2305843009213693952 1 = some .count := by decide +kernel
  have hmake : make .usual [⟨1, 2, 3⟩] 2305843009213693952 1 = .error (.excess .count) :=
    make_of_excess (by decide) (by decide) hexcess
  exact absurd (h.mp ⟨_, hmake, rfl⟩) (by decide)

/-- A size or a number of columns below one is refused, and nothing else is as long as the
machine can count the bytes of the swatch.  All other swatches are laid out square by square,
and are made if they fit into memory and the image library takes them. -/
theorem make_lays_out_colors (m : Machine) (colors : List Rgb) (size columns : Int) :
    (build colors size columns = .error ⟨size, columns⟩ <-> size < 1 ∨ columns < 1) ∧
      (make m colors size columns = .error (.refused ⟨size, columns⟩) <->
        size < 1 ∨ columns < 1) ∧
      (swatchBytes colors.length size.toNat columns.toNat < countLimit ->
        RefusesOnlySmall m colors size columns) ∧
      (1 ≤ size -> 1 ≤ columns -> exists image, build colors size columns = .ok image ∧
        IsLaidOut colors size.toNat (columnCount colors.length columns.toNat)
          (rowCount colors.length columns.toNat) image ∧
        (swatchBytes colors.length size.toNat columns.toNat < countLimit ->
          (swatchBytes colors.length size.toNat columns.toNat < m.memory ->
            make m colors size columns =
              if m.takesImage image.width image.height then .ok image
              else .error (.excess (.image image.width image.height))) ∧
          (m.memory ≤ swatchBytes colors.length size.toNat columns.toNat ->
            exists height width,
              make m colors size columns = .error (.excess (.memory height width))))) := by
  refine ⟨build_eq_error_iff, make_eq_refused_iff, refusesOnlySmall_of_lt,
    fun hsize hcolumns => ?_⟩
  have hpos : 0 < size.toNat := by omega
  have hmany : 0 < columns.toNat := by omega
  have hlayout := isLaidOut_draw colors hpos hmany
  refine ⟨_, build_of_pos colors hsize hcolumns, hlayout, fun hcounted => ⟨?_, ?_⟩⟩
  · intro hfits
    have hexcess := (excess?_of_lt (m := m) hpos hmany hcounted).left hfits
    rw [← hlayout.width, ← hlayout.height, imageExcess?] at hexcess
    split
    case isTrue htakes =>
      rw [if_pos htakes] at hexcess
      exact make_of_not_excess hsize hcolumns hexcess
    case isFalse htakes =>
      rw [if_neg htakes] at hexcess
      exact make_of_excess hsize hcolumns hexcess
  · intro hexceeds
    rcases (excess?_of_lt hpos hmany hcounted).right hexceeds with ⟨height, width, hexcess⟩
    exact ⟨height, width, make_of_excess hsize hcolumns hexcess⟩

/-- Three colours in rows of two. -/
theorem make_lays_out_colors_of_three :
    exists colors : List Rgb, colors = [⟨255, 0, 0⟩, ⟨0, 255, 0⟩, ⟨0, 0, 255⟩] ∧
      make .usual colors 0 2 = .error (.refused ⟨0, 2⟩) ∧
      exists image, make .usual colors 2 2 = .ok image ∧ IsLaidOut colors 2 2 2 image ∧
        image.pixel? 1 2 = some ⟨0, 0, 255, 255⟩ ∧ image.pixel? 3 3 = some ⟨0, 0, 0, 0⟩ ∧
        pixelsOfSquare image 2 2 1 = squareFrom 2 0 2 := by
  refine ⟨_, rfl, (make_lays_out_colors .usual _ 0 2).right.left.mpr (by decide), ?_⟩
  rcases (make_lays_out_colors .usual [⟨255, 0, 0⟩, ⟨0, 255, 0⟩, ⟨0, 0, 255⟩] 2 2).right.right.right
    (by decide) (by decide) with ⟨image, _, hlayout, hmake⟩
  have hcolumns : columnCount 3 2 = 2 := by decide
  have hrows : rowCount 3 2 = 2 := by decide
  change IsLaidOut _ 2 (columnCount 3 2) (rowCount 3 2) image at hlayout
  rw [hcolumns, hrows] at hlayout
  have hwidth := hlayout.width
  have hheight := hlayout.height
  have hmade := (hmake (by decide)).left (by decide)
  rw [hwidth, hheight] at hmade
  refine ⟨image, hmade, hlayout, ?_, ?_, ?_⟩
  · exact hlayout.colored 1 2 ⟨0, 0, 255⟩ (by omega) (by omega) rfl
  · exact hlayout.blank 3 3 (by omega) (by omega) (by decide)
  · exact hlayout.square 1 (by decide)

end Swatch
end Palette
