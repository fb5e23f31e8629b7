import Palette.Swatch

/-!
# The pixels of a swatch

A pixel lies in a square, and the squares are numbered row by row.  The square of a number
has the colour at that place of the list, or is transparent if the list has no such place.
-/

namespace Palette

def Image.pixel? (image : Image) (x y : Nat) : Option Pixel :=
  image.rows[y]?.bind (·[x]?)

namespace Swatch

/-!
# Stretched and cut lists
-/

theorem stretch_cons (times : Nat) (item : α) (items : List α) :
    stretch times (item :: items) = List.replicate times item ++ stretch times items :=
  rfl

theorem getElem?_stretch {times : Nat} (h : 0 < times) (items : List α) (k : Nat) :
    (stretch times items)[k]? = items[k / times]? := by
  induction items generalizing k with
  | nil =>
      rfl
  | cons item rest ih =>
      rw [stretch_cons]
      by_cases hk : k < times
      · rw [List.getElem?_append_left (by rwa [List.length_replicate]),
          List.getElem?_replicate_of_lt hk, Nat.div_eq_of_lt hk]
        rfl
      · have hle : times ≤ k := Nat.le_of_not_lt hk
        have hquotient : k / times = (k - times) / times + 1 := Nat.div_eq_sub_div h hle
        rw [List.getElem?_append_right (by rwa [List.length_replicate]), List.length_replicate,
          ih, hquotient]
        rfl

theorem getElem?_chunks (width : Nat) {rows row : Nat} (h : row < rows) (cells : List α) :
    (chunks width rows cells)[row]? = some ((cells.drop (row * width)).take width) := by
  induction rows generalizing row cells with
  | zero =>
      exact absurd h (Nat.not_lt_zero row)
  | succ rows ih =>
      cases row with
      | zero =>
          rw [Nat.zero_mul]
          rfl
      | succ row =>
          have hdrop : (row + 1) * width = width + row * width := by
            rw [Nat.succ_mul, Nat.add_comm]
          rw [chunks, List.getElem?_cons_succ, ih (Nat.lt_of_succ_lt_succ h), List.drop_drop, hdrop]

/-!
# Cells
-/

theorem le_usedRows_mul (count : Nat) {columns : Nat} (h : 0 < columns) :
    count ≤ usedRows count columns * columns := by
  have hceil : count ≤ (count + columns - 1) / columns * columns := by
    have hdiv := Nat.div_add_mod (count + columns - 1) columns
    have hmod := Nat.mod_lt (count + columns - 1) h
    rw [Nat.mul_comm] at hdiv
    omega
  exact Nat.le_trans hceil (Nat.mul_le_mul_right columns (Nat.le_max_right 1 _))

theorem getElem?_cells {count k : Nat} (h : k < count) (colors : List Rgb) :
    (cells count colors)[k]? = some ((colors[k]?.map Pixel.opaqueOf).getD Pixel.transparent) := by
  by_cases hk : k < colors.length
  · rw [cells, List.getElem?_append_left (by rwa [List.length_map]), List.getElem?_map,
      List.getElem?_eq_getElem hk]
    rfl
  · have hle : colors.length ≤ k := Nat.le_of_not_lt hk
    rw [cells, List.getElem?_append_right (by rwa [List.length_map]), List.length_map,
      List.getElem?_replicate_of_lt (by omega), List.getElem?_eq_none hle]
    rfl

/-!
# Pixels
-/

theorem usedColumns_pos (count columns : Nat) : 0 < usedColumns count columns :=
  Nat.le_max_left 1 _

theorem pixel?_draw (colors : List Rgb) {size : Nat} (hsize : 0 < size) (columns : Nat) {x y : Nat}
    (hx : x < (draw colors size columns).width) (hy : y < (draw colors size columns).height) :
    (draw colors size columns).pixel? x y =
      some ((colors[y / size * usedColumns colors.length columns + x / size]?.map
        Pixel.opaqueOf).getD Pixel.transparent) := by
  generalize hused : usedColumns colors.length columns = used
  have hpos : 0 < used := hused ▸ usedColumns_pos colors.length columns
  change x < usedColumns colors.length columns * size at hx
  change y < usedRows colors.length (usedColumns colors.length columns) * size at hy
  rw [hused] at hx hy
  have hcolumn : x / size < used := Nat.div_lt_of_lt_mul (by rwa [Nat.mul_comm])
  have hrow : y / size < usedRows colors.length used := Nat.div_lt_of_lt_mul (by rwa [Nat.mul_comm])
  have hcell : y / size * used + x / size < usedRows colors.length used * used := by
    calc y / size * used + x / size < y / size * used + used := Nat.add_lt_add_left hcolumn _
      _ = (y / size + 1) * used := (Nat.succ_mul _ _).symm
      _ ≤ usedRows colors.length used * used := Nat.mul_le_mul_right used hrow
  simp only [Image.pixel?, draw, hused]
  rw [getElem?_stretch hsize, List.getElem?_map, getElem?_chunks used hrow, Option.map_some,
    Option.bind_some, getElem?_stretch hsize, List.getElem?_take_of_lt hcolumn, List.getElem?_drop,
    getElem?_cells hcell]

/-!
# Squares
-/

/-- The number of squares of an image, each of which is `size` pixels wide and high. -/
def squareCount (image : Image) (size : Nat) : Nat :=
  image.height / size * (image.width / size)

def ShowsSquare (image : Image) (size k : Nat) (p : Pixel) : Prop :=
  forall dx dy, dx < size -> dy < size ->
    image.pixel? (k % (image.width / size) * size + dx) (k / (image.width / size) * size + dy) =
      some p

theorem squareCount_draw (colors : List Rgb) {size : Nat} (hsize : 0 < size) (columns : Nat) :
    squareCount (draw colors size columns) size =
      usedRows colors.length (usedColumns colors.length columns) *
        usedColumns colors.length columns := by
  rw [squareCount, draw, Nat.mul_div_cancel _ hsize, Nat.mul_div_cancel _ hsize]

theorem length_le_squareCount (colors : List Rgb) {size : Nat} (hsize : 0 < size) (columns : Nat) :
    colors.length ≤ squareCount (draw colors size columns) size := by
  rw [squareCount_draw colors hsize]
  exact le_usedRows_mul colors.length (usedColumns_pos colors.length columns)

theorem showsSquare_draw (colors : List Rgb) {size : Nat} (hsize : 0 < size) (columns : Nat)
    {k : Nat} (hk : k < squareCount (draw colors size columns) size) :
    ShowsSquare (draw colors size columns) size k
      ((colors[k]?.map Pixel.opaqueOf).getD Pixel.transparent) := by
  have hwidth : (draw colors size columns).width / size = usedColumns colors.length columns :=
    Nat.mul_div_cancel _ hsize
  have hpos := usedColumns_pos colors.length columns
  rw [squareCount_draw colors hsize] at hk
  intro dx dy hdx hdy
  rw [hwidth]
  generalize hused : usedColumns colors.length columns = used at hk hpos
  have hinside : forall {a b d : Nat}, a < b -> d < size -> a * size + d < b * size := by
    intro a b d hab hd
    calc a * size + d < a * size + size := Nat.add_lt_add_left hd _
      _ = (a + 1) * size := (Nat.succ_mul a size).symm
      _ ≤ b * size := Nat.mul_le_mul_right size hab
  have hquotient : forall {a d : Nat}, d < size -> (a * size + d) / size = a := by
    intro a d hd
    rw [Nat.add_comm, Nat.add_mul_div_right d a hsize, Nat.div_eq_of_lt hd, Nat.zero_add]
  have hx : k % used * size + dx < (draw colors size columns).width := by
    show k % used * size + dx < usedColumns colors.length columns * size
    rw [hused]
    exact hinside (Nat.mod_lt k hpos) hdx
  have hy : k / used * size + dy < (draw colors size columns).height := by
    show k / used * size + dy < usedRows colors.length (usedColumns colors.length columns) * size
    rw [hused]
    exact hinside (Nat.div_lt_of_lt_mul (by rwa [Nat.mul_comm])) hdy
  rw [pixel?_draw colors hsize columns hx hy, hused, hquotient hdx, hquotient hdy,
    Nat.div_add_mod']

end Swatch
end Palette
