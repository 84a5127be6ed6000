import Cartograph.Proofs.Raster.Blend
import Cartograph.Proofs.Raster.Dilation
import Cartograph.Raster.Basic

/-! Painting through masks. The places of a mask are written one by one, each to the pixel under
it, whose number is computed in 32 bits. As every pixel lies under one place at most, each is
changed for itself, unless a number is too large: then the pixel is missed. -/

namespace Cartograph

namespace Number

def IsWord (n : Int) : Prop := -2 ^ 31 ≤ n ∧ n < 2 ^ 31

instance (n : Int) : Decidable (IsWord n) := inferInstanceAs (Decidable (_ ∧ _))

theorem word_eq (n : Int) :
    word n = if n % 2 ^ 32 < 2 ^ 31 then n % 2 ^ 32 else n % 2 ^ 32 - 2 ^ 32 := Int.bmod_def n _

theorem word_of_isWord (n : Int) (small : IsWord n) : word n = n := by
  obtain ⟨low, high⟩ := small
  rw [word_eq]
  omega

theorem word_of_large (n : Int) (large : 2 ^ 31 ≤ n) (bound : n < 2 ^ 32) : word n < 0 := by
  rw [word_eq]
  omega

theorem word_le (n : Int) (nonneg : 0 ≤ n) : word n ≤ n := by
  rw [word_eq]
  omega

end Number

namespace Layer

section Places

variable (layer : Layer) (x y : Nat)

theorem inside_of_pixel (below : Pixel) (place : layer.pixel? x y = some below) :
    x < layer.width ∧ y < layer.height := by
  obtain ⟨row, row_eq, column_eq⟩ := Option.bind_eq_some_iff.mp place
  obtain ⟨column, -⟩ := Array.getElem?_eq_some_iff.mp column_eq
  obtain ⟨inside, -⟩ := Array.getElem?_eq_some_iff.mp row_eq
  rw [layer.row_size y row row_eq] at column
  rw [layer.row_count] at inside
  exact ⟨column, inside⟩

theorem map_pixel_congr {f g : Pixel → Pixel}
    (same : x < layer.width → y < layer.height → ∀ below, f below = g below) :
    (layer.pixel? x y).map f = (layer.pixel? x y).map g := by
  cases place : layer.pixel? x y with
  | none => rfl
  | some below =>
    obtain ⟨column, row⟩ := inside_of_pixel layer x y below place
    rw [Option.map_some, Option.map_some, same column row]

theorem pixel_change (f : Pixel → Pixel) (index : Nat) :
    (layer.change index f).pixel? x y = (layer.pixel? x y).map fun below =>
      if x = index % layer.width ∧ y = index / layer.width then f below else below := by
  change ((layer.rows.modify _ (·.modify _ f))[y]?).bind (·[x]?) = _
  rw [Array.getElem?_modify, pixel?]
  cases layer.rows[y]? with
  | none => split <;> rfl
  | some row =>
    by_cases row_here : index / layer.width = y
    · by_cases column_here : index % layer.width = x
      · simp [row_here, column_here, Array.getElem?_modify]
      · simp [row_here, column_here, Ne.symm column_here, Array.getElem?_modify]
    · simp [row_here, Ne.symm row_here]

end Places

section Change

variable (layer : Layer) (f : Pixel → Pixel)

theorem change_of_number (index : Nat) (inside : index < layer.width * layer.height) :
    layer.change? index f = some (layer.change index f) := if_pos inside

theorem change_of_some (painted : Layer) (index : Int)
    (changed : layer.change? index f = some painted) :
    ∃ number : Nat, painted = layer.change number f := by
  obtain ⟨number, -, found⟩ := Option.bind_eq_some_iff.mp changed
  split at found
  · exact ⟨number, (Option.some.inj found).symm⟩
  · cases found

theorem isSome_change_iff (index : Int) (below : index < (layer.width * layer.height : Nat)) :
    (layer.change? index f).isSome ↔ 0 ≤ index := by
  constructor
  · intro found
    by_contra negative
    obtain ⟨n, rfl⟩ := Int.eq_negSucc_of_lt_zero (not_le.mp negative)
    cases found
  · intro nonneg
    obtain ⟨number, rfl⟩ := Int.eq_ofNat_of_zero_le nonneg
    rw [change_of_number layer f number (by omega), Option.isSome_some]

end Change

section Loops

/-- A step that misses no pixel on layers of a size, and that changes each pixel for itself. -/
def Recolors (width height : Nat) (step : Layer → Option Layer)
    (recolor : Nat → Nat → Pixel → Pixel) : Prop :=
  ∀ layer : Layer, layer.width = width → layer.height = height →
    ∃ painted, step layer = some painted ∧ painted.width = width ∧ painted.height = height ∧
      ∀ x y, painted.pixel? x y = (layer.pixel? x y).map (recolor x y)

variable {width height : Nat}

theorem recolors_some : Recolors width height some fun _ _ => id :=
  fun layer wide high => ⟨layer, rfl, wide, high, fun _ _ => Option.map_id_apply.symm⟩

theorem Recolors.congr {step other : Layer → Option Layer}
    {recolor changed : Nat → Nat → Pixel → Pixel} (base : Recolors width height step recolor)
    (steps : ∀ layer, layer.width = width → layer.height = height → other layer = step layer)
    (same : ∀ x < width, ∀ y < height, ∀ below, recolor x y below = changed x y below) :
    Recolors width height other changed := by
  intro layer wide high
  obtain ⟨painted, painted_eq, painted_wide, painted_high, pixels⟩ := base layer wide high
  refine ⟨painted, (steps layer wide high).trans painted_eq, painted_wide, painted_high, ?_⟩
  subst wide high
  intro x y
  rw [pixels]
  exact map_pixel_congr layer x y fun column row => same x column y row

theorem Recolors.foldlM {α : Type} {step : Layer → α → Option Layer}
    {recolor : α → Nat → Nat → Pixel → Pixel} (items : List α)
    (steps : ∀ item ∈ items, Recolors width height (step · item) (recolor item)) :
    Recolors width height (items.foldlM step) fun x y below =>
      items.foldl (fun below item => recolor item x y below) below := by
  induction items with
  | nil =>
    intro layer wide high
    exact ⟨layer, rfl, wide, high, fun _ _ => Option.map_id'.symm⟩
  | cons item rest ih =>
    rw [List.forall_mem_cons] at steps
    intro layer wide high
    obtain ⟨first, (first_eq : step layer item = some first), first_wide, first_high, changed⟩ :=
      steps.1 layer wide high
    obtain ⟨last, last_eq, last_wide, last_high, left⟩ := ih steps.2 first first_wide first_high
    refine ⟨last, ?_, last_wide, last_high, ?_⟩
    · change (item :: rest).foldlM step layer = some last
      rw [List.foldlM_cons, first_eq]
      exact last_eq
    · intro x y
      rw [left, changed, Option.map_map]
      rfl

def HasSize (width height : Nat) (layer : Layer) : Prop :=
  layer.width = width ∧ layer.height = height

/-- A property of layers that a step keeps unless it misses a pixel. -/
def Preserves (kept : Layer → Prop) (step : Layer → Option Layer) : Prop :=
  ∀ layer painted, kept layer → step layer = some painted → kept painted

section Preserves

variable {α : Type} {kept : Layer → Prop} {step : Layer → α → Option Layer} (items : List α)
  (steps : ∀ item ∈ items, Preserves kept (step · item))

include steps

theorem Preserves.foldlM : Preserves kept (items.foldlM step) := by
  induction items with
  | nil =>
    intro layer painted start found
    cases found
    exact start
  | cons item rest ih =>
    rw [List.forall_mem_cons] at steps
    intro layer painted start found
    change (item :: rest).foldlM step layer = some painted at found
    rw [List.foldlM_cons, Option.bind_eq_bind, Option.bind_eq_some_iff] at found
    obtain ⟨first, first_eq, later⟩ := found
    exact ih steps.2 first painted (steps.1 layer first start first_eq) later

/-- A run of steps misses a pixel if one of them does, whatever the others paint. -/
theorem isSome_foldlM_iff {hits : α → Prop}
    (each : ∀ item ∈ items, ∀ layer, kept layer → ((step layer item).isSome ↔ hits item))
    (layer : Layer) (start : kept layer) :
    (items.foldlM step layer).isSome ↔ ∀ item ∈ items, hits item := by
  induction items generalizing layer with
  | nil => exact iff_of_true rfl fun _ none => absurd none List.not_mem_nil
  | cons item rest ih =>
    rw [List.forall_mem_cons] at steps each
    rw [List.foldlM_cons, List.forall_mem_cons, ← each.1 layer start]
    cases found : step layer item with
    | none => exact iff_of_false Bool.false_ne_true fun both => Bool.false_ne_true both.1
    | some first =>
      have later := ih steps.2 each.2 first (steps.1 layer first start found)
      rw [Option.isSome_some, eq_self_iff_true, true_and]
      exact later

end Preserves

theorem foldlM_of_stays {α : Type} {step : Layer → α → Option Layer} (items : List α)
    (layer : Layer) (stays : ∀ item ∈ items, step layer item = some layer) :
    items.foldlM step layer = some layer := by
  induction items with
  | nil => rfl
  | cons item rest ih =>
    rw [List.forall_mem_cons] at stays
    rw [List.foldlM_cons, stays.1]
    exact ih stays.2

theorem foldl_range_single {α : Type} (count : Nat) (place : Int) (change : Nat → α → α)
    (others : ∀ i : Nat, (i : Int) ≠ place → ∀ a, change i a = a) (start : α) :
    (List.range count).foldl (fun a i => change i a) start =
      if 0 ≤ place ∧ place < count then change place.toNat start else start := by
  induction count with
  | zero => exact (if_neg (by omega)).symm
  | succ count ih =>
    rw [List.range_succ, List.foldl_append, List.foldl_cons, List.foldl_nil, ih]
    by_cases here : (count : Int) = place
    · rw [if_neg (by omega), if_pos (by omega), ← here, Int.toNat_natCast]
    · rw [others count here]
      congr 1
      exact propext (by omega)

end Loops

end Layer

namespace Raster.Stamp

open Number

variable (stamp : Stamp) (opacity : Float32)

structure Fits : Prop where
  left : IsWord stamp.left
  top : IsWord stamp.top
  right : IsWord (stamp.left + stamp.mask.width)
  bottom : IsWord (stamp.top + stamp.mask.height)

/-- A place of a mask under which there is a pixel, and where something is seen. -/
structure Paints (width height column row : Nat) : Prop where
  column_inside : 0 ≤ stamp.left + column ∧ stamp.left + column < width
  row_inside : 0 ≤ stamp.top + row ∧ stamp.top + row < height
  seen : ¬ Pixel.seen stamp.color.bytes opacity (stamp.mask.value column row) ≤ 0

def number (width column row : Nat) : Int :=
  (stamp.top + row) * width + (stamp.left + column)

/-- The pixels under all places that are painted have numbers of 32 bits. -/
def IsNumbered (width height : Nat) : Prop :=
  ∀ column < stamp.mask.width, ∀ row < stamp.mask.height,
    stamp.Paints opacity width height column row → stamp.number width column row < 2 ^ 31

/-- Computed in 32 bits, these numbers are no negative ones. -/
def IsInRange (width height : Nat) : Prop :=
  ∀ column < stamp.mask.width, ∀ row < stamp.mask.height,
    stamp.Paints opacity width height column row → 0 ≤ word (stamp.number width column row)

def shade (x y : Nat) (below : Pixel) : Pixel :=
  match stamp.mask.at? (x - stamp.left) (y - stamp.top) with
  | some coverage => Pixel.blend stamp.color.bytes opacity coverage below
  | none => below

/-- Places that are not covered are left as they are, inside of the mask and beside it. -/
theorem shade_eq (unit : 0 ≤ opacity ∧ opacity ≤ 1) (x y : Nat) (below : Pixel) :
    stamp.shade opacity x y below = Pixel.blend stamp.color.bytes opacity
      (stamp.mask.cover (x - stamp.left) (y - stamp.top)) below := by
  unfold shade Coverage.cover
  cases stamp.mask.at? (x - stamp.left) (y - stamp.top) with
  | some coverage => rfl
  | none => exact (Pixel.blend_uncovered _ _ (Color.isBytes_bytes stamp.color) opacity unit).symm

section Numbers

variable {width height : Nat}

theorem number_range (column row : Nat) (paints : stamp.Paints opacity width height column row) :
    0 ≤ stamp.number width column row ∧ stamp.number width column row < (width * height : Nat) := by
  obtain ⟨⟨left, right⟩, ⟨top, bottom⟩, -⟩ := paints
  rw [number, Int.natCast_mul]
  exact ⟨by positivity, Coverage.index_lt width right bottom⟩

theorem isNumbered_of_small (small : width * height ≤ 2 ^ 31) :
    stamp.IsNumbered opacity width height := by
  intro column _ row _ paints
  have inside := (stamp.number_range opacity column row paints).2
  omega

/-- Below `2 ^ 32` pixels a number that 32 bits do not hold is computed as a negative one. -/
theorem isInRange_iff_isNumbered (small : width * height ≤ 2 ^ 32) :
    stamp.IsInRange opacity width height ↔ stamp.IsNumbered opacity width height := by
  constructor
  · intro ranged column column_inside row row_inside paints
    by_contra large
    have inside := (stamp.number_range opacity column row paints).2
    have negative := word_of_large _ (not_lt.mp large) (by omega)
    exact absurd (ranged column column_inside row row_inside paints) (not_le.mpr negative)
  · intro numbered column column_inside row row_inside paints
    have nonneg := (stamp.number_range opacity column row paints).1
    rw [word_of_isWord _ ⟨by omega, numbered column column_inside row row_inside paints⟩]
    exact nonneg

end Numbers

section Preserves

variable {kept : Layer → Prop} (changes : ∀ layer number coverage, kept layer →
  kept (layer.change number (Pixel.blend stamp.color.bytes opacity coverage)))

include changes

theorem preserves_mark (row column : Nat) (y : Int) : Layer.Preserves kept
    (Layer.mark? stamp.mask stamp.left stamp.color.bytes opacity row y · column) := by
  intro layer painted start found
  simp only [Layer.mark?] at found
  split at found
  · obtain ⟨number, rfl⟩ := Layer.change_of_some _ _ _ _ found
    exact changes layer number _ start
  · cases found
    exact start

theorem preserves_markRow (row : Nat) : Layer.Preserves kept
    (Layer.markRow? stamp.mask stamp.left stamp.top stamp.color.bytes opacity · row) := by
  intro layer painted start found
  simp only [Layer.markRow?] at found
  split at found
  · refine Layer.Preserves.foldlM _ ?_ layer painted start found
    exact fun column _ => stamp.preserves_mark opacity changes row column _
  · cases found
    exact start

theorem preserves_paint : Layer.Preserves kept (stamp.paint? opacity) :=
  Layer.Preserves.foldlM _ fun row _ => stamp.preserves_markRow opacity changes row

end Preserves

theorem preserves_size (width height : Nat) :
    Layer.Preserves (Layer.HasSize width height) (stamp.paint? opacity) :=
  stamp.preserves_paint opacity fun _ _ _ => id

/-- Rows are compared with a height of 32 bits, so there are none below a negative one. -/
theorem paint_of_tall (layer : Layer) (tall : 2 ^ 31 ≤ layer.height)
    (bound : layer.height < 2 ^ 32) : stamp.paint? opacity layer = some layer := by
  have negative := word_of_large layer.height (by omega) (by omega)
  apply Layer.foldlM_of_stays
  intro row _
  exact if_neg fun ⟨low, below⟩ => absurd (low.trans_lt below) negative.not_gt

section Rows

variable {width height : Nat} (fits : stamp.Fits) (wide : width < 2 ^ 31) (row : Nat)
  (inside : 0 ≤ stamp.top + row ∧ stamp.top + row < height)

include fits wide inside

theorem mark_eq (column : Nat) (member : column < stamp.mask.width) (layer : Layer)
    (layer_wide : layer.width = width) :
    (stamp.Paints opacity width height column row →
      layer.mark? stamp.mask stamp.left stamp.color.bytes opacity row (stamp.top + row) column =
        layer.change? (word (stamp.number width column row))
          (Pixel.blend stamp.color.bytes opacity (stamp.mask.value column row))) ∧
    (¬ stamp.Paints opacity width height column row →
      layer.mark? stamp.mask stamp.left stamp.color.bytes opacity row (stamp.top + row) column =
        some layer) := by
  subst layer_wide
  obtain ⟨⟨low, -⟩, -, ⟨-, high⟩, -⟩ := fits
  have column_word : word (stamp.left + column) = stamp.left + column :=
    word_of_isWord _ ⟨by omega, by omega⟩
  have width_word : word layer.width = layer.width := word_of_isWord _ ⟨by omega, by omega⟩
  simp only [Layer.mark?, column_word, width_word]
  constructor
  · rintro ⟨⟨left, right⟩, -, seen⟩
    exact if_pos ⟨left, right, seen⟩
  · intro unpainted
    exact if_neg fun ⟨left, right, seen⟩ => unpainted ⟨⟨left, right⟩, inside, seen⟩

theorem recolors_mark (column : Nat) (member : column < stamp.mask.width)
    (numbered : stamp.Paints opacity width height column row →
      stamp.number width column row < 2 ^ 31) :
    Layer.Recolors width height
      (Layer.mark? stamp.mask stamp.left stamp.color.bytes opacity row (stamp.top + row) · column)
      fun x y below => if (column : Int) = x - stamp.left ∧ (row : Int) = y - stamp.top then
        Pixel.blend stamp.color.bytes opacity (stamp.mask.value column row) below
      else below := by
  have marks := stamp.mark_eq opacity fits wide row inside column member
  by_cases paints : stamp.Paints opacity width height column row
  · intro layer layer_wide layer_high
    subst layer_wide layer_high
    have range := stamp.number_range opacity column row paints
    obtain ⟨i, i_eq⟩ := Int.eq_ofNat_of_zero_le paints.column_inside.1
    obtain ⟨j, j_eq⟩ := Int.eq_ofNat_of_zero_le paints.row_inside.1
    have column_inside := paints.column_inside.2
    have index : stamp.number layer.width column row = (j * layer.width + i : Nat) := by
      rw [number, i_eq, j_eq]
      push_cast
      rfl
    have index_word : word (stamp.number layer.width column row) = (j * layer.width + i : Nat) := by
      rw [word_of_isWord _ ⟨by omega, numbered paints⟩, index]
    refine ⟨layer.change (j * layer.width + i)
      (Pixel.blend stamp.color.bytes opacity (stamp.mask.value column row)), ?_, rfl, rfl, ?_⟩
    · refine ((marks layer rfl).1 paints).trans ?_
      rw [index_word]
      exact Layer.change_of_number layer _ _ (by omega)
    · intro x y
      have column_eq : (j * layer.width + i) % layer.width = i := by
        rw [Nat.add_comm, Nat.add_mul_mod_self_right, Nat.mod_eq_of_lt (by omega)]
      have row_eq : (j * layer.width + i) / layer.width = j := by
        rw [Nat.add_comm, Nat.add_mul_div_right i j (by omega), Nat.div_eq_of_lt (by omega),
          Nat.zero_add]
      have here : (x = i ∧ y = j) ↔
          (column : Int) = x - stamp.left ∧ (row : Int) = y - stamp.top := by omega
      rw [Layer.pixel_change, column_eq, row_eq]
      simp only [here]
  · apply Layer.recolors_some.congr
    · intro layer layer_wide _
      exact (marks layer layer_wide).2 paints
    · intro x column_inside y _ below
      -- A place above a pixel is left out only where nothing is seen.
      split
      · next here =>
        by_contra changed
        refine paints ⟨by omega, inside, fun unseen => changed ?_⟩
        exact (Pixel.blend_unseen _ below opacity _ unseen).symm
      · rfl

theorem isSome_mark_iff (column : Nat) (member : column < stamp.mask.width) (layer : Layer)
    (layer_wide : layer.width = width) (layer_high : layer.height = height) :
    (layer.mark? stamp.mask stamp.left stamp.color.bytes opacity row (stamp.top + row)
        column).isSome ↔
      (stamp.Paints opacity width height column row →
        0 ≤ word (stamp.number width column row)) := by
  have marks := stamp.mark_eq opacity fits wide row inside column member layer layer_wide
  by_cases paints : stamp.Paints opacity width height column row
  · obtain ⟨low, high⟩ := stamp.number_range opacity column row paints
    have below := (word_le _ low).trans_lt high
    rw [marks.1 paints, Layer.isSome_change_iff _ _ _ (by rwa [layer_wide, layer_high])]
    exact (imp_iff_right paints).symm
  · rw [marks.2 paints]
    exact iff_of_true rfl fun painted => absurd painted paints

end Rows

section Loops

variable {width height : Nat} (fits : stamp.Fits) (wide : width < 2 ^ 31) (high : height < 2 ^ 31)

include fits high

theorem markRow_eq (row : Nat) (member : row < stamp.mask.height) (layer : Layer)
    (layer_high : layer.height = height) :
    layer.markRow? stamp.mask stamp.left stamp.top stamp.color.bytes opacity row =
      if 0 ≤ stamp.top + row ∧ stamp.top + row < height then
        (List.range stamp.mask.width).foldlM
          (Layer.mark? stamp.mask stamp.left stamp.color.bytes opacity row (stamp.top + row)) layer
      else some layer := by
  subst layer_high
  obtain ⟨-, ⟨low, -⟩, -, ⟨-, bottom⟩⟩ := fits
  have row_word : word (stamp.top + row) = stamp.top + row := word_of_isWord _ ⟨by omega, by omega⟩
  have height_word : word layer.height = layer.height := word_of_isWord _ ⟨by omega, by omega⟩
  simp only [Layer.markRow?, row_word, height_word]

include wide

theorem recolors_row (row : Nat) (member : row < stamp.mask.height)
    (numbered : stamp.IsNumbered opacity width height) :
    Layer.Recolors width height
      (Layer.markRow? stamp.mask stamp.left stamp.top stamp.color.bytes opacity · row)
      fun x y below =>
        if (row : Int) = y - stamp.top ∧ 0 ≤ x - stamp.left ∧
            x - stamp.left < stamp.mask.width then
          Pixel.blend stamp.color.bytes opacity
            (stamp.mask.value (x - stamp.left).toNat row) below
        else below := by
  by_cases inside : 0 ≤ stamp.top + row ∧ stamp.top + row < height
  · have marks := Layer.Recolors.foldlM (List.range stamp.mask.width) fun column listed =>
      have column_inside := List.mem_range.mp listed
      stamp.recolors_mark opacity fits wide row inside column column_inside
        (numbered column column_inside row member)
    apply marks.congr
    · intro layer _ layer_high
      exact (stamp.markRow_eq opacity fits high row member layer layer_high).trans (if_pos inside)
    · intro x _ y _ below
      refine (Layer.foldl_range_single stamp.mask.width (x - stamp.left) _ (fun i apart below =>
        if_neg fun here => apart here.1) below).trans ?_
      by_cases reached : 0 ≤ x - stamp.left ∧ x - stamp.left < stamp.mask.width
      · simp only [Int.toNat_of_nonneg reached.1, reached, true_and, and_true, if_true]
      · rw [if_neg reached, if_neg fun here => reached here.2]
  · apply Layer.recolors_some.congr
    · intro layer _ layer_high
      exact (stamp.markRow_eq opacity fits high row member layer layer_high).trans (if_neg inside)
    · intro x _ y row_inside below
      exact (if_neg (by omega)).symm

/-- Where all numbers have 32 bits, no pixel is missed. -/
theorem recolors_paint (numbered : stamp.IsNumbered opacity width height) :
    Layer.Recolors width height (stamp.paint? opacity) (stamp.shade opacity) := by
  have rows := Layer.Recolors.foldlM (List.range stamp.mask.height) fun row listed =>
    stamp.recolors_row opacity fits wide high row (List.mem_range.mp listed) numbered
  apply rows.congr
  · intro layer _ _
    rfl
  · intro x _ y _ below
    refine (Layer.foldl_range_single stamp.mask.height (y - stamp.top) _ (fun i apart below =>
      if_neg fun here => apart here.1) below).trans ?_
    unfold shade Coverage.at?
    by_cases reached : 0 ≤ y - stamp.top ∧ y - stamp.top < stamp.mask.height
    · rw [if_pos reached]
      by_cases met : 0 ≤ x - stamp.left ∧ x - stamp.left < stamp.mask.width
      · rw [if_pos ⟨Int.toNat_of_nonneg reached.1, met⟩, if_pos ⟨met.1, met.2, reached⟩]
      · rw [if_neg fun here => met here.2, if_neg fun here => met ⟨here.1, here.2.1⟩]
    · rw [if_neg reached, if_neg fun here => reached here.2.2]

theorem isSome_markRow_iff (row : Nat) (member : row < stamp.mask.height) (layer : Layer)
    (size : layer.HasSize width height) :
    (layer.markRow? stamp.mask stamp.left stamp.top stamp.color.bytes opacity row).isSome ↔
      ∀ column < stamp.mask.width, stamp.Paints opacity width height column row →
        0 ≤ word (stamp.number width column row) := by
  rw [stamp.markRow_eq opacity fits high row member layer size.2]
  by_cases inside : 0 ≤ stamp.top + row ∧ stamp.top + row < height
  · rw [if_pos inside]
    have marks := Layer.isSome_foldlM_iff (List.range stamp.mask.width)
      (fun column _ => stamp.preserves_mark opacity (fun _ _ _ => id) row column (stamp.top + row))
      (fun column listed layer size => stamp.isSome_mark_iff opacity fits wide row inside column
        (List.mem_range.mp listed) layer size.1 size.2) layer size
    simpa only [List.mem_range] using marks
  · rw [if_neg inside]
    exact iff_of_true rfl fun _ _ paints => absurd paints.row_inside inside

/-- A pixel is missed where a number is computed as a negative one, and nowhere else. -/
theorem isSome_paint_iff (layer : Layer) (size : layer.HasSize width height) :
    (stamp.paint? opacity layer).isSome ↔ stamp.IsInRange opacity width height := by
  have rows := Layer.isSome_foldlM_iff (List.range stamp.mask.height)
    (fun row _ => stamp.preserves_markRow opacity (fun _ _ _ => id) row)
    (fun row listed layer size => stamp.isSome_markRow_iff opacity fits wide high row
      (List.mem_range.mp listed) layer size) layer size
  simp only [List.mem_range] at rows
  exact rows.trans ⟨fun all column inside row member => all row member column inside,
    fun all row member column inside => all column inside row member⟩

end Loops

end Raster.Stamp

end Cartograph
