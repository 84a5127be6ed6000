import Cartograph.Proofs.Raster.Text

/-! Valid pictures. A color seen through a mask is mixed channel by channel, and each sum is rounded
for itself; the channels are cut at the alpha that was rounded before, so that none exceeds it. So
texts leave every pixel valid. They may miss a pixel where a picture has more than `2 ^ 31`. -/

namespace Cartograph

/-- No color channel exceeds alpha, which is a byte. -/
structure Pixel.IsPremultiplied (pixel : Pixel) : Prop where
  red : pixel.red ≤ pixel.alpha
  green : pixel.green ≤ pixel.alpha
  blue : pixel.blue ≤ pixel.alpha
  alpha : pixel.alpha ≤ 255

namespace Pixel

theorem isPremultiplied_transparent : transparent.IsPremultiplied := by
  constructor <;> decide

section Blend

variable (color : Rgba Nat) (opacity : Float32) (coverage : Nat) (below : Pixel)

/-- What is blended is always a pixel, whatever numbers take part. -/
theorem exists_blended : ∃ above, blend? color opacity coverage below = some above ∧
    (below.IsPremultiplied → above.IsPremultiplied) := by
  unfold blend?
  simp only
  split
  · exact ⟨below, rfl, id⟩
  · -- The total is a number even where the sum is none, and so are the channels cut at it.
    have total_number (mixed : Float32) : (Number.least mixed 255).isNaN = false :=
      (Number.singleToByte_least_le mixed 255 rfl).1
    have channel_le (mixed total : Float32) :=
      (Number.singleToByte_least_le mixed (Number.least total 255) (total_number total)).2
    refine ⟨_, if_pos ⟨channel_le _ _, channel_le _ _, channel_le _ _⟩, ?_⟩
    intro _
    exact ⟨channel_le _ _, channel_le _ _, channel_le _ _, Color.singleToByte_le _⟩

theorem blend?_eq : blend? color opacity coverage below =
    some (blend color opacity coverage below) := by
  obtain ⟨above, blended, -⟩ := exists_blended color opacity coverage below
  rw [blend, blended, Option.getD_some]

theorem IsPremultiplied.blend (valid : below.IsPremultiplied) :
    (Pixel.blend color opacity coverage below).IsPremultiplied := by
  obtain ⟨above, blended, keeps⟩ := exists_blended color opacity coverage below
  rw [blend?_eq, Option.some.injEq] at blended
  rw [blended]
  exact keeps valid

end Blend

end Pixel

namespace Layer

def IsPremultiplied (layer : Layer) : Prop :=
  ∀ x y pixel, layer.pixel? x y = some pixel → pixel.IsPremultiplied

theorem isPremultiplied_blank (width height : Nat) : (blank width height).IsPremultiplied := by
  intro x y pixel place
  obtain ⟨row, row_eq, column_eq⟩ := Option.bind_eq_some_iff.mp place
  obtain rfl := (Array.mem_replicate.mp (Array.mem_of_getElem? row_eq)).2
  rw [(Array.mem_replicate.mp (Array.mem_of_getElem? column_eq)).2]
  exact Pixel.isPremultiplied_transparent

theorem IsPremultiplied.change {layer : Layer} (valid : layer.IsPremultiplied) (number : Nat)
    (bytes : Rgba Nat) (opacity : Float32) (coverage : Nat) :
    (layer.change number (Pixel.blend bytes opacity coverage)).IsPremultiplied := by
  intro x y pixel place
  rw [pixel_change] at place
  obtain ⟨below, below_place, rfl⟩ := Option.map_eq_some_iff.mp place
  have below_valid := valid x y below below_place
  split
  · exact below_valid.blend bytes opacity coverage
  · exact below_valid

end Layer

namespace Raster

theorem Stamp.preserves_premultiplied (stamp : Stamp) (opacity : Float32) :
    Layer.Preserves Layer.IsPremultiplied (stamp.paint? opacity) :=
  stamp.preserves_paint opacity fun _ number coverage valid =>
    valid.change number stamp.color.bytes opacity coverage

/-- All layers are valid, also those of the groups that are open. -/
structure IsPremultiplied (raster : Raster) : Prop where
  base : raster.base.IsPremultiplied
  groups : ∀ group ∈ raster.groups, group.layer.IsPremultiplied

theorem isPremultiplied_create (width height : Float) (font : Option Font) (raster : Raster)
    (created : create width height font = .ok raster) : raster.IsPremultiplied := by
  obtain ⟨allocated, no_groups⟩ := allocate_of_create width height font raster created
  constructor
  · rw [blank_of_allocate _ _ _ allocated]
    exact Layer.isPremultiplied_blank _ _
  · rw [no_groups]
    exact fun _ none => absurd none List.not_mem_nil

namespace IsPremultiplied

variable {raster : Raster} (valid : raster.IsPremultiplied)

include valid

theorem paint? (f : Layer → Option Layer) (keeps : Layer.Preserves Layer.IsPremultiplied f) :
    (raster.paint? f).IsPremultiplied := by
  unfold Raster.paint?
  split
  · split
    · next painted found => exact ⟨keeps _ painted valid.base found, valid.groups⟩
    · exact ⟨valid.base, valid.groups⟩
  · next group outer opened =>
    have layers := valid.groups
    rw [opened, List.forall_mem_cons] at layers
    split
    · next painted found =>
      exact ⟨valid.base, List.forall_mem_cons.mpr ⟨keeps _ painted layers.1 found, layers.2⟩⟩
    · exact ⟨valid.base, valid.groups⟩

theorem paintText (text : String) (position : Point Float) (style : TextStyle) :
    (raster.paintText text position style).IsPremultiplied := by
  unfold Raster.paintText
  split
  · exact valid
  · exact valid.paint? _ (Layer.Preserves.foldlM _ fun stamp _ => stamp.preserves_premultiplied _)

end IsPremultiplied

end Raster

namespace Step

variable {ε : Type}

def IsText : Step ε → Prop
  | label _ _ _ => True
  | _ => False

theorem runAll_isPremultiplied (raster : Raster) (steps : List (Step ε))
    (texts : ∀ step ∈ steps, step.IsText) (valid : raster.IsPremultiplied) :
    (runAll raster steps).surface.IsPremultiplied := by
  induction steps generalizing raster with
  | nil => exact valid
  | cons step rest ih =>
    rw [List.forall_mem_cons] at texts
    cases step with
    | shape | group | leave | fail => exact texts.1.elim
    | label text position style =>
      rw [runAll, run]
      by_cases blank : text.isEmpty = true
      · rw [if_pos blank]
        exact ih raster texts.2 valid
      · rw [if_neg blank]
        exact ih _ texts.2 (valid.paintText text position style)

end Step

namespace Raster.Stamp

section Paint

variable (stamp : Stamp) (opacity : Float32) (layer : Layer)

/-- A layer is painted through a mask, and stays valid. -/
structure PaintsValid : Prop where
  blended : ∀ coverage below, (Pixel.blend? stamp.color.bytes opacity coverage below).isSome
  /-- A place of the mask is a place of its values. -/
  values : ∀ column < stamp.mask.width, ∀ row < stamp.mask.height,
    row * stamp.mask.width + column < stamp.mask.width * stamp.mask.height
  valid : ∀ painted, stamp.paint? opacity layer = some painted →
    painted.HasSize layer.width layer.height ∧ painted.IsPremultiplied
  /-- Pixels are missed where the number of one that is painted is computed as a negative one. -/
  missed : layer.height < 2 ^ 31 →
    ((stamp.paint? opacity layer).isSome ↔ stamp.IsInRange opacity layer.width layer.height)
  ranged : layer.width * layer.height ≤ 2 ^ 32 →
    (stamp.IsInRange opacity layer.width layer.height ↔
      stamp.IsNumbered opacity layer.width layer.height)
  numbered : layer.width * layer.height ≤ 2 ^ 31 →
    stamp.IsNumbered opacity layer.width layer.height
  /-- Each pixel is seen as much as the mask covers it, and nothing else changes. -/
  painted : layer.height < 2 ^ 31 → stamp.IsNumbered opacity layer.width layer.height →
    ∃ painted, stamp.paint? opacity layer = some painted ∧
      ∀ x y below, layer.pixel? x y = some below →
        painted.pixel? x y =
            Pixel.blend? stamp.color.bytes opacity (stamp.cover x y) below ∧
          (stamp.cover x y = 0 → painted.pixel? x y = some below)
  /-- The height of a taller layer is a negative number of 32 bits. -/
  tall : 2 ^ 31 ≤ layer.height → stamp.paint? opacity layer = some layer

section Unit

variable (unit : 0 ≤ opacity ∧ opacity ≤ 1) (fits : stamp.Fits)

include unit fits

theorem exists_painted (wide : layer.width < 2 ^ 31) (high : layer.height < 2 ^ 31)
    (numbered : stamp.IsNumbered opacity layer.width layer.height) :
    ∃ painted, stamp.paint? opacity layer = some painted ∧
      ∀ x y below, layer.pixel? x y = some below →
        painted.pixel? x y =
            Pixel.blend? stamp.color.bytes opacity (stamp.cover x y) below ∧
          (stamp.cover x y = 0 → painted.pixel? x y = some below) := by
  obtain ⟨painted, painted_eq, -, -, pixels⟩ :=
    stamp.recolors_paint opacity fits wide high numbered layer rfl rfl
  refine ⟨painted, painted_eq, ?_⟩
  intro x y below place
  have blended : painted.pixel? x y =
      Pixel.blend? stamp.color.bytes opacity (stamp.cover x y) below := by
    rw [pixels, place, Option.map_some, stamp.shade_eq opacity unit, Pixel.blend?_eq]
    rfl
  refine ⟨blended, ?_⟩
  intro uncovered
  rw [blended, uncovered]
  exact Pixel.blend?_uncovered _ _ (Color.isBytes_bytes stamp.color) opacity unit

/-- Painting through a mask gives valid layers. It misses no pixel as long as 32 bits hold the
numbers of those that are painted, as they do up to `2 ^ 31` pixels; then each is changed as much as
the mask covers it. Texts leave every picture valid. -/
theorem paint_keeps_valid (valid : layer.IsPremultiplied) (wide : layer.width ≤ largestWidth)
    (bound : layer.height < 2 ^ 32) :
    stamp.PaintsValid opacity layer ∧
    ∀ width height font raster, Raster.create width height font = .ok raster →
      ∀ {ε : Type} (steps : List (Step ε)), (∀ step ∈ steps, step.IsText) →
        (Step.runAll raster steps).surface.IsPremultiplied := by
  have wide_word : layer.width < 2 ^ 31 := wide.trans_lt (by decide)
  constructor
  · constructor
    case blended =>
      intro coverage below
      rw [Pixel.blend?_eq, Option.isSome_some]
    case values =>
      intro column column_inside row row_inside
      have inside := Coverage.index_lt stamp.mask.width (Int.ofNat_lt.mpr column_inside)
        (Int.ofNat_lt.mpr row_inside)
      exact_mod_cast inside
    case valid =>
      intro painted found
      exact ⟨stamp.preserves_size opacity _ _ layer painted ⟨rfl, rfl⟩ found,
        stamp.preserves_premultiplied opacity layer painted valid found⟩
    case missed =>
      intro high
      exact stamp.isSome_paint_iff opacity fits wide_word high layer ⟨rfl, rfl⟩
    case ranged => exact stamp.isInRange_iff_isNumbered opacity
    case numbered => exact stamp.isNumbered_of_small opacity
    case painted =>
      intro high numbered
      exact exists_painted stamp opacity layer unit fits wide_word high numbered
    case tall =>
      intro tall
      exact stamp.paint_of_tall opacity layer tall bound
  · intro width height font raster created ε steps texts
    exact Step.runAll_isPremultiplied raster steps texts
      (Raster.isPremultiplied_create width height font raster created)

end Unit

end Paint

/-- A square with one column to the left of a picture. One channel of its color is no number. -/
def square : Stamp := ⟨⟨2, 2, fun _ _ => 255⟩, -1, 0, ⟨1, 0 / 0, 0, 1⟩⟩

def channels (pixel : Pixel) : List Nat := [pixel.red, pixel.green, pixel.blue, pixel.alpha]

theorem square_clipped :
    ∃ painted, square.paint? 0.5 (Layer.blank 2 2) = some painted ∧ painted.IsPremultiplied ∧
      (painted.pixel? 0 0).map channels = some [128, 0, 0, 128] ∧
        painted.pixel? 1 0 = some Pixel.transparent := by
  have seen : (square.paint? 0.5 (Layer.blank 2 2)).bind
      (fun painted => (painted.pixel? 0 0).map channels) = some [128, 0, 0, 128] := by
    decide +kernel
  have fits : square.Fits := by constructor <;> decide
  have keeps := (paint_keeps_valid square 0.5 (Layer.blank 2 2) (by decide) fits
    (Layer.isPremultiplied_blank 2 2) (by decide) (by decide)).1
  obtain ⟨painted, painted_eq, pixels⟩ := keeps.painted (by decide) (keeps.numbered (by decide))
  rw [painted_eq] at seen
  exact ⟨painted, painted_eq, (keeps.valid painted painted_eq).2, seen, (pixels 1 0 _ rfl).2 rfl⟩

/-- A dot in the row that follows the first `2 ^ 31` pixels of a layer. -/
def farDot : Stamp := ⟨⟨1, 1, fun _ _ => 255⟩, 0, 2048, Color.black⟩

theorem farDot_missed :
    allocate 1048576 2049 = .ok (Layer.blank 1048576 2049) ∧
      (Layer.blank 1048576 2049).IsPremultiplied ∧ farDot.Fits ∧
        ((0 : Float32) ≤ 1 ∧ (1 : Float32) ≤ 1) ∧
          farDot.paint? 1 (Layer.blank 1048576 2049) = none := by
  have fits : farDot.Fits := by constructor <;> decide
  have paints : farDot.Paints 1 1048576 2049 0 0 :=
    ⟨by decide, by decide, by decide +kernel⟩
  have size : (Layer.blank 1048576 2049).HasSize 1048576 2049 := ⟨rfl, rfl⟩
  refine ⟨if_pos (by decide), Layer.isPremultiplied_blank _ _, fits, one_in_unit, ?_⟩
  rw [← Option.not_isSome_iff_eq_none,
    farDot.isSome_paint_iff 1 fits (by decide) (by decide) _ size]
  intro ranged
  exact absurd (ranged 0 (by decide) 0 (by decide) paints) (by decide +kernel)

end Raster.Stamp

end Cartograph
