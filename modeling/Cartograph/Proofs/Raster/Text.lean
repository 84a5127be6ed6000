import Cartograph.Proofs.Raster.Painting

/-! Texts with an outline. Each glyph is painted right after its own outline, and so the outline
lies under this glyph but over the glyphs before it: of those, what the later outlines reach is
lost. -/

namespace Cartograph

def Font.IsBytes (font : Font) : Prop :=
  ∀ c size i j, (font.glyph c size).mask.value i j ≤ 255

namespace Raster

def target (raster : Raster) : Layer :=
  match raster.groups with
  | [] => raster.base
  | group :: _ => group.layer

theorem paint_of_some (f : Layer → Option Layer) (raster : Raster) (painted : Layer)
    (found : f raster.target = some painted) :
    (raster.paint? f).target = painted ∧ (raster.paint? f).isLost = raster.isLost := by
  unfold target at found
  unfold paint? target
  cases opened : raster.groups with
  | nil =>
    rw [opened] at found
    simp only at found
    simp only [found, and_self]
  | cons group outer =>
    rw [opened] at found
    simp only at found
    simp only [found, and_self]

namespace Stamp

theorem one_in_unit : (0 : Float32) ≤ 1 ∧ (1 : Float32) ≤ 1 := by decide

def cover (stamp : Stamp) (x y : Int) : Nat :=
  stamp.mask.cover (x - stamp.left) (y - stamp.top)

def onto (x y : Int) (below : Pixel) (stamp : Stamp) : Pixel :=
  Pixel.blend stamp.color.bytes 1 (stamp.cover x y) below

/-- A color stays as it is under a stamp that misses it or has this color itself. -/
def Spares (color : Rgba Nat) (x y : Int) (stamp : Stamp) : Prop :=
  stamp.cover x y = 0 ∨ stamp.color.bytes = color ∧ stamp.cover x y ≤ 255

section Onto

variable (x y : Int) (below : Pixel)

theorem foldl_isBytes (stamps : List Stamp) (bytes : below.IsBytes) :
    (stamps.foldl (onto x y) below).IsBytes := by
  induction stamps generalizing below with
  | nil => exact bytes
  | cons stamp rest ih => exact ih _ (Pixel.blend_isBytes _ _ _ _ bytes)

theorem onto_of_spares (color : Color) (stamp : Stamp) (solid : color.bytes.alpha = 255)
    (spares : stamp.Spares color.bytes x y) : stamp.onto x y color.bytes = color.bytes := by
  rcases spares with missed | ⟨same, covers⟩
  · rw [onto, missed]
    exact Pixel.blend_uncovered _ _ (Color.isBytes_bytes _) 1 one_in_unit
  · rw [onto, same]
    exact Pixel.blend_self _ (Color.isBytes_bytes _) _ solid covers

theorem foldl_of_spares (color : Color) (stamps : List Stamp) (solid : color.bytes.alpha = 255)
    (spares : ∀ stamp ∈ stamps, stamp.Spares color.bytes x y) :
    stamps.foldl (onto x y) color.bytes = color.bytes := by
  induction stamps with
  | nil => rfl
  | cons stamp rest ih =>
    rw [List.forall_mem_cons] at spares
    rw [List.foldl_cons, onto_of_spares x y color stamp solid spares.1]
    exact ih spares.2

/-- The last stamp that covers a pixel fully decides, unless a later one changes its color. -/
theorem foldl_last (before later : List Stamp) (stamp : Stamp) (bytes : below.IsBytes)
    (solid : stamp.color.bytes.alpha = 255) (covers : stamp.cover x y = 255)
    (spares : ∀ other ∈ later, other.Spares stamp.color.bytes x y) :
    (before ++ stamp :: later).foldl (onto x y) below = stamp.color.bytes := by
  have replaced : stamp.onto x y (before.foldl (onto x y) below) = stamp.color.bytes := by
    rw [onto, covers]
    exact Pixel.blend_full _ _ (Color.isBytes_bytes _) solid (foldl_isBytes x y below before bytes)
  rw [List.foldl_append, List.foldl_cons, replaced]
  exact foldl_of_spares x y stamp.color later solid spares

end Onto

theorem recolors_onto (width height : Nat) (stamps : List Stamp)
    (sides : width < 2 ^ 31 ∧ height < 2 ^ 31) (small : width * height ≤ 2 ^ 31)
    (fits : ∀ stamp ∈ stamps, stamp.Fits) :
    Layer.Recolors width height (stamps.foldlM (Stamp.paint? 1)) fun x y below =>
      stamps.foldl (onto x y) below := by
  have each (x y : Nat) : (fun below (stamp : Stamp) => stamp.shade 1 x y below) = onto x y := by
    funext below stamp
    exact stamp.shade_eq 1 one_in_unit x y below
  have paint := Layer.Recolors.foldlM stamps fun stamp listed => stamp.recolors_paint 1
    (fits stamp listed) sides.1 sides.2 (stamp.isNumbered_of_small 1 small)
  simp only [each] at paint
  exact paint

end Stamp

structure Letter where
  glyph : Glyph
  left : Int
  top : Int

def lettersFrom (baseline x : Float32) : List Glyph → List Letter
  | [] => []
  | glyph :: rest =>
    let height := Float32.ofInt glyph.bottom + Float32.ofNat glyph.mask.height
    { glyph
      left := Number.singleToPixel (Number.roundSingle (x + Float32.ofInt glyph.left))
      top := Number.singleToPixel (Number.roundSingle (baseline - height)) } ::
      lettersFrom baseline (x + glyph.advance) rest

def letters (font : Font) (text : String) (position : Point Float) (style : TextStyle) :
    List Letter :=
  let glyphs := text.toList.map fun c => font.glyph c (Number.toSingle style.size)
  let advance := Ring.sum (glyphs.map (·.advance))
  let before := match style.anchor with
    | .start => 0
    | .middle => advance / 2
    | .finish => advance
  lettersFrom (Number.toSingle position.y) (Number.toSingle position.x - before) glyphs

namespace Letter

def cover (letter : Letter) (x y : Int) : Nat :=
  letter.glyph.mask.cover (x - letter.left) (y - letter.top)

def body (style : TextStyle) (letter : Letter) : Stamp :=
  ⟨letter.glyph.mask, letter.left, letter.top, style.fill⟩

def outline (style : TextStyle) (stroke : Color) (letter : Letter) : Stamp :=
  let radius := outlineRadius style
  ⟨letter.glyph.mask.dilate radius, letter.left - radius, letter.top - radius, stroke⟩

def stamps (style : TextStyle) (letter : Letter) : List Stamp :=
  (style.stroke.toList.map fun stroke => letter.outline style stroke) ++ [letter.body style]

/-- The outline of a letter covers at least this much of a place: so much of some place within
reach is covered by the letter itself. -/
def Outlines (style : TextStyle) (amount : Nat) (x y : Int) (letter : Letter) : Prop :=
  style.stroke.isSome ∧
    ∃ i j, Coverage.IsWithin (outlineRadius style) x y i j ∧ amount ≤ letter.cover i j

section Outline

variable (style : TextStyle) (stroke : Color) (letter : Letter) (x y : Int)

theorem cover_outline_le_iff (bound : Nat) : (letter.outline style stroke).cover x y ≤ bound ↔
    ∀ i j, Coverage.IsWithin (outlineRadius style) x y i j → letter.cover i j ≤ bound := by
  have shifted : (letter.outline style stroke).cover x y =
      (letter.glyph.mask.dilate (outlineRadius style)).cover
        (x - letter.left + outlineRadius style) (y - letter.top + outlineRadius style) := by
    rw [sub_add, sub_add]
    rfl
  have moved (i j : Int) :
      Coverage.IsWithin (outlineRadius style) (x - letter.left) (y - letter.top)
        (i - letter.left) (j - letter.top) ↔
      Coverage.IsWithin (outlineRadius style) x y i j := by
    rw [Coverage.IsWithin, Coverage.IsWithin, sub_sub_sub_cancel_right, sub_sub_sub_cancel_right]
  rw [shifted, Coverage.cover_dilate_le_iff]
  constructor
  · intro most i j near
    exact most _ _ ((moved i j).mpr near)
  · intro most i j near
    have back := most (i + letter.left) (j + letter.top)
    rw [← moved, cover, add_sub_cancel_right, add_sub_cancel_right] at back
    exact back near

theorem le_cover_outline_iff (amount : Nat) (positive : 0 < amount)
    (stroked : style.stroke = some stroke) :
    amount ≤ (letter.outline style stroke).cover x y ↔ letter.Outlines style amount x y := by
  have below := cover_outline_le_iff style stroke letter x y (amount - 1)
  have some_stroke : style.stroke.isSome = true := by rw [stroked, Option.isSome_some]
  rw [Outlines, ← not_iff_not, not_le, not_and, not_exists]
  constructor
  · intro less _ i ⟨j, near, most⟩
    have := below.mp (by omega) i j near
    omega
  · intro none
    have := below.mpr fun i j near => by
      by_contra more
      exact none some_stroke i ⟨j, near, by omega⟩
    omega

variable (masks : ∀ i j, letter.glyph.mask.value i j ≤ 255)

include masks

theorem body_spares_fill : (letter.body style).Spares style.fill.bytes x y :=
  Or.inr ⟨rfl, Coverage.cover_le _ _ _ 255 masks⟩

theorem outline_spares_stroke : (letter.outline style stroke).Spares stroke.bytes x y := by
  refine Or.inr ⟨rfl, (cover_outline_le_iff style stroke letter x y 255).mpr ?_⟩
  intro i j _
  exact Coverage.cover_le _ _ _ 255 masks

theorem stamps_spare_fill (apart : ¬ letter.Outlines style 1 x y) :
    ∀ stamp ∈ letter.stamps style, stamp.Spares style.fill.bytes x y := by
  intro stamp member
  rcases List.mem_append.mp member with edge | inner
  · obtain ⟨stroke, listed, rfl⟩ := List.mem_map.mp edge
    have stroked : style.stroke = some stroke := Option.mem_toList.mp listed
    have reaches := le_cover_outline_iff style stroke letter x y 1 one_pos stroked
    left
    rw [← reaches] at apart
    omega
  · rw [List.mem_singleton.mp inner]
    exact body_spares_fill style letter x y masks

theorem stamps_spare_stroke (stroked : style.stroke = some stroke)
    (apart : letter.cover x y = 0) :
    ∀ stamp ∈ letter.stamps style, stamp.Spares stroke.bytes x y := by
  intro stamp member
  rcases List.mem_append.mp member with edge | inner
  · obtain ⟨other, listed, rfl⟩ := List.mem_map.mp edge
    obtain rfl : stroke = other := by
      rw [stroked, Option.toList_some, List.mem_singleton] at listed
      exact listed.symm
    exact outline_spares_stroke style stroke letter x y masks
  · rw [List.mem_singleton.mp inner]
    exact Or.inl apart

end Outline

end Letter

section Letters

variable (font : Font) (text : String) (position : Point Float) (style : TextStyle)

/-- An outline that ends within 32 bits begins there. -/
theorem word_of_grown (n : Int) (size reach : Nat) (inside : Number.IsWord n)
    (fits : Number.IsWord (Number.word (n - reach) + (size + 2 * reach : Nat))) :
    Number.word (n - reach) = n - reach := by
  apply Number.word_of_isWord
  rw [Number.word_eq] at fits
  unfold Number.IsWord at *
  omega

theorem stampsOf_eq (glyph : Glyph) (left top : Int)
    (fits : ∀ stamp ∈ stampsOf style glyph left top, stamp.Fits) :
    stampsOf style glyph left top = Letter.stamps style ⟨glyph, left, top⟩ := by
  unfold stampsOf at fits
  unfold stampsOf Letter.stamps
  cases stroked : style.stroke with
  | none => rfl
  | some stroke =>
    rw [stroked] at fits
    have edge := fits _ List.mem_cons_self
    have inner := fits _ (List.mem_cons_of_mem _ List.mem_cons_self)
    obtain ⟨wide, high, -⟩ := glyph.mask.dilate_grown (outlineRadius style)
    have right := edge.right
    have bottom := edge.bottom
    simp only [wide, high] at right bottom
    have left_eq := word_of_grown left _ _ inner.left right
    have top_eq := word_of_grown top _ _ inner.top bottom
    simp only [left_eq, top_eq]
    rfl

theorem stampsFrom_eq (baseline x : Float32) (glyphs : List Glyph)
    (fits : ∀ stamp ∈ stampsFrom style baseline x glyphs, stamp.Fits) :
    stampsFrom style baseline x glyphs =
      (lettersFrom baseline x glyphs).flatMap (Letter.stamps style) := by
  induction glyphs generalizing x with
  | nil => rfl
  | cons glyph rest ih =>
    rw [stampsFrom, List.forall_mem_append] at fits
    rw [stampsFrom, lettersFrom, List.flatMap_cons, ← ih _ fits.2, stampsOf_eq style _ _ _ fits.1]

theorem stamps_eq_letters (fits : ∀ stamp ∈ stamps font text position style, stamp.Fits) :
    stamps font text position style =
      (letters font text position style).flatMap (Letter.stamps style) :=
  stampsFrom_eq style _ _ _ fits

theorem lettersFrom_of_mem (baseline x : Float32) (glyphs : List Glyph) (letter : Letter)
    (member : letter ∈ lettersFrom baseline x glyphs) : letter.glyph ∈ glyphs := by
  induction glyphs generalizing x with
  | nil => cases member
  | cons glyph rest ih =>
    rcases List.mem_cons.mp member with rfl | later
    · exact List.mem_cons_self
    · exact List.mem_cons_of_mem _ (ih _ later)

theorem isBytes_of_mem_letters (masks : font.IsBytes) (letter : Letter)
    (member : letter ∈ letters font text position style) :
    ∀ i j, letter.glyph.mask.value i j ≤ 255 := by
  obtain ⟨c, -, same⟩ := List.mem_map.mp (lettersFrom_of_mem _ _ _ letter member)
  rw [← same]
  exact masks c _

end Letters

section Painted

variable (raster : Raster) (font : Font) (text : String) (position : Point Float)
  (style : TextStyle) (x y : Nat) (below : Pixel) (before after : List Letter) (letter : Letter)
  (has_font : raster.font = some font) (masks : font.IsBytes) (full : style.opacity = 1)
  (small : raster.target.width * raster.target.height < 2 ^ 31)
  (fits : ∀ stamp ∈ stamps font text position style, stamp.Fits)
  (place : raster.target.pixel? x y = some below) (bytes : below.IsBytes)
  (written : letters font text position style = before ++ letter :: after)

include has_font full small fits place

theorem pixel_paintText :
    (raster.paintText text position style).isLost = raster.isLost ∧
      (raster.paintText text position style).target.pixel? x y =
        some (((letters font text position style).flatMap (Letter.stamps style)).foldl
          (Stamp.onto x y) below) := by
  have whole : Number.toSingle (Color.clampUnit 1) = 1 := rfl
  obtain ⟨column, row⟩ := raster.target.inside_of_pixel x y below place
  have sides : raster.target.width < 2 ^ 31 ∧ raster.target.height < 2 ^ 31 :=
    ⟨(Nat.le_mul_of_pos_right _ (by omega)).trans_lt small,
      (Nat.le_mul_of_pos_left _ (by omega)).trans_lt small⟩
  obtain ⟨painted, (painted_eq : (stamps font text position style).foldlM (Stamp.paint? 1)
    raster.target = some painted), -, -, pixels⟩ :=
      Stamp.recolors_onto _ _ (stamps font text position style) sides small.le fits raster.target
        rfl rfl
  have result := paint_of_some
    (fun layer => (stamps font text position style).foldlM (Stamp.paint? 1) layer) raster painted
    painted_eq
  unfold paintText
  rw [has_font, full, whole]
  refine ⟨result.2, ?_⟩
  simp only
  rw [result.1, pixels, place, Option.map_some, stamps_eq_letters font text position style fits]

include masks bytes written

theorem pixel_filled (solid : style.fill.bytes.alpha = 255) (covers : letter.cover x y = 255)
    (apart : ∀ later ∈ after, ¬ later.Outlines style 1 x y) :
    (raster.paintText text position style).target.pixel? x y = some style.fill.bytes := by
  have values := isBytes_of_mem_letters font text position style masks
  rw [written] at values
  have last := Stamp.foldl_last x y below
    (before.flatMap (Letter.stamps style) ++
      style.stroke.toList.map fun stroke => letter.outline style stroke)
    (after.flatMap (Letter.stamps style)) (letter.body style) bytes solid covers <| by
      intro stamp member
      obtain ⟨later, listed, part⟩ := List.mem_flatMap.mp member
      exact later.stamps_spare_fill style x y
        (values later (List.mem_append_right _ (List.mem_cons_of_mem _ listed)))
        (apart later listed) stamp part
  rw [(pixel_paintText raster font text position style x y below has_font full small fits place).2,
    written,
    List.flatMap_append, List.flatMap_cons, Letter.stamps, List.append_assoc,
    List.singleton_append, ← List.append_assoc, last]
  rfl

theorem pixel_outlined (stroke : Color) (stroked : style.stroke = some stroke)
    (solid : stroke.bytes.alpha = 255) (reached : letter.Outlines style 255 x y)
    (bare : ∀ later ∈ letter :: after, later.cover x y = 0) :
    (raster.paintText text position style).target.pixel? x y = some stroke.bytes := by
  have values := isBytes_of_mem_letters font text position style masks
  rw [written] at values
  rw [List.forall_mem_cons] at bare
  have covers : (letter.outline style stroke).cover x y = 255 := by
    apply le_antisymm
    · apply (letter.cover_outline_le_iff style stroke x y 255).mpr
      intro i j _
      exact Coverage.cover_le _ _ _ 255 (values letter (List.mem_append_right _ List.mem_cons_self))
    · exact (letter.le_cover_outline_iff style stroke x y 255 (by decide) stroked).mpr reached
  have last := Stamp.foldl_last x y below (before.flatMap (Letter.stamps style))
    (letter.body style :: after.flatMap (Letter.stamps style)) (letter.outline style stroke) bytes
    solid covers <| by
      intro stamp member
      rcases List.mem_cons.mp member with rfl | later_stamp
      · exact Or.inl bare.1
      · obtain ⟨later, listed, part⟩ := List.mem_flatMap.mp later_stamp
        exact later.stamps_spare_stroke style stroke x y
          (values later (List.mem_append_right _ (List.mem_cons_of_mem _ listed))) stroked
          (bare.2 later listed) stamp part
  have stamps : letter.stamps style = [letter.outline style stroke, letter.body style] := by
    rw [Letter.stamps, stroked]
    rfl
  rw [(pixel_paintText raster font text position style x y below has_font full small fits place).2,
    written,
    List.flatMap_append, List.flatMap_cons, stamps, List.cons_append, List.singleton_append, last]
  rfl

/-- No pixel is missed. A pixel that a letter covers fully has the fill where no later outline
reaches it. It has the stroke where a later outline covers it fully and no letter from that one on
is seen. -/
theorem fill_unless_outlined (solid : style.fill.bytes.alpha = 255)
    (covers : letter.cover x y = 255) :
    (raster.paintText text position style).isLost = raster.isLost ∧
    ((∀ later ∈ after, ¬ later.Outlines style 1 x y) →
      (raster.paintText text position style).target.pixel? x y = some style.fill.bytes) ∧
    ∀ middle later last stroke, after = middle ++ later :: last → style.stroke = some stroke →
      stroke.bytes.alpha = 255 → later.Outlines style 255 x y →
      (∀ other ∈ later :: last, other.cover x y = 0) →
        (raster.paintText text position style).target.pixel? x y = some stroke.bytes := by
  refine ⟨?_, ?_, ?_⟩
  · exact (pixel_paintText raster font text position style x y below has_font full small fits
      place).1
  · intro apart
    exact pixel_filled raster font text position style x y below before after letter has_font masks
      full small fits place bytes written solid covers apart
  · intro middle later last stroke behind stroked stroke_solid reached bare
    have split : letters font text position style = (before ++ letter :: middle) ++
        later :: last := by
      rw [written, behind, List.append_assoc, List.cons_append]
    exact pixel_outlined raster font text position style x y below (before ++ letter :: middle) last
      later has_font masks full small fits place bytes split stroke stroked stroke_solid reached
      bare

end Painted

section Dots

def dot : Glyph := ⟨0, 0, ⟨1, 1, fun _ _ => 255⟩, 2⟩

def dots : Font := ⟨fun _ _ => dot⟩

def dotted (strokeWidth : Float) : TextStyle :=
  { stroke := some Color.white, strokeWidth, anchor := .start }

def strip : Raster := { width := 3, height := 1, font := some dots, base := Layer.blank 3 1 }

theorem first_left : Number.singleToPixel (Number.roundSingle
    (Number.toSingle 0 - 0 + Float32.ofInt dot.left)) = 0 := by decide

theorem second_left : Number.singleToPixel (Number.roundSingle
    (Number.toSingle 0 - 0 + dot.advance + Float32.ofInt dot.left)) = 2 := by decide

theorem dot_top : Number.singleToPixel (Number.roundSingle
    (Number.toSingle 1 - (Float32.ofInt dot.bottom + Float32.ofNat dot.mask.height))) = 0 := by
  decide

theorem letters_dots (strokeWidth : Float) :
    letters dots "ab" ⟨0, 1⟩ (dotted strokeWidth) = [⟨dot, 0, 0⟩, ⟨dot, 2, 0⟩] := by
  have pens : letters dots "ab" ⟨0, 1⟩ (dotted strokeWidth) =
      lettersFrom (Number.toSingle 1) (Number.toSingle 0 - 0) [dot, dot] := rfl
  rw [pens, lettersFrom, lettersFrom, lettersFrom]
  rw [first_left, second_left, dot_top]

theorem stampsOf_dot_fit (strokeWidth : Float) (narrow : outlineRadius (dotted strokeWidth) ≤ 2)
    (left : Int) (near : 0 ≤ left ∧ left ≤ 2) :
    ∀ stamp ∈ stampsOf (dotted strokeWidth) dot left 0, stamp.Fits := by
  obtain ⟨wide, high, -⟩ := dot.mask.dilate_grown (outlineRadius (dotted strokeWidth))
  have begins (n : Int) (small : 0 ≤ n ∧ n ≤ 2) :
      Number.word (n - outlineRadius (dotted strokeWidth)) =
        n - outlineRadius (dotted strokeWidth) :=
    Number.word_of_isWord _ ⟨by omega, by omega⟩
  have side : dot.mask.width = 1 ∧ dot.mask.height = 1 := ⟨rfl, rfl⟩
  intro stamp member
  rcases List.mem_pair.mp member with rfl | rfl
  · constructor <;> simp only [begins left near, begins 0 (by decide), wide, high, side] <;>
      constructor <;> omega
  · constructor <;> simp only [side] <;> constructor <;> omega

theorem stamps_dots_fit (strokeWidth : Float) (narrow : outlineRadius (dotted strokeWidth) ≤ 2) :
    ∀ stamp ∈ stamps dots "ab" ⟨0, 1⟩ (dotted strokeWidth), stamp.Fits := by
  have pens : stamps dots "ab" ⟨0, 1⟩ (dotted strokeWidth) = stampsFrom (dotted strokeWidth)
      (Number.toSingle 1) (Number.toSingle 0 - 0) [dot, dot] := rfl
  rw [pens, stampsFrom, stampsFrom, stampsFrom]
  rw [first_left, second_left, dot_top, List.append_nil, List.forall_mem_append]
  exact ⟨stampsOf_dot_fit strokeWidth narrow 0 (by decide),
    stampsOf_dot_fit strokeWidth narrow 2 (by decide)⟩

theorem isBytes_dots : dots.IsBytes := fun _ _ _ _ => le_rfl

theorem strip_small : strip.target.width * strip.target.height < 2 ^ 31 := by decide

theorem strip_place : strip.target.pixel? 0 0 = some Pixel.transparent := rfl

theorem isBytes_transparent : Pixel.transparent.IsBytes := by
  constructor <;> decide

/-- The outline of the second dot ends before the first one, or hides it. -/
theorem dots_kept_and_lost :
    (strip.paintText "ab" ⟨0, 1⟩ (dotted 2)).target.pixel? 0 0 = some Color.black.bytes ∧
      (strip.paintText "ab" ⟨0, 1⟩ (dotted 4)).target.pixel? 0 0 = some Color.white.bytes := by
  have narrow : outlineRadius (dotted 2) = 1 := by decide
  have wide : outlineRadius (dotted 4) = 2 := by decide
  have solid (strokeWidth : Float) : (dotted strokeWidth).fill.bytes.alpha = 255 := by
    change Color.black.bytes.alpha = 255
    decide
  have parts (strokeWidth : Float) (small : outlineRadius (dotted strokeWidth) ≤ 2) :=
    fill_unless_outlined strip dots "ab" ⟨0, 1⟩ (dotted strokeWidth) 0 0 Pixel.transparent []
      [⟨dot, 2, 0⟩] ⟨dot, 0, 0⟩ rfl isBytes_dots rfl strip_small
      (stamps_dots_fit strokeWidth small) strip_place isBytes_transparent
      (letters_dots strokeWidth) (solid strokeWidth) rfl
  constructor
  · apply (parts 2 (by omega)).2.1
    intro later member
    rw [List.mem_singleton] at member
    subst member
    rintro ⟨-, i, j, near, covered⟩
    rw [narrow, Coverage.IsWithin] at near
    have inside := Coverage.inside_of_cover _ _ _ covered
    simp only [dot] at inside
    obtain rfl : i = 2 := by omega
    obtain rfl : j = 0 := by omega
    exact absurd near (by decide)
  · apply (parts 4 (by omega)).2.2 [] ⟨dot, 2, 0⟩ [] Color.white rfl rfl (by decide)
    · refine ⟨rfl, 2, 0, ?_, le_rfl⟩
      rw [wide]
      decide
    · intro other member
      rw [List.mem_singleton.mp member]
      rfl

theorem first_dot_lost :
    letters dots "ab" ⟨0, 1⟩ (dotted 4) = [⟨dot, 0, 0⟩, ⟨dot, 2, 0⟩] ∧
      Letter.cover ⟨dot, 0, 0⟩ 0 0 = 255 ∧
        (strip.paintText "ab" ⟨0, 1⟩ (dotted 4)).target.pixel? 0 0 ≠
          some (dotted 4).fill.bytes := by
  have wide : outlineRadius (dotted 4) = 2 := by decide
  have white_solid : Color.white.bytes.alpha = 255 := by decide
  have reached : Letter.Outlines (dotted 4) 255 0 0 ⟨dot, 2, 0⟩ := by
    refine ⟨rfl, 2, 0, ?_, le_rfl⟩
    rw [wide]
    decide
  have bare : ∀ other ∈ [(⟨dot, 2, 0⟩ : Letter)], other.cover 0 0 = 0 := by decide
  refine ⟨letters_dots 4, rfl, ?_⟩
  rw [pixel_outlined strip dots "ab" ⟨0, 1⟩ (dotted 4) 0 0 Pixel.transparent [⟨dot, 0, 0⟩] []
    ⟨dot, 2, 0⟩ rfl isBytes_dots rfl strip_small (stamps_dots_fit 4 (by omega)) strip_place
    isBytes_transparent (letters_dots 4) Color.white rfl white_solid reached bare]
  intro same
  have reds : Color.white.bytes.red = Color.black.bytes.red :=
    congrArg Rgba.red (Option.some.inj same)
  exact absurd reds (by decide +kernel)

end Dots

end Raster

end Cartograph
