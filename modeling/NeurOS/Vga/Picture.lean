import NeurOS.Vga.Bounds
import NeurOS.Vga.Painting

/-!
# Pictures

Of the pixels drawn at a point the last one is seen.  The bytes of the framebuffer show
the picture of the drawn pixels over what they held before, as long as no pixel is
drawn behind the end of its row.
-/

namespace NeurOS

open Foundation

/-- The color of the last of the pixels at a point. -/
def colorAt : List Pixel -> Nat -> Nat -> Option Nat
  | [], _, _ => none
  | pixel :: rest, x, y =>
      (colorAt rest x y).or (if pixel.x = x ∧ pixel.y = y then some pixel.color else none)

section ColorAt

variable {pixels : List Pixel} {x y : Nat}

theorem colorAt_append (first second : List Pixel) (x y : Nat) :
    colorAt (first ++ second) x y = (colorAt second x y).or (colorAt first x y) := by
  induction first with
  | nil => rw [List.nil_append, colorAt, Option.or_none]
  | cons pixel rest ih => rw [List.cons_append, colorAt, colorAt, ih, Option.or_assoc]

theorem colorAt_eq_none (h : forall pixel, pixel ∈ pixels -> Not (pixel.x = x ∧ pixel.y = y)) :
    colorAt pixels x y = none := by
  induction pixels with
  | nil => rfl
  | cons pixel rest ih =>
      rw [List.forall_mem_cons] at h
      rw [colorAt, ih h.2, if_neg h.1, Option.or_none]

theorem colorAt_eq_some {color : Nat}
    (h : forall pixel, pixel ∈ pixels -> pixel.x = x -> pixel.y = y -> pixel.color = color)
    (hmem : exists pixel, pixel ∈ pixels ∧ pixel.x = x ∧ pixel.y = y) :
    colorAt pixels x y = some color := by
  induction pixels with
  | nil =>
      rcases hmem with ⟨pixel, hpixel, _⟩
      cases hpixel
  | cons first rest ih =>
      rw [List.forall_mem_cons] at h
      rw [colorAt]
      by_cases hrest : exists pixel, pixel ∈ rest ∧ pixel.x = x ∧ pixel.y = y
      · rw [ih h.2 hrest, Option.some_or]
      · rcases hmem with ⟨pixel, hpixel, hx, hy⟩
        have hfirst : pixel = first := by
          rcases List.mem_cons.mp hpixel with heq | hlater
          · exact heq
          · exact absurd ⟨pixel, hlater, hx, hy⟩ hrest
        rw [hfirst] at hx hy
        rw [colorAt_eq_none fun pixel hpixel heq => hrest ⟨pixel, hpixel, heq⟩,
          if_pos ⟨hx, hy⟩, h.1 hx hy, Option.none_or]

end ColorAt

/-!
# The bytes of the framebuffer
-/

section Bytes

variable {pitch width : Nat} {x y : Nat}

theorem pixelAt_store (hpitch : 4 * width <= pitch) (ram : Ram) {pixel : Pixel}
    (hpixel : pixel.x < width) (hcolor : pixel.color < 2 ^ 32) (hx : x < width) :
    pixelAt pitch (ram.store (pixel.store pitch)) x y =
      (if pixel.x = x ∧ pixel.y = y then some pixel.color else none).getD
        (pixelAt pitch ram x y) := by
  let point : Pixel := { x := x, y := y, color := 0 }
  by_cases hpoint : pixel.x = x ∧ pixel.y = y
  · rcases hpoint with ⟨rfl, rfl⟩
    have hread : (ram.store (pixel.store pitch)).read (pixel.offset pitch) 4 =
        toLittleEndian 4 pixel.color := Ram.read_store_self ram (pixel.store pitch)
    have hvalue : pixel.color < 256 ^ 4 := hcolor
    rw [if_pos ⟨rfl, rfl⟩, Option.getD_some]
    unfold pixelAt
    rw [← littleEndian_toLittleEndian hvalue]
    exact congrArg littleEndian hread
  · rw [if_neg hpoint, Option.getD_none]
    unfold pixelAt
    apply congrArg littleEndian
    apply Ram.read_congr
    intro i hstart hend
    apply Ram.store_outside
    intro hcovers
    rw [Store.Covers, Pixel.store_stop] at hcovers
    change pixel.offset pitch <= i ∧ i < pixel.offset pitch + 4 at hcovers
    change point.offset pitch <= i at hstart
    change i < point.offset pitch + 4 at hend
    -- two points of the screen are stored apart, in the order of their rows and columns
    have hbefore : pixel.offset pitch + 4 <= point.offset pitch ∨
        point.offset pitch + 4 <= pixel.offset pitch := by
      by_cases habove : pixel.y < y ∨ pixel.y = y ∧ pixel.x < x
      · exact Or.inl (offset_before hpitch hpixel habove)
      · right
        apply offset_before hpitch (show point.x < width from hx)
        show y < pixel.y ∨ y = pixel.y ∧ x < pixel.x
        lia
    lia

theorem pixelAt_paint (hpitch : 4 * width <= pitch) {pixels : List Pixel}
    (hpixels : forall pixel, pixel ∈ pixels -> pixel.x < width ∧ pixel.color < 2 ^ 32)
    (ram : Ram) (hx : x < width) :
    pixelAt pitch (paint pitch ram pixels) x y =
      (colorAt pixels x y).getD (pixelAt pitch ram x y) := by
  induction pixels generalizing ram with
  | nil => rfl
  | cons pixel rest ih =>
      rw [List.forall_mem_cons] at hpixels
      have hrest : pixelAt pitch (paint pitch ram (pixel :: rest)) x y =
          pixelAt pitch (paint pitch (ram.store (pixel.store pitch)) rest) x y := rfl
      rw [hrest, ih hpixels.2, pixelAt_store hpitch ram hpixels.1.1 hpixels.1.2 hx, colorAt]
      cases colorAt rest x y with
      | none => rfl
      | some color => rfl

end Bytes

/-!
# Rectangles
-/

theorem colorAt_rectangle (left top width height : Nat) (color : Nat -> Nat -> Nat) (x y : Nat) :
    colorAt (rectangle left top width height color) x y =
      if left <= x ∧ x < left + width ∧ top <= y ∧ y < top + height then
        some (color (x - left) (y - top))
      else none := by
  split
  · rename_i hinside
    apply colorAt_eq_some
    · intro pixel hpixel hx hy
      rcases mem_rectangle_iff.mp hpixel with ⟨ix, iy, _, _, rfl⟩
      have hcolumn : x - left = ix := by
        change left + ix = x at hx
        lia
      have hrow : y - top = iy := by
        change top + iy = y at hy
        lia
      rw [hcolumn, hrow]
    · let pixel : Pixel := { x := left + (x - left), y := top + (y - top),
                             color := color (x - left) (y - top) }
      have hmem : pixel ∈ rectangle left top width height color :=
        mem_rectangle_iff.mpr ⟨x - left, y - top, by lia, by lia, rfl⟩
      exact ⟨pixel, hmem, Nat.add_sub_cancel' hinside.1, Nat.add_sub_cancel' hinside.2.2.1⟩
  · rename_i houtside
    apply colorAt_eq_none
    intro pixel hpixel hpoint
    rcases mem_rectangle_iff.mp hpixel with ⟨ix, iy, hix, hiy, rfl⟩
    change left + ix = x ∧ top + iy = y at hpoint
    lia

theorem colorAt_clearPixels {vga : Vga} {x y : Nat} (hx : x < vga.width) (hy : y < vga.height) :
    colorAt vga.clearPixels x y = some Color.black := by
  have hmem {pixel : Pixel} : pixel ∈ vga.clearPixels <->
      exists row, row < vga.height ∧ exists column, column < vga.width ∧
        { x := column, y := row, color := Color.black } = pixel := by
    simp [Vga.clearPixels]
  apply colorAt_eq_some
  · intro pixel hpixel _ _
    rcases hmem.mp hpixel with ⟨_, _, _, _, rfl⟩
    rfl
  · exact ⟨_, hmem.mpr ⟨y, hy, x, hx, rfl⟩, rfl, rfl⟩

end NeurOS
