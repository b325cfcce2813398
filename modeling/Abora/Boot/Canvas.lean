import Abora.Boot.Font
import Abora.Boot.Logo
import Abora.Lib.Lists
import Abora.Lib.Paint

/-!
# The canvas (`abora-boot/src/canvas.rs`)

A copy of the framebuffer in memory, row by row, four bytes a pixel, with the framebuffer behind it.
The device takes what is written to it. `Canvas.Draws` is what drawing comes to: the pixels of one
set have one color, and nothing else is different, neither the shape nor the device. Each of the
drawing functions has a lemma that names its set (`fillRect_draws`, `drawGlyph_draws`,
`text_draws`), and the loops among them are unions (`Draws.foldl`).

A row may be longer than its pixels; the bytes behind them belong to no point and are never drawn
to.
-/

namespace Abora.Boot

open Lib

/-- A color, as the source has it; on the canvas it is stored the other way round. -/
structure Rgb where
  red : UInt8
  green : UInt8
  blue : UInt8
  deriving DecidableEq, Repr

/-- What `open` has found, the pixels in memory and those of the device. The fields keep what `open`
has checked, that a row has room for its pixels. -/
structure Canvas where
  width : Nat
  height : Nat
  stride : Nat
  pixels : Bytes
  /-- What the framebuffer shows. -/
  device : Bytes
  stride_le : width * 4 ≤ stride
  pixels_length : pixels.length = stride * height
  device_length : device.length = stride * height

/-- A point, from the left and from the top. -/
abbrev Point := Nat × Nat

/-- The bytes of a pixel, in the order in which they are stored. -/
structure Pixel where
  bytes : UInt8 × UInt8 × UInt8 × UInt8
  deriving DecidableEq, Repr

/-- Blue comes first, and the fourth byte is not used by the device. -/
def Rgb.pixel (c : Rgb) : Pixel := ⟨c.blue, c.green, c.red, 0xFF⟩

/-- The points from `x`, `y` on, `w` to the right and `h` down. -/
def rect (x y w h : Nat) : Set Point := {p | x ≤ p.1 ∧ p.1 < x + w ∧ y ≤ p.2 ∧ p.2 < y + h}

/-- The four bytes from `i` on, if all of them are there. -/
def pixelAt (bytes : Bytes) (i : Nat) : Option Pixel := do
  some ⟨← bytes[i]?, ← bytes[i + 1]?, ← bytes[i + 2]?, ← bytes[i + 3]?⟩

namespace Canvas

/-- The points of the canvas. -/
def area (c : Canvas) : Set Point := {p | p.1 < c.width ∧ p.2 < c.height}

instance (c : Canvas) (p : Point) : Decidable (p ∈ c.area) :=
  inferInstanceAs (Decidable (p.1 < c.width ∧ p.2 < c.height))

def offset (c : Canvas) (p : Point) : Nat := p.2 * c.stride + p.1 * 4

/-- What is on the canvas; `none` beyond it. -/
def pixel (c : Canvas) (p : Point) : Option Pixel :=
  if p ∈ c.area then pixelAt c.pixels (c.offset p) else none

/-- What is on the framebuffer, which is what somebody in front of the machine sees. -/
def shown (c : Canvas) (p : Point) : Option Pixel :=
  if p ∈ c.area then pixelAt c.device (c.offset p) else none

def setPixel (bytes : Bytes) (i : Nat) (c : Rgb) : Bytes :=
  (((bytes.set i c.blue).set (i + 1) c.green).set (i + 2) c.red).set (i + 3) 0xFF

theorem length_setPixel (bytes : Bytes) (i : Nat) (c : Rgb) :
    (setPixel bytes i c).length = bytes.length := by simp [setPixel]

/-- `put`: a pixel beyond the canvas is not drawn. -/
def put (canvas : Canvas) (x y : Nat) (c : Rgb) : Canvas :=
  if x < canvas.width ∧ y < canvas.height then
    { canvas with
      pixels := setPixel canvas.pixels (y * canvas.stride + x * 4) c
      pixels_length := (length_setPixel ..).trans canvas.pixels_length }
  else canvas

/-- `get`; `none` is a panic. -/
def get (canvas : Canvas) (x y : Nat) : Option Rgb := do
  let i := y * canvas.stride + x * 4
  some ⟨← canvas.pixels[i + 2]?, ← canvas.pixels[i + 1]?, ← canvas.pixels[i]?⟩

/-- `a..b`, as a loop runs through it. -/
def range (a b : Nat) : List Nat := List.range' a (b - a)

/-- A row of `fill_rect`, up to the right edge of the canvas. -/
def fillRow (canvas : Canvas) (x w row : Nat) (c : Rgb) : Canvas :=
  (range x (min (x + w) canvas.width)).foldl (fun canvas col => canvas.put col row c) canvas

/-- `fill_rect`. Of a rectangle that reaches beyond the canvas the rest is drawn. -/
def fillRect (canvas : Canvas) (x y w h : Nat) (c : Rgb) : Canvas :=
  (range y (min (y + h) canvas.height)).foldl (fun canvas row => canvas.fillRow x w row c) canvas

/-- A pixel of a glyph in `text`: a square of `scale` pixels where the bit is set. -/
def glyphPixel (scale px y gy : Nat) (bits : UInt8) (color : Rgb) (canvas : Canvas) (gx : Nat) :
    Canvas :=
  if Font.hasBit bits gx then
    canvas.fillRect (px + gx * scale) (y + gy * scale) scale scale color
  else canvas

/-- A character of `text`, row by row. What is between its pixels is left as it was. -/
def drawGlyph (font : Font) (scale px y : Nat) (ch : Char) (color : Rgb) (canvas : Canvas) :
    Canvas :=
  (font.glyph ch).zipIdx.foldl (fun canvas row =>
    (range 0 font.width).foldl (glyphPixel scale px y row.2 row.1 color) canvas) canvas

/-- `text`, which stops at the first character that would go beyond the right edge of the canvas. -/
def text (font : Font) (scale x y : Nat) (color : Rgb) (canvas : Canvas) : List Char → Canvas
  | [] => canvas
  | ch :: chars =>
    if x + font.width * scale > canvas.width then canvas
    else text font scale (x + font.width * scale) y color
      (canvas.drawGlyph font scale x y ch color) chars

/-- The `blend` of `blit_scaled`; all values are bytes, and so is what is made of them. -/
def blend (a f u : Nat) : UInt8 := UInt8.ofNat ((f * a + u * (255 - a)) / 255)

/-- A pixel of `blit_scaled`. It reads what is under it, since the logo may be transparent there. -/
def blitPixel (build : Build) (logo : Logo) (x y w h dx dy : Nat) (canvas : Canvas) :
    Option Canvas := do
  let s ← logo.sample build dx dy w h
  if s.alpha = 0 then some canvas
  else if x + dx < canvas.width ∧ y + dy < canvas.height then
    let under ← canvas.get (x + dx) (y + dy)
    some (canvas.put (x + dx) (y + dy) ⟨blend s.alpha s.red under.red.toNat,
      blend s.alpha s.green under.green.toNat, blend s.alpha s.blue under.blue.toNat⟩)
  else some canvas

/-- `blit_scaled`; `none` is a panic, which only the logo can be the cause of. -/
def blitScaled (build : Build) (logo : Logo) (x y w h : Nat) (canvas : Canvas) : Option Canvas :=
  (range 0 h).foldlM
    (fun canvas dy => (range 0 w).foldlM
      (fun canvas dx => blitPixel build logo x y w h dx dy canvas) canvas) canvas

/-- `dst` with `start..stop` from `src`: what a write at an offset leaves of the device. -/
def copied (src dst : Bytes) (start stop : Nat) : Bytes :=
  dst.take start ++ ((src.drop start).take (stop - start) ++ dst.drop stop)

theorem length_copied {src dst : Bytes} {start stop : Nat} (hlen : src.length = dst.length)
    (hstart : start ≤ stop) (hstop : stop ≤ dst.length) :
    (copied src dst start stop).length = dst.length := by
  simp only [copied, List.length_append, List.length_take, List.length_drop]
  omega

theorem getElem?_copied {src dst : Bytes} {start stop : Nat} (hlen : src.length = dst.length)
    (hstart : start ≤ stop) (hstop : stop ≤ dst.length) (i : Nat) :
    (copied src dst start stop)[i]? = if start ≤ i ∧ i < stop then src[i]? else dst[i]? := by
  have hhead : (dst.take start).length = start := by
    rw [List.length_take]
    omega
  have hmiddle : ((src.drop start).take (stop - start)).length = stop - start := by
    rw [List.length_take, List.length_drop]
    omega
  unfold copied
  rw [List.getElem?_append, List.getElem?_append, hhead, hmiddle]
  split
  · rename_i hlt
    rw [if_neg (by omega), List.getElem?_take_of_lt hlt]
  · split
    · rename_i hge hlt
      rw [if_pos (by omega), List.getElem?_take_of_lt hlt, List.getElem?_drop,
        Nat.add_sub_cancel' (by omega)]
    · rw [if_neg (by omega), List.getElem?_drop]
      congr 1
      omega

/-- `flush_rows`. The rows are written in one piece, with the bytes behind their pixels. -/
def flushRows (canvas : Canvas) (top bottom : Nat) : Canvas :=
  if h : top ≥ min bottom canvas.height then canvas
  else
    { canvas with
      device := copied canvas.pixels canvas.device (top * canvas.stride)
        (min bottom canvas.height * canvas.stride)
      device_length := by
        rw [length_copied (canvas.pixels_length.trans canvas.device_length.symm)
          (Nat.mul_le_mul_right _ (Nat.le_of_not_ge h)), canvas.device_length]
        rw [canvas.device_length, Nat.mul_comm canvas.stride]
        exact Nat.mul_le_mul_right _ (Nat.min_le_right ..) }

def flushAll (canvas : Canvas) : Canvas := canvas.flushRows 0 canvas.height

/-! ## One pixel -/

variable {c c' c'' : Canvas} {p q : Point}

theorem pixelAt_setPixel_self {bytes : Bytes} {i : Nat} (h : i + 3 < bytes.length) (rgb : Rgb) :
    pixelAt (setPixel bytes i rgb) i = some rgb.pixel := by
  unfold pixelAt setPixel Rgb.pixel
  simp [show i < bytes.length by omega, show i + 1 < bytes.length by omega,
    show i + 2 < bytes.length by omega, h]

theorem pixelAt_congr {a b : Bytes} {i : Nat} (h : ∀ k ≤ 3, a[i + k]? = b[i + k]?) :
    pixelAt a i = pixelAt b i := by
  unfold pixelAt
  rw [h 1 (by decide), h 2 (by decide), h 3 (by decide)]
  exact congrArg (Option.bind · _) (h 0 (by decide))

theorem pixelAt_setPixel_apart {bytes : Bytes} {i j : Nat} (h : i + 4 ≤ j ∨ j + 4 ≤ i) (rgb : Rgb) :
    pixelAt (setPixel bytes i rgb) j = pixelAt bytes j := by
  refine pixelAt_congr fun k hk => ?_
  unfold setPixel
  rw [List.getElem?_set_ne (by omega), List.getElem?_set_ne (by omega),
    List.getElem?_set_ne (by omega), List.getElem?_set_ne (by omega)]

theorem offset_lt (hp : p ∈ c.area) : c.offset p + 3 < (p.2 + 1) * c.stride := by
  have hx : p.1 < c.width := hp.1
  have hstride := c.stride_le
  unfold offset
  rw [Nat.succ_mul]
  omega

/-- Two points of the canvas share no byte: they are in two rows, or four bytes apart in one. -/
theorem offset_apart (hp : p ∈ c.area) (hq : q ∈ c.area) (hne : p ≠ q) :
    c.offset p + 4 ≤ c.offset q ∨ c.offset q + 4 ≤ c.offset p := by
  rcases Nat.lt_trichotomy p.2 q.2 with hlt | heq | hgt
  · have hrow := offset_lt hp
    have hrows : (p.2 + 1) * c.stride ≤ q.2 * c.stride := Nat.mul_le_mul_right _ hlt
    unfold offset at hrow ⊢
    omega
  · have hcolumn : p.1 ≠ q.1 := fun h => hne (Prod.ext h heq)
    unfold offset
    rw [heq]
    omega
  · have hrow := offset_lt hq
    have hrows : (q.2 + 1) * c.stride ≤ p.2 * c.stride := Nat.mul_le_mul_right _ hgt
    unfold offset at hrow ⊢
    omega

/-- A point of the canvas has its bytes in the buffer, so that `put` never panics. -/
theorem offset_lt_length (hp : p ∈ c.area) : c.offset p + 3 < c.stride * c.height := by
  have hrow := offset_lt hp
  have hrows : (p.2 + 1) * c.stride ≤ c.height * c.stride := Nat.mul_le_mul_right _ hp.2
  rw [Nat.mul_comm c.stride]
  omega

/-! ## Drawing -/

/-- `c'` is `c` with the pixels of `S` in one color, as far as the canvas has them. -/
structure Draws (c c' : Canvas) (S : Set Point) (rgb : Rgb) : Prop where
  width : c'.width = c.width
  height : c'.height = c.height
  stride : c'.stride = c.stride
  device : c'.device = c.device
  painted : Painted c.pixel c'.pixel (S ∩ c.area) (some rgb.pixel)

namespace Draws

variable {S T : Set Point} {rgb : Rgb}

theorem area (h : Draws c c' S rgb) : c'.area = c.area := by
  unfold Canvas.area
  rw [h.width, h.height]

theorem shown (h : Draws c c' S rgb) (p : Point) : c'.shown p = c.shown p := by
  simp only [Canvas.shown, Canvas.offset, h.area, h.stride, h.device]

theorem nothing (c : Canvas) (rgb : Rgb) : Draws c c ∅ rgb :=
  ⟨rfl, rfl, rfl, rfl, Painted.nothing _ (Set.empty_inter c.area) _⟩

theorem union (h : Draws c c' S rgb) (h' : Draws c' c'' T rgb) : Draws c c'' (S ∪ T) rgb := by
  refine ⟨h'.width.trans h.width, h'.height.trans h.height, h'.stride.trans h.stride,
    h'.device.trans h.device, ?_⟩
  rw [Set.union_inter_distrib_right]
  exact h.painted.union (h.area ▸ h'.painted)

theorem congr (h : Draws c c' S rgb) (hST : ∀ p ∈ c.area, p ∈ S ↔ p ∈ T) : Draws c c' T rgb := by
  have hset : T ∩ c.area = S ∩ c.area := by
    ext p
    exact and_congr_left fun hp => (hST p hp).symm
  exact { h with painted := hset ▸ h.painted }

/-- A loop draws what its turns draw. The induction is over the turns; the shape of the canvas is
all that a turn may need of what the earlier ones left. -/
theorem foldl {β : Type} {f : Canvas → β → Canvas} {S : β → Set Point} (l : List β)
    (hstep : ∀ c', ∀ b ∈ l, c'.width = c.width → c'.height = c.height →
      Draws c' (f c' b) (S b) rgb) :
    Draws c (l.foldl f c) {p | ∃ b ∈ l, p ∈ S b} rgb := by
  induction l generalizing c with
  | nil => exact (nothing c rgb).congr fun p _ => by simp
  | cons b l ih =>
    have hfirst := hstep c b List.mem_cons_self rfl rfl
    have hrest := ih (c := f c b) fun c' b' hb hw hh =>
      hstep c' b' (List.mem_cons_of_mem _ hb) (hw.trans hfirst.width) (hh.trans hfirst.height)
    rw [List.foldl_cons]
    exact (hfirst.union hrest).congr fun p _ => by simp

end Draws

theorem put_draws (c : Canvas) (x y : Nat) (rgb : Rgb) :
    Draws c (c.put x y rgb) {(x, y)} rgb := by
  unfold put
  split
  · rename_i hp
    refine ⟨rfl, rfl, rfl, rfl, ⟨?_, ?_⟩⟩
    · rintro p ⟨hpoint, harea⟩
      obtain rfl : p = (x, y) := hpoint
      have hlt := offset_lt_length harea
      rw [← c.pixels_length] at hlt
      exact (if_pos harea).trans (pixelAt_setPixel_self hlt rgb)
    · intro p hout
      unfold pixel
      by_cases harea : p ∈ c.area
      · have hne : p ≠ (x, y) := fun h => hout ⟨h, harea⟩
        refine (if_pos harea).trans (Eq.trans ?_ (if_pos harea).symm)
        exact pixelAt_setPixel_apart (offset_apart hp harea hne.symm) rgb
      · exact (if_neg harea).trans (if_neg harea).symm
  · rename_i hp
    refine (Draws.nothing c rgb).congr fun p harea => iff_of_false (fun h => h.elim) fun h => ?_
    obtain rfl : p = (x, y) := h
    exact hp harea

theorem mem_range {a b i : Nat} : i ∈ range a b ↔ a ≤ i ∧ i < b := by
  unfold range
  rw [List.mem_range'_1]
  omega

theorem fillRow_draws (c : Canvas) (x w row : Nat) (rgb : Rgb) :
    Draws c (c.fillRow x w row rgb) (rect x row w 1) rgb := by
  refine (Draws.foldl _ fun c' col _ _ _ => put_draws c' col row rgb).congr ?_
  rintro ⟨px, py⟩ harea
  have hx : px < c.width := harea.1
  constructor
  · rintro ⟨col, hcol, hp⟩
    obtain ⟨rfl, rfl⟩ := Prod.mk.inj hp
    rw [mem_range] at hcol
    exact ⟨hcol.1, by omega, Nat.le_refl _, Nat.lt_succ_self _⟩
  · rintro ⟨hleft, hright, htop, hbottom⟩
    dsimp only at hleft hright htop hbottom
    exact ⟨px, mem_range.mpr ⟨hleft, by omega⟩, Prod.ext rfl (by omega)⟩

/-- **A rectangle is filled**, as far as it is on the canvas. -/
theorem fillRect_draws (c : Canvas) (x y w h : Nat) (rgb : Rgb) :
    Draws c (c.fillRect x y w h rgb) (rect x y w h) rgb := by
  refine (Draws.foldl _ fun c' row _ _ _ => fillRow_draws c' x w row rgb).congr ?_
  rintro ⟨px, py⟩ harea
  have hy : py < c.height := harea.2
  constructor
  · rintro ⟨row, hrow, hleft, hright, htop, hbottom⟩
    dsimp only at hleft hright htop hbottom
    rw [mem_range] at hrow
    exact ⟨hleft, hright, by omega, by omega⟩
  · rintro ⟨hleft, hright, htop, hbottom⟩
    dsimp only at hleft hright htop hbottom
    exact ⟨py, mem_range.mpr ⟨htop, by omega⟩, hleft, hright, Nat.le_refl _, Nat.lt_succ_self _⟩

/-! ## Text -/

/-- The pixels of a character that is drawn at `px`, `y`. -/
def ink (font : Font) (scale px y : Nat) (ch : Char) : Set Point :=
  {p | ∃ gy bits gx, (font.glyph ch)[gy]? = some bits ∧ gx < font.width ∧
    Font.hasBit bits gx = true ∧ p ∈ rect (px + gx * scale) (y + gy * scale) scale scale}

/-- The pixels of a line of text, with the characters that are not beyond `width`. -/
def textInk (font : Font) (scale x y width : Nat) (chars : List Char) : Set Point :=
  {p | ∃ k ch, chars[k]? = some ch ∧ x + (k + 1) * (font.width * scale) ≤ width ∧
    p ∈ ink font scale (x + k * (font.width * scale)) y ch}

theorem glyphPixel_draws (c : Canvas) (scale px y gy : Nat) (bits : UInt8) (rgb : Rgb) (gx : Nat) :
    Draws c (c.glyphPixel scale px y gy bits rgb gx)
      {p | Font.hasBit bits gx = true ∧ p ∈ rect (px + gx * scale) (y + gy * scale) scale scale}
      rgb := by
  unfold glyphPixel
  split
  · rename_i hbit
    exact (fillRect_draws c _ _ _ _ rgb).congr fun p _ => by simp [hbit]
  · rename_i hbit
    exact (Draws.nothing c rgb).congr fun p _ => by simp [hbit]

theorem drawGlyph_draws (c : Canvas) (font : Font) (scale px y : Nat) (ch : Char) (rgb : Rgb) :
    Draws c (c.drawGlyph font scale px y ch rgb) (ink font scale px y ch) rgb := by
  refine (Draws.foldl _ fun c' row _ _ _ =>
    Draws.foldl _ fun c'' gx _ _ _ => glyphPixel_draws c'' scale px y row.2 row.1 rgb gx).congr ?_
  intro p _
  constructor
  · rintro ⟨⟨bits, gy⟩, hrow, gx, hgx, hbit, hp⟩
    exact ⟨gy, bits, gx, List.mem_zipIdx_iff_getElem?.mp hrow, (mem_range.mp hgx).2, hbit, hp⟩
  · rintro ⟨gy, bits, gx, hrow, hgx, hbit, hp⟩
    exact ⟨(bits, gy), List.mem_zipIdx_iff_getElem?.mpr hrow, gx,
      mem_range.mpr ⟨Nat.zero_le _, hgx⟩, hbit, hp⟩

/-- **A line of text is drawn** character by character, up to the right edge. -/
theorem text_draws (font : Font) (scale y : Nat) (rgb : Rgb) (chars : List Char) (c : Canvas)
    (x : Nat) :
    Draws c (c.text font scale x y rgb chars) (textInk font scale x y c.width chars) rgb := by
  -- the induction is over the characters; each begins where the one before it ended
  induction chars generalizing c x with
  | nil => exact (Draws.nothing c rgb).congr fun p _ => by simp [textInk]
  | cons ch chars ih =>
    unfold text
    split
    · rename_i hedge
      refine (Draws.nothing c rgb).congr fun p _ => iff_of_false (fun h => h.elim) ?_
      rintro ⟨k, ch', -, hfits, -⟩
      have hone : 1 * (font.width * scale) ≤ (k + 1) * (font.width * scale) :=
        Nat.mul_le_mul_right _ (Nat.le_add_left 1 k)
      omega
    · rename_i hfits
      have hshift (k : Nat) : x + (k + 1) * (font.width * scale) =
          x + font.width * scale + k * (font.width * scale) := by
        rw [Nat.succ_mul]
        omega
      have hfirst := drawGlyph_draws c font scale x y ch rgb
      refine (hfirst.union (ih _ _)).congr fun p _ => ?_
      rw [hfirst.width]
      constructor
      · rintro (hp | ⟨k, ch', hch, hk, hp⟩)
        · exact ⟨0, ch, rfl, by omega, by simpa using hp⟩
        · refine ⟨k + 1, ch', hch, ?_, ?_⟩
          · rw [hshift (k + 1)]
            exact hk
          · rw [hshift k]
            exact hp
      · rintro ⟨k, ch', hch, hk, hp⟩
        cases k with
        | zero =>
          obtain rfl := Option.some.inj hch
          exact .inl (by simpa using hp)
        | succ k =>
          rw [hshift (k + 1)] at hk
          rw [hshift k] at hp
          exact .inr ⟨k, ch', hch, hk, hp⟩

/-! ## The framebuffer -/

theorem flushRows_width (c : Canvas) (top bottom : Nat) :
    (c.flushRows top bottom).width = c.width := by
  unfold flushRows
  split <;> rfl

theorem flushRows_height (c : Canvas) (top bottom : Nat) :
    (c.flushRows top bottom).height = c.height := by
  unfold flushRows
  split <;> rfl

theorem flushRows_pixel (c : Canvas) (top bottom : Nat) :
    (c.flushRows top bottom).pixel = c.pixel := by
  unfold flushRows
  split <;> rfl

/-- A pixel's bytes are in the rows from `top` to `bottom` when the pixel is. -/
theorem offset_between {top bottom k : Nat} (hp : p ∈ c.area) (hk : k ≤ 3) :
    (top * c.stride ≤ c.offset p + k ∧ c.offset p + k < bottom * c.stride) ↔
      top ≤ p.2 ∧ p.2 < bottom := by
  have hend := offset_lt hp
  have hstart : p.2 * c.stride ≤ c.offset p := Nat.le_add_right _ _
  refine and_congr ⟨fun h => ?_, fun h => ?_⟩ ⟨fun h => ?_, fun h => ?_⟩
  · by_contra hlt
    have hrows : (p.2 + 1) * c.stride ≤ top * c.stride := Nat.mul_le_mul_right _ (by omega)
    omega
  · have hrows : top * c.stride ≤ p.2 * c.stride := Nat.mul_le_mul_right _ h
    omega
  · by_contra hge
    have hrows : bottom * c.stride ≤ p.2 * c.stride := Nat.mul_le_mul_right _ (by omega)
    omega
  · have hrows : (p.2 + 1) * c.stride ≤ bottom * c.stride := Nat.mul_le_mul_right _ h
    omega

theorem flushRows_shown (c : Canvas) (top bottom : Nat) (p : Point) :
    (c.flushRows top bottom).shown p =
      if top ≤ p.2 ∧ p.2 < bottom then c.pixel p else c.shown p := by
  unfold flushRows
  split
  · by_cases harea : p ∈ c.area
    · have hrow : p.2 < c.height := harea.2
      rw [if_neg (by omega)]
    · rw [pixel, shown, if_neg harea, if_neg harea, ite_self]
  · rename_i hlt
    unfold shown pixel
    by_cases harea : p ∈ c.area
    · have hrow : p.2 < c.height := harea.2
      have hstop : min bottom c.height * c.stride ≤ c.device.length := by
        rw [c.device_length, Nat.mul_comm c.stride]
        exact Nat.mul_le_mul_right _ (Nat.min_le_right ..)
      have hbyte (k : Nat) (hk : k ≤ 3) : (copied c.pixels c.device (top * c.stride)
          (min bottom c.height * c.stride))[c.offset p + k]? =
          if top ≤ p.2 ∧ p.2 < min bottom c.height then c.pixels[c.offset p + k]?
          else c.device[c.offset p + k]? := by
        rw [getElem?_copied (c.pixels_length.trans c.device_length.symm)
          (Nat.mul_le_mul_right _ (Nat.le_of_not_ge hlt)) hstop]
        simp only [offset_between harea hk]
      rw [if_pos harea, if_pos harea]
      refine (if_pos harea).trans ?_
      by_cases hin : top ≤ p.2 ∧ p.2 < bottom
      · rw [if_pos hin]
        exact pixelAt_congr fun k hk => (hbyte k hk).trans (if_pos (by omega))
      · rw [if_neg hin]
        exact pixelAt_congr fun k hk => (hbyte k hk).trans (if_neg (by omega))
    · rw [if_neg harea, if_neg harea, ite_self]
      exact if_neg harea

theorem flushAll_shown (c : Canvas) (p : Point) : c.flushAll.shown p = c.pixel p := by
  unfold flushAll
  rw [flushRows_shown]
  split
  · rfl
  · rename_i hrow
    have harea : p ∉ c.area := fun h => hrow ⟨Nat.zero_le _, h.2⟩
    unfold shown pixel
    rw [if_neg harea, if_neg harea]

/-! ## The logo -/

/-- A logo leaves the canvas in shape, which is all that `new` needs to go on with it. -/
theorem blitScaled_shape {build : Build} {logo : Logo} {x y w h : Nat}
    (hblit : c.blitScaled build logo x y w h = some c') :
    c'.width = c.width ∧ c'.height = c.height := by
  have hpixel (dy : Nat) (c₁ : Canvas) (dx : Nat) (c₂ : Canvas)
      (hshape : c₁.width = c.width ∧ c₁.height = c.height)
      (hstep : blitPixel build logo x y w h dx dy c₁ = some c₂) :
      c₂.width = c.width ∧ c₂.height = c.height := by
    unfold blitPixel at hstep
    simp only [Option.bind_eq_bind, Option.bind_eq_some_iff] at hstep
    obtain ⟨s, -, hstep⟩ := hstep
    split at hstep
    · cases hstep
      exact hshape
    split at hstep
    · obtain ⟨under, -, hput⟩ := Option.bind_eq_some_iff.mp hstep
      cases hput
      exact ⟨(put_draws _ _ _ _).width.trans hshape.1, (put_draws _ _ _ _).height.trans hshape.2⟩
    · cases hstep
      exact hshape
  exact foldlM_some (P := fun c₁ => c₁.width = c.width ∧ c₁.height = c.height)
    (fun c₁ dy c₂ hshape hrow => foldlM_some (hpixel dy) hshape hrow) ⟨rfl, rfl⟩ hblit

/-- A logo changes nothing to its left, which is where the text area is. -/
theorem blitScaled_left {build : Build} {logo : Logo} {x y w h : Nat}
    (hblit : c.blitScaled build logo x y w h = some c') (hp : p.1 < x) :
    c'.pixel p = c.pixel p := by
  have hpixel (dy : Nat) (c₁ : Canvas) (dx : Nat) (c₂ : Canvas) (hsame : c₁.pixel p = c.pixel p)
      (hstep : blitPixel build logo x y w h dx dy c₁ = some c₂) : c₂.pixel p = c.pixel p := by
    obtain ⟨s, -, hstep⟩ := Option.bind_eq_some_iff.mp hstep
    split at hstep
    · cases hstep
      exact hsame
    split at hstep
    · obtain ⟨under, -, hput⟩ := Option.bind_eq_some_iff.mp hstep
      cases hput
      rw [← hsame]
      refine (put_draws _ _ _ _).painted.outside p fun hmem => ?_
      obtain rfl : p = (x + dx, y + dy) := hmem.1
      exact absurd hp (Nat.not_lt_of_le (Nat.le_add_right x dx))
    · cases hstep
      exact hsame
  exact foldlM_some (P := fun c₁ => c₁.pixel p = c.pixel p)
    (fun c₁ dy c₂ hsame hrow => foldlM_some (hpixel dy) hsame hrow) rfl hblit

end Canvas

end Abora.Boot
