import Abora.Lib.Machine
import Abora.Lib.Files
import Mathlib.Tactic.Ring

/-!
# The boot logo (`abora-boot/src/logo.rs`)

A logo is scaled by sampling: the middle of a pixel is mapped into the logo, and the four texels
around it are weighted by how near they are. `bilinear` is that. What the code computes differs from
it in the lower row, whose two texels get the weights of the vertical position (`sample_exact`), so
a logo that is turned over does not scale the way it did.

All the arithmetic of the code is in machine words and may panic in a debug build. For boxes of less
than `2 ^ 15` pixels a side, far more than the boot screen ever asks for, nothing of it overflows
(`accumulate_eq`), and what remains are two formulas on natural numbers, `mixed` and `bilinear`.
-/

namespace Abora.Boot

open Lib

/-- A logo that has been loaded. The sides are positive and have 32 bits, since `load` reads them
so; how much data there is behind them is another question (`load_full`). -/
structure Logo where
  width : Nat
  height : Nat
  rgba : Bytes
  width_pos : 0 < width
  height_pos : 0 < height
  width_lt : width < 2 ^ 32
  height_lt : height < 2 ^ 32
  rgba_lt : rgba.length < 2 ^ 63

/-- One value for each of red, green, blue and alpha. -/
structure Channels where
  red : Nat
  green : Nat
  blue : Nat
  alpha : Nat
  deriving DecidableEq, Repr

/-- A byte times a byte, which is as large as a premultiplied channel can be. -/
def Channels.Bounded (t : Channels) : Prop :=
  t.red ≤ 65025 ∧ t.green ≤ 65025 ∧ t.blue ≤ 65025 ∧ t.alpha ≤ 65025

/-- `u32::from_le_bytes`: the lowest byte comes first. -/
def fromLeBytes (a b c d : UInt8) : Nat :=
  a.toNat + 2 ^ 8 * b.toNat + 2 ^ 16 * c.toNat + 2 ^ 24 * d.toNat

theorem fromLeBytes_lt (a b c d : UInt8) : fromLeBytes a b c d < 2 ^ 32 := by
  have ha := a.toNat_lt
  have hb := b.toNat_lt
  have hc := c.toNat_lt
  have hd := d.toNat_lt
  unfold fromLeBytes
  omega

namespace Logo

/-- `load`, of the bytes of the file; `none` is a panic. The length that the header announces is
computed in 64 bits, and in a release build the product may wrap. -/
def load (build : Build) (data : Bytes) (hlen : data.length < 2 ^ 63) :
    Option (Except String Logo) :=
  match data with
  | 0x41 :: 0x42 :: 0x52 :: 0x31 :: w0 :: w1 :: w2 :: w3 :: h0 :: h1 :: h2 :: h3 :: rgba =>
    if hsize : fromLeBytes w0 w1 w2 w3 = 0 ∨ fromLeBytes h0 h1 h2 h3 = 0 then
      some (.error "logo size does not match its header")
    else do
      let pixels ← fit build 64 (fromLeBytes w0 w1 w2 w3 * fromLeBytes h0 h1 h2 h3)
      let bytes ← fit build 64 (pixels * 4)
      let size ← fit build 64 (12 + bytes)
      if rgba.length + 12 ≠ size then some (.error "logo size does not match its header")
      else
        some (.ok {
          width := fromLeBytes w0 w1 w2 w3
          height := fromLeBytes h0 h1 h2 h3
          rgba := rgba
          width_pos := Nat.pos_of_ne_zero (not_or.mp hsize).1
          height_pos := Nat.pos_of_ne_zero (not_or.mp hsize).2
          width_lt := fromLeBytes_lt w0 w1 w2 w3
          height_lt := fromLeBytes_lt h0 h1 h2 h3
          rgba_lt := Nat.lt_of_le_of_lt (Nat.le_add_right _ 12) hlen })
  | _ => some (.error "not an ABR1 logo file")

/-- The premultiplied colour of four bytes: transparent pixels do not bleed. -/
def premultiply (build : Build) (r g b a : UInt8) : Option Channels := do
  let red ← fit build 32 (r.toNat * a.toNat)
  let green ← fit build 32 (g.toNat * a.toNat)
  let blue ← fit build 32 (b.toNat * a.toNat)
  let alpha ← fit build 32 (a.toNat * 255)
  some ⟨red, green, blue, alpha⟩

/-- `texel`: the four bytes of a position, clamped to the logo. Alpha is read first, as in the
source. -/
def texel (build : Build) (l : Logo) (x y : Nat) : Option Channels := do
  let row ← fit build 64 (min y (l.height - 1) * l.width)
  let pixel ← fit build 64 (row + min x (l.width - 1))
  let i ← fit build 64 (pixel * 4)
  let a ← l.rgba[← fit build 64 (i + 3)]?
  let r ← l.rgba[i]?
  let g ← l.rgba[← fit build 64 (i + 1)]?
  let b ← l.rgba[← fit build 64 (i + 2)]?
  premultiply build r g b a

/-- Where the middle of a pixel is in a side of the logo, in 1/256 of a texel, and at least 0. -/
def sourcePos (build : Build) (d side box : Nat) : Option Nat := do
  let twice ← fit build 64 (2 * d)
  let middle ← fit build 64 (twice + 1)
  let scaled ← fit build 64 (middle * side)
  let scaled ← fit build 64 (scaled * 128)
  if box = 0 then none else some (((scaled / box : Nat) : Int) - 128).toNat

/-- One channel of the four texels. Each of the operations is checked; the weights of the lower row
are those of the source. -/
def mix (build : Build) (fx fy t00 t10 t01 t11 : Nat) : Option Nat := do
  let topLeft ← fit build 64 (t00 * (256 - fx))
  let topRight ← fit build 64 (t10 * fx)
  let top ← fit build 64 (topLeft + topRight)
  let bottomLeft ← fit build 64 (t01 * (256 - fy))
  let bottomRight ← fit build 64 (t11 * fy)
  let bottom ← fit build 64 (bottomLeft + bottomRight)
  let upper ← fit build 64 (top * (256 - fy))
  let lower ← fit build 64 (bottom * fy)
  let sum ← fit build 64 (upper + lower)
  some (sum / 2 ^ 16)

/-- The accumulators of `sample`: colour times alpha, and alpha times 255. The four channels do not
depend on one another. -/
def accumulate (build : Build) (l : Logo) (dx dy dw dh : Nat) : Option Channels := do
  let sx ← sourcePos build dx l.width dw
  let sy ← sourcePos build dy l.height dh
  let (x0, y0, fx, fy) := (sx / 256, sy / 256, sx % 256, sy % 256)
  let t00 ← l.texel build x0 y0
  let t10 ← l.texel build (x0 + 1) y0
  let t01 ← l.texel build x0 (y0 + 1)
  let t11 ← l.texel build (x0 + 1) (y0 + 1)
  let red ← mix build fx fy t00.red t10.red t01.red t11.red
  let green ← mix build fx fy t00.green t10.green t01.green t11.green
  let blue ← mix build fx fy t00.blue t10.blue t01.blue t11.blue
  let alpha ← mix build fx fy t00.alpha t10.alpha t01.alpha t11.alpha
  some ⟨red, green, blue, alpha⟩

/-- The straight colour and the alpha of accumulators, each a byte. -/
def unpremultiply (out : Channels) : Channels :=
  let alpha := out.alpha / 255
  if alpha = 0 then ⟨0, 0, 0, 0⟩
  else ⟨min (out.red / alpha) 255, min (out.green / alpha) 255, min (out.blue / alpha) 255,
    min alpha 255⟩

/-- `sample`: straight colour and alpha of a pixel in a box. -/
def sample (build : Build) (l : Logo) (dx dy dw dh : Nat) : Option Channels :=
  (l.accumulate build dx dy dw dh).map unpremultiply

/-! ## Bilinear interpolation -/

/-- The texel of a position, if the data has it. -/
def pixel? (l : Logo) (x y : Nat) : Option Channels := do
  let r ← l.rgba[(y * l.width + x) * 4]?
  let g ← l.rgba[(y * l.width + x) * 4 + 1]?
  let b ← l.rgba[(y * l.width + x) * 4 + 2]?
  let a ← l.rgba[(y * l.width + x) * 4 + 3]?
  some ⟨r.toNat * a.toNat, g.toNat * a.toNat, b.toNat * a.toNat, a.toNat * 255⟩

/-- The nearest texel, of a position that may be beyond the right or the lower side. -/
def clamped? (l : Logo) (x y : Nat) : Option Channels :=
  l.pixel? (min x (l.width - 1)) (min y (l.height - 1))

end Logo

/-- The position in a side that the middle of a pixel is mapped to, in 1/256. -/
def mapped (d side box : Nat) : Nat := (2 * d + 1) * side * 128 / box - 128

/-- Four neighbours: the upper two and the lower two, the left one first. -/
structure Quad where
  t00 : Channels
  t10 : Channels
  t01 : Channels
  t11 : Channels
  deriving DecidableEq, Repr

namespace Quad

def map (f : Nat → Nat → Nat → Nat → Nat) (q : Quad) : Channels where
  red := f q.t00.red q.t10.red q.t01.red q.t11.red
  green := f q.t00.green q.t10.green q.t01.green q.t11.green
  blue := f q.t00.blue q.t10.blue q.t01.blue q.t11.blue
  alpha := f q.t00.alpha q.t10.alpha q.t01.alpha q.t11.alpha

/-- A condition on the four values of a channel, for all channels. -/
def All (p : Nat → Nat → Nat → Nat → Prop) (q : Quad) : Prop :=
  p q.t00.red q.t10.red q.t01.red q.t11.red ∧
  p q.t00.green q.t10.green q.t01.green q.t11.green ∧
  p q.t00.blue q.t10.blue q.t01.blue q.t11.blue ∧
  p q.t00.alpha q.t10.alpha q.t01.alpha q.t11.alpha

instance (p : Nat → Nat → Nat → Nat → Prop) [∀ a b c d, Decidable (p a b c d)] (q : Quad) :
    Decidable (q.All p) := inferInstanceAs (Decidable (_ ∧ _ ∧ _ ∧ _))

/-- Turned over at the diagonal. -/
def transpose (q : Quad) : Quad := ⟨q.t00, q.t01, q.t10, q.t11⟩

theorem map_eq_map_iff {f g : Nat → Nat → Nat → Nat → Nat} {q : Quad} :
    q.map f = q.map g ↔ q.All fun a b c d => f a b c d = g a b c d :=
  Channels.mk.injEq .. ▸ Iff.rfl

end Quad

/-- Four texels weighted by how near they are, before the division. The weights are products of a
horizontal and a vertical part and add up to 65536. -/
def weighted (fx fy t00 t10 t01 t11 : Nat) : Nat :=
  t00 * ((256 - fx) * (256 - fy)) + t10 * (fx * (256 - fy)) + t01 * ((256 - fx) * fy) +
    t11 * (fx * fy)

/-- Bilinear interpolation of one channel, rounded down. -/
def bilinear (fx fy t00 t10 t01 t11 : Nat) : Nat := weighted fx fy t00 t10 t01 t11 / 65536

/-- What the weights of the lower row are off by does not change the quotient. It is the difference
of the two lower texels, times that of the two weights, times the vertical one; added to the
remainder it must stay within one unit of the quotient. -/
def NoCarry (fx fy t00 t10 t01 t11 : Nat) : Prop :=
  0 ≤ (weighted fx fy t00 t10 t01 t11 % 65536 : Int) +
      ((t01 : Int) - t11) * ((fx : Int) - fy) * fy ∧
    (weighted fx fy t00 t10 t01 t11 % 65536 : Int) + ((t01 : Int) - t11) * ((fx : Int) - fy) * fy <
      65536

instance (fx fy t00 t10 t01 t11 : Nat) : Decidable (NoCarry fx fy t00 t10 t01 t11) :=
  inferInstanceAs (Decidable (_ ∧ _))

namespace Logo

/-- The texels around the position a pixel is mapped to. -/
def quad? (l : Logo) (dx dy dw dh : Nat) : Option Quad := do
  let x0 := mapped dx l.width dw / 256
  let y0 := mapped dy l.height dh / 256
  some ⟨← l.clamped? x0 y0, ← l.clamped? (x0 + 1) y0, ← l.clamped? x0 (y0 + 1),
    ← l.clamped? (x0 + 1) (y0 + 1)⟩

/-- The accumulators of a pixel are the interpolation of the texels around it. -/
def Interpolates (build : Build) (l : Logo) (dx dy dw dh : Nat) : Prop :=
  ∃ q, l.quad? dx dy dw dh = some q ∧ l.accumulate build dx dy dw dh =
    some (q.map (bilinear (mapped dx l.width dw % 256) (mapped dy l.height dh % 256)))

/-- The logo has the texels around a pixel, and in no channel do the weights of the lower row change
the quotient. -/
def Blends (l : Logo) (dx dy dw dh : Nat) : Prop :=
  ∃ q, l.quad? dx dy dw dh = some q ∧
    q.All (NoCarry (mapped dx l.width dw % 256) (mapped dy l.height dh % 256))

/-! ## Nothing overflows -/

theorem sourcePos_eq {build : Build} {d side box : Nat} (hd : d < box) (hbox : box < 2 ^ 15)
    (hside : side < 2 ^ 32) : sourcePos build d side box = some (mapped d side box) := by
  have hmiddle : (2 * d + 1) * side ≤ 2 ^ 16 * 2 ^ 32 := Nat.mul_le_mul (by omega) (by omega)
  unfold sourcePos
  simp only [Option.bind_eq_bind]
  rw [fit_bind (by omega), fit_bind (by omega), fit_bind (by omega), fit_bind (by omega),
    if_neg (by omega)]
  generalize hscaled : (2 * d + 1) * side * 128 / box = scaled
  have hpos : ((scaled : Int) - 128).toNat = scaled - 128 := by omega
  unfold mapped
  rw [hpos, hscaled]

theorem premultiply_eq (build : Build) (r g b a : UInt8) :
    premultiply build r g b a =
      some ⟨r.toNat * a.toNat, g.toNat * a.toNat, b.toNat * a.toNat, a.toNat * 255⟩ := by
  have hbyte (c : UInt8) : c.toNat * a.toNat ≤ 255 * 255 :=
    Nat.mul_le_mul (Nat.le_of_lt_succ c.toNat_lt) (Nat.le_of_lt_succ a.toNat_lt)
  have ha := a.toNat_lt
  unfold premultiply
  simp only [Option.bind_eq_bind]
  rw [fit_bind (Nat.lt_of_le_of_lt (hbyte r) (by decide)),
    fit_bind (Nat.lt_of_le_of_lt (hbyte g) (by decide)),
    fit_bind (Nat.lt_of_le_of_lt (hbyte b) (by decide)), fit_bind (by omega)]

theorem pixel?_eq_some {l : Logo} {x y : Nat} {t : Channels} (h : l.pixel? x y = some t) :
    ∃ r g b a, l.rgba[(y * l.width + x) * 4]? = some r ∧
      l.rgba[(y * l.width + x) * 4 + 1]? = some g ∧ l.rgba[(y * l.width + x) * 4 + 2]? = some b ∧
      l.rgba[(y * l.width + x) * 4 + 3]? = some a ∧
      t = ⟨r.toNat * a.toNat, g.toNat * a.toNat, b.toNat * a.toNat, a.toNat * 255⟩ := by
  unfold pixel? at h
  simp only [Option.bind_eq_bind, Option.bind_eq_some_iff] at h
  obtain ⟨r, hr, g, hg, b, hb, a, ha, ht⟩ := h
  exact ⟨r, g, b, a, hr, hg, hb, ha, (Option.some.inj ht).symm⟩

theorem texel_eq {build : Build} {l : Logo} {x y : Nat} {t : Channels}
    (h : l.clamped? x y = some t) : l.texel build x y = some t := by
  obtain ⟨r, g, b, a, hr, hg, hb, ha, rfl⟩ := pixel?_eq_some h
  obtain ⟨hlen, -⟩ := List.getElem?_eq_some_iff.mp ha
  have hrgba := l.rgba_lt
  unfold texel
  simp only [Option.bind_eq_bind]
  generalize min y (l.height - 1) * l.width = row at hr hg hb ha hlen ⊢
  generalize min x (l.width - 1) = column at hr hg hb ha hlen ⊢
  rw [fit_bind (by omega), fit_bind (by omega), fit_bind (by omega), fit_bind (by omega), ha,
    Option.bind_some, hr, Option.bind_some, fit_bind (by omega), hg, Option.bind_some,
    fit_bind (by omega), hb, Option.bind_some, premultiply_eq]

theorem clamped?_bounded {l : Logo} {x y : Nat} {t : Channels} (h : l.clamped? x y = some t) :
    t.Bounded := by
  obtain ⟨r, g, b, a, -, -, -, -, rfl⟩ := pixel?_eq_some h
  have hbyte (c : UInt8) : c.toNat * a.toNat ≤ 65025 :=
    Nat.mul_le_mul (Nat.le_of_lt_succ c.toNat_lt) (Nat.le_of_lt_succ a.toNat_lt)
  have ha := a.toNat_lt
  have halpha : a.toNat * 255 ≤ 65025 := by omega
  exact ⟨hbyte r, hbyte g, hbyte b, halpha⟩

end Logo

/-- What the code makes of one channel: the lower row has the weights of the vertical position. -/
def mixed (fx fy t00 t10 t01 t11 : Nat) : Nat :=
  ((t00 * (256 - fx) + t10 * fx) * (256 - fy) + (t01 * (256 - fy) + t11 * fy) * fy) / 65536

/-- Nothing overflows in the interpolation: a channel has 16 bits and the weights have 16 more. -/
theorem Logo.mix_eq {build : Build} {fx fy t00 t10 t01 t11 : Nat} (hfx : fx < 256) (hfy : fy < 256)
    (h00 : t00 ≤ 65025) (h10 : t10 ≤ 65025) (h01 : t01 ≤ 65025) (h11 : t11 ≤ 65025) :
    Logo.mix build fx fy t00 t10 t01 t11 = some (mixed fx fy t00 t10 t01 t11) := by
  have hle {t f m : Nat} (ht : t ≤ m) (hf : f ≤ 256) : t * f ≤ m * 256 := Nat.mul_le_mul ht hf
  have htopLeft := hle h00 (Nat.sub_le 256 fx)
  have htopRight := hle h10 (Nat.le_of_lt hfx)
  have hbottomLeft := hle h01 (Nat.sub_le 256 fy)
  have hbottomRight := hle h11 (Nat.le_of_lt hfy)
  have hupper := hle (Nat.add_le_add htopLeft htopRight) (Nat.sub_le 256 fy)
  have hlower := hle (Nat.add_le_add hbottomLeft hbottomRight) (Nat.le_of_lt hfy)
  unfold Logo.mix mixed
  simp only [Option.bind_eq_bind]
  rw [fit_bind (by omega), fit_bind (by omega), fit_bind (by omega),
    fit_bind (by omega), fit_bind (by omega), fit_bind (by omega),
    fit_bind (by omega), fit_bind (by omega), fit_bind (by omega)]
  rfl

/-- The quotients agree unless the difference carries. The two sums differ by exactly what `NoCarry`
looks at, which is shown first; what follows is about one division. -/
theorem mixed_eq_bilinear_iff {fx fy : Nat} (hfx : fx < 256) (hfy : fy < 256)
    (t00 t10 t01 t11 : Nat) :
    mixed fx fy t00 t10 t01 t11 = bilinear fx fy t00 t10 t01 t11 ↔
      NoCarry fx fy t00 t10 t01 t11 := by
  have hdiff : (((t00 * (256 - fx) + t10 * fx) * (256 - fy) + (t01 * (256 - fy) + t11 * fy) * fy :
      Nat) : Int) =
      weighted fx fy t00 t10 t01 t11 + ((t01 : Int) - t11) * ((fx : Int) - fy) * fy := by
    unfold weighted
    push_cast [Nat.le_of_lt hfx, Nat.le_of_lt hfy]
    ring
  unfold mixed bilinear NoCarry
  generalize ((t01 : Int) - t11) * ((fx : Int) - fy) * fy = diff at hdiff ⊢
  generalize weighted fx fy t00 t10 t01 t11 = right at hdiff ⊢
  omega

theorem bilinear_transpose (fx fy t00 t10 t01 t11 : Nat) :
    bilinear fy fx t00 t01 t10 t11 = bilinear fx fy t00 t10 t01 t11 := by
  unfold bilinear weighted
  congr 1
  ring

/-- So four texels that are turned over interpolate to the same, with the weights exchanged. -/
theorem Quad.map_transpose (fx fy : Nat) (q : Quad) :
    q.transpose.map (bilinear fy fx) = q.map (bilinear fx fy) := by
  unfold Quad.map Quad.transpose
  simp only [bilinear_transpose fx]

namespace Logo

/-- The accumulators of a pixel whose texels the data has: the code computes `mixed` of them. -/
theorem accumulate_eq {build : Build} {l : Logo} {dx dy dw dh : Nat} {q : Quad} (hdx : dx < dw)
    (hdy : dy < dh) (hdw : dw < 2 ^ 15) (hdh : dh < 2 ^ 15) (h : l.quad? dx dy dw dh = some q) :
    l.accumulate build dx dy dw dh =
      some (q.map (mixed (mapped dx l.width dw % 256) (mapped dy l.height dh % 256))) := by
  unfold quad? at h
  simp only [Option.bind_eq_bind, Option.bind_eq_some_iff] at h
  obtain ⟨t00, h00, t10, h10, t01, h01, t11, h11, hq⟩ := h
  obtain rfl := Option.some.inj hq
  have hfx : mapped dx l.width dw % 256 < 256 := Nat.mod_lt _ (by decide)
  have hfy : mapped dy l.height dh % 256 < 256 := Nat.mod_lt _ (by decide)
  obtain ⟨hr00, hg00, hb00, ha00⟩ := clamped?_bounded h00
  obtain ⟨hr10, hg10, hb10, ha10⟩ := clamped?_bounded h10
  obtain ⟨hr01, hg01, hb01, ha01⟩ := clamped?_bounded h01
  obtain ⟨hr11, hg11, hb11, ha11⟩ := clamped?_bounded h11
  unfold accumulate
  rw [sourcePos_eq hdx hdw l.width_lt, sourcePos_eq hdy hdh l.height_lt]
  simp only [Option.bind_eq_bind, Option.bind_some, texel_eq h00, texel_eq h10, texel_eq h01,
    texel_eq h11, mix_eq hfx hfy hr00 hr10 hr01 hr11, mix_eq hfx hfy hg00 hg10 hg01 hg11,
    mix_eq hfx hfy hb00 hb10 hb01 hb11, mix_eq hfx hfy ha00 ha10 ha01 ha11]
  rfl

/-- The code interpolates where the texels are there and no channel carries. If a texel is missing,
it panics, and there is nothing to compare. -/
theorem interpolates_iff {build : Build} {l : Logo} {dx dy dw dh : Nat} (hdx : dx < dw)
    (hdy : dy < dh) (hdw : dw < 2 ^ 15) (hdh : dh < 2 ^ 15) :
    l.Interpolates build dx dy dw dh ↔ l.Blends dx dy dw dh := by
  unfold Interpolates Blends
  refine exists_congr fun q => and_congr_right fun hq => ?_
  rw [accumulate_eq hdx hdy hdw hdh hq, Option.some.injEq, Quad.map_eq_map_iff]
  have hfx : mapped dx l.width dw % 256 < 256 := Nat.mod_lt _ (by decide)
  have hfy : mapped dy l.height dh % 256 < 256 := Nat.mod_lt _ (by decide)
  unfold Quad.All
  simp only [mixed_eq_bilinear_iff hfx hfy]

/-! ## What the data has -/

theorem pixel?_isSome_of_full {l : Logo} (h : l.rgba.length = l.width * l.height * 4) {x y : Nat}
    (hx : x < l.width) (hy : y < l.height) : ∃ t, l.pixel? x y = some t := by
  have hrow : y * l.width + l.width ≤ l.width * l.height := by
    calc y * l.width + l.width = l.width * (y + 1) := by ring
      _ ≤ l.width * l.height := Nat.mul_le_mul_left _ hy
  have hlt : (y * l.width + x) * 4 + 3 < l.rgba.length := by omega
  unfold pixel?
  rw [List.getElem?_eq_getElem (by omega), List.getElem?_eq_getElem (by omega),
    List.getElem?_eq_getElem (by omega), List.getElem?_eq_getElem hlt]
  exact ⟨_, rfl⟩

theorem quad?_isSome_of_full {l : Logo} (h : l.rgba.length = l.width * l.height * 4)
    (dx dy dw dh : Nat) : ∃ q, l.quad? dx dy dw dh = some q := by
  have hwidth := l.width_pos
  have hheight := l.height_pos
  have hpixel (x y : Nat) : ∃ t, l.clamped? x y = some t :=
    pixel?_isSome_of_full h (by omega) (by omega)
  obtain ⟨t00, h00⟩ := hpixel (mapped dx l.width dw / 256) (mapped dy l.height dh / 256)
  obtain ⟨t10, h10⟩ := hpixel (mapped dx l.width dw / 256 + 1) (mapped dy l.height dh / 256)
  obtain ⟨t01, h01⟩ := hpixel (mapped dx l.width dw / 256) (mapped dy l.height dh / 256 + 1)
  obtain ⟨t11, h11⟩ := hpixel (mapped dx l.width dw / 256 + 1) (mapped dy l.height dh / 256 + 1)
  unfold quad?
  dsimp only
  rw [h00, h10, h01, h11]
  exact ⟨_, rfl⟩

/-- A file is loaded with data of the length in its header, unless that length wraps. -/
theorem load_full {build : Build} {data : Bytes} {hlen : data.length < 2 ^ 63} {l : Logo}
    (h : load build data hlen = some (.ok l))
    (hbuild : build = .debug ∨ l.width * l.height * 4 < 2 ^ 63) :
    l.rgba.length = l.width * l.height * 4 := by
  unfold load at h
  split at h
  · rename_i w0 w1 w2 w3 h0 h1 h2 h3 rgba hlen
    split at h
    · cases h
    · simp only [Option.bind_eq_bind, Option.bind_eq_some_iff] at h
      obtain ⟨pixels, hpixels, bytes, hbytes, size, hsize, h⟩ := h
      split at h
      · cases h
      · rename_i hlength
        cases h
        dsimp only at hbuild ⊢
        obtain rfl := eq_of_fit hpixels (hbuild.imp_right (by omega))
        obtain rfl := eq_of_fit hbytes (hbuild.imp_right (by omega))
        obtain rfl := eq_of_fit hsize (hbuild.imp_right (by omega))
        omega
  · cases h

/-- A logo from a file has all of its texels, so there only the weights decide: a pixel is what its
four texels interpolate to just where none of the channels carries. -/
theorem loaded_interpolates_iff {build : Build} {data : Bytes} {hlen : data.length < 2 ^ 63}
    {l : Logo} (h : load build data hlen = some (.ok l))
    (hbuild : build = .debug ∨ l.width * l.height * 4 < 2 ^ 63) {dx dy dw dh : Nat} (hdx : dx < dw)
    (hdy : dy < dh) (hdw : dw < 2 ^ 15) (hdh : dh < 2 ^ 15) :
    ∃ q, l.quad? dx dy dw dh = some q ∧ (l.Interpolates build dx dy dw dh ↔
      q.All (NoCarry (mapped dx l.width dw % 256) (mapped dy l.height dh % 256))) := by
  obtain ⟨q, hq⟩ := quad?_isSome_of_full (load_full h hbuild) dx dy dw dh
  refine ⟨q, hq, (interpolates_iff hdx hdy hdw hdh).trans ?_⟩
  unfold Blends
  simp only [hq, Option.some.injEq, exists_eq_left']

/-! ## Turned over -/

/-- The second logo is the first, turned over at the diagonal. -/
structure Transposed (l l' : Logo) : Prop where
  width : l'.width = l.height
  height : l'.height = l.width
  pixel : ∀ x < l.width, ∀ y < l.height, l'.pixel? y x = l.pixel? x y

theorem Transposed.clamped? {l l' : Logo} (h : Transposed l l') (x y : Nat) :
    l'.clamped? y x = l.clamped? x y := by
  have hwidth := l.width_pos
  have hheight := l.height_pos
  unfold Logo.clamped?
  rw [h.width, h.height]
  exact h.pixel _ (by omega) _ (by omega)

/-- The four texels around the mirror image of a pixel are the four around it, turned over. -/
theorem Transposed.quad? {l l' : Logo} (h : Transposed l l') (dx dy dw dh : Nat) :
    l'.quad? dy dx dh dw = (l.quad? dx dy dw dh).map Quad.transpose := by
  unfold Logo.quad?
  simp only [h.width, h.height, h.clamped?, Option.bind_eq_bind]
  generalize mapped dx l.width dw / 256 = x0
  generalize mapped dy l.height dh / 256 = y0
  cases l.clamped? x0 y0 <;> cases l.clamped? (x0 + 1) y0 <;> cases l.clamped? x0 (y0 + 1) <;>
    cases l.clamped? (x0 + 1) (y0 + 1) <;> rfl

theorem Transposed.sample_eq {build : Build} {l l' : Logo} (h : Transposed l l')
    {dx dy dw dh : Nat} (hl : l.Interpolates build dx dy dw dh)
    (hl' : l'.Interpolates build dy dx dh dw) :
    l'.sample build dy dx dh dw = l.sample build dx dy dw dh := by
  obtain ⟨q, hq, hacc⟩ := hl
  obtain ⟨q', hq', hacc'⟩ := hl'
  rw [h.quad?, hq] at hq'
  obtain rfl := Option.some.inj hq'
  unfold sample
  rw [hacc, hacc', h.width, h.height, Option.map_some, Option.map_some, Quad.map_transpose]

end Logo

/-- **Scaling is bilinear interpolation** for exactly those pixels whose texels the logo has and
where the weights of the lower row do not carry; and where that is so for a pixel and for its mirror
image in the logo turned over, the two are the same colour. -/
theorem sample_exact (build : Build) (l : Logo) {dx dy dw dh : Nat} (hdx : dx < dw) (hdy : dy < dh)
    (hdw : dw < 2 ^ 15) (hdh : dh < 2 ^ 15) :
    (l.Interpolates build dx dy dw dh ↔ l.Blends dx dy dw dh) ∧
    ∀ l', Logo.Transposed l l' →
      ((l.Interpolates build dx dy dw dh ∧ l'.Interpolates build dy dx dh dw ∧
        l'.sample build dy dx dh dw = l.sample build dx dy dw dh) ↔
        l.Blends dx dy dw dh ∧ l'.Blends dy dx dh dw) := by
  have hl : l.Interpolates build dx dy dw dh ↔ l.Blends dx dy dw dh :=
    Logo.interpolates_iff hdx hdy hdw hdh
  refine ⟨hl, fun l' htrans => ?_⟩
  have hl' : l'.Interpolates build dy dx dh dw ↔ l'.Blends dy dx dh dw :=
    Logo.interpolates_iff hdy hdx hdh hdw
  rw [← hl, ← hl']
  constructor
  · exact fun h => ⟨h.1, h.2.1⟩
  · exact fun h => ⟨h.1, h.2, htrans.sample_eq h.1 h.2⟩

/-- Two pixels wide and high, with one opaque corner, so that each of the four weights can be
seen. -/
def cornerLogo : Logo where
  width := 2
  height := 2
  rgba := [0, 0, 0, 0, 0, 0, 0, 0, 255, 255, 255, 255, 0, 0, 0, 0]
  width_pos := by decide
  height_pos := by decide
  width_lt := by decide
  height_lt := by decide
  rgba_lt := by decide

/-- On the diagonal the weights of the two rows are the same, and the code interpolates. -/
theorem sample_exact_corner : cornerLogo.Interpolates .release 3 3 8 8 :=
  (sample_exact .release cornerLogo (by decide) (by decide) (by decide) (by decide)).1.mpr
    ⟨_, rfl, by decide⟩

/-- Off the diagonal they are not, and a pixel of a box that is wider than high gets another
colour. -/
theorem corner_not_interpolated :
    cornerLogo.accumulate .release 3 1 8 4 = some ⟨12192, 12192, 12192, 12192⟩ ∧
      ¬ cornerLogo.Interpolates .release 3 1 8 4 := by
  refine ⟨by decide, ?_⟩
  rintro ⟨q, hq, hacc⟩
  obtain rfl := Option.some.inj hq
  revert hacc
  decide

end Abora.Boot
