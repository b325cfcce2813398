import Abora.Lib.Files

/-!
# The boot font (`abora-boot/src/font.rs`)

A PSF1 font: glyphs eight pixels wide, a byte a row. Latin-1 characters have their own glyph and all
others, like control characters, that of a question mark. A file that is too short for its glyphs is
refused when it is loaded, so that every character can be drawn afterwards (`length_glyph`).
-/

namespace Abora.Boot

open Lib

/-- A font that has been loaded. Its fields keep what `load` has checked: there are at least 256
glyphs, and all of them are there in full. -/
structure Font where
  height : Nat
  glyphs : Bytes
  count : Nat
  height_pos : 0 < height
  count_ge : 256 ≤ count
  glyphs_length : glyphs.length = count * height

namespace Font

/-- `load`, of the bytes of the file: two magic bytes, the mode, the height, and the glyphs. What is
behind the glyphs, a table for Unicode, is left unread. -/
def load : Bytes → Except String Font
  | 0x36 :: 0x04 :: mode :: rows :: rest =>
    let count := if mode &&& 1 ≠ 0 then 512 else 256
    if h : 0 < rows.toNat ∧ count * rows.toNat ≤ rest.length then
      .ok {
        height := rows.toNat
        glyphs := rest.take (count * rows.toNat)
        count := count
        height_pos := h.1
        count_ge := by
          show 256 ≤ if mode &&& 1 ≠ 0 then 512 else 256
          split <;> decide
        glyphs_length := by
          rw [List.length_take]
          exact Nat.min_eq_left h.2 }
    else .error "truncated PSF1 font"
  | _ => .error "not a PSF1 font"

/-- `width`: the format has no other. -/
def width (_ : Font) : Nat := 8

theorem width_pos (font : Font) : 0 < font.width := Nat.succ_pos 7

/-- Which glyph a character has. A font of 512 glyphs is used like one of 256. -/
def index (font : Font) (c : Char) : Nat :=
  if c.toNat ≥ min 256 font.count ∨ c.toNat < 32 then '?'.toNat else c.toNat

/-- `glyph`: the rows of a character, from the top. -/
def glyph (font : Font) (c : Char) : Bytes :=
  (font.glyphs.drop (font.index c * font.height)).take font.height

/-- Whether a row of a glyph has a pixel. The leftmost pixel is the highest bit. -/
def hasBit (bits : UInt8) (gx : Nat) : Bool := bits &&& (0x80 >>> UInt8.ofNat gx) != 0

/-- Whether a character has a pixel, from the left and from the top. -/
def dot (font : Font) (c : Char) (gx gy : Nat) : Bool :=
  (font.glyph c)[gy]?.any fun bits => hasBit bits gx

/-- The question mark is a character of Latin-1, so there is a glyph for whatever is drawn. -/
theorem index_lt (font : Font) (c : Char) : font.index c < 256 := by
  unfold index
  split
  · decide
  · omega

/-- No glyph is cut off, so that none of the slices in the source can panic. -/
theorem length_glyph (font : Font) (c : Char) : (font.glyph c).length = font.height := by
  have hrows : (font.index c + 1) * font.height ≤ font.count * font.height :=
    Nat.mul_le_mul_right _ (Nat.le_trans (font.index_lt c) font.count_ge)
  unfold glyph
  rw [List.length_take, List.length_drop, font.glyphs_length]
  rw [Nat.succ_mul] at hrows
  omega

end Font

end Abora.Boot
