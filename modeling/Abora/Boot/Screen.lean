import Abora.Boot.Canvas

/-!
# The boot log (`Screen` in `abora-boot/src/main.rs`)

The text area has the logo to its right and a margin all around. Lines are cut to the width of the
area when they are pushed, and a redraw clears the area and draws the last lines that fit. But a
line that goes on is indented *after* it was cut, so it may be two characters wider than the area;
these are drawn outside of it, and stay. `no_residue` is what holds when no line is that long.

What is drawn is described point by point. `picture` is the color that a point of the area should
have, computed from the lines alone; `draw_inside` says that a redraw gives it this color, whatever
was there before, and `draw_outside` that it leaves the rest alone. Over a run of calls the two are
kept together by an invariant, `Kept`.
-/

namespace Abora.Boot

open Lib

/-- `BACKGROUND`. -/
def background : Rgb := ⟨0, 0, 0⟩

/-- `TEXT`. -/
def textColor : Rgb := ⟨0xD0, 0xD0, 0xD0⟩

/-- `MAX_LINES`: as many lines are stored, and the oldest are dropped first. -/
def maxLines : Nat := 500

/-- The `margin` of `new`, on every side of the text area. -/
def margin : Nat := 16

/-- The boot screen: a canvas with a text area, and the lines that have been pushed. -/
structure Screen where
  canvas : Canvas
  font : Font
  x : Nat
  y : Nat
  w : Nat
  h : Nat
  lines : List (List Char)

/-- The side of the logo: a third of the height within limits, and never more than a third of the
width. -/
def logoSize (width height : Nat) : Nat := min (max 96 (min (height / 3) 320)) (width / 3)

namespace Screen

/-- `new`; `none` is a panic. Subtraction stops at zero here, but on a canvas with room for the
margins, which is what the theorems are about, none of the differences would be below it. -/
def new (build : Build) (canvas : Canvas) (font : Font) (logo : Option Logo) : Option Screen := do
  let (w, h) := (canvas.width, canvas.height)
  let canvas := canvas.fillRect 0 0 w h background
  match logo with
  | none => some ⟨canvas.flushAll, font, margin, margin, w - 2 * margin, h - 2 * margin, []⟩
  | some logo =>
    let size := logoSize w h
    let canvas ← canvas.blitScaled build logo (w - margin - size) margin size size
    some ⟨canvas.flushAll, font, margin, margin, w - 3 * margin - size, h - 2 * margin, []⟩

/-- `cols`, in `push`: how many characters a line of the text area takes, and no fewer than
eight. -/
def cols (s : Screen) : Nat := max (s.w / s.font.width) 8

/-- The lines of a text: all but the first are indented. An empty text is an empty line. -/
def wrapped (cols : Nat) (chars : List Char) : List (List Char) :=
  match chunks (cols - 1) chars with
  | [] => [[]]
  | first :: rest => first :: rest.map fun chunk => ' ' :: ' ' :: chunk

/-- `push`: a tabulator is one space, and only the last lines are kept. -/
def push (s : Screen) (text : String) : Screen :=
  let chars := text.toList.map fun c => if c = '\t' then ' ' else c
  { s with lines := keepLast maxLines (s.lines ++ wrapped s.cols chars) }

def rows (s : Screen) : Nat := s.h / s.font.height

/-- The loop of `draw`, over the last lines that fit. -/
def drawLines (s : Screen) (canvas : Canvas) : Canvas :=
  (keepLast s.rows s.lines).zipIdx.foldl
    (fun canvas line => canvas.text s.font 1 s.x (s.y + line.2 * s.font.height) textColor line.1)
    canvas

/-- `draw`: clear, draw, and write the rows of the text area to the framebuffer. -/
def draw (s : Screen) : Screen :=
  { s with
    canvas := (s.drawLines (s.canvas.fillRect s.x s.y s.w s.h background)).flushRows s.y
      (s.y + s.h) }

end Screen

/-- What the program does with a screen. -/
inductive Call where
  | push (text : String)
  | draw

namespace Screen

def step (s : Screen) : Call → Screen
  | .push text => s.push text
  | .draw => s.draw

/-- Calls one after the other, as the main thread makes them. -/
def run (s : Screen) (calls : List Call) : Screen := calls.foldl step s

theorem run_cons (s : Screen) (call : Call) (calls : List Call) :
    s.run (call :: calls) = (s.step call).run calls := rfl

/-! ## What should be seen -/

/-- The points that `draw` clears. -/
def textArea (s : Screen) : Set Point := rect s.x s.y s.w s.h

/-- Whether a point is one of a character, when the lines are drawn from the corner on. -/
def lit (font : Font) (x y : Nat) (lines : List (List Char)) (p : Point) : Bool :=
  match lines[(p.2 - y) / font.height]?.bind fun chars => chars[(p.1 - x) / font.width]? with
  | none => false
  | some ch => font.dot ch ((p.1 - x) % font.width) ((p.2 - y) % font.height)

/-- The color of a point of the text area, from the lines that fit. -/
def picture (s : Screen) (lines : List (List Char)) (p : Point) : Rgb :=
  if lit s.font s.x s.y lines p then textColor else background

/-! ## Where lines are drawn -/

/-- The points of lines that are drawn from the corner on, on a canvas of some width. Here a point
belongs to a line; for `lit`, which goes the other way, a line is found from a point. -/
def linesInk (font : Font) (x y width : Nat) (lines : List (List Char)) : Set Point :=
  {p | ∃ line ∈ lines.zipIdx, p ∈ Canvas.textInk font 1 x (y + line.2 * font.height) width line.1}

theorem drawLines_draws (s : Screen) (c : Canvas) :
    c.Draws (s.drawLines c)
      (linesInk s.font s.x s.y c.width (keepLast s.rows s.lines)) textColor := by
  refine Canvas.Draws.foldl _ fun c' line _ hwidth _ => ?_
  rw [← hwidth]
  exact Canvas.text_draws s.font 1 _ textColor line.1 c' s.x

theorem lit_glyph {font : Font} {x y : Nat} {lines : List (List Char)} {chars : List Char}
    {row k : Nat} {ch : Char} {gx gy : Nat} (hline : lines[row]? = some chars)
    (hch : chars[k]? = some ch) (hgx : gx < font.width) (hgy : gy < font.height) :
    lit font x y lines (x + k * font.width + gx, y + row * font.height + gy) =
      font.dot ch gx gy := by
  have hx : x + k * font.width + gx - x = font.width * k + gx := by
    rw [Nat.mul_comm]
    omega
  have hy : y + row * font.height + gy - y = font.height * row + gy := by
    rw [Nat.mul_comm]
    omega
  unfold lit
  dsimp only
  rw [hx, hy, Nat.mul_add_div font.width_pos, Nat.mul_add_div font.height_pos,
    Nat.div_eq_of_lt hgx, Nat.div_eq_of_lt hgy, Nat.add_zero, Nat.add_zero, Nat.mul_add_mod,
    Nat.mul_add_mod, Nat.mod_eq_of_lt hgx, Nat.mod_eq_of_lt hgy, hline, Option.bind_some, hch]

theorem of_mem_linesInk {font : Font} {x y width : Nat} {lines : List (List Char)} {p : Point}
    (hp : p ∈ linesInk font x y width lines) :
    ∃ row chars k ch gx gy, lines[row]? = some chars ∧ chars[k]? = some ch ∧ gx < font.width ∧
      gy < font.height ∧ font.dot ch gx gy = true ∧
      p = (x + k * font.width + gx, y + row * font.height + gy) := by
  obtain ⟨⟨chars, row⟩, hline, k, ch, hch, -, gy, bits, gx, hbits, hgx, hbit, hleft, hright, htop,
    hbottom⟩ := hp
  have hgy : gy < font.height := by
    rw [← font.length_glyph ch]
    exact (List.getElem?_eq_some_iff.mp hbits).1
  have hdot : font.dot ch gx gy = true := by
    rw [Font.dot, hbits]
    exact hbit
  simp only [Nat.mul_one] at hleft hright htop hbottom
  exact ⟨row, chars, k, ch, gx, gy, List.mem_zipIdx_iff_getElem?.mp hline, hch, hgx, hgy, hdot,
    Prod.ext (by omega) (by omega)⟩

theorem lit_of_mem_linesInk {font : Font} {x y width : Nat} {lines : List (List Char)} {p : Point}
    (hp : p ∈ linesInk font x y width lines) : lit font x y lines p = true := by
  obtain ⟨row, chars, k, ch, gx, gy, hline, hch, hgx, hgy, hdot, rfl⟩ := of_mem_linesInk hp
  rw [lit_glyph hline hch hgx hgy]
  exact hdot

/-- A lit point is drawn, as long as its character is not beyond the canvas. With
`lit_of_mem_linesInk` this says that what is drawn in the text area is what should be seen there. -/
theorem mem_linesInk_of_lit {font : Font} {x y width : Nat} {lines : List (List Char)} {p : Point}
    (hx : x ≤ p.1) (hy : y ≤ p.2) (hwidth : p.1 + font.width ≤ width)
    (hp : lit font x y lines p = true) : p ∈ linesInk font x y width lines := by
  unfold lit at hp
  split at hp
  · cases hp
  · rename_i ch hch
    obtain ⟨line, hline, hch⟩ := Option.bind_eq_some_iff.mp hch
    obtain ⟨bits, hbits, hbit⟩ := (Option.any_eq_true _ _).mp hp
    have hpos := font.width_pos
    have hcolumn := Nat.div_add_mod (p.1 - x) font.width
    have hrow := Nat.div_add_mod (p.2 - y) font.height
    refine ⟨(line, (p.2 - y) / font.height), List.mem_zipIdx_iff_getElem?.mpr hline,
      (p.1 - x) / font.width, ch, hch, ?_, (p.2 - y) % font.height, bits, (p.1 - x) % font.width,
      hbits, Nat.mod_lt _ hpos, hbit, ?_⟩
    · rw [Nat.mul_one, Nat.succ_mul, Nat.mul_comm _ font.width]
      omega
    · dsimp only
      rw [Nat.mul_comm _ font.height, Nat.mul_one, Nat.mul_one, Nat.mul_one,
        Nat.mul_comm _ font.width]
      refine ⟨?_, ?_, ?_, ?_⟩ <;> omega

/-! ## A redraw -/

/-- The text area has a margin to its right and below it, and is at least eight characters wide. -/
structure Placed (s : Screen) : Prop where
  right : s.x + s.w + margin ≤ s.canvas.width
  bottom : s.y + s.h + margin ≤ s.canvas.height
  wide : 64 ≤ s.w

/-- A point of a character that is not beyond the canvas is drawn, wherever the text area ends. -/
theorem draw_lit {s : Screen} {p : Point} (harea : p ∈ s.canvas.area) (hx : s.x ≤ p.1)
    (hy : s.y ≤ p.2) (hedge : p.1 + s.font.width ≤ s.canvas.width)
    (hlit : lit s.font s.x s.y (keepLast s.rows s.lines) p = true) :
    s.draw.canvas.pixel p = some textColor.pixel := by
  have hclear := Canvas.fillRect_draws s.canvas s.x s.y s.w s.h background
  have hlines := s.drawLines_draws (s.canvas.fillRect s.x s.y s.w s.h background)
  rw [hclear.width] at hlines
  unfold draw
  rw [Canvas.flushRows_pixel]
  exact hlines.painted.inside p ⟨mem_linesInk_of_lit hx hy hedge hlit, hclear.area ▸ harea⟩

/-- A redraw shows the lines that fit in the text area, whatever was there: it has been cleared
before the lines are drawn, and a lit point is one of theirs. -/
theorem draw_inside {s : Screen} (h : s.Placed) {p : Point} (hp : p ∈ s.textArea) :
    s.draw.canvas.pixel p = some (s.picture (keepLast s.rows s.lines) p).pixel := by
  have hright := h.right
  have hbottom := h.bottom
  obtain ⟨hleft, hx, htop, hy⟩ := hp
  have harea : p ∈ s.canvas.area := ⟨by omega, by omega⟩
  unfold picture
  by_cases hlit : lit s.font s.x s.y (keepLast s.rows s.lines) p = true
  · have hmargin : s.font.width ≤ margin := by
      show 8 ≤ 16
      decide
    rw [if_pos hlit]
    exact draw_lit harea hleft htop (by omega) hlit
  · have hclear := Canvas.fillRect_draws s.canvas s.x s.y s.w s.h background
    have hlines := s.drawLines_draws (s.canvas.fillRect s.x s.y s.w s.h background)
    unfold draw
    rw [if_neg hlit, Canvas.flushRows_pixel,
      hlines.painted.outside p fun hink => hlit (lit_of_mem_linesInk hink.1)]
    exact hclear.painted.inside p ⟨⟨hleft, hx, htop, hy⟩, harea⟩

theorem mem_textArea {s : Screen} (hlines : ∀ line ∈ s.lines, line.length ≤ s.w / s.font.width)
    {chars : List Char} {row k : Nat} {ch : Char} {gx gy : Nat}
    (hline : (keepLast s.rows s.lines)[row]? = some chars) (hch : chars[k]? = some ch)
    (hgx : gx < s.font.width) (hgy : gy < s.font.height) :
    (s.x + k * s.font.width + gx, s.y + row * s.font.height + gy) ∈ s.textArea := by
  have hk : k + 1 ≤ s.w / s.font.width := Nat.le_trans (List.getElem?_eq_some_iff.mp hch).1
    (hlines chars ((keepLast_suffix _ _).mem (List.mem_of_getElem? hline)))
  have hrow : row + 1 ≤ s.h / s.font.height := by
    have hlt := (List.getElem?_eq_some_iff.mp hline).1
    rw [length_keepLast] at hlt
    unfold rows at hlt
    omega
  have hcolumns := Nat.le_trans (Nat.mul_le_mul_right s.font.width hk)
    (Nat.div_mul_le_self s.w s.font.width)
  have hrows := Nat.le_trans (Nat.mul_le_mul_right s.font.height hrow)
    (Nat.div_mul_le_self s.h s.font.height)
  rw [Nat.succ_mul] at hcolumns hrows
  refine ⟨?_, ?_, ?_, ?_⟩ <;> dsimp only <;> omega

theorem linesInk_subset {s : Screen} {width : Nat}
    (hlines : ∀ line ∈ s.lines, line.length ≤ s.w / s.font.width) :
    linesInk s.font s.x s.y width (keepLast s.rows s.lines) ⊆ s.textArea := by
  intro p hp
  obtain ⟨row, chars, k, ch, gx, gy, hline, hch, hgx, hgy, -, rfl⟩ := of_mem_linesInk hp
  exact mem_textArea hlines hline hch hgx hgy

/-- A redraw of lines that fit leaves the rest of the canvas as it was: both what is cleared and
what is drawn are in the text area. -/
theorem draw_outside {s : Screen}
    (hlines : ∀ line ∈ s.lines, line.length ≤ s.w / s.font.width) {p : Point}
    (hp : p ∉ s.textArea) : s.draw.canvas.pixel p = s.canvas.pixel p := by
  have hclear := Canvas.fillRect_draws s.canvas s.x s.y s.w s.h background
  have hdrawn := s.drawLines_draws (s.canvas.fillRect s.x s.y s.w s.h background)
  unfold draw
  rw [Canvas.flushRows_pixel,
    hdrawn.painted.outside p fun hink => hp (linesInk_subset hlines hink.1)]
  exact hclear.painted.outside p fun h => hp h.1

theorem draw_shown {s : Screen} (hlines : ∀ line ∈ s.lines, line.length ≤ s.w / s.font.width)
    (hshown : ∀ p, s.canvas.shown p = s.canvas.pixel p) (p : Point) :
    s.draw.canvas.shown p = s.draw.canvas.pixel p := by
  have hclear := Canvas.fillRect_draws s.canvas s.x s.y s.w s.h background
  have hdrawn := s.drawLines_draws (s.canvas.fillRect s.x s.y s.w s.h background)
  have hbefore : (s.drawLines (s.canvas.fillRect s.x s.y s.w s.h background)).shown p =
      s.canvas.shown p := (hdrawn.shown p).trans (hclear.shown p)
  by_cases hrows : s.y ≤ p.2 ∧ p.2 < s.y + s.h
  · unfold draw
    rw [Canvas.flushRows_shown, if_pos hrows, Canvas.flushRows_pixel]
  · have hp : p ∉ s.textArea := fun h => hrows h.2.2
    rw [draw_outside hlines hp, ← hshown, ← hbefore]
    unfold draw
    rw [Canvas.flushRows_shown, if_neg hrows]

/-! ## Pushing -/

/-- The lines of a text that is not empty: what fits in the first, and the pieces of the rest. -/
theorem wrapped_eq {cols : Nat} {chars : List Char} (hcols : 0 < cols) (hne : chars ≠ []) :
    wrapped cols chars = chars.take cols ::
      (chunks (cols - 1) (chars.drop cols)).map fun chunk => ' ' :: ' ' :: chunk := by
  rw [wrapped, chunks_eq hne, Nat.sub_add_cancel hcols]

/-- **The lines of a text are as wide as the area** unless there is no room for an indent: the
second piece of a long text has one or two characters too many. -/
theorem wrapped_fit_iff {cols : Nat} {chars : List Char} (hcols : 2 ≤ cols) :
    (∀ line ∈ wrapped cols chars, line.length ≤ cols) ↔ chars.length ≤ 2 * cols - 2 := by
  rcases eq_or_ne chars [] with rfl | hne
  · rw [wrapped, chunks]
    simp
  rw [wrapped_eq (by omega) hne]
  constructor
  · intro hfit
    by_contra hlong
    have hrest : chars.drop cols ≠ [] := List.ne_nil_of_length_pos (by
      rw [List.length_drop]
      omega)
    rw [chunks_eq hrest, Nat.sub_add_cancel (by omega), List.map_cons] at hfit
    have hsecond := hfit _ (List.mem_cons_of_mem _ List.mem_cons_self)
    simp only [List.length_cons, List.length_take, List.length_drop] at hsecond
    omega
  · intro hchars line hline
    rcases List.mem_cons.mp hline with rfl | hrest
    · exact List.length_take_le ..
    · obtain ⟨chunk, hchunk, rfl⟩ := List.mem_map.mp hrest
      have hlength := length_le_of_mem_chunks hchunk
      rw [List.length_drop] at hlength
      simp only [List.length_cons]
      omega

/-- Where `new` puts the text area. The logo is to the right of it, with a margin in between, so it
may be drawn without a look at the text. -/
theorem new_placed {build : Build} {canvas : Canvas} {font : Font} {logo : Option Logo} {s : Screen}
    (hwidth : 256 ≤ canvas.width) (hheight : 128 ≤ canvas.height)
    (hnew : new build canvas font logo = some s) :
    s.Placed ∧ s.lines = [] ∧ ∀ p, s.canvas.shown p = s.canvas.pixel p := by
  have hclear := Canvas.fillRect_draws canvas 0 0 canvas.width canvas.height background
  have hflush (c : Canvas) (p : Point) : c.flushAll.shown p = c.flushAll.pixel p := by
    rw [Canvas.flushAll_shown, Canvas.flushAll, Canvas.flushRows_pixel]
  unfold new at hnew
  cases logo with
  | none =>
    obtain rfl := Option.some.inj hnew
    refine ⟨⟨?_, ?_, ?_⟩, rfl, hflush _⟩
    · rw [Canvas.flushAll, Canvas.flushRows_width, hclear.width]
      dsimp only [margin]
      omega
    · rw [Canvas.flushAll, Canvas.flushRows_height, hclear.height]
      dsimp only [margin]
      omega
    · dsimp only [margin]
      omega
  | some logo =>
    obtain ⟨blitted, hblit, hnew⟩ := Option.bind_eq_some_iff.mp hnew
    obtain rfl := Option.some.inj hnew
    obtain ⟨hw, hh⟩ := Canvas.blitScaled_shape hblit
    have hsize : logoSize canvas.width canvas.height ≤ canvas.width / 3 := Nat.min_le_right ..
    refine ⟨⟨?_, ?_, ?_⟩, rfl, hflush _⟩
    · rw [Canvas.flushAll, Canvas.flushRows_width, hw, hclear.width]
      dsimp only [margin]
      omega
    · rw [Canvas.flushAll, Canvas.flushRows_height, hh, hclear.height]
      dsimp only [margin]
      omega
    · dsimp only [margin]
      omega

/-! ## Runs -/

/-- `s` is `first` after some calls: the text area is where it was, its lines fit, and the rest of
the canvas and of the framebuffer is as it was. -/
structure Kept (first s : Screen) : Prop where
  font : s.font = first.font
  x : s.x = first.x
  y : s.y = first.y
  w : s.w = first.w
  h : s.h = first.h
  width : s.canvas.width = first.canvas.width
  height : s.canvas.height = first.canvas.height
  lines : ∀ line ∈ s.lines, line.length ≤ s.w / s.font.width
  outside : ∀ p ∉ first.textArea, s.canvas.pixel p = first.canvas.pixel p
  shown : ∀ p, s.canvas.shown p = s.canvas.pixel p

namespace Kept

variable {first s : Screen}

theorem placed (h : Kept first s) (hfirst : first.Placed) : s.Placed := by
  refine ⟨?_, ?_, ?_⟩
  · rw [h.x, h.w, h.width]
    exact hfirst.right
  · rw [h.y, h.h, h.height]
    exact hfirst.bottom
  · rw [h.w]
    exact hfirst.wide

theorem textArea (h : Kept first s) : s.textArea = first.textArea := by
  rw [Screen.textArea, h.x, h.y, h.w, h.h]
  rfl

theorem cols_eq (h : Kept first s) : s.cols = first.cols := by
  rw [cols, h.w]
  rfl

/-- A redraw keeps it: inside the area nothing is said of the canvas, and the rest is left alone. -/
theorem draw (h : Kept first s) : Kept first s.draw := by
  have hclear := Canvas.fillRect_draws s.canvas s.x s.y s.w s.h background
  have hdrawn := s.drawLines_draws (s.canvas.fillRect s.x s.y s.w s.h background)
  refine ⟨h.font, h.x, h.y, h.w, h.h, ?_, ?_, h.lines, ?_, draw_shown h.lines h.shown⟩
  · rw [← h.width, ← hclear.width, ← hdrawn.width]
    exact Canvas.flushRows_width ..
  · rw [← h.height, ← hclear.height, ← hdrawn.height]
    exact Canvas.flushRows_height ..
  · intro p hp
    rw [draw_outside h.lines (h.textArea ▸ hp)]
    exact h.outside p hp

/-- A push keeps it if the text leaves room for the indent, since then its lines fit. Dropping lines
leaves fewer of them. -/
theorem push (h : Kept first s) (hwide : 64 ≤ first.w) {text : String}
    (htext : text.length ≤ 2 * first.cols - 2) : Kept first (s.push text) := by
  have hcols : s.cols = s.w / s.font.width := by
    have hw := h.w
    unfold cols
    dsimp only [Font.width]
    omega
  have hshort : ∀ line ∈ (s.push text).lines, line.length ≤ s.w / s.font.width := by
    intro line hline
    rw [← hcols]
    unfold Screen.push at hline
    rcases List.mem_append.mp ((keepLast_suffix _ _).mem hline) with hold | hnew
    · rw [hcols]
      exact h.lines line hold
    · have hcols : 2 ≤ s.cols := Nat.le_trans (by decide) (Nat.le_max_right ..)
      refine (wrapped_fit_iff hcols).mpr ?_ line hnew
      rw [List.length_map, String.length_toList, h.cols_eq]
      exact htext
  unfold Screen.push at hshort ⊢
  exact ⟨h.font, h.x, h.y, h.w, h.h, h.width, h.height, hshort, h.outside, h.shown⟩

theorem run (h : Kept first s) (hwide : 64 ≤ first.w) {calls : List Call}
    (hcalls : ∀ text, .push text ∈ calls → text.length ≤ 2 * first.cols - 2) :
    Kept first (s.run calls) := by
  induction calls generalizing s with
  | nil => exact h
  | cons call calls ih =>
    have hrest : ∀ text, .push text ∈ calls → text.length ≤ 2 * first.cols - 2 :=
      fun text htext => hcalls text (List.mem_cons_of_mem _ htext)
    rw [run_cons]
    cases call with
    | push text => exact ih (h.push hwide (hcalls text List.mem_cons_self)) hrest
    | draw => exact ih h.draw hrest

end Kept

/-! ## A small screen -/

/-- A canvas of the least size. -/
def smallCanvas : Canvas :=
  ⟨256, 128, 1024, List.replicate (1024 * 128) 0, List.replicate (1024 * 128) 0, by decide,
    List.length_replicate, List.length_replicate⟩

/-- A font of blocks: every pixel of every character is set. -/
def blockFont : Font :=
  ⟨16, List.replicate (256 * 16) 0xFF, 256, by decide, by decide, List.length_replicate⟩

def smallScreen : Screen :=
  ⟨(smallCanvas.fillRect 0 0 256 128 background).flushAll, blockFont, 16, 16, 224, 96, []⟩

theorem new_smallScreen : new .release smallCanvas blockFont none = some smallScreen := by
  unfold new
  rfl

theorem blockFont_dot (ch : Char) {gx gy : Nat} (hgx : gx < 8) (hgy : gy < 16) :
    blockFont.dot ch gx gy = true := by
  have hbit : ∀ i < 8, Font.hasBit 0xFF i = true := by decide
  have hindex : blockFont.index ch < 256 := blockFont.index_lt ch
  have hrow : (blockFont.glyph ch)[gy]? = some 0xFF := by
    show ((List.replicate (256 * 16) 0xFF).drop (blockFont.index ch * 16) |>.take 16)[gy]? = _
    rw [List.getElem?_take_of_lt hgy, List.getElem?_drop, List.getElem?_replicate]
    exact if_pos (by omega)
  rw [Font.dot, hrow]
  exact hbit gx hgx

theorem smallScreen_width : smallScreen.canvas.width = 256 := by
  unfold smallScreen Canvas.flushAll
  rw [Canvas.flushRows_width]
  exact (Canvas.fillRect_draws ..).width

theorem smallScreen_height : smallScreen.canvas.height = 128 := by
  unfold smallScreen Canvas.flushAll
  rw [Canvas.flushRows_height]
  exact (Canvas.fillRect_draws ..).height

theorem smallScreen_pixel {p : Point} (hp : p ∈ smallCanvas.area) :
    smallScreen.canvas.pixel p = some background.pixel := by
  have hclear := Canvas.fillRect_draws smallCanvas 0 0 256 128 background
  unfold smallScreen Canvas.flushAll
  rw [Canvas.flushRows_pixel]
  refine hclear.painted.inside p ⟨⟨Nat.zero_le _, ?_, Nat.zero_le _, ?_⟩, hp⟩
  · rw [Nat.zero_add]
    exact hp.1
  · rw [Nat.zero_add]
    exact hp.2

/-- What is stored of a text of 56 characters: 28 of them, and 28 behind an indent. -/
theorem smallScreen_push :
    smallScreen.push (String.ofList (List.replicate 56 'a')) =
      { smallScreen with
        lines := [List.replicate 28 'a', ' ' :: ' ' :: List.replicate 28 'a'] } := by
  have htext : (List.replicate 56 'a').map (fun c => if c = '\t' then ' ' else c) =
      List.replicate 56 'a' := List.map_replicate
  have hcols : smallScreen.cols = 28 := by decide
  have hwrapped : wrapped 28 (List.replicate 56 'a') =
      [List.replicate 28 'a', ' ' :: ' ' :: List.replicate 28 'a'] := by
    rw [wrapped_eq (by decide) (by decide), List.take_replicate, List.drop_replicate,
      chunks_eq (by decide), List.take_replicate, List.drop_replicate]
    simp [chunks]
  unfold push
  dsimp only
  rw [String.toList_ofList, htext, hcols, hwrapped]
  rfl

/-! ## What is left behind -/

/-- **A redraw leaves nothing behind** as long as every text leaves room for the indent: the rest of
the canvas and of the framebuffer is as `new` left it, the text area shows the lines that fit and
nothing else, and all of their characters are in it. -/
theorem no_residue {build : Build} {canvas : Canvas} {font : Font} {logo : Option Logo}
    {first : Screen} (hwidth : 256 ≤ canvas.width) (hheight : 128 ≤ canvas.height)
    (hnew : new build canvas font logo = some first) (calls : List Call)
    (hcalls : ∀ text, .push text ∈ calls → text.length ≤ 2 * first.cols - 2) :
    let s := (first.run calls).draw
    let lines := keepLast first.rows s.lines
    (∀ p ∉ first.textArea, s.canvas.pixel p = first.canvas.pixel p ∧
      s.canvas.shown p = first.canvas.shown p) ∧
    (∀ p ∈ first.textArea, s.canvas.pixel p = some (first.picture lines p).pixel ∧
      s.canvas.shown p = some (first.picture lines p).pixel) ∧
    ∀ row chars k ch gx gy, lines[row]? = some chars → chars[k]? = some ch →
      gx < first.font.width → gy < first.font.height →
      let p := (first.x + k * first.font.width + gx, first.y + row * first.font.height + gy)
      p ∈ first.textArea ∧ s.canvas.pixel p =
        some (if first.font.dot ch gx gy then textColor else background).pixel := by
  intro s lines
  obtain ⟨hplaced, hempty, hshown⟩ := new_placed hwidth hheight hnew
  have hfirst : Kept first first := by
    refine ⟨rfl, rfl, rfl, rfl, rfl, rfl, rfl, fun line hline => ?_, fun _ _ => rfl, hshown⟩
    rw [hempty] at hline
    cases hline
  -- the rest of the canvas is a matter of the run, the text area of its last redraw alone
  have hrun : Kept first (first.run calls) := hfirst.run hplaced.wide hcalls
  have hs : Kept first s := hrun.draw
  have hinside : ∀ p ∈ first.textArea, s.canvas.pixel p = some (first.picture lines p).pixel := by
    intro p hp
    rw [draw_inside (hrun.placed hplaced) (hrun.textArea ▸ hp)]
    unfold picture rows
    rw [hrun.font, hrun.x, hrun.y, hrun.h]
    rfl
  refine ⟨fun p hp => ⟨hs.outside p hp, ?_⟩, fun p hp => ⟨hinside p hp, ?_⟩, ?_⟩
  · rw [hs.shown, hshown]
    exact hs.outside p hp
  · rw [hs.shown]
    exact hinside p hp
  · intro row chars k ch gx gy hline hch hgx hgy p
    have hp : p ∈ first.textArea := by
      have hplace := @mem_textArea s hs.lines chars row k ch gx gy
      rw [hs.textArea, rows, hs.x, hs.y, hs.h, hs.font] at hplace
      exact hplace hline hch hgx hgy
    refine ⟨hp, ?_⟩
    rw [hinside p hp, picture, lit_glyph hline hch hgx hgy]

/-- A text that fits in one line, and one that is wrapped: the area is 28 characters wide, and of
the 44 characters of the second text 16 go to a line of their own, behind the indent. -/
theorem no_residue_three_calls :
    let s := (smallScreen.run [.push "Abora Framework", .draw,
      .push "reached target: the network and its services"]).draw
    (∀ p ∉ smallScreen.textArea, s.canvas.pixel p = smallScreen.canvas.pixel p) ∧
    ∀ p ∈ smallScreen.textArea, s.canvas.pixel p =
      some (smallScreen.picture (keepLast smallScreen.rows s.lines) p).pixel := by
  have hcalls : ∀ text, Call.push text ∈
      [.push "Abora Framework", .draw, .push "reached target: the network and its services"] →
      text.length ≤ 2 * smallScreen.cols - 2 := by
    simp only [List.mem_cons, Call.push.injEq, reduceCtorEq, List.not_mem_nil, or_false, false_or]
    rintro text (rfl | rfl) <;> decide
  obtain ⟨houtside, hinside, -⟩ :=
    no_residue (by decide) (by decide) new_smallScreen _ hcalls
  exact ⟨fun p hp => (houtside p hp).1, fun p hp => (hinside p hp).1⟩

/-- The second line of a text of 56 characters is drawn up to the right edge of the canvas. -/
theorem indent_leaves_residue :
    new .release smallCanvas blockFont none = some smallScreen ∧
    (248, 32) ∉ smallScreen.textArea ∧
    smallScreen.canvas.pixel (248, 32) = some background.pixel ∧
    (smallScreen.run [.push (String.ofList (List.replicate 56 'a'))]).draw.canvas.pixel (248, 32) =
      some textColor.pixel := by
  refine ⟨new_smallScreen, fun h => absurd h.2.1 (by decide), smallScreen_pixel (by decide), ?_⟩
  rw [run_cons]
  show (smallScreen.push _).draw.canvas.pixel _ = _
  rw [smallScreen_push]
  refine draw_lit ⟨?_, ?_⟩ (by decide) (by decide) ?_ ?_
  · dsimp only
    rw [smallScreen_width]
    decide
  · dsimp only
    rw [smallScreen_height]
    decide
  · dsimp only
    rw [smallScreen_width]
    decide
  · exact blockFont_dot 'a' (by decide) (by decide)

end Screen

end Abora.Boot
