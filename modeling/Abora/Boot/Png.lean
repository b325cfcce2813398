import Abora.Boot.Logo
import Abora.Lib.Endian
import Abora.Lib.Lists
import Abora.Lib.Predict

/-!
# From a PNG to the boot logo (`scripts/logo-to-raw.py`)

The image build converts the artwork with a script, and the boot program reads what the script
wrote. The script decodes the PNG itself: the chunks, the five row filters, four colour types.
What `zlib` makes of the data is a parameter.

An `Image` is what a PNG is about, an `Encoding` one of the many files it may be written as: any
filter for each row, the data cut into any number of chunks, any other chunks between them.
`logo_of_encoding` goes all the way from there to the texels the boot program draws. Of the other
files, those that are converted at all are loaded when their data were complete
(`load_convert_iff`).
-/

namespace Abora.Boot

open Lib

/-- How the script ends, when it does not write a logo. -/
inductive Failure where
  | exit (message : String)
  /-- A traceback. -/
  | raised
  deriving DecidableEq, Repr

def signature : Bytes := [0x89, 0x50, 0x4E, 0x47, 0x0D, 0x0A, 0x1A, 0x0A]

def ihdr : Bytes := [0x49, 0x48, 0x44, 0x52]

def idat : Bytes := [0x49, 0x44, 0x41, 0x54]

def iend : Bytes := [0x49, 0x45, 0x4E, 0x44]

/-- What the script uses of a header. The compression and the filter method are read and dropped. -/
structure Header where
  width : Nat
  height : Nat
  depth : UInt8
  color : UInt8
  interlace : UInt8
  deriving DecidableEq, Repr

/-- `struct.unpack(">IIBBBBB", body)`: thirteen bytes, no more and no less. -/
def Header.unpack (body : Bytes) : Option Header :=
  match body with
  | [w0, w1, w2, w3, h0, h1, h2, h3, depth, color, _, _, interlace] =>
    some ⟨ofBe [w0, w1, w2, w3], ofBe [h0, h1, h2, h3], depth, color, interlace⟩
  | _ => none

/-- The loop over the chunks, from `pos` on. A chunk that is cut short is not noticed, since a slice
beyond the end is what there is; only what is too short for a length and a type is an error. The
checksums are not looked at. -/
def scan (rest : Bytes) (header : Option Header) (data : Bytes) :
    Except Failure (Option Header × Bytes) :=
  match rest with
  | [] => .ok (header, data)
  | l0 :: l1 :: l2 :: l3 :: k0 :: k1 :: k2 :: k3 :: tail =>
    let length := ofBe [l0, l1, l2, l3]
    let kind := [k0, k1, k2, k3]
    let body := tail.take length
    let rest := tail.drop (length + 4)
    if kind = ihdr then
      match Header.unpack body with
      | none => .error .raised
      | some header => scan rest (some header) data
    else if kind = idat then scan rest header (data ++ body)
    else if kind = iend then .ok (header, data)
    else scan rest header data
  | _ => .error .raised
termination_by rest.length
decreasing_by all_goals simp only [List.length_cons, List.length_drop]; omega

/-- `{0: 1, 4: 2, 2: 3, 6: 4}.get(color)`: how many bytes a pixel has, for the four types of colour
that are supported. -/
def channelsOf (color : UInt8) : Option Nat :=
  if color = 0 then some 1
  else if color = 4 then some 2
  else if color = 2 then some 3
  else if color = 6 then some 4
  else none

/-- `l[i]`, with Python's error beyond the end. -/
def byteAt (l : Bytes) (i : Nat) : Except Failure UInt8 :=
  match l[i]? with
  | some b => .ok b
  | none => .error .raised

/-- `l[x - channels] if x >= channels else 0`: the byte of the same channel, one pixel before. -/
def byteBefore (channels : Nat) (l : Bytes) (x : Nat) : Except Failure UInt8 :=
  if channels ≤ x then byteAt l (x - channels) else .ok 0

/-- `line[x] = (line[x] + n) & 255`. -/
def addAt (line : Bytes) (x n : Nat) : Except Failure Bytes :=
  (byteAt line x).map fun v => line.set x (UInt8.ofNat (v.toNat + n))

/-- Whichever of the three is nearest to `a + b - c`; of two that are as near, the first. -/
def paeth (a b c : UInt8) : UInt8 :=
  let p : Int := a.toNat + b.toNat - c.toNat
  let pa := (p - a.toNat).natAbs
  let pb := (p - b.toNat).natAbs
  let pc := (p - c.toNat).natAbs
  if pa ≤ pb ∧ pa ≤ pc then a else if pb ≤ pc then b else c

/-- One turn of the loop over a line; `line` is changed in place, so that the bytes to the left have
been restored already when they are asked for. -/
def unfilterStep (ftype : UInt8) (channels : Nat) (prev line : Bytes) (x : Nat) :
    Except Failure Bytes := do
  let a ← byteBefore channels line x
  let b ← byteAt prev x
  let c ← byteBefore channels prev x
  if ftype = 1 then addAt line x a.toNat
  else if ftype = 2 then addAt line x b.toNat
  else if ftype = 3 then addAt line x ((a.toNat + b.toNat) / 2)
  else if ftype = 4 then addAt line x (paeth a b c).toNat
  else if ftype ≠ 0 then .error (.exit s!"bad PNG filter {ftype}")
  else .ok line

/-- The rows of the decompressed data, each behind the byte of its filter. The row above the first
is of zeros. -/
def readRows (channels stride : Nat) : Nat → Bytes → Bytes → Except Failure (List Bytes)
  | 0, _, _ => .ok []
  | _ + 1, [], _ => .error .raised
  | height + 1, ftype :: raw, prev => do
    let line ← (List.range stride).foldlM (unfilterStep ftype channels prev) (raw.take stride)
    let rows ← readRows channels stride height (raw.drop stride) line
    .ok (line :: rows)

/-- One pixel as RGBA. A pixel of three or four channels is not looked at byte by byte, and so one
that is cut short becomes short. -/
def expand (channels : Nat) (px : Bytes) : Except Failure Bytes := do
  if channels = 1 then
    let g ← byteAt px 0
    .ok [g, g, g, 255]
  else if channels = 2 then
    let g ← byteAt px 0
    let a ← byteAt px 1
    .ok [g, g, g, a]
  else if channels = 3 then .ok (px ++ [255])
  else .ok px

def expandRow (channels width : Nat) (line : Bytes) : Except Failure Bytes :=
  ((List.range width).mapM fun x => expand channels ((line.drop (x * channels)).take channels)).map
    List.flatten

/-- What the script says of a PNG that it does not support. -/
def unsupported (h : Header) : Failure :=
  .exit s!"unsupported PNG (depth {h.depth}, colour type {h.color}, interlace {h.interlace}); use 8-bit non-interlaced"

/-- `decode`; `decompress` is `zlib.decompress`, which raises an error where it answers `none`. -/
def decode (decompress : Bytes → Option Bytes) (data : Bytes) :
    Except Failure (Nat × Nat × Bytes) :=
  if data.take 8 ≠ signature then .error (.exit "not a PNG file")
  else
    match scan (data.drop 8) none [] with
    | .error e => .error e
    | .ok (none, _) => .error (.exit "PNG has no header")
    | .ok (some h, data) =>
      match channelsOf h.color with
      | none => .error (unsupported h)
      | some channels =>
        if h.depth ≠ 8 ∨ h.interlace ≠ 0 then .error (unsupported h)
        else
          match decompress data with
          | none => .error .raised
          | some raw => do
            let stride := h.width * channels
            let rows ← readRows channels stride h.height raw (List.replicate stride 0)
            let out ← rows.mapM (expandRow channels h.width)
            .ok (h.width, h.height, out.flatten)

/-- `main`: what is written to the logo file, the magic, the two sides and the pixels. -/
def convert (decompress : Bytes → Option Bytes) (png : Bytes) : Except Failure Bytes :=
  (decode decompress png).map fun (width, height, rgba) =>
    [0x41, 0x42, 0x52, 0x31] ++ leBytes 4 width ++ leBytes 4 height ++ rgba

/-! ## Images and their encodings -/

/-- The types of colour that the script supports, with eight bits to a channel. -/
inductive ColourType where
  | grey | rgb | greyAlpha | rgba
  deriving DecidableEq, Repr

def ColourType.channels : ColourType → Nat
  | .grey => 1
  | .rgb => 3
  | .greyAlpha => 2
  | .rgba => 4

def ColourType.code : ColourType → UInt8
  | .grey => 0
  | .rgb => 2
  | .greyAlpha => 4
  | .rgba => 6

inductive Colour : ColourType → Type where
  | grey (g : UInt8) : Colour .grey
  | rgb (r g b : UInt8) : Colour .rgb
  | greyAlpha (g a : UInt8) : Colour .greyAlpha
  | rgba (r g b a : UInt8) : Colour .rgba

namespace Colour

variable {t : ColourType}

def bytes : Colour t → Bytes
  | .grey g => [g]
  | .rgb r g b => [r, g, b]
  | .greyAlpha g a => [g, a]
  | .rgba r g b a => [r, g, b, a]

def red : Colour t → UInt8
  | .grey g | .greyAlpha g _ => g
  | .rgb r _ _ | .rgba r _ _ _ => r

def green : Colour t → UInt8
  | .grey g | .greyAlpha g _ => g
  | .rgb _ g _ | .rgba _ g _ _ => g

def blue : Colour t → UInt8
  | .grey g | .greyAlpha g _ => g
  | .rgb _ _ b | .rgba _ _ b _ => b

/-- Without an alpha channel, opaque. -/
def alpha : Colour t → UInt8
  | .grey _ | .rgb _ _ _ => 255
  | .greyAlpha _ a | .rgba _ _ _ a => a

def quad (p : Colour t) : Bytes := [p.red, p.green, p.blue, p.alpha]

@[simp] theorem length_bytes (p : Colour t) : p.bytes.length = t.channels := by cases p <;> rfl

@[simp] theorem length_quad (p : Colour t) : p.quad.length = 4 := rfl

end Colour

/-- A picture, row by row. Its sides are numbers of four bytes, since there is no room for others in
a header. -/
structure Image where
  colour : ColourType
  width : Nat
  rows : List (List (Colour colour))
  width_eq : ∀ row ∈ rows, row.length = width
  width_lt : width < 2 ^ 32
  height_lt : rows.length < 2 ^ 32

namespace Image

def lines (img : Image) : List Bytes := img.rows.map fun row => row.flatMap Colour.bytes

def quads (img : Image) : Bytes := img.rows.flatMap fun row => row.flatMap Colour.quad

/-- The body of the header; the compression and the filter method are not looked at. -/
def header (img : Image) (compression method : UInt8) : Bytes :=
  beBytes 4 img.width ++ beBytes 4 img.rows.length ++
    [8, img.colour.code, compression, method, 0]

end Image

/-- The filters of a row. For each of its bytes something is guessed, and the difference is
stored. -/
inductive Filter where
  | none | sub | up | average | paeth
  deriving DecidableEq, Repr

namespace Filter

/-- The number of a filter, in front of its row. -/
def byte : Filter → UInt8
  | .none => 0
  | .sub => 1
  | .up => 2
  | .average => 3
  | .paeth => 4

/-- What is guessed from the bytes to the left, above, and above to the left. -/
def predict (f : Filter) (a b c : UInt8) : UInt8 :=
  match f with
  | .none => 0
  | .sub => a
  | .up => b
  | .average => UInt8.ofNat ((a.toNat + b.toNat) / 2)
  | .paeth => Boot.paeth a b c

end Filter

/-- The byte of the same channel in the pixel before. -/
def left (channels : Nat) (l : Bytes) (x : Nat) : UInt8 :=
  if channels ≤ x then l.getD (x - channels) 0 else 0

/-- What is guessed for a byte, from the row before and from what is to the left of it in its
own. -/
def Filter.guess (f : Filter) (channels : Nat) (prev line : Bytes) (x : Nat) : UInt8 :=
  f.predict (left channels line x) (prev.getD x 0) (left channels prev x)

/-- The data of filtered lines, each behind the byte of its filter. Every line may have another
one. -/
def filtered (channels : Nat) : Bytes → List (Filter × Bytes) → Bytes
  | _, [] => []
  | prev, (f, line) :: rest =>
    f.byte :: residue (· - ·) (f.guess channels prev) line ++ filtered channels line rest

/-- A chunk, with whatever stands where its checksum should be. -/
structure Chunk where
  kind : Bytes
  body : Bytes
  crc : Bytes
  kind_length : kind.length = 4
  body_lt : body.length < 2 ^ 32
  crc_length : crc.length = 4

def Chunk.bytes (c : Chunk) : Bytes := beBytes 4 c.body.length ++ c.kind ++ c.body ++ c.crc

def dataOf (chunks : List Chunk) : Bytes :=
  (chunks.filter fun c => c.kind = idat).flatMap Chunk.body

/-- A PNG file of an image: there is a header, every header is that of the image, and the chunks of
data are together what `decompress` makes the filtered rows of. There may be any other chunks, and
anything at all behind the last one. -/
structure Encoding (decompress : Bytes → Option Bytes) (img : Image) where
  filters : List Filter
  chunks : List Chunk
  last : Chunk
  trailing : Bytes
  filters_length : filters.length = img.rows.length
  headed : ∃ c ∈ chunks, c.kind = ihdr
  header : ∀ c ∈ chunks, c.kind = ihdr → ∃ compression method,
    c.body = img.header compression method
  inner : ∀ c ∈ chunks, c.kind ≠ iend
  last_kind : last.kind = iend
  data : decompress (dataOf chunks) = some (filtered img.colour.channels
    (List.replicate (img.width * img.colour.channels) 0) (filters.zip img.lines))

def Encoding.file {decompress : Bytes → Option Bytes} {img : Image}
    (e : Encoding decompress img) : Bytes :=
  signature ++ (e.chunks.flatMap Chunk.bytes ++ (e.last.bytes ++ e.trailing))

/-! ## The chunks -/

theorem Header.unpack_header (img : Image) (compression method : UInt8) :
    Header.unpack (img.header compression method) =
      some ⟨img.width, img.rows.length, 8, img.colour.code, 0⟩ := by
  obtain ⟨w0, w1, w2, w3, hw⟩ := eq_four (length_beBytes 4 img.width)
  obtain ⟨h0, h1, h2, h3, hh⟩ := eq_four (length_beBytes 4 img.rows.length)
  have hwidth : ofBe [w0, w1, w2, w3] = img.width := by
    rw [← hw, ofBe_beBytes (by simpa using img.width_lt)]
  have hheight : ofBe [h0, h1, h2, h3] = img.rows.length := by
    rw [← hh, ofBe_beBytes (by simpa using img.height_lt)]
  rw [Image.header, hw, hh]
  simp only [List.cons_append, List.nil_append, Header.unpack, hwidth, hheight]

/-- One chunk is read, whatever comes behind it. A length that is written in four bytes is read as
it was. -/
theorem scan_chunk (c : Chunk) (rest : Bytes) (header : Option Header) (data : Bytes) :
    scan (c.bytes ++ rest) header data =
      if c.kind = ihdr then
        match Header.unpack c.body with
        | none => .error .raised
        | some header => scan rest (some header) data
      else if c.kind = idat then scan rest header (data ++ c.body)
      else if c.kind = iend then .ok (header, data)
      else scan rest header data := by
  obtain ⟨l0, l1, l2, l3, hl⟩ := eq_four (length_beBytes 4 c.body.length)
  obtain ⟨k0, k1, k2, k3, hk⟩ := eq_four c.kind_length
  have hlength : ofBe [l0, l1, l2, l3] = c.body.length := by
    rw [← hl, ofBe_beBytes (by simpa using c.body_lt)]
  have htail : c.bytes ++ rest =
      l0 :: l1 :: l2 :: l3 :: k0 :: k1 :: k2 :: k3 :: (c.body ++ (c.crc ++ rest)) := by
    simp [Chunk.bytes, hl, hk]
  have hrest : (c.body ++ (c.crc ++ rest)).drop (c.body.length + 4) = rest := by
    rw [← List.drop_drop, List.drop_left, ← c.crc_length, List.drop_left]
  rw [htail, scan]
  simp only [hlength, hrest, List.take_left, hk]

theorem ihdr_ne_idat : ihdr ≠ idat := by decide

theorem ihdr_ne_iend : ihdr ≠ iend := by decide

theorem idat_ne_iend : idat ≠ iend := by decide

theorem dataOf_cons (c : Chunk) (cs : List Chunk) :
    dataOf (c :: cs) = (if c.kind = idat then c.body else []) ++ dataOf cs := by
  unfold dataOf
  by_cases h : c.kind = idat <;> simp [h]

/-- Chunks whose headers all say the same: the header is theirs if there is one, and the data are
those of all of them. -/
theorem scan_chunks {h : Header} {cs : List Chunk}
    (hheader : ∀ c ∈ cs, c.kind = ihdr → Header.unpack c.body = some h)
    (hinner : ∀ c ∈ cs, c.kind ≠ iend) (rest : Bytes) (header : Option Header) (data : Bytes) :
    scan (cs.flatMap Chunk.bytes ++ rest) header data =
      scan rest (if ∃ c ∈ cs, c.kind = ihdr then some h else header) (data ++ dataOf cs) := by
  induction cs generalizing header data with
  | nil => simp [dataOf]
  | cons c cs ih =>
    have ih := fun header data => ih (fun c' hc' => hheader c' (List.mem_cons_of_mem c hc'))
      (fun c' hc' => hinner c' (List.mem_cons_of_mem c hc')) header data
    have hend : c.kind ≠ iend := hinner c List.mem_cons_self
    rw [List.flatMap_cons, List.append_assoc, scan_chunk, dataOf_cons]
    by_cases hi : c.kind = ihdr
    · have hd : c.kind ≠ idat := hi ▸ ihdr_ne_idat
      rw [if_pos hi, hheader c List.mem_cons_self hi, if_neg hd, List.nil_append]
      simp only [ih, List.mem_cons, exists_eq_or_imp, hi, true_or, if_true, ite_self]
    · by_cases hd : c.kind = idat
      · rw [if_neg hi, if_pos hd, if_pos hd, ih, List.append_assoc]
        simp only [List.mem_cons, exists_eq_or_imp, hi, false_or]
      · rw [if_neg hi, if_neg hd, if_neg hend, if_neg hd, List.nil_append, ih]
        simp only [List.mem_cons, exists_eq_or_imp, hi, false_or]

theorem scan_file {decompress : Bytes → Option Bytes} {img : Image}
    (e : Encoding decompress img) :
    scan (e.file.drop 8) none [] =
      .ok (some ⟨img.width, img.rows.length, 8, img.colour.code, 0⟩, dataOf e.chunks) := by
  have hdrop : e.file.drop 8 = e.chunks.flatMap Chunk.bytes ++ (e.last.bytes ++ e.trailing) := by
    show List.drop signature.length _ = _
    exact List.drop_left
  have hlast : e.last.kind ≠ ihdr := e.last_kind ▸ ihdr_ne_iend.symm
  have hlast' : e.last.kind ≠ idat := e.last_kind ▸ idat_ne_iend.symm
  rw [hdrop, scan_chunks (h := ⟨img.width, img.rows.length, 8, img.colour.code, 0⟩)
    (fun c hc hk => ?_) e.inner, if_pos e.headed, scan_chunk, if_neg hlast, if_neg hlast',
    if_pos e.last_kind, List.nil_append]
  obtain ⟨compression, method, hbody⟩ := e.header c hc hk
  rw [hbody, Header.unpack_header]

/-! ## The filters -/

theorem left_congr {channels : Nat} (hpos : 0 < channels) {l m : Bytes} {x : Nat}
    (h : l.take x = m.take x) : left channels l x = left channels m x := by
  unfold left
  split
  · have hlt : x - channels < x := by omega
    have hget := congrArg (fun l => l.getD (x - channels) 0) h
    simpa [List.getD_eq_getElem?_getD, List.getElem?_take, hlt] using hget
  · rfl

/-- No filter looks at the byte it predicts, or behind it. -/
theorem Filter.guess_causal (f : Filter) {channels : Nat} (hpos : 0 < channels) (prev : Bytes) :
    Causal (f.guess channels prev) := by
  intro l m x h
  rw [guess, guess, left_congr hpos h]

theorem byteAt_eq {l : Bytes} {i : Nat} (h : i < l.length) : byteAt l i = .ok (l.getD i 0) := by
  simp [byteAt, h]

theorem byteBefore_eq {channels : Nat} {l : Bytes} {x : Nat} (h : x < l.length) :
    byteBefore channels l x = .ok (left channels l x) := by
  unfold byteBefore left
  split
  · exact byteAt_eq (by omega)
  · rfl

theorem addAt_eq {row : Bytes} {x : Nat} (h : x < row.length) (g : UInt8) :
    addAt row x g.toNat = .ok (row.modify x (· + g)) := by
  have hbyte : UInt8.ofNat (row[x].toNat + g.toNat) = row[x] + g := by
    simp [UInt8.ofNat_add]
  rw [addAt, byteAt_eq h, List.modify_eq_set_getElem?, List.getElem?_eq_getElem h]
  simp [Except.map, h, hbyte]

/-- **One turn of the loop** over a line and a line before it that are both there. -/
theorem unfilterStep_eq (f : Filter) {channels : Nat} {prev line : Bytes} {x : Nat}
    (hline : x < line.length) (hprev : x < prev.length) :
    unfilterStep f.byte channels prev line x =
      .ok (restoreStep (· + ·) (f.guess channels prev) line x) := by
  unfold unfilterStep
  rw [byteBefore_eq hline, byteAt_eq hprev, byteBefore_eq hprev]
  simp only [Except.bind, bind, restoreStep, Filter.guess]
  generalize left channels line x = a
  generalize prev.getD x 0 = b
  generalize left channels prev x = c
  cases f with
  | none =>
    simp only [Filter.predict, UInt8.add_zero]
    exact congrArg Except.ok (List.modify_id ..).symm
  | sub => exact addAt_eq hline a
  | up => exact addAt_eq hline b
  | average =>
    have hlt : (a.toNat + b.toNat) / 2 < 256 := by
      have ha := a.toNat_lt
      have hb := b.toNat_lt
      omega
    have hg : (UInt8.ofNat ((a.toNat + b.toNat) / 2)).toNat = (a.toNat + b.toNat) / 2 :=
      UInt8.toNat_ofNat_of_lt' hlt
    have hadd := addAt_eq hline (UInt8.ofNat ((a.toNat + b.toNat) / 2))
    rw [hg] at hadd
    exact hadd
  | paeth => exact addAt_eq hline (paeth a b c)

/-! ## The rows -/

/-- A row comes back from its filter, byte by byte: each guess is the one it was filtered with,
because it looks only at bytes that were restored before. -/
theorem unfilter_line (f : Filter) {channels : Nat} (hpos : 0 < channels) {prev line : Bytes}
    (hprev : prev.length = line.length) :
    (List.range line.length).foldlM (unfilterStep f.byte channels prev)
      (residue (· - ·) (f.guess channels prev) line) = .ok line := by
  have hrun := foldlM_eq_ok (f := unfilterStep f.byte channels prev)
    (g := restoreStep (· + ·) (f.guess channels prev)) (P := fun l => l.length = line.length)
    (l := List.range line.length) (fun l x hl hx => ?_)
    (length_residue (· - ·) (f.guess channels prev) line)
  · rw [hrun, foldl_restore (fun a g => UInt8.sub_add_cancel a g) (f.guess_causal hpos prev)]
  · have hlt := List.mem_range.mp hx
    exact ⟨unfilterStep_eq f (hl ▸ hlt) (hprev ▸ hlt), (length_restoreStep ..).trans hl⟩

theorem readRows_filtered {channels stride : Nat} (hpos : 0 < channels)
    {lines : List (Filter × Bytes)} (hlines : ∀ p ∈ lines, p.2.length = stride) {prev : Bytes}
    (hprev : prev.length = stride) :
    readRows channels stride lines.length (filtered channels prev lines) prev =
      .ok (lines.map Prod.snd) := by
  induction lines generalizing prev with
  | nil => rfl
  | cons p lines ih =>
    obtain ⟨f, line⟩ := p
    have hline : line.length = stride := hlines (f, line) List.mem_cons_self
    have hlen : (residue (· - ·) (f.guess channels prev) line).length = stride := by
      rw [length_residue, hline]
    have hunfilter := unfilter_line f hpos (hprev.trans hline.symm)
    have hrest := ih (fun q hq => hlines q (List.mem_cons_of_mem _ hq)) hline
    rw [List.length_cons, filtered, List.cons_append, readRows, List.take_left' hlen,
      List.drop_left' hlen, ← hline, hunfilter]
    simp only [Except.bind, bind]
    rw [hline, hrest]
    rfl

/-! ## The pixels -/

theorem channels_pos (t : ColourType) : 0 < t.channels := by cases t <;> decide

theorem channelsOf_code (t : ColourType) : channelsOf t.code = some t.channels := by
  cases t <;> rfl

theorem expand_bytes {t : ColourType} (p : Colour t) :
    expand t.channels p.bytes = .ok p.quad := by
  cases p <;> rfl

theorem expandRow_bytes {t : ColourType} (row : List (Colour t)) :
    expandRow t.channels row.length (row.flatMap Colour.bytes) = .ok (row.flatMap Colour.quad) := by
  have hmap : ((List.range row.length).mapM fun x => expand t.channels
      (((row.flatMap Colour.bytes).drop (x * t.channels)).take t.channels)) =
      .ok ((List.range row.length).map fun x => (row.map Colour.quad).getD x []) := by
    refine mapM_eq_ok fun x hx => ?_
    have hlt := List.mem_range.mp hx
    rw [slice_flatMap (fun p _ => p.length_bytes) hlt, expand_bytes]
    simp [hlt]
  rw [expandRow, hmap, List.flatMap_def]
  have hall : ((List.range row.length).map fun x => (row.map Colour.quad).getD x []) =
      row.map Colour.quad := by
    refine List.ext_getElem (by simp) fun i h₁ h₂ => ?_
    simp only [List.getElem_map, List.getElem_range]
    simp at h₁
    simp [h₁]
  rw [hall]
  rfl

theorem length_line {img : Image} {line : Bytes} (h : line ∈ img.lines) :
    line.length = img.width * img.colour.channels := by
  obtain ⟨row, hrow, rfl⟩ := List.mem_map.mp h
  simp [List.length_flatMap, img.width_eq row hrow]

/-- **The script decodes what was encoded**, however it was. -/
theorem decode_file {decompress : Bytes → Option Bytes} {img : Image}
    (e : Encoding decompress img) :
    decode decompress e.file = .ok (img.width, img.rows.length, img.quads) := by
  have htake : e.file.take 8 = signature := by
    show List.take signature.length _ = _
    exact List.take_left
  have hlines : (e.filters.zip img.lines).map Prod.snd = img.lines :=
    List.map_snd_zip (by simp [e.filters_length, Image.lines])
  have hlength : (e.filters.zip img.lines).length = img.rows.length := by
    simp [e.filters_length, Image.lines]
  have hline : ∀ p ∈ e.filters.zip img.lines, p.2.length = img.width * img.colour.channels :=
    fun p hp => length_line (List.of_mem_zip hp).2
  have hrows := readRows_filtered (channels_pos img.colour) hline
    (List.length_replicate (n := img.width * img.colour.channels) (a := 0))
  have hexpand : img.lines.mapM (expandRow img.colour.channels img.width) =
      .ok (img.rows.map fun row => row.flatMap Colour.quad) := by
    rw [Image.lines, List.mapM_map]
    refine mapM_eq_ok fun row hrow => ?_
    rw [Function.comp_apply, ← img.width_eq row hrow, expandRow_bytes]
  rw [hlength, hlines] at hrows
  unfold decode
  rw [if_neg (not_not_intro htake), scan_file e]
  simp only [channelsOf_code, ne_eq, not_true_eq_false, or_self, if_false, e.data, hrows,
    Except.bind, bind, hexpand]
  rw [Image.quads, List.flatMap_def]

/-! ## What the boot program makes of it -/

theorem length_quads (img : Image) : img.quads.length = img.width * img.rows.length * 4 := by
  have hrow : ∀ row ∈ img.rows, (row.flatMap Colour.quad).length = img.width * 4 := by
    intro row hrow
    simp [List.length_flatMap, img.width_eq row hrow]
  rw [Image.quads, List.length_flatMap, List.map_congr_left hrow]
  simp
  ring

theorem slice_quads (img : Image) {x y : Nat} (hy : y < img.rows.length)
    (hx : x < img.rows[y].length) :
    (img.quads.drop ((y * img.width + x) * 4)).take 4 = img.rows[y][x].quad := by
  have hwidth := img.width_eq img.rows[y] (List.getElem_mem hy)
  have hflat : img.quads = (img.rows.flatMap id).flatMap Colour.quad := by
    rw [Image.quads, List.flatMap_assoc]
    rfl
  have hrow := slice_flatMap (f := id) (fun row hrow => img.width_eq row hrow) hy
  have hlt : y * img.width + x < (img.rows.flatMap id).length := by
    have hlen := congrArg List.length hrow
    simp only [List.length_take, List.length_drop, id, hwidth] at hlen
    omega
  have hpixel : (img.rows.flatMap id)[y * img.width + x] = img.rows[y][x] := by
    have hget := congrArg (fun l => l[x]?) hrow
    simp only [id, List.getElem?_take_of_lt (hwidth ▸ hx), List.getElem?_drop,
      List.getElem?_eq_getElem hlt, List.getElem?_eq_getElem hx] at hget
    exact Option.some.inj hget
  rw [hflat, slice_flatMap (fun p _ => p.length_quad) hlt, hpixel]

/-- A file is loaded exactly when its length is what its header says. -/
theorem load_header_iff (build : Build) {data : Bytes} (hlen : data.length < 2 ^ 63)
    {w0 w1 w2 w3 h0 h1 h2 h3 : UInt8} {rgba : Bytes}
    (hdata : data =
      0x41 :: 0x42 :: 0x52 :: 0x31 :: w0 :: w1 :: w2 :: w3 :: h0 :: h1 :: h2 :: h3 :: rgba)
    {width height : Nat} (hwidth : fromLeBytes w0 w1 w2 w3 = width)
    (hheight : fromLeBytes h0 h1 h2 h3 = height) (hfits : 12 + width * height * 4 < 2 ^ 64) :
    (∃ l : Logo, l.width = width ∧ l.height = height ∧ l.rgba = rgba ∧
      Logo.load build data hlen = some (.ok l)) ↔
      0 < width ∧ 0 < height ∧ rgba.length = width * height * 4 := by
  subst hdata hwidth hheight
  unfold Logo.load
  by_cases hsize : fromLeBytes w0 w1 w2 w3 = 0 ∨ fromLeBytes h0 h1 h2 h3 = 0
  · simp only [dif_pos hsize]
    constructor
    · rintro ⟨l, -, -, -, hload⟩
      cases hload
    · omega
  · simp only [dif_neg hsize, Option.bind_eq_bind]
    rw [fit_bind (by omega), fit_bind (by omega), fit_bind (by omega)]
    split_ifs with hlength
    · constructor
      · rintro ⟨l, -, -, -, hload⟩
        cases hload
      · omega
    · exact ⟨fun _ => by omega, fun _ => ⟨_, rfl, rfl, rfl, rfl⟩⟩

/-- **The header is read back, and the data are the rest of the file.** -/
theorem load_written_iff (build : Build) {width height : Nat} {rgba : Bytes}
    (hwidth : width < 2 ^ 32) (hheight : height < 2 ^ 32)
    (hfits : 12 + width * height * 4 < 2 ^ 64)
    (hlen : ([0x41, 0x42, 0x52, 0x31] ++ leBytes 4 width ++ leBytes 4 height ++ rgba).length <
      2 ^ 63) :
    (∃ l : Logo, l.width = width ∧ l.height = height ∧ l.rgba = rgba ∧
      Logo.load build ([0x41, 0x42, 0x52, 0x31] ++ leBytes 4 width ++ leBytes 4 height ++ rgba)
        hlen = some (.ok l)) ↔
      0 < width ∧ 0 < height ∧ rgba.length = width * height * 4 := by
  obtain ⟨w0, w1, w2, w3, hw⟩ := eq_four (length_leBytes 4 width)
  obtain ⟨h0, h1, h2, h3, hh⟩ := eq_four (length_leBytes 4 height)
  have hfrom (a b c d : UInt8) : fromLeBytes a b c d = ofLe [a, b, c, d] := by
    simp only [fromLeBytes, ofLe]
    ring
  have hdata : [0x41, 0x42, 0x52, 0x31] ++ leBytes 4 width ++ leBytes 4 height ++ rgba =
      0x41 :: 0x42 :: 0x52 :: 0x31 :: w0 :: w1 :: w2 :: w3 :: h0 :: h1 :: h2 :: h3 :: rgba := by
    simp [hw, hh]
  refine load_header_iff build hlen hdata ?_ ?_ hfits
  · rw [hfrom, ← hw, ofLe_leBytes (by simpa using hwidth)]
  · rw [hfrom, ← hh, ofLe_leBytes (by simpa using hheight)]

theorem texel_of_bytes {build : Build} {l : Logo} {x y : Nat} (hx : x < l.width)
    (hy : y < l.height) {r g b a : UInt8}
    (h : (l.rgba.drop ((y * l.width + x) * 4)).take 4 = [r, g, b, a]) :
    l.texel build x y = Logo.premultiply build r g b a := by
  have hbyte (i : Nat) (hi : i < 4) :
      l.rgba[(y * l.width + x) * 4 + i]? = [r, g, b, a][i]? := by
    rw [← h, List.getElem?_take_of_lt hi, List.getElem?_drop]
  have hpixel : l.clamped? x y =
      some ⟨r.toNat * a.toNat, g.toNat * a.toNat, b.toNat * a.toNat, a.toNat * 255⟩ := by
    rw [Logo.clamped?, Nat.min_eq_left (by omega), Nat.min_eq_left (by omega)]
    have h0 := hbyte 0 (by decide)
    rw [Nat.add_zero] at h0
    simp only [Logo.pixel?, h0, hbyte 1 (by decide), hbyte 2 (by decide), hbyte 3 (by decide)]
    rfl
  rw [Logo.texel_eq hpixel, Logo.premultiply_eq]

/-- **The logo on the screen is the artwork**: whichever way an image was written as a PNG, the file
the script makes of it is loaded, and its texels are the pixels of the image. -/
theorem logo_of_encoding (build : Build) {decompress : Bytes → Option Bytes} {img : Image}
    (e : Encoding decompress img) (hwidth : 0 < img.width) (hheight : 0 < img.rows.length)
    (hsize : 12 + img.width * img.rows.length * 4 < 2 ^ 63) :
    ∃ data hlen l, convert decompress e.file = .ok data ∧
      Logo.load build data hlen = some (.ok l) ∧ l.width = img.width ∧
      l.height = img.rows.length ∧
      ∀ y (hy : y < img.rows.length) x (hx : x < img.rows[y].length),
        l.texel build x y = Logo.premultiply build img.rows[y][x].red img.rows[y][x].green
          img.rows[y][x].blue img.rows[y][x].alpha := by
  have hconvert : convert decompress e.file = .ok ([0x41, 0x42, 0x52, 0x31] ++
      leBytes 4 img.width ++ leBytes 4 img.rows.length ++ img.quads) := by
    rw [convert, decode_file e]
    rfl
  have hlen : ([0x41, 0x42, 0x52, 0x31] ++ leBytes 4 img.width ++ leBytes 4 img.rows.length ++
      img.quads).length < 2 ^ 63 := by
    simp only [List.length_append, length_leBytes, length_quads, List.length_cons, List.length_nil]
    omega
  obtain ⟨l, hlw, hlh, hrgba, hload⟩ := (load_written_iff build img.width_lt img.height_lt
    (by omega) hlen).mpr ⟨hwidth, hheight, length_quads img⟩
  refine ⟨_, hlen, l, hconvert, hload, hlw, hlh, fun y hy x hx => ?_⟩
  have hx' : x < img.width := by rwa [← img.width_eq _ (List.getElem_mem hy)]
  refine texel_of_bytes (by rwa [hlw]) (by rwa [hlh]) ?_
  rw [hrgba, hlw, slice_quads img hy hx]
  rfl

theorem two_sides : 2 < 2 ^ 32 := by decide

/-- Two rows of two greys, which are filtered by `sub` and by `paeth`. -/
def greyImage : Image where
  colour := .grey
  width := 2
  rows := [[.grey 10, .grey 20], [.grey 30, .grey 45]]
  width_eq row hrow := by
    rcases List.mem_cons.mp hrow with rfl | hrow
    · rfl
    · rw [List.mem_singleton.mp hrow]
      rfl
  width_lt := two_sides
  height_lt := two_sides

/-- The stored form of `zlib`: six bytes, and what the checksum of them is. -/
def greyStream : Bytes :=
  [0x78, 0x01, 0x01, 6, 0, 0xF9, 0xFF, 1, 10, 10, 4, 20, 15, 0x00, 0xA9, 0x00, 0x3D]

def stored (z : Bytes) : Option Bytes :=
  if z = greyStream then some [1, 10, 10, 4, 20, 15] else none

def greyChunk (kind body : Bytes) (hkind : kind.length = 4) (hbody : body.length < 2 ^ 32) :
    Chunk :=
  ⟨kind, body, [0, 0, 0, 0], hkind, hbody, rfl⟩

/-- The data in two chunks, with a `tIME` between the header and them. -/
def greyChunks : List Chunk :=
  [greyChunk ihdr (greyImage.header 0 0) rfl (by decide),
    greyChunk [0x74, 0x49, 0x4D, 0x45] [7, 234, 9, 19, 3, 0, 0] rfl (by decide),
    greyChunk idat (greyStream.take 7) rfl (by decide),
    greyChunk idat (greyStream.drop 7) rfl (by decide)]

theorem greyChunks_header {c : Chunk} (hc : c ∈ greyChunks) (hk : c.kind = ihdr) :
    c.body = greyImage.header 0 0 := by
  simp only [greyChunks, List.mem_cons, List.not_mem_nil, or_false] at hc
  rcases hc with rfl | rfl | rfl | rfl
  · rfl
  · exact absurd hk (by decide)
  · exact absurd hk (by decide)
  · exact absurd hk (by decide)

theorem greyChunks_inner {c : Chunk} (hc : c ∈ greyChunks) : c.kind ≠ iend := by
  simp only [greyChunks, List.mem_cons, List.not_mem_nil, or_false] at hc
  rcases hc with rfl | rfl | rfl | rfl <;> decide

theorem greyChunks_data : stored (dataOf greyChunks) = some (filtered greyImage.colour.channels
    (List.replicate (greyImage.width * greyImage.colour.channels) 0)
    ([Filter.sub, .paeth].zip greyImage.lines)) := by decide

/-- The image as a file, with its data cut in two. -/
def greyEncoding : Encoding stored greyImage where
  filters := [.sub, .paeth]
  chunks := greyChunks
  last := greyChunk iend [] rfl (by decide)
  trailing := []
  filters_length := rfl
  headed := ⟨_, List.mem_cons_self, rfl⟩
  header _ hc hk := ⟨0, 0, greyChunks_header hc hk⟩
  inner _ := greyChunks_inner
  last_kind := rfl
  data := greyChunks_data

theorem logo_of_encoding_grey :
    ∃ data hlen l, convert stored greyEncoding.file = .ok data ∧
      Logo.load .release data hlen = some (.ok l) ∧
      l.texel .release 1 1 = Logo.premultiply .release 45 45 45 255 := by
  obtain ⟨data, hlen, l, hconvert, hload, -, -, htexel⟩ :=
    logo_of_encoding .release greyEncoding (by decide) (by decide) (by decide)
  refine ⟨data, hlen, l, hconvert, hload, ?_⟩
  -- the colour of the pixel is computed, what is made of it is not
  generalize Logo.premultiply .release = f at htexel ⊢
  exact htexel 1 (by decide) 1 (by decide)

/-! ## Data that end too early -/

theorem addAt_length {line next : Bytes} {x n : Nat} (h : addAt line x n = .ok next) :
    next.length = line.length := by
  obtain ⟨v, -, rfl⟩ := ok_of_map h
  exact List.length_set ..

theorem unfilterStep_length {ftype : UInt8} {channels : Nat} {prev line next : Bytes} {x : Nat}
    (h : unfilterStep ftype channels prev line x = .ok next) : next.length = line.length := by
  obtain ⟨a, -, h⟩ := ok_of_bind h
  obtain ⟨b, -, h⟩ := ok_of_bind h
  obtain ⟨c, -, h⟩ := ok_of_bind h
  split_ifs at h
  · exact addAt_length h
  · exact addAt_length h
  · exact addAt_length h
  · exact addAt_length h
  · cases h
    rfl

/-- The rows that are read are of full length but for the last one, and that one also if there is
enough to read. -/
theorem readRows_length {channels stride height : Nat} {raw prev : Bytes} {rows : List Bytes}
    (h : readRows channels stride height raw prev = .ok rows) :
    rows.length = height ∧ (∀ row ∈ rows, row.length ≤ stride) ∧
      (∀ row ∈ rows.take (height - 1), row.length = stride) ∧
      ((∀ row ∈ rows, row.length = stride) ↔ height * (stride + 1) ≤ raw.length) := by
  induction height generalizing raw prev rows with
  | zero =>
    cases h
    simp
  | succ height ih =>
    cases raw with
    | nil => cases h
    | cons ftype raw =>
      obtain ⟨line, hline, h⟩ := ok_of_bind h
      obtain ⟨rest, hrest, h⟩ := ok_of_bind h
      cases h
      have hlength : line.length = min stride raw.length := by
        rw [foldlM_ok (P := fun l => l.length = (raw.take stride).length)
          (fun l x l' hl hstep => (unfilterStep_length hstep).trans hl) rfl hline, List.length_take]
      obtain ⟨hcount, hle, hfull, hiff⟩ := ih hrest
      -- a row behind this one was read, so there was enough for this one
      have hmore : 0 < height → stride < raw.length := by
        intro hpos
        obtain ⟨height, rfl⟩ := Nat.exists_eq_succ_of_ne_zero (Nat.ne_of_gt hpos)
        by_contra hshort
        rw [List.drop_eq_nil_of_le (by omega)] at hrest
        cases hrest
      refine ⟨by rw [List.length_cons, hcount], ?_, ?_, ?_⟩
      · rw [List.forall_mem_cons]
        exact ⟨by omega, hle⟩
      · intro row hrow
        cases height with
        | zero => simp at hrow
        | succ height =>
          have hpos := hmore (Nat.succ_pos _)
          rcases List.mem_cons.mp hrow with rfl | hrow
          · omega
          · exact hfull row hrow
      · rw [List.forall_mem_cons, hiff, List.length_drop, List.length_cons, hlength, Nat.succ_mul]
        cases height with
        | zero => omega
        | succ height =>
          have hpos := hmore (Nat.succ_pos _)
          omega

theorem channelsOf_pos {color : UInt8} {channels : Nat} (h : channelsOf color = some channels) :
    0 < channels := by
  unfold channelsOf at h
  split_ifs at h <;> cases h <;> decide

theorem expand_length {color : UInt8} {channels : Nat} (hcolor : channelsOf color = some channels)
    {px q : Bytes} (hpx : px.length ≤ channels) (h : expand channels px = .ok q) :
    q.length ≤ 4 ∧ (q.length = 4 ↔ px.length = channels) := by
  unfold channelsOf at hcolor
  unfold expand at h
  split_ifs at hcolor with h0 h4 h2 h6 <;> cases hcolor
  · obtain ⟨g, hg, h⟩ := ok_of_bind h
    cases h
    cases px with
    | nil => cases hg
    | cons _ px => simp at hpx ⊢; exact hpx
  · obtain ⟨g, -, h⟩ := ok_of_bind h
    obtain ⟨a, ha, h⟩ := ok_of_bind h
    cases h
    match px, ha with
    | [_, _], _ => simp
  · cases h
    simp at hpx ⊢
    omega
  · cases h
    exact ⟨hpx, Iff.rfl⟩

/-- A row has all of its bytes exactly when it was read in full. It is never longer. -/
theorem expandRow_length {color : UInt8} {channels : Nat}
    (hcolor : channelsOf color = some channels) {width : Nat} {line out : Bytes}
    (hline : line.length ≤ width * channels) (h : expandRow channels width line = .ok out) :
    out.length ≤ width * 4 ∧ (out.length = width * 4 ↔ line.length = width * channels) := by
  obtain ⟨quads, hquads, rfl⟩ := ok_of_map h
  obtain ⟨hcount, hget⟩ := List.forall₂_iff_get.mp (forall₂_of_mapM_ok hquads)
  rw [List.length_range] at hcount
  have hpx (x : Nat) : ((line.drop (x * channels)).take channels).length =
      min channels (line.length - x * channels) := by
    rw [List.length_take, List.length_drop]
  have hquad (x : Nat) (hx : x < quads.length) : quads[x].length ≤ 4 ∧
      (quads[x].length = 4 ↔ min channels (line.length - x * channels) = channels) := by
    have hok := hget x (by rw [List.length_range, hcount]; exact hx) hx
    rw [List.get_eq_getElem, List.getElem_range] at hok
    rw [← hpx]
    exact expand_length hcolor (List.length_take_le ..) hok
  have hfour : ∀ q ∈ quads, q.length ≤ 4 :=
    List.forall_mem_iff_forall_getElem.mpr fun x hx => (hquad x hx).1
  have hsum := length_flatten_eq_iff hfour
  rw [← hcount] at hsum
  refine ⟨hcount ▸ length_flatten_le hfour, ?_⟩
  rw [hsum, List.forall_mem_iff_forall_getElem]
  constructor
  · intro hfull
    cases width with
    | zero => omega
    | succ w =>
      -- the last pixel is all there
      have hpos := channelsOf_pos hcolor
      have hlast := (hquad w (by omega)).2.mp (hfull w (by omega))
      rw [Nat.succ_mul] at hline ⊢
      omega
  · intro hfull x hx
    have hle : (x + 1) * channels ≤ width * channels := Nat.mul_le_mul_right _ (by omega)
    rw [Nat.succ_mul] at hle
    exact (hquad x hx).2.mpr (by omega)

/-- What the script writes has the length its header says exactly when the data were complete. -/
theorem decode_length {decompress : Bytes → Option Bytes} {png : Bytes} {width height : Nat}
    {rgba : Bytes} (h : decode decompress png = .ok (width, height, rgba)) :
    ∃ hd data channels raw, scan (png.drop 8) none [] = .ok (some hd, data) ∧
      channelsOf hd.color = some channels ∧ decompress data = some raw ∧ hd.width = width ∧
      hd.height = height ∧ (height - 1) * (width * 4) ≤ rgba.length ∧
      (rgba.length = height * (width * 4) ↔ height * (width * channels + 1) ≤ raw.length) := by
  -- the way the script takes when it does not stop
  unfold decode at h
  split_ifs at h
  split at h
  · cases h
  · cases h
  rename_i hd data hscan
  split at h
  · cases h
  rename_i channels hcolor
  split_ifs at h
  split at h
  · cases h
  rename_i raw hraw
  obtain ⟨rows, hrows, h⟩ := ok_of_bind h
  obtain ⟨outs, houts, h⟩ := ok_of_bind h
  cases h
  -- what was read row by row, and what became of each row
  obtain ⟨hcount, hle, hfull, hiff⟩ := readRows_length hrows
  obtain ⟨hsame, hget⟩ := List.forall₂_iff_get.mp (forall₂_of_mapM_ok houts)
  have hout (y : Nat) (hy : y < rows.length) (hy' : y < outs.length) :
      outs[y].length ≤ hd.width * 4 ∧
        (outs[y].length = hd.width * 4 ↔ rows[y].length = hd.width * channels) :=
    expandRow_length hcolor (hle _ (List.getElem_mem hy)) (hget y hy hy')
  have hwide : ∀ out ∈ outs, out.length ≤ hd.width * 4 :=
    List.forall_mem_iff_forall_getElem.mpr fun y hy => (hout y (by omega) hy).1
  have hsum := length_flatten_eq_iff hwide
  refine ⟨hd, data, channels, raw, hscan, hcolor, hraw, rfl, rfl, ?_, ?_⟩
  · -- all but the last row are there
    have hbut : ∀ out ∈ outs.take (hd.height - 1), out.length = hd.width * 4 := by
      refine List.forall_mem_iff_forall_getElem.mpr fun y hy => ?_
      rw [List.length_take] at hy
      rw [List.getElem_take]
      refine (hout y (by omega) (by omega)).2.mpr ?_
      have hrow := hfull rows[y] (List.mem_take_iff_getElem.mpr ⟨y, by omega, rfl⟩)
      exact hrow
    have htake : (outs.take (hd.height - 1)).length = hd.height - 1 := by
      rw [List.length_take]
      omega
    have hpart := (length_flatten_eq_iff fun out h => Nat.le_of_eq (hbut out h)).mpr hbut
    rw [htake] at hpart
    rw [← hpart]
    conv_rhs => rw [← List.take_append_drop (hd.height - 1) outs]
    rw [List.flatten_append, List.length_append]
    exact Nat.le_add_right ..
  · rw [← hsame, hcount] at hsum
    rw [hsum, ← hiff, List.forall_mem_iff_forall_getElem, List.forall_mem_iff_forall_getElem]
    constructor
    · exact fun h y hy => (hout y hy (by omega)).2.mp (h y (by omega))
    · exact fun h y hy => (hout y (by omega) hy).2.mpr (h y (by omega))

theorem Header.unpack_lt {body : Bytes} {h : Header} (hunpack : Header.unpack body = some h) :
    h.width < 2 ^ 32 ∧ h.height < 2 ^ 32 := by
  unfold Header.unpack at hunpack
  split at hunpack
  · rename_i w0 w1 w2 w3 h0 h1 h2 h3 _ _ _ _ _
    have hwidth := ofBe_lt [w0, w1, w2, w3]
    have hheight := ofBe_lt [h0, h1, h2, h3]
    cases hunpack
    exact ⟨by simpa using hwidth, by simpa using hheight⟩
  · cases hunpack

theorem scan_header_lt {rest data data' : Bytes} {header : Option Header} {h : Header}
    (hheader : ∀ h, header = some h → h.width < 2 ^ 32 ∧ h.height < 2 ^ 32)
    (hscan : scan rest header data = .ok (some h, data')) :
    h.width < 2 ^ 32 ∧ h.height < 2 ^ 32 := by
  induction rest, header, data using scan.induct with
  | case1 header data =>
    rw [scan] at hscan
    cases hscan
    exact hheader h rfl
  | case2 header data l0 l1 l2 l3 k0 k1 k2 k3 tail length kind body hkind hunpack =>
    rw [scan, if_pos hkind, hunpack] at hscan
    cases hscan
  | case3 header data l0 l1 l2 l3 k0 k1 k2 k3 tail length kind body rest hkind hd hunpack ih =>
    rw [scan, if_pos hkind, hunpack] at hscan
    refine ih (fun h hsome => ?_) hscan
    cases hsome
    exact Header.unpack_lt hunpack
  | case4 header data l0 l1 l2 l3 k0 k1 k2 k3 tail length kind body rest hkind hdat ih =>
    rw [scan, if_neg hkind, if_pos hdat] at hscan
    exact ih hheader hscan
  | case5 header data l0 l1 l2 l3 k0 k1 k2 k3 tail kind hkind hdat hend =>
    rw [scan, if_neg hkind, if_neg hdat, if_pos hend] at hscan
    cases hscan
    exact hheader h rfl
  | case6 header data l0 l1 l2 l3 k0 k1 k2 k3 tail length kind rest hkind hdat hend ih =>
    rw [scan, if_neg hkind, if_neg hdat, if_neg hend] at hscan
    exact ih hheader hscan
  | case7 rest header data hnil hshort =>
    rw [scan.eq_3 rest header data hnil hshort] at hscan
    cases hscan

/-- **What the script writes is a logo exactly when the PNG was complete**: one whose data end early
may be converted without a word, and is then refused by the boot program. -/
theorem load_convert_iff (build : Build) {decompress : Bytes → Option Bytes} {png out : Bytes}
    (h : convert decompress png = .ok out) (hlen : out.length < 2 ^ 63) :
    ∃ hd data channels raw, scan (png.drop 8) none [] = .ok (some hd, data) ∧
      channelsOf hd.color = some channels ∧ decompress data = some raw ∧
      ((∃ l : Logo, l.width = hd.width ∧ l.height = hd.height ∧ l.rgba = out.drop 12 ∧
          Logo.load build out hlen = some (.ok l)) ↔
        0 < hd.width ∧ 0 < hd.height ∧
          hd.height * (hd.width * channels + 1) ≤ raw.length) := by
  obtain ⟨⟨width, height, rgba⟩, hdecode, rfl⟩ := ok_of_map h
  obtain ⟨hd, data, channels, raw, hscan, hcolor, hraw, rfl, rfl, hleast, hiff⟩ :=
    decode_length hdecode
  obtain ⟨hwidth, hheight⟩ := scan_header_lt (fun _ h => by cases h) hscan
  have hdrop : ([0x41, 0x42, 0x52, 0x31] ++ leBytes 4 hd.width ++ leBytes 4 hd.height ++
      rgba).drop 12 = rgba := List.drop_left' (by simp)
  refine ⟨hd, data, channels, raw, hscan, hcolor, hraw, ?_⟩
  dsimp only at hlen ⊢
  have hfits : 12 + hd.width * hd.height * 4 < 2 ^ 64 := by
    simp only [List.length_append, length_leBytes] at hlen
    generalize hd.height = height at hleast ⊢
    cases height with
    | zero => simp
    | succ n =>
      have hproduct : hd.width * (n + 1) * 4 = n * (hd.width * 4) + hd.width * 4 := by ring
      rw [Nat.add_sub_cancel] at hleast
      omega
  rw [← hiff, hdrop, load_written_iff build hwidth hheight hfits hlen]
  have hproduct : hd.height * (hd.width * 4) = hd.width * hd.height * 4 := by ring
  rw [hproduct]

/-- The stored form of one byte: the filter of a row that is not there. -/
def shortStream : Bytes := [0x78, 0x01, 0x01, 1, 0, 0xFE, 0xFF, 0, 0x00, 0x01, 0x00, 0x01]

def storedShort (z : Bytes) : Option Bytes := if z = shortStream then some [0] else none

def shortHead : Chunk :=
  greyChunk ihdr [0, 0, 0, 1, 0, 0, 0, 1, 8, 2, 0, 0, 0] (by decide) (by decide)

def shortData : Chunk := greyChunk idat shortStream (by decide) (by decide)

def shortEnd : Chunk := greyChunk iend [] (by decide) (by decide)

/-- One pixel of three channels, without its data. -/
def shortFile : Bytes :=
  signature ++ (shortHead.bytes ++ (shortData.bytes ++ (shortEnd.bytes ++ [])))

theorem scan_shortFile :
    scan (shortFile.drop 8) none [] = .ok (some ⟨1, 1, 8, 2, 0⟩, shortStream) := by
  have hdrop :
      shortFile.drop 8 = shortHead.bytes ++ (shortData.bytes ++ (shortEnd.bytes ++ [])) := by
    show List.drop signature.length _ = _
    exact List.drop_left
  have hunpack : Header.unpack shortHead.body = some ⟨1, 1, 8, 2, 0⟩ := by decide
  rw [hdrop, scan_chunk, if_pos (show shortHead.kind = ihdr from rfl), hunpack]
  dsimp only
  rw [scan_chunk, if_neg (show ¬ shortData.kind = ihdr by decide),
    if_pos (show shortData.kind = idat from rfl), scan_chunk,
    if_neg (show ¬ shortEnd.kind = ihdr by decide), if_neg (show ¬ shortEnd.kind = idat by decide),
    if_pos (show shortEnd.kind = iend from rfl)]
  rfl

theorem convert_shortFile : convert storedShort shortFile =
    .ok [0x41, 0x42, 0x52, 0x31, 1, 0, 0, 0, 1, 0, 0, 0, 255] := by
  unfold convert decode
  rw [if_neg (by decide), scan_shortFile]
  rfl

theorem load_convert_short : ¬ ∃ l : Logo, l.rgba = [255] ∧ l.width = 1 ∧ l.height = 1 ∧
    Logo.load .release [0x41, 0x42, 0x52, 0x31, 1, 0, 0, 0, 1, 0, 0, 0, 255] (by decide) =
      some (.ok l) := by
  rintro ⟨l, hrgba, hwidth, hheight, hload⟩
  obtain ⟨hd, data, channels, raw, hscan, hcolor, hraw, hiff⟩ :=
    load_convert_iff .release convert_shortFile (by decide)
  rw [scan_shortFile] at hscan
  cases hscan
  cases hcolor
  cases hraw
  obtain ⟨-, -, hcomplete⟩ := hiff.mp ⟨l, hwidth, hheight, hrgba, hload⟩
  exact absurd hcomplete (by decide)

end Abora.Boot
