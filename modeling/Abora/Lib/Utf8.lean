import Abora.Lib.Files
import Abora.Lib.Text

/-!
# Bytes and the text they are

`str::as_bytes` and `str::from_utf8`. Bytes decode to a text exactly when they are its encoding
(`fromUtf8_eq_some`), so decoding never mends anything. A newline byte is never part of a longer
character, so a text may be cut into lines before or after it is decoded: `byteLines_encode` is
that, and `fromUtf8_of_mem_byteLines` draws what a reader of lines needs from it.

The other direction fails: the lines of a text that is not UTF-8 may each, but one, be. A reader
that decodes line by line keeps the good ones, and a reader that decodes the whole has nothing at
all.
-/

namespace Abora.Lib.Text

/-- `str::as_bytes`. -/
def encode (s : Chars) : Bytes := s.flatMap String.utf8EncodeChar

/-- `str::from_utf8`. -/
def fromUtf8 (b : Bytes) : Option String := String.fromUTF8? b.toByteArray

/-- `dropCr`, on bytes. -/
def dropCrByte (line : Bytes) : Bytes :=
  if line.getLast? = some 0x0D then line.dropLast else line

def byteLinesFrom (line : Bytes) : Bytes → List Bytes
  | [] => if line = [] then [] else [line]
  | b :: bs =>
    if b = 0x0A then dropCrByte line :: byteLinesFrom [] bs else byteLinesFrom (line ++ [b]) bs

/-- `lines`, on bytes: what is between newlines, decoded or not. -/
def byteLines (b : Bytes) : List Bytes := byteLinesFrom [] b

/-! ## Encoding and decoding -/

@[simp] theorem encode_nil : encode [] = [] := rfl

@[simp] theorem encode_cons (c : Char) (s : Chars) :
    encode (c :: s) = String.utf8EncodeChar c ++ encode s := rfl

@[simp] theorem encode_append (s t : Chars) : encode (s ++ t) = encode s ++ encode t :=
  List.flatMap_append

theorem encode_toList (s : String) : (encode s.toList).toByteArray = s.toByteArray := by
  show s.toList.utf8Encode = s.toByteArray
  have hofList : (String.ofList s.toList).toByteArray = s.toByteArray :=
    congrArg String.toByteArray String.ofList_toList
  exact hofList

theorem toByteArray_injective {a b : Bytes} (h : a.toByteArray = b.toByteArray) : a = b := by
  have hdata := congrArg (fun x : ByteArray => x.data.toList) h
  simpa using hdata

/-- **Bytes decode to a text exactly when they are its encoding.** -/
theorem fromUtf8_eq_some {b : Bytes} {s : String} : fromUtf8 b = some s ↔ b = encode s.toList := by
  unfold fromUtf8 String.fromUTF8?
  constructor
  · intro h
    split at h
    · have harray : b.toByteArray = s.toByteArray := congrArg String.toByteArray (Option.some.inj h)
      exact toByteArray_injective (harray.trans (encode_toList s).symm)
    · cases h
  · intro h
    have harray : b.toByteArray = s.toByteArray := by rw [h, encode_toList]
    have hvalid : b.toByteArray.IsValidUTF8 := harray ▸ s.isValidUTF8
    rw [dif_pos hvalid]
    exact congrArg some (String.toByteArray_inj.mp harray)

theorem fromUtf8_encode (s : Chars) : fromUtf8 (encode s) = some (String.ofList s) :=
  fromUtf8_eq_some.mpr (by rw [String.toList_ofList])

theorem encode_injective {s t : Chars} (h : encode s = encode t) : s = t := by
  have hs := fromUtf8_encode s
  rw [h, fromUtf8_encode t] at hs
  exact (String.ofList_inj.mp (Option.some.inj hs)).symm

/-- An ASCII character is its own byte; every byte of another one is out of ASCII's range, and
none is above `0xF7`. -/
theorem utf8EncodeChar_cases (c : Char) :
    (c.toNat < 0x80 ∧ String.utf8EncodeChar c = [UInt8.ofNat c.toNat]) ∨
      0x80 ≤ c.toNat ∧ ∀ b ∈ String.utf8EncodeChar c, 0x80 ≤ b.toNat ∧ b.toNat < 0xF8 := by
  have htail (n : Nat) : 0x80 ≤ (UInt8.ofNat (n % 0x40 + 0x80)).toNat ∧
      (UInt8.ofNat (n % 0x40 + 0x80)).toNat < 0xF8 := by
    rw [UInt8.toNat_ofNat']
    omega
  have hlead {m k : Nat} (n : Nat) (hm : 0 < m) (hk : 0x80 ≤ k) (hmk : m + k ≤ 0xF8) :
      0x80 ≤ (UInt8.ofNat (n % m + k)).toNat ∧ (UInt8.ofNat (n % m + k)).toNat < 0xF8 := by
    have hlt := Nat.mod_lt n hm
    rw [UInt8.toNat_ofNat']
    omega
  have hv : c.val.toNat = c.toNat := rfl
  unfold String.utf8EncodeChar
  simp only [hv]
  split
  · exact .inl ⟨by omega, rfl⟩
  · refine .inr ⟨by omega, fun b hb => ?_⟩
    split at hb
    · rcases List.mem_cons.mp hb with rfl | hb
      · exact hlead _ (by decide) (by decide) (by decide)
      · exact List.mem_singleton.mp hb ▸ htail _
    split at hb
    · rcases List.mem_cons.mp hb with rfl | hb
      · exact hlead _ (by decide) (by decide) (by decide)
      rcases List.mem_cons.mp hb with rfl | hb
      · exact htail _
      · exact List.mem_singleton.mp hb ▸ htail _
    · rcases List.mem_cons.mp hb with rfl | hb
      · exact hlead _ (by decide) (by decide) (by decide)
      rcases List.mem_cons.mp hb with rfl | hb
      · exact htail _
      rcases List.mem_cons.mp hb with rfl | hb
      · exact htail _
      · exact List.mem_singleton.mp hb ▸ htail _

/-- A byte no encoding contains: nothing above `0xF7` begins or continues a character. -/
theorem fromUtf8_of_mem {out : Bytes} {b : UInt8} (hb : b ∈ out) (hlarge : 0xF8 ≤ b.toNat) :
    fromUtf8 out = none := by
  rw [Option.eq_none_iff_forall_ne_some]
  intro s hs
  rw [fromUtf8_eq_some.mp hs] at hb
  obtain ⟨c, -, hc⟩ := List.mem_flatMap.mp hb
  rcases utf8EncodeChar_cases c with ⟨hascii, henc⟩ | ⟨-, hall⟩
  · rw [henc, List.mem_singleton] at hc
    rw [hc, UInt8.toNat_ofNat'] at hlarge
    omega
  · have hlt := (hall b hc).2
    omega

/-! ## Lines of bytes -/

theorem mem_utf8EncodeChar_ascii {c : Char} {b : UInt8} (hb : b ∈ String.utf8EncodeChar c)
    (hascii : b.toNat < 0x80) : c.toNat = b.toNat ∧ String.utf8EncodeChar c = [b] := by
  rcases utf8EncodeChar_cases c with ⟨hc, henc⟩ | ⟨-, hall⟩
  · rw [henc] at hb ⊢
    have hbc := List.mem_singleton.mp hb
    refine ⟨?_, by rw [hbc]⟩
    rw [hbc, UInt8.toNat_ofNat']
    omega
  · have hge := (hall b hb).1
    omega

theorem char_eq_of_toNat {c d : Char} (h : c.toNat = d.toNat) : c = d :=
  Char.ext (UInt32.toNat_inj.mp h)

theorem byteLinesFrom_append {bs : Bytes} (line rest : Bytes) (h : 0x0A ∉ bs) :
    byteLinesFrom line (bs ++ rest) = byteLinesFrom (line ++ bs) rest := by
  induction bs generalizing line with
  | nil => rw [List.nil_append, List.append_nil]
  | cons b bs ih =>
    rw [List.mem_cons, not_or] at h
    rw [List.cons_append, byteLinesFrom, if_neg (Ne.symm h.1), ih (line ++ [b]) h.2,
      List.append_assoc, List.singleton_append]

theorem dropCrByte_encode (line : Chars) : dropCrByte (encode line) = encode (dropCr line) := by
  rcases List.eq_nil_or_concat' line with rfl | ⟨init, c, rfl⟩
  · rfl
  · have hlast : encode (init ++ [c]) = encode init ++ String.utf8EncodeChar c := by simp
    unfold dropCr dropCrByte
    by_cases hc : c = '\r'
    · have hbyte : String.utf8EncodeChar '\r' = [0x0D] := rfl
      rw [hlast, hc, hbyte]
      simp
    · have hne : (encode (init ++ [c])).getLast? ≠ some 0x0D := by
        intro hcr
        rw [hlast, List.getLast?_append_of_ne_nil _ String.utf8EncodeChar_ne_nil] at hcr
        have hmem := mem_utf8EncodeChar_ascii (List.mem_of_getLast? hcr) (by decide)
        exact hc (char_eq_of_toNat hmem.1)
      rw [if_neg hne, if_neg (by simpa using hc)]

theorem byteLinesFrom_encode (acc s : Chars) :
    byteLinesFrom (encode acc) (encode s) = (linesFrom acc s).map encode := by
  induction s generalizing acc with
  | nil =>
    rw [encode_nil, byteLinesFrom, linesFrom]
    by_cases hacc : acc = []
    · rw [hacc]
      rfl
    · have hne : encode acc ≠ [] := fun he => hacc (encode_injective he)
      rw [if_neg hne, if_neg hacc]
      rfl
  | cons c s ih =>
    by_cases hc : c = '\n'
    · have hbyte : String.utf8EncodeChar '\n' = [0x0A] := rfl
      rw [encode_cons, hc, hbyte, List.singleton_append, byteLinesFrom, if_pos rfl, linesFrom,
        if_pos rfl, List.map_cons, dropCrByte_encode]
      exact congrArg (encode (dropCr acc) :: ·) (ih [])
    · have hnot : 0x0A ∉ String.utf8EncodeChar c := by
        intro hmem
        exact hc (char_eq_of_toNat (mem_utf8EncodeChar_ascii hmem (by decide)).1)
      have hacc : encode acc ++ String.utf8EncodeChar c = encode (acc ++ [c]) := by simp
      rw [encode_cons, byteLinesFrom_append _ _ hnot, hacc, linesFrom, if_neg hc, ih (acc ++ [c])]

/-- **The lines of an encoded text are the encodings of its lines.** -/
theorem byteLines_encode (s : Chars) : byteLines (encode s) = (lines s).map encode :=
  byteLinesFrom_encode [] s

/-- What a line of a UTF-8 text decodes to is a line of the decoded text. -/
theorem fromUtf8_of_mem_byteLines {out l : Bytes} {s : String} (h : fromUtf8 out = some s)
    (hl : l ∈ byteLines out) : ∃ line ∈ lines s.toList, fromUtf8 l = some (String.ofList line) := by
  rw [fromUtf8_eq_some.mp h, byteLines_encode] at hl
  obtain ⟨line, hline, rfl⟩ := List.mem_map.mp hl
  exact ⟨line, hline, fromUtf8_encode line⟩

end Abora.Lib.Text
