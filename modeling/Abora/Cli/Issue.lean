import Abora.Lib.Utf8
import Abora.Daemon.Order

/-!
# Issuing a token (`cmd_auth_generate_token`, `random_secret` and `call_json` in `main.rs`)

The client makes a secret, or takes one from the command line, and prints its hash for the token
file. Later it sends the secret in a header, where the daemon cuts it out again: as text, behind the
first space, without the white space at its ends. `presented_bearer_iff` says which secrets come
through that. A random one is hexadecimal and does; one from the command line is not looked at.

The hash makes a journey of its own, from bytes to digits and back, and nothing is lost on it:
`decode_sha256Hex`. So a secret can be used exactly if its header can (`usable_iff`): the store
finds the entry by the hash, whatever the secret, once the daemon has the same secret to hash.
-/

namespace Abora.Cli

open Lib Lib.Text Daemon

/-- `hex_encode`: two lowercase digits a byte, the higher half first. -/
def hexEncode (bytes : Bytes) : Chars :=
  bytes.flatMap fun (byte : UInt8) => [hexDigit (byte >>> 4).toNat, hexDigit (byte &&& 0x0F).toNat]

/-- `sha256_hex`; `digest` is the SHA-256 of the secret's bytes. -/
def sha256Hex (digest : String → Hash) (secret : String) : String :=
  "sha256:" ++ String.ofList (hexEncode (digest secret).toList)

/-- `random_secret`; `urandom` is opening `/dev/urandom` and reading as many bytes from it. The
length is one of bytes, so the secret has twice as many digits. -/
def randomSecret (urandom : (n : Nat) → Except String (Vector UInt8 n)) (byteLen : Nat) :
    Except String String :=
  if ¬ (16 ≤ byteLen ∧ byteLen ≤ 128) then
    .error "secret length must be between 16 and 128 bytes"
  else (urandom byteLen).map fun bytes => String.ofList (hexEncode bytes.toList)

structure GenerateTokenArgs where
  name : String := "unnamed"
  permissions : List String := []
  secretBytes : Nat := 32
  secret : Option String := none
  deriving DecidableEq, Repr

/-- The secret that is issued. One that was given is taken as it is, of whatever length. -/
def GenerateTokenArgs.issue (args : GenerateTokenArgs)
    (urandom : (n : Nat) → Except String (Vector UInt8 n)) : Except String String :=
  match args.secret with
  | some secret => .ok secret
  | none => randomSecret urandom args.secretBytes

/-- The header of `call_json`, as its bytes. -/
def bearerHeader (token : String) : Bytes := encode ("Bearer " ++ token).toList

/-! ## What is asked of a secret -/

/-- Once a loaded token file has its hash, the request with its header presents exactly the secret,
and `find` returns the entry: the first with that hash. -/
def Usable (digest : String → Hash) (secret : String) : Prop :=
  ∀ raw entries, entriesOf raw = some (.ok entries) →
    (∃ t ∈ raw, t.secretHash = sha256Hex digest secret) →
      ∃ bearer t, presented (some (bearerHeader secret)) = some bearer ∧ bearer = secret ∧
        (raw.find? fun t => t.IsFor digest secret) = some t ∧
        TokenStore.find digest ⟨entries⟩ bearer = some t.stored

/-- What `HeaderValue::to_str` lets through. -/
def visible (c : Char) : Bool := (32 ≤ c.toNat && c.toNat < 127) || c == '\t'

/-- What a header can carry, and nobody trims: something, of visible characters, with no white space
at either end. -/
structure Sendable (secret : Chars) : Prop where
  nonempty : secret ≠ []
  visible : ∀ c ∈ secret, visible c = true
  first : ∀ c ∈ secret.head?, isWhitespace c = false
  last : ∀ c ∈ secret.getLast?, isWhitespace c = false

/-! ## The hash -/

/-- A byte as the decoder's pair of digits. -/
def hexPair (byte : UInt8) : Pair := (hexDigit (byte >>> 4).toNat, hexDigit (byte &&& 0x0F).toNat)

theorem hexEncode_eq_flat (bytes : Bytes) : hexEncode bytes = flat (bytes.map hexPair) := by
  unfold hexEncode flat
  rw [List.flatMap_map]
  rfl

theorem nibbles (byte : UInt8) :
    (byte >>> 4).toNat = byte.toNat / 16 ∧ (byte &&& 0x0F).toNat = byte.toNat % 16 := by
  constructor
  · rw [UInt8.toNat_shiftRight]
    exact Nat.shiftRight_eq_div_pow byte.toNat 4
  · rw [UInt8.toNat_and]
    exact Nat.and_two_pow_sub_one_eq_mod byte.toNat 4

theorem mem_hexEncode {bytes : Bytes} {c : Char} (h : c ∈ hexEncode bytes) :
    ∃ d < 16, c = hexDigit d := by
  obtain ⟨byte, -, hc⟩ := List.mem_flatMap.mp h
  obtain ⟨hhigh, hlow⟩ := nibbles byte
  have hlt := byte.toNat_lt
  rw [hhigh, hlow, List.mem_cons, List.mem_singleton] at hc
  rcases hc with hc | hc
  · exact ⟨_, by omega, hc⟩
  · exact ⟨_, by omega, hc⟩

theorem hexPair_spec (byte : UInt8) : Plain (hexPair byte) ∧ pairByte (hexPair byte) = byte := by
  have hlt := byte.toNat_lt
  obtain ⟨hhigh, hlow⟩ := nibbles byte
  have hfirst : toDigit 16 (hexPair byte).1 = some (byte.toNat / 16) := by
    show toDigit 16 (hexDigit (byte >>> 4).toNat) = _
    rw [hhigh]
    exact toDigit_hexDigit (by omega)
  have hsecond : toDigit 16 (hexPair byte).2 = some (byte.toNat % 16) := by
    show toDigit 16 (hexDigit (byte &&& 0x0F).toNat) = _
    rw [hlow]
    exact toDigit_hexDigit (by omega)
  refine ⟨⟨Option.isSome_of_eq_some hfirst, Option.isSome_of_eq_some hsecond⟩, ?_⟩
  unfold pairByte
  rw [numeral_pair, hfirst, hsecond, Option.getD_some, Option.getD_some, Nat.div_add_mod]
  exact UInt8.ofNat_toNat

/-- **The printed hash reads as the digest.** All of its pairs are plain ones, and there are 32. -/
theorem decode_sha256Hex (digest : String → Hash) (secret : String) :
    decodeSha256Hex (sha256Hex digest secret) = some (.ok (digest secret)) := by
  refine decode_ok_iff.mpr ⟨(digest secret).toList.map hexPair, ?_, ?_, ?_, ?_⟩
  · rw [List.length_map, Vector.length_toList]
  · simp [sha256Hex, hexEncode_eq_flat]
  · intro p hp
    obtain ⟨byte, -, rfl⟩ := List.mem_map.mp hp
    exact .inl (hexPair_spec byte).1
  · rw [List.map_map]
    refine (List.map_id'' fun byte => (hexPair_spec byte).2) _ |>.symm

/-! ## The header -/

theorem visible_iff {c : Char} :
    visible c = true ↔ 32 ≤ c.toNat ∧ c.toNat < 127 ∨ c.toNat = 9 := by
  have htab : c = '\t' ↔ c.toNat = 9 := by
    constructor
    · intro h
      rw [h]
      rfl
    · intro h
      exact char_eq_of_toNat h
  simp [visible, htab]

theorem all_utf8EncodeChar (c : Char) :
    ((String.utf8EncodeChar c).all fun b => (32 ≤ b && b < 127) || b == 9) = visible c ∧
      (visible c = true →
        (String.utf8EncodeChar c).map (fun b => Char.ofNat b.toNat) = [c]) := by
  rcases utf8EncodeChar_cases c with ⟨hascii, henc⟩ | ⟨hlarge, hall⟩
  · have hbyte : (UInt8.ofNat c.toNat).toNat = c.toNat := by
      rw [UInt8.toNat_ofNat']
      omega
    constructor
    · rw [henc, Bool.eq_iff_iff, visible_iff]
      simp [UInt8.le_iff_toNat_le, UInt8.lt_iff_toNat_lt, ← UInt8.toNat_inj, hbyte]
    · intro _
      rw [henc, List.map_singleton, hbyte, Char.ofNat_toNat]
  · have hnot : visible c ≠ true := by
      rw [Ne, visible_iff]
      omega
    refine ⟨?_, fun h => absurd h hnot⟩
    obtain ⟨b, hb⟩ : ∃ b, b ∈ String.utf8EncodeChar c := by
      refine List.exists_mem_of_ne_nil _ fun hnil => ?_
      have hsize := String.length_utf8EncodeChar c
      rw [hnil] at hsize
      exact absurd hsize.symm (Nat.ne_of_gt c.utf8Size_pos)
    have hb80 := (hall b hb).1
    rw [Bool.eq_false_iff.mpr hnot, List.all_eq_false]
    refine ⟨b, hb, ?_⟩
    simp [UInt8.le_iff_toNat_le, UInt8.lt_iff_toNat_lt, ← UInt8.toNat_inj]
    omega

/-- **A header is text exactly when** every character of it is visible, and then it is the text that
was sent. -/
theorem headerToStr_encode (s : Chars) :
    headerToStr (encode s) = if s.all visible then some s else none := by
  have hall : ((encode s).all fun b => (32 ≤ b && b < 127) || b == 9) = s.all visible := by
    unfold encode
    rw [List.all_flatMap]
    congr 1
    funext c
    exact (all_utf8EncodeChar c).1
  have hmap (h : s.all visible = true) : (encode s).map (fun b => Char.ofNat b.toNat) = s := by
    clear hall
    induction s with
    | nil => rfl
    | cons c s ih =>
      rw [List.all_cons, Bool.and_eq_true] at h
      rw [encode_cons, List.map_append, (all_utf8EncodeChar c).2 h.1, ih h.2,
        List.singleton_append]
  unfold headerToStr
  rw [hall]
  split
  · next hvisible => rw [hmap hvisible]
  · rfl

theorem bearerValue_bearer (s : Chars) :
    bearerValue ("Bearer ".toList ++ s) =
      if trim s = [] then none else some (String.ofList (trim s)) := by
  have hcut : splitOnce ' ' ("Bearer ".toList ++ s) = some ("Bearer".toList, s) :=
    splitOnce_append (a := "Bearer".toList) s (by simp)
  have hscheme : ¬ eqIgnoreAsciiCase "Bearer".toList "Bearer".toList = false := by decide
  simp only [bearerValue, hcut, if_neg hscheme]

/-- **What the daemon makes of the header** is the secret exactly when it is one to send: as a
header it is text, and trimming it changes nothing. -/
theorem presented_bearer_iff {secret : String} :
    presented (some (bearerHeader secret)) = some secret ↔ Sendable secret.toList := by
  have hheader : bearerHeader secret = encode ("Bearer ".toList ++ secret.toList) := by
    rw [bearerHeader, String.toList_append]
  have hprefix : "Bearer ".toList.all visible = true := rfl
  rw [hheader]
  show (headerToStr (encode ("Bearer ".toList ++ secret.toList))).bind bearerValue = some secret ↔ _
  rw [headerToStr_encode, List.all_append, hprefix, Bool.true_and]
  constructor
  · intro h
    have hvisible : secret.toList.all visible = true := by
      by_contra hnot
      rw [if_neg hnot] at h
      cases h
    rw [if_pos hvisible, Option.bind_some, bearerValue_bearer] at h
    have hne : trim secret.toList ≠ [] := by
      intro hnil
      rw [if_pos hnil] at h
      cases h
    rw [if_neg hne, Option.some_inj] at h
    have htrim : trim secret.toList = secret.toList := by
      have hchars := congrArg String.toList h
      rwa [String.toList_ofList] at hchars
    obtain ⟨hfirst, hlast⟩ := trim_eq_self_iff.mp htrim
    rw [htrim] at hne
    exact ⟨hne, List.all_eq_true.mp hvisible, hfirst, hlast⟩
  · intro h
    have htrim := trim_eq_self_iff.mpr ⟨h.first, h.last⟩
    rw [if_pos (List.all_eq_true.mpr h.visible), Option.bind_some, bearerValue_bearer, htrim,
      if_neg h.nonempty, String.ofList_toList]

/-! ## Which secrets can be used -/

theorem sendable_hexEncode {bytes : Bytes} (h : bytes ≠ []) : Sendable (hexEncode bytes) := by
  have hdigit (c : Char) (hc : c ∈ hexEncode bytes) :
      visible c = true ∧ isWhitespace c = false := by
    obtain ⟨d, hd, rfl⟩ := mem_hexEncode hc
    clear hc
    revert d
    decide
  constructor
  · intro hnil
    obtain ⟨byte, rest, rfl⟩ := List.exists_cons_of_ne_nil h
    cases hnil
  · intro c hc
    exact (hdigit c hc).1
  · intro c hc
    exact (hdigit c (List.mem_of_mem_head? hc)).2
  · intro c hc
    exact (hdigit c (List.mem_of_getLast? hc)).2

theorem sendable_of_random {urandom : (n : Nat) → Except String (Vector UInt8 n)} {byteLen : Nat}
    {secret : String} (h : randomSecret urandom byteLen = .ok secret) : Sendable secret.toList := by
  unfold randomSecret at h
  split at h
  · cases h
  · next hlen =>
    cases hread : urandom byteLen with
    | error e =>
      rw [hread] at h
      cases h
    | ok bytes =>
      rw [hread] at h
      cases h
      rw [String.toList_ofList]
      refine sendable_hexEncode fun hnil => ?_
      have hcount := bytes.length_toList
      rw [hnil, List.length_nil] at hcount
      omega

theorem usable_iff (digest : String → Hash) (secret : String) :
    Usable digest secret ↔ Sendable secret.toList := by
  rw [← presented_bearer_iff]
  constructor
  · intro husable
    let table : RawToken := ⟨none, [], sha256Hex digest secret⟩
    have hentries : entriesOf [table] = some (.ok [⟨⟨none, []⟩, digest secret⟩]) :=
      entriesOf_ok_iff.mpr (.cons ⟨rfl, decode_sha256Hex digest secret⟩ .nil)
    obtain ⟨bearer, t, hpresented, rfl, -⟩ :=
      husable [table] _ hentries ⟨table, List.mem_cons_self, rfl⟩
    exact hpresented
  · intro hpresented raw entries hentries htable
    obtain ⟨t, ht, hhash⟩ := htable
    have hfor : t.IsFor digest secret := by
      rw [RawToken.IsFor, hhash]
      exact decode_sha256Hex digest secret
    obtain ⟨u, hu⟩ : ∃ u, (raw.find? fun t => t.IsFor digest secret) = some u := by
      rw [← Option.isSome_iff_exists, List.find?_isSome]
      exact ⟨t, ht, decide_eq_true hfor⟩
    refine ⟨secret, u, hpresented, rfl, hu, ?_⟩
    rw [find_eq_find? hentries, hu]
    rfl

/-- **An issued secret can be used exactly when** it was made at random, or what was given can be
sent. Nothing is asked of the hash function. -/
theorem issued_usable_iff (digest : String → Hash)
    (urandom : (n : Nat) → Except String (Vector UInt8 n)) (args : GenerateTokenArgs)
    {secret : String} (h : args.issue urandom = .ok secret) :
    Usable digest secret ↔ ∀ given, args.secret = some given → Sendable given.toList := by
  rw [usable_iff]
  unfold GenerateTokenArgs.issue at h
  cases hgiven : args.secret with
  | some given =>
    rw [hgiven] at h
    cases h
    simp
  | none =>
    rw [hgiven] at h
    refine iff_of_true ?_ (by simp)
    exact sendable_of_random h

/-- A secret made of zero bytes, and a passphrase with a space in it. -/
theorem issued_usable_twice :
    let digest : String → Hash := fun _ => Vector.replicate 32 7
    Usable digest "00000000000000000000000000000000" ∧ Usable digest "correct horse" := by
  intro digest
  let urandom (n : Nat) : Except String (Vector UInt8 n) := .ok (Vector.replicate n 0)
  have hrandom : GenerateTokenArgs.issue { secretBytes := 16 } urandom =
      .ok "00000000000000000000000000000000" := by decide +kernel
  have hgiven : GenerateTokenArgs.issue { secret := some "correct horse" } urandom =
      .ok "correct horse" := rfl
  refine ⟨(issued_usable_iff digest urandom _ hrandom).mpr ?_,
    (issued_usable_iff digest urandom _ hgiven).mpr ?_⟩
  · intro given h
    cases h
  · intro given h
    cases h
    have hvisible : "correct horse".toList.all visible = true := rfl
    exact ⟨by simp, List.all_eq_true.mp hvisible, by simp [isWhitespace], by simp [isWhitespace]⟩

/-- **A secret from the command line is not looked at**: one with an umlaut is issued, its hash is
appended to the token file, and the header with it is no text. -/
theorem umlaut_unusable :
    ¬ ∀ (digest : String → Hash) (urandom : (n : Nat) → Except String (Vector UInt8 n))
        (args : GenerateTokenArgs) (secret : String),
        args.issue urandom = .ok secret → Usable digest secret := by
  intro h
  let urandom (n : Nat) : Except String (Vector UInt8 n) := .ok (Vector.replicate n 0)
  have husable := h (fun _ => Vector.replicate 32 7) urandom { secret := some "pässwort" }
    "pässwort" rfl
  have hvisible := ((usable_iff _ _).mp husable).visible 'ä' (by simp)
  have hnot : visible 'ä' = false := by decide
  rw [hnot] at hvisible
  cases hvisible

end Abora.Cli
