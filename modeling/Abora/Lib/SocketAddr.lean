import Abora.Lib.Reader

/-!
# Socket addresses

`SocketAddr::from_str`: `a.b.c.d:port`, or `[v6]:port` with an optional scope. An octet has no
superfluous zero; an IPv6 address is up to eight groups, of which one run may be written `::` and
the last two as an IPv4 address. The functions are those of the standard library, each under its own
name, and they read in its order: a dotted address is tried first, and a bracketed one where that
did not read.

Whatever is accepted is written in hexadecimal digits and five punctuation marks
(`mem_addressText`), so it holds no slash, no space and no scheme. That is what it takes to know
that an address put behind `http://` is the whole authority of that URL.
-/

namespace Abora.Lib

open Text

/-- An IPv6 address is its eight groups. -/
inductive SocketAddr where
  | v4 (a b c d port : Nat)
  | v6 (groups : List Nat) (port scopeId : Nat)
  deriving DecidableEq, Repr

namespace Reader

/-- `read_ipv4_addr`. -/
def ipv4 : Reader (Nat × Nat × Nat × Nat) := do
  let octet := number 8 10 (some 3) false
  let a ← separator '.' true octet
  let b ← separator '.' false octet
  let c ← separator '.' false octet
  let d ← separator '.' false octet
  pure (a, b, c, d)

/-- An embedded IPv4 address, which needs two of the `n` slots that are left. -/
def embeddedIpv4 (n : Nat) (first : Bool) : Reader (Option (Nat × Nat × Nat × Nat)) :=
  if 1 < n then optional (separator ':' first ipv4) else pure none

/-- `read_groups`, with `n` slots left: the groups, and whether an IPv4 address ended them. -/
def groups : Nat → Bool → Reader (List Nat × Bool)
  | 0, _ => pure ([], false)
  | n + 1, first => do
    match ← embeddedIpv4 (n + 1) first with
    | some (a, b, c, d) => pure ([256 * a + b, 256 * c + d], true)
    | none =>
      match ← optional (separator ':' first (number 16 16 (some 4) true)) with
      | none => pure ([], false)
      | some g => do
        let more ← groups n false
        pure (g :: more.1, more.2)

/-- `read_ipv6_addr`. -/
def ipv6 : Reader (List Nat) := do
  let head ← groups 8 true
  if head.1.length = 8 then pure head.1
  else if head.2 then fun _ => none
  else do
    char ':'
    char ':'
    -- `::` stands for at least one group
    let tail ← groups (7 - head.1.length) true
    pure (head.1 ++ List.replicate (8 - head.1.length - tail.1.length) 0 ++ tail.1)

def port : Reader Nat := do
  char ':'
  number 16 10 none true

def scopeId : Reader Nat := do
  char '%'
  number 32 10 none true

def socketAddrV4 : Reader SocketAddr := do
  let (a, b, c, d) ← ipv4
  let port ← port
  pure (.v4 a b c d port)

def socketAddrV6 : Reader SocketAddr := do
  char '['
  let groups ← ipv6
  let scope ← optional scopeId
  char ']'
  let port ← port
  pure (.v6 groups port (scope.getD 0))

def socketAddr : Reader SocketAddr := orElse socketAddrV4 socketAddrV6

end Reader

/-- `SocketAddr::from_str`. -/
def parseSocketAddr (s : String) : Option SocketAddr := Reader.socketAddr.parse s.toList

example : parseSocketAddr "127.0.0.1:7360" = some (.v4 127 0 0 1 7360) := rfl

example : parseSocketAddr "[::10.0.0.1]:80" = some (.v6 [0, 0, 0, 0, 0, 0, 2560, 1] 80 0) := by
  decide +kernel

/-! ## What an address is written in -/

/-- A hexadecimal digit or one of `. : % [ ]`. -/
def AddressChar (c : Char) : Prop := isDigitIn 16 c = true ∨ c ∈ ['.', ':', '%', '[', ']']

namespace Reader

theorem isDigitIn_mono {r t : Nat} (h : r ≤ t) {c : Char} (hc : isDigitIn r c = true) :
    isDigitIn t c = true := by
  obtain ⟨d, hd⟩ := Option.isSome_iff_exists.mp hc
  unfold toDigit at hd
  rw [Option.filter_eq_some_iff] at hd
  refine Option.isSome_iff_exists.mpr ⟨d, ?_⟩
  unfold toDigit
  rw [Option.filter_eq_some_iff]
  exact ⟨hd.1, decide_eq_true (Nat.lt_of_lt_of_le (of_decide_eq_true hd.2) h)⟩

theorem takes_digits {bits radix : Nat} (h : radix ≤ 16) (maxDigits : Option Nat)
    (allowZeroPrefix : Bool) : Takes AddressChar (number bits radix maxDigits allowZeroPrefix) :=
  takes_number fun _ hc => .inl (isDigitIn_mono h hc)

theorem takes_mark {c : Char} (h : c ∈ ['.', ':', '%', '[', ']']) :
    Takes AddressChar (char c) := takes_char (.inr h)

theorem takes_ipv4 : Takes AddressChar ipv4 := by
  have hsep : AddressChar '.' := .inr (by simp)
  have hoctet : Takes AddressChar (number 8 10 (some 3) false) := takes_digits (by decide) _ _
  exact takes_bind (takes_separator hsep hoctet) fun _ =>
    takes_bind (takes_separator hsep hoctet) fun _ =>
    takes_bind (takes_separator hsep hoctet) fun _ =>
    takes_bind (takes_separator hsep hoctet) fun _ => takes_pure _

theorem takes_embeddedIpv4 (n : Nat) (first : Bool) :
    Takes AddressChar (embeddedIpv4 n first) := by
  unfold embeddedIpv4
  split
  · exact takes_optional (takes_separator (.inr (by simp)) takes_ipv4)
  · exact takes_pure _

theorem takes_groups (n : Nat) (first : Bool) : Takes AddressChar (groups n first) := by
  have hsep : AddressChar ':' := .inr (by simp)
  induction n generalizing first with
  | zero => exact takes_pure _
  | succ n ih =>
    refine takes_bind (takes_embeddedIpv4 (n + 1) first) fun embedded => ?_
    cases embedded with
    | some octets => exact takes_pure _
    | none =>
      have hgroup : Takes AddressChar (number 16 16 (some 4) true) :=
        takes_digits (Nat.le_refl 16) _ _
      refine takes_bind (takes_optional (takes_separator hsep hgroup)) fun group => ?_
      cases group with
      | none => exact takes_pure _
      | some g => exact takes_bind (ih false) fun _ => takes_pure _

theorem takes_ipv6 : Takes AddressChar ipv6 := by
  refine takes_bind (takes_groups 8 true) fun head => ?_
  split
  · exact takes_pure _
  split
  · intro s a rest h
    cases h
  · exact takes_bind (takes_mark (by simp)) fun _ => takes_bind (takes_mark (by simp)) fun _ =>
      takes_bind (takes_groups _ true) fun _ => takes_pure _

theorem takes_port : Takes AddressChar port :=
  takes_bind (takes_mark (by simp)) fun _ => takes_digits (by decide) _ _

theorem takes_scopeId : Takes AddressChar scopeId :=
  takes_bind (takes_mark (by simp)) fun _ => takes_digits (by decide) _ _

theorem takes_socketAddr : Takes AddressChar socketAddr := by
  refine takes_orElse ?_ ?_
  · exact takes_bind takes_ipv4 fun _ => takes_bind takes_port fun _ => takes_pure _
  · exact takes_bind (takes_mark (by simp)) fun _ => takes_bind takes_ipv6 fun _ =>
      takes_bind (takes_optional takes_scopeId) fun _ => takes_bind (takes_mark (by simp)) fun _ =>
      takes_bind takes_port fun _ => takes_pure _

end Reader

/-- **What an accepted address is written in**: hexadecimal digits and five marks, whatever its
version. -/
theorem mem_addressText {s : String} {addr : SocketAddr} (h : parseSocketAddr s = some addr) :
    ∀ c ∈ s.toList, AddressChar c :=
  Reader.takes_socketAddr.parse h

end Abora.Lib
