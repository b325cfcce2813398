import Mathlib.Logic.Equiv.List
import Mathlib.Tactic.DeriveEncodable
import Abora.Lib.Files

/-!
# Serializers

The one thing assumed of a serializer is that it reads back what it wrote. `Codec α` packages that,
so a result about files that are written and read again takes a `Codec` and nothing else: it does
not depend on the text, on which other texts are accepted, or on how two values are told apart.

Such a thing exists for every countable type (`Codec.ofEncodable`), so no result of this kind is
empty. It may also be asked to write one chosen value as one chosen text (`Codec.pin`), which is how
a result is tried out on the text that a real serializer produces. Pins are chained, as long as the
next text is new (`Codec.pin_ne`).
-/

namespace Abora.Lib

/-- A serializer for one type. Nothing is said about which other byte strings it accepts, so a
damaged file may be read as anything or as nothing. -/
structure Codec (α : Type) where
  encode : α → Bytes
  decode : Bytes → Option α
  decode_encode : ∀ a, decode (encode a) = some a

attribute [simp] Codec.decode_encode

/-- A value is written as its number, in unary. No program does this; it is what shows that a
`Codec` can be had for a type, and what a pinned text is laid over. -/
def Codec.ofEncodable (α : Type) [Encodable α] : Codec α where
  encode a := List.replicate (Encodable.encode a) 0
  decode bytes := Encodable.decode bytes.length
  decode_encode a := by rw [List.length_replicate, Encodable.encodek]

theorem Codec.ofEncodable_ne {α : Type} [Encodable α] {b : UInt8} {bytes : Bytes} (hb : b ≠ 0)
    (a : α) : (Codec.ofEncodable α).encode a ≠ b :: bytes := by
  intro h
  have hmem : b ∈ (Codec.ofEncodable α).encode a := by
    rw [h]
    exact List.mem_cons_self
  exact hb (List.eq_of_mem_replicate hmem)

/-- The same serializer, except that `a` is written as `text`. The text must not be one that is
written already: it would then have to be read as two values. -/
def Codec.pin {α : Type} [DecidableEq α] (c : Codec α) (a : α) (text : Bytes)
    (h : ∀ b, c.encode b ≠ text) : Codec α where
  encode b := if b = a then text else c.encode b
  decode t := if t = text then some a else c.decode t
  decode_encode b := by
    by_cases hb : b = a
    · simp [hb]
    · simp [hb, h b]

@[simp] theorem Codec.pin_encode_self {α : Type} [DecidableEq α] (c : Codec α) (a : α)
    (text : Bytes) (h : ∀ b, c.encode b ≠ text) : (c.pin a text h).encode a = text := if_pos rfl

/-- Pins are chained: a text that neither the serializer nor its pin writes may be pinned next. -/
theorem Codec.pin_ne {α : Type} [DecidableEq α] {c : Codec α} {a : α} {text other : Bytes}
    {h : ∀ b, c.encode b ≠ text} (hother : ∀ b, c.encode b ≠ other) (hne : text ≠ other) (b : α) :
    (c.pin a text h).encode b ≠ other := by
  by_cases hb : b = a
  · rw [hb, Codec.pin_encode_self]
    exact hne
  · have hrest : (c.pin a text h).encode b = c.encode b := if_neg hb
    rw [hrest]
    exact hother b

instance encodableChar : Encodable Char :=
  Encodable.ofLeftInjection Char.toNat (fun n => some (Char.ofNat n)) (by simp)

instance encodableString : Encodable String :=
  Encodable.ofLeftInjection String.toList (fun l => some (String.ofList l)) (by simp)

end Abora.Lib
