import Mathlib.Data.Nat.Bitwise

/-!
# Data.LengthFrame — a payload behind its length, as four bytes in big-endian order

`frame` puts four bytes in front of a payload; `uint32` reads four bytes as the reader of a frame does,
by shifting and or-ing. A length that fits in 32 bits is read back (`uint32_putUint32`).
-/

namespace TailscaleDart.LengthFrame

abbrev Bytes := List UInt8

/-- The four bytes of a number, the most significant first. Larger numbers wrap. -/
def putUint32 (n : Nat) : Bytes :=
  [UInt8.ofNat (n >>> 24), UInt8.ofNat (n >>> 16), UInt8.ofNat (n >>> 8), UInt8.ofNat n]

/-- The number of four bytes. -/
def uint32 (a b c d : UInt8) : Nat := (a.toNat <<< 24) ||| (b.toNat <<< 16) ||| (c.toNat <<< 8) ||| d.toNat

def frame (payload : Bytes) : Bytes := putUint32 payload.length ++ payload

@[simp] theorem length_putUint32 (n : Nat) : (putUint32 n).length = 4 := rfl

theorem length_frame (payload : Bytes) : (frame payload).length = 4 + payload.length := by
  simp [frame]

theorem frame_ne_nil (payload : Bytes) : frame payload ≠ [] := by simp [frame, putUint32]

theorem uint32_eq (a b c d : UInt8) :
    uint32 a b c d = a.toNat * 2 ^ 24 + b.toNat * 2 ^ 16 + c.toNat * 2 ^ 8 + d.toNat := by
  have ha := a.toNat_lt
  have hb := b.toNat_lt
  have hc := c.toNat_lt
  have hd := d.toNat_lt
  have hlow : (c.toNat <<< 8) ||| d.toNat = c.toNat * 2 ^ 8 + d.toNat := by
    rw [← Nat.shiftLeft_add_eq_or_of_lt hd, Nat.shiftLeft_eq]
  have hmid : (b.toNat <<< 16) ||| (c.toNat * 2 ^ 8 + d.toNat) = b.toNat * 2 ^ 16 + (c.toNat * 2 ^ 8 + d.toNat) := by
    rw [← Nat.shiftLeft_add_eq_or_of_lt (by omega), Nat.shiftLeft_eq]
  have hall : (a.toNat <<< 24) ||| (b.toNat * 2 ^ 16 + (c.toNat * 2 ^ 8 + d.toNat)) =
      a.toNat * 2 ^ 24 + (b.toNat * 2 ^ 16 + (c.toNat * 2 ^ 8 + d.toNat)) := by
    rw [← Nat.shiftLeft_add_eq_or_of_lt (by omega), Nat.shiftLeft_eq]
  unfold uint32
  rw [Nat.or_assoc, Nat.or_assoc, hlow, hmid, hall]
  omega

theorem uint32_putUint32 {n : Nat} (h : n < 2 ^ 32) :
    uint32 (UInt8.ofNat (n >>> 24)) (UInt8.ofNat (n >>> 16)) (UInt8.ofNat (n >>> 8)) (UInt8.ofNat n) = n := by
  rw [uint32_eq]
  simp only [UInt8.toNat_ofNat', Nat.shiftRight_eq_div_pow]
  omega

end TailscaleDart.LengthFrame
