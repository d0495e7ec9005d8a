import Mathlib

/-!
# Byte strings: little-endian words and CRC-32C

Two building blocks of binary file formats.

* `putUint32` / `uint32` — the four-byte little-endian form of a word, and its
  reader.  The reader is total: a missing byte reads as zero, so that a caller
  who has checked the length never needs the bound in the term.
* `crc32c` — the Castagnoli checksum, one bit at a time.  Nothing below uses
  more of it than that it is a function of the bytes.
-/

namespace TechStack.Lib

/-- A byte string. -/
abbrev Bytes := List UInt8

/-- The four little-endian bytes of a word. -/
def putUint32 (n : ℕ) : Bytes :=
  [UInt8.ofNat n, UInt8.ofNat (n / 256), UInt8.ofNat (n / 65536),
    UInt8.ofNat (n / 16777216)]

/-- The word at the head of a byte string. -/
def uint32 (bytes : Bytes) : ℕ :=
  (bytes.getD 0 0).toNat + 256 * (bytes.getD 1 0).toNat +
    65536 * (bytes.getD 2 0).toNat + 16777216 * (bytes.getD 3 0).toNat

@[simp] lemma length_putUint32 (n : ℕ) : (putUint32 n).length = 4 := rfl

/-- The reader inverts the writer on every word that fits, whatever follows. -/
lemma uint32_putUint32_append {n : ℕ} (fits : n < 4294967296) (rest : Bytes) :
    uint32 (putUint32 n ++ rest) = n := by
  simp only [uint32, putUint32, List.cons_append, List.nil_append,
    List.getD_cons_zero, List.getD_cons_succ, UInt8.toNat_ofNat']
  omega

/-- One bit of the CRC-32C remainder. -/
def crc32cBit (remainder : ℕ) : ℕ :=
  if remainder % 2 = 1 then (remainder / 2) ^^^ 0x82F63B78 else remainder / 2

/-- One byte of the CRC-32C remainder. -/
def crc32cByte (remainder : ℕ) (byte : UInt8) : ℕ :=
  crc32cBit^[8] (remainder ^^^ byte.toNat)

/-- The CRC-32C remainder of a byte string. -/
def crc32cFrom : ℕ → Bytes → ℕ
  | remainder, [] => remainder
  -- The same in both cases; telling them apart makes the kernel evaluate the
  -- remainder at every byte and not only at the end.
  | 0, byte :: bytes => crc32cFrom (crc32cByte 0 byte) bytes
  | n + 1, byte :: bytes => crc32cFrom (crc32cByte (n + 1) byte) bytes

/-- CRC-32C (Castagnoli) of a byte string. -/
def crc32c (bytes : Bytes) : UInt32 :=
  UInt32.ofNat (crc32cFrom 0xFFFFFFFF bytes ^^^ 0xFFFFFFFF)

/-- The standard check value: the checksum of the ASCII digits `1` to `9`. -/
example : crc32c [0x31, 0x32, 0x33, 0x34, 0x35, 0x36, 0x37, 0x38, 0x39] = 0xE3069283 := by
  decide +kernel

end TechStack.Lib
