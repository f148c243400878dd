/-!
# Digests

A 64-bit digest of a byte sequence, and the bytes of the values that go into one: words as eight
bytes, least significant first, and texts as their length followed by their UTF-8 bytes.  The
digest of fixed bytes never changes, so two runs can be compared by it.

* `Digest.absorb` — one byte: exclusive or, then multiplication by `prime`, modulo 2^64 (FNV-1a).
* `Digest.ofBytes` — the digest of a byte sequence, from `offset` on.
* `wordBytes`, `textBytes` — the bytes of a word and of a text.
* `Digest.hex` — sixteen lower-case hexadecimal digits.
-/

set_option autoImplicit false

namespace StallSim

namespace Digest

/-- The digest of no bytes. -/
def offset : UInt64 := 0xcbf29ce484222325

/-- The multiplier of a step; it is odd, so no step forgets a difference. -/
def prime : UInt64 := 0x100000001b3

/-- The digest after one more byte. -/
def absorb (digest : UInt64) (byte : UInt8) : UInt64 := (digest ^^^ byte.toUInt64) * prime

/-- The digest after more bytes. -/
def absorbAll (digest : UInt64) (bytes : List UInt8) : UInt64 := bytes.foldl absorb digest

/-- The digest of a byte sequence. -/
def ofBytes (bytes : List UInt8) : UInt64 := absorbAll offset bytes

theorem absorbAll_append (digest : UInt64) (xs ys : List UInt8) :
    absorbAll digest (xs ++ ys) = absorbAll (absorbAll digest xs) ys :=
  List.foldl_append

/-- The last `count` hexadecimal digits of a number. -/
def hexDigits : Nat → Nat → List Char
  | 0, _ => []
  | count + 1, n => hexDigits count (n / 16) ++ [Nat.digitChar (n % 16)]

/-- A digest as sixteen lower-case hexadecimal digits. -/
def hex (digest : UInt64) : String := String.ofList (hexDigits 16 digest.toNat)

end Digest

/-- The last `count` bytes of a number, least significant first. -/
def lowBytes : Nat → Nat → List UInt8
  | 0, _ => []
  | count + 1, n => UInt8.ofNat n :: lowBytes count (n / 256)

/-- The eight bytes of a word, least significant first. -/
def wordBytes (n : Nat) : List UInt8 := lowBytes 8 n

/-- The UTF-8 bytes of a text. -/
def utf8Bytes (s : String) : List UInt8 := s.toByteArray.data.toList

/-- The bytes of a text: how many there are, then they themselves. -/
def textBytes (s : String) : List UInt8 := wordBytes (utf8Bytes s).length ++ utf8Bytes s

theorem length_lowBytes (count n : Nat) : (lowBytes count n).length = count := by
  induction count generalizing n with
  | zero => rfl
  | succ count ih => rw [lowBytes, List.length_cons, ih]

theorem length_wordBytes (n : Nat) : (wordBytes n).length = 8 := length_lowBytes 8 n

/-- A text is determined by its bytes. -/
theorem utf8Bytes_inj {s t : String} : utf8Bytes s = utf8Bytes t ↔ s = t := by
  constructor
  · intro h
    exact String.toByteArray_inj.1 (ByteArray.ext (Array.ext' h))
  · rintro rfl
    rfl

end StallSim
