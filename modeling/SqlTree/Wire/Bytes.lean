/-!
# Wire — numbers as bytes

Numbers are written with their most significant byte first, negative ones in two's complement.
-/

namespace SqlTree.Wire

abbrev Bytes := List UInt8

/-- The lowest `width` bytes of a natural number. -/
def natBytes : Nat → Nat → Bytes
  | 0, _ => []
  | width + 1, n => UInt8.ofNat (n >>> (8 * width)) :: natBytes width n

/-- An integer in `width` bytes. -/
def intBytes (width : Nat) (i : Int) : Bytes := natBytes width (i % (1 <<< (8 * width) : Nat)).toNat

/-- The natural number of bytes. -/
def natOfBytes (bs : Bytes) : Nat := bs.foldl (fun n b => n * 256 + b.toNat) 0

/-- The integer of bytes. -/
def intOfBytes (bs : Bytes) : Int :=
  let n := natOfBytes bs
  let size := 1 <<< (8 * bs.length)
  if 2 * n < size then n else (n : Int) - size

/-- The integer of exactly `width` bytes. -/
def readInt (width : Nat) (bs : Bytes) : Option Int :=
  if bs.length = width then some (intOfBytes bs) else none

/-- The natural number of exactly `width` bytes. -/
def readNat (width : Nat) (bs : Bytes) : Option Nat :=
  if bs.length = width then some (natOfBytes bs) else none

/-- The bytes of a text in UTF-8. -/
def textBytes (s : String) : Bytes := s.toUTF8.toList

/-- The text of bytes, if they are UTF-8. -/
def readText (bs : Bytes) : Option String := String.fromUTF8? ⟨bs.toArray⟩

end SqlTree.Wire
