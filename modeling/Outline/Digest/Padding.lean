/-!
# Padding and printing of digests

Both digests of this library cut a message into blocks of 64 bytes.  The message is followed by
a bit, by zeros up to eight bytes before the end of a block, and by its length in bits.

* `Digest.padded`: the message filled up to whole blocks.
* `Digest.blockWord`: a word of a block, its bytes in either order.
* `Digest.hex`: bytes as digits.
-/

namespace Outline.Digest

/-- The order of the bytes of a number. -/
inductive ByteOrder where
  | lowFirst
  | highFirst
  deriving DecidableEq, Repr

/-- The lowest `n` bytes of a number. -/
def bytesOf (order : ByteOrder) (n value : Nat) : Array UInt8 :=
  let low := (Array.range n).map fun i => (value / Nat.pow 256 i % 256).toUInt8
  match order with
  | .lowFirst => low
  | .highFirst => low.reverse

/-- The message, a set bit, zeros and the length in bits. -/
def padded (order : ByteOrder) (message : Array UInt8) : Array UInt8 :=
  let zeros := (119 - message.size % 64) % 64
  message.push 0x80 ++ Array.replicate zeros 0 ++ bytesOf order 8 (message.size * 8)

/-- The number of blocks of a padded message. -/
def blockCount (bytes : Array UInt8) : Nat := bytes.size / 64

/-- The four bytes from `index` on, as a word. -/
def wordAt (order : ByteOrder) (bytes : Array UInt8) (index : Nat) : UInt32 :=
  let b (i : Nat) : UInt32 := (bytes.getD (index + i) 0).toUInt32
  match order with
  | .lowFirst => b 0 ||| b 1 <<< 8 ||| b 2 <<< 16 ||| b 3 <<< 24
  | .highFirst => b 0 <<< 24 ||| b 1 <<< 16 ||| b 2 <<< 8 ||| b 3

/-- The sixteen words of a block. -/
def blockWords (order : ByteOrder) (bytes : Array UInt8) (block : Nat) : Array UInt32 :=
  (Array.range 16).map fun i => wordAt order bytes (64 * block + 4 * i)

/-- The bits moved to the left, those that fall out coming in on the right. -/
def rotateLeft (x : UInt32) (n : UInt32) : UInt32 := x <<< n ||| x >>> (32 - n)

/-- The bits moved to the right, those that fall out coming in on the left. -/
def rotateRight (x : UInt32) (n : UInt32) : UInt32 := x >>> n ||| x <<< (32 - n)

/-- A digit of the base sixteen. -/
def hexDigit (n : Nat) : Char := Nat.digitChar n

/-- A word as eight digits. -/
def hexWord (order : ByteOrder) (x : UInt32) : List Char :=
  (bytesOf order 4 x.toNat).toList.flatMap fun b =>
    [hexDigit (b.toNat / 16), hexDigit (b.toNat % 16)]

/-- Words as digits. -/
def hex (order : ByteOrder) (words : List UInt32) : String :=
  String.ofList (words.flatMap (hexWord order))

end Outline.Digest
