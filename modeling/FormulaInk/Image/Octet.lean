/-!
Numbers as the bytes of picture files, and the checksums over such bytes.
-/

namespace FormulaInk.Octet

/-- A word of 16 bits, its high byte first. -/
def big16 (n : Nat) : ByteArray := ⟨#[UInt8.ofNat (n / 256), UInt8.ofNat n]⟩

/-- A word of 16 bits, its low byte first. -/
def little16 (n : Nat) : ByteArray := ⟨#[UInt8.ofNat n, UInt8.ofNat (n / 256)]⟩

/-- A word of 32 bits, its high byte first. -/
def big32 (n : Nat) : ByteArray := big16 (n / 65536) ++ big16 n

/-- One bit of the division by the polynomial of the cyclic checksum, whose coefficients stand in
reverse order. -/
def cyclicBit (c : UInt32) : UInt32 :=
  if c &&& 1 = 1 then (c >>> 1) ^^^ 0xedb88320 else c >>> 1

/-- The remainders of all bytes. -/
def cyclicTable : Array UInt32 :=
  Array.ofFn fun i : Fin 256 => (8).fold (fun _ _ c => cyclicBit c) (UInt32.ofNat i)

/-- The remainder after one more byte. -/
def cyclicByte (c : UInt32) (byte : UInt8) : UInt32 :=
  cyclicTable[((c ^^^ byte.toUInt32) &&& 0xff).toNat]?.getD 0 ^^^ (c >>> 8)

/-- The cyclic checksum: the remainder of the bytes, with all bits inverted before and after. -/
def cyclicSum (data : ByteArray) : UInt32 :=
  data.foldl cyclicByte 0xffffffff ^^^ 0xffffffff

/-- The prime that the running sums are taken by. -/
def sumModulus : UInt32 := 65521

/-- The sum of the bytes and the sum of those sums, the second one in the high half. -/
def runningSum (data : ByteArray) : UInt32 :=
  let (a, b) := data.foldl (fun ((a, b) : UInt32 × UInt32) byte =>
    let a := (a + byte.toUInt32) % sumModulus
    (a, (b + a) % sumModulus)) (1, 0)
  (b <<< 16) ||| a

end FormulaInk.Octet
