import FormulaInk.Image.Encoded
import FormulaInk.Image.Octet

/-!
Files whose chunks hold the rows of a picture without loss.

The rows are written as they are, in stored blocks.
-/

namespace FormulaInk.Png

/-- The bytes that every file starts with. -/
def signature : ByteArray := ⟨#[0x89, 0x50, 0x4e, 0x47, 0x0d, 0x0a, 0x1a, 0x0a]⟩

/-- A chunk: the size of its body, its name, the body, and the checksum of both. -/
def chunk (name : String) (body : ByteArray) : ByteArray :=
  let content := name.toUTF8 ++ body
  Octet.big32 body.size ++ content ++ Octet.big32 (Octet.cyclicSum content).toNat

/-- The most bytes of a stored block. -/
def blockSize : Nat := 65535

/-- A stored block: whether it is the last, its size, the size with all bits inverted, its bytes. -/
def stored (last : Bool) (data : ByteArray) : ByteArray :=
  ByteArray.empty.push (if last then 1 else 0) ++ Octet.little16 data.size ++
    Octet.little16 (blockSize - data.size) ++ data

/-- The bytes as stored blocks behind a header, with their running sum at the end. -/
def storedAll (data : ByteArray) : ByteArray :=
  let full := (data.size - 1) / blockSize
  let blocks := full.fold (fun i _ out =>
    out ++ stored false (data.extract (i * blockSize) ((i + 1) * blockSize)))
    (⟨#[0x78, 0x01]⟩ : ByteArray)
  blocks ++ stored true (data.extract (full * blockSize) data.size) ++
    Octet.big32 (Octet.runningSum data).toNat

/-- The rows of a picture, each behind a byte that says that it is not filtered. -/
def rows (b : Bitmap) (hasAlpha : Bool) : ByteArray :=
  let width := b.width.toNat
  b.height.toNat.fold (fun y _ out =>
    if hasAlpha then out.push 0 ++ b.data.extract (4 * width * y) (4 * width * (y + 1))
    else
      width.fold (fun x _ out =>
        let i := 4 * (width * y + x)
        ((out.push (b.data.get! i)).push (b.data.get! (i + 1))).push (b.data.get! (i + 2)))
        (out.push 0))
    .empty

/-- The file of a picture. -/
def file (b : Bitmap) (hasAlpha : Bool) : ByteArray :=
  signature ++
    chunk "IHDR" (Octet.big32 b.width.toNat ++ Octet.big32 b.height.toNat ++
      ⟨#[8, if hasAlpha then 6 else 2, 0, 0, 0]⟩) ++
    chunk "IDAT" (storedAll (rows b hasAlpha)) ++
    chunk "IEND" .empty

end FormulaInk.Png
