import FormulaInk.Image.Bitmap

/-!
Bitmaps as picture files hold them.

A file is known by what a reader of its format gets from it: the size, whether there is an alpha
channel, and the pixels. The colors of a file that loses detail are those before the loss.
-/

namespace FormulaInk

/-- What a picture file holds. -/
structure Encoded where
  format : ImageFormat
  hasAlpha : Bool
  bitmap : Bitmap

namespace Encoded

/-- The bytes with full alpha in every pixel. -/
def opaqueAll (data : ByteArray) : ByteArray :=
  (data.size / 4).fold (fun i _ data => data.set! (4 * i + 3) 255) data

/-- The bytes as a format with one transparent color keeps them: all transparent pixels have the
color of the first one, and all others are opaque. -/
def oneTransparent (data : ByteArray) : ByteArray :=
  ((data.size / 4).fold (fun i _ (seen : Option (UInt8 × UInt8 × UInt8) × ByteArray) =>
      let (first, data) := seen
      if data.get! (4 * i + 3) ≠ 0 then (first, data.set! (4 * i + 3) 255)
      else
        match first with
        | none =>
          (some (data.get! (4 * i), data.get! (4 * i + 1), data.get! (4 * i + 2)), data)
        | some (r, g, b) =>
          (first, ((data.set! (4 * i) r).set! (4 * i + 1) g).set! (4 * i + 2) b))
    (none, data)).2

/-- The longest side of a picture in formats whose sizes are words of 16 bits. -/
def longestSide : Nat := 65535

/-- What a file in the format holds of a bitmap. Without `transparent`, or in a format that cannot
be transparent, the alpha channel is dropped. -/
def ofBitmap (b : Bitmap) (format : ImageFormat) (transparent : Bool) : Except EncodeFault Encoded :=
  let hasAlpha := transparent && format.keepsAlpha
  let isShort := decide (b.width.toNat ≤ longestSide ∧ b.height.toNat ≤ longestSide)
  match format with
  | .png =>
    if b.width = 0 then .error .zeroWidth
    else if b.height = 0 then .error .zeroHeight
    else .ok ⟨format, hasAlpha, if hasAlpha then b else { b with data := opaqueAll b.data }⟩
  | .gif =>
    if !isShort then .error (.dimensions format)
    else
      .ok ⟨format, hasAlpha,
        { b with data := if hasAlpha then oneTransparent b.data else opaqueAll b.data }⟩
  | .jpeg =>
    if !isShort then .error (.dimensions format)
    else .ok ⟨format, hasAlpha, { b with data := opaqueAll b.data }⟩

end Encoded

end FormulaInk
