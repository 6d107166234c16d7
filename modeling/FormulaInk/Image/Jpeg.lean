import FormulaInk.Image.Encoded
import FormulaInk.Image.Octet

/-!
Files that hold a picture as rounded waves in squares of eight by eight pixels.

Brightness and the two color differences are sampled alike. Codes have one length each: four bits
for the first wave of a square, eight for the others.
-/

namespace FormulaInk.Jpeg

/-- The side of a square. -/
def side : Nat := 8

/-- The places of a square by rising frequency, along its diagonals in turn upwards and downwards. -/
def places : List Nat :=
  (List.range (2 * side - 1)).flatMap fun d =>
    let diagonal := (List.range side).filterMap fun y =>
      if y ≤ d ∧ d - y < side then some (side * y + (d - y)) else none
    if d % 2 = 0 then diagonal.reverse else diagonal

/-- The step that the wave of a place is rounded to. Higher waves are rounded more. -/
def step (place : Nat) : Nat := 3 + 2 * (place % side + place / side)

/-- The waves, eight samples each, whose squares have the sum one. -/
def waves : FloatArray :=
  (side * side).fold (fun i _ out =>
    let u := (i / side).toFloat
    let x := (i % side).toFloat
    out.push <|
      if i / side = 0 then Float.sqrt 0.125
      else 0.5 * Float.cos ((2 * x + 1) * u * 3.141592653589793 / 16))
    .empty

/-- What is sampled of a color. -/
inductive Channel where
  | brightness
  | blueness
  | redness

/-- The sample of a color, zero being the middle. -/
def Channel.sample (c : Channel) (r g b : Float) : Float :=
  match c with
  | brightness => 0.299 * r + 0.587 * g + 0.114 * b - 128
  | blueness => 0.5 * b - 0.168736 * r - 0.331264 * g
  | redness => 0.5 * r - 0.418688 * g - 0.081312 * b

/-- The samples of the square whose upper left pixel is given. Beyond the edges the last pixel is
repeated. -/
def samples (b : Bitmap) (c : Channel) (left top : Nat) : FloatArray :=
  (side * side).fold (fun i _ out =>
    let x := min (left + i % side) (b.width.toNat - 1)
    let y := min (top + i / side) (b.height.toNat - 1)
    let at4 := 4 * (b.width.toNat * y + x)
    let byte (n : Nat) := (b.data.get! (at4 + n)).toNat.toFloat
    out.push (c.sample (byte 0) (byte 1) (byte 2))) .empty

/-- The strength of each wave in each column, one row for each wave. -/
def strengths (square : FloatArray) : FloatArray :=
  (side * side).fold (fun i _ out =>
    out.push (side.fold (fun k _ sum =>
      sum + waves.get! (side * (i / side) + k) * square.get! (side * k + i % side)) 0)) .empty

/-- The square with its rows as columns. -/
def transposed (square : FloatArray) : FloatArray :=
  (side * side).fold (fun i _ out => out.push (square.get! (side * (i % side) + i / side))) .empty

/-- The rounded strengths of the waves by rising frequency. -/
def levels (square : FloatArray) : List Int :=
  let waves := transposed (strengths (transposed (strengths square)))
  places.map fun place => (waves.get! place / (step place).toFloat).round.toInt64.toInt

/-- Bits that do not fill a byte, and the bytes before them. The first bit is the highest. -/
structure Packing where
  bytes : ByteArray := .empty
  count : Nat := 0
  bits : Nat := 0

namespace Packing

/-- The bytes with one more. A byte that starts a marker is followed by zero. -/
def pushByte (bytes : ByteArray) (byte : UInt8) : ByteArray :=
  if byte = 255 then (bytes.push byte).push 0 else bytes.push byte

/-- The packing with the lowest bits of a number. -/
def push (p : Packing) (length number : Nat) : Packing :=
  let bits := p.bits <<< length ||| number
  let count := p.count + length
  let bytes := (count / 8).fold (fun i _ out =>
    pushByte out (UInt8.ofNat (bits >>> (count - 8 * (i + 1))))) p.bytes
  ⟨bytes, count % 8, bits % Nat.pow 2 (count % 8)⟩

/-- The bytes, the last one filled up with ones. -/
def flush (p : Packing) : ByteArray :=
  if p.count = 0 then p.bytes else (p.push (8 - p.count) (Nat.pow 2 (8 - p.count) - 1)).bytes

/-- How many bits a level takes. -/
def width (level : Int) : Nat := if level = 0 then 0 else level.natAbs.log2 + 1

/-- The packing with the bits of a level. Negative levels count up from zero. -/
def pushLevel (p : Packing) (level : Int) : Packing :=
  p.push (width level)
    (if 0 ≤ level then level else level + Nat.pow 2 (width level) - 1).toNat

/-- The code of a level behind a run of at most 15 zeros. -/
def code (run width : Nat) : Nat := 10 * run + width

/-- The code of sixteen zeros. -/
def zerosCode : Nat := 161

/-- The packing with levels other than the first, behind a run of zeros. -/
def pushRest (p : Packing) (run : Nat) : List Int → Packing
  | [] => if run = 0 then p else p.push 8 0
  | level :: levels =>
    if level = 0 then pushRest p (run + 1) levels
    else
      let p := (run / 16).fold (fun _ _ (p : Packing) => p.push 8 zerosCode) p
      pushRest ((p.push 8 (code (run % 16) (width level))).pushLevel level) 0 levels

/-- The packing with the levels of a square. The first one is told by its difference to that of the
square before. -/
def pushSquare (p : Packing) (last : Int) : List Int → Packing
  | [] => p
  | level :: levels =>
    ((p.push 4 (width (level - last))).pushLevel (level - last)).pushRest 0 levels

end Packing

/-- The squares of a picture row by row, each in all three channels. -/
def squares (b : Bitmap) : ByteArray :=
  let across := (b.width.toNat + side - 1) / side
  let down := (b.height.toNat + side - 1) / side
  let start : Packing × Int × Int × Int := ({}, 0, 0, 0)
  let (packing, _) := (across * down).fold (fun i _ (p, y, u, v) =>
    let levels c := levels (samples b c (i % across * side) (i / across * side))
    let brightness := levels .brightness
    let blueness := levels .blueness
    let redness := levels .redness
    (((p.pushSquare y brightness).pushSquare u blueness).pushSquare v redness,
      brightness.headD 0, blueness.headD 0, redness.headD 0)) start
  packing.flush

/-- A marker and what it holds. -/
def segment (marker : UInt8) (body : ByteArray) : ByteArray :=
  ⟨#[0xff, marker]⟩ ++ Octet.big16 (body.size + 2) ++ body

/-- Small numbers as bytes. -/
def bytes (numbers : List Nat) : ByteArray := ⟨(numbers.map UInt8.ofNat).toArray⟩

/-- A table of codes that have one length: how many there are of each length, and what they stand
for. -/
def codeTable (kind length : Nat) (meanings : List Nat) : ByteArray :=
  segment 0xc4 <| bytes <|
    kind :: ((List.range 16).map fun i => if i + 1 = length then meanings.length else 0) ++ meanings

/-- The widths of first levels. -/
def firstMeanings : List Nat := List.range 12

/-- Runs of zeros with the width of the level behind them, in the order of their codes. -/
def restMeanings : List Nat :=
  0 :: ((List.range 16).flatMap fun run => (List.range 10).map fun i => 16 * run + i + 1) ++ [0xf0]

/-- The file of a picture. -/
def file (b : Bitmap) : ByteArray :=
  ⟨#[0xff, 0xd8]⟩ ++
    segment 0xe0 ("JFIF\x00".toUTF8 ++ bytes [1, 1, 0, 0, 1, 0, 1, 0, 0]) ++
    segment 0xdb (bytes (0 :: places.map step)) ++
    segment 0xc0 (bytes [8] ++ Octet.big16 b.height.toNat ++ Octet.big16 b.width.toNat ++
      bytes [3, 1, 0x11, 0, 2, 0x11, 0, 3, 0x11, 0]) ++
    codeTable 0 4 firstMeanings ++ codeTable 0x10 8 restMeanings ++
    segment 0xda (bytes [3, 1, 0, 2, 0, 3, 0, 0, 63, 0]) ++
    squares b ++ ⟨#[0xff, 0xd9]⟩

end FormulaInk.Jpeg
