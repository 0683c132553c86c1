import ScriptLower.Text.Bytes
import ScriptLower.Pipeline.Options

/-!
# Keys of outputs

A key names an output by everything that can change it: the source, its specifier and the options.
The parts are hashed one behind the other, each ended by a zero byte.
-/

/-!
## SHA-256

The 256-bit secure hash of a text. The text is filled up to whole blocks of 64 bytes; each block is
stretched to 64 words and mixed into eight words of state.
-/

namespace ScriptLower.Sha256

open ScriptLower

/-- The state: eight words. -/
structure Words where
  /-- The first word. -/
  a : UInt32
  /-- The second word. -/
  b : UInt32
  /-- The third word. -/
  c : UInt32
  /-- The fourth word. -/
  d : UInt32
  /-- The fifth word. -/
  e : UInt32
  /-- The sixth word. -/
  f : UInt32
  /-- The seventh word. -/
  g : UInt32
  /-- The eighth word. -/
  h : UInt32
  deriving DecidableEq, Repr, Inhabited

/-- The state at the start: the fractions of the square roots of the first eight primes. -/
def start : Words :=
  ⟨0x6A09E667, 0xBB67AE85, 0x3C6EF372, 0xA54FF53A,
   0x510E527F, 0x9B05688C, 0x1F83D9AB, 0x5BE0CD19⟩

/-- The words of the rounds: the fractions of the cube roots of the first 64 primes. -/
def roundWords : List UInt32 := [
  0x428A2F98, 0x71374491, 0xB5C0FBCF, 0xE9B5DBA5, 0x3956C25B, 0x59F111F1,
  0x923F82A4, 0xAB1C5ED5, 0xD807AA98, 0x12835B01, 0x243185BE, 0x550C7DC3,
  0x72BE5D74, 0x80DEB1FE, 0x9BDC06A7, 0xC19BF174, 0xE49B69C1, 0xEFBE4786,
  0x0FC19DC6, 0x240CA1CC, 0x2DE92C6F, 0x4A7484AA, 0x5CB0A9DC, 0x76F988DA,
  0x983E5152, 0xA831C66D, 0xB00327C8, 0xBF597FC7, 0xC6E00BF3, 0xD5A79147,
  0x06CA6351, 0x14292967, 0x27B70A85, 0x2E1B2138, 0x4D2C6DFC, 0x53380D13,
  0x650A7354, 0x766A0ABB, 0x81C2C92E, 0x92722C85, 0xA2BFE8A1, 0xA81A664B,
  0xC24B8B70, 0xC76C51A3, 0xD192E819, 0xD6990624, 0xF40E3585, 0x106AA070,
  0x19A4C116, 0x1E376C08, 0x2748774C, 0x34B0BCB5, 0x391C0CB3, 0x4ED8AA4A,
  0x5B9CCA4F, 0x682E6FF3, 0x748F82EE, 0x78A5636F, 0x84C87814, 0x8CC70208,
  0x90BEFFFA, 0xA4506CEB, 0xBEF9A3F7, 0xC67178F2]

/-- Turns a word to the right. -/
def rotate (x : UInt32) (n : UInt32) : UInt32 := (x >>> n) ||| (x <<< (32 - n))

/-- The word of four bytes. -/
def wordOf (s : Bytes) : UInt32 := s.foldl (fun w b => w * 256 + b.toUInt32) 0

/-- The words of a block. -/
def blockWords (block : Bytes) : List UInt32 :=
  (List.range 16).map fun i => wordOf ((block.drop (4 * i)).take 4)

/-- The next word of a schedule, from the word that stands `n` places back. -/
def nextWord (back : Nat → UInt32) : UInt32 :=
  let x := back 15
  let y := back 2
  let s0 := rotate x 7 ^^^ rotate x 18 ^^^ (x >>> 3)
  let s1 := rotate y 17 ^^^ rotate y 19 ^^^ (y >>> 10)
  back 16 + s0 + back 7 + s1

/-- The schedule of a block: its words, stretched to 64. The latest word stands first. -/
def stretch : Nat → List UInt32 → List UInt32
  | 0, ws => ws
  | n + 1, ws => stretch n (nextWord (fun i => ws.getD (i - 1) 0) :: ws)

/-- The schedule of a block in order. -/
def schedule (block : Bytes) : List UInt32 := (stretch 48 (blockWords block).reverse).reverse

/-- One round. -/
def round (s : Words) (k w : UInt32) : Words :=
  let s1 := rotate s.e 6 ^^^ rotate s.e 11 ^^^ rotate s.e 25
  let choice := (s.e &&& s.f) ^^^ (~~~s.e &&& s.g)
  let t1 := s.h + s1 + choice + k + w
  let s0 := rotate s.a 2 ^^^ rotate s.a 13 ^^^ rotate s.a 22
  let majority := (s.a &&& s.b) ^^^ (s.a &&& s.c) ^^^ (s.b &&& s.c)
  ⟨t1 + (s0 + majority), s.a, s.b, s.c, s.d + t1, s.e, s.f, s.g⟩

/-- Mixes a block into the state. -/
def absorb (s : Words) (block : Bytes) : Words :=
  let t := (roundWords.zip (schedule block)).foldl (fun s kw => round s kw.1 kw.2) s
  ⟨s.a + t.a, s.b + t.b, s.c + t.c, s.d + t.d, s.e + t.e, s.f + t.f, s.g + t.g, s.h + t.h⟩

/-- A number as eight bytes, the highest first. -/
def eightBytes (n : Nat) : Bytes :=
  (List.range 8).map fun i => (n / Nat.pow 2 (8 * (7 - i))).toUInt8

/-- A text filled up to whole blocks: a mark, zeros, and the length in bits. -/
def padded (s : Bytes) : Bytes :=
  s ++ [0x80] ++ List.replicate ((119 - s.length % 64) % 64) 0 ++ eightBytes (8 * s.length)

/-- The blocks of a text. -/
def blocks (s : Bytes) : List Bytes :=
  (List.range (s.length / 64)).map fun i => (s.drop (64 * i)).take 64

/-- The bytes of a word, the highest first. -/
def wordBytes (w : UInt32) : Bytes :=
  [(w >>> 24).toUInt8, (w >>> 16).toUInt8, (w >>> 8).toUInt8, w.toUInt8]

/-- The hash of a text, 32 bytes. -/
def digest (s : Bytes) : Bytes :=
  let t := (blocks (padded s)).foldl absorb start
  [t.a, t.b, t.c, t.d, t.e, t.f, t.g, t.h].flatMap wordBytes

end ScriptLower.Sha256

/-! ## Keys -/

namespace ScriptLower.Digest

open ScriptLower

/-- A hash in hexadecimal digits. -/
def hex (d : Bytes) : Bytes :=
  d.flatMap fun b => [Bytes.hexDigit (b.toNat / 16), Bytes.hexDigit (b.toNat % 16)]

/-- What is hashed for a start and some parts. -/
def preimage (start : Bytes) (parts : List Bytes) : Bytes :=
  start ++ parts.flatMap fun p => p ++ [0]

/-- The hash of a start and some parts. -/
def combine (start : Bytes) (parts : List Bytes) : Bytes := Sha256.digest (preimage start parts)

/-- The version of the stored form of outputs. -/
def schemaVersion : Nat := 1

/-- A truth value as a part. -/
def flag (b : Bool) : Bytes := if b then "true" else "false"

/-- The defines as parts, by name. -/
def defineParts (defines : List (Bytes × Bytes)) : List Bytes :=
  (defines.mergeSort fun a b => Bytes.le a.1 b.1).flatMap fun (n, v) => [n, v]

/-- The options that can change an output, as parts. -/
def optionParts (o : Options) : List Bytes :=
  [Bytes.ofNat schemaVersion, o.elements.importSource, flag o.elements.development, flag o.minify,
    o.dialect.name, o.elements.runtime.name, o.elements.factory, o.elements.fragment,
    o.target.name, flag o.asciiOnly, o.sourceMap.name, flag o.decorators,
    flag o.strictEarlyErrors, flag o.preserveImports, "strip"]
    ++ o.stripConditionals ++ [Bytes.ofString "define"] ++ defineParts o.defines

/-- The hash of the options. -/
def ofOptions (o : Options) : Bytes := combine (List.replicate 32 0) (optionParts o)

/-- The key of an output. -/
def entryKey (specifier content options : Bytes) : Bytes :=
  combine (Sha256.digest content) [specifier, hex options]

end ScriptLower.Digest
