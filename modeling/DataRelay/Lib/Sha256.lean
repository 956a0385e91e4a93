import Mathlib.Algebra.Group.Nat.Defs
import Mathlib.Tactic.Common

/-! SHA-256 and URL-safe base 64.

    The message schedule is kept newest word first, so its recurrence reads fixed positions of the
    list; a block is compressed by one fold over the schedule and the round constants. -/

namespace Lib

namespace Sha256

/-- A 32-bit word. -/
abbrev Word := BitVec 32

/-- The constants of the 64 rounds. -/
def roundConstants : List Word :=
  [0x428a2f98, 0x71374491, 0xb5c0fbcf, 0xe9b5dba5, 0x3956c25b, 0x59f111f1, 0x923f82a4,
    0xab1c5ed5, 0xd807aa98, 0x12835b01, 0x243185be, 0x550c7dc3, 0x72be5d74, 0x80deb1fe,
    0x9bdc06a7, 0xc19bf174, 0xe49b69c1, 0xefbe4786, 0x0fc19dc6, 0x240ca1cc, 0x2de92c6f,
    0x4a7484aa, 0x5cb0a9dc, 0x76f988da, 0x983e5152, 0xa831c66d, 0xb00327c8, 0xbf597fc7,
    0xc6e00bf3, 0xd5a79147, 0x06ca6351, 0x14292967, 0x27b70a85, 0x2e1b2138, 0x4d2c6dfc,
    0x53380d13, 0x650a7354, 0x766a0abb, 0x81c2c92e, 0x92722c85, 0xa2bfe8a1, 0xa81a664b,
    0xc24b8b70, 0xc76c51a3, 0xd192e819, 0xd6990624, 0xf40e3585, 0x106aa070, 0x19a4c116,
    0x1e376c08, 0x2748774c, 0x34b0bcb5, 0x391c0cb3, 0x4ed8aa4a, 0x5b9cca4f, 0x682e6ff3,
    0x748f82ee, 0x78a5636f, 0x84c87814, 0x8cc70208, 0x90befffa, 0xa4506ceb, 0xbef9a3f7,
    0xc67178f2]

/-- The chaining value before the first block. -/
def initial : List Word :=
  [0x6a09e667, 0xbb67ae85, 0x3c6ef372, 0xa54ff53a,
    0x510e527f, 0x9b05688c, 0x1f83d9ab, 0x5be0cd19]

/-- The functions of the rounds and of the schedule. -/
def sigma0 (x : Word) : Word := x.rotateRight 7 ^^^ x.rotateRight 18 ^^^ x >>> 3
def sigma1 (x : Word) : Word := x.rotateRight 17 ^^^ x.rotateRight 19 ^^^ x >>> 10
def bigSigma0 (x : Word) : Word := x.rotateRight 2 ^^^ x.rotateRight 13 ^^^ x.rotateRight 22
def bigSigma1 (x : Word) : Word := x.rotateRight 6 ^^^ x.rotateRight 11 ^^^ x.rotateRight 25
def ch (x y z : Word) : Word := (x &&& y) ^^^ (~~~x &&& z)
def maj (x y z : Word) : Word := (x &&& y) ^^^ (x &&& z) ^^^ (y &&& z)

/-- The bytes of a number, most significant first. -/
def bigEndian (n : ℕ) : ℕ → List ℕ
  | 0 => []
  | w + 1 => n / 256 ^ w % 256 :: bigEndian n w

/-- The message, a one bit, zeros up to the length field, and the length in bits. -/
def pad (message : List ℕ) : List ℕ :=
  message ++ 128 :: List.replicate ((119 - message.length % 64) % 64) 0 ++
    bigEndian (8 * message.length) 8

/-- The bytes four at a time, most significant first. -/
def words : List ℕ → List Word
  | a :: b :: c :: d :: bytes =>
    BitVec.ofNat 32 (((256 * a + b) * 256 + c) * 256 + d) :: words bytes
  | _ => []

/-- Add `n` words to a schedule kept newest first. -/
def extend (w : List Word) : ℕ → List Word
  | 0 => w
  | n + 1 =>
    extend ((w.getD 15 0 + sigma0 (w.getD 14 0) + w.getD 6 0 + sigma1 (w.getD 1 0)) :: w) n

/-- One round on the eight working variables, with its schedule word and constant. -/
def round (v : List Word) (kw : Word × Word) : List Word :=
  match v with
  | [a, b, c, d, e, f, g, h] =>
    let t1 := h + bigSigma1 e + ch e f g + kw.1 + kw.2
    [t1 + bigSigma0 a + maj a b c, a, b, c, d + t1, e, f, g]
  | _ => v

/-- The chaining value after one block of sixteen words. -/
def compress (state block : List Word) : List Word :=
  let schedule := (extend block.reverse 48).reverse
  List.zipWith (· + ·) state ((roundConstants.zip schedule).foldl round state)

/-- Compress `n` blocks of sixteen words. -/
def blocks (state : List Word) : ℕ → List Word → List Word
  | 0, _ => state
  | n + 1, ws => blocks (compress state (ws.take 16)) n (ws.drop 16)

end Sha256

/-- The digest of a message, both as lists of bytes. -/
def sha256 (message : List ℕ) : List ℕ :=
  (Sha256.blocks Sha256.initial ((Sha256.pad message).length / 64)
    (Sha256.words (Sha256.pad message))).flatMap fun w => Sha256.bigEndian w.toNat 4

example : sha256 [97, 98, 99] =
    [186, 120, 22, 191, 143, 1, 207, 234, 65, 65, 64, 222, 93, 174, 34, 35,
      176, 3, 97, 163, 150, 23, 122, 156, 180, 16, 255, 97, 242, 0, 21, 173] := by
  decide +kernel

namespace Sha256

theorem length_bigEndian (n : ℕ) : ∀ k, (bigEndian n k).length = k
  | 0 => rfl
  | k + 1 => by simp [bigEndian, length_bigEndian n k]

theorem length_round {v : List Word} (h : v.length = 8) (kw : Word × Word) :
    (round v kw).length = 8 := by
  match v, h with
  | [_, _, _, _, _, _, _, _], _ => rfl

theorem length_compress {state : List Word} (h : state.length = 8) (block : List Word) :
    (compress state block).length = 8 := by
  have hround : ∀ (kws : List (Word × Word)) (v : List Word), v.length = 8 →
      (kws.foldl round v).length = 8 := by
    intro kws
    induction kws with
    | nil => exact fun v hv => hv
    | cons kw kws ih => exact fun v hv => ih _ (length_round hv kw)
  simp only [compress, List.length_zipWith, h, hround _ _ h, Nat.min_self]

theorem length_blocks : ∀ (n : ℕ) {state : List Word} (ws : List Word), state.length = 8 →
    (blocks state n ws).length = 8
  | 0, _, _, h => h
  | n + 1, _, ws, h => length_blocks n (ws.drop 16) (length_compress h (ws.take 16))

end Sha256

/-- A digest has 32 bytes. -/
theorem length_sha256 (message : List ℕ) : (sha256 message).length = 32 := by
  have hblocks := Sha256.length_blocks ((Sha256.pad message).length / 64)
    (Sha256.words (Sha256.pad message)) (show Sha256.initial.length = 8 from rfl)
  simp only [sha256, List.length_flatMap, Sha256.length_bigEndian, List.map_const', hblocks]
  rfl

/-- The URL-safe base 64 digit of a six-bit value. -/
def base64Char (n : ℕ) : Char :=
  if n < 26 then Char.ofNat (65 + n)
  else if n < 52 then Char.ofNat (71 + n)
  else if n < 62 then Char.ofNat (n - 4)
  else if n = 62 then '-'
  else '_'

/-- URL-safe base 64 without the trailing padding. -/
def base64Url : List ℕ → List Char
  | [] => []
  | [a] => [base64Char (a / 4), base64Char (a % 4 * 16)]
  | [a, b] => [base64Char (a / 4), base64Char (a % 4 * 16 + b / 16), base64Char (b % 16 * 4)]
  | a :: b :: c :: bytes =>
    base64Char (a / 4) :: base64Char (a % 4 * 16 + b / 16) :: base64Char (b % 16 * 4 + c / 64) ::
      base64Char (c % 64) :: base64Url bytes

end Lib
