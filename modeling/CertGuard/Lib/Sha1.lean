import Mathlib.Algebra.Group.Nat.Defs
import Mathlib.Data.List.Basic

/-!
# SHA-1 and HMAC

The hash of FIPS 180-4 over lists of bytes, and the keyed hash over it.

## Main definitions

* `Sha1.digest` — the hash of a text, 20 bytes
* `Sha1.hmac` — HMAC with this hash
-/

namespace Sha1

/-- The bytes of a number, the most significant first. -/
def bigEndian : Nat → Nat → List UInt8
  | 0, _ => []
  | k + 1, n => UInt8.ofNat (n / 256 ^ k) :: bigEndian k n

/-- A word from its bytes, the most significant first. -/
def word (bs : List UInt8) : UInt32 := bs.foldl (fun w b => (w <<< 8) ||| b.toUInt32) 0

/-- Rotates a word to the left. -/
def rotl (w n : UInt32) : UInt32 := (w <<< n) ||| (w >>> (32 - n))

/-- Fills a text up to a whole number of blocks, its length in bits at the end. -/
def padded (msg : List UInt8) : List UInt8 :=
  msg ++ 0x80 :: List.replicate ((119 - msg.length % 64) % 64) 0 ++ bigEndian 8 (8 * msg.length)

/-- The five words of the state. -/
structure Words where
  a : UInt32
  b : UInt32
  c : UInt32
  d : UInt32
  e : UInt32
  deriving DecidableEq, Repr

/-- The state a hash starts from. -/
def Words.initial : Words := ⟨0x67452301, 0xEFCDAB89, 0x98BADCFE, 0x10325476, 0xC3D2E1F0⟩

/-- The message schedule goes on for `n` words; the newest word comes first. -/
def schedule : Nat → List UInt32 → List UInt32
  | 0, ws => ws
  | n + 1, ws =>
    schedule n (rotl (ws.getD 2 0 ^^^ ws.getD 7 0 ^^^ ws.getD 13 0 ^^^ ws.getD 15 0) 1 :: ws)

/-- The function and the constant of a round. -/
def mix (t : Nat) (s : Words) : UInt32 × UInt32 :=
  if t < 20 then ((s.b &&& s.c) ||| (s.b.complement &&& s.d), 0x5A827999)
  else if t < 40 then (s.b ^^^ s.c ^^^ s.d, 0x6ED9EBA1)
  else if t < 60 then ((s.b &&& s.c) ||| (s.b &&& s.d) ||| (s.c &&& s.d), 0x8F1BBCDC)
  else (s.b ^^^ s.c ^^^ s.d, 0xCA62C1D6)

/-- The rounds from number `t` on, one for each word. -/
def rounds (t : Nat) (s : Words) : List UInt32 → Words
  | [] => s
  | w :: ws =>
    let m := mix t s
    rounds (t + 1) ⟨rotl s.a 5 + m.1 + s.e + m.2 + w, s.a, rotl s.b 30, s.c, s.d⟩ ws

/-- Takes one block of 16 words into the state. -/
def compress (s : Words) (block : List UInt32) : Words :=
  let r := rounds 0 s (schedule 64 block.reverse).reverse
  ⟨s.a + r.a, s.b + r.b, s.c + r.c, s.d + r.d, s.e + r.e⟩

/-- Cuts a list into `n` pieces of a length. -/
def pieces {α : Type*} (len : Nat) : Nat → List α → List (List α)
  | 0, _ => []
  | n + 1, l => l.take len :: pieces len n (l.drop len)

/-- The hash of a text. -/
def digest (msg : List UInt8) : List UInt8 :=
  let p := padded msg
  let words := (pieces 4 (p.length / 4) p).map word
  let s := (pieces 16 (words.length / 16) words).foldl compress Words.initial
  [s.a, s.b, s.c, s.d, s.e].flatMap fun w => bigEndian 4 w.toNat

/-- HMAC: the key is hashed if it is longer than a block, and filled up to one. -/
def hmac (key msg : List UInt8) : List UInt8 :=
  let key := if 64 < key.length then digest key else key
  let block := key ++ List.replicate (64 - key.length) 0
  digest (block.map (· ^^^ 0x5C) ++ digest (block.map (· ^^^ 0x36) ++ msg))

end Sha1
