import Nyc.Python
import Mathlib.Logic.Function.Iterate

/-! `hashlib.sha256`, on 32-bit words as natural numbers below `2 ^ 32`. -/

namespace Nyc.Sha256

def word (n : Nat) : Nat := n % 2 ^ 32

def rotr (k x : Nat) : Nat := word (x >>> k ||| x <<< (32 - k))

def roundConstants : List Nat :=
  [0x428a2f98, 0x71374491, 0xb5c0fbcf, 0xe9b5dba5, 0x3956c25b, 0x59f111f1, 0x923f82a4, 0xab1c5ed5,
   0xd807aa98, 0x12835b01, 0x243185be, 0x550c7dc3, 0x72be5d74, 0x80deb1fe, 0x9bdc06a7, 0xc19bf174,
   0xe49b69c1, 0xefbe4786, 0x0fc19dc6, 0x240ca1cc, 0x2de92c6f, 0x4a7484aa, 0x5cb0a9dc, 0x76f988da,
   0x983e5152, 0xa831c66d, 0xb00327c8, 0xbf597fc7, 0xc6e00bf3, 0xd5a79147, 0x06ca6351, 0x14292967,
   0x27b70a85, 0x2e1b2138, 0x4d2c6dfc, 0x53380d13, 0x650a7354, 0x766a0abb, 0x81c2c92e, 0x92722c85,
   0xa2bfe8a1, 0xa81a664b, 0xc24b8b70, 0xc76c51a3, 0xd192e819, 0xd6990624, 0xf40e3585, 0x106aa070,
   0x19a4c116, 0x1e376c08, 0x2748774c, 0x34b0bcb5, 0x391c0cb3, 0x4ed8aa4a, 0x5b9cca4f, 0x682e6ff3,
   0x748f82ee, 0x78a5636f, 0x84c87814, 0x8cc70208, 0x90befffa, 0xa4506ceb, 0xbef9a3f7, 0xc67178f2]

structure Chain where
  a : Nat
  b : Nat
  c : Nat
  d : Nat
  e : Nat
  f : Nat
  g : Nat
  h : Nat

def initial : Chain :=
  ⟨0x6a09e667, 0xbb67ae85, 0x3c6ef372, 0xa54ff53a, 0x510e527f, 0x9b05688c, 0x1f83d9ab, 0x5be0cd19⟩

/-- One more word of the message schedule; the words are kept newest first. -/
def extend (ws : List Nat) : List Nat :=
  let w15 := ws.getD 14 0
  let w2 := ws.getD 1 0
  let s0 := rotr 7 w15 ^^^ rotr 18 w15 ^^^ w15 >>> 3
  let s1 := rotr 17 w2 ^^^ rotr 19 w2 ^^^ w2 >>> 10
  word (ws.getD 15 0 + s0 + ws.getD 6 0 + s1) :: ws

def schedule (block : List Nat) : List Nat := (extend^[48] block.reverse).reverse

def round (s : Chain) (kw : Nat × Nat) : Chain :=
  let s1 := rotr 6 s.e ^^^ rotr 11 s.e ^^^ rotr 25 s.e
  let ch := s.e &&& s.f ^^^ (2 ^ 32 - 1 - s.e) &&& s.g
  let t1 := s.h + s1 + ch + kw.1 + kw.2
  let s0 := rotr 2 s.a ^^^ rotr 13 s.a ^^^ rotr 22 s.a
  let maj := s.a &&& s.b ^^^ s.a &&& s.c ^^^ s.b &&& s.c
  ⟨word (t1 + s0 + maj), s.a, s.b, s.c, word (s.d + t1), s.e, s.f, s.g⟩

def compress (s : Chain) (block : List Nat) : Chain :=
  let t := (roundConstants.zip (schedule block)).foldl round s
  ⟨word (s.a + t.a), word (s.b + t.b), word (s.c + t.c), word (s.d + t.d),
   word (s.e + t.e), word (s.f + t.f), word (s.g + t.g), word (s.h + t.h)⟩

/-- The `k` big-endian bytes of `n`. -/
def bytesOf (k n : Nat) : List Nat := ((List.range k).map fun i => n >>> (8 * i) % 256).reverse

def ofBytes (bytes : List Nat) : Nat := bytes.foldl (fun n b => 256 * n + b) 0

def pad (message : List Nat) : List Nat :=
  message ++ [0x80] ++ List.replicate ((119 - message.length % 64) % 64) 0 ++
    bytesOf 8 (8 * message.length)

/-- The first `n` blocks of sixteen words. -/
def blocks : Nat → List Nat → List (List Nat)
  | 0, _ => []
  | n + 1, bytes => (words 16 bytes) :: blocks n (bytes.drop 64)
where
  words : Nat → List Nat → List Nat
    | 0, _ => []
    | k + 1, bytes => ofBytes (bytes.take 4) :: words k (bytes.drop 4)

/-- `sha256(message).digest()`. -/
def digest (message : List Nat) : List Nat :=
  let padded := pad message
  let s := (blocks (padded.length / 64) padded).foldl compress initial
  [s.a, s.b, s.c, s.d, s.e, s.f, s.g, s.h].flatMap (bytesOf 4)

end Nyc.Sha256
