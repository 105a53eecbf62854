import SimMultichain.Impl.Chain

/-!
# The runtime's configuration

SHA-256 as FIPS 180-4 defines it, on byte strings, and the configuration of the
node's runtime: account ids are `AccountId32`, encoded as their 32 bytes, and
composite keys are SHA-256 digests.
-/

namespace SIM.Impl

namespace Sha256

/-- The round constants. -/
def roundConstants : List UInt32 :=
  [0x428a2f98, 0x71374491, 0xb5c0fbcf, 0xe9b5dba5, 0x3956c25b, 0x59f111f1, 0x923f82a4, 0xab1c5ed5,
   0xd807aa98, 0x12835b01, 0x243185be, 0x550c7dc3, 0x72be5d74, 0x80deb1fe, 0x9bdc06a7, 0xc19bf174,
   0xe49b69c1, 0xefbe4786, 0x0fc19dc6, 0x240ca1cc, 0x2de92c6f, 0x4a7484aa, 0x5cb0a9dc, 0x76f988da,
   0x983e5152, 0xa831c66d, 0xb00327c8, 0xbf597fc7, 0xc6e00bf3, 0xd5a79147, 0x06ca6351, 0x14292967,
   0x27b70a85, 0x2e1b2138, 0x4d2c6dfc, 0x53380d13, 0x650a7354, 0x766a0abb, 0x81c2c92e, 0x92722c85,
   0xa2bfe8a1, 0xa81a664b, 0xc24b8b70, 0xc76c51a3, 0xd192e819, 0xd6990624, 0xf40e3585, 0x106aa070,
   0x19a4c116, 0x1e376c08, 0x2748774c, 0x34b0bcb5, 0x391c0cb3, 0x4ed8aa4a, 0x5b9cca4f, 0x682e6ff3,
   0x748f82ee, 0x78a5636f, 0x84c87814, 0x8cc70208, 0x90befffa, 0xa4506ceb, 0xbef9a3f7, 0xc67178f2]

/-- The eight working variables. -/
structure Words where
  a : UInt32
  b : UInt32
  c : UInt32
  d : UInt32
  e : UInt32
  f : UInt32
  g : UInt32
  h : UInt32

/-- The initial hash value. -/
def initial : Words :=
  ⟨0x6a09e667, 0xbb67ae85, 0x3c6ef372, 0xa54ff53a, 0x510e527f, 0x9b05688c, 0x1f83d9ab, 0x5be0cd19⟩

def rotr (x n : UInt32) : UInt32 := (x >>> n) ||| (x <<< (32 - n))

/-- One round, with its constant and its word of the schedule. -/
def round (s : Words) (kw : UInt32 × UInt32) : Words :=
  let t1 := s.h + (rotr s.e 6 ^^^ rotr s.e 11 ^^^ rotr s.e 25) +
    ((s.e &&& s.f) ^^^ (~~~s.e &&& s.g)) + kw.1 + kw.2
  let t2 := (rotr s.a 2 ^^^ rotr s.a 13 ^^^ rotr s.a 22) +
    ((s.a &&& s.b) ^^^ (s.a &&& s.c) ^^^ (s.b &&& s.c))
  ⟨t1 + t2, s.a, s.b, s.c, s.d + t1, s.e, s.f, s.g⟩

/-- Extend a message schedule, newest word first, by `n` words. -/
def extend : Nat → List UInt32 → List UInt32
  | 0, ws => ws
  | n + 1, ws =>
    let w15 := ws.getD 14 0
    let w2 := ws.getD 1 0
    let s0 := rotr w15 7 ^^^ rotr w15 18 ^^^ (w15 >>> 3)
    let s1 := rotr w2 17 ^^^ rotr w2 19 ^^^ (w2 >>> 10)
    extend n ((ws.getD 15 0 + s0 + ws.getD 6 0 + s1) :: ws)

/-- The big-endian words of a byte string. -/
def wordsBE : List UInt8 → List UInt32
  | a :: b :: c :: d :: bs =>
    (a.toUInt32 <<< 24 ||| b.toUInt32 <<< 16 ||| c.toUInt32 <<< 8 ||| d.toUInt32) :: wordsBE bs
  | _ => []

/-- Process one 64-byte block. -/
def compress (s : Words) (block : List UInt8) : Words :=
  let ws := (extend 48 (wordsBE block).reverse).reverse
  let t := (roundConstants.zip ws).foldl round s
  ⟨s.a + t.a, s.b + t.b, s.c + t.c, s.d + t.d, s.e + t.e, s.f + t.f, s.g + t.g, s.h + t.h⟩

/-- The message, a one bit, zeros up to 56 bytes modulo 64, and the length in bits. -/
def pad (m : List UInt8) : List UInt8 :=
  m ++ [0x80] ++ List.replicate ((119 - m.length % 64) % 64) 0 ++
    (List.range 8).map fun i => UInt8.ofNat (8 * m.length / 2 ^ (8 * (7 - i)))

/-- The first `n` 64-byte blocks of a byte string. -/
def blocks : Nat → List UInt8 → List (List UInt8)
  | 0, _ => []
  | n + 1, bs => bs.take 64 :: blocks n (bs.drop 64)

def bytesBE (x : UInt32) : Vector UInt8 4 := ⟨#[(x >>> 24).toUInt8, (x >>> 16).toUInt8,
  (x >>> 8).toUInt8, x.toUInt8], rfl⟩

/-- The SHA-256 digest of a byte string. -/
def digest (m : List UInt8) : Vector UInt8 32 :=
  let p := pad m
  let s := (blocks (p.length / 64) p).foldl compress initial
  bytesBE s.a ++ bytesBE s.b ++ bytesBE s.c ++ bytesBE s.d ++ bytesBE s.e ++ bytesBE s.f ++
    bytesBE s.g ++ bytesBE s.h

example : (digest "abc".toUTF8.data.toList).toList =
    [0xba, 0x78, 0x16, 0xbf, 0x8f, 0x01, 0xcf, 0xea, 0x41, 0x41, 0x40, 0xde, 0x5d, 0xae, 0x22, 0x23,
     0xb0, 0x03, 0x61, 0xa3, 0x96, 0x17, 0x7a, 0x9c, 0xb4, 0x10, 0xff, 0x61, 0xf2, 0x00, 0x15, 0xad] := by
  decide +kernel

end Sha256

/-- `AccountId32` -/
abbrev AccountId32 := Vector UInt8 32

/-- The runtime's configuration, with either dispatcher. -/
def runtime (transactional : Bool) : Config AccountId32 where
  encode a := a.toList
  width := 32
  length_encode a := by simp
  encode_inj a b h := Vector.toList_inj.mp h
  sha256 := Sha256.digest
  transactional := transactional

/-- The order of the runtime's block numbers. -/
instance blockNumberPreorder : Preorder UInt32 where
  le_refl _ := UInt32.le_rfl
  le_trans _ _ _ := UInt32.le_trans
  lt_iff_le_not_ge a b := by
    rw [UInt32.lt_iff_toNat_lt, UInt32.le_iff_toNat_le, UInt32.le_iff_toNat_le]
    omega

/-! Accounts, data hashes and chains of the concrete runs. -/

def alice : AccountId32 := Vector.replicate 32 0xa1
def bob : AccountId32 := Vector.replicate 32 0xb0
def hash1 : DataHash := Vector.replicate 36 1
def hash2 : DataHash := Vector.replicate 36 2

def renaultGenesis : Genesis AccountId32 UInt32 := ⟨0, some alice, none⟩
def insurerGenesis : Genesis AccountId32 UInt32 := ⟨0, none, some alice⟩

/-- The keys of the concrete runs do not collide. -/
theorem runtime_collisionFree :
    (runtime false).CollisionFree [(alice, 0), (alice, 1), (bob, 1), (bob, 2)] :=
  .of_pairs (by decide +kernel)

end SIM.Impl
