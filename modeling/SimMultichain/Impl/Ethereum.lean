import Mathlib
import SimMultichain.Framework.Body

/-!
# The chain the contract runs on

What `VehicleManagement` uses of Solidity 0.8 and the EVM: addresses and words, a
call's message, reverts, the packed encoding of an address and a number, and the
256-bit Keccak function, by which the contract computes its keys.

Contracts are written against a `keccak256` of their own section, and results
that need it ask that it has no collision on the keys in use (`CollisionFree`).
`Keccak.digest` is the function of the EVM.
-/

namespace SIM.Impl.Ethereum

/-- `address` -/
abbrev Address := BitVec 160

/-- `uint256` -/
abbrev Uint256 := BitVec 256

/-- `bytes32`, read as a big-endian number. -/
abbrev Bytes32 := BitVec 256

/-- What a call sees of its transaction and block: `msg.sender` and `block.number`. -/
structure Msg where
  sender : Address
  blockNumber : Uint256
  deriving DecidableEq

inductive Revert where
  | reason (message : String)
  | panic (code : Nat)
  deriving DecidableEq

/-! ## Packed keys -/

/-- The `w` bytes of a number, most significant first. -/
def bytesBE : Nat → Nat → List UInt8
  | 0, _ => []
  | w + 1, n => bytesBE w (n / 256) ++ [UInt8.ofNat n]

/-- `abi.encodePacked(address, uint256)` -/
def encodePacked (a : Address) (n : Uint256) : List UInt8 :=
  bytesBE 20 a.toNat ++ bytesBE 32 n.toNat

theorem length_bytesBE (w n : Nat) : (bytesBE w n).length = w := by
  induction w generalizing n with
  | zero => rfl
  | succ w ih => rw [bytesBE, List.length_append, ih, List.length_singleton]

theorem bytesBE_inj {w m n : Nat} (hm : m < 256 ^ w) (hn : n < 256 ^ w)
    (h : bytesBE w m = bytesBE w n) : m = n := by
  induction w generalizing m n with
  | zero => omega
  | succ w ih =>
    rw [Nat.pow_succ] at hm hn
    obtain ⟨hq, hr⟩ := List.append_inj h (by rw [length_bytesBE, length_bytesBE])
    have hdiv : m / 256 = n / 256 := ih (by omega) (by omega) hq
    have hmod : m % 256 = n % 256 := by
      have := congrArg UInt8.toNat (List.singleton_inj.mp hr)
      simpa using this
    omega

/-- The two parts are packed without a separator, and their widths keep them apart. -/
theorem encodePacked_inj {a b : Address} {m n : Uint256} (h : encodePacked a m = encodePacked b n) :
    a = b ∧ m = n := by
  obtain ⟨ha, hm⟩ := List.append_inj h (by rw [length_bytesBE, length_bytesBE])
  exact ⟨BitVec.eq_of_toNat_eq (bytesBE_inj (by omega) (by omega) ha),
    BitVec.eq_of_toNat_eq (bytesBE_inj (by omega) (by omega) hm)⟩

section CollisionFree

variable (keccak256 : List UInt8 → Bytes32)

/-- The digest of a packed address and number. -/
def packedKey (a : Address) (n : Uint256) : Bytes32 := keccak256 (encodePacked a n)

/-- Keccak has no collision on the packed keys in `ks`. -/
def CollisionFree (ks : List (Address × Uint256)) : Prop :=
  Set.InjOn keccak256 {m | ∃ p ∈ ks, m = encodePacked p.1 p.2}

variable {keccak256} {ks ks' : List (Address × Uint256)}

theorem CollisionFree.injOn (h : CollisionFree keccak256 ks) :
    Set.InjOn (fun p : Address × Uint256 => packedKey keccak256 p.1 p.2) {p | p ∈ ks} := by
  intro p hp q hq hpq
  obtain ⟨h1, h2⟩ := encodePacked_inj (h ⟨p, hp, rfl⟩ ⟨q, hq, rfl⟩ hpq)
  exact Prod.ext h1 h2

theorem CollisionFree.mono (h : CollisionFree keccak256 ks') (hk : ks ⊆ ks') :
    CollisionFree keccak256 ks := by
  refine Set.InjOn.mono ?_ h
  intro m hm
  obtain ⟨p, hp, hm⟩ := hm
  exact ⟨p, hk hp, hm⟩

/-- Distinct keys have no collision. -/
theorem CollisionFree.of_nodup (h : (ks.map fun p => packedKey keccak256 p.1 p.2).Nodup) :
    CollisionFree keccak256 ks := by
  intro m hm n hn hmn
  obtain ⟨p, hp, hm⟩ := hm
  obtain ⟨q, hq, hn⟩ := hn
  rw [hm, hn] at hmn
  rw [hm, hn, List.inj_on_of_nodup_map h hp hq hmn]

end CollisionFree

/-! ## Keccak-256 -/

namespace Keccak

/-- The round constants. -/
def roundConstants : List UInt64 :=
  [0x0000000000000001, 0x0000000000008082, 0x800000000000808a, 0x8000000080008000,
   0x000000000000808b, 0x0000000080000001, 0x8000000080008081, 0x8000000000008009,
   0x000000000000008a, 0x0000000000000088, 0x0000000080008009, 0x000000008000000a,
   0x000000008000808b, 0x800000000000008b, 0x8000000000008089, 0x8000000000008003,
   0x8000000000008002, 0x8000000000000080, 0x000000000000800a, 0x800000008000000a,
   0x8000000080008081, 0x8000000000008080, 0x0000000080000001, 0x8000000080008008]

/-- Five lanes of a row. The state is five planes. -/
abbrev Plane := List UInt64

/-- The rotation offsets of the lanes. -/
def offsets : List Plane :=
  [[0, 1, 62, 28, 27], [36, 44, 6, 55, 20], [3, 10, 43, 25, 39], [41, 45, 15, 21, 8],
   [18, 2, 61, 56, 14]]

def rotl (x n : UInt64) : UInt64 := if n = 0 then x else (x <<< n) ||| (x >>> (64 - n))

def theta (a : List Plane) : List Plane :=
  let c := a.foldl (List.zipWith (· ^^^ ·)) (List.replicate 5 0)
  let d := (List.range 5).map fun x => c.getD ((x + 4) % 5) 0 ^^^ rotl (c.getD ((x + 1) % 5) 0) 1
  a.map (List.zipWith (· ^^^ ·) d)

def rho (a : List Plane) : List Plane := List.zipWith (List.zipWith rotl) a offsets

def pi (a : List Plane) : List Plane :=
  (List.range 5).map fun y => a.mapIdx fun x p => p.getD ((x + 3 * y) % 5) 0

def chi : Plane → Plane
  | [a, b, c, d, e] =>
    [a ^^^ (~~~b &&& c), b ^^^ (~~~c &&& d), c ^^^ (~~~d &&& e), d ^^^ (~~~e &&& a),
      e ^^^ (~~~a &&& b)]
  | p => p

def iota (rc : UInt64) : List Plane → List Plane
  | (l :: ls) :: ps => ((l ^^^ rc) :: ls) :: ps
  | a => a

/-- The permutation of the state. -/
def permute (a : List Plane) : List Plane :=
  roundConstants.foldl (fun a rc => iota rc ((pi (rho (theta a))).map chi)) a

/-- The little-endian lanes of a byte string. -/
def lanesLE : List UInt8 → List UInt64
  | a :: b :: c :: d :: e :: f :: g :: h :: bs =>
    (a.toUInt64 ||| b.toUInt64 <<< 8 ||| c.toUInt64 <<< 16 ||| d.toUInt64 <<< 24 |||
      e.toUInt64 <<< 32 ||| f.toUInt64 <<< 40 ||| g.toUInt64 <<< 48 ||| h.toUInt64 <<< 56) ::
      lanesLE bs
  | _ => []

/-- The message, a one bit, zeros and a closing one bit, up to a multiple of 136 bytes. -/
def pad (m : List UInt8) : List UInt8 :=
  let n := 136 - m.length % 136
  if n = 1 then m ++ [0x81] else m ++ [0x01] ++ List.replicate (n - 2) 0 ++ [0x80]

/-- The first `n` parts of length `k` of a list. -/
def parts {α : Type} (k : Nat) : Nat → List α → List (List α)
  | 0, _ => []
  | n + 1, l => l.take k :: parts k n (l.drop k)

/-- Add one block, of 17 lanes, to the state and permute it. -/
def absorb (a : List Plane) (block : List UInt8) : List Plane :=
  permute (List.zipWith (List.zipWith (· ^^^ ·)) a
    (parts 5 5 (lanesLE block ++ List.replicate 8 0)))

def bytesLE (x : UInt64) : List UInt8 :=
  (List.range 8).map fun i => (x >>> UInt64.ofNat (8 * i)).toUInt8

/-- The Keccak-256 digest of a byte string. -/
def digest (m : List UInt8) : Bytes32 :=
  let p := pad m
  let a := (parts 136 (p.length / 136) p).foldl absorb (List.replicate 5 (List.replicate 5 0))
  let bytes := (a.flatten.take 4).flatMap bytesLE
  BitVec.ofNat 256 (bytes.foldl (fun n b => 256 * n + b.toNat) 0)

example : digest "abc".toUTF8.data.toList =
    0x4e03657aea45a94fc7d47ba826c8d667c0d1e6e33a64a036ec44f58fa12d6c45 := by
  decide +kernel

end Keccak

end SIM.Impl.Ethereum
