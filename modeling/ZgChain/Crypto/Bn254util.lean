import ZgChain.Lib.Bytes

/-!
# Points of the signature curve

Points are pairs of field elements, read from bytes modulo the field's prime and
written as big-endian numbers below it. Reading is not injective: the prime is
below a fifth of `2 ^ 256`, and the quotient of a coordinate by the prime is lost.
The group operations, the pairing, the square root and the hash are parameters.
-/

namespace ZgChain.Bn254util

def fpModulus : Nat := 21888242871839275222246405745257275088696311157297823662689037894645226208583

def frModulus : Nat := 21888242871839275222246405745257275088548364400416034343698204186575808495617

instance : NeZero fpModulus := ⟨by decide⟩

abbrev Fp := Fin fpModulus

structure G1Affine where
  x : Fp
  y : Fp
  deriving DecidableEq, Repr

structure E2 where
  a0 : Fp
  a1 : Fp
  deriving DecidableEq, Repr

structure G2Affine where
  x : E2
  y : E2
  deriving DecidableEq, Repr

structure Curve where
  keccak256 : Bytes → Bytes
  /-- A square root modulo the field's prime, if there is one. -/
  modSqrt : Nat → Option Nat
  add : G1Affine → G1Affine → G1Affine
  scalarMultiplication : G1Affine → Nat → G1Affine
  neg : G2Affine → G2Affine
  /-- Whether the product of the pairings is one; lists of different lengths give none. -/
  pairingCheck : List G1Affine → List G2Affine → Option Bool

def g1PointSize : Nat := 32 * 2

def g2PointSize : Nat := 32 * 2 * 2

def getG1Generator : G1Affine := ⟨1, 2⟩

def getG2Generator : G2Affine :=
  ⟨⟨10857046999023057135944570762232829481370756359578518086990519993285655852781,
    11559732032986387107991004021392285783925812861821192530917403151452391805634⟩,
   ⟨8495653923123431417604973247489272438418190587263600148770280649306958101930,
    4082367875863433681332203403145435568316851327593401208105741076214120093531⟩⟩

/-! ## Bytes -/

def setBytes (b : Bytes) : Fp := Fin.ofNat fpModulus (beToNat b)

def Fp.bytes (e : Fp) : Bytes := beBytes 32 e.val

def serializeG1 (p : G1Affine) : Bytes := Fp.bytes p.x ++ Fp.bytes p.y

def serializeG2 (p : G2Affine) : Bytes :=
  Fp.bytes p.x.a0 ++ Fp.bytes p.x.a1 ++ Fp.bytes p.y.a0 ++ Fp.bytes p.y.a1

def word (b : Bytes) (i : Nat) : Bytes := (b.drop (32 * i)).take 32

def deserializeG1 (b : Bytes) : Option G1Affine :=
  -- a string that is too short makes the code panic
  if g1PointSize ≤ b.length then some ⟨setBytes (word b 0), setBytes (word b 1)⟩ else none

def deserializeG2 (b : Bytes) : Option G2Affine :=
  if g2PointSize ≤ b.length then
    some ⟨⟨setBytes (word b 0), setBytes (word b 1)⟩, ⟨setBytes (word b 2), setBytes (word b 3)⟩⟩
  else none

/-! ## Hashing -/

def mapToCurveFrom (c : Curve) : Nat → Nat → Option G1Affine
  | 0, _ => none
  | tries + 1, x =>
    match c.modSqrt ((x ^ 3 % fpModulus + 3) % fpModulus) with
    | none => mapToCurveFrom c tries ((x + 1) % fpModulus)
    | some y => some ⟨Fin.ofNat fpModulus x, Fin.ofNat fpModulus y⟩

/-- After as many steps as the field has elements the search repeats itself: none
is a search without end. -/
def mapToCurve (c : Curve) (digest : Bytes) : Option G1Affine :=
  mapToCurveFrom c fpModulus (beToNat digest)

def gamma (c : Curve) (hash signature pkG1 : G1Affine) (pkG2 : G2Affine) : Nat :=
  beToNat (c.keccak256 (serializeG1 hash ++ serializeG1 signature ++ serializeG1 pkG1 ++
    serializeG2 pkG2)) % frModulus

/-! ## What reading loses -/

/-- How often the prime goes into each coordinate of a written point. -/
def quotients (b : Bytes) : Nat × Nat :=
  (beToNat (word b 0) / fpModulus, beToNat (word b 1) / fpModulus)

theorem length_serializeG1 (p : G1Affine) : (serializeG1 p).length = g1PointSize := by
  simp [serializeG1, Fp.bytes, g1PointSize]

theorem setBytes_bytes (e : Fp) : setBytes e.bytes = e := by
  have he : e.val < 256 ^ 32 := lt_trans e.isLt (by decide)
  apply Fin.ext
  rw [setBytes, Fp.bytes, beToNat_beBytes, Nat.mod_eq_of_lt he]
  exact Nat.mod_eq_of_lt e.isLt

theorem words_append {a b : Bytes} (ha : a.length = 32) (hb : b.length = 32) :
    word (a ++ b) 0 = a ∧ word (a ++ b) 1 = b := by
  constructor
  · simp [word, ← ha]
  · simp [word, ha, hb]

theorem deserializeG1_serializeG1 (p : G1Affine) : deserializeG1 (serializeG1 p) = some p := by
  obtain ⟨h₀, h₁⟩ := words_append (length_beBytes 32 p.x.val) (length_beBytes 32 p.y.val)
  rw [deserializeG1, if_pos (length_serializeG1 p).ge]
  simp only [serializeG1, Fp.bytes, h₀, h₁]
  rw [← Fp.bytes, ← Fp.bytes, setBytes_bytes, setBytes_bytes]

theorem words_eq {b : Bytes} (h : b.length = g1PointSize) : word b 0 ++ word b 1 = b := by
  have hd : (b.drop 32).take 32 = b.drop 32 := List.take_of_length_le (by simp [h, g1PointSize])
  simp [word, hd]

theorem eq_iff_quotients {a b : Bytes} {p : G1Affine} (ha : a.length = g1PointSize)
    (hb : b.length = g1PointSize)
    (hpa : deserializeG1 a = some p) (hpb : deserializeG1 b = some p) :
    a = b ↔ quotients a = quotients b := by
  rw [deserializeG1, if_pos ha.ge, Option.some.injEq] at hpa
  rw [deserializeG1, if_pos hb.ge, Option.some.injEq, ← hpa, G1Affine.mk.injEq] at hpb
  obtain ⟨hx, hy⟩ := hpb
  have hlen (i : Nat) : (word a i).length = (word b i).length := by simp [word, ha, hb]
  have hm (i : Nat) (h : setBytes (word b i) = setBytes (word a i)) :
      beToNat (word a i) % fpModulus = beToNat (word b i) % fpModulus := (congrArg Fin.val h).symm
  rw [quotients, quotients, Prod.mk.injEq, ← eq_iff_beToNat_div (hlen 0) (hm 0 hx),
    ← eq_iff_beToNat_div (hlen 1) (hm 1 hy)]
  constructor
  · intro h
    rw [h]
    exact ⟨rfl, rfl⟩
  · rintro ⟨h₀, h₁⟩
    rw [← words_eq ha, ← words_eq hb, h₀, h₁]

end ZgChain.Bn254util
