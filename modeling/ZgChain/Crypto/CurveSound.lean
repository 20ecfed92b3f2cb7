import ZgChain.Crypto.Bn254util

/-!
# The search for a point

The search counts up from a digest, modulo the prime, to the first number that is a first
coordinate. It comes to an end: one is a first coordinate, as four is a square, and from
every number it is less than a round away. Nothing is used of the modulus but that the
square root is one exactly if there is one.
-/

namespace ZgChain.Bn254util

def curveValue (x : Nat) : Nat := (x ^ 3 % fpModulus + 3) % fpModulus

structure Curve.SqrtLaw (c : Curve) : Prop where
  sound : ∀ n y, c.modSqrt n = some y → y ^ 2 % fpModulus = n % fpModulus
  complete : ∀ n, c.modSqrt n = none → ∀ y, y ^ 2 % fpModulus ≠ n % fpModulus

theorem curveValue_mod (x : Nat) : curveValue (x % fpModulus) = curveValue x := by
  rw [curveValue, curveValue, ← Nat.pow_mod]

theorem curveValue_add (x k : Nat) :
    curveValue ((x + 1) % fpModulus + k) = curveValue (x + (k + 1)) := by
  have hmod : ((x + 1) % fpModulus + k) % fpModulus = (x + (k + 1)) % fpModulus := by
    rw [Nat.mod_add_mod, Nat.add_assoc, Nat.add_comm 1 k]
  rw [← curveValue_mod, hmod, curveValue_mod]

theorem curveValue_lt (x : Nat) : curveValue x < fpModulus := Nat.mod_lt _ (by decide)

theorem curveValue_eq (x : Nat) : curveValue x = (x ^ 3 + 3) % fpModulus := by
  rw [curveValue, Nat.mod_add_mod]

/-- A property of residues that some residue has is met from everywhere in less than a round. -/
theorem exists_first_offset {n : Nat} {P : Nat → Prop} {r : Nat} (hr : r < n) (hP : P r) (x : Nat) :
    ∃ k < n, P ((x + k) % n) ∧ ∀ j < k, ¬ P ((x + j) % n) := by
  classical
  have hpos : 0 < n := lt_of_le_of_lt (Nat.zero_le r) hr
  have hmet : P ((x + (r + (n - x % n)) % n) % n) := by
    have hx := Nat.mod_lt x hpos
    have hround : (x + (r + (n - x % n))) % n = r := by
      have hsum : x + (r + (n - x % n)) = r + n * (x / n + 1) := by
        have hdiv := Nat.div_add_mod x n
        rw [Nat.mul_add, Nat.mul_one]
        omega
      rw [hsum, Nat.add_mul_mod_self_left, Nat.mod_eq_of_lt hr]
    rw [Nat.add_mod_mod, hround]
    exact hP
  have hex : ∃ k, P ((x + k) % n) := ⟨_, hmet⟩
  refine ⟨Nat.find hex, ?_, Nat.find_spec hex, fun j hj => Nat.find_min hex hj⟩
  exact lt_of_le_of_lt (Nat.find_min' hex hmet) (Nat.mod_lt _ hpos)

section
variable {c : Curve}

theorem mapToCurveFrom_eq {k tries x y : Nat} (hk : k < tries)
    (hnone : ∀ j < k, c.modSqrt (curveValue (x + j)) = none)
    (hsome : c.modSqrt (curveValue (x + k)) = some y) :
    mapToCurveFrom c tries x = some ⟨Fin.ofNat fpModulus (x + k), Fin.ofNat fpModulus y⟩ := by
  induction k generalizing tries x with
  | zero =>
    obtain ⟨tries, rfl⟩ := Nat.exists_eq_add_of_lt hk
    have hhit : c.modSqrt ((x ^ 3 % fpModulus + 3) % fpModulus) = some y := hsome
    rw [Nat.zero_add, mapToCurveFrom, hhit]
    rfl
  | succ k ih =>
    obtain ⟨tries, rfl⟩ := Nat.exists_eq_add_of_lt (Nat.zero_lt_of_lt hk)
    have hfirst : c.modSqrt ((x ^ 3 % fpModulus + 3) % fpModulus) = none := hnone 0 (Nat.succ_pos k)
    rw [Nat.zero_add, mapToCurveFrom, hfirst]
    have hrest : mapToCurveFrom c tries ((x + 1) % fpModulus) =
        some ⟨Fin.ofNat fpModulus ((x + 1) % fpModulus + k), Fin.ofNat fpModulus y⟩ := by
      apply ih
      · omega
      · intro j hj
        rw [curveValue_add]
        exact hnone (j + 1) (Nat.succ_lt_succ hj)
      · rw [curveValue_add]
        exact hsome
    have hx : Fin.ofNat fpModulus ((x + 1) % fpModulus + k) = Fin.ofNat fpModulus
        (x + (k + 1)) := by
      apply Fin.ext
      simp only [Fin.ofNat_eq_cast, Fin.val_natCast]
      rw [Nat.mod_add_mod, Nat.add_assoc, Nat.add_comm 1 k]
    simp only [hrest, hx]

theorem modSqrt_isSome (h : c.SqrtLaw) (x : Nat) : (∃ y, c.modSqrt (curveValue x) = some y) ↔
    ∃ y, y ^ 2 % fpModulus = (x ^ 3 + 3) % fpModulus := by
  rw [← curveValue_eq]
  have hlt := Nat.mod_eq_of_lt (curveValue_lt x)
  constructor
  · rintro ⟨y, hy⟩
    exact ⟨y, (h.sound _ _ hy).trans hlt⟩
  · rintro ⟨y, hy⟩
    cases hsqrt : c.modSqrt (curveValue x) with
    | none => exact absurd (hy.trans hlt.symm) (h.complete _ hsqrt y)
    | some y' => exact ⟨y', rfl⟩

/-- From every digest the search ends, at a point of the curve whose first coordinate is the
first one at or after the digest: after `k` steps, none of the numbers before it is one, and
with more than `k` steps the search finds it. -/
theorem mapToCurve_finds_first (c : Curve) (h : c.SqrtLaw) (digest : Bytes) :
    ∃ k point, k < fpModulus ∧ point.x.val = (beToNat digest + k) % fpModulus ∧
      point.y.val ^ 2 % fpModulus = (point.x.val ^ 3 + 3) % fpModulus ∧
      (∀ j < k, ∀ y, y ^ 2 % fpModulus ≠ (((beToNat digest + j) % fpModulus) ^ 3 + 3) % fpModulus) ∧
      (∀ tries, k < tries → mapToCurveFrom c tries (beToNat digest) = some point) ∧
      mapToCurve c digest = some point := by
  have hone : (1 : Nat) < fpModulus := by decide
  have hfour : ∃ y, y ^ 2 % fpModulus = (1 ^ 3 + 3) % fpModulus := ⟨2, rfl⟩
  obtain ⟨k, hk, hhit, hfirst⟩ := exists_first_offset
    (P := fun r => ∃ y, y ^ 2 % fpModulus = (r ^ 3 + 3) % fpModulus) hone hfour (beToNat digest)
  obtain ⟨y, hy⟩ := (modSqrt_isSome h _).mpr hhit
  rw [curveValue_mod] at hy
  have hnone : ∀ j < k, c.modSqrt (curveValue (beToNat digest + j)) = none := by
    intro j hj
    rw [← curveValue_mod]
    cases hsqrt : c.modSqrt (curveValue ((beToNat digest + j) % fpModulus)) with
    | none => rfl
    | some y => exact absurd ((modSqrt_isSome h _).mp ⟨y, hsqrt⟩) (hfirst j hj)
  have hfrom : ∀ tries, k < tries → mapToCurveFrom c tries (beToNat digest) =
      some ⟨Fin.ofNat fpModulus (beToNat digest + k), Fin.ofNat fpModulus y⟩ :=
    fun tries htries => mapToCurveFrom_eq htries hnone hy
  refine ⟨k, _, hk, ?_, ?_, fun j hj y he => hfirst j hj ⟨y, he⟩, hfrom, hfrom fpModulus hk⟩
  · simp only [Fin.ofNat_eq_cast, Fin.val_natCast]
  · have hsquare := h.sound _ _ hy
    simp only [Fin.ofNat_eq_cast, Fin.val_natCast]
    rw [← Nat.pow_mod, hsquare, Nat.mod_eq_of_lt (curveValue_lt _), ← curveValue_mod, curveValue_eq]

end

def rootBelow (n : Nat) : Nat → Option Nat
  | 0 => none
  | y + 1 => if y ^ 2 % fpModulus = n % fpModulus then some y else rootBelow n y

theorem rootBelow_sound {n y : Nat} {bound : Nat} (h : rootBelow n bound = some y) :
    y ^ 2 % fpModulus = n % fpModulus := by
  induction bound with
  | zero => cases h
  | succ z ih =>
    rw [rootBelow] at h
    by_cases hz : z ^ 2 % fpModulus = n % fpModulus
    · rw [if_pos hz, Option.some.injEq] at h
      rwa [← h]
    · rw [if_neg hz] at h
      exact ih h

theorem rootBelow_complete {n y : Nat} {bound : Nat} (h : rootBelow n bound = none)
    (hy : y < bound) :
    y ^ 2 % fpModulus ≠ n % fpModulus := by
  induction bound with
  | zero => cases hy
  | succ z ih =>
    rw [rootBelow] at h
    by_cases hz : z ^ 2 % fpModulus = n % fpModulus
    · rw [if_pos hz] at h
      cases h
    · rw [if_neg hz] at h
      rcases Nat.lt_succ_iff_lt_or_eq.mp hy with hlt | rfl
      · exact ih h hlt
      · exact hz

def triedCurve : Curve where
  keccak256 _ := []
  modSqrt n := rootBelow n fpModulus
  add p _ := p
  scalarMultiplication p _ := p
  neg q := q
  pairingCheck _ _ := none

theorem triedCurve_sqrt : triedCurve.SqrtLaw := by
  refine ⟨fun n y h => rootBelow_sound h, fun n h y => ?_⟩
  rw [Nat.pow_mod]
  exact rootBelow_complete h (Nat.mod_lt y (by decide))

theorem mapToCurve_finds_first_from_zero :
    ∃ point, mapToCurve triedCurve (List.replicate 32 0) = some point ∧
    point.y.val ^ 2 % fpModulus = (point.x.val ^ 3 + 3) % fpModulus := by
  obtain ⟨_, point, _, _, hcurve, _, _, hpoint⟩ :=
    mapToCurve_finds_first triedCurve triedCurve_sqrt (List.replicate 32 0)
  exact ⟨point, hpoint, hcurve⟩

end ZgChain.Bn254util
