import Mathlib.Algebra.BigOperators.Group.Finset.Basic
import ZgChain.Dasigners.SeatSound

/-!
# The aggregate key of a bitmap

The rows are walked once. A signer is added at its first row that is set, so the key is
the sum over the signers that own such a row, each of them once. The count goes up
with every row from that one on. A row of the same signer that comes before it and is not
set is not counted.
-/

namespace ZgChain.Dasigners.Query

open Bn254util

/-! ## Rows and bits -/

def bitSet (quorumBitmap : Bytes) (i : Nat) : Bool :=
  quorumBitmap[i / 8]?.any fun b => b.val.testBit (i % 8)

theorem rowBit_eq {bitmap : Bytes} {i : Nat} (h : i / 8 < bitmap.length) :
    rowBit bitmap i = .ok (bitSet bitmap i) := by
  rw [rowBit, bitSet, List.getElem?_eq_getElem h]
  rfl

def rowSigner (quorum : Quorum) (i : Nat) : Option Bytes := quorum[i]?.bind decodeHex

def selectedBefore (quorum : Quorum) (bitmap : Bytes) (n : Nat) : Finset Bytes :=
  ((List.range n).filterMap fun i => if bitSet bitmap i then rowSigner quorum i else none).toFinset

def selectedSigners (quorum : Quorum) (bitmap : Bytes) : Finset Bytes :=
  selectedBefore quorum bitmap quorum.length

def selectedRows (quorum : Quorum) (bitmap : Bytes) : Finset Nat :=
  (Finset.range quorum.length).filter fun i => ∃ key ∈ selectedSigners quorum bitmap,
    rowSigner quorum i = some key

/-- The row is set or comes after one that is, with the same text for its account. -/
def Counted (quorum : Quorum) (bitmap : Bytes) (i : Nat) : Prop :=
  ∃ j ∈ Finset.range (i + 1), quorum[j]? = quorum[i]? ∧ bitSet bitmap j = true

instance decidableCounted (quorum : Quorum) (bitmap : Bytes) (i : Nat) :
    Decidable (Counted quorum bitmap i) :=
  inferInstanceAs (Decidable (∃ j ∈ Finset.range (i + 1), quorum[j]? = quorum[i]? ∧
    bitSet bitmap j = true))

def pubkeyOf (s : State) (key : Bytes) : Option G1Affine :=
  (s.signers.get key).bind fun signer => deserializeG1 signer.pubkeyG1

section
variable {quorum : Quorum} {bitmap : Bytes}

theorem mem_selectedBefore {n : Nat} {key : Bytes} : key ∈ selectedBefore quorum bitmap n ↔
    ∃ i < n, bitSet bitmap i = true ∧ rowSigner quorum i = some key := by
  simp only [selectedBefore, List.mem_toFinset, List.mem_filterMap, List.mem_range,
    Option.ite_none_right_eq_some]

theorem mem_selectedSigners {key : Bytes} : key ∈ selectedSigners quorum bitmap ↔
    ∃ i, bitSet bitmap i = true ∧ rowSigner quorum i = some key := by
  rw [selectedSigners, mem_selectedBefore]
  constructor
  · intro h
    obtain ⟨i, _, h⟩ := h
    exact ⟨i, h⟩
  · intro h
    obtain ⟨i, hbit, hrow⟩ := h
    obtain ⟨account, ha, _⟩ := Option.bind_eq_some_iff.mp hrow
    obtain ⟨hi, _⟩ := List.getElem?_eq_some_iff.mp ha
    exact ⟨i, hi, hbit, hrow⟩

theorem selectedBefore_succ_of_set {i : Nat} {key : Bytes} (hbit : bitSet bitmap i = true)
    (hrow : rowSigner quorum i = some key) :
    selectedBefore quorum bitmap (i + 1) = insert key (selectedBefore quorum bitmap i) := by
  ext key'
  simp only [Finset.mem_insert, mem_selectedBefore, Nat.lt_succ_iff_lt_or_eq, or_and_right,
    exists_or, exists_eq_left, hbit, hrow, true_and, Option.some.injEq]
  rw [or_comm, eq_comm]

theorem selectedBefore_succ_of_unset {i : Nat} (hbit : bitSet bitmap i = false) :
    selectedBefore quorum bitmap (i + 1) = selectedBefore quorum bitmap i := by
  ext key'
  simp only [mem_selectedBefore, Nat.lt_succ_iff_lt_or_eq, or_and_right, exists_or, exists_eq_left,
    hbit, Bool.false_eq_true, false_and, or_false]

end

/-! ## The walk over the rows -/

section
variable {env : Env} {s : State} {quorum : Quorum} {bitmap : Bytes}

theorem addRow_cases {i : Nat} {acc acc' : Aggregate} {account : String}
    (hi : i / 8 < bitmap.length) (h : addRow env s bitmap i acc account = .ok acc') :
    (account ∈ acc.added ∧ acc' = { acc with hit := acc.hit + 1 }) ∨
    (account ∉ acc.added ∧ bitSet bitmap i = false ∧ acc' = acc) ∨
    (account ∉ acc.added ∧ bitSet bitmap i = true ∧ ∃ key pubkeyG1, decodeHex account = some key ∧
      pubkeyOf s key = some pubkeyG1 ∧
      acc' = ⟨env.curve.add acc.pubkeyG1 pubkeyG1, acc.hit + 1, account :: acc.added⟩) := by
  unfold addRow at h
  split at h
  · rename_i hadded
    cases h
    exact .inl ⟨hadded, rfl⟩
  · rename_i hadded
    rw [rowBit_eq hi, ok_bind] at h
    split at h
    · rename_i hbit
      cases h
      exact .inr (.inl ⟨hadded, hbit, rfl⟩)
    · rename_i hbit
      simp only [addKey, bind_eq_ok, orReject_eq_ok, pure_eq_ok] at h
      obtain ⟨_, hs, signer, rfl, pubkeyG1, hp, rfl⟩ := h
      obtain ⟨key, hkey, hget⟩ := getSigner_ok.mp hs
      refine .inr (.inr ⟨hadded, Bool.eq_true_of_not_eq_false hbit, key, pubkeyG1, hkey, ?_, rfl⟩)
      rw [pubkeyOf, hget]
      exact hp

/-- What holds before the first row and is kept by each of them holds after the last one. -/
theorem addRows_rule {P : Nat → Aggregate → Prop}
    (hstep : ∀ i account acc acc', quorum[i]? = some account →
      addRow env s bitmap i acc account = .ok acc' →
      P i acc → P (i + 1) acc')
    {rest : Quorum} {i : Nat} {acc acc' : Aggregate} (hrest : quorum.drop i = rest)
    (h : addRows env s bitmap i acc rest = .ok acc') (hi : i ≤ quorum.length) (hP : P i acc) :
    P quorum.length acc' := by
  induction rest generalizing i acc with
  | nil =>
    cases h
    have hlen := congrArg List.length hrest
    rw [List.length_drop, List.length_nil] at hlen
    rwa [show quorum.length = i by omega]
  | cons account rest ih =>
    rw [addRows, bind_eq_ok] at h
    obtain ⟨acc₁, hrow, h⟩ := h
    have hlen := congrArg List.length hrest
    rw [List.length_drop, List.length_cons] at hlen
    have haccount : quorum[i]? = some account := by
      have hhead := congrArg (·[0]?) hrest
      simpa using hhead
    have htail : quorum.drop (i + 1) = rest := by
      rw [← List.drop_drop, hrest, List.drop_one, List.tail_cons]
    exact ih htail h (by omega) (hstep i account acc acc₁ haccount hrow hP)

/-- After the first `i` rows: the accounts that were added, and the rows that were counted. -/
structure Walked (quorum : Quorum) (bitmap : Bytes) (i : Nat) (acc : Aggregate) : Prop where
  added : ∀ account, account ∈ acc.added ↔ ∃ j < i, quorum[j]? = some account ∧
    bitSet bitmap j = true
  hit : acc.hit = ((Finset.range i).filter (Counted quorum bitmap)).card

theorem counted_iff (bitmap : Bytes) {i : Nat} {account : String} (h : quorum[i]? = some account) :
    Counted quorum bitmap i ↔ bitSet bitmap i = true ∨ ∃ j < i, quorum[j]? = some account ∧
    bitSet bitmap j = true := by
  simp only [Counted, Finset.mem_range, Nat.lt_succ_iff_lt_or_eq, h, or_and_right, exists_or,
    exists_eq_left, true_and]
  rw [or_comm]

theorem card_counted_succ_of_pos {i : Nat} (h : Counted quorum bitmap i) :
    ((Finset.range (i + 1)).filter (Counted quorum bitmap)).card =
      ((Finset.range i).filter (Counted quorum bitmap)).card + 1 := by
  rw [Finset.range_add_one, Finset.filter_insert, if_pos h, Finset.card_insert_of_notMem]
  simp

theorem card_counted_succ_of_neg {i : Nat} (h : ¬ Counted quorum bitmap i) :
    ((Finset.range (i + 1)).filter (Counted quorum bitmap)).card =
      ((Finset.range i).filter (Counted quorum bitmap)).card := by
  rw [Finset.range_add_one, Finset.filter_insert, if_neg h]

theorem Walked.row {i : Nat} {account : String} {acc acc' : Aggregate}
    (hw : Walked quorum bitmap i acc) (ha : quorum[i]? = some account) (hi : i / 8 < bitmap.length)
    (h : addRow env s bitmap i acc account = .ok acc') :
    Walked quorum bitmap (i + 1) acc' := by
  have hcounted := counted_iff bitmap ha
  rw [← hw.added] at hcounted
  -- a row adds its account if it is set, and that account may be there already
  have hsucc : ∀ a, (∃ j < i + 1, quorum[j]? = some a ∧ bitSet bitmap j = true) ↔
      a ∈ acc.added ∨ (account = a ∧ bitSet bitmap i = true) := by
    intro a
    simp only [Nat.lt_succ_iff_lt_or_eq, or_and_right, exists_or, exists_eq_left, ha,
      Option.some.injEq, hw.added]
  rcases addRow_cases hi h
    with ⟨hadded, rfl⟩ | ⟨hadded, hbit, rfl⟩ | ⟨hadded, hbit, _, _, _, _, rfl⟩
  · constructor
    · intro a
      rw [hsucc]
      constructor
      · exact .inl
      · intro ha
        obtain ha | ⟨rfl, _⟩ := ha
        · exact ha
        · exact hadded
    · rw [card_counted_succ_of_pos (hcounted.mpr (.inr hadded)), ← hw.hit]
  · constructor
    · intro a
      rw [hsucc, hbit]
      simp
    · rw [card_counted_succ_of_neg, hw.hit]
      rw [hcounted, hbit]
      simpa using hadded
  · constructor
    · intro a
      rw [hsucc, List.mem_cons, or_comm, hbit, eq_comm]
      simp
    · rw [card_counted_succ_of_pos (hcounted.mpr (.inl hbit)), ← hw.hit]

theorem addRows_walked {acc : Aggregate} (hl : (quorum.length + 7) / 8 = bitmap.length)
    (h : addRows env s bitmap 0 ⟨⟨0, 0⟩, 0, []⟩ quorum = .ok acc) :
    Walked quorum bitmap quorum.length acc := by
  refine addRows_rule (fun i account acc acc' ha hrow hw => ?_) rfl h (Nat.zero_le _) ⟨by simp, rfl⟩
  obtain ⟨hi, _⟩ := List.getElem?_eq_some_iff.mp ha
  exact hw.row ha (by omega) hrow

/-! ## The key -/

/-- The points that stand for the elements of a commutative group. -/
structure PointGroup (c : Curve) (A : Type) [AddCommGroup A] where
  point : A → G1Affine
  zero : point 0 = ⟨0, 0⟩
  add : ∀ a b, c.add (point a) (point b) = point (a + b)

section
variable {A : Type} [AddCommGroup A] {elem : Bytes → A}

/-- Accounts that are written alike are those of one signer, and only those. -/
def LowerHex (quorum : Quorum) : Prop := ∀ account ∈ quorum, ∃ key, account = encodeHex key

theorem LowerHex.row {i : Nat} {account : String} {key : Bytes} (h : LowerHex quorum)
    (ha : quorum[i]? = some account)
    (hkey : decodeHex account = some key) : account = encodeHex key := by
  obtain ⟨key', rfl⟩ := h account (List.mem_of_getElem? ha)
  rw [decodeHex_encodeHex, Option.some.injEq] at hkey
  rw [hkey]

theorem LowerHex.selected_iff (hlow : LowerHex quorum) {i : Nat} {acc : Aggregate}
    (hw : Walked quorum bitmap i acc)
    (key : Bytes) : key ∈ selectedBefore quorum bitmap i ↔ encodeHex key ∈ acc.added := by
  rw [mem_selectedBefore, hw.added]
  constructor
  · intro h
    obtain ⟨j, hj, hbit, hrow⟩ := h
    obtain ⟨account, ha, hkey⟩ := Option.bind_eq_some_iff.mp hrow
    exact ⟨j, hj, hlow.row ha hkey ▸ ha, hbit⟩
  · intro h
    obtain ⟨j, hj, ha, hbit⟩ := h
    refine ⟨j, hj, hbit, ?_⟩
    rw [rowSigner, ha]
    exact decodeHex_encodeHex key

theorem Walked.key_row (P : PointGroup env.curve A) {i : Nat} {account : String}
    {acc acc' : Aggregate} (hlow : LowerHex quorum)
    (helem : ∀ i key, rowSigner quorum i = some key → pubkeyOf s key = some (P.point (elem key)))
    (hw : Walked quorum bitmap i acc) (ha : quorum[i]? = some account) (hi : i / 8 < bitmap.length)
    (h : addRow env s bitmap i acc account = .ok acc')
    (hsum : acc.pubkeyG1 = P.point (∑ key ∈ selectedBefore quorum bitmap i, elem key)) :
    acc'.pubkeyG1 = P.point (∑ key ∈ selectedBefore quorum bitmap (i + 1), elem key) := by
  obtain ⟨own, rfl⟩ := hlow account (List.mem_of_getElem? ha)
  have hrow : rowSigner quorum i = some own := by
    rw [rowSigner, ha]
    exact decodeHex_encodeHex own
  rcases addRow_cases hi h
    with ⟨hadded, rfl⟩ | ⟨_, hbit, rfl⟩ | ⟨hadded, hbit, key, pubkeyG1, hkey, hpub, rfl⟩
  · -- the signer is in the sum whether this row is set or not
    have hsame : selectedBefore quorum bitmap (i + 1) = selectedBefore quorum bitmap i := by
      by_cases hbit : bitSet bitmap i = true
      · rw [selectedBefore_succ_of_set hbit hrow]
        exact Finset.insert_eq_of_mem ((hlow.selected_iff hw own).mpr hadded)
      · exact selectedBefore_succ_of_unset (Bool.eq_false_of_not_eq_true hbit)
    rw [hsame]
    exact hsum
  · rw [selectedBefore_succ_of_unset hbit]
    exact hsum
  · rw [decodeHex_encodeHex, Option.some.injEq] at hkey
    subst hkey
    have hnew : own ∉ selectedBefore quorum bitmap i :=
      fun hmem => hadded ((hlow.selected_iff hw own).mp hmem)
    have hpoint : pubkeyG1 = P.point (elem own) :=
      Option.some.inj (hpub.symm.trans (helem i own hrow))
    have hadd : P.point (elem own + ∑ key ∈ selectedBefore quorum bitmap i, elem key) =
        env.curve.add acc.pubkeyG1 pubkeyG1 := by
      rw [add_comm, ← P.add, ← hsum, ← hpoint]
    rw [selectedBefore_succ_of_set hbit hrow, Finset.sum_insert hnew, hadd]

theorem addRows_key (P : PointGroup env.curve A) {acc : Aggregate} (hlow : LowerHex quorum)
    (helem : ∀ i key, rowSigner quorum i = some key → pubkeyOf s key = some (P.point (elem key)))
    (hl : (quorum.length + 7) / 8 = bitmap.length)
    (h : addRows env s bitmap 0 ⟨⟨0, 0⟩, 0, []⟩ quorum = .ok acc) :
    acc.pubkeyG1 = P.point (∑ key ∈ selectedSigners quorum bitmap, elem key) := by
  have hboth : Walked quorum bitmap quorum.length acc ∧
      acc.pubkeyG1 = P.point (∑ key ∈ selectedBefore quorum bitmap quorum.length, elem key) := by
    refine addRows_rule (P := fun i acc => Walked quorum bitmap i acc ∧
      acc.pubkeyG1 = P.point (∑ key ∈ selectedBefore quorum bitmap i, elem key))
      (fun i account acc acc' ha hrow hw => ?_) rfl h (Nat.zero_le _) ⟨⟨by simp, rfl⟩, P.zero.symm⟩
    obtain ⟨hi, _⟩ := List.getElem?_eq_some_iff.mp ha
    have hbyte : i / 8 < bitmap.length := by omega
    exact ⟨hw.1.row ha hbyte hrow, hw.1.key_row P hlow helem ha hbyte hrow hw.2⟩
  exact hboth.2

end

end

/-! ## Quorums of a block -/

section
variable {abi : Precompile.Abi} {env : Env} {gs : GenesisState} {s₀ : State}
  {epoch quorumId : UInt64} {quorum : Quorum}

theorem aggregatePubkeyG1_returns (h₀ : initGenesis gs = .ok s₀) (ops : List Op)
    (hq : getEpochQuorum (run abi env s₀ ops) epoch quorumId = .ok quorum) {bitmap : Bytes}
    (hl : (quorum.length + 7) / 8 = bitmap.length) :
    ∃ acc, addRows env (run abi env s₀ ops) bitmap 0 ⟨⟨0, 0⟩, 0, []⟩ quorum = .ok acc ∧
      aggregatePubkeyG1 env (run abi env s₀ ops) epoch quorumId bitmap =
        .ok ⟨serializeG1 acc.pubkeyG1, UInt64.ofNat quorum.length, UInt64.ofNat acc.hit⟩ := by
  obtain ⟨_, _, _, hstored⟩ := getEpochQuorum_ok.mp hq
  have hbits : ∀ j < quorum.length, (0 + j) / 8 < bitmap.length := by
    intro j hj
    omega
  obtain ⟨acc, hacc⟩ := addRows_returns env ⟨⟨0, 0⟩, 0, []⟩ (signersValid_run h₀ ops)
    (seated_run h₀ ops _ quorum hstored) hbits
  exact ⟨acc, hacc, aggregatePubkeyG1_ok.mpr ⟨quorum, acc, hq, hl, hacc, rfl⟩⟩

/-- A quorum that a block stored has its accounts in lower case, and the number of its rows
is a number of the code. For every bitmap of the right length no row is read outside of it,
and the key is the sum over the signers with a row that is set. So it only depends on these
signers. -/
theorem aggregate_key_is_sum (abi : Precompile.Abi) (env : Env) (h₀ : initGenesis gs = .ok s₀)
    (ops : List Op) (hlt : gs.epochNumber < epoch)
    (hq : getEpochQuorum (run abi env s₀ ops) epoch quorumId = .ok quorum)
    {A : Type} [AddCommGroup A] (P : PointGroup env.curve A) (elem : Bytes → A)
    (helem : ∀ i key, rowSigner quorum i = some key →
      pubkeyOf (run abi env s₀ ops) key = some (P.point (elem key))) :
    LowerHex quorum ∧
    (∀ bitmap, (quorum.length + 7) / 8 = bitmap.length →
      (∀ i < quorum.length, i / 8 < bitmap.length) ∧
      ∃ r, aggregatePubkeyG1 env (run abi env s₀ ops) epoch quorumId bitmap = .ok r ∧
        r.total.toNat = quorum.length ∧
        r.aggregatePubkeyG1 =
          serializeG1 (P.point (∑ key ∈ selectedSigners quorum bitmap, elem key))) ∧
    ∀ bitmap bitmap' r r',
      aggregatePubkeyG1 env (run abi env s₀ ops) epoch quorumId bitmap = .ok r →
      aggregatePubkeyG1 env (run abi env s₀ ops) epoch quorumId bitmap' = .ok r' →
      selectedSigners quorum bitmap = selectedSigners quorum bitmap' →
      r.aggregatePubkeyG1 = r'.aggregatePubkeyG1 := by
  obtain ⟨before, _, ctx, _, hdrawn⟩ := drawn_of_stored h₀ ops hlt hq
  have hlow : LowerHex quorum := by
    intro account ha
    obtain ⟨key, _, hkey, _⟩ := hdrawn.seat ha
    exact ⟨key, hkey⟩
  have hlen : quorum.length < 2 ^ 64 := by
    obtain ⟨_, _, _, hselect, hmem⟩ := hdrawn
    exact lt_of_le_of_lt (selectQuorums_rows_le hselect hmem) (UInt64.toNat_lt _)
  have hkey : ∀ bitmap r, aggregatePubkeyG1 env (run abi env s₀ ops) epoch quorumId bitmap = .ok r →
      r.aggregatePubkeyG1 =
        serializeG1 (P.point (∑ key ∈ selectedSigners quorum bitmap, elem key)) := by
    intro bitmap r h
    obtain ⟨quorum', acc, hq', hl, hacc, rfl⟩ := aggregatePubkeyG1_ok.mp h
    cases hq.symm.trans hq'
    exact congrArg serializeG1 (addRows_key P hlow helem hl hacc)
  refine ⟨hlow, fun bitmap hl => ⟨fun i hi => by omega, ?_⟩,
    fun bitmap bitmap' r r' h h' hsame => ?_⟩
  · obtain ⟨acc, _, h⟩ := aggregatePubkeyG1_returns h₀ ops hq hl
    refine ⟨_, h, ?_, hkey bitmap _ h⟩
    rw [UInt64.toNat_ofNat', Nat.mod_eq_of_lt hlen]
  · rw [hkey bitmap r h, hkey bitmap' r' h', hsame]

end

def plainPoints : PointGroup plainEnv.curve (Fp × Fp) where
  point a := ⟨a.1, a.2⟩
  zero := rfl
  add _ _ := rfl

theorem aggregate_key_is_sum_once :
    ∃ r, aggregatePubkeyG1 plainEnv (run sampleAbi plainEnv shortState shortOps) 1 0 [5] = .ok r ∧
      r.total.toNat = 3 ∧
      r.aggregatePubkeyG1 = serializeG1 getG1Generator := by
  have hrun : getEpochQuorum (run sampleAbi plainEnv shortState shortOps) 1 0 =
        .ok (List.replicate 3 (encodeHex sampleAccount)) ∧
      pubkeyOf (run sampleAbi plainEnv shortState shortOps) sampleAccount = some getG1Generator ∧
      shortGenesis.epochNumber < 1 ∧
      selectedSigners (List.replicate 3 (encodeHex sampleAccount)) [5] = {sampleAccount} := by
    decide +kernel
  obtain ⟨hq, hpub, hlt, hselected⟩ := hrun
  obtain ⟨_, hreturns, _⟩ :=
    aggregate_key_is_sum sampleAbi plainEnv initGenesis_shortState shortOps hlt hq plainPoints
    (fun _ => (1, 2)) (by
      intro i key hrow
      obtain ⟨account, ha, hkey⟩ := Option.bind_eq_some_iff.mp hrow
      rw [List.eq_of_mem_replicate (List.mem_of_getElem? ha), decodeHex_encodeHex,
        Option.some.injEq] at hkey
      rw [← hkey]
      exact hpub)
  obtain ⟨_, r, hr, htotal, hkey⟩ := hreturns [5] rfl
  refine ⟨r, hr, htotal, ?_⟩
  rw [hkey, hselected, Finset.sum_singleton]
  rfl

/-! ## The count -/

section
variable {gs : GenesisState} {s₀ : State} {epoch quorumId : UInt64} {quorum : Quorum}

theorem Counted.selected {s : State} {bitmap : Bytes} {i : Nat}
    (hs : ∀ account ∈ quorum, HasSigner s account)
    (hi : i < quorum.length) (h : Counted quorum bitmap i) : i ∈ selectedRows quorum bitmap := by
  obtain ⟨j, _, hsame, hbit⟩ := h
  have ha : quorum[i]? = some quorum[i] := List.getElem?_eq_getElem hi
  obtain ⟨_, hsigner⟩ := hs quorum[i] (List.getElem_mem hi)
  obtain ⟨key, hkey, _⟩ := getSigner_ok.mp hsigner
  have hrow : rowSigner quorum i = some key := by
    rw [rowSigner, ha]
    exact hkey
  have hrow' : rowSigner quorum j = some key := by
    rw [rowSigner, hsame, ha]
    exact hkey
  exact Finset.mem_filter.mpr
    ⟨Finset.mem_range.mpr hi, key, mem_selectedSigners.mpr ⟨j, hbit, hrow'⟩, hrow⟩

theorem hit_eq_card {env : Env} {s : State} {bitmap : Bytes} {r : AggregatePubkeyG1Response}
    (hq : getEpochQuorum s epoch quorumId = .ok quorum) (hlen : quorum.length < 2 ^ 64)
    (h : aggregatePubkeyG1 env s epoch quorumId bitmap = .ok r) :
    r.hit.toNat = ((Finset.range quorum.length).filter (Counted quorum bitmap)).card := by
  obtain ⟨quorum', acc, hq', hl, hacc, rfl⟩ := aggregatePubkeyG1_ok.mp h
  cases hq.symm.trans hq'
  have hcard := Finset.card_filter_le (Finset.range quorum.length) (Counted quorum bitmap)
  rw [Finset.card_range] at hcard
  rw [UInt64.toNat_ofNat', (addRows_walked hl hacc).hit,
    Nat.mod_eq_of_lt (lt_of_le_of_lt hcard hlen)]

theorem card_counted_eq_iff {s : State} {bitmap : Bytes}
    (hs : ∀ account ∈ quorum, HasSigner s account) :
    ((Finset.range quorum.length).filter (Counted quorum bitmap)).card =
      (selectedRows quorum bitmap).card ↔
      ∀ i ∈ selectedRows quorum bitmap, Counted quorum bitmap i := by
  have hsub : (Finset.range quorum.length).filter (Counted quorum bitmap) ⊆
      selectedRows quorum bitmap := by
    intro i hi
    obtain ⟨hi, hc⟩ := Finset.mem_filter.mp hi
    exact hc.selected hs (Finset.mem_range.mp hi)
  constructor
  · intro heq i hi
    rw [← Finset.eq_of_subset_of_card_le hsub heq.ge] at hi
    exact (Finset.mem_filter.mp hi).2
  · intro hall
    refine congrArg Finset.card (Finset.Subset.antisymm hsub fun i hi => ?_)
    exact Finset.mem_filter.mpr ⟨(Finset.mem_filter.mp hi).1, hall i hi⟩

/-- The count is the number of rows of the selected signers exactly if each of these rows is set or
comes after one that is, with the same text for its account. Under that condition bitmaps that
select the same signers give the same count. -/
theorem hit_counts_selected_rows_iff (abi : Precompile.Abi) (env : Env)
    (h₀ : initGenesis gs = .ok s₀) (ops : List Op)
    (hq : getEpochQuorum (run abi env s₀ ops) epoch quorumId = .ok quorum)
    (hlen : quorum.length < 2 ^ 64) :
    (∀ bitmap, (quorum.length + 7) / 8 = bitmap.length →
      ∃ r, aggregatePubkeyG1 env (run abi env s₀ ops) epoch quorumId bitmap = .ok r ∧
        (r.hit.toNat = (selectedRows quorum bitmap).card ↔
          ∀ i ∈ selectedRows quorum bitmap, Counted quorum bitmap i)) ∧
    ∀ bitmap bitmap' r r',
      aggregatePubkeyG1 env (run abi env s₀ ops) epoch quorumId bitmap = .ok r →
      aggregatePubkeyG1 env (run abi env s₀ ops) epoch quorumId bitmap' = .ok r' →
      (∀ i ∈ selectedRows quorum bitmap, Counted quorum bitmap i) →
      (∀ i ∈ selectedRows quorum bitmap', Counted quorum bitmap' i) →
      selectedSigners quorum bitmap = selectedSigners quorum bitmap' → r.hit = r'.hit := by
  have hseats : ∀ account ∈ quorum, HasSigner (run abi env s₀ ops) account := by
    obtain ⟨_, _, _, hstored⟩ := getEpochQuorum_ok.mp hq
    exact seated_run h₀ ops _ quorum hstored
  have hcount : ∀ bitmap r,
      aggregatePubkeyG1 env (run abi env s₀ ops) epoch quorumId bitmap = .ok r →
      (r.hit.toNat = (selectedRows quorum bitmap).card ↔
        ∀ i ∈ selectedRows quorum bitmap, Counted quorum bitmap i) := by
    intro bitmap r h
    rw [hit_eq_card hq hlen h]
    exact card_counted_eq_iff hseats
  constructor
  · intro bitmap hl
    obtain ⟨acc, _, h⟩ := aggregatePubkeyG1_returns h₀ ops hq hl
    exact ⟨_, h, hcount bitmap _ h⟩
  · intro bitmap bitmap' r r' h h' hall hall' hsame
    have hrows : selectedRows quorum bitmap = selectedRows quorum bitmap' := by
      rw [selectedRows, hsame, selectedRows]
    apply UInt64.toNat_inj.mp
    rw [(hcount bitmap r h).mpr hall, (hcount bitmap' r' h').mpr hall', hrows]

end

/-- The rows are all of one signer, and the first of them is set. -/
theorem hit_counts_selected_rows_first : ∃ r,
    aggregatePubkeyG1 sampleEnv (run sampleAbi sampleEnv shortState shortOps) 1 0 [5] = .ok r ∧
    r.hit.toNat = 3 := by
  have hcount := (hit_counts_selected_rows_iff sampleAbi sampleEnv initGenesis_shortState shortOps
    getEpochQuorum_shortOps (by decide)).1
  obtain ⟨r, hr, hiff⟩ := hcount [5] rfl
  refine ⟨r, hr, (hiff.mpr ?_).trans ?_⟩
  · decide +kernel
  · decide +kernel

/-- The last of the three rows is set; the two rows before are of the same signer. -/
theorem same_signers_fewer_hits :
    getEpochQuorum (run sampleAbi sampleEnv shortState shortOps) 1 0 =
      .ok (List.replicate 3 (encodeHex sampleAccount)) ∧
    selectedSigners (List.replicate 3 (encodeHex sampleAccount)) [4] = {sampleAccount} ∧
    selectedSigners (List.replicate 3 (encodeHex sampleAccount)) [1] = {sampleAccount} ∧
    (selectedRows (List.replicate 3 (encodeHex sampleAccount)) [4]).card = 3 ∧
    ∃ r, aggregatePubkeyG1 sampleEnv (run sampleAbi sampleEnv shortState shortOps) 1 0 [4] =
      .ok r ∧ r.hit = 1 ∧
      ∃ r', aggregatePubkeyG1 sampleEnv (run sampleAbi sampleEnv shortState shortOps) 1 0 [1] =
        .ok r' ∧ r'.hit = 3 ∧
        r'.aggregatePubkeyG1 = r.aggregatePubkeyG1 := by
  decide +kernel

end ZgChain.Dasigners.Query
