import ZgChain.Dasigners.QuorumSound
import ZgChain.Dasigners.SeatSound

/-!
# The rows of the quorums

The sorted ballots fill the rows of the quorums one after the other. Below the cap
every ballot gets a row, in the order of the ballots, so an account has at least as
many rows as it has ballots. A cap beyond the range of a signed number is negative
where it is compared, and then no whole quorum is made at all.
-/

namespace ZgChain.Dasigners

open Bn254util

/-! ## Rows -/

def row (quorums : Quorums) (q j : Nat) : Option String := quorums[q]?.bind fun quorum => quorum[j]?

def accountAt (ballots : List Ballot) (i : Nat) : Option String := (ballots.map Ballot.account)[i]?

structure Layout (slices cap : Nat) (ballots : List Ballot) (quorums : Quorums) : Prop where
  rows : ∀ quorum ∈ quorums, quorum.length = slices
  full : ∀ q j, q < quorums.length → (q + 1) * slices ≤ ballots.length → j < slices →
    row quorums q j = accountAt ballots (q * slices + j)
  cyclic : ballots.length < slices →
    quorums.length = 1 ∧ ∀ i, i < slices → row quorums 0 i = accountAt ballots (i % ballots.length)
  seated : quorums.length < cap → (ballots.map Ballot.account).Sublist quorums.flatten

section
variable {slices cap : Nat} {ballots : List Ballot}

theorem layout_cyclic (hn : 0 < ballots.length) (hfew : ballots.length < slices) :
    Layout slices cap ballots [cycled slices (ballots.map Ballot.account) ""] where
  rows := by
    intro quorum hq
    rw [List.mem_singleton.mp hq, length_cycled]
  full := by
    intro q j _ hq _
    rw [Nat.succ_mul] at hq
    omega
  cyclic := by
    intro _
    refine ⟨rfl, fun i hi => ?_⟩
    have hpos : 0 < (ballots.map Ballot.account).length := by rwa [List.length_map]
    have hget := getElem?_cycled hi hpos ""
    rw [List.length_map] at hget
    exact hget
  seated := by
    intro _
    rw [List.flatten_singleton]
    refine sublist_cycled ?_ ?_ ""
    · rw [List.length_map]
      omega
    · rwa [List.length_map]

theorem row_chunks_append {count q j : Nat} (hq : q < count) (hj : j < slices) (rest : Quorums) :
    row (chunks slices count (ballots.map Ballot.account) ++ rest) q j = accountAt ballots
      (q * slices + j) := by
  have hlt : q < (chunks slices count (ballots.map Ballot.account)).length := by rwa [length_chunks]
  rw [row, List.getElem?_append_left hlt, getElem?_chunks hq]
  exact getElem?_chunk _ q hj

theorem layout_chunks {count : Nat} {rest : Quorums} (hs : 0 < slices)
    (hmany : slices ≤ ballots.length) (hcount : count * slices ≤ ballots.length)
    (hrest : rest = [] ∨ ballots.length < (count + 1) * slices ∧
      rest = [(ballots.map Ballot.account).drop (ballots.length - slices)])
    (hall : (chunks slices count (ballots.map Ballot.account) ++ rest).length < cap →
      (ballots.map Ballot.account).Sublist
        (chunks slices count (ballots.map Ballot.account) ++ rest).flatten) :
    Layout slices cap ballots (chunks slices count (ballots.map Ballot.account) ++ rest) where
  rows := by
    intro quorum hq
    rcases List.mem_append.mp hq with hq | hq
    · obtain ⟨i, hi, rfl⟩ := List.mem_map.mp hq
      refine length_chunk ?_
      rw [List.length_map]
      exact le_trans (Nat.mul_le_mul_right slices (List.mem_range.mp hi)) hcount
    · rcases hrest with rfl | ⟨_, rfl⟩
      · cases hq
      · rw [List.mem_singleton.mp hq, List.length_drop, List.length_map]
        omega
  full := by
    intro q j hq hle hj
    refine row_chunks_append ?_ hj rest
    by_contra hnot
    -- the chunk of the last ballots is not a whole one
    have hmul : (count + 1) * slices ≤ (q + 1) * slices := Nat.mul_le_mul_right slices (by omega)
    rcases hrest with rfl | ⟨hlast, _⟩
    · rw [List.append_nil, length_chunks] at hq
      exact hnot hq
    · omega
  cyclic := by
    intro hfew
    omega
  seated := hall

theorem laidOut_layout (hs : 0 < slices) (hn : 0 < ballots.length) (cap : Nat) :
    Layout slices cap ballots (laidOut slices cap (ballots.map Ballot.account)) := by
  have hdiv := Nat.div_add_mod ballots.length slices
  have hmod := Nat.mod_lt ballots.length hs
  unfold laidOut
  rw [List.length_map]
  dsimp only
  rw [if_neg (by omega)]
  split
  · rename_i hfew
    exact layout_cyclic hn hfew
  · rename_i hmany
    have hcount : min (ballots.length / slices) (cap + 1) * slices ≤ ballots.length :=
      le_trans (Nat.mul_le_mul_right slices (Nat.min_le_left _ _)) (Nat.div_mul_le_self _ _)
    split
    · rename_i hleft
      have hfull : min (ballots.length / slices) (cap + 1) = ballots.length / slices := by omega
      rw [hfull] at hcount ⊢
      -- what is left over does not fill another quorum
      have hlast : ballots.length < (ballots.length / slices + 1) * slices := by
        rw [Nat.succ_mul, Nat.mul_comm]
        omega
      refine layout_chunks hs (by omega) hcount (.inr ⟨hlast, rfl⟩) fun _ => ?_
      have hlen : ballots.length = (ballots.map Ballot.account).length := (List.length_map _).symm
      rw [hlen] at hlast ⊢
      exact sublist_chunks_append_last (le_of_lt hlast)
    · rename_i hleft
      rw [← List.append_nil (chunks _ _ _)]
      refine layout_chunks hs (by omega) hcount (.inl rfl) fun hcap => ?_
      rw [List.append_nil, length_chunks] at hcap
      have hfull : min (ballots.length / slices) (cap + 1) = ballots.length / slices := by omega
      have hzero : ballots.length % slices = 0 := by
        by_contra hne
        exact hleft ⟨hne, hcap⟩
      have htake : ballots.length / slices * slices = (ballots.map Ballot.account).length := by
        rw [List.length_map, Nat.mul_comm]
        omega
      rw [List.append_nil, flatten_chunks, hfull, htake, List.take_length]

end

/-! ## Ballots of an account -/

theorem ballotNum_eq {p : Params} (hp : p.maxVotesPerSigner.toNat < 2 ^ 31) {num : Int}
    (hn : 0 ≤ num) :
    (ballotNum p num : Int) = min num p.maxVotesPerSigner.toNat := by
  rw [ballotNum, toInt_toInt64_of_lt (by omega)]
  split
  · omega
  · omega

section
variable {env : Env} {ctx : CallCtx} {s : State} {epoch : UInt64}

theorem iterateRegistrations_nodup (s : State) (epoch : UInt64) :
    ((iterateRegistrations s epoch).map Prod.fst).Nodup := by
  rw [iterateRegistrations, List.map_map, List.nodup_iff_pairwise_ne, List.pairwise_map]
  have hsorted := s.registrations.sorted.filter fun e => (beBytes 8 epoch.toNat).isPrefixOf e.1
  refine hsorted.imp_of_mem fun {a b} ha hb hlt e => ?_
  obtain ⟨key, hkey⟩ := List.isPrefixOf_iff_prefix.mp (List.mem_filter.mp ha).2
  obtain ⟨key', hkey'⟩ := List.isPrefixOf_iff_prefix.mp (List.mem_filter.mp hb).2
  have hdrop : encodeHex (a.1.drop 8) = encodeHex (b.1.drop 8) := e
  rw [← hkey, ← hkey', List.drop_left' (length_beBytes 8 epoch.toNat),
    List.drop_left' (length_beBytes 8 epoch.toNat)] at hdrop
  have hsame : key = key' := by
    have hdecoded := congrArg decodeHex hdrop
    rwa [decodeHex_encodeHex, decodeHex_encodeHex, Option.some.injEq] at hdecoded
  exact ne_of_lt hlt (by rw [← hkey, ← hkey', hsame])

theorem mem_iterateRegistrations {key signature : Bytes}
    (h : registration s epoch key = some signature) :
    (encodeHex key, signature) ∈ iterateRegistrations s epoch := by
  have hentry := (KVStore.get_eq_some_iff _ _ _).mp h
  refine List.mem_map.mpr ⟨_, List.mem_filter.mpr ⟨hentry, ?_⟩, ?_⟩
  · exact List.isPrefixOf_iff_prefix.mpr (List.prefix_append _ _)
  · dsimp only
    rw [getEpochRegistrationKey, List.drop_left' (length_beBytes 8 epoch.toNat)]

theorem count_collectBallots {registrations : List (String × Bytes)} {ballots : List Ballot}
    (h : collectBallots env ctx s registrations = .ok ballots)
    (hd : (registrations.map Prod.fst).Nodup) {r : String × Bytes} (hr : r ∈ registrations) :
    ∃ own, registrationBallots env ctx s r = .ok own ∧ (ballots.map Ballot.account).count r.1 =
      own.length := by
  induction registrations generalizing ballots with
  | nil => cases hr
  | cons first rest ih =>
    simp only [collectBallots, bind_eq_ok, pure_eq_ok] at h
    obtain ⟨own, hown, others, hothers, rfl⟩ := h
    rw [List.map_cons, List.nodup_cons] at hd
    rw [List.map_append, List.count_append]
    rcases List.mem_cons.mp hr with rfl | hr
    · refine ⟨own, hown, ?_⟩
      have hall : ∀ account ∈ own.map Ballot.account, r.1 = account := by
        intro account ha
        obtain ⟨b, hb, rfl⟩ := List.mem_map.mp ha
        exact (registrationBallots_account hown hb).symm
      have hnone : r.1 ∉ others.map Ballot.account := by
        intro ha
        obtain ⟨b, hb, e⟩ := List.mem_map.mp ha
        obtain ⟨r', hr', e'⟩ := collectBallots_account hothers hb
        exact hd.1 (List.mem_map.mpr ⟨r', hr', e'.trans e⟩)
      rw [List.count_eq_length.mpr hall, List.count_eq_zero_of_not_mem hnone, List.length_map,
        Nat.add_zero]
    · obtain ⟨own', hown', hcount⟩ := ih hothers hd.2 hr
      have hnone : r.1 ∉ own.map Ballot.account := by
        intro ha
        obtain ⟨b, hb, e⟩ := List.mem_map.mp ha
        exact hd.1 (List.mem_map.mpr ⟨r, hr, e.symm.trans (registrationBallots_account hown hb)⟩)
      rw [List.count_eq_zero_of_not_mem hnone, Nat.zero_add]
      exact ⟨own', hown', hcount⟩

theorem ballots_of_account (hv : s.params.maxVotesPerSigner.toNat < 2 ^ 31) {ballots : List Ballot}
    (h : collectBallots env ctx s (iterateRegistrations s epoch) = .ok ballots)
    {key signature : Bytes} (hkey : key ≠ []) (hr : registration s epoch key = some signature) :
    ∃ bonded n, getDelegatorBonded ctx.staking key = .ok bonded ∧ votes s.params bonded = .ok n ∧
      ((ballots.map Ballot.account).count (encodeHex key) : Int) =
        min n s.params.maxVotesPerSigner.toNat := by
  obtain ⟨own, hown, hcount⟩ :=
    count_collectBallots h (iterateRegistrations_nodup s epoch) (mem_iterateRegistrations hr)
  have haddr : accAddressFromHexUnsafe (encodeHex key) = .ok key := by
    have hne : encodeHex key ≠ "" := by
      intro e
      have hempty := decodeHex_encodeHex key
      rw [e] at hempty
      exact hkey (Option.some.inj hempty).symm
    rw [accAddressFromHexUnsafe, rejectIf_neg hne, ok_bind, decodeHex_encodeHex]
    rfl
  simp only [registrationBallots, haddr, bind_eq_ok, pure_eq_ok] at hown
  obtain ⟨bonded, hbonded, n, hn, rfl⟩ := hown
  have hpos : 0 ≤ n := by
    simp only [votes, bind_eq_ok, pure_eq_ok] at hn
    obtain ⟨_, _, rfl⟩ := hn
    exact abs_nonneg _
  refine ⟨bonded, n, hbonded, hn, ?_⟩
  rw [hcount, length_castBallots, ballotNum_eq hv hpos]

end

/-! ## A new epoch -/

theorem sortBallots_perm (ballots : List Ballot) : (sortBallots ballots).Perm ballots :=
  List.perm_insertionSort _ ballots

theorem sortBallots_pairwise (ballots : List Ballot) :
    (sortBallots ballots).Pairwise fun a b => a.content ≤ b.content :=
  List.pairwise_insertionSort _ ballots

structure Holds (s : State) (epoch : UInt64) (quorums : Quorums) : Prop where
  count : ∃ count, getQuorumCount s epoch = .ok count ∧ count.toNat = quorums.length
  quorum : ∀ q quorum, quorums[q]? = some quorum →
    getEpochQuorum s epoch (UInt64.ofNat q) = .ok quorum

theorem setEpochQuorums_holds (s : State) (epoch : UInt64) {quorums : Quorums}
    (h : quorums.length < 2 ^ 64) :
    Holds (setEpochNumber (setEpochQuorums s epoch quorums) epoch) epoch quorums where
  count := by
    refine ⟨_, getQuorumCount_setEpochQuorums s epoch quorums, ?_⟩
    rw [UInt64.toNat_ofNat', Nat.mod_eq_of_lt h]
  quorum := fun _ _ hq => getEpochQuorum_setEpochQuorums_at s epoch h hq

/-- For every list of ballots the quorums are laid out row by row. A block that enters an
epoch stores the quorums of its ballots sorted by content. Below the cap an account has at
least as many rows as ballots, and its ballots are the votes of its stake up to the maximum.
-/
theorem quorums_laid_out (s : State) (he : InRange s.params.encodedSlices)
    (hm : s.params.maxQuorums.toNat < 2 ^ 63) (hv : s.params.maxVotesPerSigner.toNat < 2 ^ 31) :
    (∀ ballots, ballots ≠ [] → ∃ quorums, selectQuorums s.params ballots = .ok quorums ∧
      Layout s.params.encodedSlices.toNat s.params.maxQuorums.toNat ballots quorums) ∧
    ∀ env ctx s' epoch, beginBlock env ctx s = .ok s' → s'.epochNumber = some epoch →
      s.epochNumber ≠ some epoch →
      ∃ ballots quorums, collectBallots env ctx s (iterateRegistrations s epoch) = .ok ballots ∧
        (sortBallots ballots).Perm ballots ∧
        ((sortBallots ballots).Pairwise fun a b => a.content ≤ b.content) ∧
        Holds s' epoch quorums ∧
        (ballots ≠ [] →
          Layout s.params.encodedSlices.toNat s.params.maxQuorums.toNat
            (sortBallots ballots) quorums ∧
          (quorums.length < s.params.maxQuorums.toNat → ∀ account,
            (ballots.map Ballot.account).count account ≤ quorums.flatten.count account)) ∧
        ∀ key signature, key ≠ [] → registration s epoch key = some signature →
          ∃ bonded n, getDelegatorBonded ctx.staking key = .ok bonded ∧
            votes s.params bonded = .ok n ∧
            ((ballots.map Ballot.account).count (encodeHex key) : Int) =
              min n s.params.maxVotesPerSigner.toNat := by
  have hselect := selectQuorums_eq he hm
  have hlayout : ∀ ballots : List Ballot, ballots ≠ [] →
      Layout s.params.encodedSlices.toNat s.params.maxQuorums.toNat
      ballots (laidOut s.params.encodedSlices.toNat s.params.maxQuorums.toNat
        (ballots.map Ballot.account)) :=
    fun ballots hne => laidOut_layout he.1 (List.length_pos_iff.mpr hne) _
  constructor
  · intro ballots hne
    exact ⟨_, hselect ballots, hlayout ballots hne⟩
  · intro env ctx s' epoch h hepoch hnew
    obtain ⟨ballots, quorums, hb, hq, rfl⟩ := beginBlock_enters h hepoch hnew
    cases hq.symm.trans (hselect (sortBallots ballots))
    have hsorted := sortBallots_perm ballots
    have hle := length_laidOut_le s.params.encodedSlices.toNat s.params.maxQuorums.toNat
      ((sortBallots ballots).map Ballot.account)
    have hholds := setEpochQuorums_holds s epoch (lt_of_le_of_lt hle (by omega))
    refine ⟨ballots, _, hb, hsorted, sortBallots_pairwise ballots, hholds,
      fun hne => ?_, fun key signature hkey hr => ballots_of_account hv hb hkey hr⟩
    have hne' : sortBallots ballots ≠ [] := fun e => hne (List.nil_perm.mp (e ▸ hsorted))
    refine ⟨hlayout _ hne', fun hcap account => ?_⟩
    -- every ballot has a row, so no account has more ballots than rows
    rw [← (hsorted.map Ballot.account).count_eq]
    exact ((hlayout _ hne').seated hcap).count_le account

def oneSeatState (maxQuorums : UInt64) : State :=
  run sampleAbi sampleEnv
    (orElseKeep emptyState
      (initGenesis { sampleGenesis with params := ⟨5, 1024, maxQuorums, 2, 1⟩ }))
    [.beginBlock (blockCtx 1), sampleMsgOp]

theorem quorums_laid_out_two_votes :
    ∃ s' ballots quorums, beginBlock sampleEnv (blockCtx 2) (oneSeatState 3) = .ok s' ∧
    collectBallots sampleEnv (blockCtx 2) (oneSeatState 3)
      (iterateRegistrations (oneSeatState 3) 1) = .ok ballots ∧
    Holds s' 1 quorums ∧ Layout 1 3 (sortBallots ballots) quorums ∧ quorums.length = 2 ∧
    2 ≤ quorums.flatten.count (encodeHex sampleAccount) := by
  have hblock : (oneSeatState 3).params = ⟨5, 1024, 3, 2, 1⟩ ∧
      (oneSeatState 3).epochNumber ≠ some 1 ∧
      ∃ s', beginBlock sampleEnv (blockCtx 2) (oneSeatState 3) = .ok s' ∧ s'.epochNumber = some 1 ∧
        getQuorumCount s' 1 = .ok 2 ∧
        ∃ ballots, collectBallots sampleEnv (blockCtx 2) (oneSeatState 3)
          (iterateRegistrations (oneSeatState 3) 1) =
          .ok ballots ∧ ballots.map Ballot.account =
            List.replicate 2 (encodeHex sampleAccount) := by
    decide +kernel
  obtain ⟨hp, hold, s', hb, hnew, hcount, ballots, hballots, haccounts⟩ := hblock
  have hlaid := (quorums_laid_out (oneSeatState 3) (by rw [hp]; decide) (by rw [hp]; decide)
    (by rw [hp]; decide)).2
  obtain ⟨ballots', quorums, hballots', _, _, hholds, hlayout, _⟩ := hlaid _ _ _ 1 hb hnew hold
  cases hballots.symm.trans hballots'
  have hne : ballots ≠ [] := by
    intro e
    rw [e] at haccounts
    cases haccounts
  obtain ⟨hlayout, hrows⟩ := hlayout hne
  obtain ⟨count, hc, hlen⟩ := hholds.count
  cases hcount.symm.trans hc
  have htwo : quorums.length = 2 := hlen.symm
  rw [hp] at hlayout hrows
  have hatLeast := hrows (by rw [htwo]; decide) (encodeHex sampleAccount)
  rw [haccounts, List.count_replicate_self] at hatLeast
  exact ⟨s', ballots, quorums, hb, hballots, hholds, hlayout, htwo, hatLeast⟩

/-- As a signed number the cap is negative, so the two ballots get no row. -/
theorem no_quorum_below_negative_cap : (oneSeatState (2 ^ 63)).params = ⟨5, 1024, 2 ^ 63, 2, 1⟩ ∧
    ∃ s', beginBlock sampleEnv (blockCtx 2) (oneSeatState (2 ^ 63)) = .ok s' ∧
      s'.epochNumber = some 1 ∧
      getQuorumCount s' 1 = .ok 0 ∧
      ∃ ballots, collectBallots sampleEnv (blockCtx 2) (oneSeatState (2 ^ 63))
        (iterateRegistrations (oneSeatState (2 ^ 63)) 1) = .ok ballots ∧ ballots.length = 2 := by
  decide +kernel

end ZgChain.Dasigners
