import ZgChain.Bep3.Genesis
import ZgChain.Lib.Index

/-!
# The indexes agree with the swaps

The index by block holds the open swaps under the heights they expire at, and the
long term index holds the completed ones under the heights they are deleted at.
Each operation moves a swap between the indexes as it changes the swap's status.
The begin blocker's scans then find every swap they visit, in the status the index
promises, so their effect on the swaps can be read off swap by swap.
-/

namespace ZgChain.Bep3

variable {A : ModuleAddrs} {env : Env} {s s' : State A}

def heightIx (st : SwapStatus) (height : AtomicSwap → UInt64) (id : Bytes) (a : AtomicSwap) :
    Option Bytes :=
  if a.status = st then some (getAtomicSwapByHeightKey (height a) id) else none

section
variable {st : SwapStatus} {height : AtomicSwap → UInt64} {id id' k : Bytes} {a a' : AtomicSwap}

theorem heightIx_eq_some : heightIx st height id a = some k ↔
    a.status = st ∧ getAtomicSwapByHeightKey (height a) id = k := by
  unfold heightIx
  split <;> simp [*]

theorem heightIx_eq_none : heightIx st height id a = none ↔ a.status ≠ st := by
  unfold heightIx
  split <;> simp [*]

theorem heightIx_inj (h : heightIx st height id a = some k)
    (h' : heightIx st height id' a' = some k) : id = id' := by
  obtain ⟨_, rfl⟩ := heightIx_eq_some.mp h
  obtain ⟨_, e⟩ := heightIx_eq_some.mp h'
  exact (getAtomicSwapByHeightKey_inj e.symm).2

end

def byBlockIx : Bytes → AtomicSwap → Option Bytes := heightIx .open AtomicSwap.expireHeight

def longtermIx : Bytes → AtomicSwap → Option Bytes := heightIx .completed deletionHeight

structure IndexInv (env : Env) (s : State A) : Prop where
  ids : ∀ id a, s.swaps.get id = some a → a.getSwapID env = id
  byBlock : Indexed byBlockIx s.swaps s.byBlock
  longterm : Indexed longtermIx s.swaps s.longterm

theorem IndexInv.pays (h : IndexInv env s) (hp : PaysOnly s s') : IndexInv env s' := by
  obtain ⟨_, _, _, rfl⟩ := hp
  exact ⟨h.ids, h.byBlock, h.longterm⟩

/-! ## Messages -/

theorem ids_set (h : ∀ id a, s.swaps.get id = some a → a.getSwapID env = id) {a : AtomicSwap} :
    ∀ id a', (s.swaps.set (a.getSwapID env) a).get id = some a' → a'.getSwapID env = id := by
  intro id a' ha'
  rw [KVStore.get_set] at ha'
  split at ha'
  · rename_i e
    cases ha'
    exact e.symm
  · exact h id a' ha'

section
variable {a : AtomicSwap} (h : IndexInv env s)
include h

theorem IndexInv.insertOpen (hf : s.swaps.get (a.getSwapID env) = none) (hs : a.status = .open) :
    IndexInv env (insertIntoByBlockIndex env (setAtomicSwap env s a) a) := by
  refine ⟨ids_set h.ids, ?_, ?_⟩
  · exact h.byBlock.set_in heightIx_inj (by simp [hf]) (heightIx_eq_some.mpr ⟨hs, rfl⟩)
  · exact h.longterm.set_none heightIx_inj (by simp [hf]) (heightIx_eq_none.mpr (by simp [hs]))

theorem IndexInv.insertCompleted (hf : s.swaps.get (a.getSwapID env) = none)
    (hs : a.status = .completed) :
    IndexInv env (insertIntoLongtermStorage env (setAtomicSwap env s a) a) := by
  refine ⟨ids_set h.ids, ?_, ?_⟩
  · exact h.byBlock.set_none heightIx_inj (by simp [hf]) (heightIx_eq_none.mpr (by simp [hs]))
  · exact h.longterm.set_in heightIx_inj (by simp [hf]) (heightIx_eq_some.mpr ⟨hs, rfl⟩)

theorem IndexInv.insertExpired (hf : s.swaps.get (a.getSwapID env) = none)
    (hs : a.status = .expired) :
    IndexInv env (setAtomicSwap env s a) := by
  refine ⟨ids_set h.ids, ?_, ?_⟩
  · exact h.byBlock.set_none heightIx_inj (by simp [hf]) (heightIx_eq_none.mpr (by simp [hs]))
  · exact h.longterm.set_none heightIx_inj (by simp [hf]) (heightIx_eq_none.mpr (by simp [hs]))

theorem IndexInv.claim {ctx : Ctx} (ha : s.swaps.get (a.getSwapID env) = some a)
    (hs : a.status = .open) :
    IndexInv env (insertIntoLongtermStorage env
      (removeFromByBlockIndex env (setAtomicSwap env s (completedSwap ctx a))
      (completedSwap ctx a)) (completedSwap ctx a)) := by
  have ha' : s.swaps.get ((completedSwap ctx a).getSwapID env) = some a := ha
  refine ⟨ids_set h.ids, ?_, ?_⟩
  · refine h.byBlock.set_out heightIx_inj ?_ rfl
    rw [ha', Option.bind_some]
    exact heightIx_eq_some.mpr ⟨hs, rfl⟩
  · refine h.longterm.set_in heightIx_inj ?_ rfl
    rw [ha', Option.bind_some]
    exact heightIx_eq_none.mpr (by simp [hs])

theorem IndexInv.refund {ctx : Ctx} (ha : s.swaps.get (a.getSwapID env) = some a)
    (hs : a.status = .expired) :
    IndexInv env (insertIntoLongtermStorage env (setAtomicSwap env s (completedSwap ctx a))
      (completedSwap ctx a)) := by
  have ha' : s.swaps.get ((completedSwap ctx a).getSwapID env) = some a := ha
  refine ⟨ids_set h.ids, ?_, ?_⟩
  · refine h.byBlock.set_none heightIx_inj ?_ rfl
    rw [ha', Option.bind_some]
    exact heightIx_eq_none.mpr (by simp [hs])
  · refine h.longterm.set_in heightIx_inj ?_ rfl
    rw [ha', Option.bind_some]
    exact heightIx_eq_none.mpr (by simp [hs])

end

/-! ## The scans -/

theorem ofNat_blockHeight_toNat (ctx : Ctx) :
    (UInt64.ofNat ctx.blockHeight).toNat = ctx.blockHeight := by
  have := ctx.height_lt
  rw [UInt64.toNat_ofNat']
  omega

theorem mem_iterateUpTo {S : KVStore Bytes AtomicSwap} {I : KVStore Bytes Bytes} {st : SwapStatus}
    {height : AtomicSwap → UInt64} (h : Indexed (heightIx st height) S I) (ctx : Ctx) (id : Bytes) :
    id ∈ iterateUpTo I (UInt64.ofNat ctx.blockHeight) ↔
      ∃ a, S.get id = some a ∧ a.status = st ∧ (height a).toNat ≤ ctx.blockHeight := by
  have hcut (a : AtomicSwap) : belowEnd (getAtomicSwapByHeightKey (height a) id)
      (prefixEndBytes (beBytes 8 ctx.blockHeight)) ↔ (height a).toNat ≤ ctx.blockHeight := by
    have h₁ : (height a).toNat < 256 ^ 8 := (height a).toNat_lt
    have h₂ : ctx.blockHeight < 256 ^ 8 := lt_trans ctx.height_lt (by norm_num)
    rw [getAtomicSwapByHeightKey, belowEnd_prefixEndBytes id (by simp), le_iff_beToNat_le (by simp),
      beToNat_beBytes, beToNat_beBytes, Nat.mod_eq_of_lt h₁, Nat.mod_eq_of_lt h₂]
  rw [iterateUpTo, ofNat_blockHeight_toNat, KVStore.mem_valuesBelow]
  refine ⟨fun ⟨k, hk, hb⟩ => ?_, fun ⟨a, ha, hs, hle⟩ => ?_⟩
  · obtain ⟨a, ha, hi⟩ := (h k id).mp hk
    obtain ⟨hs, rfl⟩ := heightIx_eq_some.mp hi
    exact ⟨a, ha, hs, (hcut a).mp hb⟩
  · exact ⟨_, (h _ id).mpr ⟨a, ha, heightIx_eq_some.mpr ⟨hs, rfl⟩⟩, (hcut a).mpr hle⟩

theorem IndexInv.mem_expiringIDs (h : IndexInv env s) (ctx : Ctx) (id : Bytes) :
    id ∈ expiringIDs ctx s ↔
      ∃ a, s.swaps.get id = some a ∧ a.status = .open ∧ a.expireHeight.toNat ≤ ctx.blockHeight :=
  mem_iterateUpTo h.byBlock ctx id

theorem IndexInv.mem_deletableIDs (h : IndexInv env s) (ctx : Ctx) (id : Bytes) :
    id ∈ deletableIDs ctx s ↔
      ∃ a, s.swaps.get id = some a ∧ a.status = .completed ∧
        (deletionHeight a).toNat ≤ ctx.blockHeight :=
  mem_iterateUpTo h.longterm ctx id

theorem expireSwap_eq (h : IndexInv env s) {id : Bytes} {a : AtomicSwap}
    (ha : s.swaps.get id = some a) :
    expireSwap env s id =
      { s with
        swaps := s.swaps.set id (expiredSwap a)
        byBlock := s.byBlock.delete (byBlockKey env a) } := by
  have hid := h.ids id a ha
  subst hid
  simp only [expireSwap, getAtomicSwap, ha]
  rfl

theorem IndexInv.expireSwap (h : IndexInv env s) {id : Bytes} {a : AtomicSwap}
    (ha : s.swaps.get id = some a) (hs : a.status = .open) :
    IndexInv env (expireSwap env s id) := by
  have hid := h.ids id a ha
  subst hid
  rw [expireSwap_eq h ha]
  refine ⟨ids_set (a := expiredSwap a) h.ids, ?_, ?_⟩
  · refine h.byBlock.set_out heightIx_inj ?_ rfl
    rw [ha, Option.bind_some]
    exact heightIx_eq_some.mpr ⟨hs, rfl⟩
  · refine h.longterm.set_none heightIx_inj ?_ rfl
    rw [ha, Option.bind_some]
    exact heightIx_eq_none.mpr (by simp [hs])

theorem deleteSwap_eq (h : IndexInv env s) {id : Bytes} {a : AtomicSwap}
    (ha : s.swaps.get id = some a) :
    deleteSwap env s id =
      { s with swaps := s.swaps.delete id, longterm := s.longterm.delete (longtermKey env a) } := by
  have hid := h.ids id a ha
  subst hid
  simp only [deleteSwap, getAtomicSwap, ha]
  rfl

theorem IndexInv.deleteSwap (h : IndexInv env s) {id : Bytes} {a : AtomicSwap}
    (ha : s.swaps.get id = some a)
    (hs : a.status = .completed) : IndexInv env (deleteSwap env s id) := by
  have hid := h.ids id a ha
  subst hid
  rw [deleteSwap_eq h ha]
  refine ⟨?_, ?_, ?_⟩
  · intro id' a' ha'
    rw [KVStore.get_delete] at ha'
    split at ha'
    · cases ha'
    · exact h.ids id' a' ha'
  · refine h.byBlock.delete_none heightIx_inj ?_
    rw [ha, Option.bind_some]
    exact heightIx_eq_none.mpr (by simp [hs])
  · refine h.longterm.delete_in heightIx_inj ?_
    rw [ha, Option.bind_some]
    exact heightIx_eq_some.mpr ⟨hs, rfl⟩

/-- A scan that changes each visited swap by `g`, when every visited swap has the
status the index promises. -/
theorem foldl_visit {f : State A → Bytes → State A} {g : AtomicSwap → Option AtomicSwap}
    {st : SwapStatus}
    (hf : ∀ {s : State A} {id : Bytes} {a : AtomicSwap}, IndexInv env s → s.swaps.get id = some a →
      a.status = st →
      IndexInv env (f s id) ∧ (f s id).swaps.get id = g a ∧
        ∀ id', id' ≠ id → (f s id).swaps.get id' = s.swaps.get id')
    (ids : List Bytes) (s : State A) (h : IndexInv env s) (hn : ids.Nodup)
    (hv : ∀ id ∈ ids, ∃ a, s.swaps.get id = some a ∧ a.status = st) :
    IndexInv env (ids.foldl f s) ∧
    ∀ id, (ids.foldl f s).swaps.get id = if id ∈ ids then (s.swaps.get id).bind g
      else s.swaps.get id := by
  induction ids generalizing s with
  | nil => exact ⟨h, fun id => by simp⟩
  | cons i ids ih =>
    obtain ⟨hi, hn⟩ := List.nodup_cons.mp hn
    obtain ⟨a, ha, hs⟩ := hv i (by simp)
    obtain ⟨h₁, hgi, hget⟩ := hf h ha hs
    have hv₁ : ∀ id ∈ ids, ∃ a, (f s i).swaps.get id = some a ∧ a.status = st := by
      intro id hid
      have hne : id ≠ i := fun e => hi (e ▸ hid)
      rw [hget id hne]
      exact hv id (by simp [hid])
    obtain ⟨h₂, hget₂⟩ := ih (f s i) h₁ hn hv₁
    refine ⟨h₂, fun id => ?_⟩
    rw [List.foldl_cons, hget₂]
    by_cases hid : id = i
    · subst hid
      simp [hi, ha, hgi]
    · simp [hid, hget id hid]

theorem IndexInv.foldl_expireSwap (h : IndexInv env s) {ids : List Bytes} (hn : ids.Nodup)
    (hv : ∀ id ∈ ids, ∃ a, s.swaps.get id = some a ∧ a.status = .open) :
    IndexInv env (ids.foldl (Bep3.expireSwap env) s) ∧
    ∀ id, (ids.foldl (Bep3.expireSwap env) s).swaps.get id =
      if id ∈ ids then (s.swaps.get id).map expiredSwap else s.swaps.get id := by
  obtain ⟨h', hget⟩ := foldl_visit (g := fun a => some (expiredSwap a))
    (fun h ha hs => ⟨h.expireSwap ha hs, by simp [expireSwap_eq h ha],
      fun id' hne => by simp [expireSwap_eq h ha, hne]⟩) ids s h hn hv
  refine ⟨h', fun id => ?_⟩
  rw [hget, Option.map_eq_bind]
  rfl

theorem IndexInv.foldl_deleteSwap (h : IndexInv env s) {ids : List Bytes} (hn : ids.Nodup)
    (hv : ∀ id ∈ ids, ∃ a, s.swaps.get id = some a ∧ a.status = .completed) :
    IndexInv env (ids.foldl (Bep3.deleteSwap env) s) ∧
    ∀ id, (ids.foldl (Bep3.deleteSwap env) s).swaps.get id = if id ∈ ids then none
      else s.swaps.get id := by
  obtain ⟨h', hget⟩ := foldl_visit (g := fun _ => none)
    (fun h ha hs => ⟨h.deleteSwap ha hs, by simp [deleteSwap_eq h ha],
      fun id' hne => by simp [deleteSwap_eq h ha, hne]⟩) ids s h hn hv
  refine ⟨h', fun id => ?_⟩
  rw [hget]
  simp

/-! ## The begin blocker -/

def ScansOnly (s s' : State A) : Prop :=
  ∃ w b l, s' = { s with swaps := w, byBlock := b, longterm := l }

theorem foldl_scans {f : State A → Bytes → State A} (hf : ∀ s id, ScansOnly s (f s id))
    (ids : List Bytes) (s : State A) : ScansOnly s (ids.foldl f s) := by
  induction ids generalizing s with
  | nil => exact ⟨_, _, _, rfl⟩
  | cons id ids ih =>
    obtain ⟨_, _, _, h₁⟩ := hf s id
    obtain ⟨_, _, _, h₂⟩ := ih (f s id)
    rw [List.foldl_cons, h₂, h₁]
    exact ⟨_, _, _, rfl⟩

theorem expireSwap_scans (env : Env) (s : State A) (id : Bytes) :
    ScansOnly s (expireSwap env s id) := by
  unfold expireSwap
  split
  · exact ⟨_, _, _, rfl⟩
  · exact ⟨_, _, s.longterm, rfl⟩

theorem deleteSwap_scans (env : Env) (s : State A) (id : Bytes) :
    ScansOnly s (deleteSwap env s id) := by
  unfold deleteSwap
  split
  · exact ⟨_, _, _, rfl⟩
  · exact ⟨_, s.byBlock, _, rfl⟩

theorem beginBlocker_scans (env : Env) (ctx : Ctx) (s : State A) :
    ScansOnly (updateTimeBasedSupplyLimits ctx s) (beginBlocker env ctx s) := by
  obtain ⟨_, _, _, h₁⟩ :=
    foldl_scans (expireSwap_scans env) (expiringIDs ctx (updateTimeBasedSupplyLimits ctx s))
    (updateTimeBasedSupplyLimits ctx s)
  obtain ⟨_, _, _, h₂⟩ := foldl_scans (deleteSwap_scans env)
    (deletableIDs ctx (updateExpiredAtomicSwaps env ctx (updateTimeBasedSupplyLimits ctx s)))
    (updateExpiredAtomicSwaps env ctx (updateTimeBasedSupplyLimits ctx s))
  unfold beginBlocker deleteClosedAtomicSwapsFromLongtermStorage
  rw [h₂, updateExpiredAtomicSwaps, h₁]
  exact ⟨_, _, _, rfl⟩

theorem updateTimeBasedSupplyLimits_frame (ctx : Ctx) (s : State A) :
    ∃ σ t, updateTimeBasedSupplyLimits ctx s =
      { s with supplies := σ, previousBlockTime := t } := by
  have hfold : ∀ (d : Duration) (assets : List AssetParam) (s : State A),
      ∃ σ, assets.foldl (updateTimeBasedSupplyLimit d) s = { s with supplies := σ } := by
    intro d assets
    induction assets with
    | nil => exact fun s => ⟨_, rfl⟩
    | cons asset assets ih =>
      intro s
      obtain ⟨σ, h⟩ := ih (updateTimeBasedSupplyLimit d s asset)
      exact ⟨σ, by rw [List.foldl_cons, h]; rfl⟩
  unfold updateTimeBasedSupplyLimits
  split
  · exact ⟨_, _, rfl⟩
  · obtain ⟨σ, h⟩ :=
      hfold (Time.sub ctx.blockTime (s.previousBlockTime.getD ctx.blockTime)) (getAssets s) s
    exact ⟨σ, some ctx.blockTime, by simp only [h]⟩

def afterBlock (height : Nat) (a : AtomicSwap) : Option AtomicSwap :=
  if a.status = .open ∧ a.expireHeight.toNat ≤ height then some (expiredSwap a)
  else if a.status = .completed ∧ (deletionHeight a).toNat ≤ height then none
  else some a

theorem IndexInv.updateTimeBasedSupplyLimits (h : IndexInv env s) (ctx : Ctx) :
    IndexInv env (updateTimeBasedSupplyLimits ctx s) := by
  obtain ⟨_, _, e⟩ := updateTimeBasedSupplyLimits_frame ctx s
  rw [e]
  exact ⟨h.ids, h.byBlock, h.longterm⟩

theorem swaps_updateTimeBasedSupplyLimits (ctx : Ctx) (s : State A) :
    (updateTimeBasedSupplyLimits ctx s).swaps = s.swaps := by
  obtain ⟨_, _, e⟩ := updateTimeBasedSupplyLimits_frame ctx s
  rw [e]

section
variable (h : IndexInv env s)
include h

theorem IndexInv.expiringIDs_open (ctx : Ctx) :
    ∀ id ∈ expiringIDs ctx s, ∃ a, s.swaps.get id = some a ∧ a.status = .open := by
  intro id hid
  obtain ⟨a, ha, hs, _⟩ := (h.mem_expiringIDs ctx id).mp hid
  exact ⟨a, ha, hs⟩

theorem IndexInv.deletableIDs_completed (ctx : Ctx) :
    ∀ id ∈ deletableIDs ctx s, ∃ a, s.swaps.get id = some a ∧ a.status = .completed := by
  intro id hid
  obtain ⟨a, ha, hs, _⟩ := (h.mem_deletableIDs ctx id).mp hid
  exact ⟨a, ha, hs⟩

theorem IndexInv.updateExpired (ctx : Ctx) :
    IndexInv env (updateExpiredAtomicSwaps env ctx s) ∧
    ∀ id, (updateExpiredAtomicSwaps env ctx s).swaps.get id = (s.swaps.get id).map fun a =>
      if a.status = .open ∧ a.expireHeight.toNat ≤ ctx.blockHeight then expiredSwap a else a := by
  have hn : (expiringIDs ctx s).Nodup := h.byBlock.nodup _
  obtain ⟨h', hget⟩ := h.foldl_expireSwap hn (h.expiringIDs_open ctx)
  refine ⟨h', fun id => (hget id).trans ?_⟩
  cases ha : s.swaps.get id with
  | none => simp
  | some a =>
    have hm := h.mem_expiringIDs ctx id
    simp only [ha, Option.some.injEq, exists_eq_left'] at hm
    by_cases hid : id ∈ expiringIDs ctx s
    · simp [hid, hm.mp hid]
    · simp [hid, mt hm.mpr hid]

theorem IndexInv.deleteClosed (ctx : Ctx) :
    IndexInv env (deleteClosedAtomicSwapsFromLongtermStorage env ctx s) ∧
    ∀ id, (deleteClosedAtomicSwapsFromLongtermStorage env ctx s).swaps.get id =
      (s.swaps.get id).bind fun a =>
      if a.status = .completed ∧ (deletionHeight a).toNat ≤ ctx.blockHeight then none
        else some a := by
  have hn : (deletableIDs ctx s).Nodup := h.longterm.nodup _
  obtain ⟨h', hget⟩ := h.foldl_deleteSwap hn (h.deletableIDs_completed ctx)
  refine ⟨h', fun id => (hget id).trans ?_⟩
  cases ha : s.swaps.get id with
  | none => simp
  | some a =>
    have hm := h.mem_deletableIDs ctx id
    simp only [ha, Option.some.injEq, exists_eq_left'] at hm
    by_cases hid : id ∈ deletableIDs ctx s
    · simp [hid, hm.mp hid]
    · simp [hid, mt hm.mpr hid]

theorem IndexInv.beginBlocker (ctx : Ctx) :
    IndexInv env (beginBlocker env ctx s) ∧
    ∀ id, (beginBlocker env ctx s).swaps.get id = (s.swaps.get id).bind
      (afterBlock ctx.blockHeight) := by
  obtain ⟨h₁, hget₁⟩ := (h.updateTimeBasedSupplyLimits ctx).updateExpired ctx
  obtain ⟨h₂, hget₂⟩ := h₁.deleteClosed ctx
  refine ⟨h₂, fun id => (hget₂ id).trans ?_⟩
  rw [hget₁, swaps_updateTimeBasedSupplyLimits]
  cases ha : s.swaps.get id with
  | none => rfl
  | some a =>
    simp only [Option.map_some, Option.bind_some, afterBlock]
    by_cases hs : a.status = .open ∧ a.expireHeight.toNat ≤ ctx.blockHeight
    · simp [hs, expiredSwap]
    · simp [hs]

end

/-! ## Runs -/

theorem IndexInv.step (h : IndexInv env s) (op : Op) : IndexInv env (step env s op) := by
  cases op with
  | create ctx args =>
    refine orElseKeep_rule h fun s' hok => ?_
    obtain ⟨_, _, _, _, hc⟩ := createAtomicSwap_ok hok
    have hp := escrow_pays hc.escrowed
    rw [hc.state]
    refine (h.pays hp).insertOpen ?_ rfl
    obtain ⟨_, _, _, rfl⟩ := hp
    exact hc.fresh
  | claim ctx id number =>
    refine orElseKeep_rule h fun s' hok => ?_
    obtain ⟨a, s₁, ha, hs, _, hpay, rfl⟩ := claimAtomicSwap_ok hok
    have hp := payClaim_pays hpay
    have hid := h.ids id a ha
    subst hid
    refine (h.pays hp).claim ?_ hs
    obtain ⟨_, _, _, rfl⟩ := hp
    exact ha
  | refund ctx id =>
    refine orElseKeep_rule h fun s' hok => ?_
    obtain ⟨a, s₁, ha, hs, hpay, rfl⟩ := refundAtomicSwap_ok hok
    have hp := payRefund_pays hpay
    have hid := h.ids id a ha
    subst hid
    refine (h.pays hp).refund ?_ hs
    obtain ⟨_, _, _, rfl⟩ := hp
    exact ha
  | beginBlock ctx => exact (h.beginBlocker ctx).1

theorem IndexInv.run (h : IndexInv env s) (ops : List Op) :
    IndexInv env (runSteps (Bep3.step env) s ops) :=
  runSteps_inv (P := fun _ => True) (Bep3.step env) (fun _ op _ h => h.step op) h ops
    fun _ _ => trivial

/-! ## One swap in one step -/

inductive Evolves (env : Env) (s : State A) (id : Bytes) :
    Op → Option AtomicSwap → Option AtomicSwap → Prop where
  | keep (op : Op) (x : Option AtomicSwap) : Evolves env s id op x x
  | create {ctx : Ctx} {args : CreateArgs} {coin : Coin} {asset : AssetParam}
      {direction : SwapDirection} {s₁ s' : State A}
      (h : Created env ctx s args coin asset direction s₁ s') :
      Evolves env s id (.create ctx args) none (some (newSwap ctx args direction))
  | claim {ctx : Ctx} {number : Bytes} {a : AtomicSwap} (h : a.status = .open) :
      Evolves env s id (.claim ctx id number) (some a) (some (completedSwap ctx a))
  | refund {ctx : Ctx} {a : AtomicSwap} (h : a.status = .expired) :
      Evolves env s id (.refund ctx id) (some a) (some (completedSwap ctx a))
  | expire {ctx : Ctx} {a : AtomicSwap} (h : a.status = .open)
      (hle : a.expireHeight.toNat ≤ ctx.blockHeight) :
      Evolves env s id (.beginBlock ctx) (some a) (some (expiredSwap a))
  | delete {ctx : Ctx} {a : AtomicSwap} (h : a.status = .completed)
      (hle : (deletionHeight a).toNat ≤ ctx.blockHeight) :
      Evolves env s id (.beginBlock ctx) (some a) none

theorem createAtomicSwap_swaps {ctx : Ctx} {args : CreateArgs} {coin : Coin} {asset : AssetParam}
    {direction : SwapDirection} {s₁ : State A}
    (h : Created env ctx s args coin asset direction s₁ s') :
    s'.swaps = s.swaps.set ((newSwap ctx args direction).getSwapID env)
      (newSwap ctx args direction) := by
  obtain ⟨_, _, _, rfl⟩ := escrow_pays h.escrowed
  rw [h.state]
  rfl

section
variable (hi : IndexInv env s) {ctx : Ctx} {id : Bytes}
include hi

theorem claimAtomicSwap_swaps {number : Bytes} (h : claimAtomicSwap env ctx s id number = .ok s') :
    ∃ a, s.swaps.get id = some a ∧ a.status = .open ∧
      s'.swaps = s.swaps.set id (completedSwap ctx a) := by
  obtain ⟨a, s₁, ha, hs, _, hpay, rfl⟩ := claimAtomicSwap_ok h
  obtain ⟨_, _, _, rfl⟩ := payClaim_pays hpay
  have hid := hi.ids id a ha
  subst hid
  exact ⟨a, ha, hs, rfl⟩

theorem refundAtomicSwap_swaps (h : refundAtomicSwap env ctx s id = .ok s') :
    ∃ a, s.swaps.get id = some a ∧ a.status = .expired ∧
      s'.swaps = s.swaps.set id (completedSwap ctx a) := by
  obtain ⟨a, s₁, ha, hs, hpay, rfl⟩ := refundAtomicSwap_ok h
  obtain ⟨_, _, _, rfl⟩ := payRefund_pays hpay
  have hid := hi.ids id a ha
  subst hid
  exact ⟨a, ha, hs, rfl⟩

end

theorem Evolves.beginBlock (s : State A) (id : Bytes) (ctx : Ctx) (x : Option AtomicSwap) :
    Evolves env s id (.beginBlock ctx) x (x.bind (afterBlock ctx.blockHeight)) := by
  cases x with
  | none => exact .keep _ _
  | some a =>
    rw [Option.bind_some]
    unfold afterBlock
    split
    · rename_i h
      exact .expire h.1 h.2
    · split
      · rename_i h
        exact .delete h.1 h.2
      · exact .keep _ _

theorem IndexInv.evolves (h : IndexInv env s) (op : Op) (id : Bytes) :
    Evolves env s id op (s.swaps.get id) ((Bep3.step env s op).swaps.get id) := by
  cases op with
  | create ctx args =>
    refine orElseKeep_rule (P := fun s' : State A => Evolves env s id _ _ (s'.swaps.get id))
      (.keep _ _) fun s' hok => ?_
    obtain ⟨_, _, _, _, hc⟩ := createAtomicSwap_ok hok
    rw [createAtomicSwap_swaps hc, KVStore.get_set]
    split
    · rename_i e
      -- nothing was stored under the ID of the new swap
      rw [e, hc.fresh]
      exact .create hc
    · exact .keep _ _
  | claim ctx id' number =>
    refine orElseKeep_rule (P := fun s' : State A => Evolves env s id _ _ (s'.swaps.get id))
      (.keep _ _) fun s' hok => ?_
    obtain ⟨a, ha, hs, hset⟩ := claimAtomicSwap_swaps h hok
    rw [hset, KVStore.get_set]
    split
    · rename_i e
      subst e
      rw [ha]
      exact .claim hs
    · exact .keep _ _
  | refund ctx id' =>
    refine orElseKeep_rule (P := fun s' : State A => Evolves env s id _ _ (s'.swaps.get id))
      (.keep _ _) fun s' hok => ?_
    obtain ⟨a, ha, hs, hset⟩ := refundAtomicSwap_swaps h hok
    rw [hset, KVStore.get_set]
    split
    · rename_i e
      subst e
      rw [ha]
      exact .refund hs
    · exact .keep _ _
  | beginBlock ctx =>
    rw [Bep3.step, (h.beginBlocker ctx).2 id]
    exact Evolves.beginBlock s id ctx _

/-! ## From genesis on -/

def NoSwaps (s : State A) : Prop :=
  s.swaps = KVStore.empty ∧ s.byBlock = KVStore.empty ∧ s.longterm = KVStore.empty

theorem IndexInv.of_empty (h : NoSwaps s) : IndexInv env s where
  ids id a ha := by rw [h.1] at ha; cases ha
  byBlock := by rw [h.1, h.2.1]; exact Indexed.empty
  longterm := by rw [h.1, h.2.2]; exact Indexed.empty

theorem IndexInv.storeSwap (h : IndexInv env s) {swap : AtomicSwap}
    (hf : s.swaps.get (swap.getSwapID env) = none)
    (hs : swap.status ≠ .unspecified) : IndexInv env (storeSwap env s swap) := by
  unfold Bep3.storeSwap
  split
  · rename_i e
    exact h.insertOpen hf e
  · rename_i e
    exact h.insertCompleted hf e
  · rename_i e
    exact h.insertExpired hf e
  · rename_i e
    exact absurd e hs

theorem IndexInv.initGenesis {bank : Bank A} {gs : GenesisState}
    (h : initGenesis env bank gs = .ok s) :
    IndexInv env s := by
  obtain ⟨hp, ha, rfl⟩ := initGenesis_iff.mp h
  refine ha.rule (P := fun l => IndexInv env l.state) (fun l swap hv hf hi => ?_)
    (IndexInv.of_empty ⟨rfl, rfl, rfl⟩)
  obtain ⟨⟨_, _, _, _, _, _, _, hst, _⟩, _⟩ := swap.validate_iff.mp hv
  exact hi.storeSwap hf hst

section
variable (h : IndexInv env s) {ctx : Ctx} {pre post : List Bytes} {id : Bytes}
include h

theorem IndexInv.expire_found (e : expiringIDs ctx s = pre ++ id :: post) :
    ((pre.foldl (Bep3.expireSwap env) s).swaps.get id).isSome = true := by
  have hn : (expiringIDs ctx s).Nodup := h.byBlock.nodup _
  have hv := h.expiringIDs_open ctx
  rw [e] at hn hv
  obtain ⟨a, ha, _⟩ := hv id (by simp)
  have hid : id ∉ pre := fun hm => (List.nodup_append.mp hn).2.2 id hm id (by simp) rfl
  rw [(h.foldl_expireSwap (List.nodup_append.mp hn).1 fun i hi => hv i (by simp [hi])).2 id,
    if_neg hid, ha]
  rfl

theorem IndexInv.delete_found (e : deletableIDs ctx s = pre ++ id :: post) :
    ((pre.foldl (Bep3.deleteSwap env) s).swaps.get id).isSome = true := by
  have hn : (deletableIDs ctx s).Nodup := h.longterm.nodup _
  have hv := h.deletableIDs_completed ctx
  rw [e] at hn hv
  obtain ⟨a, ha, _⟩ := hv id (by simp)
  have hid : id ∉ pre := fun hm => (List.nodup_append.mp hn).2.2 id hm id (by simp) rfl
  rw [(h.foldl_deleteSwap (List.nodup_append.mp hn).1 fun i hi => hv i (by simp [hi])).2 id,
    if_neg hid, ha]
  rfl

end

/-- In every state after an accepted genesis, the two indexes hold exactly the open
and the completed swaps, each once, and the begin blocker's scans find every swap
they visit. -/
theorem indexes_consistent (env : Env) (bank : Bank A) (gs : GenesisState) (s₀ : State A)
    (h : initGenesis env bank gs = .ok s₀) (ops : List Op) :
    let s := runSteps (step env) s₀ ops
    (∀ k id, s.byBlock.get k = some id ↔
      ∃ a, s.swaps.get id = some a ∧ a.getSwapID env = id ∧ a.status = .open ∧
        k = getAtomicSwapByHeightKey a.expireHeight id) ∧
    (∀ k id, s.longterm.get k = some id ↔
      ∃ a, s.swaps.get id = some a ∧ a.getSwapID env = id ∧ a.status = .completed ∧
        k = getAtomicSwapByHeightKey (a.closedBlock.toUInt64 + 86400) id) ∧
    (∀ id a, s.swaps.get id = some a → a.status = .expired →
      ∀ k, s.byBlock.get k ≠ some id ∧ s.longterm.get k ≠ some id) ∧
    ∀ ctx pre id post,
      (expiringIDs ctx (updateTimeBasedSupplyLimits ctx s) = pre ++ id :: post →
        ((pre.foldl (expireSwap env) (updateTimeBasedSupplyLimits ctx s)).swaps.get id).isSome =
          true) ∧
      (deletableIDs ctx (updateExpiredAtomicSwaps env ctx (updateTimeBasedSupplyLimits ctx s)) =
        pre ++ id :: post →
        ((pre.foldl (deleteSwap env) (updateExpiredAtomicSwaps env ctx
          (updateTimeBasedSupplyLimits ctx s))).swaps.get id).isSome = true) := by
  intro s
  have hi : IndexInv env s := (IndexInv.initGenesis h).run ops
  refine ⟨fun k id => ?_, fun k id => ?_, fun id a ha hs k => ⟨fun hk => ?_, fun hk => ?_⟩,
    fun ctx pre id post => ?_⟩
  · rw [hi.byBlock k id]
    refine ⟨fun ⟨a, ha, hk⟩ => ?_,
      fun ⟨a, ha, _, hs, hk⟩ => ⟨a, ha, heightIx_eq_some.mpr ⟨hs, hk.symm⟩⟩⟩
    obtain ⟨hs, rfl⟩ := heightIx_eq_some.mp hk
    exact ⟨a, ha, hi.ids id a ha, hs, rfl⟩
  · rw [hi.longterm k id]
    refine ⟨fun ⟨a, ha, hk⟩ => ?_,
      fun ⟨a, ha, _, hs, hk⟩ => ⟨a, ha, heightIx_eq_some.mpr ⟨hs, hk.symm⟩⟩⟩
    obtain ⟨hs, rfl⟩ := heightIx_eq_some.mp hk
    exact ⟨a, ha, hi.ids id a ha, hs, rfl⟩
  · obtain ⟨a', ha', hk⟩ := (hi.byBlock k id).mp hk
    rw [ha] at ha'
    cases ha'
    simp [(heightIx_eq_some.mp hk).1] at hs
  · obtain ⟨a', ha', hk⟩ := (hi.longterm k id).mp hk
    rw [ha] at ha'
    cases ha'
    simp [(heightIx_eq_some.mp hk).1] at hs
  · have h₁ := hi.updateTimeBasedSupplyLimits ctx
    exact ⟨fun e => h₁.expire_found e, fun e => (h₁.updateExpired ctx).1.delete_found e⟩

/-! ## A chain with one asset -/

/-- The SHA-256 hashes of the byte strings hashed in the runs below, by length and number. -/
def sha256Table : List ((Nat × Nat) × Nat) :=
  [((40, 0x101010101010101010101010101010101010101010101010101010101010101000000006553f100),
      0x5bf90681a98e9214158344b56a2b1f8af86fe5e10cdec1227f20e1fccaddc86d),
   ((62, 0x5bf90681a98e9214158344b56a2b1f8af86fe5e10cdec1227f20e1fccaddc86d * 2 ^ 240 +
        0xde9626e623173656e646572),
      0x23ce3183d06f1ae012cc8c7f2d525d19ec3fa2e368e3169a76e9e035f93f9e0f),
   ((40, 0x202020202020202020202020202020202020202020202020202020202020202000000006553f100),
      0xae1085864f2a0536c1a52fadac402110f43fa624bd342ec2a7d17e8f4dbe9d07),
   ((62, 0xae1085864f2a0536c1a52fadac402110f43fa624bd342ec2a7d17e8f4dbe9d07 * 2 ^ 240 +
        0xa11ce626e623173656e646572),
      0xebdea5f008bb148dd30e860debc11de7ea5d197ae5376b391c5801d0c6848ee4),
   ((40, 0x303030303030303030303030303030303030303030303030303030303030303000000006553f100),
      0x8417ffc4bf738cfdf69f6fbfa403bbfb02e152beb61627597fc6e30ce90a81e8),
   ((62, 0x8417ffc4bf738cfdf69f6fbfa403bbfb02e152beb61627597fc6e30ce90a81e8 * 2 ^ 240 +
        0xc9388b3b1ea8b32439aeffb6cdf83d6d6e26cedd626e623173656e646572),
      0xfa33c60ba5f8ef5b2fe6f1aa149104e905841814192cfeef0243de61bbe28a7f),
   ((40, 0x404040404040404040404040404040404040404040404040404040404040404000000006553f100),
      0xe7aed487e682bc941c31f8a1025d0b2d78708198185b2bc70373685aa79f7027),
   ((62, 0xe7aed487e682bc941c31f8a1025d0b2d78708198185b2bc70373685aa79f7027 * 2 ^ 240 +
        0x7b5fe22b5446f7c62ea27b8bd71cef94e03f3df2626e623173656e646572),
      0x7fa512ef460caa321382fe9d82c15f717d04bdbb9cb7ab958d74226c2035c438)]

def deputyAddr : Addr := beBytes 20 0xde9

def userAddr : Addr := beBytes 20 0xa11ce

def sampleEnv : Env where
  sum x := ((sha256Table.lookup (x.length, beToNat x)).map (beBytes 32)).getD []
  toLower := id
  accAddressFromBech32 str :=
    if str = "0g1qqqqqqqqqqqqqqqqqqqqqqqqqqqqqr0f40xh7q" then some deputyAddr
    else if str = "0g1qqqqqqqqqqqqqqqqqqqqqqqqqqqq5ywwfrrwct" then some userAddr
    else none

def bnbAsset : AssetParam where
  denom := "bnb"
  coinID := 714
  supplyLimit := ⟨1000000, true, 3600000000000, 500000⟩
  active := true
  deputyAddress := deputyAddr
  fixedFee := 10
  minSwapAmount := 1
  maxSwapAmount := 100000
  minBlockLock := 220
  maxBlockLock := 270

def sampleCtx (height : Fin (2 ^ 63)) : Ctx := .atHeight height 1700000000000000000

def sampleNumber (i : Byte) : Bytes := List.replicate 32 i

def sampleHash (i : Byte) : Bytes := calculateRandomHash sampleEnv (sampleNumber i) 1700000000

def sampleID (i : Byte) (sender : Addr) : Bytes :=
  calculateSwapID sampleEnv (sampleHash i) sender "bnb1sender"

def sampleArgs (i : Byte) (sender recipient : Addr) (amount : Int) : CreateArgs where
  randomNumberHash := sampleHash i
  timestamp := 1700000000
  heightSpan := 250
  sender := sender
  recipient := recipient
  senderOtherChain := "bnb1sender"
  recipientOtherChain := "bnb1recipient"
  amount := [⟨"bnb", amount⟩]
  crossChain := true

def sampleState : State chainAddrs where
  params := ⟨⟨[bnbAsset]⟩, by decide⟩
  swaps := KVStore.empty
  byBlock := KVStore.empty
  longterm := KVStore.empty
  supplies := KVStore.empty.set "bnb" (zeroSupply "bnb" 0)
  previousBlockTime := none
  bank := Bank.empty

def sampleGenesis : GenesisState where
  params := ⟨[bnbAsset]⟩
  atomicSwaps := [newSwap (sampleCtx 100) (sampleArgs 1 deputyAddr userAddr 100) .incoming]
  supplies := [{ zeroSupply "bnb" 0 with incomingSupply := ⟨"bnb", 100⟩ }]
  previousBlockTime := 1699999990000000000

def sampleClaim : Op :=
  .claim (sampleCtx 101) (sampleID 1 deputyAddr) (sampleNumber 1)

theorem indexes_consistent_claimed :
    ∃ s₀ : State chainAddrs, initGenesis sampleEnv Bank.empty sampleGenesis = .ok s₀ ∧
      ∀ k id, (runSteps (step sampleEnv) s₀ [sampleClaim]).longterm.get k = some id ↔
        ∃ a, (runSteps (step sampleEnv) s₀ [sampleClaim]).swaps.get id = some a ∧
          a.getSwapID sampleEnv = id ∧
          a.status = .completed ∧
          k = getAtomicSwapByHeightKey (a.closedBlock.toUInt64 + 86400) id := by
  have hok : ∃ s₀ : State chainAddrs, initGenesis sampleEnv Bank.empty sampleGenesis =
      .ok s₀ := by decide
  obtain ⟨s₀, h⟩ := hok
  exact ⟨s₀, h, (indexes_consistent sampleEnv Bank.empty sampleGenesis s₀ h [sampleClaim]).2.1⟩

end ZgChain.Bep3
