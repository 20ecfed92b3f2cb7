import ZgChain.Issuance.RateSound

/-!
# Block lists are sets

An address is added at the end of a list, and taken off by putting the last entry in its
place. Assets are copied out of the parameters, changed and copied back by denom, and the
parameters are validated again. Along any history a list has the members that the accepted
calls leave it with, each once, and the owner is never one of them.
-/

namespace ZgChain.Issuance

variable {A : ModuleAddrs} {env : Env} {s s₁ s' : State A} {asset asset' : Asset}

inductive ListOp where
  | blockAddress (denom : Denom) (owner blockedAddress : Addr)
  | unblockAddress (denom : Denom) (owner addr : Addr)
  | setPauseStatus (owner : Addr) (denom : Denom) (status : Bool)
  | synchronizeBlockList
  deriving DecidableEq, Repr

namespace ListOp

def exec (env : Env) (s : State A) : ListOp → Except Error (State A)
  | blockAddress denom owner blockedAddress =>
    Issuance.blockAddress env s denom owner blockedAddress
  | unblockAddress denom owner addr => Issuance.unblockAddress env s denom owner addr
  | setPauseStatus owner denom status => Issuance.setPauseStatus env s owner denom status
  | synchronizeBlockList => Issuance.synchronizeBlockList s

def step (env : Env) (s : State A) (op : ListOp) : State A := orElseKeep s (op.exec env s)

def run (env : Env) (s : State A) (ops : List ListOp) : State A := runSteps (step env) s ops

def members (env : Env) (d : Denom) (X : Set String) : ListOp → Set String
  | blockAddress denom _ x => if denom = d then insert (env.bech32 x) X else X
  | unblockAddress denom _ x => if denom = d then X \ {env.bech32 x} else X
  | _ => X

def paused (d : Denom) (p : Bool) : ListOp → Bool
  | setPauseStatus _ denom status => if denom = d then status else p
  | _ => p

def accepted (env : Env) : State A → List ListOp → List ListOp
  | _, [] => []
  | s, op :: ops =>
    match op.exec env s with
    | .ok s' => op :: accepted env s' ops
    | .error _ => accepted env s ops

structure Follows (env : Env) (ops : List ListOp) (asset asset' : Asset) : Prop where
  fields : asset' = { asset with
    blockedAddresses := asset'.blockedAddresses
    paused := ops.foldl (paused asset.denom) asset.paused }
  members : ∀ t, t ∈ asset'.blockedAddresses ↔
    t ∈ ops.foldl (members env asset.denom) {t | t ∈ asset.blockedAddresses}
  nodup : asset'.blockedAddresses.Nodup
  canonical : ∀ t ∈ asset'.blockedAddresses, ∃ x, env.bech32 x = t
  owner : asset'.owner ∉ asset'.blockedAddresses

end ListOp

/-! ## Lists -/

/-- Taking an entry off moves the last one, and leaves all the others. -/
theorem removeBlockedAddress_perm {l : List String} {i : Nat} (hi : i < l.length) :
    (removeBlockedAddress l i).Perm (l.eraseIdx i) := by
  have hne : l ≠ [] := by
    intro e
    rw [e] at hi
    exact absurd hi (Nat.not_lt_zero i)
  obtain ⟨xs, x, rfl⟩ : ∃ xs x, l = xs ++ [x] := ⟨_, _, (List.dropLast_append_getLast hne).symm⟩
  rw [removeBlockedAddress, List.getLast?_concat, Option.getD_some]
  rw [List.length_append, List.length_singleton] at hi
  rcases Nat.lt_or_ge i xs.length with hlt | hge
  · rw [List.set_append_left _ _ hlt, List.dropLast_concat, List.eraseIdx_append_of_lt_length hlt]
    exact (List.set_perm_cons_eraseIdx hlt x).trans (List.perm_append_singleton _ _).symm
  · have hlast : i = xs.length := by omega
    rw [hlast, List.set_append_right _ _ (le_refl _), List.eraseIdx_append_of_length_le (le_refl _)]
    simp

theorem mem_removeBlockedAddress {l : List String} {i : Nat} {t : String} (hn : l.Nodup)
    (hi : l[i]? = some t) (u : String) : u ∈ removeBlockedAddress l i ↔ u ∈ l ∧ u ≠ t := by
  obtain ⟨hlt, rfl⟩ := List.getElem?_eq_some_iff.mp hi
  rw [(removeBlockedAddress_perm hlt).mem_iff, List.mem_eraseIdx_iff_getElem, List.mem_iff_getElem]
  constructor
  · rintro ⟨j, hj, hne, rfl⟩
    exact ⟨⟨j, hj, rfl⟩, fun e => hne ((List.Nodup.getElem_inj_iff hn).mp e)⟩
  · rintro ⟨⟨j, hj, rfl⟩, hne⟩
    exact ⟨j, hj, fun e => hne (by subst e; rfl), rfl⟩

theorem checkBlockedAddress_eq_some {t : String} {i : Nat}
    (h : checkBlockedAddress asset t = some i) :
    asset.blockedAddresses[i]? = some t := by
  obtain ⟨hlt, he, _⟩ := List.findIdx?_eq_some_iff_getElem.mp h
  rw [List.getElem?_eq_some_iff]
  exact ⟨hlt, by simpa using he⟩

theorem checkBlockedAddress_isSome {t : String} :
    (checkBlockedAddress asset t).isSome = true ↔ t ∈ asset.blockedAddresses := by
  rw [checkBlockedAddress, List.findIdx?_isSome, List.any_eq_true]
  simp

/-! ## One call -/

inductive Changes (env : Env) : ListOp → Asset → Asset → Prop
  | other {op : ListOp} {asset : Asset}
      (hlist : ∀ X, op.members env asset.denom X = X) (hpause : ∀ p, op.paused asset.denom p = p) :
      Changes env op asset asset
  | blocked {asset : Asset} (owner x : Addr) (h : env.bech32 x ∉ asset.blockedAddresses) :
      Changes env (.blockAddress asset.denom owner x) asset
        { asset with blockedAddresses := asset.blockedAddresses ++ [env.bech32 x] }
  | unblocked {asset : Asset} (owner x : Addr) {i : Nat}
      (h : asset.blockedAddresses[i]? = some (env.bech32 x)) :
      Changes env (.unblockAddress asset.denom owner x) asset
        { asset with blockedAddresses := removeBlockedAddress asset.blockedAddresses i }
  | paused {asset : Asset} (owner : Addr) (status : Bool) :
      Changes env (.setPauseStatus owner asset.denom status) asset { asset with paused := status }

theorem setAsset_changes {op : ListOp} {d : Denom} (hg : getAsset s d = .ok asset)
    (h : setAsset s asset' = .ok s') (hd : asset'.denom = d) (hchange : Changes env op asset asset')
    (hother : ∀ a : Asset, a.denom ≠ d → Changes env op a a) :
    ∃ f : Asset → Asset, s'.params.val.assets = s.params.val.assets.map f ∧
      ∀ a ∈ s.params.val.assets, Changes env op a (f a) := by
  refine ⟨fun a => if a.denom = asset'.denom then asset' else a, ?_, fun a ha => ?_⟩
  · rw [(setParams_ok h).1]
  · simp only [hd]
    by_cases had : a.denom = d
    · have hfound := getAsset_mem s ha
      rw [had, hg] at hfound
      cases hfound
      rw [if_pos had]
      exact hchange
    · rw [if_neg had]
      exact hother a had

theorem getAsset_denom {d : Denom} (h : getAsset s d = .ok asset) : asset.denom = d := by
  simpa using List.find?_some ((orReject_eq_ok _ _ _).mp h)

theorem ListOp.exec_changes {op : ListOp} (h : op.exec env s = .ok s') :
    ∃ f : Asset → Asset, s'.params.val.assets = s.params.val.assets.map f ∧
      ∀ a ∈ s.params.val.assets, Changes env op a (f a) := by
  cases op with
  | blockAddress denom owner x =>
    simp only [ListOp.exec, Issuance.blockAddress, bind_eq_ok, rejectIf_eq_ok,
      checkBlockedAddress_isSome] at h
    obtain ⟨asset, hg, _, _, _, _, _, hnew, _, _, h⟩ := h
    obtain rfl := getAsset_denom hg
    refine setAsset_changes hg h rfl (.blocked owner x hnew) fun a ha => ?_
    exact .other (fun X => if_neg (Ne.symm ha)) fun p => rfl
  | unblockAddress denom owner x =>
    simp only [ListOp.exec, Issuance.unblockAddress, bind_eq_ok, orReject_eq_ok] at h
    obtain ⟨asset, hg, _, _, _, _, i, hi, h⟩ := h
    obtain rfl := getAsset_denom hg
    refine setAsset_changes hg h rfl (.unblocked owner x (checkBlockedAddress_eq_some hi))
      fun a ha => ?_
    exact .other (fun X => if_neg (Ne.symm ha)) fun p => rfl
  | setPauseStatus owner denom status =>
    simp only [ListOp.exec, Issuance.setPauseStatus, bind_eq_ok] at h
    obtain ⟨asset, hg, _, _, h⟩ := h
    obtain rfl := getAsset_denom hg
    have hother : ∀ a : Asset, a.denom ≠ asset.denom →
        Changes env (.setPauseStatus owner asset.denom status) a a :=
      fun a ha => .other (fun X => rfl) fun p => if_neg (Ne.symm ha)
    -- a status that is set already is not written
    by_cases hsame : asset.paused = status
    · rw [if_pos hsame, pure_eq_ok] at h
      subst h
      refine ⟨id, (List.map_id _).symm, fun a ha => ?_⟩
      by_cases had : a.denom = asset.denom
      · have hfound := getAsset_mem s ha
        rw [had, hg] at hfound
        cases hfound
        have hself : asset = { asset with paused := status } := by rw [← hsame]
        rw [id_eq]
        conv => rhs; rw [hself]
        exact .paused owner status
      · exact hother a had
    · rw [if_neg hsame] at h
      have hstatus : (!asset.paused) = status := by
        cases hp : asset.paused <;> cases status <;> simp_all
      rw [hstatus] at h
      exact setAsset_changes hg h rfl (.paused owner status) hother
  | synchronizeBlockList =>
    rw [ListOp.exec, synchronizeBlockList_eq] at h
    cases h
    exact ⟨id, (List.map_id _).symm, fun a _ => .other (fun X => rfl) fun p => rfl⟩

/-- Canonical texts of addresses, none of them twice. -/
def Proper (env : Env) (asset : Asset) : Prop :=
  asset.blockedAddresses.Nodup ∧ ∀ t ∈ asset.blockedAddresses, ∃ x, env.bech32 x = t

theorem Changes.proper {op : ListOp} (h : Changes env op asset asset') (hp : Proper env asset) :
    Proper env asset' := by
  cases h with
  | other => exact hp
  | blocked owner x hnew =>
    refine ⟨hp.1.append (List.nodup_singleton _) (by simpa using hnew), fun t ht => ?_⟩
    rcases List.mem_append.mp ht with ht | ht
    · exact hp.2 t ht
    · exact ⟨x, (List.mem_singleton.mp ht).symm⟩
  | unblocked owner x hi =>
    have hlt := (List.getElem?_eq_some_iff.mp hi).1
    refine ⟨(removeBlockedAddress_perm hlt).nodup_iff.mpr (hp.1.eraseIdx _), fun t ht => ?_⟩
    exact hp.2 t ((mem_removeBlockedAddress hp.1 hi t).mp ht).1
  | paused owner status => exact hp

theorem Changes.effect {op : ListOp} (h : Changes env op asset asset') (hp : Proper env asset) :
    {t | t ∈ asset'.blockedAddresses} = op.members env asset.denom
      {t | t ∈ asset.blockedAddresses} ∧
      asset' = { asset with
        blockedAddresses := asset'.blockedAddresses
        paused := op.paused asset.denom asset.paused } := by
  cases h with
  | other hlist hpause => exact ⟨(hlist _).symm, by rw [hpause]⟩
  | blocked owner x hnew =>
    refine ⟨?_, rfl⟩
    ext t
    simp [ListOp.members, or_comm]
  | unblocked owner x hi =>
    refine ⟨?_, rfl⟩
    ext t
    simp [ListOp.members, mem_removeBlockedAddress hp.1 hi]
  | paused owner status => exact ⟨rfl, by simp [ListOp.paused]⟩

theorem ListOp.Follows.cons {op : ListOp} {ops : List ListOp} {asset₁ : Asset}
    (h₁ : Changes env op asset asset₁) (hp : Proper env asset)
    (h : ListOp.Follows env ops asset₁ asset') :
    ListOp.Follows env (op :: ops) asset asset' := by
  obtain ⟨hmembers, hfields⟩ := h₁.effect hp
  have hdenom : asset₁.denom = asset.denom := by rw [hfields]
  have hpaused : asset₁.paused = op.paused asset.denom asset.paused := by rw [hfields]
  refine ⟨?_, fun t => ?_, h.nodup, h.canonical, h.owner⟩
  · have hlast := h.fields
    rw [hdenom, hpaused, hfields] at hlast
    exact hlast
  · rw [h.members t, hmembers, hdenom, List.foldl_cons]

theorem owner_not_listed (s : State A) (ha : asset ∈ s.params.val.assets) :
    asset.owner ∉ asset.blockedAddresses := by
  have hv := validateAssets_mem s.params.property ha
  simp only [Asset.validate, bind_eq_ok, forM_eq_ok, validateBlockedAddress, rejectIf_eq_ok] at hv
  obtain ⟨_, _, _, _, _, hall, _⟩ := hv
  intro hmem
  obtain ⟨_, _, hne⟩ := hall _ hmem
  exact hne rfl

/-! ## Histories -/

theorem ListOp.run_follows (s : State A) (ops : List ListOp)
    (hs : ∀ asset ∈ s.params.val.assets, Proper env asset) :
    ∃ f : Asset → Asset, (ListOp.run env s ops).params.val.assets = s.params.val.assets.map f ∧
      ∀ a ∈ s.params.val.assets, ListOp.Follows env (ListOp.accepted env s ops) a (f a) := by
  induction ops generalizing s with
  | nil =>
    refine ⟨id, (List.map_id _).symm, fun a ha => ?_⟩
    exact ⟨rfl, fun t => Iff.rfl, (hs a ha).1, (hs a ha).2, owner_not_listed s ha⟩
  | cons op ops ih =>
    rw [ListOp.run, runSteps_cons, ← ListOp.run, ListOp.accepted, ListOp.step]
    cases hexec : op.exec env s with
    | error e => exact ih s hs
    | ok s₁ =>
      obtain ⟨f, hf, hchanges⟩ := ListOp.exec_changes hexec
      have hs₁ : ∀ asset ∈ s₁.params.val.assets, Proper env asset := by
        rw [hf]
        intro b hb
        obtain ⟨a, ha, rfl⟩ := List.mem_map.mp hb
        exact (hchanges a ha).proper (hs a ha)
      obtain ⟨g, hg, hfollows⟩ := ih s₁ hs₁
      refine ⟨g ∘ f, ?_, fun a ha => ?_⟩
      · rw [← List.map_map, ← hf]
        exact hg
      · refine (hfollows (f a) ?_).cons (hchanges a ha) (hs a ha)
        rw [hf]
        exact List.mem_map_of_mem ha

theorem issueTokens_listed {tokens : Coin} {owner receiver : Addr}
    (ha : asset ∈ s.params.val.assets)
    (hd : tokens.denom = asset.denom) (hb : asset.blockable = true)
    (hl : env.bech32 receiver ∈ asset.blockedAddresses) :
    ∃ e, issueTokens env s tokens owner receiver = .error e := by
  rw [fails_iff]
  rintro ⟨s', h⟩
  simp only [issueTokens, hd, getAsset_mem s ha, ok_bind, bind_eq_ok, rejectIf_eq_ok,
    checkBlockedAddress_isSome] at h
  obtain ⟨_, _, _, _, _, hnot, _⟩ := h
  exact hnot ⟨hb, hl⟩

/-- From valid parameters whose lists hold canonical addresses, each once, and along every
history: the assets are the same and in the same order, the list of each has the members
that the accepted calls for its denom leave it with, each once and the owner never, its
other fields are as they were but for the pause status the accepted calls set, and no tokens
of a blockable asset are issued to a listed address. -/
theorem block_lists_are_sets (env : Env) (s : State A) (ops : List ListOp)
    (hs : ∀ asset ∈ s.params.val.assets, asset.blockedAddresses.Nodup ∧
      ∀ t ∈ asset.blockedAddresses, ∃ x, env.bech32 x = t) :
    List.Forall₂ (ListOp.Follows env (ListOp.accepted env s ops)) s.params.val.assets
        (ListOp.run env s ops).params.val.assets ∧
      ∀ asset ∈ (ListOp.run env s ops).params.val.assets, asset.blockable = true →
        ∀ (tokens : Coin) (owner receiver : Addr), tokens.denom = asset.denom →
          env.bech32 receiver ∈ asset.blockedAddresses →
          ∃ e, issueTokens env (ListOp.run env s ops) tokens owner receiver = .error e := by
  refine ⟨?_, fun asset ha hb tokens owner receiver hd hl => issueTokens_listed ha hd hb hl⟩
  obtain ⟨f, hf, hfollows⟩ := ListOp.run_follows s ops hs
  rw [hf, List.forall₂_map_right_iff, List.forall₂_same]
  exact hfollows

theorem listedParams_valid :
    Params.validate ⟨[⟨ownerText, "usdx", [vestingText], false, true, ⟨false, 0, 0⟩⟩]⟩ =
      .ok () := by
  decide

def listedState : State chainAddrs where
  params := ⟨_, listedParams_valid⟩
  supplies := KVStore.empty
  previousBlockTime := none
  bank := (Bank.empty.setAccount vestingAddr).setAccount ownerAddr

/-- The owner unblocks the address, blocks it again, fails to block their own address, and
pauses the asset. -/
def relistOps : List ListOp :=
  [.unblockAddress "usdx" ownerAddr vestingAddr, .blockAddress "usdx" ownerAddr vestingAddr,
    .blockAddress "usdx" ownerAddr ownerAddr, .setPauseStatus ownerAddr "usdx" true]

theorem block_lists_are_sets_relisted :
    ListOp.accepted sampleEnv listedState relistOps =
        [.unblockAddress "usdx" ownerAddr vestingAddr, .blockAddress "usdx" ownerAddr vestingAddr,
          .setPauseStatus ownerAddr "usdx" true] ∧
      List.Forall₂ (ListOp.Follows sampleEnv (ListOp.accepted sampleEnv listedState relistOps))
        listedState.params.val.assets
          (ListOp.run sampleEnv listedState relistOps).params.val.assets := by
  have hproper : ∀ asset ∈ listedState.params.val.assets, asset.blockedAddresses.Nodup ∧
      ∀ t ∈ asset.blockedAddresses, ∃ x, sampleEnv.bech32 x = t := by
    intro asset ha
    rw [List.mem_singleton.mp ha]
    refine ⟨by decide, fun t ht => ⟨vestingAddr, ?_⟩⟩
    rw [List.mem_singleton.mp ht]
    decide
  exact ⟨by decide, (block_lists_are_sets sampleEnv listedState relistOps hproper).1⟩

end ZgChain.Issuance
