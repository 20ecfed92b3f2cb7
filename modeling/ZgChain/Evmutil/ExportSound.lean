import ZgChain.Evmutil.WrappedSound

/-!
# Genesis of evmutil

The exported state has the minor balances and the parameters. The contracts of the
module are not in it, so a chain that is started from an export deploys them anew, and the
tokens of the old ones cannot be converted back.
-/

namespace ZgChain.Evmutil

variable {A : ModuleAddrs} {E : Type}

inductive GenesisError where
  | duplicateAccount (a : Addr)
  | account (e : Error)
  | params (e : ParamsError)
  deriving DecidableEq, Repr

structure GenesisState where
  accounts : List Account
  params : Params
  deriving DecidableEq, Repr

def validateAccounts (seenAccounts : List Addr) : List Account → Except GenesisError Unit
  | [] => .ok ()
  | account :: accounts => do
    rejectIf (account.address ∈ seenAccounts) (.duplicateAccount account.address)
    account.validate.mapError .account
    validateAccounts (account.address :: seenAccounts) accounts

def GenesisState.validate (gs : GenesisState) : Except GenesisError Unit := do
  validateAccounts [] gs.accounts
  gs.params.validate.mapError .params

theorem GenesisState.validate_ok {gs : GenesisState} {u : Unit} :
    gs.validate = .ok u ↔ validateAccounts [] gs.accounts = .ok () ∧
    gs.params.validate = .ok () := by
  simp only [GenesisState.validate, bind_eq_ok, mapError_eq_ok]
  constructor
  · intro h
    obtain ⟨_, ha, hp⟩ := h
    exact ⟨ha, hp⟩
  · intro h
    exact ⟨(), h.1, h.2⟩

/-- An account that cannot be stored is skipped. -/
def setAccounts (s : State A) (accounts : List Account) : State A :=
  accounts.foldl (fun s account => orElseKeep s (setAccount s account)) s

/-- The bank and the EVM have been started before. A state that is not valid makes the code
panic. -/
def initGenesis (bank : Bank A) (evm : E) (gs : GenesisState) : Except GenesisError (World A E) :=
  match h : gs.validate with
  | .error e => .error e
  | .ok _ => .ok
    { state := setAccounts (State.ofEntries .empty bank empty_entries_valid) gs.accounts
      params := ⟨gs.params, (GenesisState.validate_ok.mp h).2⟩
      deployed := .empty
      evm := evm }

def exportGenesis (w : World A E) : GenesisState := ⟨w.state.accounts.values, w.params.val⟩

/-- The export of a world is accepted and gives back the minor balances, the parameters and the
contracts. -/
def RoundTrips (w : World A E) : Prop :=
  ∃ w', initGenesis w.bank w.evm (exportGenesis w) = .ok w' ∧
  (∀ a, getBalance w'.state a = getBalance w.state a) ∧
    w'.params = w.params ∧ ∀ d, getDeployedCosmosCoinContract w' d =
      getDeployedCosmosCoinContract w d

/-! ## Accounts -/

theorem validateAccounts_of {accounts : List Account} {seen : List Addr}
    (hv : ∀ acc ∈ accounts, acc.validate = .ok ())
    (hseen : ∀ acc ∈ accounts, acc.address ∉ seen) (hn : (accounts.map Account.address).Nodup) :
    validateAccounts seen accounts = .ok () := by
  induction accounts generalizing seen with
  | nil => rfl
  | cons acc accounts ih =>
    obtain ⟨hnew, hn, hrest⟩ := nodup_fresh_cons.mp ⟨hn, hseen⟩
    unfold validateAccounts
    rw [rejectIf_neg hnew, ok_bind, hv acc (by simp)]
    exact ih (fun a ha => hv a (by simp [ha])) hrest hn

theorem setAccount_of {acc : Account} (s : State A) (hv : acc.validate = .ok ()) :
    ∃ s', setAccount s acc = .ok s' := by
  unfold setAccount
  split
  · rename_i e he
    rw [hv] at he
    cases he
  · split
    · exact ⟨_, rfl⟩
    · split
      · exact ⟨_, rfl⟩
      · exact ⟨_, rfl⟩

theorem getBalance_setAccount {acc : Account} (s : State A) (hv : acc.validate = .ok ())
    (a : Addr) :
    getBalance (orElseKeep s (setAccount s acc)) a = if a = acc.address then acc.balance
      else getBalance s a := by
  obtain ⟨s', h⟩ := setAccount_of s hv
  rw [h, orElseKeep, (setAccount_ok h).balance]
  split
  · rename_i e
    rw [e]
    omega
  · exact add_zero _

theorem getBalance_setAccounts_of_not_mem {accounts : List Account} (s : State A)
    (hv : ∀ acc ∈ accounts, acc.validate = .ok ()) {a : Addr}
    (ha : a ∉ accounts.map Account.address) :
    getBalance (setAccounts s accounts) a = getBalance s a := by
  induction accounts generalizing s with
  | nil => rfl
  | cons acc accounts ih =>
    rw [List.map_cons, List.mem_cons, not_or] at ha
    have hstep := getBalance_setAccount s (hv acc (by simp)) a
    rw [if_neg ha.1] at hstep
    exact (ih _ (fun acc h => hv acc (by simp [h])) ha.2).trans hstep

theorem getBalance_setAccounts_of_mem {accounts : List Account} (s : State A)
    (hv : ∀ acc ∈ accounts, acc.validate = .ok ()) (hn : (accounts.map Account.address).Nodup)
    {acc : Account}
    (hacc : acc ∈ accounts) : getBalance (setAccounts s accounts) acc.address = acc.balance := by
  induction accounts generalizing s with
  | nil => cases hacc
  | cons acc' accounts ih =>
    rw [List.map_cons, List.nodup_cons] at hn
    have hrest : ∀ acc ∈ accounts, acc.validate = .ok () := fun acc h => hv acc (by simp [h])
    cases hacc with
    | head =>
      have hstep := getBalance_setAccount s (hv acc (by simp)) acc.address
      rw [if_pos rfl] at hstep
      exact (getBalance_setAccounts_of_not_mem _ hrest hn.1).trans hstep
    | tail _ hacc => exact ih _ hrest hn.2 hacc

section
variable (s : State A)

theorem State.accounts_nodup : (s.accounts.values.map Account.address).Nodup :=
  KVStore.values_nodup fun a acc h => (s.accounts_valid a acc h).1

theorem State.values_valid : ∀ acc ∈ s.accounts.values, acc.validate = .ok () := by
  intro acc h
  obtain ⟨a, ha⟩ := (KVStore.mem_values _ acc).mp h
  exact (s.accounts_valid a acc ha).2

theorem getBalance_setAccounts_values (s₀ : State A) (h₀ : ∀ a, getBalance s₀ a = 0) (a : Addr) :
    getBalance (setAccounts s₀ s.accounts.values) a = getBalance s a := by
  cases ha : s.accounts.get a with
  | some acc =>
    have hmem : acc ∈ s.accounts.values := (KVStore.mem_values _ acc).mpr ⟨a, ha⟩
    have hvalue := getBalance_setAccounts_of_mem s₀ s.values_valid s.accounts_nodup hmem
    rw [(s.accounts_valid a acc ha).1] at hvalue
    rw [hvalue]
    simp [getBalance, getAccount, ha]
  | none =>
    have hnot : a ∉ s.accounts.values.map Account.address := by
      intro h
      obtain ⟨acc, hacc, rfl⟩ := List.mem_map.mp h
      obtain ⟨a', ha'⟩ := (KVStore.mem_values _ acc).mp hacc
      rw [(s.accounts_valid a' acc ha').1, ha'] at ha
      cases ha
    rw [getBalance_setAccounts_of_not_mem s₀ s.values_valid hnot, h₀]
    simp [getBalance, getAccount, ha]

end

/-! ## Export and import -/

theorem exportGenesis_valid (w : World A E) : (exportGenesis w).validate = .ok () :=
  GenesisState.validate_ok.mpr
    ⟨validateAccounts_of w.state.values_valid (fun _ _ => List.not_mem_nil) w.state.accounts_nodup,
      w.params.property⟩

theorem initGenesis_exportGenesis (w : World A E) :
    ∃ w', initGenesis w.bank w.evm (exportGenesis w) = .ok w' ∧
      (∀ a, getBalance w'.state a = getBalance w.state a) ∧
      w'.params = w.params ∧ w'.deployed = .empty := by
  unfold initGenesis
  split
  · rename_i e he
    rw [exportGenesis_valid] at he
    cases he
  · refine ⟨_, rfl, ?_, rfl, rfl⟩
    exact getBalance_setAccounts_values w.state _ fun _ => rfl

/-- The export of a world gives it back exactly if the module has no contract. -/
theorem export_restores_iff (w : World A E) : RoundTrips w ↔ w.deployed = .empty := by
  obtain ⟨w', hinit, hbalance, hparams, hdeployed⟩ := initGenesis_exportGenesis w
  constructor
  · intro h
    obtain ⟨w'', hinit', _, _, hget⟩ := h
    cases hinit.symm.trans hinit'
    refine KVStore.ext_get fun d => ?_
    rw [← hdeployed]
    exact (hget d).symm
  · intro h
    refine ⟨w', hinit, hbalance, hparams, fun d => ?_⟩
    rw [getDeployedCosmosCoinContract, getDeployedCosmosCoinContract, hdeployed, h]

def wrapAtom : Op := .convertCosmosCoinToERC20 holderAddr holderEVMAddress ⟨"uatom", 2⟩

def wrappedWorld : World chainAddrs Contracts := run (erc20Evm id) atomWorld [wrapAtom]

/-- A coin gets a contract; after an export and import it gets another one when it is wrapped
again. -/
theorem export_loses_contract :
    initGenesis holderState.bank noContracts ⟨[], ⟨[], [atomToken]⟩⟩ = .ok atomWorld ∧
    getDeployedCosmosCoinContract wrappedWorld "uatom" = some (createAddress 0) ∧
    ∃ w', initGenesis wrappedWorld.bank wrappedWorld.evm (exportGenesis wrappedWorld) = .ok w' ∧
      getDeployedCosmosCoinContract w' "uatom" = none := by
  obtain ⟨w', hinit, _, _, hdeployed⟩ := initGenesis_exportGenesis wrappedWorld
  refine ⟨rfl, by decide +kernel, w', hinit, ?_⟩
  rw [getDeployedCosmosCoinContract, hdeployed]
  rfl

end ZgChain.Evmutil
