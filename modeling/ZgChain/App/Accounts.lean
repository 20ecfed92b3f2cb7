import ZgChain.Sdk.Types

/-!
# Module accounts

The application's module accounts, their permissions, and the addresses the
bank refuses to pay. Module addresses are hashes of the module names.
-/

namespace ZgChain

inductive ModuleName where
  | feeCollector
  | distribution
  | bondedPool
  | notBondedPool
  | gov
  | ibcTransfer
  | evm
  | evmutil
  | issuance
  | bep3
  | mint
  deriving DecidableEq, Repr

inductive Permission where
  | minter
  | burner
  | staking
  deriving DecidableEq, Repr

open ModuleName Permission

def mAccPerms : ModuleName → List Permission
  | feeCollector => []
  | distribution => []
  | bondedPool => [burner, staking]
  | notBondedPool => [burner, staking]
  | gov => [burner]
  | ibcTransfer => [minter, burner]
  | evm => [minter, burner]
  | evmutil => [minter, burner]
  | issuance => [minter, burner]
  | bep3 => [burner, minter]
  | mint => [minter]

def moduleNames : List ModuleName :=
  [feeCollector, distribution, bondedPool, notBondedPool, gov, ibcTransfer, evm, evmutil,
    issuance, bep3, mint]

theorem mem_moduleNames (m : ModuleName) : m ∈ moduleNames := by cases m <;> simp [moduleNames]

/-- The addresses of the module accounts: nonempty, one for each module. -/
structure ModuleAddrs where
  addr : ModuleName → Addr
  injective : Function.Injective addr
  nonempty : ∀ m, addr m ≠ []

namespace ModuleAddrs
variable (A : ModuleAddrs)

def moduleAccountAddrs (a : Addr) : Bool := moduleNames.any fun m => A.addr m == a

/-- The module accounts that may still be paid: there are none. -/
def allowedMaccs (_ : Addr) : Bool := false

def loadBlockedMaccAddrs (a : Addr) : Bool := A.moduleAccountAddrs a && !allowedMaccs a

theorem moduleAccountAddrs_iff (a : Addr) : A.moduleAccountAddrs a = true ↔ ∃ m, A.addr m = a := by
  simp only [moduleAccountAddrs, List.any_eq_true, beq_iff_eq]
  constructor
  · rintro ⟨m, _, h⟩; exact ⟨m, h⟩
  · rintro ⟨m, h⟩; exact ⟨m, mem_moduleNames m, h⟩

@[simp] theorem moduleAccountAddrs_addr (m : ModuleName) : A.moduleAccountAddrs (A.addr m) = true :=
  (A.moduleAccountAddrs_iff _).mpr ⟨m, rfl⟩

@[simp] theorem loadBlockedMaccAddrs_eq (a : Addr) :
    A.loadBlockedMaccAddrs a = A.moduleAccountAddrs a := by
  simp [loadBlockedMaccAddrs, allowedMaccs]

theorem addr_ne {m n : ModuleName} (h : m ≠ n) : A.addr m ≠ A.addr n := fun e => h (A.injective e)

end ModuleAddrs

/-! ## The chain's own addresses -/

/-- The first 20 bytes of the SHA-256 hash of each module's name. -/
def moduleHash : ModuleName → Nat
  | feeCollector => 0xf1829676db577682e944fc3493d451b67ff3e29f
  | distribution => 0x93354845030274cd4bf1686abd60ab28ec52e1a7
  | bondedPool => 0x4fea76427b8345861e80a3540a8a9d936fd39391
  | notBondedPool => 0x5911b844d7bc224654fe0dcd16babd2d253f2fdf
  | gov => 0x7b5fe22b5446f7c62ea27b8bd71cef94e03f3df2
  | ibcTransfer => 0x27f576cafbb263ed44be8bd094f66114da268777
  | evm => 0x603871c2ddd41c26ee77495e2e31e6de7f9957e0
  | evmutil => 0x71586e5b3468b5720baa9162a02366fae6933bfe
  | issuance => 0xb73ab4da4a2df49167485401621cb1d0cdc3c488
  | bep3 => 0xc9388b3b1ea8b32439aeffb6cdf83d6d6e26cedd
  | mint => 0xdc6f17bbec824fff8f86587966b2047db6ab7367

theorem moduleHash_lt (m : ModuleName) : moduleHash m < 256 ^ 20 := by cases m <;> decide

theorem moduleHash_injective : Function.Injective moduleHash := by
  have h : ∀ m ∈ moduleNames, ∀ n ∈ moduleNames, moduleHash m = moduleHash n → m = n := by decide
  exact fun m n => h m (mem_moduleNames m) n (mem_moduleNames n)

def chainAddrs : ModuleAddrs where
  addr m := beBytes 20 (moduleHash m)
  injective m n h := moduleHash_injective (beBytes_injective (moduleHash_lt m) (moduleHash_lt n) h)
  nonempty m h := by simpa using congrArg List.length h

end ZgChain
