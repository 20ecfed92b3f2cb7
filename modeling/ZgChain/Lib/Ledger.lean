import ZgChain.Lib.Result

/-!
# Ledgers

A ledger gives each account an integer balance. Money enters and leaves at one
account, or moves between two.
-/

namespace ZgChain

abbrev Ledger (α : Type) := α → Int

namespace Ledger

variable {α : Type} [DecidableEq α]

def add (L : Ledger α) (x : α) (n : Int) : Ledger α := L + Pi.single x n

theorem add_add (L : Ledger α) (x : α) (m n : Int) : (L.add x m).add x n = L.add x (m + n) := by
  simp [add, add_assoc, Pi.single_add]

theorem add_zero (L : Ledger α) (x : α) : L.add x 0 = L := by
  simp [add]

/-- The sender and the recipient may be the same account. -/
def move (L : Ledger α) (x y : α) (n : Int) : Ledger α := (L.add x (-n)).add y n

end Ledger

end ZgChain
