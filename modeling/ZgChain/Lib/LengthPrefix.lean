import ZgChain.Lib.Bytes

/-!
# Length-prefixed byte strings

A byte string of at most 255 bytes behind one byte that holds its length. No such
encoding is a proper initial part of another one, so a key that is made of several
of them is read in one way only.
-/

namespace ZgChain

theorem strBytes_injective {s t : String} (h : strBytes s = strBytes t) : s = t := by
  have hbyte : Function.Injective fun b : UInt8 => Fin.ofNat 256 b.toNat := by
    intro a b hab
    have hval : a.toNat % 256 = b.toNat % 256 := congrArg Fin.val hab
    have ha := a.toNat_lt
    have hb := b.toNat_lt
    exact UInt8.toNat_inj.mp (by omega)
  have hlist := List.map_injective_iff.mpr hbyte h
  apply String.toByteArray_inj.mp
  exact ByteArray.ext (Array.ext' hlist)

def lengthPrefixed (bz : Bytes) : Bytes := Fin.ofNat 256 bz.length :: bz

section
variable {a b x y : Bytes} (ha : a.length ≤ 255) (hb : b.length ≤ 255)
include ha hb

theorem lengthPrefixed_append_inj (h : lengthPrefixed a ++ x = lengthPrefixed b ++ y) :
    a = b ∧ x = y := by
  rw [lengthPrefixed, lengthPrefixed, List.cons_append, List.cons_append, List.cons.injEq] at h
  obtain ⟨hlen, happ⟩ := h
  have hval : a.length % 256 = b.length % 256 := congrArg Fin.val hlen
  exact List.append_inj happ (by omega)

theorem lengthPrefixed_prefix : lengthPrefixed a <+: lengthPrefixed b ++ y ↔ a = b := by
  constructor
  · intro h
    obtain ⟨x, hx⟩ := h
    exact (lengthPrefixed_append_inj ha hb hx).1
  · intro h
    subst h
    exact List.prefix_append _ _

end

end ZgChain
