import ZgChain.Lib.Result

/-!
# Byte strings

Byte strings are compared lexicographically. Big-endian encodings of one length
compare as the numbers they encode, so a range scan that ends after the
encoding of `c` visits exactly the keys whose number is at most `c`.
-/

namespace ZgChain

abbrev Byte := Fin 256

instance neZero_byte : NeZero 256 := ⟨by decide⟩

abbrev Bytes := List Byte

instance lawfulBEq_bytes : LawfulBEq Bytes := inferInstance

def strBytes (s : String) : Bytes := s.toUTF8.data.toList.map fun b => Fin.ofNat 256 b.toNat

def isSpace (c : Char) : Bool :=
  c.val ∈ [0x09, 0x0a, 0x0b, 0x0c, 0x0d, 0x20, 0x85, 0xa0, 0x1680, 0x2028, 0x2029, 0x202f,
    0x205f, 0x3000] ||
    (0x2000 ≤ c.val && c.val ≤ 0x200a)

def isBlank (s : String) : Bool := s.toList.all isSpace

/-! ## Hexadecimal -/

def hexDigit (c : Char) : Option Nat :=
  if '0' ≤ c ∧ c ≤ '9' then some (c.toNat - 48)
  else if 'a' ≤ c ∧ c ≤ 'f' then some (c.toNat - 87)
  else if 'A' ≤ c ∧ c ≤ 'F' then some (c.toNat - 55)
  else none

def decodeHexDigits : List Char → Option Bytes
  | [] => some []
  | [_] => none
  | c :: c' :: cs => do
    let hi ← hexDigit c
    let lo ← hexDigit c'
    let rest ← decodeHexDigits cs
    return Fin.ofNat 256 (16 * hi + lo) :: rest

/-- The bytes a string of an even number of hexadecimal digits stands for. -/
def decodeHex (s : String) : Option Bytes := decodeHexDigits s.toList

def hexChar (n : Nat) : Char := Char.ofNat (if n < 10 then 48 + n else 87 + n)

def encodeHexDigits : Bytes → List Char
  | [] => []
  | b :: bs => hexChar (b.val / 16) :: hexChar (b.val % 16) :: encodeHexDigits bs

def encodeHex (b : Bytes) : String := String.ofList (encodeHexDigits b)

theorem hexDigit_hexChar {n : Nat} (h : n < 16) : hexDigit (hexChar n) = some n := by
  have hall : ∀ n : Fin 16, hexDigit (hexChar n.val) = some n.val := by decide
  exact hall ⟨n, h⟩

theorem decodeHexDigits_encodeHexDigits (b : Bytes) :
    decodeHexDigits (encodeHexDigits b) = some b := by
  induction b with
  | nil => rfl
  | cons x b ih =>
    have hx := x.isLt
    have hbyte : Fin.ofNat 256 (16 * (x.val / 16) + x.val % 16) = x := by
      apply Fin.ext
      simp only [Fin.ofNat]
      omega
    have hhi : hexDigit (hexChar (x.val / 16)) = some (x.val / 16) := hexDigit_hexChar (by omega)
    have hlo : hexDigit (hexChar (x.val % 16)) = some (x.val % 16) := hexDigit_hexChar (by omega)
    rw [encodeHexDigits, decodeHexDigits, hhi, hlo, ih]
    show some (Fin.ofNat 256 (16 * (x.val / 16) + x.val % 16) :: b) = some (x :: b)
    rw [hbyte]

@[simp] theorem decodeHex_encodeHex (b : Bytes) : decodeHex (encodeHex b) = some b := by
  rw [decodeHex, encodeHex, String.toList_ofList]
  exact decodeHexDigits_encodeHexDigits b

/-! ## Big-endian numbers -/

/-- The `len` low bytes of `n`, the most significant first. -/
def beBytes : Nat → Nat → Bytes
  | 0, _ => []
  | len + 1, n => Fin.ofNat 256 (n / 256 ^ len) :: beBytes len n

def beToNat : Bytes → Nat
  | [] => 0
  | b :: bs => b.val * 256 ^ bs.length + beToNat bs

@[simp] theorem length_beBytes (len n : Nat) : (beBytes len n).length = len := by
  induction len with
  | zero => rfl
  | succ len ih => simp [beBytes, ih]

theorem beToNat_lt (bs : Bytes) : beToNat bs < 256 ^ bs.length := by
  induction bs with
  | nil => simp [beToNat]
  | cons b bs ih =>
    have hb := b.isLt
    have : b.val * 256 ^ bs.length + 256 ^ bs.length ≤ 256 * 256 ^ bs.length := by
      rw [← Nat.succ_mul]; exact Nat.mul_le_mul_right _ hb
    simp only [beToNat, List.length_cons, pow_succ]
    omega

theorem beToNat_beBytes (len n : Nat) : beToNat (beBytes len n) = n % 256 ^ len := by
  induction len with
  | zero => simp [beBytes, beToNat, Nat.mod_one]
  | succ len ih =>
    have h : (Fin.ofNat 256 (n / 256 ^ len)).val = n / 256 ^ len % 256 := rfl
    rw [beBytes, beToNat, ih, length_beBytes, h, pow_succ, Nat.mod_mul, mul_comm]
    omega

theorem beBytes_beToNat (bs : Bytes) : beBytes bs.length (beToNat bs) = bs := by
  suffices h : ∀ (bs : Bytes) (m : Nat), beBytes bs.length
      (m * 256 ^ bs.length + beToNat bs) = bs by
    simpa using h bs 0
  intro bs
  induction bs with
  | nil => intro m; rfl
  | cons b bs ih =>
    intro m
    have hlt := beToNat_lt bs
    have e : m * 256 ^ (bs.length + 1) + (b.val * 256 ^ bs.length + beToNat bs) =
        (m * 256 + b.val) * 256 ^ bs.length + beToNat bs := by ring
    simp only [List.length_cons, beBytes, beToNat, e]
    rw [ih]
    congr 1
    apply Fin.ext
    have hd : ((m * 256 + b.val) * 256 ^ bs.length + beToNat bs) / 256 ^ bs.length = m *
        256 + b.val := by
      rw [mul_comm, Nat.mul_add_div (by positivity), Nat.div_eq_of_lt hlt, add_zero]
    have hb := b.isLt
    simp only [Fin.ofNat, hd]
    omega

theorem beBytes_injective {len m n : Nat} (hm : m < 256 ^ len) (hn : n < 256 ^ len)
    (h : beBytes len m = beBytes len n) : m = n := by
  have := congrArg beToNat h
  rwa [beToNat_beBytes, beToNat_beBytes, Nat.mod_eq_of_lt hm, Nat.mod_eq_of_lt hn] at this

/-- Byte strings of one length with the same remainder are told apart by their quotients. -/
theorem eq_iff_beToNat_div {a b : Bytes} (hl : a.length = b.length) {m : Nat}
    (hm : beToNat a % m = beToNat b % m) : a = b ↔ beToNat a / m = beToNat b / m := by
  constructor
  · intro h
    rw [h]
  · intro h
    have hn : beToNat a = beToNat b := by
      rw [← Nat.div_add_mod (beToNat a) m, ← Nat.div_add_mod (beToNat b) m, h, hm]
    rw [← beBytes_beToNat a, ← beBytes_beToNat b, hl, hn]

theorem cons_le_cons_bytes (x y : Byte) (a b : Bytes) :
    x :: a ≤ y :: b ↔ x < y ∨ x = y ∧ a ≤ b := by
  rw [← not_lt, List.cons_lt_cons_iff]
  rcases lt_trichotomy x y with h | h | h
  · simp [h, h.ne', not_lt.mpr h.le]
  · simp [h]
  · simp [h, h.ne', not_lt.mpr h.le]

theorem le_iff_beToNat_le : ∀ {a b : Bytes}, a.length = b.length → (a ≤ b ↔ beToNat a ≤ beToNat b)
  | [], [], _ => by simp
  | [], _ :: _, h => by simp at h
  | _ :: _, [], h => by simp at h
  | x :: a, y :: b, h => by
    have hl : a.length = b.length := by simpa using h
    have ih := le_iff_beToNat_le hl
    have ha := beToNat_lt a
    have hb := beToNat_lt b
    rw [hl] at ha
    simp only [cons_le_cons_bytes, beToNat, ih, hl]
    rcases lt_trichotomy x y with hxy | hxy | hxy
    · have : (x.val + 1) * 256 ^ b.length ≤ y.val * 256 ^ b.length := Nat.mul_le_mul_right _ hxy
      rw [Nat.succ_mul] at this
      simp only [hxy, true_or, true_iff]
      omega
    · subst hxy; simp
    · have : (y.val + 1) * 256 ^ b.length ≤ x.val * 256 ^ b.length := Nat.mul_le_mul_right _ hxy
      rw [Nat.succ_mul] at this
      simp only [not_lt.mpr hxy.le, hxy.ne', false_and, or_self, false_iff, not_le]
      omega

/-! ## The end of a range of keys with one first part -/

/-- The least byte string above every string that starts with `p`, if there is one. -/
def prefixEndBytes : Bytes → Option Bytes
  | [] => none
  | b :: p =>
    match prefixEndBytes p with
    | some e => some (b :: e)
    | none => if b = 255 then none else some [b + 1]

/-- Whether a key is below an exclusive end of a range, which may be open. -/
def belowEnd (k : Bytes) (e : Option Bytes) : Prop := ∀ b, e = some b → k < b

theorem lt_succ_byte {x b : Byte} (h : b ≠ 255) : x < b + 1 ↔ x ≤ b := by
  have hb : (b + 1).val = b.val + 1 := by
    rw [Fin.val_add_one]
    split
    · rename_i hl; exact absurd (by rw [hl]; decide) h
    · rfl
  rw [Fin.lt_def, hb, Fin.le_def]; omega

theorem belowEnd_prefixEndBytes : ∀ {q p : Bytes} (x : Bytes), q.length = p.length →
    (belowEnd (q ++ x) (prefixEndBytes p) ↔ q ≤ p)
  | [], [], x, _ => by simp [belowEnd, prefixEndBytes]
  | [], _ :: _, _, h => by simp at h
  | _ :: _, [], _, h => by simp at h
  | a :: q, b :: p, x, h => by
    have ih := belowEnd_prefixEndBytes (q := q) (p := p) x (by simpa using h)
    rw [cons_le_cons_bytes, ← ih]
    unfold belowEnd
    cases he : prefixEndBytes p with
    | some e =>
      simp only [prefixEndBytes, he, Option.some.injEq, forall_eq', List.cons_append,
        List.cons_lt_cons_iff]
    | none =>
      by_cases hb : b = 255
      · have : a ≤ b := by rw [hb]; exact Fin.le_last a
        simpa [prefixEndBytes, he, hb, ← le_iff_lt_or_eq] using hb ▸ this
      · simp [prefixEndBytes, he, hb, List.cons_lt_cons_iff, lt_succ_byte hb, le_iff_lt_or_eq]

end ZgChain
