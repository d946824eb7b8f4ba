/-
  File:      HeliosLB/Lib/BigEndian.lean
  Subject:   BYTE STRINGS AS BIG-ENDIAN NUMBERS. Nothing here names a program.

  Strings of one length and the numbers below `256 ^ length` are the same thing, and then a block
  of the strings with a common bit prefix is an interval of numbers.

  * `value`, `value_lt`, `value_inj` -- the number a string spells;
  * `lt_iff_value`, `le_iff_value` -- at one length the lexicographic order is the numeric one;
    `lt_iff_take_lt` -- at two lengths it is the order of the prefixes;
  * `prefixMask` -- so many one bits, then zeros;
  * `value_and_prefixMask`, `value_or_prefixMask` -- clearing and setting the bits behind the
    prefix is rounding to a multiple of `2 ^ (bits behind it)`, down and up;
  * `and_prefixMask_eq_iff` -- two strings agree on the prefix if their numbers agree after a
    division by that power, and `div_eq_div_iff` makes an interval of that.
-/
import Mathlib.Algebra.Group.Nat.Defs
import Mathlib.Data.List.Basic
import Mathlib.Data.Nat.Basic
import Mathlib.Tactic.Ring

namespace Lib

namespace BigEndian

/-! ## 1. The number of a string -/

/-- The number a string of bytes spells, most significant byte first. -/
def value : List UInt8 → Nat
  | [] => 0
  | b :: bs => b.toNat * 256 ^ bs.length + value bs

@[simp] theorem value_nil : value [] = 0 := rfl

@[simp] theorem value_cons (b : UInt8) (bs : List UInt8) :
    value (b :: bs) = b.toNat * 256 ^ bs.length + value bs := rfl

theorem value_lt : ∀ bs : List UInt8, value bs < 256 ^ bs.length
  | [] => by simp
  | b :: bs => by
      have hb : b.toNat + 1 ≤ 256 := b.toNat_lt
      calc value (b :: bs) = b.toNat * 256 ^ bs.length + value bs := rfl
        _ < b.toNat * 256 ^ bs.length + 256 ^ bs.length := Nat.add_lt_add_left (value_lt bs) _
        _ = (b.toNat + 1) * 256 ^ bs.length := by ring
        _ ≤ 256 * 256 ^ bs.length := Nat.mul_le_mul_right _ hb
        _ = 256 ^ (b :: bs).length := by rw [List.length_cons, Nat.pow_succ, Nat.mul_comm]

theorem value_append (a b : List UInt8) : value (a ++ b) = value a * 256 ^ b.length + value b := by
  induction a with
  | nil => simp
  | cons x xs ih =>
      rw [List.cons_append, value_cons, ih, value_cons, List.length_append, Nat.pow_add]
      ring

theorem value_div (b : UInt8) (bs : List UInt8) : value (b :: bs) / 256 ^ bs.length = b.toNat := by
  rw [value_cons, Nat.mul_comm, Nat.mul_add_div (Nat.pow_pos (by decide)),
    Nat.div_eq_of_lt (value_lt bs), Nat.add_zero]

theorem value_mod (b : UInt8) (bs : List UInt8) : value (b :: bs) % 256 ^ bs.length = value bs := by
  rw [value_cons, Nat.mul_comm, Nat.mul_add_mod, Nat.mod_eq_of_lt (value_lt bs)]

/-- **At one length a number has one string.** -/
theorem value_inj : ∀ {a b : List UInt8}, a.length = b.length → value a = value b → a = b
  | [], [], _, _ => rfl
  | x :: xs, y :: ys, hl, h => by
      have hl' : xs.length = ys.length := Nat.succ.inj hl
      have hx := value_div x xs
      have hxs := value_mod x xs
      rw [h, hl', value_div] at hx
      rw [h, hl', value_mod] at hxs
      rw [UInt8.toNat_inj.mp hx, value_inj hl' hxs.symm]

/-! ## 2. The order -/

/-- **At one length the lexicographic order is the numeric one.** -/
theorem lt_iff_value : ∀ {a b : List UInt8}, a.length = b.length → (a < b ↔ value a < value b)
  | [], [], _ => by simp
  | x :: xs, y :: ys, hl => by
      have hl' : xs.length = ys.length := Nat.succ.inj hl
      have hx := value_lt xs
      have hy := value_lt ys
      rw [List.cons_lt_cons_iff, lt_iff_value hl', value_cons, value_cons]
      rw [hl'] at hx ⊢
      generalize 256 ^ ys.length = p at hx hy ⊢
      rcases Nat.lt_trichotomy x.toNat y.toNat with h | h | h
      · refine iff_of_true (Or.inl (UInt8.lt_iff_toNat_lt.mpr h)) ?_
        calc x.toNat * p + value xs < x.toNat * p + p := Nat.add_lt_add_left hx _
          _ = (x.toNat + 1) * p := by ring
          _ ≤ y.toNat * p := Nat.mul_le_mul_right _ h
          _ ≤ y.toNat * p + value ys := Nat.le_add_right _ _
      · have e : x = y := UInt8.toNat_inj.mp h
        subst e
        have hirr : ¬ x < x := UInt8.lt_irrefl x
        simp only [hirr, false_or, true_and]
        exact (Nat.add_lt_add_iff_left).symm
      · have hn : ¬ (x < y ∨ x = y ∧ value xs < value ys) := by
          intro hor
          rcases hor with hlt | ⟨rfl, _⟩
          · exact Nat.lt_asymm h (UInt8.lt_iff_toNat_lt.mp hlt)
          · exact Nat.lt_irrefl _ h
        refine iff_of_false hn (Nat.not_lt.mpr ?_)
        calc y.toNat * p + value ys ≤ y.toNat * p + p := Nat.add_le_add_left (Nat.le_of_lt hy) _
          _ = (y.toNat + 1) * p := by ring
          _ ≤ x.toNat * p := Nat.mul_le_mul_right _ h
          _ ≤ x.toNat * p + value xs := Nat.le_add_right _ _

theorem le_iff_value {a b : List UInt8} (hl : a.length = b.length) :
    a ≤ b ↔ value a ≤ value b := by
  rw [← List.not_lt, ← Nat.not_lt, lt_iff_value hl.symm]

/-- Against a shorter string only a prefix of that length counts, and equal prefixes leave the
    longer string above. -/
theorem lt_iff_take_lt : ∀ {a b : List UInt8}, a.length < b.length →
    (b < a ↔ b.take a.length < a)
  | [], _ :: _, _ => by simp
  | x :: xs, y :: ys, h => by
      have h' : xs.length < ys.length := Nat.lt_of_succ_lt_succ h
      rw [List.length_cons, List.take_succ_cons, List.cons_lt_cons_iff, List.cons_lt_cons_iff,
        lt_iff_take_lt h']

theorem le_iff_le_take {a b : List UInt8} (h : a.length < b.length) :
    a ≤ b ↔ a ≤ b.take a.length := by
  rw [← List.not_lt, lt_iff_take_lt h, List.not_lt]

theorem ge_iff_take_lt {a b : List UInt8} (h : a.length < b.length) :
    b ≤ a ↔ b.take a.length < a := by
  rw [← lt_iff_take_lt h]
  constructor
  · intro hle
    refine List.not_le.mp fun hge => ?_
    rw [List.le_antisymm hle hge] at h
    exact Nat.lt_irrefl _ h
  · exact List.le_of_lt

/-! ## 3. Prefix masks -/

/-- The byte with `k` one bits and then zeros. -/
def byteMask (k : Nat) : UInt8 := UInt8.ofNat (256 - 2 ^ (8 - min 8 k))

/-- `ones` one bits and then zeros, over `n` bytes. -/
def prefixMask : Nat → Nat → List UInt8
  | _, 0 => []
  | ones, n + 1 => byteMask ones :: prefixMask (ones - 8) n

/-- How many strings of `n` bytes share a prefix of `ones` bits. -/
def hostSize (ones n : Nat) : Nat := 2 ^ (8 * n - ones)

theorem hostSize_pos (ones n : Nat) : 0 < hostSize ones n := Nat.two_pow_pos _

theorem hostSize_zero (n : Nat) : hostSize 0 n = 256 ^ n := by
  unfold hostSize
  rw [Nat.sub_zero, Nat.pow_mul]

theorem hostSize_dvd (ones n : Nat) : hostSize ones n ∣ 256 ^ n := by
  rw [← hostSize_zero]
  exact Nat.pow_dvd_pow 2 (by omega)

theorem hostSize_succ {ones n : Nat} (h : ones ≤ 8 * (n + 1)) :
    hostSize ones (n + 1) = 2 ^ (8 - ones) * hostSize (ones - 8) n := by
  unfold hostSize
  rw [← Nat.pow_add]
  congr 1
  omega

@[simp] theorem length_prefixMask : ∀ ones n : Nat, (prefixMask ones n).length = n
  | _, 0 => rfl
  | ones, n + 1 => congrArg (· + 1) (length_prefixMask (ones - 8) n)

/-- A mask over two strings of bytes, one behind the other. -/
theorem prefixMask_add (k : Nat) : ∀ n ones : Nat,
    prefixMask ones (n + k) = prefixMask ones n ++ prefixMask (ones - 8 * n) k
  | 0, _ => by simp [prefixMask]
  | n + 1, ones => by
      rw [Nat.succ_add, prefixMask, prefixMask, prefixMask_add k n (ones - 8), List.cons_append,
        show ones - 8 - 8 * n = ones - 8 * (n + 1) by omega]

/-- Bytes that the prefix covers have the mask of ones. -/
theorem prefixMask_of_le : ∀ {n ones : Nat}, 8 * n ≤ ones → prefixMask ones n = List.replicate n 255
  | 0, _, _ => rfl
  | n + 1, ones, h => by
      have hb : byteMask ones = 255 := by
        rw [byteMask, Nat.min_eq_left (by omega)]
        rfl
      rw [prefixMask, hb, prefixMask_of_le (by omega : 8 * n ≤ ones - 8), List.replicate_succ]

/-- What holds of a byte and each of the nine masks holds of every mask; the last argument is the
    number of bits behind the prefix. -/
theorem forall_byteMask {P : UInt8 → UInt8 → Nat → Prop}
    (h : ∀ k : Fin 9, ∀ x : Fin 256, P (UInt8.ofNat x.1) (byteMask k.1) (8 - k.1)) (k : Nat)
    (b : UInt8) : P b (byteMask k) (8 - k) := by
  have hb := h ⟨min 8 k, by omega⟩ ⟨b.toNat, b.toNat_lt⟩
  have e : byteMask (min 8 k) = byteMask k := by simp [byteMask]
  have e8 : 8 - min 8 k = 8 - k := by omega
  simpa [e, e8] using hb

/-- Clearing the bits of a byte behind the prefix. -/
theorem and_byteMask (k : Nat) (b : UInt8) :
    (b &&& byteMask k).toNat = b.toNat / 2 ^ (8 - k) * 2 ^ (8 - k) :=
  forall_byteMask (P := fun b m j => (b &&& m).toNat = b.toNat / 2 ^ j * 2 ^ j)
    (by decide +kernel) k b

/-- Setting them. -/
theorem or_byteMask (k : Nat) (b : UInt8) :
    (b ||| ~~~ byteMask k).toNat = b.toNat / 2 ^ (8 - k) * 2 ^ (8 - k) + (2 ^ (8 - k) - 1) :=
  forall_byteMask
    (P := fun b m j => (b ||| ~~~ m).toNat = b.toNat / 2 ^ j * 2 ^ j + (2 ^ j - 1))
    (by decide +kernel) k b

/-- Either the prefix covers the first byte, or nothing behind it. -/
theorem hostSize_cases {ones n : Nat} :
    2 ^ (8 - ones) = 1 ∨ hostSize (ones - 8) n = 256 ^ n := by
  rcases Nat.lt_or_ge ones 8 with h | h
  · right
    rw [Nat.sub_eq_zero_of_le (Nat.le_of_lt h), hostSize_zero]
  · left
    rw [Nat.sub_eq_zero_of_le h, Nat.pow_zero]

/-- Rounding a number down is rounding its first byte and the rest, as far as the prefix
    reaches. -/
theorem round_cons {x v n ones : Nat} (hv : v < 256 ^ n) (h : ones ≤ 8 * (n + 1)) :
    (x * 256 ^ n + v) / hostSize ones (n + 1) * hostSize ones (n + 1) =
      x / 2 ^ (8 - ones) * 2 ^ (8 - ones) * 256 ^ n +
        v / hostSize (ones - 8) n * hostSize (ones - 8) n := by
  rw [hostSize_succ h]
  have hp := hostSize_pos (ones - 8) n
  obtain ⟨q, hq⟩ := hostSize_dvd (ones - 8) n
  rcases @hostSize_cases ones n with hj | hh
  · rw [hj, Nat.one_mul, Nat.div_one, Nat.mul_one]
    generalize hostSize (ones - 8) n = H at *
    rw [hq, show x * (H * q) + v = H * (x * q) + v by ring, Nat.mul_add_div hp]
    ring
  · rw [hh, Nat.div_eq_of_lt hv, Nat.zero_mul, Nat.add_zero, Nat.mul_comm (2 ^ (8 - ones)),
      ← Nat.div_div_eq_div_mul, Nat.mul_comm x, Nat.mul_add_div (Nat.pow_pos (by decide)),
      Nat.div_eq_of_lt hv, Nat.add_zero]
    ring

/-- The largest number with a prefix, likewise. -/
theorem host_cons {n ones : Nat} (h : ones ≤ 8 * (n + 1)) :
    hostSize ones (n + 1) - 1 =
      (2 ^ (8 - ones) - 1) * 256 ^ n + (hostSize (ones - 8) n - 1) := by
  rw [hostSize_succ h]
  rcases @hostSize_cases ones n with hj | hh
  · rw [hj, Nat.one_mul, Nat.sub_self, Nat.zero_mul, Nat.zero_add]
  · rw [hh, Nat.sub_mul, Nat.one_mul]
    have h1 : 1 * 256 ^ n ≤ 2 ^ (8 - ones) * 256 ^ n :=
      Nat.mul_le_mul_right _ (Nat.two_pow_pos _)
    have h2 : 0 < 256 ^ n := Nat.pow_pos (by decide)
    omega

/-- **Clearing the bits behind a prefix rounds down.** -/
theorem value_and_prefixMask : ∀ (bs : List UInt8) (ones : Nat), ones ≤ 8 * bs.length →
    value (List.zipWith (· &&& ·) bs (prefixMask ones bs.length)) =
      value bs / hostSize ones bs.length * hostSize ones bs.length
  | [], _, _ => by simp
  | b :: bs, ones, h => by
      have ih := value_and_prefixMask bs (ones - 8) (by rw [List.length_cons] at h; omega)
      rw [List.length_cons, prefixMask, List.zipWith_cons_cons, value_cons, value_cons, ih,
        and_byteMask, round_cons (value_lt bs) h]
      simp

/-- **Setting them rounds up to the last number with the prefix.** -/
theorem value_or_prefixMask : ∀ (bs : List UInt8) (ones : Nat), ones ≤ 8 * bs.length →
    value (List.zipWith (fun b m => b ||| ~~~ m) bs (prefixMask ones bs.length)) =
      value bs / hostSize ones bs.length * hostSize ones bs.length +
        (hostSize ones bs.length - 1)
  | [], ones, h => by
      obtain rfl : ones = 0 := by simpa using h
      simp [hostSize]
  | b :: bs, ones, h => by
      have ih := value_or_prefixMask bs (ones - 8) (by rw [List.length_cons] at h; omega)
      rw [List.length_cons, prefixMask, List.zipWith_cons_cons, value_cons, value_cons, ih,
        or_byteMask, round_cons (value_lt bs) h, host_cons h]
      simp only [List.length_zipWith, length_prefixMask, Nat.min_self]
      ring

/-- A number shares its quotient with a multiple exactly if it lies in the block behind it. -/
theorem div_eq_div_iff {size base x : Nat} (hs : 0 < size) (hd : size ∣ base) :
    x / size = base / size ↔ base ≤ x ∧ x < base + size := by
  obtain ⟨q, rfl⟩ := hd
  rw [Nat.mul_div_cancel_left q hs, Nat.div_eq_iff hs, Nat.mul_comm q size]
  omega

/-- **Equal prefixes.** -/
theorem and_prefixMask_eq_iff {a b : List UInt8} {ones : Nat} (hl : a.length = b.length)
    (h : ones ≤ 8 * b.length) :
    List.zipWith (· &&& ·) a (prefixMask ones b.length) =
        List.zipWith (· &&& ·) b (prefixMask ones b.length) ↔
      value a / hostSize ones b.length = value b / hostSize ones b.length := by
  have ha := value_and_prefixMask a ones (hl ▸ h)
  have hb := value_and_prefixMask b ones h
  rw [hl] at ha
  constructor
  · intro e
    rw [e, hb] at ha
    exact (Nat.eq_of_mul_eq_mul_right (hostSize_pos ones b.length) ha).symm
  · intro e
    refine value_inj (by simp [hl]) ?_
    rw [ha, hb, e]

end BigEndian

end Lib
