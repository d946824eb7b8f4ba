/-
  File:      HeliosLB/Network/Arithmetic.lean
  Subject:   THE ORDER AND THE STEPS OF ADDRESSES (`bytes.Compare` and the two loops of
             internal/network/parse.go), read as numbers.

  `bytes.Compare` is the lexicographic order on slices of ANY length, so the two families are
  mixed in it; on slices of one length it is the order of the big-endian numbers
  (Lib/BigEndian.lean), and the two loops add and subtract one.

  * `bytesCompare_eq_lt`, `bytesCompare_ne_gt` … -- the comparison is the order of the lists;
  * `compareIPs` -- `CompareIPs`, which normalises first;
  * `incrementLoop_value`, `decrementLoop_value` -- one round of the loops with carry and borrow;
    `value_incrementIP`, `value_decrementIP` -- so they are addition and subtraction modulo
    `256 ^ length`, and each undoes the other (`decrementIP_incrementIP`);
  * **`address_arithmetic`** -- slices of bytes are big-endian numbers for steps and order.
-/
import HeliosLB.Lib.BigEndian
import HeliosLB.Network.Parse

namespace HeliosLB

open Lib BigEndian

/-- `CompareIPs`. -/
def compareIPs (a b : IP) : Ordering := bytesCompare (normalizeIP a) (normalizeIP b)

/-! ## 1. The order -/

theorem bytesCompare_swap : ∀ a b : IP, bytesCompare b a = (bytesCompare a b).swap
  | [], [] => rfl
  | [], _ :: _ => rfl
  | _ :: _, [] => rfl
  | x :: xs, y :: ys => by
      rw [bytesCompare, bytesCompare, bytesCompare_swap xs ys]
      by_cases h : x < y
      · have hn : ¬ y < x := UInt8.lt_asymm h
        rw [if_pos h, if_neg hn, if_pos h]
        rfl
      · rw [if_neg h, if_neg h]
        split <;> rfl

theorem bytesCompare_eq_lt : ∀ {a b : IP}, bytesCompare a b = .lt ↔ a < b
  | [], [] => by simp [bytesCompare]
  | [], _ :: _ => by simp [bytesCompare]
  | _ :: _, [] => by simp [bytesCompare]
  | x :: xs, y :: ys => by
      rw [bytesCompare, List.cons_lt_cons_iff, ← bytesCompare_eq_lt]
      by_cases h : x < y
      · rw [if_pos h]
        exact iff_of_true rfl (Or.inl h)
      · rw [if_neg h]
        by_cases h' : y < x
        · rw [if_pos h']
          have hne : x ≠ y := fun e => h (e ▸ h')
          exact iff_of_false (fun e => nomatch e) fun hor => hor.elim h fun e => hne e.1
        · have e : x = y := UInt8.le_antisymm (UInt8.not_lt.mp h') (UInt8.not_lt.mp h)
          rw [if_neg h']
          exact ⟨fun hc => Or.inr ⟨e, hc⟩,
            fun hor => hor.elim (fun hlt => absurd hlt h) fun hc => hc.2⟩

theorem bytesCompare_eq_gt {a b : IP} : bytesCompare a b = .gt ↔ b < a := by
  rw [← bytesCompare_eq_lt, bytesCompare_swap a b]
  cases bytesCompare a b <;> simp

theorem bytesCompare_ne_gt {a b : IP} : bytesCompare a b ≠ .gt ↔ a ≤ b := by
  rw [ne_eq, bytesCompare_eq_gt, List.not_lt]

theorem bytesCompare_ne_lt {a b : IP} : bytesCompare a b ≠ .lt ↔ b ≤ a := by
  rw [ne_eq, bytesCompare_eq_lt, List.not_lt]

/-! ## 2. The steps -/

theorem add_one_toNat (b : UInt8) : (b + 1).toNat = (b.toNat + 1) % 256 := by
  simp

theorem add_one_eq_zero {b : UInt8} : b + 1 = 0 ↔ b.toNat = 255 := by
  have hb := b.toNat_lt
  rw [← UInt8.toNat_inj, add_one_toNat]
  simp only [UInt8.toNat_zero]
  omega

theorem sub_one_toNat (b : UInt8) : (b - 1).toNat = (b.toNat + 255) % 256 := by
  rw [UInt8.toNat_sub]
  simp only [UInt8.toNat_one]
  omega

theorem sub_one_eq_ff {b : UInt8} : b - 1 = 0xff ↔ b.toNat = 0 := by
  have hb := b.toNat_lt
  rw [← UInt8.toNat_inj, sub_one_toNat, show (0xff : UInt8).toNat = 255 from rfl]
  omega

theorem decrementLoop_length (ip : IP) : (decrementLoop ip).1.length = ip.length := by
  induction ip with
  | nil => rfl
  | cons b bs ih =>
      rw [decrementLoop]
      rcases h : decrementLoop bs with ⟨bs', _ | _⟩
      · rw [h] at ih
        simpa using ih
      · rw [h] at ih
        simpa using ih

@[simp] theorem decrementIP_length (ip : IP) : (decrementIP ip).length = ip.length :=
  decrementLoop_length ip

/-- **`IncrementIP` adds one**; the carry out of the slice is worth `256 ^ length`. -/
theorem incrementLoop_value (ip : IP) :
    value (incrementLoop ip).1 + (if (incrementLoop ip).2 then 256 ^ ip.length else 0) =
      value ip + 1 := by
  induction ip with
  | nil => rfl
  | cons b bs ih =>
      have hl := incrementLoop_length bs
      rw [incrementLoop]
      rcases h : incrementLoop bs with ⟨bs', c⟩
      rw [h] at ih hl
      simp only at ih hl
      cases c with
      | false =>
          simp only [Bool.false_eq_true, if_false, Nat.add_zero] at ih
          simp only [value_cons, hl, Bool.false_eq_true, if_false, Nat.add_zero]
          omega
      | true =>
          have hb := b.toNat_lt
          simp only [if_true] at ih
          simp only [value_cons, hl, List.length_cons, Nat.pow_succ, decide_eq_true_eq,
            add_one_eq_zero, add_one_toNat]
          generalize 256 ^ bs.length = p at ih ⊢
          by_cases h255 : b.toNat = 255
          · rw [if_pos h255, h255]
            omega
          · rw [if_neg h255, Nat.mod_eq_of_lt (by omega), Nat.add_mul]
            omega

/-- **`DecrementIP` subtracts one**, with a borrow from outside the slice. -/
theorem decrementLoop_value (ip : IP) :
    value (decrementLoop ip).1 + 1 =
      value ip + (if (decrementLoop ip).2 then 256 ^ ip.length else 0) := by
  induction ip with
  | nil => rfl
  | cons b bs ih =>
      have hl := decrementLoop_length bs
      rw [decrementLoop]
      rcases h : decrementLoop bs with ⟨bs', c⟩
      rw [h] at ih hl
      simp only at ih hl
      cases c with
      | false =>
          simp only [Bool.false_eq_true, if_false, Nat.add_zero] at ih
          simp only [value_cons, hl, Bool.false_eq_true, if_false, Nat.add_zero]
          omega
      | true =>
          have hb := b.toNat_lt
          simp only [if_true] at ih
          simp only [value_cons, hl, List.length_cons, Nat.pow_succ, decide_eq_true_eq,
            sub_one_eq_ff, sub_one_toNat]
          generalize 256 ^ bs.length = p at ih ⊢
          by_cases h0 : b.toNat = 0
          · rw [if_pos h0, h0]
            omega
          · obtain ⟨k, hk⟩ : ∃ k, b.toNat = k + 1 := ⟨b.toNat - 1, by omega⟩
            rw [if_neg h0, hk, show (k + 1 + 255) % 256 = k by omega, Nat.add_mul]
            omega

theorem value_incrementIP (ip : IP) :
    value (incrementIP ip) = (value ip + 1) % 256 ^ ip.length := by
  have h := incrementLoop_value ip
  have hlt := value_lt (incrementIP ip)
  rw [incrementIP_length] at hlt
  unfold incrementIP at hlt ⊢
  rw [← h]
  split
  · rw [Nat.add_mod_right, Nat.mod_eq_of_lt hlt]
  · rw [Nat.add_zero, Nat.mod_eq_of_lt hlt]

theorem value_decrementIP (ip : IP) :
    value (decrementIP ip) = (value ip + (256 ^ ip.length - 1)) % 256 ^ ip.length := by
  have h := decrementLoop_value ip
  have hlt := value_lt (decrementIP ip)
  rw [decrementIP_length] at hlt
  unfold decrementIP at hlt ⊢
  generalize 256 ^ ip.length = p at h hlt ⊢
  generalize value (decrementLoop ip).1 = v at h hlt ⊢
  split at h
  · rw [show value ip + (p - 1) = v by omega, Nat.mod_eq_of_lt hlt]
  · rw [show value ip + (p - 1) = v + p by omega, Nat.add_mod_right, Nat.mod_eq_of_lt hlt]

/-- Below the last address the step goes up by one. -/
theorem value_incrementIP_of_lt {ip : IP} (h : value ip + 1 < 256 ^ ip.length) :
    value (incrementIP ip) = value ip + 1 := by
  rw [value_incrementIP, Nat.mod_eq_of_lt h]

/-- Above the first one it goes down by one. -/
theorem value_decrementIP_of_pos {ip : IP} (h : 0 < value ip) :
    value (decrementIP ip) = value ip - 1 := by
  have hlt := value_lt ip
  rw [value_decrementIP, show value ip + (256 ^ ip.length - 1) = value ip - 1 + 256 ^ ip.length by
    omega, Nat.add_mod_right, Nat.mod_eq_of_lt (by omega)]

/-! ## 3. The slice as a number -/

/-- On slices of one length the comparison is that of the numbers. -/
theorem bytesCompare_eq_compare {a b : IP} (h : a.length = b.length) :
    bytesCompare a b = compare (value a) (value b) := by
  rcases Nat.lt_trichotomy (value a) (value b) with hlt | heq | hgt
  · rw [Nat.compare_eq_lt.mpr hlt, bytesCompare_eq_lt]
    exact (lt_iff_value h).mpr hlt
  · obtain rfl : a = b := value_inj h heq
    have hlt : bytesCompare a a ≠ .lt := bytesCompare_ne_lt.mpr (List.le_refl a)
    have hgt : bytesCompare a a ≠ .gt := bytesCompare_ne_gt.mpr (List.le_refl a)
    rw [Nat.compare_eq_eq.mpr rfl]
    cases hc : bytesCompare a a with
    | lt => exact absurd hc hlt
    | eq => rfl
    | gt => exact absurd hc hgt
  · rw [Nat.compare_eq_gt.mpr hgt, bytesCompare_eq_gt]
    exact (lt_iff_value h.symm).mpr hgt

/-- The borrow as a subtraction of integers. -/
theorem value_decrementIP_int (ip : IP) :
    (value (decrementIP ip) : Int) = ((value ip : Int) - 1) % (256 ^ ip.length : Nat) := by
  have hpos : 0 < 256 ^ ip.length := Nat.pow_pos (by decide)
  have hcast : ((value ip + (256 ^ ip.length - 1) : Nat) : Int) =
      (value ip : Int) - 1 + (256 ^ ip.length : Nat) := by omega
  rw [value_decrementIP, Int.natCast_emod, hcast, Int.add_emod_right]

theorem decrementIP_incrementIP (ip : IP) : decrementIP (incrementIP ip) = ip := by
  have hlt := value_lt ip
  refine value_inj (by rw [decrementIP_length, incrementIP_length]) ?_
  rw [value_decrementIP, incrementIP_length, value_incrementIP, Nat.mod_add_mod,
    show value ip + 1 + (256 ^ ip.length - 1) = value ip + 256 ^ ip.length by omega,
    Nat.add_mod_right, Nat.mod_eq_of_lt hlt]

theorem incrementIP_decrementIP (ip : IP) : incrementIP (decrementIP ip) = ip := by
  have hlt := value_lt ip
  refine value_inj (by rw [incrementIP_length, decrementIP_length]) ?_
  rw [value_incrementIP, decrementIP_length, value_decrementIP, Nat.mod_add_mod,
    show value ip + (256 ^ ip.length - 1) + 1 = value ip + 256 ^ ip.length by omega,
    Nat.add_mod_right, Nat.mod_eq_of_lt hlt]

/-- The all-ones slice is the last number of its length. -/
theorem eq_ones_iff (ip : IP) :
    ip = List.replicate ip.length 0xff ↔ value ip + 1 = 256 ^ ip.length := by
  have hones : ∀ n, value (List.replicate n 0xff) + 1 = 256 ^ n := by
    intro n
    induction n with
    | zero => rfl
    | succ n ih =>
        rw [List.replicate_succ, value_cons, List.length_replicate, Nat.pow_succ,
          show (0xff : UInt8).toNat = 255 from rfl]
        omega
  have hlen : ip.length = (List.replicate ip.length (0xff : UInt8)).length :=
    List.length_replicate.symm
  refine ⟨fun h => ?_, fun h => value_inj hlen ?_⟩
  · have hv := congrArg value h
    rw [hv]
    exact hones ip.length
  · have hn := hones ip.length
    omega

/-- The next slice is the greater one, unless the counting starts again at zero. -/
theorem lt_incrementIP_iff (ip : IP) :
    bytesCompare ip (incrementIP ip) = .lt ↔ ip ≠ List.replicate ip.length 0xff := by
  have hlt := value_lt ip
  rw [bytesCompare_eq_lt, lt_iff_value (incrementIP_length ip).symm, ne_eq, eq_ones_iff]
  by_cases h : value ip + 1 = 256 ^ ip.length
  · rw [value_incrementIP, h, Nat.mod_self]
    exact iff_of_false (Nat.not_lt_zero _) fun hn => hn rfl
  · rw [value_incrementIP_of_lt (by omega)]
    exact iff_of_true (Nat.lt_succ_self _) h

/-- **Addresses are big-endian numbers**: the steps add and subtract one modulo `256 ^ n`, each
    undoes the other, on slices of one length the comparison is the order of the numbers, and
    only from the all-ones slice the step up does not go up. -/
theorem address_arithmetic (ip : IP) :
    value (incrementIP ip) = (value ip + 1) % 256 ^ ip.length ∧
      (value (decrementIP ip) : Int) = ((value ip : Int) - 1) % (256 ^ ip.length : Nat) ∧
      (incrementIP ip).length = ip.length ∧ (decrementIP ip).length = ip.length ∧
      decrementIP (incrementIP ip) = ip ∧ incrementIP (decrementIP ip) = ip ∧
      (∀ x : IP, ip.length = x.length → bytesCompare ip x = compare (value ip) (value x)) ∧
      (bytesCompare ip (incrementIP ip) = .lt ↔ ip ≠ List.replicate ip.length 0xff) :=
  ⟨value_incrementIP ip, value_decrementIP_int ip, incrementIP_length ip, decrementIP_length ip,
    decrementIP_incrementIP ip, incrementIP_decrementIP ip, fun _ h => bytesCompare_eq_compare h,
    lt_incrementIP_iff ip⟩

/-- With a carry through one byte. -/
theorem address_arithmetic_carry :
    incrementIP [10, 0, 0, 255] = [10, 0, 1, 0] ∧
      bytesCompare [10, 0, 0, 255] [10, 0, 1, 0] =
        compare (value [10, 0, 0, 255]) (value [10, 0, 1, 0]) :=
  ⟨by decide, (address_arithmetic [10, 0, 0, 255]).2.2.2.2.2.2.1 [10, 0, 1, 0] rfl⟩

end HeliosLB
