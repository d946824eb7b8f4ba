/-
  File:      HeliosLB/Network/FirstFit.lean
  Subject:   THE ORDER OF THE WALK: `AllocateIP` takes the first free address of its window.

  Read as numbers the walk passes the range one by one, from its first address on, until it has
  looked at `maxScan` addresses or gone past the last one. The step past the last one is the next
  number, or zero behind the all-ones address; in the first case the walk is over, in the second
  it goes on.

  * `rangeSize`, `Front` -- the number of addresses between two ends, and the first ones of them;
  * `front_iff` -- the first addresses are the first steps of the walk;
  * `scanned_eq` -- the walk is the front of the range, then a walk from behind its end;
  * **`allocateIP_firstFit`** -- so a draw takes the smallest free address of the front.
-/
import HeliosLB.Network.Ranges

namespace HeliosLB

open Lib Lib.BigEndian

/-! ## 1. The steps of the walk -/

/-- How many addresses lie between two ends of one length, both included. -/
def rangeSize (start stop : IP) : Nat := value stop - value start + 1

/-- **The front of a range**: the first `n` of its addresses, or all if it has fewer. -/
def Front (start stop : IP) (n : Nat) (x : IP) : Prop :=
  x.length = start.length ∧ value start ≤ value x ∧
    value x < value start + min n (rangeSize start stop)

theorem length_iterate (ip : IP) : ∀ k : Nat, (incrementIP^[k] ip).length = ip.length
  | 0 => rfl
  | k + 1 => by
      rw [Function.iterate_succ_apply', incrementIP_length]
      exact length_iterate ip k

theorem value_iterate {ip : IP} : ∀ {k : Nat}, value ip + k < 256 ^ ip.length →
    value (incrementIP^[k] ip) = value ip + k
  | 0, _ => rfl
  | k + 1, h => by
      have ih : value (incrementIP^[k] ip) = value ip + k := value_iterate (by omega)
      rw [Function.iterate_succ_apply', value_incrementIP_of_lt, ih, Nat.add_assoc]
      rw [ih, length_iterate]
      omega

/-- Every address above another one is reached from it. -/
theorem eq_iterate {x ip : IP} (hl : x.length = ip.length) (h : value ip ≤ value x) :
    incrementIP^[value x - value ip] ip = x := by
  have hlt := value_lt x
  rw [hl] at hlt
  refine value_inj ((length_iterate ip _).trans hl.symm) ?_
  rw [value_iterate (by omega)]
  omega

section Walk

variable {s e : IP} (hl : s.length = e.length) (hle : value s ≤ value e)

include hl hle

/-- The steps within the range do not wrap. -/
theorem value_step {k : Nat} (hk : k < rangeSize s e) :
    value (incrementIP^[k] s) = value s + k := by
  have htop := value_lt e
  unfold rangeSize at hk
  rw [← hl] at htop
  exact value_iterate (by omega)

/-- **The front of a range is its first steps.** -/
theorem front_iff {n : Nat} {x : IP} :
    Front s e n x ↔ ∃ k, k < min n (rangeSize s e) ∧ incrementIP^[k] s = x := by
  unfold Front
  constructor
  · intro h
    obtain ⟨hx, h1, h2⟩ := h
    exact ⟨value x - value s, by omega, eq_iterate hx h1⟩
  · intro h
    obtain ⟨k, hk, rfl⟩ := h
    rw [length_iterate, value_step hl hle (lt_of_lt_of_le hk (Nat.min_le_right _ _))]
    omega

/-- The addresses between the ends are the front of full size. -/
theorem front_all {n : Nat} (hn : rangeSize s e ≤ n) {x : IP} :
    Front s e n x ↔ x.length = s.length ∧ value s ≤ value x ∧ value x ≤ value e := by
  unfold Front
  rw [Nat.min_eq_right hn]
  unfold rangeSize
  omega

end Walk

/-- **The walk is the front of the range, then a walk from behind its end.** -/
theorem scanned_eq {e : IP} : ∀ (n : Nat) {ip : IP}, ip.length = e.length → value ip ≤ value e →
    IPAllocator.scanned e n ip =
      (List.range (min n (rangeSize ip e))).map (fun k => ipString (incrementIP^[k] ip)) ++
        IPAllocator.scanned e (n - rangeSize ip e) (incrementIP e)
  | 0, ip, _, _ => by simp [IPAllocator.scanned]
  | n + 1, ip, hl, hle => by
      have hgt : ¬ bytesCompare ip e = .gt := bytesCompare_ne_gt.mpr ((le_iff_value hl).mpr hle)
      rw [IPAllocator.scanned, if_neg hgt]
      rcases Nat.eq_or_lt_of_le hle with heq | hlt
      · -- the last address: what follows is the walk from behind it
        obtain rfl : ip = e := value_inj hl heq
        have hsize : rangeSize ip ip = 1 := by simp [rangeSize]
        rw [hsize, Nat.min_eq_right (by omega), Nat.add_sub_cancel]
        rfl
      · have htop := value_lt e
        rw [← hl] at htop
        have hnext : value (incrementIP ip) = value ip + 1 := value_incrementIP_of_lt (by omega)
        have hsize : rangeSize ip e = rangeSize (incrementIP ip) e + 1 := by
          unfold rangeSize
          omega
        rw [scanned_eq n ((incrementIP_length ip).trans hl) (by omega), hsize,
          Nat.add_min_add_right, Nat.add_sub_add_right, List.range_succ_eq_map, List.map_cons,
          List.map_map, List.cons_append]
        rfl

/-- Above the last address the walk is over. -/
theorem scanned_above {e ip : IP} (h : e < ip) (n : Nat) : IPAllocator.scanned e n ip = [] := by
  cases n with
  | zero => rfl
  | succ n => rw [IPAllocator.scanned, if_pos (bytesCompare_eq_gt.mpr h)]

/-- So it is past a last address below the all-ones one. -/
theorem scanned_past {e : IP} (h : value e + 1 < 256 ^ e.length) (n : Nat) :
    IPAllocator.scanned e n (incrementIP e) = [] := by
  refine scanned_above ?_ n
  rw [lt_iff_value (incrementIP_length e).symm, value_incrementIP_of_lt h]
  exact Nat.lt_succ_self _

/-- Past the all-ones address the walk starts again at zero. -/
theorem scanned_top {e : IP} (h : value e + 1 = 256 ^ e.length) (n : Nat) (t : String) :
    t ∈ IPAllocator.scanned e n (incrementIP e) ↔
      ∃ x : IP, x.length = e.length ∧ value x < n ∧ ipString x = t := by
  have hzero : value (incrementIP e) = 0 := by rw [value_incrementIP, h, Nat.mod_self]
  have hlen := incrementIP_length e
  have hle : value (incrementIP e) ≤ value e := by omega
  have hsize : rangeSize (incrementIP e) e = 256 ^ e.length := by
    unfold rangeSize
    omega
  have hsplit := scanned_eq n hlen hle
  constructor
  · intro ht
    rw [hsplit, List.mem_append, List.mem_map] at ht
    rcases ht with ⟨k, hk, rfl⟩ | ht
    · rw [List.mem_range] at hk
      have hv := value_step hlen hle (lt_of_lt_of_le hk (Nat.min_le_right _ _))
      exact ⟨_, (length_iterate _ k).trans hlen, by omega, rfl⟩
    · -- a second round: the first one has passed every address
      obtain ⟨x, hx, rfl⟩ := IPAllocator.slice_of_mem_scanned _ ht
      have hlt := value_lt x
      rw [hx, hlen] at hlt
      refine ⟨x, hx.trans hlen, ?_, rfl⟩
      cases hm : n - rangeSize (incrementIP e) e with
      | zero =>
          rw [hm] at ht
          cases ht
      | succ m => omega
  · intro ht
    obtain ⟨x, hx, hn, rfl⟩ := ht
    have hlt := value_lt x
    rw [hx] at hlt
    have hx0 := eq_iterate (hx.trans hlen.symm) (by omega : value (incrementIP e) ≤ value x)
    rw [hsplit, List.mem_append, List.mem_map]
    refine Or.inl ⟨value x - value (incrementIP e), ?_, by rw [hx0]⟩
    rw [List.mem_range]
    omega

/-! ## 2. First fit -/

/-- What the search through the first steps finds. -/
theorem find?_steps {used : Finset String} {m : Nat} {s : IP} {t : String} :
    ((List.range m).map fun k => ipString (incrementIP^[k] s)).find? (· ∉ used) = some t ↔
      ∃ k, k < m ∧ ipString (incrementIP^[k] s) = t ∧ t ∉ used ∧
        ∀ j, j < k → ipString (incrementIP^[j] s) ∈ used := by
  rw [List.find?_map, Option.map_eq_some_iff]
  refine exists_congr fun k => ?_
  simp only [List.find?_range_eq_some, Function.comp_apply, decide_eq_true_eq, List.mem_range,
    Bool.not_eq_true', decide_eq_false_iff_not, not_not]
  constructor
  · intro h
    obtain ⟨⟨hf, hk, hj⟩, rfl⟩ := h
    exact ⟨hk, rfl, hf, hj⟩
  · intro h
    obtain ⟨hk, rfl, hf, hj⟩ := h
    exact ⟨⟨hf, hk, hj⟩, rfl⟩

theorem find?_steps_none {used : Finset String} {m : Nat} {s : IP} :
    ((List.range m).map fun k => ipString (incrementIP^[k] s)).find? (· ∉ used) = none ↔
      ∀ k, k < m → ipString (incrementIP^[k] s) ∈ used := by
  simp

namespace IPAllocator

variable {a : IPAllocator} {r : String} {s e : IP}

/-- What a range of two addresses or more offers: a free step of its front, or else what the walk
    finds behind its end. -/
theorem offer_wide (hr : parseIPRange r = .ok (s, e)) (hl : s.length = e.length)
    (hlt : value s < value e) : a.offer r =
      (((List.range (min a.maxScan (rangeSize s e))).map fun k =>
          ipString (incrementIP^[k] s)).find? (· ∉ a.used)).or
        ((scanned e (a.maxScan - rangeSize s e) (incrementIP e)).find? (· ∉ a.used)) := by
  have hne : ¬ ipEqual s e = true := by
    unfold ipEqual
    rw [if_pos hl, decide_eq_true_eq]
    rintro rfl
    exact Nat.lt_irrefl _ hlt
  unfold offer
  rw [hr]
  simp only
  rw [if_neg hne, scanned_eq a.maxScan hl (Nat.le_of_lt hlt), List.find?_append]

/-- **First fit**: of a range of two addresses or more `AllocateIP` takes the smallest free address
    of the front and nothing else; if it fails, the front is in use and the pool is as before. -/
theorem allocateIP_firstFit (hr : parseIPRange r = .ok (s, e)) (hl : s.length = e.length)
    (hlt : bytesCompare s e = .lt) :
    ((∃ x, Front s e a.maxScan x ∧ ipString x ∉ a.used) →
      ∃ x, Front s e a.maxScan x ∧ ipString x ∉ a.used ∧
        (∀ y, Front s e a.maxScan y → ipString y ∉ a.used → value x ≤ value y) ∧
        (a.allocateIP r).1 = .ok (ipString x) ∧
        (a.allocateIP r).2.used = insert (ipString x) a.used) ∧
    (∀ err, (a.allocateIP r).1 = .error err →
      (∀ x, Front s e a.maxScan x → ipString x ∈ a.used) ∧
        (a.allocateIP r).2.used = a.used) := by
  have hv : value s < value e := (lt_iff_value hl).mp (bytesCompare_eq_lt.mp hlt)
  have hfront := fun x => @front_iff s e hl (Nat.le_of_lt hv) a.maxScan x
  have hstep : ∀ k, k < min a.maxScan (rangeSize s e) →
      value (incrementIP^[k] s) = value s + k := fun k hk =>
    value_step hl (Nat.le_of_lt hv) (lt_of_lt_of_le hk (Nat.min_le_right _ _))
  have hoffer := offer_wide (a := a) hr hl hv
  constructor
  · intro h
    obtain ⟨y, hy, hfree⟩ := h
    obtain ⟨j, hj, rfl⟩ := (hfront y).mp hy
    cases hf : ((List.range (min a.maxScan (rangeSize s e))).map fun k =>
        ipString (incrementIP^[k] s)).find? (· ∉ a.used) with
    | none => exact absurd (find?_steps_none.mp hf j hj) hfree
    | some t =>
        rw [hf, Option.some_or] at hoffer
        obtain ⟨k, hk, rfl, ht, hmin⟩ := find?_steps.mp hf
        refine ⟨incrementIP^[k] s, (hfront _).mpr ⟨k, hk, rfl⟩, ht, ?_, ?_⟩
        · intro z hz hzf
          obtain ⟨i, hi, rfl⟩ := (hfront z).mp hz
          rw [hstep k hk, hstep i hi]
          have hki : ¬ i < k := fun hik => hzf (hmin i hik)
          omega
        · rcases a.allocateIP_eq r with ⟨t, ho, ha⟩ | ⟨err, ho, _⟩
          · rw [hoffer] at ho
            cases ho
            rw [ha]
            exact ⟨rfl, rfl⟩
          · rw [hoffer] at ho
            cases ho
  · intro err herr
    rcases a.allocateIP_eq r with ⟨t, _, ha⟩ | ⟨err', ho, ha⟩
    · rw [ha] at herr
      cases herr
    · rw [hoffer, Option.or_eq_none_iff] at ho
      refine ⟨fun x hx => ?_, by rw [ha]⟩
      obtain ⟨k, hk, rfl⟩ := (hfront x).mp hx
      exact find?_steps_none.mp ho.1 k hk

/-- Over a carry, behind two addresses in use. -/
theorem allocateIP_firstFit_carry :
    let a : IPAllocator := ⟨{"10.0.0.254", "10.0.0.255"}, 8⟩
    ∃ x, Front [10, 0, 0, 254] [10, 0, 1, 1] a.maxScan x ∧ ipString x ∉ a.used ∧
      (∀ y, Front [10, 0, 0, 254] [10, 0, 1, 1] a.maxScan y → ipString y ∉ a.used →
        value x ≤ value y) ∧
      (a.allocateIP "10.0.0.254-10.0.1.1").1 = .ok (ipString x) ∧
      (a.allocateIP "10.0.0.254-10.0.1.1").2.used = insert (ipString x) a.used := by
  intro a
  have hr : parseIPRange "10.0.0.254-10.0.1.1" = .ok ([10, 0, 0, 254], [10, 0, 1, 1]) := by decide
  have hfree : ∃ x, Front [10, 0, 0, 254] [10, 0, 1, 1] a.maxScan x ∧ ipString x ∉ a.used :=
    ⟨[10, 0, 1, 0], ⟨rfl, by decide, by decide⟩, by decide⟩
  exact (allocateIP_firstFit hr rfl (by decide)).1 hfree

end IPAllocator

end HeliosLB
