/-
  File:      HeliosLB/Admission/Accepted.lean
  Subject:   WHAT AN ACCEPTED RANGE TEXT IS GOOD FOR: the validator of the webhook against the
             parser and the allocator that use the text later.

  The grammar of range texts is written down twice, in `validateIPRange` and in `ParseIPRange`.
  They agree. A range the webhook let through gives its first address on the first draw; what the
  LAST draw does depends on where the range ends. The walk stops behind the last address, unless
  that is the all-ones address of its family: the next one is zero, which is not behind it.

  * **`validateIPRange_agrees`** -- validator and parser, and the first draw;
  * `Exhausted`, `NoMapped`, `FreeBehindTop` -- a range that is in use as a whole, without
    IPv4-mapped addresses, and with a free address where the walk goes on below it;
  * `offer_inside`, `offer_exhausted` -- what is offered before and after that;
  * **`allocateIP_inside_iff`** -- when a draw stays in the range and fails at its end.
-/
import HeliosLB.Admission.Webhook
import HeliosLB.Network.FirstFit

namespace HeliosLB

open Lib Lib.BigEndian

/-! ## 1. Validator and parser -/

/-- A range whose first address is free offers it. -/
theorem IPAllocator.offer_start {a : IPAllocator} {r : String} {s e : IP}
    (hr : parseIPRange r = .ok (s, e)) (hle : s ≤ e) (hn : 1 ≤ a.maxScan)
    (hf : ipString s ∉ a.used) : a.offer r = some (ipString s) := by
  obtain ⟨n, hn⟩ : ∃ n, a.maxScan = n + 1 := ⟨a.maxScan - 1, by omega⟩
  unfold offer
  rw [hr]
  simp only
  split
  · rfl
  · rw [hn, scanned, if_neg (bytesCompare_ne_gt.mpr hle),
      List.find?_cons_of_pos (by simpa using hf)]

/-- **Validator and parser agree on every text**: accepted is what parses to two ends of one
    length, in order; and from an accepted range a new allocator draws the first address. -/
theorem validateIPRange_agrees (r : String) :
    (validateIPRange r = .ok () ↔ ∃ s e, parseIPRange r = .ok (s, e) ∧ s.length = e.length ∧
      bytesCompare s e ≠ .gt) ∧
    (validateIPRange r = .ok () → ∃ s e, parseIPRange r = .ok (s, e) ∧
      (newIPAllocator.allocateIP r).1 = .ok (ipString s)) := by
  simp only [bytesCompare_ne_gt]
  refine ⟨validateIPRange_iff, fun h => ?_⟩
  obtain ⟨s, e, hr, _, hle⟩ := validateIPRange_iff.mp h
  have ho : newIPAllocator.offer r = some (ipString s) :=
    IPAllocator.offer_start hr hle (by decide) (Finset.notMem_empty _)
  exact ⟨s, e, hr, IPAllocator.allocateIP_ok_iff.mpr ho⟩

/-! ## 2. The last draw -/

namespace IPAllocator

/-- Every address of the range is in use. -/
def Exhausted (a : IPAllocator) (ipRange : String) : Prop :=
  ∀ x, Between ipRange x → ipString x ∈ a.used

/-- **A free address behind the top**: the range ends at the all-ones address, and going on at
    zero the walk comes to an address below the range that is not in use. -/
def FreeBehindTop (a : IPAllocator) (ipRange : String) : Prop :=
  ∃ s e x, parseIPRange ipRange = .ok (s, e) ∧ value e + 1 = 256 ^ e.length ∧
    x.length = e.length ∧ value x < value s ∧ rangeSize s e + value x < a.maxScan ∧
    ipString x ∉ a.used

end IPAllocator

/-- No address of the range is an IPv4-mapped IPv6 address. -/
def NoMapped (ipRange : String) : Prop := ∀ x, Between ipRange x → normalizeIP x = x

theorem noMapped_of_v4 {r : String} {s e : IP} (hr : parseIPRange r = .ok (s, e))
    (h4 : s.length = 4) : NoMapped r := fun _ hx =>
  normalizeIP_of_v4 (((between_iff hr).mp hx).1.trans h4)

/-- An address between the ends is allocatable, unless it is IPv4-mapped. -/
theorem ipAllocatable_between {r : String} (hm : NoMapped r) {x : IP} (hx : Between r x) :
    ipAllocatable (ipString x) r = true := by
  have hn := hm x hx
  obtain ⟨s, e, hr, hl, h1, h2⟩ := hx
  have haddr : IsAddr x := by
    have hs := parseIPRange_start_length hr
    unfold IsAddr at hs ⊢
    rwa [hl]
  obtain ⟨t, ht, hnt⟩ := parseIP_trimSpace_ipString haddr
  rw [hn] at hnt
  exact ipAllocatable_iff.mpr ⟨t, s, e, ht, hr, by rwa [hnt], by rwa [hnt]⟩

namespace IPAllocator

section Draws

variable {a : IPAllocator} {r : String} {s e : IP} (hr : parseIPRange r = .ok (s, e))
  (hl : s.length = e.length)

include hr hl

/-- The addresses between the ends, as numbers. -/
theorem between_value {x : IP} :
    Between r x ↔ x.length = s.length ∧ value s ≤ value x ∧ value x ≤ value e := by
  rw [between_iff hr]
  refine and_congr_right fun hx => ?_
  rw [le_iff_value hx.symm, le_iff_value (hx.trans hl)]

/-- While an address of the range is free, what is offered is in the range. -/
theorem offer_inside (hlt : value s < value e) (hex : ¬ a.Exhausted r) {t : String}
    (h : a.offer r = some t) : ∃ x, Between r x ∧ ipString x = t := by
  have hle := Nat.le_of_lt hlt
  rw [offer_wide hr hl hlt, Option.or_eq_some_iff] at h
  rcases h with h | ⟨hnone, h⟩
  · obtain ⟨k, hk, ht, _⟩ := find?_steps.mp h
    have hfront := (@front_iff s e hl hle a.maxScan _).mpr ⟨k, hk, rfl⟩
    refine ⟨_, (between_value hr hl).mpr ?_, ht⟩
    obtain ⟨h1, h2, h3⟩ := hfront
    unfold rangeSize at h3
    omega
  · -- the walk got past the end, so it has passed every address of the range
    exfalso
    refine hex fun x hx => ?_
    have hsize : rangeSize s e ≤ a.maxScan := by
      by_contra hgt
      rw [Nat.sub_eq_zero_of_le (by omega)] at h
      cases h
    obtain ⟨k, hk, rfl⟩ :=
      (front_iff hl hle).mp ((front_all hl hle hsize).mpr ((between_value hr hl).mp hx))
    exact find?_steps_none.mp hnone k hk

/-- When all are in use, nothing is offered exactly if no address behind the top is free. -/
theorem offer_exhausted (hlt : value s < value e) (hex : a.Exhausted r) :
    a.offer r = none ↔ ¬ a.FreeBehindTop r := by
  have hle := Nat.le_of_lt hlt
  have htop := value_lt e
  have hfront : ∀ k, k < min a.maxScan (rangeSize s e) → ipString (incrementIP^[k] s) ∈ a.used := by
    intro k hk
    obtain ⟨h1, h2, h3⟩ := (@front_iff s e hl hle a.maxScan _).mpr ⟨k, hk, rfl⟩
    unfold rangeSize at h3
    exact hex _ ((between_value hr hl).mpr ⟨h1, h2, by omega⟩)
  rw [offer_wide hr hl hlt, find?_steps_none.mpr hfront, Option.none_or]
  rcases Nat.eq_or_lt_of_le htop with heq | hbelow
  · rw [List.find?_eq_none]
    simp only [decide_eq_true_eq, not_not, scanned_top heq]
    constructor
    · intro h hfree
      obtain ⟨s', e', x, hr', _, hx, _, hn, hf⟩ := hfree
      rw [hr] at hr'
      cases hr'
      exact hf (h _ ⟨x, hx, by omega, rfl⟩)
    · intro h t ht
      obtain ⟨x, hx, hn, rfl⟩ := ht
      by_contra hf
      rcases Nat.lt_or_ge (value x) (value s) with hlow | hhigh
      · exact h ⟨s, e, x, hr, heq, hx, hlow, by omega, hf⟩
      · have hxt := value_lt x
        rw [hx, ← heq] at hxt
        exact hf (hex x ((between_value hr hl).mpr ⟨hx.trans hl.symm, hhigh, by omega⟩))
  · rw [scanned_past hbelow]
    refine iff_of_true rfl fun hfree => ?_
    obtain ⟨s', e', x, hr', heq, _⟩ := hfree
    rw [hr] at hr'
    cases hr'
    exact Nat.ne_of_lt hbelow heq

end Draws

/-- **When a draw from an accepted range stays in it**, and fails if all of it is in use: exactly
    if, in case all of it IS in use, the range has two addresses or more and no address behind the
    top is free. -/
theorem allocateIP_inside_iff {a : IPAllocator} {r : String} (hv : validateIPRange r = .ok ())
    (hm : NoMapped r) :
    ((∀ x, (a.allocateIP r).1 = .ok x → ipAllocatable x r = true) ∧
      (a.Exhausted r → ∃ err, (a.allocateIP r).1 = .error err)) ↔
    (a.Exhausted r → singleAddress r = false ∧ ¬ a.FreeBehindTop r) := by
  obtain ⟨s, e, hr, hl, hle⟩ := validateIPRange_iff.mp hv
  have hsingle : singleAddress r = decide (s = e) := by
    simp [singleAddress, hr, ipEqual, hl]
  simp only [allocateIP_ok_iff, allocateIP_fails_iff]
  rcases Nat.eq_or_lt_of_le ((le_iff_value hl).mp hle) with heq | hlt
  · -- one address: it is offered whether it is in use or not
    obtain rfl : s = e := value_inj hl heq
    have ho : a.offer r = some (ipString s) := by simp [offer, hr, ipEqual]
    have ha := ipAllocatable_between hm ((between_iff hr).mpr ⟨rfl, hle, hle⟩)
    rw [hsingle, decide_eq_true rfl, ho]
    constructor
    · intro h hex
      cases h.2 hex
    · refine fun h => ⟨fun x hx => ?_, fun hex => ?_⟩
      · cases hx
        exact ha
      · cases (h hex).1
  · have hne : singleAddress r = false := by
      rw [hsingle, decide_eq_false_iff_not]
      rintro rfl
      exact Nat.lt_irrefl _ hlt
    by_cases hex : a.Exhausted r
    · have ho := offer_exhausted hr hl hlt hex
      constructor
      · exact fun h _ => ⟨hne, ho.mp (h.2 hex)⟩
      · intro h
        have hnone := ho.mpr (h hex).2
        refine ⟨fun x hx => ?_, fun _ => hnone⟩
        rw [hnone] at hx
        cases hx
    · refine iff_of_true ⟨fun t ht => ?_, fun h => absurd h hex⟩ fun h => absurd h hex
      obtain ⟨x, hx, rfl⟩ := offer_inside hr hl hlt hex ht
      exact ipAllocatable_between hm hx

/-- The last draw of a small range, and the one after it. -/
theorem allocateIP_inside_exhausted :
    let a : IPAllocator := ⟨{"10.0.0.1", "10.0.0.2"}, 65536⟩
    a.Exhausted "10.0.0.0/30" ∧ ∃ err, (a.allocateIP "10.0.0.0/30").1 = .error err := by
  intro a
  have hr : parseIPRange "10.0.0.0/30" = .ok ([10, 0, 0, 1], [10, 0, 0, 2]) := by decide
  have hm : NoMapped "10.0.0.0/30" := noMapped_of_v4 hr rfl
  have hex : a.Exhausted "10.0.0.0/30" := by
    intro x hx
    obtain ⟨hl, h1, h2⟩ := (between_value hr rfl).mp hx
    have hv : value [10, 0, 0, 1] = 167772161 ∧ value [10, 0, 0, 2] = 167772162 := by decide
    have hx : value x = value [10, 0, 0, 1] ∨ value x = value [10, 0, 0, 2] := by omega
    rcases hx with hx | hx
    · obtain rfl : x = [10, 0, 0, 1] := value_inj hl hx
      decide
    · obtain rfl : x = [10, 0, 0, 2] := value_inj hl hx
      decide
  refine ⟨hex, ((allocateIP_inside_iff (by decide) hm).mpr fun _ => ⟨by decide, ?_⟩).2 hex⟩
  intro hfree
  obtain ⟨s, e, x, hr', htop, _⟩ := hfree
  rw [hr] at hr'
  cases hr'
  exact absurd htop (by decide)

/-- **A draw from an exhausted range that ends at the top leaves it**: with both addresses of the
    last `/31` in use the next one is `0.0.0.0`. -/
theorem allocateIP_leaves_range :
    let a : IPAllocator := ⟨{"255.255.255.254", "255.255.255.255"}, 65536⟩
    validateIPRange "255.255.255.254/31" = .ok () ∧ NoMapped "255.255.255.254/31" ∧
      (a.allocateIP "255.255.255.254/31").1 = .ok "0.0.0.0" ∧
      ipAllocatable "0.0.0.0" "255.255.255.254/31" = false := by
  intro a
  have hr : parseIPRange "255.255.255.254/31" = .ok ([255, 255, 255, 254], [255, 255, 255, 255]) :=
    by decide
  exact ⟨by decide, noMapped_of_v4 hr rfl, by decide, by decide⟩

end IPAllocator

end HeliosLB
