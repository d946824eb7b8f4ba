/-
  File:      HeliosLB/Network/Window.lean
  Subject:   WHICH ADDRESSES AN ALLOCATION LOOKS AT.

  `AllocateIP` walks up from the first address of a range, `AllocateSpecificIP` looks at the one
  that was asked for. The walk stops behind the last address of the range, unless that is
  `255.255.255.255`: then the next address is `0.0.0.0` and the walk goes on below the range.

  * `boundedIPv4` -- an IPv4 range that ends before that address;
  * `mem_window_inRange`, `requested_inRange` -- on such a range both look at addresses of the
    range only;
  * `IPAllocator.AgreeOn` -- two pools have the same addresses of a range in use;
  * `allocateIP_agree`, `allocateSpecificIP_agree` -- then they answer a call for it alike.
-/
import HeliosLB.Network.FirstFit

namespace HeliosLB

open Lib Lib.BigEndian

/-! ## 1. Bounded ranges -/

/-- An IPv4 range that does not end at `255.255.255.255`. -/
def boundedIPv4 (ipRange : String) : Bool :=
  match parseIPRange ipRange with
  | .ok (start, stop) => start.length = 4 ∧ stop.length = 4 ∧ stop ≠ [255, 255, 255, 255]
  | .error _ => false

theorem boundedIPv4_iff {r : String} : boundedIPv4 r = true ↔ ∃ s e, parseIPRange r = .ok (s, e) ∧
    s.length = 4 ∧ e.length = 4 ∧ e ≠ [255, 255, 255, 255] := by
  unfold boundedIPv4
  cases parseIPRange r with
  | error x => simp
  | ok b => simp [Prod.ext_iff]

/-- The addresses between the ends of an IPv4 range are in it. -/
theorem ipInRange_between {r : String} {s e ip : IP} (hr : parseIPRange r = .ok (s, e))
    (hs : s.length = 4) (hl : ip.length = 4) (h1 : s ≤ ip) (h2 : ip ≤ e) :
    ipInRange (ipString ip) r = true := by
  obtain ⟨t, ht, hn⟩ := parseIP_trimSpace_ipString (Or.inl hl : IsAddr ip)
  rw [normalizeIP_of_v4 hl] at hn
  have ha : ipAllocatable (ipString ip) r = true :=
    ipAllocatable_iff.mpr ⟨t, s, e, ht, hr, by rwa [hn], by rwa [hn]⟩
  refine (ipInRange_iff _ r).mpr (Or.inl ⟨ha, fun _ => ?_⟩)
  unfold sameFamily
  rw [ht, hr]
  simp only
  rw [hn, hl, hs]
  rfl

/-! ## 2. The walk -/

/-- The last address of a bounded range has a next one. -/
theorem value_lt_top {e : IP} (he : e.length = 4) (hne : e ≠ [255, 255, 255, 255]) :
    value e + 1 < 256 ^ e.length := by
  have htop : value e ≠ value [255, 255, 255, 255] := fun hv => hne (value_inj he hv)
  have hval : value [255, 255, 255, 255] = 256 ^ 4 - 1 := by decide
  have hlt := value_lt e
  rw [he] at hlt ⊢
  rw [hval] at htop
  omega

/-- **The walk through a bounded range stays in it.** -/
theorem scanned_between {s e : IP} (hs : s.length = 4) (he : e.length = 4)
    (hne : e ≠ [255, 255, 255, 255]) {n : Nat} {x : String}
    (hx : x ∈ IPAllocator.scanned e n s) :
    ∃ y : IP, y.length = 4 ∧ s ≤ y ∧ y ≤ e ∧ ipString y = x := by
  have hl : s.length = e.length := hs.trans he.symm
  rcases Nat.lt_or_ge (value e) (value s) with hgt | hle
  · rw [scanned_above ((lt_iff_value hl.symm).mpr hgt)] at hx
    cases hx
  · rw [scanned_eq n hl hle, scanned_past (value_lt_top he hne), List.append_nil,
      List.mem_map] at hx
    obtain ⟨k, hk, rfl⟩ := hx
    have hsize := lt_of_lt_of_le (List.mem_range.mp hk) (Nat.min_le_right _ _)
    have hv := value_step hl hle hsize
    have hy : (incrementIP^[k] s).length = s.length := length_iterate s k
    unfold rangeSize at hsize
    refine ⟨_, hy.trans hs, ?_, ?_, rfl⟩
    · rw [le_iff_value hy.symm, hv]
      exact Nat.le_add_right _ _
    · rw [le_iff_value (hy.trans hl), hv]
      omega

/-- **A pool draw looks at addresses of the range only.** -/
theorem mem_window_inRange {r : String} (h : boundedIPv4 r = true) {n : Nat} {x : String}
    (hx : x ∈ IPAllocator.window n r) : ipInRange x r = true := by
  obtain ⟨s, e, hr, hs, he, hne⟩ := boundedIPv4_iff.mp h
  unfold IPAllocator.window at hx
  rw [hr] at hx
  simp only at hx
  split at hx
  · rename_i heq
    have hse : s = e := by simpa [ipEqual, hs, he] using heq
    rw [List.mem_singleton.mp hx]
    exact ipInRange_between hr hs hs (List.le_refl s) (hse ▸ List.le_refl s)
  · obtain ⟨y, hy, h1, h2, rfl⟩ := scanned_between hs he hne hx
    exact ipInRange_between hr hs hy h1 h2

/-- **A request for an IPv4 address is checked against an address of the range only.** -/
theorem requested_inRange {r q : String} {t : IP} (h : boundedIPv4 r = true)
    (ht : parseIP (trimSpace q) = some t) (h4 : (to4 t).isSome = true)
    (ha : ipAllocatable q r = true) : ipInRange (ipString (normalizeIP t)) r = true := by
  obtain ⟨s, e, hr, hs, _, _⟩ := boundedIPv4_iff.mp h
  obtain ⟨t', s', e', ht', hr', h1, h2⟩ := ipAllocatable_iff.mp ha
  obtain rfl : t = t' := Option.some.inj (ht.symm.trans ht')
  obtain ⟨rfl, rfl⟩ : s = s' ∧ e = e' := by simpa [hr] using hr'
  obtain ⟨v4, h4⟩ := Option.isSome_iff_exists.mp h4
  have hl : (normalizeIP t).length = 4 := by
    rw [normalizeIP_of_to4 h4]
    exact to4_length h4
  exact ipInRange_between hr hs hl h1 h2

/-! ## 3. Pools that agree on a range -/

namespace IPAllocator

/-- The same addresses of the range are in use. -/
structure AgreeOn (ipRange : String) (a b : IPAllocator) : Prop where
  maxScan : a.maxScan = b.maxScan
  used : ∀ x, ipInRange x ipRange = true → (x ∈ a.used ↔ x ∈ b.used)

variable {r : String} {a b : IPAllocator}

theorem scan_agree (hn : a.maxScan = b.maxScan) (stop : IP) : ∀ (n : Nat) (ip : IP),
    (∀ x ∈ scanned stop n ip, (x ∈ a.used ↔ x ∈ b.used)) →
    a.scan r stop n ip = b.scan r stop n ip
  | 0, ip, _ => by rw [scan, scan, hn]
  | n + 1, ip, h => by
      rw [scan, scan]
      split
      · rfl
      · rename_i hgt
        rw [scanned, if_neg hgt] at h
        have ih := scan_agree hn stop n (incrementIP ip) fun x hx => h x (List.mem_cons_of_mem _ hx)
        simp only [h _ List.mem_cons_self, ih]

/-- **Pools that agree on a bounded range draw alike from it.** -/
theorem allocateIP_agree (hr : boundedIPv4 r = true) (h : AgreeOn r a b) :
    (a.allocateIP r).1 = (b.allocateIP r).1 := by
  have hwin : ∀ x ∈ window a.maxScan r, (x ∈ a.used ↔ x ∈ b.used) :=
    fun x hx => h.used x (mem_window_inRange hr hx)
  unfold window at hwin
  unfold allocateIP
  rcases hp : parseIPRange r with e | ⟨start, stop⟩
  · rfl
  · rw [hp] at hwin
    simp only at hwin ⊢
    split
    · rfl
    · rename_i he
      rw [if_neg he] at hwin
      rw [← h.maxScan, scan_agree h.maxScan stop a.maxScan start hwin]
      cases b.scan r stop a.maxScan start <;> rfl

/-- **They answer a request for an IPv4 address alike.** -/
theorem allocateSpecificIP_agree (hr : boundedIPv4 r = true) (h : AgreeOn r a b) {q : String}
    (hq : ∀ t, parseIP (trimSpace q) = some t → (to4 t).isSome = true) :
    (a.allocateSpecificIP r q).1 = (b.allocateSpecificIP r q).1 := by
  unfold allocateSpecificIP
  cases ht : parseIP (trimSpace q) with
  | none => rfl
  | some t =>
      cases ha : ipAllocatable q r with
      | false => rfl
      | true =>
          have hu := h.used _ (requested_inRange hr ht (hq t ht) ha)
          by_cases hm : ipString (normalizeIP t) ∈ a.used
          · simp [hm, hu.mp hm]
          · simp [hm, hu.not.mp hm]

end IPAllocator

end HeliosLB
