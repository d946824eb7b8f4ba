/-
  File:      HeliosLB/Network/Families.lean
  Subject:   THE TWO ADDRESS FAMILIES IN ONE ORDER: what is allocatable from a block against what
             is in it, and which addresses of the other family a range lets through.

  Within one family the two questions about a CIDR block differ at its network and broadcast
  address only. Across families there is nothing to compare, but `bytes.Compare` compares: 4 bytes
  against 16 is 4 bytes against the first 4 of the 16. An IPv4 range so contains the IPv6
  addresses that begin with the bytes of its addresses, and an IPv6 range with ends that differ in
  their first 32 bits contains IPv4 addresses.

  * **`allocatable_iff_inRange`** -- one family, one block;
  * `Straddles`, `between_iff_straddles` -- what the order makes of a foreign address;
  * `Accepts`, **`families_kept_iff`** -- so the families are kept apart exactly where no foreign
    address straddles.
-/
import HeliosLB.Network.Ranges

namespace HeliosLB

open Lib Lib.BigEndian

/-! ## 1. Containment and allocatability in one family -/

/-- The bounds of a block have the length of its normalised base. -/
theorem IPNet.Bounds.start_length {n : IPNet} {s e : IP} (hb : n.Bounds s e) :
    s.length = (normalizeIP n.ip).length := by
  cases hb with
  | hosts h4 _ hs _ _ _ => rw [normalizeIP_of_v4 h4, hs, h4]
  | whole hn _ => rw [hn]
  | mapped _ h4 => rw [normalizeIP_of_to4 h4]

/-- The edge of a block that is not in the mapped notation: its network and broadcast address, if
    it is an IPv4 block of a prefix of at most 30 bits. -/
theorem IPNet.WellFormed.edge_iff {n : IPNet} (hw : n.WellFormed)
    (hn : n.ip.length = 4 ∨ to4 n.ip = none) (ip : IP) : n.edge ip = true ↔
      n.ip.length = 4 ∧ n.ones ≤ 30 ∧ (normalizeIP ip = n.ip ∨ normalizeIP ip = n.last) := by
  have hbits := hw.bits
  have hones := hw.ones
  unfold IPNet.edge
  by_cases h4 : n.ip.length = 4
  · rw [if_pos h4, decide_eq_true_eq]
    simp only [h4, true_and]
    exact and_congr_left' (by omega)
  · rw [if_neg h4, hn.resolve_left h4]
    simp [h4]

/-- The edge of a block lies outside its bounds. -/
theorem IPNet.Bounds.not_edge {n : IPNet} (hw : n.WellFormed) {s e ip : IP} (hb : n.Bounds s e)
    (h : s ≤ normalizeIP ip ∧ normalizeIP ip ≤ e) : ¬ n.edge ip = true := by
  cases hb with
  | hosts h4 hwide hs he vs ve =>
      have hlast := hw.value_last
      have hll := hw.length_last
      rw [IPNet.edge, if_pos h4, decide_eq_true_eq]
      intro hx
      rcases hx.2 with hx | hx <;> rw [hx] at h
      · have h1 := (le_iff_value (hs.trans h4.symm)).mp h.1
        omega
      · have h2 := (le_iff_value (hll.trans (h4.trans he.symm))).mp h.2
        omega
  | whole hn hnarrow => exact IPNet.not_edge_of_whole hn hnarrow ip
  | mapped h16 h4 =>
      have hbase := normalizeIP_of_to4 h4
      rw [IPNet.edge, if_neg (by omega), decide_eq_true_eq, hbase]
      exact fun hx => hx.2.2 (List.le_antisymm h.2 h.1)

/-- **Containment and allocatability differ by network and broadcast address**: of a dotted IPv4
    block, or an IPv6 block whose base is not IPv4-mapped, an address of the family is allocatable
    exactly if it is in the block and not one of these two of an IPv4 block up to `/30`. -/
theorem allocatable_iff_inRange {ip r : String} {n : IPNet} {t : IP}
    (hn : parseCIDR (trimSpace r) = some n) (hbase : n.ip.length = 4 ∨ to4 n.ip = none)
    (ht : parseIP (trimSpace ip) = some t) (hl : (normalizeIP t).length = n.ip.length) :
    ipAllocatable ip r = true ↔ ipInRange ip r = true ∧
      ¬ (n.ip.length = 4 ∧ n.ones ≤ 30 ∧ (normalizeIP t = n.ip ∨ normalizeIP t = n.last)) := by
  have hw := parseCIDR_wellFormed hn
  have hb := cidrBounds_bounds hw
  have hnorm : normalizeIP n.ip = n.ip := by
    rcases hw.mapped_or with ⟨v4, h16, h4⟩ | h
    · rcases hbase with h | h
      · omega
      · rw [h] at h4
        cases h4
    · exact h
  have hfamily : sameFamily ip r = true := by
    unfold sameFamily
    rw [ht, parseIPRange_block hn]
    simp only
    rw [decide_eq_true_eq, hb.start_length, hnorm, hl]
  have hedge : atBlockEdge ip r = true ↔ n.edge t = true := by
    unfold atBlockEdge
    rw [ht, hn]
  rw [ipInRange_iff, hfamily, hedge, hw.edge_iff hbase]
  simp only [implies_true, and_true]
  constructor
  · intro ha
    refine ⟨Or.inl ha, ?_⟩
    obtain ⟨t', s, e, ht', hr, hbetween⟩ := ipAllocatable_iff.mp ha
    obtain rfl : t = t' := Option.some.inj (ht.symm.trans ht')
    rw [parseIPRange_block hn] at hr
    rw [← hw.edge_iff hbase]
    rw [Except.ok.inj hr] at hb
    exact hb.not_edge hw hbetween
  · exact fun h => h.1.resolve_right h.2

/-- At the last host of a prefix off the byte boundary. -/
theorem allocatable_iff_inRange_host :
    ipInRange "10.1.11.254" "10.1.9.7/22" = true ∧
      ipAllocatable "10.1.11.254" "10.1.9.7/22" = true := by
  have hin : ipInRange "10.1.11.254" "10.1.9.7/22" = true := by decide
  have hn : parseCIDR (trimSpace "10.1.9.7/22") =
      some ⟨[10, 1, 8, 0], [255, 255, 252, 0], 22, 32⟩ := by decide
  have ht : parseIP (trimSpace "10.1.11.254") = some (v4InV6Prefix ++ [10, 1, 11, 254]) := by decide
  exact ⟨hin, (allocatable_iff_inRange hn (Or.inl rfl) ht rfl).mpr ⟨hin, by decide⟩⟩

/-! ## 2. Addresses of the other family -/

/-- **A foreign address straddles a range**: an IPv6 address whose first four bytes are an address
    of an IPv4 range other than its last one, or an IPv4 address behind the first four bytes of
    the start and not behind those of the end of an IPv6 range. -/
def Straddles (start stop x : IP) : Prop :=
  if start.length = 4 then start ≤ x.take 4 ∧ x.take 4 < stop
  else start.take 4 < x ∧ x ≤ stop.take 4

instance (start stop x : IP) : Decidable (Straddles start stop x) :=
  inferInstanceAs (Decidable (ite _ _ _))

/-- **What the order makes of a foreign address.** -/
theorem between_iff_straddles {s e x : IP} (hs : IsAddr s) (hl : s.length = e.length)
    (hx : IsAddr x) (hne : x.length ≠ s.length) : s ≤ x ∧ x ≤ e ↔ Straddles s e x := by
  unfold Straddles
  rcases hs with h4 | h16
  · have h16 : x.length = 16 := hx.resolve_left fun h => hne (h.trans h4.symm)
    have h1 : s ≤ x ↔ s ≤ x.take s.length := le_iff_le_take (by omega)
    have h2 : x ≤ e ↔ x.take e.length < e := ge_iff_take_lt (by omega)
    rw [if_pos h4, h1, h2, ← hl, h4]
  · have h4 : x.length = 4 := hx.resolve_right fun h => hne (h.trans h16.symm)
    have h1 : s ≤ x ↔ s.take x.length < x := ge_iff_take_lt (by omega)
    have h2 : x ≤ e ↔ x ≤ e.take x.length := le_iff_le_take (by omega)
    rw [if_neg (by omega), h1, h2, h4]

/-- One of the three questions about an address and a range is answered with yes. -/
def Accepts (a : IPAllocator) (ip ipRange : String) : Prop :=
  ipAllocatable ip ipRange = true ∨ ipInRange ip ipRange = true ∨
    ∃ s, (a.allocateSpecificIP ipRange ip).1 = .ok s

/-- The edge of a block is of its family: the masks keep the families apart. -/
theorem sameFamily_of_edge {ip r : String} (h : atBlockEdge ip r = true) :
    sameFamily ip r = true := by
  unfold atBlockEdge at h
  unfold sameFamily
  cases ht : parseIP (trimSpace ip) with
  | none =>
      rw [ht] at h
      cases h
  | some t =>
      cases hn : parseCIDR (trimSpace r) with
      | none =>
          rw [ht, hn] at h
          cases h
      | some n =>
          rw [ht, hn] at h
          have hw := parseCIDR_wellFormed hn
          have hb := cidrBounds_bounds hw
          have haddr := isAddr_of_parseIP ht
          have hc := (hw.contains_iff haddr).mp ((hb.contains_iff hw haddr).mpr (Or.inr h))
          rw [parseIPRange_block hn]
          simp only
          rw [decide_eq_true_eq, hb.start_length, hc.1]

theorem Accepts.cases {a : IPAllocator} {ip r : String} (h : Accepts a ip r) :
    ipAllocatable ip r = true ∨ sameFamily ip r = true := by
  rcases h with h | h | ⟨x, h⟩
  · exact Or.inl h
  · rcases (ipInRange_iff ip r).mp h with ⟨ha, _⟩ | he
    · exact Or.inl ha
    · exact Or.inr (sameFamily_of_edge he)
  · rcases a.allocateSpecificIP_eq r ip with ⟨y, hg, _⟩ | ⟨err, _, ha⟩
    · exact Or.inl (IPAllocator.grant_allocatable hg)
    · rw [ha] at h
      cases h

/-- **The families are kept apart exactly where no foreign address straddles**: then, and only
    then, an address that is allocatable from the range, in it or granted from it has the byte
    length of the range. -/
theorem families_kept_iff {a : IPAllocator} {ip r : String} {s e : IP}
    (hr : parseIPRange r = .ok (s, e)) (hl : s.length = e.length) :
    (Accepts a ip r → ∃ t, parseIP (trimSpace ip) = some t ∧
      (normalizeIP t).length = s.length) ↔
    ∀ t, parseIP (trimSpace ip) = some t →
      (normalizeIP t).length = s.length ∨ ¬ Straddles s e (normalizeIP t) := by
  have hs := parseIPRange_start_length hr
  constructor
  · intro h t ht
    by_contra hcon
    obtain ⟨hne, hst⟩ := not_or.mp hcon
    have hx := normalizeIP_length (isAddr_of_parseIP ht)
    have hb := (between_iff_straddles hs hl hx hne).mpr (not_not.mp hst)
    obtain ⟨t', ht', hlen⟩ := h (Or.inl (ipAllocatable_iff.mpr ⟨t, s, e, ht, hr, hb⟩))
    rw [ht] at ht'
    cases ht'
    exact hne hlen
  · intro h hacc
    rcases hacc.cases with ha | hf
    · obtain ⟨t, s', e', ht, hr', hb⟩ := ipAllocatable_iff.mp ha
      rw [hr] at hr'
      cases hr'
      refine ⟨t, ht, (h t ht).elim id fun hst => ?_⟩
      by_contra hne
      have hx := normalizeIP_length (isAddr_of_parseIP ht)
      exact hst ((between_iff_straddles hs hl hx hne).mp hb)
    · unfold sameFamily at hf
      rw [hr] at hf
      cases ht : parseIP (trimSpace ip) with
      | none =>
          rw [ht] at hf
          cases hf
      | some t =>
          rw [ht] at hf
          exact ⟨t, rfl, of_decide_eq_true hf⟩

/-- An address of the family, in an IPv6 block. -/
theorem families_kept_block :
    Accepts newIPAllocator "fd00::5" "fd00::/120" ∧
      ∃ t, parseIP (trimSpace "fd00::5") = some t ∧ (normalizeIP t).length = 16 := by
  have hr : parseIPRange "fd00::/120" = .ok ([0xfd, 0, 0, 0, 0, 0, 0, 0, 0, 0, 0, 0, 0, 0, 0, 0],
      [0xfd, 0, 0, 0, 0, 0, 0, 0, 0, 0, 0, 0, 0, 0, 0, 0xff]) := by decide
  have hacc : Accepts newIPAllocator "fd00::5" "fd00::/120" := Or.inl (by decide)
  refine ⟨hacc, (families_kept_iff hr rfl).mpr (fun t ht => Or.inl ?_) hacc⟩
  obtain rfl : [0xfd, 0, 0, 0, 0, 0, 0, 0, 0, 0, 0, 0, 0, 0, 0, 5] = t := Option.some.inj ht
  rfl

/-- **Both families are confused**: an IPv4 range lets an IPv6 address through on every path, and
    the block of local IPv6 addresses an IPv4 one. -/
theorem families_confused :
    ipAllocatable "a00:2::1" "10.0.0.1-10.0.0.9" = true ∧
      ipInRange "a00:2::1" "10.0.0.1-10.0.0.9" = true ∧
      (newIPAllocator.allocateSpecificIP "10.0.0.1-10.0.0.9" "a00:2::1").1 = .ok "a00:2::1" ∧
      ipAllocatable "253.0.0.1" "fd00::/8" = true := by
  decide

end HeliosLB
