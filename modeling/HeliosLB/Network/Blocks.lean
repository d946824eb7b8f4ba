/-
  File:      HeliosLB/Network/Blocks.lean
  Subject:   CIDR BLOCKS: what is IN one (`IPNet.Contains`, behind `IPInRange`) and what is
             ALLOCATABLE from one (`ParseIPRange`, behind `IPAllocatable`).

  The source answers the first question with masks and the second with an interval of bytes. Both
  are intervals of numbers here. They differ at the edges of a dotted block wider than `/31`, in a
  block written in the IPv4-mapped notation, and for an address of the other family, which only
  the comparison of bytes lets through.

  * `IPNet.WellFormed`, `parseCIDR_wellFormed` -- the blocks `net.ParseCIDR` returns;
  * `contains_iff` -- containment as an interval;
  * `Bounds`, `cidrBounds_bounds` -- the three things `ParseIPRange` makes of a block;
  * `atBlockEdge`, **`ipInRange_iff`** -- containment is allocatability within the family, or the
    edge of a block.
-/
import HeliosLB.Network.Allocator
import HeliosLB.Network.Arithmetic
import HeliosLB.Network.Lease

namespace HeliosLB

open Lib BigEndian

/-! ## 1. The blocks of `net.ParseCIDR` -/

theorem cidrMask_eq : ∀ n ones : Nat, cidrMask ones (8 * n) = prefixMask ones n
  | 0, _ => rfl
  | n + 1, ones => by
      have hm : ∀ n, 8 * n / 8 = n := fun n => Nat.mul_div_cancel_left n (by decide)
      have hb : ∀ k, UInt8.ofNat (255 - (2 ^ (8 - min 8 k) - 1)) = byteMask k := by
        intro k
        have := Nat.two_pow_pos (8 - min 8 k)
        unfold byteMask
        congr 1
        omega
      have ih := cidrMask_eq n (ones - 8)
      unfold cidrMask at ih ⊢
      rw [hm] at ih ⊢
      rw [List.range_succ_eq_map, List.map_cons, List.map_map, prefixMask, ← ih, hb]
      refine congrArg₂ List.cons rfl (List.map_congr_left fun i _ => ?_)
      show UInt8.ofNat _ = UInt8.ofNat _
      rw [show ones - 8 * (i + 1) = ones - 8 - 8 * i by omega]

/-- How many addresses the block holds. -/
def IPNet.size (n : IPNet) : Nat := 2 ^ (n.bits - n.ones)

/-- A block as `net.ParseCIDR` returns it. -/
structure IPNet.WellFormed (n : IPNet) : Prop where
  addr : IsAddr n.ip
  bits : n.bits = 8 * n.ip.length
  ones : n.ones ≤ n.bits
  mask : n.mask = prefixMask n.ones n.ip.length
  aligned : n.size ∣ value n.ip

theorem IPNet.size_pos (n : IPNet) : 0 < n.size := Nat.two_pow_pos _

theorem IPNet.four_le_size (n : IPNet) (h : n.bits - n.ones > 1) : 4 ≤ n.size := by
  calc 4 = 2 ^ 2 := rfl
    _ ≤ n.size := Nat.pow_le_pow_right (by decide) h

theorem IPNet.WellFormed.size_eq {n : IPNet} (h : n.WellFormed) :
    n.size = hostSize n.ones n.ip.length := by
  unfold hostSize IPNet.size
  rw [h.bits]

theorem Addr.bytes_length {s : List Char} {a : Addr} (h : parseAddr s = some a) :
    a.bitLen = 8 * a.bytes.length ∧ IsAddr a.bytes := by
  have hl := parseAddr_length h
  unfold IsAddr
  cases a <;> simp only [Addr.bitLen] at hl ⊢ <;> omega

theorem parseCIDR_wellFormed {s : String} {n : IPNet} (h : parseCIDR s = some n) :
    n.WellFormed := by
  unfold parseCIDR at h
  split at h
  · cases h
  · split at h
    · cases h
    · rename_i a ha
      split at h
      · cases h
      · split at h
        · cases h
        · rename_i k hk
          split at h
          · cases h
          · rename_i hle
            obtain ⟨hbits, haddr⟩ := Addr.bytes_length ha
            have hk : k ≤ 8 * a.bytes.length := by omega
            have hv := value_and_prefixMask a.bytes k hk
            rw [hbits, cidrMask_eq] at h
            cases h
            have hlen : (List.zipWith (· &&& ·) a.bytes (prefixMask k a.bytes.length)).length =
                a.bytes.length := by simp
            refine ⟨?_, ?_, hk, ?_, ?_⟩
            · unfold IsAddr at haddr ⊢
              rwa [hlen]
            · rw [hlen]
            · rw [hlen]
            · rw [hv]
              exact Nat.dvd_mul_left _ _

/-! ## 2. Containment -/

theorem getD_to4 {ip : IP} (h : IsAddr ip) : (to4 ip).getD ip = normalizeIP ip := by
  rcases h.shortens_or with ⟨v4, h4⟩ | ⟨_, h4, hn⟩
  · rw [normalizeIP_of_to4 h4, h4, Option.getD_some]
  · rw [hn, h4, Option.getD_none]

/-- A 16-byte slice that shortens to 4 bytes is the prefix and these. -/
theorem eq_of_to4 {ip v4 : IP} (hl : ip.length = 16) (h : to4 ip = some v4) :
    ip = v4InV6Prefix ++ v4 := by
  unfold to4 at h
  rw [if_neg (by omega)] at h
  split at h
  · rename_i hp
    cases h
    rw [← hp.2, List.take_append_drop]
  · cases h

theorem value_mapped (v4 : IP) (h : v4.length = 4) :
    value (v4InV6Prefix ++ v4) = 65535 * 2 ^ 32 + value v4 := by
  have hprefix : value v4InV6Prefix = 65535 := by decide
  have hpow : 256 ^ 4 = 2 ^ 32 := by decide
  rw [value_append, hprefix, h, hpow]

/-- A block whose base is IPv4-mapped has a prefix of at least 96 bits. -/
theorem IPNet.WellFormed.mapped_ones {n : IPNet} (hw : n.WellFormed) {v4 : IP}
    (hl : n.ip.length = 16) (h : to4 n.ip = some v4) : 96 ≤ n.ones ∧ n.size ∣ value v4 := by
  have hv := value_mapped v4 (to4_length h)
  have ha := hw.aligned
  have hbits := hw.bits
  have hones := hw.ones
  have hlt := value_lt v4
  rw [to4_length h] at hlt
  rw [eq_of_to4 hl h, hv] at ha
  have h96 : 96 ≤ n.ones := by
    by_contra hlt96
    -- a mask that cuts the sixteen one bits leaves an even number of blocks of size 2 ^ 32
    have h33 : (2 : Nat) ^ 33 ∣ n.size := Nat.pow_dvd_pow 2 (by omega)
    have hd := h33.trans ha
    omega
  have h32 : n.size ∣ 65535 * 2 ^ 32 :=
    Dvd.dvd.mul_left (Nat.pow_dvd_pow 2 (by omega)) _
  exact ⟨h96, (Nat.dvd_add_right h32).mp ha⟩

theorem drop_prefixMask (ones : Nat) : (prefixMask ones 16).drop 12 = prefixMask (ones - 96) 4 := by
  rw [prefixMask_add 4 12, List.drop_left' (length_prefixMask ones 12)]

/-- The base is IPv4-mapped, or normalising keeps it. -/
theorem IPNet.WellFormed.mapped_or {n : IPNet} (hw : n.WellFormed) :
    (∃ v4, n.ip.length = 16 ∧ to4 n.ip = some v4) ∨ normalizeIP n.ip = n.ip := by
  rcases hw.addr with hl | hl
  · exact Or.inr (normalizeIP_of_v4 hl)
  · exact hw.addr.shortens_or.imp (fun ⟨v4, h4⟩ => ⟨v4, hl, h4⟩) fun h => h.2.2

/-- **What is in a block**: an interval of the addresses of its family. -/
theorem IPNet.WellFormed.contains_iff {n : IPNet} (hw : n.WellFormed) {ip : IP} (h : IsAddr ip) :
    n.contains ip = true ↔ (normalizeIP ip).length = (normalizeIP n.ip).length ∧
      value (normalizeIP n.ip) ≤ value (normalizeIP ip) ∧
      value (normalizeIP ip) < value (normalizeIP n.ip) + n.size := by
  have hbits := hw.bits
  have hones := hw.ones
  unfold IPNet.contains
  simp only [getD_to4 h, getD_to4 hw.addr]
  rw [decide_eq_true_eq, hw.mask, length_prefixMask]
  refine and_congr_right fun hl => ?_
  rcases hw.mapped_or with ⟨v4, h16, h4⟩ | hn
  · obtain ⟨h96, hd⟩ := hw.mapped_ones h16 h4
    have hn := normalizeIP_of_to4 h4
    have h4l := to4_length h4
    have hsize : n.size = hostSize (n.ones - 96) v4.length := by
      unfold IPNet.size hostSize
      congr 1
      omega
    rw [hn] at hl ⊢
    rw [h16, if_pos ⟨rfl, h4l⟩, drop_prefixMask, ← h4l, eq_comm,
      and_prefixMask_eq_iff hl (by omega), ← hsize, div_eq_div_iff n.size_pos hd]
  · rw [hn] at hl ⊢
    rw [if_neg (by omega), eq_comm, and_prefixMask_eq_iff hl (by omega), ← hw.size_eq,
      div_eq_div_iff n.size_pos hw.aligned]

/-! ## 3. The bounds `ParseIPRange` makes of a block -/

/-- The base with every host bit set: the broadcast address of an IPv4 block. -/
def IPNet.last (n : IPNet) : IP := List.zipWith (fun s m => s ||| ~~~m) n.ip n.mask

theorem IPNet.WellFormed.length_last {n : IPNet} (hw : n.WellFormed) :
    n.last.length = n.ip.length := by
  unfold IPNet.last
  rw [hw.mask]
  simp

theorem IPNet.WellFormed.value_last {n : IPNet} (hw : n.WellFormed) :
    value n.last + 1 = value n.ip + n.size := by
  have hle : n.ones ≤ 8 * n.ip.length := by rw [← hw.bits]; exact hw.ones
  have hp := n.size_pos
  unfold IPNet.last
  rw [hw.mask, value_or_prefixMask n.ip n.ones hle, ← hw.size_eq, Nat.div_mul_cancel hw.aligned]
  omega

/-- **All that `ParseIPRange` makes of a block**: the addresses between base and last one, the
    whole block, or, in the mapped notation, the base alone. -/
inductive IPNet.Bounds (n : IPNet) : IP → IP → Prop where
  | hosts {s e : IP} (h4 : n.ip.length = 4) (hwide : n.bits - n.ones > 1) (hs : s.length = 4)
      (he : e.length = 4) (vs : value s = value n.ip + 1)
      (ve : value e + 2 = value n.ip + n.size) : Bounds n s e
  | whole (hn : normalizeIP n.ip = n.ip) (hnarrow : ¬ (n.ip.length = 4 ∧ n.bits - n.ones > 1)) :
      Bounds n n.ip n.last
  | mapped {v4 : IP} (h16 : n.ip.length = 16) (h4 : to4 n.ip = some v4) : Bounds n v4 v4

/-- The first four bytes of a mask of 96 bits or more clear nothing. -/
theorem or_prefixMask_mapped {v4 : IP} {ones : Nat} (h4 : v4.length = 4) (h : 96 ≤ ones) :
    List.zipWith (fun s m => s ||| ~~~m) v4 (prefixMask ones 16) = v4 := by
  obtain ⟨a, b, c, d, rfl⟩ := List.length_eq_four.mp h4
  have hnot : ~~~(255 : UInt8) = 0 := by decide
  rw [prefixMask_add 12 4, prefixMask_of_le (by omega)]
  simp only [List.replicate, List.cons_append, List.zipWith_cons_cons, List.zipWith_nil_left, hnot,
    UInt8.or_zero]

theorem cidrBounds_bounds {n : IPNet} (hw : n.WellFormed) :
    n.Bounds (cidrBounds n).1 (cidrBounds n).2 := by
  have hbits := hw.bits
  have hlast := hw.value_last
  have hll := hw.length_last
  unfold cidrBounds
  rcases hw.mapped_or with ⟨v4, h16, h4⟩ | hn
  · obtain ⟨h96, _⟩ := hw.mapped_ones h16 h4
    have hn := normalizeIP_of_to4 h4
    simp only [hn, hw.mask, h16]
    rw [if_neg (by omega), or_prefixMask_mapped (to4_length h4) h96]
    exact .mapped h16 h4
  · simp only [hn]
    by_cases hwide : n.ip.length = 4 ∧ n.bits - n.ones > 1
    · rw [if_pos (by omega)]
      have h4 := n.four_le_size hwide.2
      have hlt := value_lt n.last
      have e1 : value (incrementIP n.ip) = value n.ip + 1 :=
        value_incrementIP_of_lt (by rw [← hll]; omega)
      have e2 : value (decrementIP n.last) = value n.last - 1 :=
        value_decrementIP_of_pos (by omega)
      refine .hosts hwide.1 hwide.2 ?_ ?_ e1 ?_
      · rw [incrementIP_length, hwide.1]
      · show (decrementIP n.last).length = 4
        rw [decrementIP_length, hll, hwide.1]
      · show value (decrementIP n.last) + 2 = _
        omega
    · rw [if_neg (by omega)]
      exact .whole hn hwide

/-- The bounds of a block are in order. -/
theorem IPNet.Bounds.start_le_stop {n : IPNet} (hw : n.WellFormed) {s e : IP}
    (hb : n.Bounds s e) : s ≤ e := by
  cases hb with
  | hosts _ hwide hs he vs ve =>
      have hp := n.four_le_size hwide
      exact (le_iff_value (hs.trans he.symm)).mpr (by omega)
  | whole _ _ =>
      have hp := n.size_pos
      have hlast := hw.value_last
      exact (le_iff_value hw.length_last.symm).mpr (by omega)
  | mapped _ _ => exact List.le_refl s

/-- They have one length. -/
theorem IPNet.Bounds.length_eq {n : IPNet} (hw : n.WellFormed) {s e : IP} (hb : n.Bounds s e) :
    s.length = e.length := by
  cases hb with
  | hosts _ _ hs he _ _ => rw [hs, he]
  | whole _ _ => exact hw.length_last.symm
  | mapped _ _ => rfl

/-- **The edge of a block**: the base or the last address of a dotted block wider than `/31`; in
    the IPv4-mapped notation every address of the block but its base. -/
def IPNet.edge (n : IPNet) (ip : IP) : Bool :=
  if n.ip.length = 4 then
    n.bits - n.ones > 1 ∧ (normalizeIP ip = n.ip ∨ normalizeIP ip = n.last)
  else (to4 n.ip).isSome ∧ n.contains ip ∧ normalizeIP ip ≠ normalizeIP n.ip

/-- A block that is allocatable as a whole has no edge. -/
theorem IPNet.not_edge_of_whole {n : IPNet} (hn : normalizeIP n.ip = n.ip)
    (hnarrow : ¬ (n.ip.length = 4 ∧ n.bits - n.ones > 1)) (ip : IP) : ¬ n.edge ip = true := by
  unfold IPNet.edge
  split
  · rename_i h4
    rw [decide_eq_true_eq]
    exact fun hx => hnarrow ⟨h4, hx.1⟩
  · rename_i h4
    rw [decide_eq_true_eq]
    intro hx
    obtain ⟨v4, hv⟩ := Option.isSome_iff_exists.mp hx.1
    have e : v4 = n.ip := by rw [← hn, normalizeIP, hv]
    exact h4 (e ▸ to4_length hv)

section Edge

variable {n : IPNet} (hw : n.WellFormed) {ip : IP} (h : IsAddr ip)

include hw h

/-- Of a dotted block wider than `/31`. -/
theorem IPNet.WellFormed.contains_hosts {s e : IP} (h4 : n.ip.length = 4)
    (hwide : n.bits - n.ones > 1) (hs : s.length = 4) (he : e.length = 4)
    (vs : value s = value n.ip + 1) (ve : value e + 2 = value n.ip + n.size) :
    n.contains ip = true ↔
      ((s ≤ normalizeIP ip ∧ normalizeIP ip ≤ e) ∧ (normalizeIP ip).length = s.length) ∨
        n.edge ip = true := by
  have hlast := hw.value_last
  have hll := hw.length_last
  have hp := n.four_le_size hwide
  rw [hw.contains_iff h, normalizeIP_of_v4 h4, IPNet.edge, if_pos h4, decide_eq_true_eq, h4, hs]
  generalize normalizeIP ip = x
  constructor
  · intro hx
    obtain ⟨hl, h1, h2⟩ := hx
    by_cases he1 : value x = value n.ip
    · exact Or.inr ⟨hwide, Or.inl (value_inj (hl.trans h4.symm) he1)⟩
    by_cases he2 : value x = value n.last
    · exact Or.inr ⟨hwide, Or.inr (value_inj (by omega) he2)⟩
    refine Or.inl ⟨⟨?_, ?_⟩, hl⟩
    · exact (le_iff_value (by omega)).mpr (by omega)
    · exact (le_iff_value (by omega)).mpr (by omega)
  · intro hx
    rcases hx with ⟨⟨h1, h2⟩, hl⟩ | ⟨_, rfl | rfl⟩
    · have h1 := (le_iff_value (by omega)).mp h1
      have h2 := (le_iff_value (by omega)).mp h2
      exact ⟨hl, by omega, by omega⟩
    · exact ⟨h4, by omega, by omega⟩
    · exact ⟨by omega, by omega, by omega⟩

/-- Of a block that is allocatable as a whole. -/
theorem IPNet.WellFormed.contains_whole (hn : normalizeIP n.ip = n.ip)
    (hnarrow : ¬ (n.ip.length = 4 ∧ n.bits - n.ones > 1)) : n.contains ip = true ↔
      ((n.ip ≤ normalizeIP ip ∧ normalizeIP ip ≤ n.last) ∧
        (normalizeIP ip).length = n.ip.length) ∨ n.edge ip = true := by
  have hlast := hw.value_last
  have hll := hw.length_last
  rw [hw.contains_iff h, hn, or_iff_left (IPNet.not_edge_of_whole hn hnarrow ip)]
  generalize normalizeIP ip = x
  constructor
  · intro hx
    obtain ⟨hl, h1, h2⟩ := hx
    exact ⟨⟨(le_iff_value (by omega)).mpr h1, (le_iff_value (by omega)).mpr (by omega)⟩, hl⟩
  · intro hx
    obtain ⟨⟨h1, h2⟩, hl⟩ := hx
    have h1 := (le_iff_value (by omega)).mp h1
    have h2 := (le_iff_value (by omega)).mp h2
    exact ⟨hl, h1, by omega⟩

/-- Of a block in the mapped notation: only its base is allocatable. -/
theorem IPNet.WellFormed.contains_mapped {v4 : IP} (h16 : n.ip.length = 16)
    (h4 : to4 n.ip = some v4) : n.contains ip = true ↔
      ((v4 ≤ normalizeIP ip ∧ normalizeIP ip ≤ v4) ∧ (normalizeIP ip).length = v4.length) ∨
        n.edge ip = true := by
  have hn := normalizeIP_of_to4 h4
  have hp := n.size_pos
  have hc := hw.contains_iff h
  rw [IPNet.edge, if_neg (by omega), decide_eq_true_eq, h4, hn]
  rw [hn] at hc
  constructor
  · intro hx
    by_cases e : normalizeIP ip = v4
    · rw [e]
      exact Or.inl ⟨⟨List.le_refl v4, List.le_refl v4⟩, rfl⟩
    · exact Or.inr ⟨rfl, hx, e⟩
  · intro hx
    rcases hx with ⟨⟨h1, h2⟩, _⟩ | ⟨_, hx, _⟩
    · have e : v4 = normalizeIP ip := List.le_antisymm h1 h2
      rw [← e] at hc
      exact hc.mpr ⟨rfl, by omega, by omega⟩
    · exact hx

/-- **Contained in a block**: between its bounds and of its family, or at its edge. -/
theorem IPNet.Bounds.contains_iff {s e : IP} (hb : n.Bounds s e) : n.contains ip = true ↔
    ((s ≤ normalizeIP ip ∧ normalizeIP ip ≤ e) ∧ (normalizeIP ip).length = s.length) ∨
      n.edge ip = true := by
  cases hb with
  | hosts h4 hwide hs he vs ve => exact hw.contains_hosts h h4 hwide hs he vs ve
  | whole hn hnarrow => exact hw.contains_whole h hn hnarrow
  | mapped h16 h4 => exact hw.contains_mapped h h16 h4

end Edge

/-! ## 4. In a range and allocatable from it -/

/-- The range is written as a block. -/
def isCIDR (ipRange : String) : Bool := '/' ∈ ipRange.toList

/-- The address has the byte length of the range's first address. -/
def sameFamily (ip ipRange : String) : Bool :=
  match parseIP (trimSpace ip), parseIPRange ipRange with
  | some target, .ok (start, _) => (normalizeIP target).length = start.length
  | _, _ => false

/-- The address is at the edge of the block the range is. -/
def atBlockEdge (ip ipRange : String) : Bool :=
  match parseIP (trimSpace ip), parseCIDR (trimSpace ipRange) with
  | some target, some n => n.edge target
  | _, _ => false

theorem mem_dropWhile_of_not {p : Char → Bool} {c : Char} (hc : p c = false) (l : List Char) :
    c ∈ l.dropWhile p ↔ c ∈ l := by
  induction l with
  | nil => rfl
  | cons d l ih =>
      by_cases hd : p d = true
      · have hne : c ≠ d := fun e => by rw [e, hd] at hc; cases hc
        rw [List.dropWhile_cons_of_pos hd, ih, List.mem_cons]
        exact ⟨Or.inr, fun h => h.resolve_left hne⟩
      · rw [List.dropWhile_cons_of_neg hd]

/-- Trimming keeps what is not a space. -/
theorem mem_trimSpace {c : Char} (hc : isSpace c = false) (s : String) :
    c ∈ (trimSpace s).toList ↔ c ∈ s.toList := by
  unfold trimSpace
  rw [String.toList_ofList, List.mem_reverse, mem_dropWhile_of_not hc, List.mem_reverse,
    mem_dropWhile_of_not hc]

theorem isCIDR_trimSpace (r : String) : '/' ∈ (trimSpace r).toList ↔ isCIDR r = true := by
  rw [mem_trimSpace (by decide), isCIDR, decide_eq_true_eq]

/-- A text without a slash is no block. -/
theorem isCIDR_of_parseCIDR {r : String} {n : IPNet} (h : parseCIDR (trimSpace r) = some n) :
    isCIDR r = true := by
  by_contra hr
  have hs : '/' ∉ (trimSpace r).toList := fun hm => hr ((isCIDR_trimSpace r).mp hm)
  have hd : (trimSpace r).toList.dropWhile (· ≠ '/') = [] := by
    rw [List.dropWhile_eq_nil_iff]
    intro c hc
    have hne : c ≠ '/' := fun e => hs (e ▸ hc)
    simpa using hne
  unfold parseCIDR at h
  rw [hd] at h
  cases h

theorem parseIPRange_block {r : String} {n : IPNet} (h : parseCIDR (trimSpace r) = some n) :
    parseIPRange r = .ok (cidrBounds n) := by
  unfold parseIPRange
  simp only
  rw [if_pos ((isCIDR_trimSpace r).mpr (isCIDR_of_parseCIDR h)), h]

/-- In a block is what `IPNet.Contains` says. -/
theorem ipInRange_block {ip r : String} {t : IP} {n : IPNet} (ht : parseIP (trimSpace ip) = some t)
    (h : parseCIDR (trimSpace r) = some n) : ipInRange ip r = n.contains t := by
  have hr : '/' ∈ r.toList := by simpa [isCIDR] using isCIDR_of_parseCIDR h
  unfold ipInRange
  rw [ht, h]
  exact if_pos hr

theorem parseIPRange_badBlock {r : String} (hr : isCIDR r = true)
    (h : parseCIDR (trimSpace r) = none) : parseIPRange r = .error (.cidr r) := by
  unfold parseIPRange
  simp only
  rw [if_pos ((isCIDR_trimSpace r).mpr hr), h]

/-- In a range that is no block are the addresses it allocates. -/
theorem ipInRange_of_not_block {r : String} (h : isCIDR r = false) (ip : String) :
    ipInRange ip r = ipAllocatable ip r := by
  have hs : '/' ∉ r.toList := by simpa [isCIDR] using h
  unfold ipInRange ipAllocatable
  simp only [if_neg hs]

/-- **In a range**: allocatable from it, within the family if it is a block, or at the edge of a
    block. -/
theorem ipInRange_iff (ip r : String) : ipInRange ip r = true ↔
    (ipAllocatable ip r = true ∧ (isCIDR r = true → sameFamily ip r = true)) ∨
      atBlockEdge ip r = true := by
  unfold ipInRange ipAllocatable sameFamily atBlockEdge
  cases ht : parseIP (trimSpace ip) with
  | none => simp
  | some target =>
      simp only
      cases hn : parseCIDR (trimSpace r) with
      | some n =>
          have hr := isCIDR_of_parseCIDR hn
          have hw := parseCIDR_wellFormed hn
          have hb := cidrBounds_bounds hw
          rw [if_pos (by simpa [isCIDR] using hr), parseIPRange_block hn]
          generalize cidrBounds n = b at hb ⊢
          obtain ⟨s, e⟩ := b
          simp only [decide_eq_true_eq, bytesCompare_ne_lt, bytesCompare_ne_gt, hr, forall_const]
          exact hb.contains_iff hw (isAddr_of_parseIP ht)
      | none =>
          by_cases hr : isCIDR r = true
          · rw [if_pos (by simpa [isCIDR] using hr), parseIPRange_badBlock hr hn]
            simp
          · rw [if_neg (by simpa [isCIDR] using hr)]
            simp [hr]

end HeliosLB
