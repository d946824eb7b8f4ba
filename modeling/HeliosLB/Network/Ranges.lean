/-
  File:      HeliosLB/Network/Ranges.lean
  Subject:   RANGES AS INTERVALS OF ADDRESSES, and when two of them share one.

  `IPAllocatable` compares bytes, so a range is an interval of the lexicographic order on slices
  of both lengths, whatever its notation. Two intervals with a first and a last address share an
  address exactly if each starts before the other ends; the larger start is then a witness, and
  its rendering is a text the source reads as that address.

  * `parseIPRange_cases` -- a block, or two normalised addresses;
  * `ipAllocatable_iff` -- membership in the interval;
  * `stop_le_normalizeIP` -- normalising the last address, as `CompareIPs` does, never lowers it;
  * `trimSpace_ipString` -- a rendering has no space to trim;
  * `rangesMeet`, `not_allocatable_both`, **`exists_allocatable_both_iff`** -- common addresses;
  * `Between`, `exists_between_both` -- the same for slices of one length.
-/
import HeliosLB.Network.Blocks

namespace HeliosLB

open Lib BigEndian

/-! ## 1. What a range parses to -/

/-- **A range is a block or two normalised addresses.** -/
theorem parseIPRange_cases {r : String} {s e : IP} (h : parseIPRange r = .ok (s, e)) :
    (∃ n, parseCIDR (trimSpace r) = some n ∧ n.WellFormed ∧ n.Bounds s e) ∨
      (isCIDR r = false ∧ ∃ a b : IP, IsAddr a ∧ IsAddr b ∧ s = normalizeIP a ∧
        e = normalizeIP b) := by
  cases hn : parseCIDR (trimSpace r) with
  | some n =>
      have hw := parseCIDR_wellFormed hn
      have hb := cidrBounds_bounds hw
      rw [parseIPRange_block hn] at h
      rw [Except.ok.inj h] at hb
      exact Or.inl ⟨n, rfl, hw, hb⟩
  | none =>
      right
      by_cases hr : isCIDR r = true
      · rw [parseIPRange_badBlock hr hn] at h
        cases h
      · have hs : '/' ∉ (trimSpace r).toList := fun hm => hr ((isCIDR_trimSpace r).mp hm)
        refine ⟨by simpa using hr, ?_⟩
        unfold parseIPRange at h
        simp only at h
        rw [if_neg hs] at h
        split at h
        · rename_i ip hip
          cases h
          exact ⟨ip, ip, isAddr_of_parseIP hip, isAddr_of_parseIP hip, rfl, rfl⟩
        · split at h
          · split at h
            · rename_i a b ha hb
              cases h
              exact ⟨a, b, isAddr_of_parseIP ha, isAddr_of_parseIP hb, rfl, rfl⟩
            · cases h
          · cases h

/-- The empty text is no range. -/
theorem parseIPRange_empty : parseIPRange "" = .error (.format "") := by decide

theorem ne_empty_of_parse {r : String} {b : IP × IP} (h : parseIPRange r = .ok b) : r ≠ "" := by
  rintro rfl
  rw [parseIPRange_empty] at h
  cases h

/-- The first address of a range is normalised. -/
theorem parseIPRange_start_normal {r : String} {s e : IP} (h : parseIPRange r = .ok (s, e)) :
    normalizeIP s = s := by
  rcases parseIPRange_cases h with ⟨n, _, hw, hb⟩ | ⟨_, a, b, ha, _, rfl, _⟩
  · cases hb with
    | hosts _ _ hs _ _ _ => exact normalizeIP_of_v4 hs
    | whole hn _ => exact hn
    | mapped _ h4 => exact normalizeIP_of_v4 (to4_length h4)
  · exact normalizeIP_idem ha

/-- **The addresses of a range are an interval.** -/
theorem ipAllocatable_iff {ip r : String} : ipAllocatable ip r = true ↔
    ∃ t s e, parseIP (trimSpace ip) = some t ∧ parseIPRange r = .ok (s, e) ∧
      s ≤ normalizeIP t ∧ normalizeIP t ≤ e := by
  unfold ipAllocatable
  cases ht : parseIP (trimSpace ip) with
  | none => simp
  | some t =>
      cases hr : parseIPRange r with
      | error e => simp
      | ok b =>
          obtain ⟨s, e⟩ := b
          simp only [decide_eq_true_eq, bytesCompare_ne_lt, bytesCompare_ne_gt]
          constructor
          · intro h
            exact ⟨t, s, e, rfl, rfl, h⟩
          · intro h
            obtain ⟨t', s', e', ht', he', h⟩ := h
            cases ht'
            cases he'
            exact h

/-! ## 2. Normalising the last address -/

/-- The last address of a block that is not in the mapped notation is IPv4-mapped only if its
    last four bytes are all ones. -/
theorem IPNet.WellFormed.last_mapped {n : IPNet} (hw : n.WellFormed)
    (hn : normalizeIP n.ip = n.ip) {v4 : IP} (h16 : n.last.length = 16)
    (h4 : to4 n.last = some v4) : v4 = [255, 255, 255, 255] := by
  have hll := hw.length_last
  have hval := hw.value_last
  have h4l := to4_length h4
  have hlt := value_lt v4
  rw [h4l] at hlt
  rw [eq_of_to4 h16 h4, value_mapped v4 h4l] at hval
  have hd : n.size ∣ 65535 * 2 ^ 32 + value v4 + 1 := by
    rw [hval]
    exact Dvd.dvd.add hw.aligned (Nat.dvd_refl _)
  by_cases hk : n.bits - n.ones ≤ 32
  · -- the base would share its first twelve bytes with the last address
    exfalso
    have hsz : n.size ≤ 2 ^ 32 := Nat.pow_le_pow_right (by decide) hk
    have h32 : n.size ∣ 65535 * 2 ^ 32 := Dvd.dvd.mul_left (Nat.pow_dvd_pow 2 hk) _
    have hd4 : n.size ∣ value v4 + 1 := (Nat.dvd_add_right h32).mp (by rwa [← Nat.add_assoc])
    have hge : n.size ≤ value v4 + 1 := Nat.le_of_dvd (Nat.succ_pos _) hd4
    have hpos := n.size_pos
    have hsplit := value_append (n.ip.take 12) (n.ip.drop 12)
    have hlo := value_lt (n.ip.drop 12)
    have hdl : (n.ip.drop 12).length = 4 := by simp; omega
    have htl : (n.ip.take 12).length = 12 := by simp; omega
    rw [List.take_append_drop, hdl] at hsplit
    rw [hdl] at hlo
    have htake : n.ip.take 12 = v4InV6Prefix := by
      refine value_inj htl ?_
      have hp : value v4InV6Prefix = 65535 := by decide
      rw [hp]
      omega
    have hm : to4 n.ip = some (n.ip.drop 12) := by
      unfold to4
      rw [if_neg (by omega), if_pos ⟨by omega, htake⟩]
    rw [normalizeIP_of_to4 hm] at hn
    have hlen := congrArg List.length hn
    omega
  · have h33 : 2 ^ 33 ∣ n.size := Nat.pow_dvd_pow 2 (by omega)
    have hd33 := h33.trans hd
    refine value_inj h4l ?_
    have hp : value [255, 255, 255, 255] = 2 ^ 32 - 1 := by decide
    rw [hp]
    omega

/-- **Normalising the last address of a range never lowers it.** -/
theorem stop_le_normalizeIP {r : String} {s e : IP} (h : parseIPRange r = .ok (s, e)) :
    e ≤ normalizeIP e := by
  have hof : normalizeIP e = e → e ≤ normalizeIP e := fun hn => by rw [hn]; exact List.le_refl e
  rcases parseIPRange_cases h with ⟨n, _, hw, hb⟩ | ⟨_, a, b, _, hb, _, rfl⟩
  · cases hb with
    | hosts _ _ _ he _ _ => exact hof (normalizeIP_of_v4 he)
    | mapped _ h4 => exact hof (normalizeIP_of_v4 (to4_length h4))
    | whole hn _ =>
        have hll := hw.length_last
        rcases hw.addr with hl | hl
        · exact hof (normalizeIP_of_v4 (hll.trans hl))
        · have haddr : IsAddr n.last := Or.inr (hll.trans hl)
          rcases haddr.shortens_or with ⟨v4, h4⟩ | ⟨_, _, hkept⟩
          · have hv := hw.last_mapped hn (hll.trans hl) h4
            rw [normalizeIP_of_to4 h4, hv, eq_of_to4 (hll.trans hl) h4]
            refine List.not_lt.mp fun hlt => ?_
            rw [v4InV6Prefix, List.cons_append, List.cons_lt_cons_iff] at hlt
            rcases hlt with hlt | ⟨heq, _⟩
            · exact absurd hlt (by decide)
            · exact absurd heq (by decide)
          · exact hof hkept
  · exact hof (normalizeIP_idem hb)

/-- An address whose length normalising keeps is normalised. -/
theorem normalizeIP_of_length {ip : IP} (h : IsAddr ip)
    (hl : (normalizeIP ip).length = ip.length) : normalizeIP ip = ip := by
  rcases h.shortens_or with ⟨v4, h4⟩ | ⟨_, _, hn⟩
  · rw [normalizeIP_of_to4 h4, to4_length h4] at hl
    exact normalizeIP_of_v4 hl.symm
  · exact hn

/-! ## 3. Renderings -/

theorem hexDigit_noSpace (d : Nat) : isSpace (hexDigit d) = false := by
  have h := @hexDigit_all (fun c => !isSpace c) (by decide) d
  simpa using h

theorem decimal_noSpace (x : Nat) : ∀ c ∈ decimal x, isSpace c = false := by
  intro c hc
  obtain ⟨d, rfl⟩ := mem_decimal hc
  exact hexDigit_noSpace d

theorem hexText_noSpace (x : Nat) : ∀ c ∈ hexText x, isSpace c = false := by
  intro c hc
  obtain ⟨d, rfl⟩ := mem_hexText hc
  exact hexDigit_noSpace d

theorem joinHex_noSpace : ∀ gs : List Nat, ∀ c ∈ joinHex gs, isSpace c = false
  | [] => fun _ h => absurd h List.not_mem_nil
  | [x] => hexText_noSpace x
  | x :: y :: ys => by
      intro c hc
      rw [joinHex_cons_cons, List.mem_append, List.mem_cons] at hc
      rcases hc with hc | rfl | hc
      · exact hexText_noSpace x c hc
      · decide
      · exact joinHex_noSpace (y :: ys) c hc

theorem string4_noSpace {v4 : IP} (h : v4.length = 4) : ∀ c ∈ string4 v4, isSpace c = false := by
  obtain ⟨a, b, c, d, rfl⟩ := List.length_eq_four.mp h
  intro x hx
  rw [string4_eq] at hx
  simp only [List.mem_append, List.mem_cons] at hx
  rcases hx with hx | rfl | hx | rfl | hx | rfl | hx <;>
    first | exact decimal_noSpace _ _ hx | decide

theorem string6_noSpace (ip : IP) : ∀ c ∈ string6 ip, isSpace c = false := by
  intro c hc
  unfold string6 at hc
  split at hc
  · exact joinHex_noSpace _ c hc
  · rw [List.mem_append, List.mem_cons, List.mem_cons] at hc
    rcases hc with hc | rfl | rfl | hc
    · exact joinHex_noSpace _ c hc
    · decide
    · decide
    · exact joinHex_noSpace _ c hc

theorem trimSpace_of_noSpace {l : List Char} (h : ∀ c ∈ l, isSpace c = false) :
    trimSpace (String.ofList l) = String.ofList l := by
  have hd : ∀ l : List Char, (∀ c ∈ l, isSpace c = false) → l.dropWhile isSpace = l := by
    intro l hl
    cases l with
    | nil => rfl
    | cons c cs => exact List.dropWhile_cons_of_neg (by simp [hl c List.mem_cons_self])
  unfold trimSpace
  rw [String.toList_ofList, hd l h, hd l.reverse fun c hc => h c (List.mem_reverse.mp hc),
    List.reverse_reverse]

/-- A text is cut at its first slash. -/
theorem cut_slash {l : List Char} (h : ∀ c ∈ l, c ≠ '/') (m : List Char) :
    (l ++ '/' :: m).takeWhile (· ≠ '/') = l ∧ (l ++ '/' :: m).dropWhile (· ≠ '/') = '/' :: m := by
  have hp : ∀ c ∈ l, decide (c ≠ '/') = true := fun c hc => decide_eq_true (h c hc)
  rw [List.takeWhile_append_of_pos hp, List.dropWhile_append_of_pos hp]
  simp

/-- **A rendering has no space to trim.** -/
theorem trimSpace_ipString {ip : IP} (h : IsAddr ip) : trimSpace (ipString ip) = ipString ip := by
  have hne : ip ≠ [] := by
    rintro rfl
    rcases h with h | h <;> cases h
  unfold ipString
  rw [if_neg hne, if_neg (by unfold IsAddr at h; omega)]
  cases h4 : to4 ip with
  | some v4 => exact trimSpace_of_noSpace (string4_noSpace (to4_length h4))
  | none => exact trimSpace_of_noSpace (string6_noSpace ip)

/-- A normalised address, rendered, is read as itself. -/
theorem parseIP_trimSpace_ipString {x : IP} (h : IsAddr x) :
    ∃ t, parseIP (trimSpace (ipString x)) = some t ∧ normalizeIP t = normalizeIP x := by
  refine ⟨to16 x, ?_, normalizeIP_to16 h⟩
  rw [trimSpace_ipString h, parseIP_ipString h]

/-! ## 4. Common addresses -/

/-- Each of the two ranges starts before the other one ends. -/
def rangesMeet (r r' : String) : Bool :=
  match parseIPRange r, parseIPRange r' with
  | .ok (s, e), .ok (s', e') => bytesCompare s e' ≠ .gt ∧ bytesCompare s' e ≠ .gt
  | _, _ => false

theorem rangesMeet_iff {r r' : String} : rangesMeet r r' = true ↔
    ∃ s e s' e', parseIPRange r = .ok (s, e) ∧ parseIPRange r' = .ok (s', e') ∧
      s ≤ e' ∧ s' ≤ e := by
  unfold rangesMeet
  cases hr : parseIPRange r with
  | error x => simp
  | ok b =>
      obtain ⟨s, e⟩ := b
      cases hr' : parseIPRange r' with
      | error x => simp
      | ok b' =>
          obtain ⟨s', e'⟩ := b'
          simp only [decide_eq_true_eq, bytesCompare_ne_gt]
          constructor
          · intro h
            exact ⟨s, e, s', e', rfl, rfl, h⟩
          · intro h
            obtain ⟨_, _, _, _, h1, h2, h⟩ := h
            cases h1
            cases h2
            exact h

theorem rangesMeet_comm (r r' : String) : rangesMeet r r' = rangesMeet r' r := by
  rw [Bool.eq_iff_iff, rangesMeet_iff, rangesMeet_iff]
  constructor <;>
  · intro h
    obtain ⟨s, e, s', e', h1, h2, h3, h4⟩ := h
    exact ⟨s', e', s, e, h2, h1, h4, h3⟩

/-- Ranges that do not meet share no address. -/
theorem not_allocatable_both {r r' ip : String} (h : rangesMeet r r' = false)
    (ha : ipAllocatable ip r = true) : ipAllocatable ip r' = false := by
  by_contra hb
  rw [Bool.not_eq_false] at hb
  obtain ⟨t, s, e, ht, hr, h1, h2⟩ := ipAllocatable_iff.mp ha
  obtain ⟨t', s', e', ht', hr', h1', h2'⟩ := ipAllocatable_iff.mp hb
  obtain rfl : t = t' := Option.some.inj (ht.symm.trans ht')
  have hm := rangesMeet_iff.mpr
    ⟨s, e, s', e', hr, hr', List.le_trans h1 h2', List.le_trans h1' h2⟩
  rw [hm] at h
  cases h

/-- The range parses, and its first address is not behind its last one. -/
def ordered (r : String) : Bool :=
  match parseIPRange r with
  | .ok (s, e) => bytesCompare s e ≠ .gt
  | .error _ => false

theorem ordered_iff {r : String} : ordered r = true ↔
    ∃ s e, parseIPRange r = .ok (s, e) ∧ s ≤ e := by
  unfold ordered
  cases hr : parseIPRange r with
  | error x => simp
  | ok b =>
      obtain ⟨s, e⟩ := b
      simp only [decide_eq_true_eq, bytesCompare_ne_gt]
      constructor
      · intro h
        exact ⟨s, e, rfl, h⟩
      · intro h
        obtain ⟨_, _, h1, h⟩ := h
        cases h1
        exact h

/-- The first address of an ordered range, rendered, is allocatable from it and from every range
    around it. -/
theorem ipAllocatable_start {r r' : String} {s e s' e' : IP} (hr : parseIPRange r = .ok (s, e))
    (hr' : parseIPRange r' = .ok (s', e')) (h1 : s' ≤ s) (h2 : s ≤ e') :
    ipAllocatable (ipString s) r' = true := by
  obtain ⟨t, ht, hn⟩ := parseIP_trimSpace_ipString (parseIPRange_start_length hr)
  rw [parseIPRange_start_normal hr] at hn
  exact ipAllocatable_iff.mpr ⟨t, s', e', ht, hr', by rwa [hn], by rwa [hn]⟩

/-- **Two ordered ranges share an address exactly if they meet.** -/
theorem exists_allocatable_both_iff {r r' : String} (ho : ordered r = true)
    (ho' : ordered r' = true) :
    (∃ ip, ipAllocatable ip r = true ∧ ipAllocatable ip r' = true) ↔ rangesMeet r r' = true := by
  constructor
  · intro h
    obtain ⟨ip, ha, hb⟩ := h
    by_contra hm
    rw [not_allocatable_both (by simpa using hm) ha] at hb
    cases hb
  · intro h
    obtain ⟨s, e, s', e', hr, hr', h1, h2⟩ := rangesMeet_iff.mp h
    obtain ⟨_, _, hro, hse⟩ := ordered_iff.mp ho
    obtain ⟨_, _, hro', hse'⟩ := ordered_iff.mp ho'
    rw [hr] at hro
    rw [hr'] at hro'
    cases hro
    cases hro'
    rcases List.le_total s s' with hle | hle
    · exact ⟨ipString s', ipAllocatable_start hr' hr hle h2,
        ipAllocatable_start hr' hr' (List.le_refl s') hse'⟩
    · exact ⟨ipString s, ipAllocatable_start hr hr (List.le_refl s) hse,
        ipAllocatable_start hr hr' hle h1⟩

/-! ## 5. The addresses between the ends -/

/-- **The addresses of a range, as slices**: of the length of its ends and between them. -/
def Between (ipRange : String) (x : IP) : Prop :=
  ∃ s e, parseIPRange ipRange = .ok (s, e) ∧ x.length = s.length ∧ s ≤ x ∧ x ≤ e

theorem between_iff {r : String} {s e x : IP} (hr : parseIPRange r = .ok (s, e)) :
    Between r x ↔ x.length = s.length ∧ s ≤ x ∧ x ≤ e := by
  unfold Between
  rw [hr]
  constructor
  · intro h
    obtain ⟨_, _, hr', h⟩ := h
    cases hr'
    exact h
  · exact fun h => ⟨s, e, rfl, h⟩

theorem Between.nonempty {r : String} {x : IP} (h : Between r x) : r ≠ "" := by
  obtain ⟨_, _, hr, _⟩ := h
  exact ne_empty_of_parse hr

/-- Two intervals of one length share an address if each starts before the other ends. -/
theorem exists_between_both {r r' : String} {s e s' e' : IP} (hr : parseIPRange r = .ok (s, e))
    (hr' : parseIPRange r' = .ok (s', e')) (hl : s.length = s'.length) (ho : s ≤ e)
    (ho' : s' ≤ e') : (∃ x, Between r x ∧ Between r' x) ↔ s ≤ e' ∧ s' ≤ e := by
  simp only [between_iff hr, between_iff hr']
  constructor
  · intro h
    obtain ⟨x, ⟨_, h1, h2⟩, _, h1', h2'⟩ := h
    exact ⟨List.le_trans h1 h2', List.le_trans h1' h2⟩
  · intro h
    rcases List.le_total s s' with hle | hle
    · exact ⟨s', ⟨hl.symm, hle, h.2⟩, rfl, List.le_refl s', ho'⟩
    · exact ⟨s, ⟨rfl, List.le_refl s, ho⟩, hl, hle, h.1⟩

end HeliosLB
