/-
  File:      HeliosLB/Admission/Mapped.lean
  Subject:   A BLOCK IN THE IPv4-MAPPED NOTATION, `::ffff:a.b.c.d/n`.

  `net.ParseCIDR` gives it a base and a mask of 16 bytes. `IPNet.Contains` shortens both to their
  last four bytes. `ParseIPRange` shortens the base only, and its loop puts the FIRST four bytes of
  the mask, which are all ones, under it: the end of the range is its start, whatever `n` is.

  * `mappedCIDR`, `parseAddr_mapped`, `parseCIDR_mapped` -- the text and what it is read as;
  * `parseIPRange_mapped` -- the range `ParseIPRange` makes of it is its base alone;
  * `ipAllocatable_mapped`, `ipInRange_mapped` -- the answers of the two paths for an IPv4 address;
  * **`mapped_block_iff`** -- so they denote one block exactly if it has one address.
-/
import HeliosLB.Admission.Webhook

namespace HeliosLB

open Lib Lib.BigEndian

/-! ## 1. The text -/

/-- `::ffff:a.b.c.d`. -/
def mappedText (a b c d : UInt8) : List Char := "::ffff:".toList ++ string4 [a, b, c, d]

/-- `::ffff:a.b.c.d/n`. -/
def mappedCIDR (a b c d : UInt8) (n : Nat) : String :=
  String.ofList (mappedText a b c d ++ '/' :: decimal n)

/-- Decimal digits are hex digits: an octet is read as a group, up to the dot. -/
theorem hexGroup_decimal {x : Nat} (hx : x < 256) (cs : List Char) :
    ∃ off acc, off ≠ 0 ∧ hexGroup (decimal x ++ '.' :: cs) 0 0 = some (off, acc, '.' :: cs) := by
  have hdot : ∀ off acc, hexGroup ('.' :: cs) off acc = some (off, acc, '.' :: cs) := by
    intro off acc
    have hv : hexValue '.' = none := by decide
    rw [hexGroup, hv]
  obtain ⟨ds, e, hne, hl, hval⟩ := decimal_digits x
  obtain ⟨hd, _⟩ := hval (by omega)
  have hpos : ds.length ≠ 0 := fun h => hne (List.length_eq_zero_iff.mp h)
  have hd16 : ∀ d ∈ ds, d < 16 := fun d h => Nat.lt_of_lt_of_le (hd d h) (by decide)
  rw [e, hexGroup_digits _ ds 0 0 hd16 (by omega) (by decide), hdot, Nat.zero_add]
  exact ⟨_, _, hpos, rfl⟩

/-- The dotted tail behind an ellipsis. -/
theorem parseIPv6Loop_dotted (a b c d : UInt8) (n : Nat) {ip : IP} (hip : ip.length + 4 ≤ 16)
    (e : Nat) : parseIPv6Loop (n + 1) (string4 [a, b, c, d]) ip (some e) =
      some (ip ++ [a, b, c, d], some e, []) := by
  have hv4 := parseIPv4Fields_string4 a b c d
  obtain ⟨off, acc, hoff, hg⟩ := hexGroup_decimal a.toNat_lt
    (decimal b.toNat ++ '.' :: (decimal c.toNat ++ '.' :: decimal d.toNat))
  rw [← string4_eq] at hg
  rw [parseIPv6Loop, hg, hv4]
  simp only [if_neg hoff, reduceCtorEq, false_and, if_false]
  rw [if_neg (by omega)]
  rfl

/-- A dotted text starts with a digit. -/
theorem string4_head (a b c d : UInt8) : ∃ x r, x ≠ ':' ∧ string4 [a, b, c, d] = x :: r := by
  obtain ⟨x, r, hr⟩ := List.exists_cons_of_ne_nil (decimal_ne_nil a.toNat)
  have hx := decimal_plain a.toNat x (by rw [hr]; exact List.mem_cons_self)
  rw [string4_eq, hr]
  exact ⟨x, _, hx.2.1, rfl⟩

theorem mem_string4 {a b c d : UInt8} {x : Char} (h : x ∈ string4 [a, b, c, d]) :
    x = '.' ∨ ∃ k, x = hexDigit k := by
  rw [string4_eq] at h
  simp only [List.mem_append, List.mem_cons] at h
  rcases h with h | h | h | h | h | h | h
  · exact .inr (mem_decimal h)
  · exact .inl h
  · exact .inr (mem_decimal h)
  · exact .inl h
  · exact .inr (mem_decimal h)
  · exact .inl h
  · exact .inr (mem_decimal h)

/-- What holds of the digits and marks of a mapped text holds of all of it. -/
theorem mappedText_all {p : Char → Bool} (hp : "0123456789abcdef".toList.all p = true)
    (hc : p ':' = true) (hd : p '.' = true) (a b c d : UInt8) :
    ∀ x ∈ mappedText a b c d, p x = true := by
  have hf : p 'f' = true := hexDigit_all hp 15
  intro x hx
  rcases List.mem_append.mp hx with hx | hx
  · have hm : x = ':' ∨ x = 'f' ∨ x = ':' := by simpa using hx
    rcases hm with rfl | rfl | rfl
    · exact hc
    · exact hf
    · exact hc
  · rcases mem_string4 hx with rfl | ⟨k, rfl⟩
    · exact hd
    · exact hexDigit_all hp k

/-- **The mapped text is read as the 16-byte form of the dotted address.** -/
theorem parseAddr_mapped (a b c d : UInt8) :
    parseAddr (mappedText a b c d) = some (.v6 (v4InV6Prefix ++ [a, b, c, d])) := by
  have hzone : '%' ∉ mappedText a b c d := by
    intro h
    have hp := @mappedText_all (fun x => x ≠ '%') (by decide) rfl rfl a b c d '%' h
    simp at hp
  have htext : parseIPv6Text (mappedText a b c d) = some (v4InV6Prefix ++ [a, b, c, d]) := by
    obtain ⟨x, r, hx, hr⟩ := string4_head a b c d
    have hffff : hexText 0xffff = ['f', 'f', 'f', 'f'] := by decide
    have hloop := parseIPv6Loop_colon (by decide : 0xffff < 65536) 7 [] (some 0) hx r
    rw [← hr, parseIPv6Loop_dotted a b c d 6 (by decide), hffff] at hloop
    have hend := expandEllipsis_short [] (groupBytes 0xffff ++ [a, b, c, d]) (by simp [groupBytes])
    show parseIPv6Text (':' :: ':' :: 'f' :: _) = _
    rw [parseIPv6Text_ellipsis]
    exact (congrArg (Option.bind · expandEllipsis) hloop).trans hend
  have hfind : (mappedText a b c d).find? (fun c => c = '.' ∨ c = ':' ∨ c = '%') = some ':' := rfl
  unfold parseAddr parseIPv6
  rw [hfind, if_neg hzone, htext]
  rfl

theorem dtoi_digits : ∀ (ds : List Nat) (n : Nat), (∀ d ∈ ds, d < 10) →
    readDigits 10 n ds < 0xFFFFFF → dtoi (ds.map hexDigit) n = some (readDigits 10 n ds)
  | [], _, _, _ => rfl
  | d :: ds, n, hd, hn => by
      obtain ⟨hd, hds⟩ := List.forall_mem_cons.mp hd
      obtain ⟨h0, h9, hv⟩ := hexDigit_decimal d hd
      rw [readDigits] at hn
      have hle := le_readDigits (by decide : 0 < 10) (n * 10 + d) ds
      rw [List.map_cons, dtoi, if_pos ⟨h0, h9⟩, hv, if_neg (by omega), dtoi_digits ds _ hds hn,
        readDigits]

theorem dtoi_decimal {n : Nat} (h : n < 1000) : dtoi (decimal n) 0 = some n := by
  obtain ⟨ds, e, _, _, hval⟩ := decimal_digits n
  obtain ⟨hd, hn⟩ := hval h
  rw [e, dtoi_digits ds 0 hd (by omega), hn]

/-- Neither a space nor a second slash stands in the text. -/
theorem mappedCIDR_plain (a b c d : UInt8) (n : Nat) :
    trimSpace (mappedCIDR a b c d n) = mappedCIDR a b c d n ∧
      ∀ x ∈ mappedText a b c d, x ≠ '/' := by
  have hspace : ∀ x ∈ mappedText a b c d ++ '/' :: decimal n, isSpace x = false := by
    intro x hx
    rcases List.mem_append.mp hx with hx | hx
    · have hp := @mappedText_all (fun x => !isSpace x) (by decide) rfl rfl a b c d x hx
      simpa using hp
    · rcases List.mem_cons.mp hx with rfl | hx
      · decide
      · exact decimal_noSpace n x hx
  have hslash : ∀ x ∈ mappedText a b c d, x ≠ '/' := by
    intro x hx
    have hp := @mappedText_all (fun x => x ≠ '/') (by decide) rfl rfl a b c d x hx
    exact of_decide_eq_true hp
  exact ⟨trimSpace_of_noSpace hspace, hslash⟩

/-! ## 2. The block -/

/-- The first of its addresses, in 4 bytes. -/
def mappedBase (a b c d : UInt8) (n : Nat) : IP :=
  List.zipWith (· &&& ·) [a, b, c, d] (prefixMask (n - 96) 4)

/-- The block as `net.ParseCIDR` returns it: 16 bytes of base, 128 bits of mask. -/
def mappedNet (a b c d : UInt8) (n : Nat) : IPNet :=
  ⟨v4InV6Prefix ++ mappedBase a b c d n, prefixMask n 16, n, 128⟩

@[simp] theorem length_mappedBase (a b c d : UInt8) (n : Nat) :
    (mappedBase a b c d n).length = 4 := by
  simp [mappedBase]

theorem normalizeIP_mappedNet (a b c d : UInt8) (n : Nat) :
    normalizeIP (mappedNet a b c d n).ip = mappedBase a b c d n :=
  normalizeIP_of_to4 (to4_mapped (length_mappedBase a b c d n))

/-- The mask leaves the twelve bytes before the dotted ones as they are. -/
theorem and_prefixMask_mapped (a b c d : UInt8) {n : Nat} (h96 : 96 ≤ n) :
    List.zipWith (· &&& ·) (v4InV6Prefix ++ [a, b, c, d]) (prefixMask n 16) =
      v4InV6Prefix ++ mappedBase a b c d n := by
  rw [prefixMask_add 4 12, List.zipWith_append (by rw [length_prefixMask]; rfl),
    prefixMask_of_le (by omega)]
  exact congrArg (· ++ mappedBase a b c d n) (by decide)

section Block

variable (a b c d : UInt8) {n : Nat} (h96 : 96 ≤ n) (h128 : n ≤ 128)

include h96 h128

theorem parseCIDR_mapped :
    parseCIDR (trimSpace (mappedCIDR a b c d n)) = some (mappedNet a b c d n) := by
  obtain ⟨htrim, hslash⟩ := mappedCIDR_plain a b c d n
  obtain ⟨htake, hdrop⟩ := cut_slash hslash (decimal n)
  have hbits : ¬ n > (Addr.v6 (v4InV6Prefix ++ [a, b, c, d])).bitLen := Nat.not_lt.mpr h128
  rw [htrim]
  unfold mappedCIDR parseCIDR
  rw [String.toList_ofList, hdrop, htake, parseAddr_mapped]
  simp only [if_neg (decimal_ne_nil n), dtoi_decimal (by omega : n < 1000), if_neg hbits]
  rw [show cidrMask n (Addr.v6 _).bitLen = prefixMask n 16 from cidrMask_eq 16 n, Addr.bytes,
    and_prefixMask_mapped a b c d h96]
  rfl

theorem value_mappedBase :
    value (mappedBase a b c d n) = value [a, b, c, d] / 2 ^ (128 - n) * 2 ^ (128 - n) := by
  have hsize : hostSize (n - 96) [a, b, c, d].length = 2 ^ (128 - n) := by
    unfold hostSize
    congr 1
    simp only [List.length_cons, List.length_nil]
    omega
  rw [← hsize]
  exact value_and_prefixMask [a, b, c, d] (n - 96) (by simp only [List.length_cons]; omega)

/-- **The range `ParseIPRange` makes of it is its base alone.** -/
theorem parseIPRange_mapped : parseIPRange (mappedCIDR a b c d n) =
    .ok (mappedBase a b c d n, mappedBase a b c d n) := by
  have hn := parseCIDR_mapped a b c d h96 h128
  rw [parseIPRange_block hn, cidrBounds, normalizeIP_mappedNet]
  -- 128 bits: neither end is moved inwards
  rw [if_neg (by simp [mappedNet])]
  exact congrArg (fun e => Except.ok (_, e))
    (or_prefixMask_mapped (length_mappedBase a b c d n) h96)

/-- Which 4 bytes are the base: those in the block without a host bit. -/
theorem eq_mappedBase_iff {v : IP} (hv : v.length = 4) : v = mappedBase a b c d n ↔
    value v / 2 ^ (128 - n) = value [a, b, c, d] / 2 ^ (128 - n) ∧
      value v % 2 ^ (128 - n) = 0 := by
  have hbase := value_mappedBase a b c d h96 h128
  have hpos := Nat.two_pow_pos (128 - n)
  generalize 2 ^ (128 - n) = size at hbase hpos ⊢
  refine ⟨fun h => ?_, fun ⟨hq, hr⟩ => ?_⟩
  · rw [h, hbase, Nat.mul_div_cancel _ hpos]
    exact ⟨rfl, Nat.mul_mod_left _ _⟩
  · have hdm := Nat.div_add_mod (value v) size
    rw [hr, hq, Nat.mul_comm, Nat.add_zero, ← hbase] at hdm
    exact value_inj (by rw [hv, length_mappedBase]) hdm.symm

end Block

/-! ## 3. In the block and allocatable from it -/

/-- The text is an IPv4 address, in either notation, of these 4 bytes. -/
def IPv4Text (x : String) (v : IP) : Prop := ∃ t, parseIP (trimSpace x) = some t ∧ to4 t = some v

theorem ipv4Text_ipString {v : IP} (h : v.length = 4) : IPv4Text (ipString v) v := by
  refine ⟨v4InV6Prefix ++ v, ?_, to4_mapped h⟩
  rw [trimSpace_ipString (.inl h), parseIP_ipString (.inl h), to16, if_pos h]

section Paths

variable (a b c d : UInt8) {n : Nat} (h96 : 96 ≤ n) (h128 : n ≤ 128)

include h96 h128

theorem validateIPRange_mapped : validateIPRange (mappedCIDR a b c d n) = .ok () :=
  validateIPRange_iff.mpr ⟨_, _, parseIPRange_mapped a b c d h96 h128, rfl, List.le_refl _⟩

/-- Allocatable from it: the base alone. -/
theorem ipAllocatable_mapped {x : String} {v : IP} (hx : IPv4Text x v) :
    ipAllocatable x (mappedCIDR a b c d n) = true ↔ v = mappedBase a b c d n := by
  have hr := parseIPRange_mapped a b c d h96 h128
  obtain ⟨t, ht, h4⟩ := hx
  have hv := normalizeIP_of_to4 h4
  unfold ipAllocatable
  simp only [ht, hr, hv, decide_eq_true_eq, bytesCompare_ne_lt, bytesCompare_ne_gt]
  exact ⟨fun h => List.le_antisymm h.2 h.1, fun h => h ▸ ⟨List.le_refl _, List.le_refl _⟩⟩

/-- In it: every address with the block's prefix. -/
theorem ipInRange_mapped {x : String} {v : IP} (hx : IPv4Text x v) :
    ipInRange x (mappedCIDR a b c d n) = true ↔
      value v / 2 ^ (128 - n) = value [a, b, c, d] / 2 ^ (128 - n) := by
  have hn := parseCIDR_mapped a b c d h96 h128
  have hbase := value_mappedBase a b c d h96 h128
  have hl := length_mappedBase a b c d n
  have hpos := Nat.two_pow_pos (128 - n)
  obtain ⟨t, ht, h4⟩ := hx
  have hv := normalizeIP_of_to4 h4
  have hsize : (mappedNet a b c d n).size = 2 ^ (128 - n) := rfl
  rw [ipInRange_block ht hn, (parseCIDR_wellFormed hn).contains_iff (isAddr_of_parseIP ht), hv,
    normalizeIP_mappedNet, hsize, to4_length h4, hl, hbase]
  generalize 2 ^ (128 - n) = size at hpos ⊢
  rw [← div_eq_div_iff hpos (Nat.dvd_mul_left _ _), Nat.mul_div_cancel _ hpos]
  exact and_iff_right rfl

/-- **Where the two agree**: outside of the block, and at its base. -/
theorem mapped_agree_iff {x : String} {v : IP} (hx : IPv4Text x v) :
    (ipAllocatable x (mappedCIDR a b c d n) = true ↔ ipInRange x (mappedCIDR a b c d n) = true) ↔
      (value v / 2 ^ (128 - n) = value [a, b, c, d] / 2 ^ (128 - n) →
        value v % 2 ^ (128 - n) = 0) := by
  obtain ⟨_, _, h4⟩ := id hx
  rw [ipAllocatable_mapped a b c d h96 h128 hx, ipInRange_mapped a b c d h96 h128 hx,
    eq_mappedBase_iff a b c d h96 h128 (to4_length h4)]
  exact ⟨fun h hin => (h.mpr hin).2, fun h => ⟨And.left, fun hin => ⟨hin, h hin⟩⟩⟩

/-- A wider block has an address behind its base. -/
theorem exists_behind_base (hlt : n < 128) : ∃ v : IP, v.length = 4 ∧
    value v / 2 ^ (128 - n) = value [a, b, c, d] / 2 ^ (128 - n) ∧ value v % 2 ^ (128 - n) = 1 := by
  have hbase := value_mappedBase a b c d h96 h128
  have hl := length_mappedBase a b c d n
  have hv := value_lt (mappedBase a b c d n)
  have hpos := Nat.two_pow_pos (128 - n)
  -- the block size divides the number of addresses: the base is not the last one
  have hdvd : 2 ^ (128 - n) ∣ 256 ^ 4 := Nat.pow_dvd_pow 2 (by omega : 128 - n ≤ 32)
  have htwo : 2 ≤ 2 ^ (128 - n) := Nat.le_self_pow (by omega) 2
  rw [hl] at hv
  generalize 2 ^ (128 - n) = size at hbase hpos hdvd htwo ⊢
  have hnext : value (mappedBase a b c d n) + size ≤ 256 ^ 4 := by
    obtain ⟨k, hk⟩ := hdvd
    rw [hbase, hk] at hv ⊢
    have hlt : value [a, b, c, d] / size < k := by
      rw [Nat.mul_comm] at hv
      exact Nat.lt_of_mul_lt_mul_left hv
    calc value [a, b, c, d] / size * size + size = size * (value [a, b, c, d] / size + 1) := by ring
      _ ≤ size * k := Nat.mul_le_mul_left size hlt
  have hval : value (incrementIP (mappedBase a b c d n)) = value (mappedBase a b c d n) + 1 :=
    value_incrementIP_of_lt (by rw [hl]; omega)
  refine ⟨incrementIP (mappedBase a b c d n), by rw [incrementIP_length, hl], ?_, ?_⟩
  · rw [hval, hbase, Nat.mul_comm, Nat.mul_add_div hpos, Nat.div_eq_of_lt htwo, Nat.add_zero]
  · rw [hval, hbase, Nat.mul_comm, Nat.mul_add_mod, Nat.mod_eq_of_lt htwo]

theorem singleAddress_mapped : IPAllocator.singleAddress (mappedCIDR a b c d n) = true := by
  unfold IPAllocator.singleAddress
  rw [parseIPRange_mapped a b c d h96 h128]
  simp [ipEqual]

end Paths

/-- **The mapped notation in the two paths.** Every such block is admitted. An IPv4 address is
    allocatable from it exactly if it is in it, unless it is in the block and not its base; so the
    two paths denote one block, and `AllocateIP` tells a range of many addresses from one of one,
    exactly for `/128`. -/
theorem mapped_block_iff (a b c d : UInt8) {n : Nat} (h96 : 96 ≤ n) (h128 : n ≤ 128) :
    validateIPRange (mappedCIDR a b c d n) = .ok () ∧
    (∀ x v, IPv4Text x v →
      ((ipAllocatable x (mappedCIDR a b c d n) = true ↔
          ipInRange x (mappedCIDR a b c d n) = true) ↔
        (value v / 2 ^ (128 - n) = value [a, b, c, d] / 2 ^ (128 - n) →
          value v % 2 ^ (128 - n) = 0))) ∧
    ((∀ x v, IPv4Text x v →
      (ipAllocatable x (mappedCIDR a b c d n) = true ↔
        ipInRange x (mappedCIDR a b c d n) = true)) ↔ n = 128) ∧
    ((n < 128 → IPAllocator.singleAddress (mappedCIDR a b c d n) = false) ↔ n = 128) := by
  have hagree := fun x v (hx : IPv4Text x v) => mapped_agree_iff a b c d h96 h128 hx
  refine ⟨validateIPRange_mapped a b c d h96 h128, hagree, ⟨fun h => ?_, fun h x v hx => ?_⟩,
    fun h => ?_, fun h hlt => absurd h (by omega)⟩
  · by_contra hne
    obtain ⟨v, hl, hin, hone⟩ := exists_behind_base a b c d h96 h128 (by omega)
    have hx := ipv4Text_ipString hl
    have hzero := (hagree _ v hx).mp (h _ v hx) hin
    omega
  · refine (hagree x v hx).mpr fun _ => ?_
    subst h
    exact Nat.mod_one _
  · by_contra hne
    have hs := h (by omega)
    rw [singleAddress_mapped a b c d h96 h128] at hs
    cases hs

/-- At the base of `::ffff:10.0.0.0/120` they agree. -/
theorem mapped_block_base :
    ipAllocatable "10.0.0.0" (mappedCIDR 10 0 0 0 120) = true ↔
      ipInRange "10.0.0.0" (mappedCIDR 10 0 0 0 120) = true :=
  ((mapped_block_iff 10 0 0 0 (by decide) (by decide)).2.1 "10.0.0.0" [10, 0, 0, 0]
    ⟨v4InV6Prefix ++ [10, 0, 0, 0], by decide, by decide⟩).mpr fun _ => by decide

/-- **`10.0.0.5` is in that block and cannot be allocated from it**: the block is
    admitted, treated as a single address, and two draws in a row get one address. -/
theorem mapped_block_one_address :
    mappedCIDR 10 0 0 0 120 = "::ffff:10.0.0.0/120" ∧
    validateIPRange "::ffff:10.0.0.0/120" = .ok () ∧
    ipInRange "10.0.0.5" "::ffff:10.0.0.0/120" = true ∧
    ipAllocatable "10.0.0.5" "::ffff:10.0.0.0/120" = false ∧
    IPAllocator.singleAddress "::ffff:10.0.0.0/120" = true ∧
    (newIPAllocator.allocateIP "::ffff:10.0.0.0/120").1 = .ok "10.0.0.0" ∧
    ((newIPAllocator.allocateIP "::ffff:10.0.0.0/120").2.allocateIP "::ffff:10.0.0.0/120").1 =
      .ok "10.0.0.0" := by
  decide +kernel

end HeliosLB
