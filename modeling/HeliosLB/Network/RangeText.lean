/-
  File:      HeliosLB/Network/RangeText.lean
  Subject:   WHAT A RANGE TEXT CAN LOOK LIKE, and which ranges can be written as two addresses.

  * `addrChar` -- the characters of an address; `parseIP_chars` -- `ParseIP` accepts no other;
  * `RangeShape`, **`parseIPRange_shape`** -- the accepted range texts are those of three shapes,
    told apart by their slash and their hyphen;
  * `rangeText` -- first and last address with a hyphen;
  * **`range_round_trip`** -- an accepted text may be replaced by that of the addresses it was read
    as, unless the last of them is an IPv4-mapped one: no allocation can tell the difference.
-/
import HeliosLB.Network.Ranges

namespace HeliosLB

/-! ## 1. The characters of an address -/

/-- A hex digit, a dot or a colon. -/
def addrChar (c : Char) : Bool := (hexValue c).isSome || c == '.' || c == ':'

theorem addrChar_digit {c : Char} (h : '0' ≤ c ∧ c ≤ '9') : addrChar c = true := by
  simp [addrChar, hexValue, h]

theorem parseIPv4Fields_chars : ∀ (s : List Char) (val digLen : Nat) (fields : IP) {ip : IP},
    parseIPv4Fields s val digLen fields = some ip → ∀ c ∈ s, addrChar c = true
  | [], _, _, _, _, _ => fun c hc => absurd hc List.not_mem_nil
  | c :: cs, val, digLen, fields, ip, h => by
      rw [parseIPv4Fields] at h
      have hhead : addrChar c = true ∧ ∃ val' digLen' fields',
          parseIPv4Fields cs val' digLen' fields' = some ip := by
        split at h
        · rename_i hd
          split at h
          · cases h
          · split at h
            · cases h
            · exact ⟨addrChar_digit hd, _, _, _, h⟩
        · split at h
          · rename_i hdot
            split at h
            · cases h
            · split at h
              · cases h
              · exact ⟨by simp [addrChar, hdot], _, _, _, h⟩
          · cases h
      obtain ⟨hc, _, _, _, hrest⟩ := hhead
      exact List.forall_mem_cons.mpr ⟨hc, parseIPv4Fields_chars cs _ _ _ hrest⟩

/-- A hex group is cut off the front. -/
theorem hexGroup_chars : ∀ (s : List Char) (off acc : Nat) {off' acc' : Nat} {rest : List Char},
    hexGroup s off acc = some (off', acc', rest) →
    ∀ c ∈ s, addrChar c = true ∨ c ∈ rest
  | [], _, _, _, _, _, _ => fun c hc => absurd hc List.not_mem_nil
  | c :: cs, off, acc, off', acc', rest, h => by
      rw [hexGroup] at h
      cases hv : hexValue c with
      | none =>
          rw [hv] at h
          cases h
          exact fun c hc => .inr hc
      | some d =>
          rw [hv] at h
          simp only at h
          split at h
          · cases h
          · split at h
            · cases h
            · refine List.forall_mem_cons.mpr ⟨.inl ?_, hexGroup_chars cs _ _ h⟩
              simp [addrChar, hv]

theorem parseIPv6Loop_chars : ∀ (n : Nat) (s : List Char) (ip : IP) (ell : Option Nat)
    {ip' : IP} {ell' : Option Nat} {rest : List Char},
    parseIPv6Loop n s ip ell = some (ip', ell', rest) → ∀ c ∈ s, addrChar c = true ∨ c ∈ rest
  | 0, s, ip, ell, ip', ell', rest, h => by
      rw [parseIPv6Loop] at h
      cases h
      exact fun c hc => .inr hc
  | n + 1, s, ip, ell, ip', ell', rest, h => by
      have hcolon : addrChar ':' = true := by decide
      rw [parseIPv6Loop] at h
      split at h
      · cases h
      · rename_i off acc left hg
        have hs := hexGroup_chars s 0 0 hg
        -- what is behind the group decides; the text behind that is read by the next round
        have hleft : ∀ {t : List Char}, (∀ c ∈ t, addrChar c = true ∨ c ∈ rest) →
            (∀ c ∈ left, addrChar c = true ∨ c ∈ t) → ∀ c ∈ s, addrChar c = true ∨ c ∈ rest := by
          intro t ht hl c hc
          rcases hs c hc with h | h
          · exact .inl h
          · rcases hl c h with h | h
            · exact .inl h
            · exact ht c h
        split at h
        · cases h
        · split at h
          · split at h
            · cases h
            · split at h
              · cases h
              · obtain ⟨v4, hv4, -⟩ := Option.map_eq_some_iff.mp h
                exact fun c hc => .inl (parseIPv4Fields_chars s 0 0 [] hv4 c hc)
          · cases h
            exact hleft (t := []) (fun c hc => absurd hc List.not_mem_nil)
              fun c hc => absurd hc List.not_mem_nil
          · cases h
          · split at h
            · cases h
            · split at h
              · rename_i hnil
                cases h
                subst hnil
                refine hleft (t := []) (fun c hc => absurd hc List.not_mem_nil) fun c hc => .inl ?_
                simp only [List.mem_cons, List.not_mem_nil, or_false, or_self] at hc
                exact hc ▸ hcolon
              · rename_i rest' _ _
                refine hleft (parseIPv6Loop_chars n rest' _ _ h) fun c hc => ?_
                simp only [List.mem_cons] at hc
                rcases hc with rfl | rfl | hc
                · exact .inl hcolon
                · exact .inl hcolon
                · exact .inr hc
          · rename_i rest' _ _
            refine hleft (parseIPv6Loop_chars n rest' _ _ h) fun c hc => ?_
            rcases List.mem_cons.mp hc with rfl | hc
            · exact .inl hcolon
            · exact .inr hc
          · cases h

theorem expandEllipsis_rest {ip ip' : IP} {ell : Option Nat} {s : List Char}
    (h : expandEllipsis (ip, ell, s) = some ip') : s = [] := by
  by_contra hs
  simp [expandEllipsis, hs] at h

theorem parseIPv6Text_chars {s : List Char} {ip : IP} (h : parseIPv6Text s = some ip) :
    ∀ c ∈ s, addrChar c = true := by
  have hcolon : addrChar ':' = true := by decide
  have hloop : ∀ {t : List Char} {ell : Option Nat},
      (parseIPv6Loop 8 t [] ell).bind expandEllipsis = some ip → ∀ c ∈ t, addrChar c = true := by
    intro t ell h c hc
    obtain ⟨⟨b, ell', rest⟩, hr, he⟩ := Option.bind_eq_some_iff.mp h
    obtain rfl := expandEllipsis_rest he
    exact (parseIPv6Loop_chars 8 t [] ell hr c hc).resolve_right List.not_mem_nil
  unfold parseIPv6Text at h
  split at h
  · intro c hc
    simp only [List.mem_cons, List.not_mem_nil, or_false, or_self] at hc
    exact hc ▸ hcolon
  · intro c hc
    simp only [List.mem_cons] at hc
    rcases hc with rfl | rfl | hc
    · exact hcolon
    · exact hcolon
    · exact hloop h c hc
  · exact hloop h

/-- **An accepted address has no other characters.** -/
theorem parseAddr_chars {s : List Char} {a : Addr} (h : parseAddr s = some a) :
    ∀ c ∈ s, addrChar c = true := by
  unfold parseAddr at h
  split at h
  · obtain ⟨b, hb, -⟩ := Option.map_eq_some_iff.mp h
    exact parseIPv4Fields_chars _ 0 0 [] hb
  · obtain ⟨b, hb, -⟩ := Option.map_eq_some_iff.mp h
    unfold parseIPv6 at hb
    split at hb
    · cases hb
    · exact parseIPv6Text_chars hb
  · cases h

theorem parseIP_chars {s : String} {ip : IP} (h : parseIP s = some ip) :
    ∀ c ∈ s.toList, addrChar c = true := by
  obtain ⟨a, ha, -⟩ := Option.map_eq_some_iff.mp h
  exact parseAddr_chars ha

/-! ## 2. The shapes of a range -/

theorem dtoi_chars : ∀ (s : List Char) (n : Nat) {v : Nat}, dtoi s n = some v →
    ∀ c ∈ s, '0' ≤ c ∧ c ≤ '9'
  | [], _, _, _ => fun c hc => absurd hc List.not_mem_nil
  | c :: cs, n, v, h => by
      rw [dtoi] at h
      split at h
      · rename_i hd
        split at h
        · cases h
        · exact List.forall_mem_cons.mpr ⟨hd, dtoi_chars cs _ h⟩
      · cases h

/-- **The three shapes**: an address with a prefix length, in digits and no longer than it; one
    address; two addresses with spaces around them. -/
inductive RangeShape : List Char → Prop where
  | block {base mask : List Char} {a : Addr} {n : Nat} (ha : parseAddr base = some a)
      (hne : mask ≠ []) (hn : dtoi mask 0 = some n) (hle : n ≤ a.bitLen) :
      RangeShape (base ++ '/' :: mask)
  | single {text : List Char} {ip : IP} (h : parseIP (String.ofList text) = some ip) :
      RangeShape text
  | pair {a b : List Char} {start stop : IP}
      (ha : parseIP (trimSpace (String.ofList a)) = some start)
      (hb : parseIP (trimSpace (String.ofList b)) = some stop) : RangeShape (a ++ '-' :: b)

/-- A part of a pair is an address with spaces around it. -/
theorem parseIP_trimSpace_chars {l : List Char} {ip : IP}
    (h : parseIP (trimSpace (String.ofList l)) = some ip) :
    ∀ c ∈ l, addrChar c = true ∨ isSpace c = true := by
  intro c hc
  cases hs : isSpace c with
  | true => exact .inr rfl
  | false =>
      refine .inl (parseIP_chars h c ((mem_trimSpace hs _).mpr ?_))
      rw [String.toList_ofList]
      exact hc

/-- So it has no separator in it. -/
theorem parseIP_trimSpace_not_mem {l : List Char} {ip : IP} {d : Char}
    (h : parseIP (trimSpace (String.ofList l)) = some ip) (hd : addrChar d = false)
    (hs : isSpace d = false) : d ∉ l := by
  intro hm
  rcases parseIP_trimSpace_chars h d hm with h | h
  · rw [hd] at h
    cases h
  · rw [hs] at h
    cases h

theorem not_mem_of_addrChars {l : List Char} {d : Char} (h : ∀ c ∈ l, addrChar c = true)
    (hd : addrChar d = false) : d ∉ l := by
  intro hm
  rw [h d hm] at hd
  cases hd

/-- They are told apart by the one separator there is. -/
theorem RangeShape.separators {t : List Char} (h : RangeShape t) :
    t.count '/' + t.count '-' ≤ 1 := by
  have hslash : addrChar '/' = false := by decide
  have hdash : addrChar '-' = false := by decide
  cases h with
  | block ha hne hn hle =>
      have hb := parseAddr_chars ha
      have hm := fun c hc => addrChar_digit (dtoi_chars _ 0 hn c hc)
      simp [List.count_append, List.count_eq_zero.mpr (not_mem_of_addrChars hb hslash),
        List.count_eq_zero.mpr (not_mem_of_addrChars hb hdash),
        List.count_eq_zero.mpr (not_mem_of_addrChars hm hslash),
        List.count_eq_zero.mpr (not_mem_of_addrChars hm hdash)]
  | single h =>
      have h' := parseIP_chars h
      rw [String.toList_ofList] at h'
      simp [List.count_eq_zero.mpr (not_mem_of_addrChars h' hslash),
        List.count_eq_zero.mpr (not_mem_of_addrChars h' hdash)]
  | pair ha hb =>
      simp [List.count_append,
        List.count_eq_zero.mpr (parseIP_trimSpace_not_mem ha hslash (by decide)),
        List.count_eq_zero.mpr (parseIP_trimSpace_not_mem ha hdash (by decide)),
        List.count_eq_zero.mpr (parseIP_trimSpace_not_mem hb hslash (by decide)),
        List.count_eq_zero.mpr (parseIP_trimSpace_not_mem hb hdash (by decide))]

theorem parseCIDR_shape {s : String} {n : IPNet} (h : parseCIDR s = some n) :
    RangeShape s.toList := by
  have hsplit : s.toList = s.toList.takeWhile (· ≠ '/') ++ s.toList.dropWhile (· ≠ '/') :=
    List.takeWhile_append_dropWhile.symm
  have hhead := List.head?_dropWhile_not (fun c : Char => decide (c ≠ '/')) s.toList
  unfold parseCIDR at h
  split at h
  · cases h
  · rename_i c mask hdrop
    rw [hdrop, List.head?_cons] at hhead
    obtain rfl : c = '/' := by simpa using hhead
    rw [hdrop] at hsplit
    split at h
    · cases h
    · rename_i a ha
      split at h
      · cases h
      · rename_i hne
        split at h
        · cases h
        · rename_i v hv
          split at h
          · cases h
          · rename_i hle
            rw [hsplit]
            exact .block ha hne hv (Nat.le_of_not_lt hle)

theorem shape_of_parseIPRange {r : String} {bounds : IP × IP} (h : parseIPRange r = .ok bounds) :
    RangeShape (trimSpace r).toList := by
  unfold parseIPRange at h
  simp only at h
  split at h
  · split at h
    · cases h
    · rename_i n hn
      exact parseCIDR_shape hn
  · split at h
    · rename_i ip hip
      rw [← String.ofList_toList (s := trimSpace r)] at hip
      exact .single hip
    · split at h
      · rename_i a b hsplit
        have hcat : (trimSpace r).toList = a ++ '-' :: b := by
          have hjoin := @List.intercalate_splitOn _ (trimSpace r).toList _ _ '-'
          rw [hsplit] at hjoin
          simpa using hjoin.symm
        split at h
        · rename_i start stop ha hb
          rw [hcat]
          exact .pair ha hb
        · cases h
      · cases h

/-- Every text of one of the shapes is accepted: the branches before its own let it pass. -/
theorem parseIPRange_of_shape {r : String} (h : RangeShape (trimSpace r).toList) :
    ∃ bounds, parseIPRange r = .ok bounds := by
  unfold parseIPRange
  simp only
  generalize trimSpace r = t at h
  generalize ht : t.toList = text at h
  cases h with
  | @block base mask a n ha hne hn hle =>
      have hbase : ∀ c ∈ base, c ≠ '/' := fun c hc e =>
        not_mem_of_addrChars (parseAddr_chars ha) (by decide) (e ▸ hc)
      obtain ⟨htake, hdrop⟩ := cut_slash hbase mask
      have hcidr : (parseCIDR t).isSome = true := by
        unfold parseCIDR
        rw [ht, hdrop, htake]
        simp [ha, hne, hn, Nat.not_lt.mpr hle]
      obtain ⟨net, hnet⟩ := Option.isSome_iff_exists.mp hcidr
      rw [if_pos (by simp), hnet]
      exact ⟨_, rfl⟩
  | @single _ ip h =>
      rw [← ht, String.ofList_toList] at h
      have hno : '/' ∉ t.toList := not_mem_of_addrChars (parseIP_chars h) (by decide)
      rw [← ht, if_neg hno, h]
      exact ⟨_, rfl⟩
  | @pair a b start stop ha hb =>
      have hno : '/' ∉ a ++ '-' :: b := by
        simp [parseIP_trimSpace_not_mem ha (d := '/') (by decide) (by decide),
          parseIP_trimSpace_not_mem hb (d := '/') (by decide) (by decide)]
      have hwhole : parseIP t = none := by
        rw [Option.eq_none_iff_forall_ne_some]
        intro ip hip
        exact absurd (parseIP_chars hip '-' (by rw [ht]; simp)) (by decide)
      have hsplit : (a ++ '-' :: b).splitOn '-' = [a, b] := by
        rw [List.splitOn_append_cons_self_of_not_mem
            (parseIP_trimSpace_not_mem ha (by decide) (by decide)),
          List.splitOn_eq_singleton (parseIP_trimSpace_not_mem hb (by decide) (by decide))]
      rw [if_neg hno, hwhole]
      simp only [hsplit, ha, hb]
      exact ⟨_, rfl⟩

/-- **The accepted range texts are those of the three shapes**, and these have one separator at
    most. -/
theorem parseIPRange_shape (r : String) :
    ((∃ bounds, parseIPRange r = .ok bounds) ↔ RangeShape (trimSpace r).toList) ∧
      (RangeShape (trimSpace r).toList →
        (trimSpace r).toList.count '/' + (trimSpace r).toList.count '-' ≤ 1) := by
  refine ⟨⟨fun h => ?_, parseIPRange_of_shape⟩, RangeShape.separators⟩
  obtain ⟨bounds, h⟩ := h
  exact shape_of_parseIPRange h

/-- Two addresses, spaces around the hyphen and the whole; and a text of the right characters. -/
theorem parseIPRange_shape_spaced :
    RangeShape (trimSpace " 10.0.0.1 - 10.0.0.3 ").toList ∧
      (trimSpace " 10.0.0.1 - 10.0.0.3 ").toList.count '-' = 1 ∧
      ¬ RangeShape (trimSpace "999.1/99").toList := by
  obtain ⟨hspaced, -⟩ := parseIPRange_shape " 10.0.0.1 - 10.0.0.3 "
  obtain ⟨hwrong, -⟩ := parseIPRange_shape "999.1/99"
  refine ⟨hspaced.mp ⟨([10, 0, 0, 1], [10, 0, 0, 3]), by decide⟩, by decide, fun h => ?_⟩
  obtain ⟨bounds, hb⟩ := hwrong.mpr h
  have herr : parseIPRange "999.1/99" = .error (.cidr "999.1/99") := by decide
  rw [herr] at hb
  cases hb

/-! ## 3. Writing a range -/

/-- The first and the last address of a range as one text. -/
def rangeText (start stop : IP) : String := ipString start ++ "-" ++ ipString stop

theorem ipString_chars {x : IP} (h : IsAddr x) : ∀ c ∈ (ipString x).toList, addrChar c = true :=
  parseIP_chars (parseIP_ipString h)

/-- The characters of an address lie between the dot and `f`. -/
theorem addrChar_bounds {c : Char} (h : addrChar c = true) : 0x2E ≤ c.toNat ∧ c.toNat ≤ 0x66 := by
  unfold addrChar at h
  rw [Bool.or_eq_true, Bool.or_eq_true, beq_iff_eq, beq_iff_eq] at h
  rcases h with (h | rfl) | rfl
  · unfold hexValue at h
    split at h
    · rename_i hd
      have h₁ : 0x30 ≤ c.toNat := hd.1
      have h₂ : c.toNat ≤ 0x39 := hd.2
      omega
    · split at h
      · rename_i hd
        have h₁ : 0x61 ≤ c.toNat := hd.1
        have h₂ : c.toNat ≤ 0x66 := hd.2
        omega
      · split at h
        · rename_i hd
          have h₁ : 0x41 ≤ c.toNat := hd.1
          have h₂ : c.toNat ≤ 0x46 := hd.2
          omega
        · cases h
  · decide
  · decide

theorem addrChar_noSpace {c : Char} (h : addrChar c = true) : isSpace c = false := by
  have hb := addrChar_bounds h
  simp only [isSpace, List.mem_cons, List.not_mem_nil, or_false, Bool.decide_or,
    Bool.or_eq_false_iff, decide_eq_false_iff_not, Bool.and_eq_false_imp, decide_eq_true_eq, not_le]
  omega

/-- **A written range is read back.** -/
theorem parseIPRange_rangeText {s e : IP} (hs : IsAddr s) (he : IsAddr e) :
    parseIPRange (rangeText s e) = .ok (normalizeIP s, normalizeIP e) := by
  have hcs := ipString_chars hs
  have hce := ipString_chars he
  have hlist : (rangeText s e).toList = (ipString s).toList ++ '-' :: (ipString e).toList := by
    simp [rangeText]
  have hnot : ∀ {d : Char}, addrChar d = false →
      d ∉ (ipString s).toList ∧ d ∉ (ipString e).toList :=
    fun hd => ⟨not_mem_of_addrChars hcs hd, not_mem_of_addrChars hce hd⟩
  have htrim : trimSpace (rangeText s e) = rangeText s e := by
    rw [← String.ofList_toList (s := rangeText s e)]
    refine trimSpace_of_noSpace fun c hc => ?_
    rw [hlist] at hc
    rcases List.mem_append.mp hc with hc | hc
    · exact addrChar_noSpace (hcs c hc)
    · rcases List.mem_cons.mp hc with rfl | hc
      · decide
      · exact addrChar_noSpace (hce c hc)
  have hslash : '/' ∉ (rangeText s e).toList := by
    rw [hlist]
    simp [(hnot (d := '/') (by decide)).1, (hnot (d := '/') (by decide)).2]
  have hwhole : parseIP (rangeText s e) = none := by
    rw [Option.eq_none_iff_forall_ne_some]
    intro ip hip
    have := parseIP_chars hip '-' (by rw [hlist]; simp)
    exact absurd this (by decide)
  have hsplit : (rangeText s e).toList.splitOn '-' =
      [(ipString s).toList, (ipString e).toList] := by
    rw [hlist, List.splitOn_append_cons_self_of_not_mem (hnot (by decide)).1,
      List.splitOn_eq_singleton (hnot (by decide)).2]
  obtain ⟨t, ht, hnt⟩ := parseIP_trimSpace_ipString hs
  obtain ⟨u, hu, hnu⟩ := parseIP_trimSpace_ipString he
  unfold parseIPRange
  simp only [htrim, if_neg hslash, hwhole, hsplit, String.ofList_toList, ht, hu, hnt, hnu]

theorem parseIPRange_isAddr {r : String} {s e : IP} (h : parseIPRange r = .ok (s, e)) :
    IsAddr s ∧ IsAddr e := by
  have hs : IsAddr s := parseIPRange_start_length h
  refine ⟨hs, ?_⟩
  rcases parseIPRange_cases h with ⟨n, -, hw, hb⟩ | ⟨-, a, b, -, hb, -, rfl⟩
  · unfold IsAddr at hs ⊢
    rwa [← hb.length_eq hw]
  · exact normalizeIP_length hb

/-- Two texts read as the same addresses allocate alike. -/
theorem allocate_of_parseIPRange {r r' : String} {bounds : IP × IP}
    (h : parseIPRange r = .ok bounds) (h' : parseIPRange r' = .ok bounds) (pool : IPAllocator) :
    ((pool.allocateIP r').1.toOption = (pool.allocateIP r).1.toOption ∧
      (pool.allocateIP r').2 = (pool.allocateIP r).2) ∧
    ∀ q, (pool.allocateSpecificIP r' q).1.toOption = (pool.allocateSpecificIP r q).1.toOption ∧
      (pool.allocateSpecificIP r' q).2 = (pool.allocateSpecificIP r q).2 := by
  have hoffer : pool.offer r' = pool.offer r := by
    unfold IPAllocator.offer
    rw [h, h']
  refine ⟨?_, fun q => ?_⟩
  · rcases pool.allocateIP_eq r with ⟨x, hx, hr⟩ | ⟨err, hx, hr⟩
    · rcases pool.allocateIP_eq r' with ⟨y, hy, hr'⟩ | ⟨err', hy, hr'⟩
      · obtain rfl : y = x := Option.some.inj ((hy.symm.trans hoffer).trans hx)
        rw [hr, hr']
        exact ⟨rfl, rfl⟩
      · rw [hy, hx] at hoffer
        cases hoffer
    · rcases pool.allocateIP_eq r' with ⟨y, hy, hr'⟩ | ⟨err', hy, hr'⟩
      · rw [hy, hx] at hoffer
        cases hoffer
      · rw [hr, hr']
        exact ⟨rfl, rfl⟩
  · have halloc : ipAllocatable q r' = ipAllocatable q r := by
      unfold ipAllocatable
      rw [h, h']
    unfold IPAllocator.allocateSpecificIP
    rw [halloc]
    split
    · exact ⟨rfl, rfl⟩
    · split
      · exact ⟨rfl, rfl⟩
      · exact ⟨rfl, rfl⟩

/-- **Which accepted texts may be written as first and last address**: those whose last address is
    in normal form. Then the text is read as the same addresses, and both allocations hand out the
    same from every pool and leave the same pool. -/
theorem range_round_trip {r : String} {s e : IP} (h : parseIPRange r = .ok (s, e)) :
    (parseIPRange (rangeText s e) = .ok (s, e) ↔ normalizeIP e = e) ∧
      (normalizeIP e = e → ∀ pool : IPAllocator,
        ((pool.allocateIP (rangeText s e)).1.toOption = (pool.allocateIP r).1.toOption ∧
          (pool.allocateIP (rangeText s e)).2 = (pool.allocateIP r).2) ∧
        ∀ q, (pool.allocateSpecificIP (rangeText s e) q).1.toOption =
            (pool.allocateSpecificIP r q).1.toOption ∧
          (pool.allocateSpecificIP (rangeText s e) q).2 = (pool.allocateSpecificIP r q).2) := by
  obtain ⟨hs, he⟩ := parseIPRange_isAddr h
  have hparse := parseIPRange_rangeText hs he
  rw [parseIPRange_start_normal h] at hparse
  have hiff : parseIPRange (rangeText s e) = .ok (s, e) ↔ normalizeIP e = e := by
    rw [hparse]
    simp
  exact ⟨hiff, fun hn pool => allocate_of_parseIPRange h (hiff.mpr hn) pool⟩

/-- A block, its hosts written out; the pool of both texts, with the first host in use, offers the
    second and grants the last. -/
theorem range_round_trip_block :
    let pool := newIPAllocator.markUsed "10.0.0.1"
    parseIPRange (rangeText [10, 0, 0, 1] [10, 0, 0, 6]) =
        .ok ([10, 0, 0, 1], [10, 0, 0, 6]) ∧
      rangeText [10, 0, 0, 1] [10, 0, 0, 6] = "10.0.0.1-10.0.0.6" ∧
      (pool.allocateIP (rangeText [10, 0, 0, 1] [10, 0, 0, 6])).1.toOption = some "10.0.0.2" ∧
      (pool.allocateSpecificIP (rangeText [10, 0, 0, 1] [10, 0, 0, 6]) "10.0.0.6").1.toOption =
        some "10.0.0.6" := by
  intro pool
  have h : parseIPRange "10.0.0.0/29" = .ok ([10, 0, 0, 1], [10, 0, 0, 6]) := by decide
  obtain ⟨hiff, halloc⟩ := range_round_trip h
  obtain ⟨⟨hany, -⟩, hspecific⟩ := halloc (by decide) pool
  exact ⟨hiff.mpr (by decide), by decide, hany.trans (by decide),
    (hspecific "10.0.0.6").1.trans (by decide)⟩

/-- A block that ends in the IPv4-mapped addresses cannot be written so: its last address is read
    back in four bytes. -/
example :
    parseIPRange "::fffe:0:0/95" =
        .ok ([0, 0, 0, 0, 0, 0, 0, 0, 0, 0, 255, 254, 0, 0, 0, 0],
          [0, 0, 0, 0, 0, 0, 0, 0, 0, 0, 255, 255, 255, 255, 255, 255]) ∧
      parseIPRange (rangeText [0, 0, 0, 0, 0, 0, 0, 0, 0, 0, 255, 254, 0, 0, 0, 0]
          [0, 0, 0, 0, 0, 0, 0, 0, 0, 0, 255, 255, 255, 255, 255, 255]) =
        .ok ([0, 0, 0, 0, 0, 0, 0, 0, 0, 0, 255, 254, 0, 0, 0, 0], [255, 255, 255, 255]) := by
  decide

end HeliosLB
