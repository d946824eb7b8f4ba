/-
  File:      HeliosLB/Go/RoundTrip.lean
  Subject:   `net.ParseIP` READS BACK WHAT `net.IP.String` WRITES.

  The allocator keys its map with rendered addresses, so that two spellings of one address meet
  on one key rests on this file.

  * `parseIP_length` -- a parsed address has 16 bytes;
  * `parseIPv4Fields_string4`, `parseIPv6_string6` -- the two text forms, each read back whole;
  * `zeroRun_spec` -- the run `::` stands for has at least two groups and all of them are zero;
  * **`parseIP_ipString`** -- the round trip for every 4- or 16-byte address;
  * `ipString_inj` -- so rendering is injective up to the 16-byte form.
-/
import HeliosLB.Go.NetIP
import Mathlib.Data.List.TakeWhile
import Mathlib.Tactic

namespace HeliosLB

/-! ## 1. Digits -/

theorem hexValue_hexDigit : ∀ d < 16, hexValue (hexDigit d) = some d := by decide

theorem hexDigit_decimal : ∀ d < 10, '0' ≤ hexDigit d ∧ hexDigit d ≤ '9' ∧
    (hexDigit d).toNat - '0'.toNat = d := by decide

/-- What holds of the sixteen digits holds of every one that is written. -/
theorem hexDigit_all {p : Char → Bool} (hp : "0123456789abcdef".toList.all p = true) (d : Nat) :
    p (hexDigit d) = true := by
  refine List.all_eq_true.mp hp _ ?_
  unfold hexDigit
  rw [List.getD_eq_getElem?_getD]
  cases hd : "0123456789abcdef".toList[d]? with
  | none => decide
  | some c => exact List.mem_of_getElem? hd

/-- The characters `parseAddr` and `parseIPv6` look for. -/
theorem hexDigit_plain (d : Nat) : hexDigit d ≠ '.' ∧ hexDigit d ≠ ':' ∧ hexDigit d ≠ '%' := by
  have h := @hexDigit_all (fun c => c ≠ '.' ∧ c ≠ ':' ∧ c ≠ '%') (by decide) d
  simpa using h

/-- What is read of digits in base `b` behind `v`. -/
def readDigits (b : Nat) : Nat → List Nat → Nat
  | v, [] => v
  | v, d :: ds => readDigits b (v * b + d) ds

theorem le_readDigits {b : Nat} (hb : 0 < b) : ∀ (v : Nat) (ds : List Nat), v ≤ readDigits b v ds
  | _, [] => Nat.le_refl _
  | v, d :: ds => by
      calc v ≤ v * b + d := Nat.le_add_right_of_le (Nat.le_mul_of_pos_right v hb)
        _ ≤ readDigits b (v * b + d) ds := le_readDigits hb _ ds

/-- **The digits of a decimal text.** -/
theorem decimal_digits (x : Nat) : ∃ ds : List Nat, decimal x = ds.map hexDigit ∧ ds ≠ [] ∧
    ds.length ≤ 3 ∧ (x < 1000 → (∀ d ∈ ds, d < 10) ∧ readDigits 10 0 ds = x) := by
  unfold decimal
  split
  · refine ⟨[x / 100, x / 10 % 10, x % 10], rfl, by simp, by simp, fun h => ?_⟩
    simp only [List.mem_cons, List.not_mem_nil, or_false, forall_eq_or_imp, forall_eq,
      readDigits]
    omega
  · split
    · refine ⟨[x / 10 % 10, x % 10], rfl, by simp, by simp, fun h => ?_⟩
      simp only [List.mem_cons, List.not_mem_nil, or_false, forall_eq_or_imp, forall_eq,
        readDigits]
      omega
    · refine ⟨[x % 10], rfl, by simp, by simp, fun h => ?_⟩
      simp only [List.mem_singleton, forall_eq, readDigits]
      omega

/-- **The digits of a hex text.** -/
theorem hexText_digits (x : Nat) : ∃ ds : List Nat, hexText x = ds.map hexDigit ∧ ds ≠ [] ∧
    ds.length ≤ 4 ∧ (x < 65536 → (∀ d ∈ ds, d < 16) ∧ readDigits 16 0 ds = x) := by
  unfold hexText
  split
  · refine ⟨[x / 4096, x / 256 % 16, x / 16 % 16, x % 16], rfl, by simp, by simp, fun h => ?_⟩
    simp only [List.mem_cons, List.not_mem_nil, or_false, forall_eq_or_imp, forall_eq,
      readDigits]
    omega
  · split
    · refine ⟨[x / 256 % 16, x / 16 % 16, x % 16], rfl, by simp, by simp, fun h => ?_⟩
      simp only [List.mem_cons, List.not_mem_nil, or_false, forall_eq_or_imp, forall_eq,
        readDigits]
      omega
    · split
      · refine ⟨[x / 16 % 16, x % 16], rfl, by simp, by simp, fun h => ?_⟩
        simp only [List.mem_cons, List.not_mem_nil, or_false, forall_eq_or_imp, forall_eq,
          readDigits]
        omega
      · refine ⟨[x % 16], rfl, by simp, by simp, fun h => ?_⟩
        simp only [List.mem_singleton, forall_eq, readDigits]
        omega

theorem mem_decimal {x : Nat} {c : Char} (h : c ∈ decimal x) : ∃ d, c = hexDigit d := by
  obtain ⟨ds, e, _⟩ := decimal_digits x
  rw [e] at h
  obtain ⟨d, _, rfl⟩ := List.mem_map.mp h
  exact ⟨d, rfl⟩

theorem mem_hexText {x : Nat} {c : Char} (h : c ∈ hexText x) : ∃ d, c = hexDigit d := by
  obtain ⟨ds, e, _⟩ := hexText_digits x
  rw [e] at h
  obtain ⟨d, _, rfl⟩ := List.mem_map.mp h
  exact ⟨d, rfl⟩

/-- One digit of an octet that does not start with a zero. -/
theorem parseIPv4Fields_digit {d val digLen : Nat} {cs : List Char} {fields : IP} (hd : d < 10)
    (h0 : digLen = 1 → val ≠ 0) (hv : val * 10 + d ≤ 255) :
    parseIPv4Fields (hexDigit d :: cs) val digLen fields
      = parseIPv4Fields cs (val * 10 + d) (digLen + 1) fields := by
  obtain ⟨h1, h2, h3⟩ := hexDigit_decimal d hd
  rw [parseIPv4Fields, if_pos ⟨h1, h2⟩, if_neg fun h => h0 h.1 h.2, h3, if_neg (by omega)]

theorem parseIPv4Fields_decimal {x : Nat} (hx : x < 256) (cs : List Char) (fields : IP) :
    parseIPv4Fields (decimal x ++ cs) 0 0 fields
      = parseIPv4Fields cs x (decimal x).length fields := by
  unfold decimal
  split
  · rename_i h
    simp only [List.cons_append, List.nil_append]
    rw [parseIPv4Fields_digit (by omega) (by omega) (by omega),
      parseIPv4Fields_digit (by omega) (by omega) (by omega),
      parseIPv4Fields_digit (by omega) (by omega) (by omega)]
    congr 1
    omega
  · split
    · simp only [List.cons_append, List.nil_append]
      rw [parseIPv4Fields_digit (by omega) (by omega) (by omega),
        parseIPv4Fields_digit (by omega) (by omega) (by omega)]
      congr 1
      omega
    · simp only [List.cons_append, List.nil_append]
      rw [parseIPv4Fields_digit (by omega) (by omega) (by omega)]
      congr 1
      omega

theorem decimal_ne_nil (x : Nat) : decimal x ≠ [] := by
  obtain ⟨ds, e, hne, _⟩ := decimal_digits x
  rw [e]
  exact fun h => hne (List.map_eq_nil_iff.mp h)

theorem decimal_plain (x : Nat) : ∀ c ∈ decimal x, c ≠ '.' ∧ c ≠ ':' ∧ c ≠ '%' := by
  intro c hc
  obtain ⟨d, rfl⟩ := mem_decimal hc
  exact hexDigit_plain d

/-! ## 2. Dotted decimal -/

theorem parseIPv4Fields_dot {val digLen : Nat} {cs : List Char} {fields : IP}
    (hd : digLen ≠ 0) (hcs : cs ≠ []) (hf : fields.length ≠ 3) :
    parseIPv4Fields ('.' :: cs) val digLen fields
      = parseIPv4Fields cs 0 0 (fields ++ [UInt8.ofNat val]) := by
  have hn : ¬ ('0' ≤ '.' ∧ '.' ≤ '9') := by decide
  rw [parseIPv4Fields, if_neg hn, if_pos rfl, if_neg (by simp [hd, hcs]), if_neg hf]

/-- An octet with a dot behind it. -/
theorem parseIPv4Fields_octet (b : UInt8) {cs : List Char} {fields : IP} (hcs : cs ≠ [])
    (hf : fields.length ≠ 3) :
    parseIPv4Fields (decimal b.toNat ++ '.' :: cs) 0 0 fields
      = parseIPv4Fields cs 0 0 (fields ++ [b]) := by
  rw [parseIPv4Fields_decimal b.toNat_lt, parseIPv4Fields_dot _ hcs hf, UInt8.ofNat_toNat]
  exact fun h => decimal_ne_nil _ (List.length_eq_zero_iff.mp h)

theorem string4_eq (a b c d : UInt8) : string4 [a, b, c, d] = decimal a.toNat ++ '.' ::
    (decimal b.toNat ++ '.' :: (decimal c.toNat ++ '.' :: decimal d.toNat)) := by
  simp [string4, List.intercalate, List.intersperse]

theorem append_ne_nil {l r : List Char} (h : l ≠ []) : l ++ r ≠ [] :=
  fun e => h (List.append_eq_nil_iff.mp e).1

/-- **The dotted form, read back.** -/
theorem parseIPv4Fields_string4 (a b c d : UInt8) :
    parseIPv4Fields (string4 [a, b, c, d]) 0 0 [] = some [a, b, c, d] := by
  rw [string4_eq, parseIPv4Fields_octet a (append_ne_nil (decimal_ne_nil _)) (by simp),
    parseIPv4Fields_octet b (append_ne_nil (decimal_ne_nil _)) (by simp),
    parseIPv4Fields_octet c (decimal_ne_nil _) (by simp)]
  have h := parseIPv4Fields_decimal d.toNat_lt [] [a, b, c]
  rw [List.append_nil] at h
  simp only [List.nil_append, List.cons_append]
  rw [h]
  simp [parseIPv4Fields]

/-- The first mark of a text that starts plain. -/
theorem find?_mark {l : List Char} {c : Char} (hl : ∀ x ∈ l, x ≠ '.' ∧ x ≠ ':' ∧ x ≠ '%')
    (hc : c = '.' ∨ c = ':' ∨ c = '%') (cs : List Char) :
    (l ++ c :: cs).find? (fun c => c = '.' ∨ c = ':' ∨ c = '%') = some c := by
  rw [List.find?_append, List.find?_eq_none.mpr, Option.none_or, List.find?_cons_of_pos]
  · simpa using hc
  · intro x hx
    obtain ⟨h1, h2, h3⟩ := hl x hx
    simp [h1, h2, h3]

theorem parseAddr_string4 (a b c d : UInt8) :
    parseAddr (string4 [a, b, c, d]) = some (.v4 [a, b, c, d]) := by
  have hf := find?_mark (decimal_plain a.toNat) (Or.inl rfl)
    (decimal b.toNat ++ '.' :: (decimal c.toNat ++ '.' :: decimal d.toNat))
  unfold parseAddr
  rw [string4_eq, hf, ← string4_eq, parseIPv4Fields_string4]
  rfl

/-! ## 3. Hex groups -/

theorem hexGroup_digit {d off acc : Nat} {cs : List Char} (hd : d < 16) (ho : off ≤ 3)
    (ha : acc * 16 + d ≤ 0xffff) :
    hexGroup (hexDigit d :: cs) off acc = hexGroup cs (off + 1) (acc * 16 + d) := by
  rw [hexGroup, hexValue_hexDigit d hd]
  simp only
  rw [if_neg (by omega), if_neg (by omega)]

/-- A group ends at the end of the text and at a colon. -/
theorem hexGroup_end {cs : List Char} (hcs : ∀ c r, cs = c :: r → c = ':') (off acc : Nat) :
    hexGroup cs off acc = some (off, acc, cs) := by
  cases cs with
  | nil => rfl
  | cons c r =>
      have hv : hexValue ':' = none := by decide
      rw [hcs c r rfl, hexGroup, hv]

/-- At most four digits are read into the group. -/
theorem hexGroup_digits (cs : List Char) : ∀ (ds : List Nat) (off acc : Nat), (∀ d ∈ ds, d < 16) →
    off + ds.length ≤ 4 → acc < 16 ^ off →
    hexGroup (ds.map hexDigit ++ cs) off acc =
      hexGroup cs (off + ds.length) (readDigits 16 acc ds)
  | [], _, _, _, _, _ => rfl
  | d :: ds, off, acc, hd, hl, ha => by
      obtain ⟨hd, hds⟩ := List.forall_mem_cons.mp hd
      rw [List.length_cons] at hl
      have hacc : acc * 16 + d < 16 ^ (off + 1) := by
        rw [Nat.pow_succ]
        omega
      have hmax : 16 ^ (off + 1) ≤ 16 ^ 4 := Nat.pow_le_pow_right (by decide) (by omega)
      rw [List.map_cons, List.cons_append, hexGroup_digit hd (by omega) (by omega),
        hexGroup_digits cs ds _ _ hds (by omega) hacc, readDigits, List.length_cons,
        Nat.succ_add_eq_add_succ]

theorem hexGroup_hexText {x : Nat} (hx : x < 65536) (cs : List Char)
    (hcs : ∀ c r, cs = c :: r → c = ':') :
    hexGroup (hexText x ++ cs) 0 0 = some ((hexText x).length, x, cs) := by
  obtain ⟨ds, e, _, hl, hval⟩ := hexText_digits x
  obtain ⟨hd, hx⟩ := hval hx
  rw [e, hexGroup_digits cs ds 0 0 hd (by omega) (by decide), hexGroup_end hcs, hx,
    List.length_map, Nat.zero_add]

/-- A hex text starts with a digit. -/
theorem hexText_cons (x : Nat) : ∃ d r, hexText x = hexDigit d :: r := by
  obtain ⟨ds, e, hne, _⟩ := hexText_digits x
  obtain ⟨d, r, rfl⟩ := List.exists_cons_of_ne_nil hne
  exact ⟨d, r.map hexDigit, e⟩

theorem hexText_plain (x : Nat) : ∀ c ∈ hexText x, c ≠ '.' ∧ c ≠ ':' ∧ c ≠ '%' := by
  intro c hc
  obtain ⟨d, rfl⟩ := mem_hexText hc
  exact hexDigit_plain d

/-! ## 4. The group loop -/

theorem joinHex_cons_cons (x y : Nat) (ys : List Nat) :
    joinHex (x :: y :: ys) = hexText x ++ ':' :: joinHex (y :: ys) := rfl

/-- A nonempty list of groups starts with a digit, so not with a colon. -/
theorem joinHex_head (y : Nat) (ys : List Nat) :
    ∃ c r, c ≠ ':' ∧ joinHex (y :: ys) = c :: r := by
  obtain ⟨d, r, hr⟩ := hexText_cons y
  cases ys with
  | nil => exact ⟨_, r, (hexDigit_plain d).2.1, by rw [joinHex, hr]⟩
  | cons z zs =>
      exact ⟨_, r ++ ':' :: joinHex (z :: zs), (hexDigit_plain d).2.1, by
        rw [joinHex_cons_cons, hr, List.cons_append]⟩

theorem hexText_length_ne (x : Nat) : (hexText x).length ≠ 0 := by
  obtain ⟨d, r, hr⟩ := hexText_cons x
  simp [hr]

/-- One group, then the end of the text. -/
theorem parseIPv6Loop_last {x : Nat} (hx : x < 65536) (n : Nat) (ip : IP) (ell : Option Nat) :
    parseIPv6Loop (n + 1) (hexText x) ip ell = some (ip ++ groupBytes x, ell, []) := by
  have h := hexGroup_hexText hx [] (by simp)
  rw [List.append_nil] at h
  rw [parseIPv6Loop, h]
  simp [hexText_length_ne x]

/-- One group, then a colon and more of the text. -/
theorem parseIPv6Loop_colon {x : Nat} (hx : x < 65536) (n : Nat) (ip : IP) (ell : Option Nat)
    {c : Char} (hc : c ≠ ':') (r : List Char) :
    parseIPv6Loop (n + 1) (hexText x ++ ':' :: c :: r) ip ell
      = parseIPv6Loop n (c :: r) (ip ++ groupBytes x) ell := by
  have h := hexGroup_hexText hx (':' :: c :: r) (by simp +contextual)
  rw [parseIPv6Loop, h]
  simp only [hexText_length_ne x, if_false]
  split <;> simp_all

/-- One group, then the ellipsis. -/
theorem parseIPv6Loop_ellipsis {x : Nat} (hx : x < 65536) (n : Nat) (ip : IP) (r : List Char) :
    parseIPv6Loop (n + 1) (hexText x ++ ':' :: ':' :: r) ip none
      = if r = [] then some (ip ++ groupBytes x, some (ip.length + 2), [])
        else parseIPv6Loop n r (ip ++ groupBytes x) (some (ip.length + 2)) := by
  have h := hexGroup_hexText hx (':' :: ':' :: r) (by simp +contextual)
  rw [parseIPv6Loop, h]
  simp only [hexText_length_ne x, if_false]
  simp

/-- The bytes of a list of groups. -/
def bytesOf (gs : List Nat) : IP := gs.flatMap groupBytes

theorem bytesOf_length (gs : List Nat) : (bytesOf gs).length = 2 * gs.length := by
  induction gs with
  | nil => rfl
  | cons x xs ih =>
      simp only [bytesOf, List.flatMap_cons, List.length_append, List.length_cons] at ih ⊢
      rw [ih]
      simp only [groupBytes, List.length_cons, List.length_nil]
      omega

theorem bytesOf_append (gs hs : List Nat) : bytesOf (gs ++ hs) = bytesOf gs ++ bytesOf hs := by
  simp [bytesOf]

theorem bytesOf_zeros (n : Nat) : bytesOf (List.replicate n 0) = List.replicate (2 * n) 0 := by
  induction n with
  | zero => rfl
  | succ n ih =>
      rw [List.replicate_succ, bytesOf, List.flatMap_cons, ← bytesOf, ih,
        show 2 * (n + 1) = 2 * n + 1 + 1 by omega, List.replicate_succ, List.replicate_succ]
      rfl

/-- The groups up to the end of the text. -/
theorem parseIPv6Loop_joinHex : ∀ (gs : List Nat) (n : Nat) (ip : IP) (ell : Option Nat),
    gs ≠ [] → gs.length ≤ n → (∀ x ∈ gs, x < 65536) →
    parseIPv6Loop n (joinHex gs) ip ell = some (ip ++ bytesOf gs, ell, [])
  | [], _, _, _, h, _, _ => absurd rfl h
  | [x], n + 1, ip, ell, _, _, hx => by
      rw [joinHex, parseIPv6Loop_last (hx x (by simp)) n ip ell]
      simp [bytesOf]
  | x :: y :: ys, n + 1, ip, ell, _, hn, hx => by
      obtain ⟨c, r, hc, hr⟩ := joinHex_head y ys
      rw [joinHex_cons_cons, hr, parseIPv6Loop_colon (hx x (by simp)) n ip ell hc, ← hr,
        parseIPv6Loop_joinHex (y :: ys) n _ ell (by simp) (by simpa using hn)
          fun z hz => hx z (by simp only [List.mem_cons] at hz ⊢; tauto)]
      simp [bytesOf]

/-- The groups up to the ellipsis. -/
theorem parseIPv6Loop_joinHex_ellipsis : ∀ (gs : List Nat) (n : Nat) (ip : IP) (r : List Char),
    gs ≠ [] → gs.length ≤ n → (∀ x ∈ gs, x < 65536) →
    parseIPv6Loop n (joinHex gs ++ ':' :: ':' :: r) ip none
      = if r = [] then some (ip ++ bytesOf gs, some (ip.length + 2 * gs.length), [])
        else parseIPv6Loop (n - gs.length) r (ip ++ bytesOf gs) (some (ip.length + 2 * gs.length))
  | [], _, _, _, h, _, _ => absurd rfl h
  | [x], n + 1, ip, r, _, _, hx => by
      rw [joinHex, parseIPv6Loop_ellipsis (hx x (by simp)) n ip r]
      simp [bytesOf]
  | x :: y :: ys, n + 1, ip, r, _, hn, hx => by
      obtain ⟨c, r', hc, hr⟩ := joinHex_head y ys
      rw [joinHex_cons_cons, hr, List.append_assoc, List.cons_append, List.cons_append,
        parseIPv6Loop_colon (hx x (by simp)) n ip none hc, ← List.cons_append, ← hr,
        parseIPv6Loop_joinHex_ellipsis (y :: ys) n _ r (by simp) (by simpa using hn)
          fun z hz => hx z (by simp only [List.mem_cons] at hz ⊢; tauto)]
      have e1 : (ip ++ groupBytes x).length + 2 * (y :: ys).length
          = ip.length + 2 * (x :: y :: ys).length := by
        simp [groupBytes]
        omega
      have e2 : ip ++ groupBytes x ++ bytesOf (y :: ys) = ip ++ bytesOf (x :: y :: ys) := by
        simp [bytesOf]
      have e3 : n - (y :: ys).length = n + 1 - (x :: y :: ys).length := by
        simp
      rw [e1, e2, e3]

/-! ## 5. The zero run -/

/-- What `zeroRun` may return for the groups `g`. -/
def IsZeroRun (g : List Nat) (r : Nat × Nat) : Prop :=
  r.1 + 2 ≤ r.2 ∧ r.2 ≤ g.length ∧
    g = g.take r.1 ++ List.replicate (r.2 - r.1) 0 ++ g.drop r.2

theorem takeWhile_zero (l : List Nat) :
    l.takeWhile (· = 0) = List.replicate (l.takeWhile (· = 0)).length 0 :=
  List.eq_replicate_iff.mpr ⟨rfl, fun x hx => by simpa using List.mem_takeWhile_imp hx⟩

theorem isZeroRun_of_takeWhile {g : List Nat} {i : Nat}
    (h : ((g.drop i).takeWhile (· = 0)).length ≥ 2) :
    IsZeroRun g (i, i + ((g.drop i).takeWhile (· = 0)).length) := by
  have hsplit := List.takeWhile_append_dropWhile (p := (· = 0)) (l := g.drop i)
  have hle : ((g.drop i).takeWhile (· = 0)).length ≤ (g.drop i).length := by
    have := congrArg List.length hsplit
    rw [List.length_append] at this
    omega
  have hdrop : (g.drop i).length = g.length - i := List.length_drop
  -- the run is a prefix of what is left at `i`, so cutting it off there is `drop`
  have htail : g.drop (i + ((g.drop i).takeWhile (· = 0)).length)
      = (g.drop i).dropWhile (· = 0) := by
    have hcut := congrArg (List.drop ((g.drop i).takeWhile (· = 0)).length) hsplit
    rw [List.drop_left, List.drop_drop] at hcut
    exact hcut.symm
  refine ⟨by simpa using h, by simp only; omega, ?_⟩
  simp only
  rw [htail, Nat.add_sub_cancel_left, List.append_assoc, ← takeWhile_zero, hsplit,
    List.take_append_drop]

theorem zeroRun_spec {g : List Nat} {r : Nat × Nat} (h : zeroRun g = some r) : IsZeroRun g r := by
  have hinv : ∀ r, zeroRun g = some r → IsZeroRun g r := by
    unfold zeroRun
    refine List.foldlRecOn (motive := fun best => ∀ r, best = some r → IsZeroRun g r) _ _
      (by simp) fun best ih i _ r hr => ?_
    simp only at hr
    split at hr
    · rename_i hl
      cases hr
      exact isZeroRun_of_takeWhile hl.1
    · exact ih r hr
  exact hinv r h

/-! ## 6. Hex groups of an address -/

theorem groups_lt : ∀ (ip : IP), ∀ x ∈ groups ip, x < 65536
  | [], _, h => by simp [groups] at h
  | [_], _, h => by simp [groups] at h
  | a :: b :: rest, x, h => by
      rw [groups, List.mem_cons] at h
      rcases h with rfl | h
      · have := a.toNat_lt
        have := b.toNat_lt
        omega
      · exact groups_lt rest x h

theorem groupBytes_pair (a b : UInt8) : groupBytes (a.toNat * 256 + b.toNat) = [a, b] := by
  have ha := a.toNat_lt
  have hb := b.toNat_lt
  have e1 : (a.toNat * 256 + b.toNat) / 256 = a.toNat := by omega
  have e2 : (a.toNat * 256 + b.toNat) % 256 = b.toNat := by omega
  rw [groupBytes, e1, e2, UInt8.ofNat_toNat, UInt8.ofNat_toNat]

theorem bytesOf_groups : ∀ (n : Nat) (ip : IP), ip.length = 2 * n →
    bytesOf (groups ip) = ip ∧ (groups ip).length = n
  | 0, ip, h => by
      rw [List.length_eq_zero_iff.mp (by omega : ip.length = 0)]
      exact ⟨rfl, rfl⟩
  | n + 1, [], h => by simp at h
  | n + 1, [_], h => by simp at h; omega
  | n + 1, a :: b :: rest, h => by
      obtain ⟨h1, h2⟩ := bytesOf_groups n rest (by simp at h; omega)
      refine ⟨?_, by rw [groups, List.length_cons, h2]⟩
      rw [groups, bytesOf, List.flatMap_cons, ← bytesOf, h1, groupBytes_pair]
      rfl

theorem joinHex_noMark (gs : List Nat) : ∀ c ∈ joinHex gs, c ≠ '.' ∧ c ≠ '%' := by
  induction gs with
  | nil => simp [joinHex]
  | cons x xs ih =>
      have hx := hexText_plain x
      cases xs with
      | nil => exact fun c hc => ⟨(hx c hc).1, (hx c hc).2.2⟩
      | cons y ys =>
          intro c hc
          rw [joinHex_cons_cons, List.mem_append, List.mem_cons] at hc
          rcases hc with hc | rfl | hc
          · exact ⟨(hx c hc).1, (hx c hc).2.2⟩
          · decide
          · exact ih c hc

theorem parseIPv6Text_of_ne {c : Char} (hc : c ≠ ':') (r : List Char) :
    parseIPv6Text (c :: r) = (parseIPv6Loop 8 (c :: r) [] none).bind expandEllipsis := by
  unfold parseIPv6Text
  split <;> simp_all

theorem parseIPv6Text_ellipsis {c : Char} (r : List Char) :
    parseIPv6Text (':' :: ':' :: c :: r)
      = (parseIPv6Loop 8 (c :: r) [] (some 0)).bind expandEllipsis := by
  rw [parseIPv6Text]
  simp

/-- Groups without an ellipsis, read back. -/
theorem parseIPv6Text_joinHex {gs : List Nat} (hl : gs.length = 8) (hgs : ∀ x ∈ gs, x < 65536) :
    parseIPv6Text (joinHex gs) = some (bytesOf gs) := by
  cases gs with
  | nil => simp at hl
  | cons x xs =>
      have hloop := parseIPv6Loop_joinHex (x :: xs) 8 [] none (by simp) (by omega) hgs
      obtain ⟨c, r, hc, hr⟩ := joinHex_head x xs
      rw [hr] at hloop ⊢
      rw [parseIPv6Text_of_ne hc, hloop]
      simp [expandEllipsis, bytesOf_length, hl]

/-- The ellipsis puts the missing zero bytes between what was read before and behind it. -/
theorem expandEllipsis_short (pre suf : IP) (h : pre.length + suf.length < 16) :
    expandEllipsis (pre ++ suf, some pre.length, [])
      = some (pre ++ List.replicate (16 - (pre.length + suf.length)) 0 ++ suf) := by
  have h' : (pre ++ suf).length < 16 := by
    rw [List.length_append]
    exact h
  simp only [expandEllipsis, h', if_true]
  simp

/-- Groups around an ellipsis, read back: the missing groups are zero. -/
theorem parseIPv6Text_ellipsis_joinHex {pre suf : List Nat} (hl : pre.length + suf.length < 8)
    (hpre : ∀ x ∈ pre, x < 65536) (hsuf : ∀ x ∈ suf, x < 65536) :
    parseIPv6Text (joinHex pre ++ ':' :: ':' :: joinHex suf)
      = some (bytesOf pre ++ List.replicate (16 - 2 * (pre.length + suf.length)) 0
          ++ bytesOf suf) := by
  have hexp := expandEllipsis_short (bytesOf pre) (bytesOf suf)
    (by rw [bytesOf_length, bytesOf_length]; omega)
  rw [bytesOf_length, bytesOf_length, ← Nat.mul_add] at hexp
  cases pre with
  | nil =>
      rw [joinHex, List.nil_append]
      cases suf with
      | nil => rfl
      | cons y ys =>
          have hloop := parseIPv6Loop_joinHex (y :: ys) 8 [] (some 0) (by simp)
            (by simp at hl ⊢; omega) hsuf
          obtain ⟨c, r, _, hr⟩ := joinHex_head y ys
          rw [hr] at hloop ⊢
          rw [parseIPv6Text_ellipsis, hloop]
          exact hexp
  | cons x xs =>
      have hloop := parseIPv6Loop_joinHex_ellipsis (x :: xs) 8 [] (joinHex suf) (by simp)
        (by omega) hpre
      obtain ⟨c, r, hc, hr⟩ := joinHex_head x xs
      rw [hr, List.cons_append] at hloop ⊢
      rw [parseIPv6Text_of_ne hc, hloop]
      cases suf with
      | nil =>
          rw [joinHex, if_pos rfl]
          simpa [bytesOf] using hexp
      | cons y ys =>
          obtain ⟨c', r', _, hr'⟩ := joinHex_head y ys
          rw [if_neg (by simp [hr']), parseIPv6Loop_joinHex (y :: ys) _ _ _ (by simp) (by omega)
            hsuf]
          simpa using hexp

/-! ## 7. A parsed address has 4 or 16 bytes -/

theorem parseIPv4Fields_length : ∀ (s : List Char) (val digLen : Nat) (fields : IP) {ip : IP},
    fields.length ≤ 3 → parseIPv4Fields s val digLen fields = some ip → ip.length = 4
  | [], _, _, fields, ip, hf, h => by
      rw [parseIPv4Fields] at h
      split at h
      · cases h
      · cases h
        simp only [List.length_append, List.length_cons, List.length_nil]
        omega
  | c :: cs, val, digLen, fields, ip, hf, h => by
      rw [parseIPv4Fields] at h
      split at h
      · split at h
        · cases h
        · split at h
          · cases h
          · exact parseIPv4Fields_length cs _ _ fields hf h
      · split at h
        · split at h
          · cases h
          · split at h
            · cases h
            · refine parseIPv4Fields_length cs _ _ _ ?_ h
              simp only [List.length_append, List.length_cons, List.length_nil]
              omega
        · cases h

theorem parseIPv6Loop_length : ∀ (n : Nat) (s : List Char) (ip : IP) (ell : Option Nat)
    {r : IP × Option Nat × List Char}, ip.length + 2 * n ≤ 16 →
    parseIPv6Loop n s ip ell = some r → r.1.length ≤ 16
  | 0, _, ip, _, r, hn, h => by
      rw [parseIPv6Loop] at h
      cases h
      simp only
      omega
  | n + 1, s, ip, ell, r, hn, h => by
      have hg : ∀ x, (ip ++ groupBytes x).length = ip.length + 2 := fun x => by
        simp [groupBytes]
      rw [parseIPv6Loop] at h
      split at h
      · cases h
      · split at h
        · cases h
        · split at h
          · split at h
            · cases h
            · split at h
              · cases h
              · obtain ⟨v4, hv4, rfl⟩ := Option.map_eq_some_iff.mp h
                have := parseIPv4Fields_length s 0 0 [] (by simp) hv4
                simp only [List.length_append]
                omega
          · cases h
            simp only [hg]
            omega
          · cases h
          · split at h
            · cases h
            · split at h
              · cases h
                simp only [hg]
                omega
              · exact parseIPv6Loop_length n _ _ _ (by rw [hg]; omega) h
          · exact parseIPv6Loop_length n _ _ _ (by rw [hg]; omega) h
          · cases h

theorem expandEllipsis_length {r : IP × Option Nat × List Char} {ip : IP} (hr : r.1.length ≤ 16)
    (h : expandEllipsis r = some ip) : ip.length = 16 := by
  obtain ⟨b, ell, s⟩ := r
  simp only [expandEllipsis] at h hr
  split at h
  · cases h
  · split at h
    · cases ell with
      | none => cases h
      | some e =>
          cases h
          simp only [List.length_append, List.length_take, List.length_drop, List.length_replicate]
          omega
    · split at h
      · cases h
      · cases h
        omega

theorem parseIPv6_length {s : List Char} {ip : IP} (h : parseIPv6 s = some ip) :
    ip.length = 16 := by
  unfold parseIPv6 at h
  split at h
  · cases h
  · unfold parseIPv6Text at h
    split at h
    · cases h
      rfl
    · obtain ⟨r, hr, he⟩ := Option.bind_eq_some_iff.mp h
      exact expandEllipsis_length (parseIPv6Loop_length 8 _ _ _ (by simp) hr) he
    · obtain ⟨r, hr, he⟩ := Option.bind_eq_some_iff.mp h
      exact expandEllipsis_length (parseIPv6Loop_length 8 _ _ _ (by simp) hr) he

/-- A dotted text gives 4 bytes, every other one 16. -/
theorem parseAddr_length {s : List Char} {a : Addr} (h : parseAddr s = some a) :
    8 * a.bytes.length = a.bitLen := by
  unfold parseAddr at h
  split at h
  · obtain ⟨b, hb, rfl⟩ := Option.map_eq_some_iff.mp h
    simp [Addr.bytes, Addr.bitLen, parseIPv4Fields_length s 0 0 [] (by simp) hb]
  · obtain ⟨b, hb, rfl⟩ := Option.map_eq_some_iff.mp h
    simp [Addr.bytes, Addr.bitLen, parseIPv6_length hb]
  · cases h

theorem parseIP_length {s : String} {ip : IP} (h : parseIP s = some ip) : ip.length = 16 := by
  obtain ⟨a, ha, rfl⟩ := Option.map_eq_some_iff.mp h
  have hl := parseAddr_length ha
  cases a with
  | v4 b =>
      simp only [Addr.bytes, Addr.bitLen] at hl
      simp only [Addr.as16, List.length_append, v4InV6Prefix, List.length_cons, List.length_nil]
      omega
  | v6 b =>
      simp only [Addr.bytes, Addr.bitLen] at hl
      simp only [Addr.as16]
      omega

/-! ## 8. The round trip -/

theorem string6_noMark {ip : IP} : '.' ∉ string6 ip ∧ '%' ∉ string6 ip := by
  unfold string6
  split
  · exact ⟨fun h => (joinHex_noMark _ _ h).1 rfl, fun h => (joinHex_noMark _ _ h).2 rfl⟩
  · rename_i i j _
    have h1 := joinHex_noMark ((groups ip).take i)
    have h2 := joinHex_noMark ((groups ip).drop j)
    simp only [List.mem_append, List.mem_cons]
    exact ⟨by rintro (h | h | h | h)
              · exact (h1 _ h).1 rfl
              · cases h
              · cases h
              · exact (h2 _ h).1 rfl,
           by rintro (h | h | h | h)
              · exact (h1 _ h).2 rfl
              · cases h
              · cases h
              · exact (h2 _ h).2 rfl⟩

/-- **The hex form, read back.** -/
theorem parseIPv6_string6 {ip : IP} (h : ip.length = 16) : parseIPv6 (string6 ip) = some ip := by
  have hg := groups_lt ip
  obtain ⟨hb, hl⟩ := bytesOf_groups 8 ip (by omega)
  rw [parseIPv6, if_neg string6_noMark.2]
  unfold string6
  split
  · rw [parseIPv6Text_joinHex hl hg, hb]
  · rename_i i j hz
    obtain ⟨h1, h2, h3⟩ := zeroRun_spec hz
    simp only at h1 h2 h3
    have hpre : ((groups ip).take i).length = i := by
      rw [List.length_take]
      omega
    have hsuf : ((groups ip).drop j).length = 8 - j := by
      rw [List.length_drop, hl]
    rw [parseIPv6Text_ellipsis_joinHex (by omega) (fun x hx => hg x (List.mem_of_mem_take hx))
      fun x hx => hg x (List.mem_of_mem_drop hx), hpre, hsuf]
    have e : 16 - 2 * (i + (8 - j)) = 2 * (j - i) := by omega
    rw [e, ← bytesOf_zeros, ← bytesOf_append, ← bytesOf_append, ← h3, hb]

/-- A colon stands in the hex form of an address, and no dot before it. -/
theorem find?_string6 {ip : IP} (h : ip.length = 16) :
    (string6 ip).find? (fun c => c = '.' ∨ c = ':' ∨ c = '%') = some ':' := by
  have hg := groups_lt ip
  obtain ⟨_, hl⟩ := bytesOf_groups 8 ip (by omega)
  have hcolon : ':' ∈ string6 ip := by
    unfold string6
    split
    · match hgr : groups ip, hl with
      | x :: y :: ys, _ => simp [joinHex_cons_cons]
    · simp
  obtain ⟨c, hc⟩ := Option.isSome_iff_exists.mp
    (List.find?_isSome.mpr ⟨':', hcolon, by simp⟩ :
      ((string6 ip).find? fun c => c = '.' ∨ c = ':' ∨ c = '%').isSome = true)
  have hm := List.mem_of_find?_eq_some hc
  have hp := List.find?_some hc
  simp only [decide_eq_true_eq] at hp
  rcases hp with rfl | rfl | rfl
  · exact absurd hm string6_noMark.1
  · exact hc
  · exact absurd hm string6_noMark.2

theorem parseAddr_string6 {ip : IP} (h : ip.length = 16) :
    parseAddr (string6 ip) = some (.v6 ip) := by
  unfold parseAddr
  rw [find?_string6 h, parseIPv6_string6 h]
  rfl

theorem to4_length {ip v4 : IP} (h : to4 ip = some v4) : v4.length = 4 := by
  unfold to4 at h
  split at h
  · cases h
    assumption
  · split at h
    · rename_i h16
      cases h
      rw [List.length_drop, h16.1]
    · cases h

/-- The 16-byte form of a shortened address is the address. -/
theorem to16_of_to4 {ip v4 : IP} (h : to4 ip = some v4) : to16 ip = v4InV6Prefix ++ v4 := by
  unfold to4 at h
  split at h
  · rename_i h4
    cases h
    rw [to16, if_pos h4]
  · rename_i h4
    split at h
    · rename_i h16
      cases h
      rw [to16, if_neg h4, if_pos h16.1, ← h16.2, List.take_append_drop]
    · cases h

/-- **`net.ParseIP` reads back what `net.IP.String` writes**, as the 16-byte form. -/
theorem parseIP_ipString {ip : IP} (h : ip.length = 4 ∨ ip.length = 16) :
    parseIP (ipString ip) = some (to16 ip) := by
  have hne : ip ≠ [] := by
    rintro rfl
    simp at h
  unfold ipString
  rw [if_neg hne, if_neg (by omega)]
  cases h4 : to4 ip with
  | some v4 =>
      obtain ⟨a, b, c, d, rfl⟩ := List.length_eq_four.mp (to4_length h4)
      rw [to16_of_to4 h4]
      simp only [parseIP, String.toList_ofList, parseAddr_string4]
      rfl
  | none =>
      have h16 : ip.length = 16 := by
        rcases h with h | h
        · simp [to4, h] at h4
        · exact h
      simp only [parseIP, String.toList_ofList, parseAddr_string6 h16]
      simp [Addr.as16, to16, h16]

/-- **Rendering is injective** up to the 16-byte form. -/
theorem ipString_inj {ip x : IP} (h : ip.length = 4 ∨ ip.length = 16)
    (hx : x.length = 4 ∨ x.length = 16) (e : ipString ip = ipString x) : to16 ip = to16 x := by
  have h1 := parseIP_ipString h
  rw [e, parseIP_ipString hx] at h1
  exact (Option.some.inj h1).symm

end HeliosLB
