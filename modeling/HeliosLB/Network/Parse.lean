/-
  File:      HeliosLB/Network/Parse.lean
  Subject:   RANGE TEXTS (internal/network/parse.go).

  A range is a CIDR, one address, or two addresses with a hyphen. `parseIPRange` returns its
  first and last address in normalised form: 4 bytes for IPv4, 16 for IPv6.

  * `normalizeIP`, `incrementIP`, `decrementIP`, `parseIPRange` -- the source's functions;
  * `RangeError` -- its three errors, with their texts;
  * `normalizeIP_length`, `ipString_normalizeIP` -- normalising loses
    neither the address nor its rendering;
  * `parseIPRange_start_length` -- the first address has 4 or 16 bytes.
-/
import HeliosLB.Go.RoundTrip

namespace HeliosLB

/-! ## 1. The source's functions -/

/-- `NormalizeIP`. -/
def normalizeIP (ip : IP) : IP :=
  match to4 ip with
  | some v4 => v4
  | none => to16 ip

/-- The loop of `IncrementIP`, from the last byte on: the bytes, and whether the carry has left
    the slice (every byte so far wrapped to zero). -/
def incrementLoop : IP → IP × Bool
  | [] => ([], true)
  | b :: bs =>
    match incrementLoop bs with
    | (bs', true) => ((b + 1) :: bs', b + 1 = 0)
    | (bs', false) => (b :: bs', false)

/-- `IncrementIP`: the next address; the all-ones slice wraps to zero. -/
def incrementIP (ip : IP) : IP := (incrementLoop ip).1

/-- The loop of `DecrementIP`, with its borrow. -/
def decrementLoop : IP → IP × Bool
  | [] => ([], true)
  | b :: bs =>
    match decrementLoop bs with
    | (bs', true) => ((b - 1) :: bs', b - 1 = 0xff)
    | (bs', false) => (b :: bs', false)

/-- `DecrementIP`. -/
def decrementIP (ip : IP) : IP := (decrementLoop ip).1

/-- The errors of `ParseIPRange`. -/
inductive RangeError where
  | cidr (ipRange : String)
  | format (ipRange : String)
  | addresses (ipRange : String)
  deriving DecidableEq, Repr

def RangeError.message : RangeError → String
  | .cidr r => "invalid CIDR format: " ++ r
  | .format r => "invalid IP range format: " ++ r
  | .addresses r => "invalid IP addresses in range: " ++ r

/-- The addresses of a CIDR block: the base and the base with every host bit set, without these
    two for an IPv4 block wider than `/31`. -/
def cidrBounds (n : IPNet) : IP × IP :=
  let start := normalizeIP n.ip
  let stop := List.zipWith (fun s m => s ||| ~~~m) start n.mask
  if n.bits = 32 ∧ n.bits - n.ones > 1 then (incrementIP start, decrementIP stop)
  else (start, stop)

/-- `ParseIPRange`. -/
def parseIPRange (ipRange : String) : Except RangeError (IP × IP) :=
  let trimmed := trimSpace ipRange
  if '/' ∈ trimmed.toList then
    match parseCIDR trimmed with
    | none => .error (.cidr ipRange)
    | some n => .ok (cidrBounds n)
  else
    match parseIP trimmed with
    | some ip => .ok (normalizeIP ip, normalizeIP ip)
    | none =>
      match trimmed.toList.splitOn '-' with
      | [a, b] =>
        match parseIP (trimSpace (String.ofList a)), parseIP (trimSpace (String.ofList b)) with
        | some start, some stop => .ok (normalizeIP start, normalizeIP stop)
        | _, _ => .error (.addresses ipRange)
      | _ => .error (.format ipRange)

/-! ## 2. Normalised addresses -/

/-- An address slice: 4 or 16 bytes. -/
def IsAddr (ip : IP) : Prop := ip.length = 4 ∨ ip.length = 16

theorem to4_of_v4 {ip : IP} (h : ip.length = 4) : to4 ip = some ip := if_pos h

theorem normalizeIP_of_to4 {ip v4 : IP} (h : to4 ip = some v4) : normalizeIP ip = v4 := by
  rw [normalizeIP, h]

/-- It shortens to 4 bytes, or it has 16 that normalising keeps. -/
theorem IsAddr.shortens_or {ip : IP} (h : IsAddr ip) :
    (∃ v4, to4 ip = some v4) ∨ (ip.length = 16 ∧ to4 ip = none ∧ normalizeIP ip = ip) := by
  cases h4 : to4 ip with
  | some v4 => exact Or.inl ⟨v4, rfl⟩
  | none =>
      rcases h with h | h
      · rw [to4_of_v4 h] at h4
        cases h4
      · refine Or.inr ⟨h, rfl, ?_⟩
        rw [normalizeIP, h4]
        simp [to16, h]

theorem normalizeIP_length {ip : IP} (h : IsAddr ip) : IsAddr (normalizeIP ip) := by
  rcases h.shortens_or with ⟨v4, h4⟩ | ⟨_, _, hn⟩
  · rw [normalizeIP_of_to4 h4]
    exact Or.inl (to4_length h4)
  · rwa [hn]

theorem to4_idem {ip v4 : IP} (h : to4 ip = some v4) : to4 v4 = some v4 :=
  to4_of_v4 (to4_length h)

theorem ipString_v4 {ip v4 : IP} (h : IsAddr ip) (h4 : to4 ip = some v4) :
    ipString ip = String.ofList (string4 v4) := by
  have hne : ip ≠ [] := by
    rintro rfl
    rcases h with h | h <;> simp at h
  unfold ipString
  rw [if_neg hne, if_neg (by unfold IsAddr at h; omega), h4]

/-- Normalising keeps the rendering. -/
theorem ipString_normalizeIP {ip : IP} (h : IsAddr ip) :
    ipString (normalizeIP ip) = ipString ip := by
  rcases h.shortens_or with ⟨v4, h4⟩ | ⟨_, _, hn⟩
  · have hv : IsAddr v4 := Or.inl (to4_length h4)
    rw [normalizeIP_of_to4 h4, ipString_v4 h h4, ipString_v4 hv (to4_idem h4)]
  · rw [hn]

/-! ## 3. The first address of a range -/

theorem incrementLoop_length (ip : IP) : (incrementLoop ip).1.length = ip.length := by
  induction ip with
  | nil => rfl
  | cons b bs ih =>
      rw [incrementLoop]
      rcases h : incrementLoop bs with ⟨bs', _ | _⟩
      · rw [h] at ih
        simpa using ih
      · rw [h] at ih
        simpa using ih

@[simp] theorem incrementIP_length (ip : IP) : (incrementIP ip).length = ip.length :=
  incrementLoop_length ip

theorem isAddr_incrementIP {ip : IP} (h : IsAddr ip) : IsAddr (incrementIP ip) := by
  unfold IsAddr at h ⊢
  rwa [incrementIP_length]

theorem cidrMask_length (ones bits : Nat) : (cidrMask ones bits).length = bits / 8 := by
  simp [cidrMask]

theorem parseCIDR_ip_length {s : String} {n : IPNet} (h : parseCIDR s = some n) : IsAddr n.ip := by
  unfold parseCIDR at h
  split at h
  · cases h
  · split at h
    · cases h
    · rename_i a ha
      split at h
      · cases h
      · split at h
        · cases h
        · split at h
          · cases h
          · cases h
            have hl := parseAddr_length ha
            unfold IsAddr
            simp only [List.length_zipWith, cidrMask_length]
            cases a <;> simp only [Addr.bitLen] at hl ⊢ <;> omega

theorem parseIPRange_start_length {r : String} {start stop : IP}
    (h : parseIPRange r = .ok (start, stop)) : IsAddr start := by
  simp only [parseIPRange] at h
  split at h
  · split at h
    · cases h
    · rename_i n hn
      have hip := normalizeIP_length (parseCIDR_ip_length hn)
      simp only [cidrBounds, Except.ok.injEq] at h
      split at h
      · cases h
        exact isAddr_incrementIP hip
      · cases h
        exact hip
  · split at h
    · rename_i ip hip
      cases h
      exact normalizeIP_length (Or.inr (parseIP_length hip))
    · split at h
      · split at h
        · rename_i hs _
          cases h
          exact normalizeIP_length (Or.inr (parseIP_length hs))
        · cases h
      · cases h

end HeliosLB
