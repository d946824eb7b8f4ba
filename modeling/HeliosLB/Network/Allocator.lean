/-
  File:      HeliosLB/Network/Allocator.lean
  Subject:   THE ADDRESS POOL (internal/network/ip_allocator.go).

  The pool is the set of rendered addresses in use (`used`; the map's values are only ever set to
  true) and a bound on the scan. `AllocateIP` takes the first free address of a range,
  `AllocateSpecificIP` exactly the requested one or none.

  * `IPAllocator`, `allocateIP`, `allocateSpecificIP`, `markUsed`, `releaseIP`, `ipAllocatable`,
    `ipInRange` -- the source's functions, each returning its result with the new pool;
  * `window` -- the addresses `allocateIP` looks at, in its order;
  * `offer`, `grant` -- what the two allocations would hand out, as functions of the pool;
    `allocateIP_eq`, `allocateSpecificIP_eq` say that they hand out exactly that and put exactly
    that into `used`;
  * `firstFree`, `offer_eq_firstFree` -- a draw from a range of two addresses or more takes the
    first address of the window that is not in use;
  * `offer_fresh`, `grant_fresh` -- so such a draw, and every granted request, is an address that
    was not in use.
-/
import HeliosLB.Network.Parse
import Mathlib.Data.Finset.Insert

namespace HeliosLB

/-- `defaultMaxScan`. -/
def defaultMaxScan : Nat := 65536

/-- `IPAllocator`. -/
structure IPAllocator where
  used : Finset String
  maxScan : Nat
  deriving DecidableEq

/-- `NewIPAllocator`. -/
def newIPAllocator : IPAllocator := ⟨∅, defaultMaxScan⟩

/-- The errors of the two allocations. -/
inductive AllocError where
  | range (e : RangeError)
  | scanLimit (ipRange : String) (maxScan : Nat)
  | exhausted (ipRange : String)
  | notAnIP (requested : String)
  | notAllocatable (requested ipRange : String)
  | alreadyAllocated (ip : String)
  deriving DecidableEq, Repr

def AllocError.message : AllocError → String
  | .range e => e.message
  | .scanLimit r n => "no available IP found in range " ++ r ++ " within scan limit (" ++ toString n
      ++ " addresses)"
  | .exhausted r => "no available IPs in range " ++ r
  | .notAnIP q => "requested IP is unavailable: " ++ quote q ++ " is not a valid IP"
  | .notAllocatable q r => "requested IP is unavailable: " ++ q
      ++ " is not an allocatable address in range " ++ r
  | .alreadyAllocated ip => "requested IP is unavailable: " ++ ip ++ " is already allocated"

/-! ## 1. The source's functions -/

/-- `IPAllocatable`. -/
def ipAllocatable (ip ipRange : String) : Bool :=
  match parseIP (trimSpace ip) with
  | none => false
  | some target =>
    match parseIPRange ipRange with
    | .error _ => false
    | .ok (start, stop) =>
      bytesCompare (normalizeIP target) start ≠ .lt ∧ bytesCompare (normalizeIP target) stop ≠ .gt

/-- `IPInRange`. -/
def ipInRange (ip ipRange : String) : Bool :=
  match parseIP (trimSpace ip) with
  | none => false
  | some target =>
    if '/' ∈ ipRange.toList then
      match parseCIDR (trimSpace ipRange) with
      | none => false
      | some n => n.contains target
    else
      match parseIPRange ipRange with
      | .error _ => false
      | .ok (start, stop) =>
        bytesCompare (normalizeIP target) start ≠ .lt ∧
          bytesCompare (normalizeIP target) stop ≠ .gt

namespace IPAllocator

/-- `MarkUsed`. -/
def markUsed (a : IPAllocator) (ip : String) : IPAllocator := { a with used := insert ip a.used }

/-- `ReleaseIP`. -/
def releaseIP (a : IPAllocator) (ip : String) : IPAllocator := { a with used := a.used.erase ip }

/-- The scan of `AllocateIP` from `ip` on, with so many addresses left to look at. -/
def scan (a : IPAllocator) (ipRange : String) (stop : IP) : Nat → IP → Except AllocError String
  | 0, ip =>
    if bytesCompare ip stop = .gt then .error (.exhausted ipRange)
    else .error (.scanLimit ipRange a.maxScan)
  | n + 1, ip =>
    if bytesCompare ip stop = .gt then .error (.exhausted ipRange)
    else if ipString ip ∉ a.used then .ok (ipString ip)
    else a.scan ipRange stop n (incrementIP ip)

/-- `AllocateIP`. A range of one address hands that address out whether it is in use or not. -/
def allocateIP (a : IPAllocator) (ipRange : String) : Except AllocError String × IPAllocator :=
  match parseIPRange ipRange with
  | .error e => (.error (.range e), a)
  | .ok (start, stop) =>
    if ipEqual start stop then (.ok (ipString start), a.markUsed (ipString start))
    else
      match a.scan ipRange stop a.maxScan start with
      | .ok ip => (.ok ip, a.markUsed ip)
      | .error e => (.error e, a)

/-- `AllocateSpecificIP`. -/
def allocateSpecificIP (a : IPAllocator) (ipRange requested : String) :
    Except AllocError String × IPAllocator :=
  match parseIP (trimSpace requested) with
  | none => (.error (.notAnIP requested), a)
  | some target =>
    if ipAllocatable requested ipRange = false then (.error (.notAllocatable requested ipRange), a)
    else if ipString (normalizeIP target) ∈ a.used then
      (.error (.alreadyAllocated (ipString (normalizeIP target))), a)
    else (.ok (ipString (normalizeIP target)), a.markUsed (ipString (normalizeIP target)))

@[simp] theorem markUsed_used (a : IPAllocator) (ip : String) :
    (a.markUsed ip).used = insert ip a.used := rfl

@[simp] theorem markUsed_maxScan (a : IPAllocator) (ip : String) :
    (a.markUsed ip).maxScan = a.maxScan := rfl

@[simp] theorem releaseIP_used (a : IPAllocator) (ip : String) :
    (a.releaseIP ip).used = a.used.erase ip := rfl

/-! ## 2. The scan window -/

/-- The renderings the scan of `allocateIP` passes from `ip` on, at most `n` of them. -/
def scanned (stop : IP) : Nat → IP → List String
  | 0, _ => []
  | n + 1, ip =>
    if bytesCompare ip stop = .gt then [] else ipString ip :: scanned stop n (incrementIP ip)

/-- **The scan window of a range**: the addresses a pool draw looks at, in order. -/
def window (maxScan : Nat) (ipRange : String) : List String :=
  match parseIPRange ipRange with
  | .error _ => []
  | .ok (start, stop) =>
    if ipEqual start stop then [ipString start] else scanned stop maxScan start

/-- The range parses to one address only. -/
def singleAddress (ipRange : String) : Bool :=
  match parseIPRange ipRange with
  | .error _ => false
  | .ok (start, stop) => ipEqual start stop

/-- The scan returns the first free address of what it passes. -/
theorem scan_ok_iff (a : IPAllocator) (r : String) (stop : IP) : ∀ (n : Nat) (ip : IP) (s : String),
    a.scan r stop n ip = .ok s ↔ (scanned stop n ip).find? (· ∉ a.used) = some s
  | 0, ip, s => by
      simp only [scan, scanned, List.find?_nil]
      split <;> simp
  | n + 1, ip, s => by
      rw [scan, scanned]
      split
      · simp
      · split
        · rename_i hf
          rw [List.find?_cons_of_pos (by simpa using hf)]
          simp
        · rename_i hf
          rw [List.find?_cons_of_neg (by simpa using hf)]
          exact scan_ok_iff a r stop n (incrementIP ip) s

/-- The scan passes renderings of slices of one length. -/
theorem slice_of_mem_scanned {stop : IP} {s : String} : ∀ (n : Nat) {ip : IP},
    s ∈ scanned stop n ip → ∃ x : IP, x.length = ip.length ∧ ipString x = s
  | 0, _, h => absurd h List.not_mem_nil
  | n + 1, ip, h => by
      rw [scanned] at h
      split at h
      · cases h
      · rcases List.mem_cons.mp h with rfl | h
        · exact ⟨ip, rfl, rfl⟩
        · obtain ⟨x, hx, hs⟩ := slice_of_mem_scanned n h
          exact ⟨x, hx.trans (incrementIP_length ip), hs⟩

/-! ## 3. What an allocation hands out -/

/-- The address a pool draw hands out: the first free one of the window, or the only one. -/
def offer (a : IPAllocator) (ipRange : String) : Option String :=
  match parseIPRange ipRange with
  | .error _ => none
  | .ok (start, stop) =>
    if ipEqual start stop then some (ipString start)
    else (scanned stop a.maxScan start).find? (· ∉ a.used)

/-- The address a request gets: the requested one, if the range has it and it is free. -/
def grant (a : IPAllocator) (ipRange requested : String) : Option String :=
  match parseIP (trimSpace requested) with
  | none => none
  | some target =>
    if ipAllocatable requested ipRange ∧ ipString (normalizeIP target) ∉ a.used
    then some (ipString (normalizeIP target)) else none

/-- **`AllocateIP` hands out its offer and puts exactly that into `used`**; it fails, and leaves
    the pool alone, exactly when there is none. -/
theorem allocateIP_eq (a : IPAllocator) (r : String) :
    (∃ s, a.offer r = some s ∧ a.allocateIP r = (.ok s, a.markUsed s)) ∨
      (∃ e, a.offer r = none ∧ a.allocateIP r = (.error e, a)) := by
  unfold offer allocateIP
  rcases hp : parseIPRange r with e | ⟨start, stop⟩
  · exact Or.inr ⟨_, rfl, rfl⟩
  · by_cases he : ipEqual start stop = true
    · simp only [he, if_true]
      exact Or.inl ⟨_, rfl, rfl⟩
    · simp only [he, if_false, Bool.false_eq_true]
      cases hs : a.scan r stop a.maxScan start with
      | ok s => exact Or.inl ⟨s, (scan_ok_iff a r stop _ _ s).mp hs, rfl⟩
      | error e =>
          refine Or.inr ⟨e, ?_, rfl⟩
          cases hf : (scanned stop a.maxScan start).find? (· ∉ a.used) with
          | none => rfl
          | some s =>
              rw [(scan_ok_iff a r stop _ _ s).mpr hf] at hs
              cases hs

theorem allocateIP_ok_iff {a : IPAllocator} {r x : String} :
    (a.allocateIP r).1 = .ok x ↔ a.offer r = some x := by
  rcases a.allocateIP_eq r with ⟨s, ho, ha⟩ | ⟨e, ho, ha⟩ <;> simp [ho, ha]

theorem allocateIP_fails_iff {a : IPAllocator} {r : String} :
    (∃ e, (a.allocateIP r).1 = .error e) ↔ a.offer r = none := by
  rcases a.allocateIP_eq r with ⟨s, ho, ha⟩ | ⟨e, ho, ha⟩ <;> simp [ho, ha]

/-- **`AllocateSpecificIP` hands out its grant and puts exactly that into `used`**; it fails, and
    leaves the pool alone, exactly when there is none. -/
theorem allocateSpecificIP_eq (a : IPAllocator) (r q : String) :
    (∃ s, a.grant r q = some s ∧ a.allocateSpecificIP r q = (.ok s, a.markUsed s)) ∨
      (∃ e, a.grant r q = none ∧ a.allocateSpecificIP r q = (.error e, a)) := by
  unfold grant allocateSpecificIP
  cases ht : parseIP (trimSpace q) with
  | none => exact Or.inr ⟨_, rfl, rfl⟩
  | some target =>
      simp only
      cases ha : ipAllocatable q r with
      | false => exact Or.inr ⟨_, by simp, rfl⟩
      | true =>
          by_cases hu : ipString (normalizeIP target) ∈ a.used
          · exact Or.inr ⟨.alreadyAllocated (ipString (normalizeIP target)), by simp [hu],
              by simp [hu]⟩
          · exact Or.inl ⟨ipString (normalizeIP target), by simp [hu], by simp [hu]⟩

/-- An offer comes from the window. -/
theorem offer_mem_window {a : IPAllocator} {r s : String} (h : a.offer r = some s) :
    s ∈ window a.maxScan r := by
  unfold offer at h
  unfold window
  rcases hp : parseIPRange r with e | ⟨start, stop⟩ <;> rw [hp] at h
  · cases h
  · simp only at h ⊢
    split at h
    · cases h
      rename_i he
      simp [he]
    · rename_i he
      rw [if_neg he]
      exact List.mem_of_find?_eq_some h

/-- The first address of the scan window that is not taken. -/
def firstFree (maxScan : Nat) (ipRange : String) (taken : Finset String) : Option String :=
  (window maxScan ipRange).find? (· ∉ taken)

/-- **A draw from a range of two addresses or more hands out the first free address.** -/
theorem offer_eq_firstFree {r : String} (hr : singleAddress r = false) (a : IPAllocator) :
    a.offer r = firstFree a.maxScan r a.used := by
  unfold offer firstFree window
  unfold singleAddress at hr
  rcases hp : parseIPRange r with e | ⟨start, stop⟩
  · rfl
  · rw [hp] at hr
    simp only at hr ⊢
    rw [hr]
    rfl

/-- Also the only address of a range, if it is free. -/
theorem offer_of_firstFree {a : IPAllocator} {r ip : String}
    (h : firstFree a.maxScan r a.used = some ip) : a.offer r = some ip := by
  cases hr : singleAddress r with
  | false => rw [offer_eq_firstFree hr, h]
  | true =>
      unfold singleAddress at hr
      unfold firstFree window at h
      unfold offer
      rcases hp : parseIPRange r with e | ⟨start, stop⟩ <;> rw [hp] at hr h
      · cases hr
      · simp only at hr h ⊢
        rw [if_pos hr] at h ⊢
        exact congrArg some (List.mem_singleton.mp (List.mem_of_find?_eq_some h)).symm

theorem mem_of_firstFree {n : Nat} {r x : String} {taken : Finset String}
    (h : firstFree n r taken = some x) : x ∈ window n r ∧ x ∉ taken := by
  unfold firstFree at h
  have hfree := List.find?_some h
  rw [decide_eq_true_eq] at hfree
  exact ⟨List.mem_of_find?_eq_some h, hfree⟩

theorem firstFree_of_mem {n : Nat} {r x : String} {taken : Finset String}
    (h : x ∈ window n r) (hf : x ∉ taken) : ∃ ip, firstFree n r taken = some ip :=
  Option.isSome_iff_exists.mp (List.find?_isSome.mpr ⟨x, h, decide_eq_true hf⟩)

/-- **A draw from a range of two addresses or more is free.** -/
theorem offer_fresh {a : IPAllocator} {r s : String} (hr : singleAddress r = false)
    (h : a.offer r = some s) : s ∉ a.used := by
  rw [offer_eq_firstFree hr] at h
  simpa using List.find?_some h

/-- **A granted request is free.** -/
theorem grant_fresh {a : IPAllocator} {r q s : String} (h : a.grant r q = some s) :
    s ∉ a.used := by
  unfold grant at h
  split at h
  · cases h
  · split at h
    · rename_i hg
      cases h
      exact hg.2
    · cases h

/-- A grant is the rendering of the requested address. -/
theorem grant_eq {a : IPAllocator} {r q s : String} (h : a.grant r q = some s) :
    ∃ target, parseIP (trimSpace q) = some target ∧ s = ipString (normalizeIP target) := by
  unfold grant at h
  split at h
  · cases h
  · rename_i target ht
    split at h
    · cases h
      exact ⟨target, ht, rfl⟩
    · cases h

theorem grant_allocatable {a : IPAllocator} {r q s : String} (h : a.grant r q = some s) :
    ipAllocatable q r = true := by
  unfold grant at h
  split at h
  · cases h
  · split at h
    · rename_i hg
      exact hg.1
    · cases h

end IPAllocator

end HeliosLB
