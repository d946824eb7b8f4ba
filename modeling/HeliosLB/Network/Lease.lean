/-
  File:      HeliosLB/Network/Lease.lean
  Subject:   THE LEASE DISCIPLINE OF ONE ALLOCATOR, over every sequence of calls.

  Pool draws and requests reach the same string-keyed map by different routes. `Address` is the
  normalised address itself, `Address.text` its key in the map; the history of the calls is a
  ledger over addresses (Lib/Ledger.lean), and the map is the image of what is held there.

  * `Address`, `Address.text_inj` -- an address has one key, and a key one address;
  * `AllocCall`, `AllocCall.next`, `AllocCall.event` -- a call, the pool after it, and what it
    did to the leases;
  * `Refines`, `refines_next` -- `used` is the image of the held addresses and the leases are
    exclusive; one admissible call keeps that;
  * **`allocator_lease_discipline`** -- so it holds after every admissible sequence from the
    empty pool, and with it that no address is leased twice without a release in between,
    however the requests spell it.
-/
import HeliosLB.Lib.Ledger
import HeliosLB.Lib.Runs
import HeliosLB.Network.Allocator

namespace HeliosLB

open Lib

/-! ## 1. Addresses and their keys -/

theorem normalizeIP_of_v4 {ip : IP} (h : ip.length = 4) : normalizeIP ip = ip :=
  normalizeIP_of_to4 (to4_of_v4 h)

theorem normalizeIP_idem {ip : IP} (h : IsAddr ip) :
    normalizeIP (normalizeIP ip) = normalizeIP ip := by
  rcases h.shortens_or with ⟨v4, h4⟩ | ⟨_, _, hn⟩
  · rw [normalizeIP_of_to4 h4, normalizeIP_of_v4 (to4_length h4)]
  · rw [hn, hn]

theorem to4_mapped {v4 : IP} (h : v4.length = 4) : to4 (v4InV6Prefix ++ v4) = some v4 := by
  unfold to4
  rw [if_neg (by simp [v4InV6Prefix, h]), if_pos ⟨by simp [v4InV6Prefix, h], by
    simp [v4InV6Prefix]⟩]
  simp [v4InV6Prefix]

theorem normalizeIP_to16 {ip : IP} (h : IsAddr ip) : normalizeIP (to16 ip) = normalizeIP ip := by
  rcases h with h | h
  · have h16 : to16 ip = v4InV6Prefix ++ ip := if_pos h
    rw [h16, normalizeIP_of_v4 h, normalizeIP_of_to4 (to4_mapped h)]
  · have e : to16 ip = ip := by simp [to16, h]
    rw [e]

theorem isAddr_of_parseIP {s : String} {ip : IP} (h : parseIP s = some ip) : IsAddr ip :=
  Or.inr (parseIP_length h)

/-- A normalised address. -/
structure Address where
  bytes : IP
  isAddr : IsAddr bytes
  normal : normalizeIP bytes = bytes

namespace Address

/-- The address as the allocator's key and the status maps spell it. -/
def text (x : Address) : String := ipString x.bytes

/-- The address of a slice. -/
def ofIP (ip : IP) (h : IsAddr ip) : Address :=
  ⟨normalizeIP ip, normalizeIP_length h, normalizeIP_idem h⟩

theorem text_ofIP {ip : IP} (h : IsAddr ip) : (ofIP ip h).text = ipString ip :=
  ipString_normalizeIP h

/-- **A key belongs to one address.** -/
theorem text_inj {x y : Address} (h : x.text = y.text) : x = y := by
  have e := congrArg normalizeIP (ipString_inj x.isAddr y.isAddr h)
  rw [normalizeIP_to16 x.isAddr, normalizeIP_to16 y.isAddr, x.normal, y.normal] at e
  obtain ⟨bx, _, _⟩ := x
  obtain ⟨by', _, _⟩ := y
  simp only at e
  subst e
  rfl

/-- The address a key spells; `0.0.0.0` for a text that spells none. -/
def ofText (s : String) : Address :=
  match h : parseIP s with
  | some ip => ofIP ip (isAddr_of_parseIP h)
  | none => ofIP [0, 0, 0, 0] (Or.inl rfl)

theorem parseIP_text (x : Address) : parseIP x.text = some (to16 x.bytes) :=
  parseIP_ipString x.isAddr

theorem ofText_text (x : Address) : ofText x.text = x := by
  apply text_inj
  unfold ofText
  split
  · rename_i ip h
    have hip : ip = to16 x.bytes := Option.some.inj (h.symm.trans x.parseIP_text)
    have ha := isAddr_of_parseIP h
    calc (ofIP ip ha).text = ipString (normalizeIP ip) := rfl
      _ = ipString x.bytes := by rw [hip, normalizeIP_to16 x.isAddr, x.normal]
  · rename_i h
    rw [parseIP_text] at h
    cases h

end Address

/-! ## 2. What is handed out is an address -/

namespace IPAllocator

theorem mem_window {n : Nat} {r s : String} (h : s ∈ window n r) : ∃ x : Address, x.text = s := by
  unfold window at h
  rcases hp : parseIPRange r with e | ⟨start, stop⟩ <;> rw [hp] at h
  · cases h
  · have hs := parseIPRange_start_length hp
    simp only at h
    split at h
    · rw [List.mem_singleton] at h
      exact ⟨.ofIP start hs, h ▸ Address.text_ofIP hs⟩
    · obtain ⟨x, hx, rfl⟩ := slice_of_mem_scanned n h
      have hx : IsAddr x := by
        unfold IsAddr at hs ⊢
        rwa [hx]
      exact ⟨.ofIP x hx, Address.text_ofIP hx⟩

theorem offer_address {a : IPAllocator} {r s : String} (h : a.offer r = some s) :
    ∃ x : Address, x.text = s :=
  mem_window (offer_mem_window h)

theorem grant_address {a : IPAllocator} {r q s : String} (h : a.grant r q = some s) :
    ∃ x : Address, x.text = s := by
  obtain ⟨target, ht, rfl⟩ := grant_eq h
  have ha := isAddr_of_parseIP ht
  exact ⟨.ofIP target ha, (Address.text_ofIP ha).trans (ipString_normalizeIP ha).symm⟩

end IPAllocator

/-! ## 3. Calls -/

/-- A call on one allocator. `MarkUsed` and `ReleaseIP` get the key of an address. -/
inductive AllocCall where
  | allocateIP (ipRange : String)
  | allocateSpecificIP (ipRange requested : String)
  | markUsed (x : Address)
  | releaseIP (x : Address)

namespace AllocCall

/-- The range of a pool draw has two addresses or more. -/
def Admissible : AllocCall → Prop
  | .allocateIP r => IPAllocator.singleAddress r = false
  | _ => True

/-- What an allocating call returns. -/
def result (a : IPAllocator) : AllocCall → Option (Except AllocError String)
  | .allocateIP r => some (a.allocateIP r).1
  | .allocateSpecificIP r q => some (a.allocateSpecificIP r q).1
  | _ => none

/-- The pool after the call. -/
def next (a : IPAllocator) : AllocCall → IPAllocator
  | .allocateIP r => (a.allocateIP r).2
  | .allocateSpecificIP r q => (a.allocateSpecificIP r q).2
  | .markUsed x => a.markUsed x.text
  | .releaseIP x => a.releaseIP x.text

/-- What the call does to the leases. -/
def event (a : IPAllocator) : AllocCall → Event Address
  | .markUsed x => .mark x
  | .releaseIP x => .release x
  | c =>
    match c.result a with
    | some (.ok s) => .lease (.ofText s)
    | _ => .idle

end AllocCall

/-- The pool after a sequence of calls. -/
def poolAfter (a : IPAllocator) (cs : List AllocCall) : IPAllocator := run AllocCall.next a cs

/-- The events of a sequence of calls. -/
def history (a : IPAllocator) : List AllocCall → List (Event Address)
  | [] => []
  | c :: cs => c.event a :: history (c.next a) cs

namespace AllocCall

/-- **All a call can do**: an allocation leases a free address or changes nothing. -/
theorem cases_of {c : AllocCall} (hc : c.Admissible) (a : IPAllocator) :
    (∃ x : Address, c.result a = some (.ok x.text) ∧ x.text ∉ a.used ∧
      c.next a = a.markUsed x.text ∧ c.event a = .lease x) ∨
    (∃ e, c.result a = some (.error e) ∧ c.next a = a ∧ c.event a = .idle) ∨
    (∃ x, c = .markUsed x) ∨ (∃ x, c = .releaseIP x) := by
  cases c with
  | allocateIP r =>
      rcases a.allocateIP_eq r with ⟨s, ho, h⟩ | ⟨e, _, h⟩
      · obtain ⟨x, rfl⟩ := IPAllocator.offer_address ho
        refine Or.inl ⟨x, by simp [result, h], IPAllocator.offer_fresh hc ho, by simp [next, h], ?_⟩
        simp [event, result, h, Address.ofText_text]
      · exact Or.inr (Or.inl
          ⟨e, by simp [result, h], by simp [next, h], by simp [event, result, h]⟩)
  | allocateSpecificIP r q =>
      rcases a.allocateSpecificIP_eq r q with ⟨s, hg, h⟩ | ⟨e, _, h⟩
      · obtain ⟨x, rfl⟩ := IPAllocator.grant_address hg
        refine Or.inl ⟨x, by simp [result, h], IPAllocator.grant_fresh hg, by simp [next, h], ?_⟩
        simp [event, result, h, Address.ofText_text]
      · exact Or.inr (Or.inl
          ⟨e, by simp [result, h], by simp [next, h], by simp [event, result, h]⟩)
  | markUsed x => exact Or.inr (Or.inr (Or.inl ⟨x, rfl⟩))
  | releaseIP x => exact Or.inr (Or.inr (Or.inr ⟨x, rfl⟩))

/-- A release in the history is a call of `ReleaseIP`. -/
theorem eq_releaseIP_of_event {c : AllocCall} {a : IPAllocator} {x : Address}
    (h : c.event a = .release x) : c = .releaseIP x := by
  cases c with
  | allocateIP r =>
      simp only [event] at h
      split at h <;> cases h
  | allocateSpecificIP r q =>
      simp only [event] at h
      split at h <;> cases h
  | markUsed y => cases h
  | releaseIP y =>
      cases h
      rfl

end AllocCall

/-! ## 4. The pool refines the ledger -/

/-- **`used` is the image of the held addresses, and the leases are exclusive.** -/
structure Refines (a : IPAllocator) (es : List (Event Address)) : Prop where
  used : ∀ s, s ∈ a.used ↔ ∃ x, Held es x ∧ x.text = s
  exclusive : Exclusive es

namespace Refines

variable {a : IPAllocator} {es : List (Event Address)}

theorem text_mem (h : Refines a es) (x : Address) : x.text ∈ a.used ↔ Held es x := by
  rw [h.used]
  constructor
  · intro h
    obtain ⟨y, hy, e⟩ := h
    rwa [← Address.text_inj e]
  · exact fun hx => ⟨x, hx, rfl⟩

/-- An event that takes `x`, with `x` put into the map. -/
theorem takes (h : Refines a es) {x : Address} {e : Event Address}
    (he : e = .lease x ∧ x.text ∉ a.used ∨ e = .mark x) :
    Refines (a.markUsed x.text) (es ++ [e]) where
  used s := by
    have hne : ∀ y, e ≠ .release y := by
      rcases he with ⟨rfl, _⟩ | rfl <;> simp
    have ht : ∀ y, e.Takes y ↔ y = x := by
      rcases he with ⟨rfl, _⟩ | rfl <;> simp [Event.Takes, eq_comm]
    simp only [IPAllocator.markUsed_used, Finset.mem_insert, held_concat, ht, h.used]
    constructor
    · intro h
      rcases h with rfl | ⟨y, hy, rfl⟩
      · exact ⟨x, Or.inl rfl, rfl⟩
      · exact ⟨y, Or.inr ⟨hy, hne y⟩, rfl⟩
    · intro h
      obtain ⟨y, rfl | ⟨hy, _⟩, rfl⟩ := h
      · exact Or.inl rfl
      · exact Or.inr ⟨y, hy, rfl⟩
  exclusive := by
    refine exclusive_concat h.exclusive fun y hy => ?_
    rcases he with ⟨rfl, hx⟩ | rfl
    · cases hy
      exact fun hh => hx ((h.text_mem x).mpr hh)
    · cases hy

theorem releases (h : Refines a es) (x : Address) :
    Refines (a.releaseIP x.text) (es ++ [.release x]) where
  used s := by
    simp only [IPAllocator.releaseIP_used, Finset.mem_erase, held_concat, Event.Takes, h.used]
    constructor
    · intro h
      obtain ⟨hs, y, hy, rfl⟩ := h
      refine ⟨y, Or.inr ⟨hy, fun e => ?_⟩, rfl⟩
      cases e
      exact hs rfl
    · intro h
      obtain ⟨y, (e | e) | ⟨hy, hne⟩, rfl⟩ := h
      · cases e
      · cases e
      · exact ⟨fun e => hne (by rw [Address.text_inj e]), y, hy, rfl⟩
  exclusive := exclusive_concat h.exclusive fun y hy => by cases hy

theorem idle (h : Refines a es) : Refines a (es ++ [.idle]) where
  used s := by simp [held_concat, Event.Takes, h.used]
  exclusive := exclusive_concat h.exclusive fun y hy => by cases hy

end Refines

/-- **One admissible call keeps the refinement.** -/
theorem refines_next {a : IPAllocator} {es : List (Event Address)} {c : AllocCall}
    (hc : c.Admissible) (h : Refines a es) : Refines (c.next a) (es ++ [c.event a]) := by
  rcases AllocCall.cases_of hc a with ⟨x, _, hx, hn, he⟩ | ⟨e, _, hn, he⟩ | ⟨x, rfl⟩ | ⟨x, rfl⟩
  · rw [hn, he]
    exact h.takes (Or.inl ⟨rfl, hx⟩)
  · rw [hn, he]
    exact h.idle
  · exact h.takes (Or.inr rfl)
  · exact h.releases x

theorem refines_run : ∀ (cs : List AllocCall) {a : IPAllocator} {es : List (Event Address)},
    (∀ c ∈ cs, c.Admissible) → Refines a es → Refines (poolAfter a cs) (es ++ history a cs)
  | [], _, _, _, h => by simpa [poolAfter, history] using h
  | c :: cs, a, es, hc, h => by
      have ih := refines_run cs (fun d hd => hc d (List.mem_cons_of_mem _ hd))
        (refines_next (hc c List.mem_cons_self) h)
      rw [List.append_assoc] at ih
      exact ih

theorem refines_empty (n : Nat) : Refines ⟨∅, n⟩ [] where
  used s := by simp [not_held_nil]
  exclusive := exclusive_nil

/-! ## 5. The history of a sequence -/

theorem history_append (a : IPAllocator) : ∀ (cs ds : List AllocCall),
    history a (cs ++ ds) = history a cs ++ history (poolAfter a cs) ds
  | [], _ => rfl
  | c :: cs, ds => by
      rw [List.cons_append, history, history, history_append (c.next a) cs ds]
      rfl

theorem releaseIP_mem_of_history {x : Address} : ∀ {cs : List AllocCall} {a : IPAllocator},
    .release x ∈ history a cs → .releaseIP x ∈ cs
  | [], _, h => by cases h
  | c :: cs, a, h => by
      rcases List.mem_cons.mp h with h | h
      · rw [AllocCall.eq_releaseIP_of_event h.symm]
        exact List.mem_cons_self
      · exact List.mem_cons_of_mem _ (releaseIP_mem_of_history h)

/-- A granted request leases the address it spells. -/
theorem event_allocateSpecificIP {a : IPAllocator} {r q s : String} {ip : IP} (x : Address)
    (hq : parseIP (trimSpace q) = some ip) (hx : x.bytes = normalizeIP ip)
    (h : (a.allocateSpecificIP r q).1 = .ok s) :
    (AllocCall.allocateSpecificIP r q).event a = .lease x := by
  rcases a.allocateSpecificIP_eq r q with ⟨s', hg, he⟩ | ⟨e, _, he⟩ <;> rw [he] at h
  · cases h
    obtain ⟨target, ht, rfl⟩ := IPAllocator.grant_eq hg
    have htx : ipString (normalizeIP target) = x.text := by
      rw [hq] at ht
      cases ht
      rw [← hx]
      rfl
    simp only [AllocCall.event, AllocCall.result, he]
    rw [htx, Address.ofText_text]
  · cases h

/-- A failing call leaves the pool alone. -/
theorem next_of_error {c : AllocCall} {a : IPAllocator} {e : AllocError}
    (h : c.result a = some (.error e)) : c.next a = a := by
  cases c with
  | allocateIP r =>
      rcases a.allocateIP_eq r with ⟨s, _, he⟩ | ⟨e', _, he⟩
      · simp [AllocCall.result, he] at h
      · simp [AllocCall.next, he]
  | allocateSpecificIP r q =>
      rcases a.allocateSpecificIP_eq r q with ⟨s, _, he⟩ | ⟨e', _, he⟩
      · simp [AllocCall.result, he] at h
      · simp [AllocCall.next, he]
  | markUsed x => cases h
  | releaseIP x => cases h

/-- Two granted requests for one address, with a release of it between them. -/
theorem release_between_requests {n : Nat} {pre mid : List AllocCall} {r r' q q' s s' : String}
    {ip : IP}
    (hadm : ∀ c ∈ pre ++ .allocateSpecificIP r q :: (mid ++ [.allocateSpecificIP r' q']),
      c.Admissible)
    (hq : parseIP (trimSpace q) = some ip) (hq' : parseIP (trimSpace q') = some ip)
    (h : ((poolAfter ⟨∅, n⟩ pre).allocateSpecificIP r q).1 = .ok s)
    (h' : ((poolAfter ⟨∅, n⟩ (pre ++ .allocateSpecificIP r q :: mid)).allocateSpecificIP r' q').1
      = .ok s') :
    ∃ x : Address, x.bytes = normalizeIP ip ∧ .releaseIP x ∈ mid := by
  let x := Address.ofIP ip (isAddr_of_parseIP hq)
  have hx : x.bytes = normalizeIP ip := rfl
  refine ⟨x, hx, ?_⟩
  -- the history splits at the two requests, and both of them are leases of `x`
  have hcs : pre ++ AllocCall.allocateSpecificIP r q :: (mid ++ [.allocateSpecificIP r' q'])
      = (pre ++ .allocateSpecificIP r q :: mid) ++ [.allocateSpecificIP r' q'] := by simp
  have hist : history ⟨∅, n⟩
      (pre ++ AllocCall.allocateSpecificIP r q :: (mid ++ [.allocateSpecificIP r' q']))
      = history ⟨∅, n⟩ pre ++ .lease x :: (history ((AllocCall.allocateSpecificIP r q).next
          (poolAfter ⟨∅, n⟩ pre)) mid ++ .lease x :: []) := by
    rw [hcs, history_append, history_append, history, history, history,
      event_allocateSpecificIP x hq hx h, event_allocateSpecificIP x hq' hx h']
    simp
  have hex := (refines_run _ hadm (refines_empty n)).exclusive
  rw [List.nil_append] at hex
  exact releaseIP_mem_of_history (release_between hex hist)

/-! ## 6. The lease discipline -/

/-- **THE LEASE DISCIPLINE.** After every sequence of calls on an allocator that starts empty,
    with pool draws from ranges of two addresses or more: `used` is exactly the addresses handed
    out or marked and not released since; an allocation that succeeds now returns an address that
    is not among them; one that fails changes nothing; between two leases of one address it was
    released, also when two requests spell it differently. -/
theorem allocator_lease_discipline (n : Nat) (cs : List AllocCall) (h : ∀ c ∈ cs, c.Admissible) :
    (∀ s, s ∈ (poolAfter ⟨∅, n⟩ cs).used ↔ ∃ x, Held (history ⟨∅, n⟩ cs) x ∧ x.text = s) ∧
    (∀ c : AllocCall, c.Admissible → ∀ s, c.result (poolAfter ⟨∅, n⟩ cs) = some (.ok s) →
      s ∉ (poolAfter ⟨∅, n⟩ cs).used ∧ (Address.ofText s).text = s) ∧
    (∀ (c : AllocCall) e, c.result (poolAfter ⟨∅, n⟩ cs) = some (.error e) →
      c.next (poolAfter ⟨∅, n⟩ cs) = poolAfter ⟨∅, n⟩ cs) ∧
    (∀ pre mid post x, history ⟨∅, n⟩ cs = pre ++ .lease x :: (mid ++ .lease x :: post) →
      .release x ∈ mid) ∧
    (∀ pre mid r r' q q' ip s s',
      cs = pre ++ .allocateSpecificIP r q :: (mid ++ [.allocateSpecificIP r' q']) →
      parseIP (trimSpace q) = some ip → parseIP (trimSpace q') = some ip →
      ((poolAfter ⟨∅, n⟩ pre).allocateSpecificIP r q).1 = .ok s →
      ((poolAfter ⟨∅, n⟩ (pre ++ .allocateSpecificIP r q :: mid)).allocateSpecificIP r' q').1
        = .ok s' →
      ∃ x : Address, x.bytes = normalizeIP ip ∧ .releaseIP x ∈ mid) := by
  have href := refines_run cs h (refines_empty n)
  rw [List.nil_append] at href
  refine ⟨href.used, fun c hc s hs => ?_, fun c e he => next_of_error he,
    fun pre mid post x hh => release_between href.exclusive hh, ?_⟩
  · rcases AllocCall.cases_of hc (poolAfter ⟨∅, n⟩ cs) with
      ⟨x, hr, hx, _, _⟩ | ⟨e, hr, _, _⟩ | ⟨x, rfl⟩ | ⟨x, rfl⟩
    · rw [hr] at hs
      cases hs
      exact ⟨hx, by rw [Address.ofText_text]⟩
    · rw [hr] at hs
      cases hs
    · cases hs
    · cases hs
  · rintro pre mid r r' q q' ip s s' rfl hq hq' h1 h2
    exact release_between_requests h hq hq' h1 h2

/-- A draw, then the same address requested in its IPv4-mapped spelling: the request is refused
    and `used` still holds that one address. -/
theorem allocator_lease_discipline_mapped :
    let cs := [AllocCall.allocateIP "10.0.0.0/30",
      AllocCall.allocateSpecificIP "10.0.0.0/24" " ::ffff:10.0.0.1 "]
    (poolAfter ⟨∅, 8⟩ cs).used = {"10.0.0.1"} ∧
      (∀ s, s ∈ (poolAfter ⟨∅, 8⟩ cs).used ↔ ∃ x, Held (history ⟨∅, 8⟩ cs) x ∧ x.text = s) := by
  refine ⟨by decide, (allocator_lease_discipline 8 _ ?_).1⟩
  intro c hc
  simp only [List.mem_cons, List.not_mem_nil, or_false] at hc
  rcases hc with rfl | rfl
  · show IPAllocator.singleAddress "10.0.0.0/30" = false
    decide
  · trivial

end HeliosLB
