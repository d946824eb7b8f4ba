/-
  File:      HeliosLB/Balancer/Proportion.lean
  Subject:   WEIGHTED ROUND ROBIN IS EXACTLY PROPORTIONAL, also with concurrent callers.

  `Select` reads the list and the flags, draws a counter value of its service by `AddUint32` and
  picks by that value alone (`weightedPick`). So a call takes effect at its draw, and comes back at
  any later time. The calls for one service that find the same healthy backends are callers that
  draw tickets from one counter (Lib/Shares.lean).

  * `resolveWeight_pos`, `totalWeight_toInt` -- the weights are positive and, below `2^63`, the sum
    is the sum;
  * `weightedWalk_eq_spread` -- the walk reads a place of the layout in which each healthy backend
    stands as often as its weight; `weightedPick_eq_layout` -- at the counter modulo the sum, so
    the return behind the loop is not reached;
  * `Callers`, `Callers.step` -- concurrent `Select` calls for any services; `Callers.Drawing`,
    `drawing_run` -- those for one service are the draws from its counter;
  * **`weightedRoundRobin_window`** -- any window of as many calls for a service as the sum of the
    weights gives every backend its share.
-/
import HeliosLB.Balancer.Algorithms
import HeliosLB.Lib.Runs
import HeliosLB.Lib.Shares
import Mathlib.Data.List.Count

namespace HeliosLB

open Lib

/-- A resolved weight as a number. -/
def weightOf (weights : List Weight) (heap : Heap) (b : Ref) : Nat :=
  (resolveWeight weights (heap b)).toInt.toNat

/-- The healthy backends, each as often as its weight says. -/
def layout (weights : List Weight) (heap : Heap) (backends : List Ref) : List Ref :=
  spread ((healthyBackends heap backends).map fun b => (b, weightOf weights heap b))

/-- The sum of the weights of the healthy backends. -/
def weightSum (weights : List Weight) (heap : Heap) (backends : List Ref) : Nat :=
  ((healthyBackends heap backends).map (weightOf weights heap)).sum

/-! ## 1. The arithmetic -/

theorem resolveWeight_pos {weights : List Weight} {b : Backend} (hb : 0 ≤ b.weight)
    (hw : ∀ w ∈ weights, 1 ≤ w.weight) : 0 < (resolveWeight weights b).toInt := by
  rw [Int64.le_iff_toInt_le, Int64.toInt_zero] at hb
  -- a weight that is not negative is positive or replaced by one
  have key : ∀ w : Int64, 0 ≤ w.toInt → 0 < (if w = 0 then (1 : Int64) else w).toInt := by
    intro w h
    by_cases e : w = 0
    · rw [if_pos e, Int64.toInt_one]
      exact Int.one_pos
    · have hne : w.toInt ≠ 0 := fun h0 => e (Int64.toInt_inj.mp (h0.trans Int64.toInt_zero.symm))
      rw [if_neg e]
      omega
  rw [resolveWeight]
  cases hf : weights.find? fun weight => weight.serviceName == b.serviceName with
  | none => exact key _ hb
  | some w =>
      have h1 := hw w (List.mem_of_find?_eq_some hf)
      rw [Int64.le_iff_toInt_le, Int64.toInt_one] at h1
      exact key w.weight (by omega)

/-- Entries with positive weights, read as shares. -/
def shares (entries : List (Ref × Int64)) : List (Ref × Nat) :=
  entries.map fun e => (e.1, e.2.toInt.toNat)

theorem foldl_toInt {entries : List (Ref × Int64)} (hp : ∀ e ∈ entries, 0 < e.2.toInt)
    {acc : Int64} (h0 : 0 ≤ acc.toInt)
    (hlt : acc.toInt + ((shares entries).map Prod.snd).sum < 2 ^ 63) :
    (entries.foldl (fun total e => total + e.2) acc).toInt =
      acc.toInt + ((shares entries).map Prod.snd).sum := by
  induction entries generalizing acc with
  | nil => exact (Int.add_zero _).symm
  | cons e entries ih =>
      obtain ⟨he, hp⟩ := List.forall_mem_cons.mp hp
      simp only [shares, List.map_cons, List.sum_cons, Int.natCast_add] at hlt ih ⊢
      have hadd : (acc + e.2).toInt = acc.toInt + e.2.toInt := by
        rw [Int64.toInt_add]
        exact Int.bmod_eq_of_le (by omega) (by omega)
      rw [List.foldl_cons, ih hp (by omega) (by omega), hadd]
      omega

theorem totalWeight_toInt {entries : List (Ref × Int64)} (hp : ∀ e ∈ entries, 0 < e.2.toInt)
    (hlt : ((shares entries).map Prod.snd).sum < 2 ^ 63) :
    (totalWeight entries).toInt = ((shares entries).map Prod.snd).sum := by
  have h := @foldl_toInt entries hp 0 (by decide) (by rw [Int64.toInt_zero]; omega)
  rwa [Int64.toInt_zero, Int.zero_add] at h

/-- **The walk reads a place of the layout**, by subtracting the shares in front of it. -/
theorem weightedWalk_eq_spread {entries : List (Ref × Int64)} (hp : ∀ e ∈ entries, 0 < e.2.toInt)
    {point : Int64} {p : Nat} (hpt : point.toInt = p) :
    weightedWalk entries point = (spread (shares entries))[p]? := by
  induction entries generalizing point p with
  | nil => rfl
  | cons e entries ih =>
      obtain ⟨b, w⟩ := e
      obtain ⟨he, hp⟩ := List.forall_mem_cons.mp hp
      have hlt := point.toInt_lt
      have hwlt := w.toInt_lt
      simp only at he
      have hsub : (point - w).toInt = p - w.toInt := by
        rw [Int64.toInt_sub, hpt]
        exact Int.bmod_eq_of_le (by omega) (by omega)
      have hcons : shares ((b, w) :: entries) = (b, w.toInt.toNat) :: shares entries := rfl
      rw [weightedWalk, hcons, spread_cons]
      by_cases hneg : point - w < 0
      · -- the place lies in the share of `b`
        have hs := hneg
        rw [Int64.lt_iff_toInt_lt, hsub, Int64.toInt_zero] at hs
        have hin : p < w.toInt.toNat := by omega
        rw [if_pos hneg, List.getElem?_append_left (by rwa [List.length_replicate]),
          List.getElem?_replicate_of_lt hin]
      · have hs := hneg
        rw [Int64.lt_iff_toInt_lt, hsub, Int64.toInt_zero] at hs
        have hout : w.toInt.toNat ≤ p := by omega
        rw [if_neg hneg, List.getElem?_append_right (by rwa [List.length_replicate]),
          List.length_replicate]
        exact ih hp (by omega)

/-! ## 2. One call -/

section Pick

variable {weights : List Weight} {heap : Heap} {backends : List Ref}

theorem shares_weighed : shares (weighed weights heap backends) =
    (healthyBackends heap backends).map fun b => (b, weightOf weights heap b) := by
  rw [shares, weighed, List.map_map]
  rfl

theorem sum_shares_weighed : ((shares (weighed weights heap backends)).map Prod.snd).sum =
    weightSum weights heap backends := by
  rw [shares_weighed, List.map_map]
  rfl

theorem length_layout :
    (layout weights heap backends).length = weightSum weights heap backends := by
  rw [layout, length_spread, List.map_map]
  rfl

theorem weighed_pos (hb : ∀ b ∈ backends, 0 ≤ (heap b).weight)
    (hw : ∀ w ∈ weights, 1 ≤ w.weight) :
    ∀ e ∈ weighed weights heap backends, 0 < e.2.toInt := by
  intro e he
  obtain ⟨b, hm, rfl⟩ := List.mem_map.mp he
  exact resolveWeight_pos (hb b (mem_healthyBackends.mp hm).1) hw

theorem count_layout (b : Ref) : (layout weights heap backends).count b =
    (healthyBackends heap backends).count b * weightOf weights heap b := by
  rw [layout, count_spread]

/-- There is a weight to share out, unless there is none in sum. -/
theorem totalWeight_ne_zero (hb : ∀ b ∈ backends, 0 ≤ (heap b).weight)
    (hw : ∀ w ∈ weights, 1 ≤ w.weight) (hlt : weightSum weights heap backends < 2 ^ 63)
    (h0 : 0 < weightSum weights heap backends) :
    totalWeight (weighed weights heap backends) ≠ 0 := by
  intro h
  have hsum := totalWeight_toInt (weighed_pos hb hw) (by rwa [sum_shares_weighed])
  rw [h, sum_shares_weighed, Int64.toInt_zero] at hsum
  omega

/-- **The walk finds the place of the layout at the counter modulo the sum of the weights.** -/
theorem weightedWalk_eq_layout (hb : ∀ b ∈ backends, 0 ≤ (heap b).weight)
    (hw : ∀ w ∈ weights, 1 ≤ w.weight) (hlt : weightSum weights heap backends < 2 ^ 63)
    (current : UInt32) :
    weightedWalk (weighed weights heap backends)
        (weightedPoint (weighed weights heap backends) current) =
      (layout weights heap backends)[current.toNat % weightSum weights heap backends]? := by
  have hp := weighed_pos hb hw
  have hcur := current.toNat_lt
  have hpt : (weightedPoint (weighed weights heap backends) current).toInt =
      (current.toNat % weightSum weights heap backends : Nat) := by
    rw [weightedPoint, Int64.toInt_mod, Int64.toInt_ofNat_of_lt (by omega),
      totalWeight_toInt hp (by rwa [sum_shares_weighed]), sum_shares_weighed]
    exact (Int.ofNat_tmod _ _).symm
  rw [weightedWalk_eq_spread hp hpt, shares_weighed, layout]

/-- So the return behind the loop is not reached, and the pick is that place. -/
theorem weightedPick_eq_layout (hb : ∀ b ∈ backends, 0 ≤ (heap b).weight)
    (hw : ∀ w ∈ weights, 1 ≤ w.weight) (hlt : weightSum weights heap backends < 2 ^ 63)
    (h0 : 0 < weightSum weights heap backends) (current : UInt32) :
    weightedWalk (weighed weights heap backends)
        (weightedPoint (weighed weights heap backends) current) ≠ none ∧
      weightedPick (weighed weights heap backends) current =
        (layout weights heap backends)[current.toNat % weightSum weights heap backends]? := by
  have hwalk := weightedWalk_eq_layout hb hw hlt current
  have hi : current.toNat % weightSum weights heap backends <
      (layout weights heap backends).length := by
    rw [length_layout]
    exact Nat.mod_lt _ h0
  rw [List.getElem?_eq_getElem hi] at hwalk ⊢
  rw [weightedPick, hwalk]
  exact ⟨Option.some_ne_none _, rfl⟩

/-- **A call with a weight to share out draws from the counter of its service** and is answered by
    the value it has drawn. -/
theorem weightedRoundRobinSelect_draw (ht : totalWeight (weighed weights heap backends) ≠ 0)
    (states : Counters) (s : String) :
    weightedRoundRobinSelect states weights heap backends s =
      (weightedPick (weighed weights heap backends) (states.next s),
        Function.update states s (some (states.next s))) := by
  have hne : ¬ backends.isEmpty = true := by
    intro h
    rw [List.isEmpty_iff.mp h] at ht
    exact ht rfl
  rw [weightedRoundRobinSelect, if_neg hne]
  exact if_neg ht

/-- Whatever it finds, it leaves the counters of other services alone. -/
theorem weightedRoundRobinSelect_other {s s' : String} (h : s ≠ s') (states : Counters) :
    (weightedRoundRobinSelect states weights heap backends s').2 s = states s := by
  unfold weightedRoundRobinSelect
  dsimp only
  split
  · rfl
  · split
    · exact Function.update_of_ne h _ _
    · exact Function.update_of_ne h _ _

end Pick

/-! ## 3. Consecutive counter values -/

theorem iterate_succ_eq (c : UInt32) (i : Nat) : (· + 1)^[i] c = c + UInt32.ofNat i := by
  induction i with
  | zero => exact (UInt32.add_zero c).symm
  | succ i ih => rw [Function.iterate_succ_apply', ih, UInt32.ofNat_add, UInt32.add_assoc]; rfl

/-- Before the counter comes round, the values of a window are consecutive numbers. -/
theorem ticket_toNat {c : UInt32} {first n i : Nat}
    (hwrap : (c + UInt32.ofNat first).toNat + n < 2 ^ 32) (hi : first ≤ i) (hn : i < first + n) :
    (Tickets.ticket (· + 1) c i).2.toNat = (c + UInt32.ofNat first).toNat + 1 + (i - first) := by
  obtain ⟨j, rfl⟩ := Nat.exists_eq_add_of_le hi
  rw [Tickets.ticket, iterate_succ_eq, Nat.add_assoc, UInt32.ofNat_add, ← UInt32.add_assoc,
    UInt32.toNat_add, UInt32.toNat_ofNat']
  omega

section Picks

variable {weights : List Weight} {heap : Heap} {backends : List Ref}

/-- The picks of consecutive tickets read every place of the layout once. -/
theorem picks_perm (hb : ∀ b ∈ backends, 0 ≤ (heap b).weight)
    (hw : ∀ w ∈ weights, 1 ≤ w.weight) {c : UInt32} {first : Nat}
    (hwrap : (c + UInt32.ofNat first).toNat + weightSum weights heap backends < 2 ^ 32) :
    ((List.range' first (weightSum weights heap backends)).map fun i =>
        weightedPick (weighed weights heap backends) (Tickets.ticket (· + 1) c i).2).Perm
      ((layout weights heap backends).map some) := by
  have hperm := window_perm (layout weights heap backends) ((c + UInt32.ofNat first).toNat + 1)
  rw [length_layout] at hperm
  refine List.Perm.trans (List.Perm.of_eq ?_) hperm
  refine List.ext_getElem (by simp) fun j h₁ _ => ?_
  have hj : j < weightSum weights heap backends := by simpa using h₁
  simp only [List.getElem_map, List.getElem_range', Nat.one_mul]
  rw [(weightedPick_eq_layout hb hw (by omega) (by omega) _).2,
    ticket_toNat hwrap (by omega) (by omega), Nat.add_sub_cancel_left]

end Picks

/-! ## 4. Concurrent callers -/

/-- A `Select` call past its `AddUint32`: its service, how many calls for the service drew before
    it, the value it drew and what it returns. -/
structure SelectCall where
  serviceName : String
  number : Nat
  value : UInt32
  answer : Option Ref
  deriving DecidableEq, Repr

/-- The number and the value, as a ticket. -/
def SelectCall.ticket (c : SelectCall) : Nat × UInt32 := (c.number, c.value)

/-- The callers of one `weightedRoundRobinAlgorithm`: its counters, the calls made for each service,
    those on their way back and those that are back. -/
structure Callers where
  states : Counters
  made : String → Nat := fun _ => 0
  waiting : List SelectCall := []
  answered : List SelectCall := []

namespace Callers

/-- A call gets past its `AddUint32`, with the list it was given and the flags it read; or one comes
    back. -/
inductive Move where
  | select (serviceName : String) (heap : Heap) (backends : List Ref)
  | answer (call : SelectCall)

/-- One move. The draw is all a call does to what other calls see, so the call is run there; the
    walk behind it reads nothing that can change, and may come back at any later time. -/
def step (weights : List Weight) (q : Callers) : Move → Callers
  | .select s heap backends =>
    let out := weightedRoundRobinSelect q.states weights heap backends s
    { q with
      states := out.2
      made := Function.update q.made s (q.made s + 1)
      waiting := ⟨s, q.made s, (out.2 s).getD 0, out.1⟩ :: q.waiting }
  | .answer c =>
    if c ∈ q.waiting then
      { q with waiting := q.waiting.erase c, answered := q.answered ++ [c] }
    else q

/-- The call is one of the `n` for the service from number `first` on. -/
def inWindow (s : String) (first n : Nat) (c : SelectCall) : Bool :=
  c.serviceName = s && Tickets.inWindow first n c.ticket

/-- The calls for one service, as draws from its counter. -/
def tickets (s : String) (q : Callers) : Tickets UInt32 where
  counter := (q.states s).getD 0
  drawn := q.made s
  waiting := (q.waiting.filter (·.serviceName = s)).map SelectCall.ticket
  served := (q.answered.filter (·.serviceName = s)).map SelectCall.ticket

/-- **The calls for the service are the draws from its counter**, each answered by the pick of the
    value it drew. -/
structure Drawing (s : String) (entries : List (Ref × Int64)) (c : UInt32) (q : Callers) :
    Prop where
  inv : Tickets.Inv (· + 1) c (q.tickets s)
  picks : ∀ call ∈ q.answered ++ q.waiting, call.serviceName = s →
    call.answer = weightedPick entries call.value

variable {weights : List Weight} {s : String} {c : UInt32}

theorem tickets_select {heap : Heap} {backends : List Ref}
    (ht : totalWeight (weighed weights heap backends) ≠ 0) (q : Callers) :
    (q.step weights (.select s heap backends)).tickets s = (q.tickets s).draw (· + 1) := by
  simp only [step, tickets, weightedRoundRobinSelect_draw ht, Function.update_self]
  simp [Tickets.draw, SelectCall.ticket, Counters.next]

theorem tickets_select_other {s' : String} (h : s ≠ s') (heap : Heap) (backends : List Ref)
    (q : Callers) : (q.step weights (.select s' heap backends)).tickets s = q.tickets s := by
  simp only [step, tickets, weightedRoundRobinSelect_other h, Function.update_of_ne h,
    List.filter_cons, Ne.symm h, decide_false, Bool.false_eq_true, if_false]

/-- One move keeps it, if the calls for the service find the same weights. -/
theorem drawing_step {entries : List (Ref × Int64)} (ht : totalWeight entries ≠ 0) (q : Callers)
    (m : Move) (h : Drawing s entries c q)
    (hm : ∀ heap backends, m = .select s heap backends → weighed weights heap backends = entries) :
    Drawing s entries c (q.step weights m) := by
  cases m with
  | select s' heap backends =>
      by_cases e : s = s'
      · subst e
        obtain rfl := hm heap backends rfl
        refine ⟨?_, fun call hc hs => ?_⟩
        · rw [tickets_select ht]
          exact h.inv.draw
        · rw [step, weightedRoundRobinSelect_draw ht] at hc
          rcases List.mem_append.mp hc with hc | hc
          · exact h.picks call (List.mem_append_left _ hc) hs
          · rcases List.mem_cons.mp hc with rfl | hc
            · simp
            · exact h.picks call (List.mem_append_right _ hc) hs
      · refine ⟨by rw [tickets_select_other e]; exact h.inv, fun call hc hs => ?_⟩
        rcases List.mem_append.mp hc with hc | hc
        · exact h.picks call (List.mem_append_left _ hc) hs
        · rcases List.mem_cons.mp hc with rfl | hc
          · exact absurd hs.symm e
          · exact h.picks call (List.mem_append_right _ hc) hs
  | answer call =>
      rw [step]
      split
      · rename_i hw
        -- the call only changes sides
        have hp : ((q.answered ++ [call]) ++ q.waiting.erase call).Perm
            (q.answered ++ q.waiting) := by
          rw [List.append_assoc]
          exact (List.perm_cons_erase hw).symm.append_left q.answered
        refine ⟨h.inv.of_perm rfl rfl ?_, fun call' hc hs => h.picks call' (hp.mem_iff.mp hc) hs⟩
        have hmap := (hp.filter (·.serviceName = s)).map SelectCall.ticket
        simpa only [tickets, List.filter_append, List.map_append] using hmap
      · exact h

/-- The calls of a window that is back were answered by the picks of the window's tickets. -/
theorem Drawing.window_answers {entries : List (Ref × Int64)} {q : Callers}
    (h : Drawing s entries c q) {first n : Nat} (hd : first + n ≤ q.made s)
    (hback : ∀ call ∈ q.waiting, inWindow s first n call = false) :
    ((q.answered.filter (inWindow s first n)).map SelectCall.answer).Perm
      ((List.range' first n).map fun i =>
        weightedPick entries (Tickets.ticket (· + 1) c i).2) := by
  have hwin : (q.answered.filter (inWindow s first n)).map SelectCall.ticket =
      (q.tickets s).served.filter (Tickets.inWindow first n) := by
    rw [tickets, List.filter_map, List.filter_filter]
    exact congrArg _ (List.filter_congr fun call _ => Bool.and_comm _ _)
  have hserved := Tickets.window_served _ h.inv hd fun t ht => by
    obtain ⟨call, hc, rfl⟩ := List.mem_map.mp ht
    obtain ⟨hc, hs⟩ := List.mem_filter.mp hc
    have hout := hback call hc
    rwa [inWindow, hs, Bool.true_and] at hout
  have hanswers : (q.answered.filter (inWindow s first n)).map SelectCall.answer =
      ((q.answered.filter (inWindow s first n)).map SelectCall.ticket).map fun t =>
        weightedPick entries t.2 := by
    rw [List.map_map]
    refine List.map_congr_left fun call hc => ?_
    obtain ⟨hc, hin⟩ := List.mem_filter.mp hc
    exact h.picks call (List.mem_append_left _ hc)
      (of_decide_eq_true (Bool.and_eq_true_iff.mp hin).1)
  rw [hanswers, hwin]
  have hpicks := hserved.map fun t => weightedPick entries t.2
  rwa [List.map_map] at hpicks

end Callers

section Window

variable {weights : List Weight} {heap : Heap} {backends : List Ref}

/-- In every interleaving in which the calls for the service find the same weights. -/
theorem drawing_run (ht : totalWeight (weighed weights heap backends) ≠ 0) (states : Counters)
    (s : String) (moves : List Callers.Move)
    (hkeep : ∀ heap' backends', .select s heap' backends' ∈ moves →
      weighed weights heap' backends' = weighed weights heap backends) :
    Callers.Drawing s (weighed weights heap backends) ((states s).getD 0)
      (run (Callers.step weights) { states } moves) := by
  have hstart : Callers.Drawing s (weighed weights heap backends) ((states s).getD 0)
      { states } := ⟨⟨rfl, .nil⟩, fun _ hc => absurd hc List.not_mem_nil⟩
  have hmoves : Along (Callers.step weights) (fun _ m => ∀ heap' backends',
      m = .select s heap' backends' →
        weighed weights heap' backends' = weighed weights heap backends) { states } moves := by
    refine along_of_forall_mem _ (fun m hm => ?_) _
    rintro heap' backends' rfl
    exact hkeep heap' backends' hm
  exact run_inv _ (fun q m hq hm => Callers.drawing_step ht q m hq hm) hstart hmoves

/-- **Weighted round robin is exactly proportional.** Callers of `Select` for any services draw and
    come back in any order; the calls for the service find the same healthy backends with the same
    weights, those for others whatever they find. Take as many consecutive calls for the service as
    these weights sum up to, the counter not coming round: once they are back, each healthy backend
    was returned as often as its weight says (times its places in the list), and no call got to the
    return behind the loop. -/
theorem weightedRoundRobin_window (hb : ∀ b ∈ backends, 0 ≤ (heap b).weight)
    (hw : ∀ w ∈ weights, 1 ≤ w.weight) (states : Counters) (s : String)
    (moves : List Callers.Move)
    (hkeep : ∀ heap' backends', .select s heap' backends' ∈ moves →
      weighed weights heap' backends' = weighed weights heap backends) (first : Nat)
    (hd : first + weightSum weights heap backends ≤
      (run (Callers.step weights) { states } moves).made s)
    (hback : ∀ c ∈ (run (Callers.step weights) { states } moves).waiting,
      Callers.inWindow s first (weightSum weights heap backends) c = false)
    (hwrap : ((states s).getD 0 + UInt32.ofNat first).toNat + weightSum weights heap backends <
      2 ^ 32) :
    let window := (run (Callers.step weights) { states } moves).answered.filter
      (Callers.inWindow s first (weightSum weights heap backends))
    window.length = weightSum weights heap backends ∧
      (∀ b ∈ healthyBackends heap backends, (window.map SelectCall.answer).count (some b) =
        (healthyBackends heap backends).count b * weightOf weights heap b) ∧
      ∀ c ∈ window, weightedWalk (weighed weights heap backends)
        (weightedPoint (weighed weights heap backends) c.value) ≠ none := by
  intro window
  rcases Nat.eq_zero_or_pos (weightSum weights heap backends) with h0 | h0
  · -- nothing to share out, and no call asked for
    have hnil : window = [] := List.filter_eq_nil_iff.mpr fun c _ => by
      rw [h0]
      simp [Callers.inWindow, Tickets.inWindow]
    rw [hnil, h0]
    refine ⟨rfl, fun b _ => ?_, fun c hc => absurd hc List.not_mem_nil⟩
    have hle := @List.count_le_length _ _ b (layout weights heap backends)
    rw [length_layout, h0, count_layout] at hle
    exact (Nat.le_zero.mp hle).symm
  · have hdraw := drawing_run (totalWeight_ne_zero hb hw (by omega) h0) states s moves hkeep
    have hp := (hdraw.window_answers hd hback).trans (picks_perm hb hw hwrap)
    refine ⟨?_, fun b _ => ?_, fun c _ => ?_⟩
    · simpa only [List.length_map, length_layout] using hp.length_eq
    · rw [hp.count_eq, List.count_map_of_injective _ _ fun _ _ => Option.some.inj, count_layout]
    · exact (weightedPick_eq_layout hb hw (by omega) h0 c.value).1

/-- Backends of weight 2 and (unset) 1 and a failed one. The second of three calls for `web` is back
    before the third has drawn and the first one comes back last, with a call for `db` among
    them. -/
theorem weightedRoundRobin_window_overtaken :
    let heap : Heap := fun b =>
      { address := "10.0.0.1", healthy := if b = 2 then 0 else 1, serviceName := "web",
        weight := if b = 0 then 2 else 0 }
    let moves : List Callers.Move :=
      [.select "web" heap [0, 1, 2], .select "db" heap [1], .select "web" heap [0, 1, 2],
        .answer ⟨"web", 1, 2, some 1⟩, .select "web" heap [0, 1, 2],
        .answer ⟨"web", 2, 3, some 0⟩, .answer ⟨"web", 0, 1, some 0⟩]
    let q : Callers := run (Callers.step []) { states := fun _ => none } moves
    q.answered.map SelectCall.answer = [some 1, some 0, some 0] ∧
      weightSum [] heap [0, 1, 2] = 3 ∧
      ((q.answered.filter (Callers.inWindow "web" 0 (weightSum [] heap [0, 1, 2]))).map
        SelectCall.answer).count (some 0) =
        (healthyBackends heap [0, 1, 2]).count 0 * weightOf [] heap 0 := by
  intro heap moves q
  refine ⟨by decide, by decide, ?_⟩
  have hkeep : ∀ heap' backends', .select "web" heap' backends' ∈ moves →
      weighed [] heap' backends' = weighed [] heap [0, 1, 2] := by
    intro heap' backends' hm
    simp only [moves, List.mem_cons, Callers.Move.select.injEq, List.not_mem_nil, or_false,
      reduceCtorEq, false_or] at hm
    rcases hm with ⟨-, rfl, rfl⟩ | ⟨h, -⟩ | ⟨-, rfl, rfl⟩ | ⟨-, rfl, rfl⟩
    · rfl
    · exact absurd h (by decide)
    · rfl
    · rfl
  exact (weightedRoundRobin_window (by decide) (by decide) (fun _ => none) "web" moves hkeep 0
    (by decide) (by decide) (by decide)).2.1 0 (by decide)

end Window

end HeliosLB
