/-
  File:      HeliosLB/Lib/Shares.lean
  Subject:   SHARES AND TICKETS. Nothing here names a program.

  Shares: entries with a weight are laid out in a list that holds each of them as often as its
  weight says. A counter read modulo the length walks round that list, so as many consecutive
  counter values as it is long read a rotation of it.

  Tickets: callers draw from one counter by an atomic step and are served later, in any order. A
  ticket is its number and the value the counter had; the counter may come round again, the
  numbers do not.

  * `spread`, `length_spread`, `count_spread` -- the layout;
  * `window_perm` -- a window of consecutive values reads every place once; `count_window` -- any
    number of them reads every place equally often, give or take one;
  * `Tickets`, `Tickets.draw` -- the counter and the tickets; `Tickets.Inv` -- the tickets out and
    served are those drawn so far: `Inv.draw`, `Inv.of_perm` -- kept by a draw, and by whatever only
    moves tickets about;
  * `Tickets.window_served` -- so a window whose callers are all back was served exactly once each.
-/
import Mathlib.Algebra.BigOperators.Group.List.Basic
import Mathlib.Algebra.Order.Ring.Int
import Mathlib.Data.List.Count
import Mathlib.Data.List.Rotate
import Mathlib.Logic.Function.Iterate

namespace Lib

/-! ## 1. Shares -/

section Shares

variable {α : Type*}

/-- Each entry as often as its weight says. -/
def spread (l : List (α × Nat)) : List α := l.flatMap fun e => List.replicate e.2 e.1

theorem spread_cons (a : α) (w : Nat) (l : List (α × Nat)) :
    spread ((a, w) :: l) = List.replicate w a ++ spread l := rfl

theorem length_spread (l : List (α × Nat)) : (spread l).length = (l.map Prod.snd).sum := by
  induction l with
  | nil => rfl
  | cons e l ih => rw [spread_cons, List.length_append, List.length_replicate, ih]; rfl

theorem count_spread [DecidableEq α] (f : α → Nat) (l : List α) (a : α) :
    (spread (l.map fun x => (x, f x))).count a = l.count a * f a := by
  induction l with
  | nil => exact (Nat.zero_mul _).symm
  | cons x l ih =>
      rw [List.map_cons, spread_cons, List.count_append, ih, List.count_replicate, List.count_cons]
      by_cases e : x = a
      · subst e
        simp only [beq_self_eq_true, if_true, Nat.add_mul, Nat.one_mul]
        exact Nat.add_comm _ _
      · simp only [beq_iff_eq, if_neg e, Nat.zero_add, Nat.add_zero]

/-- **As many consecutive values as the list is long read every place of it once.** -/
theorem window_perm (l : List α) (c : Nat) :
    ((List.range' c l.length).map fun k => l[k % l.length]?).Perm (l.map some) := by
  have e : ((List.range' c l.length).map fun k => l[k % l.length]?) = (l.rotate c).map some := by
    refine List.ext_getElem (by simp) fun i h₁ h₂ => ?_
    have hi : i < l.length := by simpa using h₁
    rw [List.getElem_map, List.getElem_map, List.getElem_range', Nat.one_mul, Nat.add_comm c i,
      ← List.getElem?_rotate hi, List.getElem?_eq_getElem]
  rw [e]
  exact (l.rotate_perm c).map some

/-- **Any number of consecutive values shares itself out evenly**: every place is read as often as
    the list fits in, or once more. -/
theorem count_window [DecidableEq α] {l : List α} (hnd : l.Nodup) {a : α} (ha : a ∈ l) (c k : Nat) :
    k / l.length ≤ ((List.range' c k).map fun i => l[i % l.length]?).count (some a) ∧
      ((List.range' c k).map fun i => l[i % l.length]?).count (some a) ≤ k / l.length + 1 := by
  have hpos := List.length_pos_of_mem ha
  have hfull : ∀ c,
      ((List.range' c l.length).map fun i => l[i % l.length]?).count (some a) = 1 := by
    intro c
    rw [(window_perm l c).count_eq, List.count_map_of_injective _ _ fun _ _ => Option.some.inj]
    exact List.count_eq_one_of_mem hnd ha
  induction k using Nat.strong_induction_on generalizing c with
  | _ k ih =>
      by_cases hk : k < l.length
      · -- less than a round: part of one
        have hround : List.range' c l.length =
            List.range' c k ++ List.range' (c + k) (l.length - k) := by
          rw [List.range'_append_1]
          congr 1
          omega
        have h := hfull c
        rw [hround, List.map_append, List.count_append] at h
        rw [Nat.div_eq_of_lt hk]
        omega
      · obtain ⟨j, rfl⟩ := Nat.exists_eq_add_of_le (Nat.le_of_not_lt hk)
        have hj := ih j (by omega) (c + l.length)
        rw [← List.range'_append_1, List.map_append, List.count_append, hfull,
          Nat.add_div_left _ hpos]
        omega

end Shares

/-! ## 2. Tickets -/

/-- A counter, how often it was drawn from, and the tickets out and served. -/
structure Tickets (τ : Type*) where
  counter : τ
  drawn : Nat := 0
  waiting : List (Nat × τ) := []
  served : List (Nat × τ) := []

namespace Tickets

variable {τ : Type*} (next : τ → τ)

/-- A caller draws. -/
def draw (s : Tickets τ) : Tickets τ :=
  { s with
    counter := next s.counter
    drawn := s.drawn + 1
    waiting := (s.drawn, next s.counter) :: s.waiting }

/-- The ticket with number `i` of a counter that started at `c`. -/
def ticket (c : τ) (i : Nat) : Nat × τ := (i, next^[i + 1] c)

/-- **The tickets out and served are those drawn so far**, each once. -/
structure Inv (c : τ) (s : Tickets τ) : Prop where
  counter : s.counter = next^[s.drawn] c
  tickets : (s.served ++ s.waiting).Perm ((List.range s.drawn).map (ticket next c))

variable {next}

theorem Inv.draw {c : τ} {s : Tickets τ} (h : Inv next c s) : Inv next c (s.draw next) := by
  have hn : next s.counter = next^[s.drawn + 1] c := by
    rw [h.counter, Function.iterate_succ_apply']
  refine ⟨hn, ?_⟩
  simp only [Tickets.draw, List.range_succ, List.map_append, List.map_singleton, hn]
  exact List.perm_middle.trans
    ((List.Perm.cons _ h.tickets).trans (List.perm_append_singleton _ _).symm)

/-- Whoever is served leaves the counter and takes no ticket but their own. -/
theorem Inv.of_perm {c : τ} {s s' : Tickets τ} (h : Inv next c s) (hc : s'.counter = s.counter)
    (hd : s'.drawn = s.drawn) (hp : (s'.served ++ s'.waiting).Perm (s.served ++ s.waiting)) :
    Inv next c s' := by
  refine ⟨?_, ?_⟩
  · rw [hc, hd]
    exact h.counter
  · rw [hd]
    exact hp.trans h.tickets

variable (next)

/-- The ticket's number is one of the `n` from `first` on. -/
def inWindow (first n : Nat) (t : Nat × τ) : Bool := decide (first ≤ t.1 ∧ t.1 < first + n)

theorem filter_range_inWindow (c : τ) {first n m : Nat} (h : first + n ≤ m) :
    (List.range m).filter (inWindow first n ∘ ticket next c) = List.range' first n := by
  have hsplit : List.range m = List.range' 0 first ++
      (List.range' first n ++ List.range' (first + n) (m - (first + n))) := by
    have h₁ := @List.range'_append_1 0 first (n + (m - (first + n)))
    rw [Nat.zero_add] at h₁
    rw [List.range'_append_1, h₁, List.range_eq_range']
    congr 1
    omega
  have hout : ∀ a k : Nat, (∀ i, a ≤ i → i < a + k → ¬ (first ≤ i ∧ i < first + n)) →
      (List.range' a k).filter (inWindow first n ∘ ticket next c) = [] := by
    intro a k hi
    refine List.filter_eq_nil_iff.mpr fun i hm => ?_
    obtain ⟨h₁, h₂⟩ := List.mem_range'_1.mp hm
    exact fun hd => hi i h₁ h₂ (of_decide_eq_true hd)
  have hin : (List.range' first n).filter (inWindow first n ∘ ticket next c) =
      List.range' first n :=
    List.filter_eq_self.mpr fun i hm => decide_eq_true (List.mem_range'_1.mp hm)
  rw [hsplit, List.filter_append, List.filter_append, hin, hout 0 first (by omega),
    hout (first + n) _ (by omega), List.nil_append, List.append_nil]

/-- **If the callers of a window are all back, each was served once, with its own value.** -/
theorem window_served {c : τ} {s : Tickets τ} (h : Inv next c s) {first n : Nat}
    (hd : first + n ≤ s.drawn) (hw : ∀ t ∈ s.waiting, inWindow first n t = false) :
    (s.served.filter (inWindow first n)).Perm ((List.range' first n).map (ticket next c)) := by
  have hp := h.tickets.filter (inWindow first n)
  have hnil : s.waiting.filter (inWindow first n) = [] :=
    List.filter_eq_nil_iff.mpr fun t ht => by rw [hw t ht]; exact Bool.false_ne_true
  rwa [List.filter_append, hnil, List.append_nil, List.filter_map,
    filter_range_inWindow next c hd] at hp

end Tickets

end Lib
