/-
  File:      HeliosLB/Admission/Overlap.lean
  Subject:   WHAT ADMISSION KEEPS APART, for one request and over every history of requests.

  The webhook compares `ipRange` with `ipRange` and `ipv6Range` with `ipv6Range`, and leaves out
  the configs with an excluded NAME. So two things slip through: a range in the one field of the
  new config and the other field of an existing one, and a config of another namespace with the
  name of the one that is updated.

  * `HeliosConfigSpec.Disjoint` -- no address is allocatable from a range of each;
  * **`overlap_admission_iff`** -- for one accepted config: disjoint from every existing one
    exactly if the two pairings that are not compared do not meet;
  * `ValidOfLength`, **`overlapForRange_exact`** -- on ranges of one family the test of the check
    is that of a common address;
  * `AdmissionRequest`, `review` -- histories of creations and updates over the stored configs;
  * `Apart`, `apart_review` -- what one request keeps if its exclusion hits no other config;
    **`admission_keeps_apart`** -- so every such history keeps it.
-/
import HeliosLB.Admission.Webhook
import HeliosLB.Lib.Runs

namespace HeliosLB

open Lib

/-! ## 1. One request -/

/-- The range texts of a spec. An unset `ipv6Range` is the empty text, which is no range. -/
def HeliosConfigSpec.ranges (spec : HeliosConfigSpec) : List String :=
  [spec.ipRange, spec.ipv6Range]

/-- The webhook accepts the ranges. -/
def HeliosConfigSpec.ValidRanges (spec : HeliosConfigSpec) : Prop :=
  validateIPRange spec.ipRange = .ok () ∧
    (spec.ipv6Range ≠ "" → validateIPRange spec.ipv6Range = .ok ())

instance (spec : HeliosConfigSpec) : Decidable spec.ValidRanges :=
  inferInstanceAs (Decidable (_ ∧ _))

/-- **No address is allocatable from a range of the one and from a range of the other.** -/
def HeliosConfigSpec.Disjoint (spec spec' : HeliosConfigSpec) : Prop :=
  ∀ r ∈ spec.ranges, ∀ r' ∈ spec'.ranges, ∀ ip,
    ¬ (ipAllocatable ip r = true ∧ ipAllocatable ip r' = true)

theorem rangesMeet_empty (r : String) : rangesMeet r "" = false := by
  rw [Bool.eq_false_iff]
  intro h
  obtain ⟨_, _, _, _, _, hr, _⟩ := rangesMeet_iff.mp h
  rw [parseIPRange_empty] at hr
  cases hr

/-- A valid range, or none: then sharing no address is not meeting. -/
theorem disjoint_iff_not_meet {r r' : String} (hr : r ≠ "" → validateIPRange r = .ok ())
    (hr' : r' ≠ "" → validateIPRange r' = .ok ()) :
    (∀ ip, ¬ (ipAllocatable ip r = true ∧ ipAllocatable ip r' = true)) ↔
      rangesMeet r r' = false := by
  constructor
  · intro h
    by_cases he : r = ""
    · rw [he, rangesMeet_comm, rangesMeet_empty]
    by_cases he' : r' = ""
    · rw [he', rangesMeet_empty]
    rw [Bool.eq_false_iff]
    intro hm
    obtain ⟨ip, ha⟩ := (exists_allocatable_both_iff (validateIPRange_ordered (hr he))
      (validateIPRange_ordered (hr' he'))).mpr hm
    exact h ip ha
  · intro h ip ha
    rw [not_allocatable_both h ha.1] at ha
    cases ha.2

theorem HeliosConfigSpec.disjoint_iff {spec spec' : HeliosConfigSpec} (h : spec.ValidRanges)
    (h' : spec'.ValidRanges) : spec.Disjoint spec' ↔
      (rangesMeet spec.ipRange spec'.ipRange = false ∧
        rangesMeet spec.ipRange spec'.ipv6Range = false) ∧
      rangesMeet spec.ipv6Range spec'.ipRange = false ∧
        rangesMeet spec.ipv6Range spec'.ipv6Range = false := by
  have h4 : spec.ipRange ≠ "" → validateIPRange spec.ipRange = .ok () := fun _ => h.1
  have h4' : spec'.ipRange ≠ "" → validateIPRange spec'.ipRange = .ok () := fun _ => h'.1
  unfold HeliosConfigSpec.Disjoint HeliosConfigSpec.ranges
  simp only [List.forall_mem_cons, List.not_mem_nil, false_imp_iff, implies_true, and_true]
  rw [disjoint_iff_not_meet h4 h4', disjoint_iff_not_meet h4 h'.2, disjoint_iff_not_meet h.2 h4',
    disjoint_iff_not_meet h.2 h'.2]

/-- **What an accepted config shares with the existing ones**, whose names are not the excluded
    one: nothing, exactly if neither its `ipRange` meets their `ipv6Range` nor its `ipv6Range`
    their `ipRange`. -/
theorem overlap_admission_iff {items : List HeliosConfig} {hc : HeliosConfig}
    {excludeName : String} (hvalid : ∀ existing ∈ items, existing.spec.ValidRanges)
    (hname : ∀ existing ∈ items, existing.key.name ≠ excludeName)
    (h : validateSpec (some .ok) items hc excludeName = .ok ()) :
    (∀ existing ∈ items, hc.spec.Disjoint existing.spec) ↔
      ∀ existing ∈ items, rangesMeet hc.spec.ipRange existing.spec.ipv6Range = false ∧
        rangesMeet hc.spec.ipv6Range existing.spec.ipRange = false := by
  obtain ⟨h4, h6, ho4, ho6⟩ := validateSpec_ok h
  refine forall₂_congr fun existing hm => ?_
  have hn := hname existing hm
  have m4 : rangesMeet hc.spec.ipRange existing.spec.ipRange = false :=
    overlapForRange_disjoint ho4 hm hn
  have m6 : rangesMeet hc.spec.ipv6Range existing.spec.ipv6Range = false := by
    by_cases hne : hc.spec.ipv6Range = ""
    · rw [hne, rangesMeet_comm, rangesMeet_empty]
    · exact overlapForRange_disjoint (ho6 hne) hm hn
  rw [HeliosConfigSpec.disjoint_iff ⟨h4, h6⟩ (hvalid existing hm)]
  constructor
  · exact fun hd => ⟨hd.1.2, hd.2.1⟩
  · exact fun hd => ⟨⟨m4, hd.1⟩, hd.2, m6⟩

/-- A dual-stack config beside an IPv4 one. -/
theorem overlap_admission_dual_stack :
    let a : HeliosConfig := { key := ⟨"default", "a"⟩, spec := { ipRange := "10.0.0.0/24" } }
    let b : HeliosConfig :=
      { key := ⟨"default", "b"⟩, spec := { ipRange := "10.0.1.0/24", ipv6Range := "fd00::/120" } }
    validateCreate (some .ok) [a] b = .ok () ∧ ∀ existing ∈ [a], b.spec.Disjoint existing.spec := by
  intro a b
  have h : validateSpec (some .ok) [a] b "" = .ok () := by decide
  exact ⟨h, (overlap_admission_iff (by decide) (by decide) h).mpr (by decide)⟩

/-- **The same IPv6 block in `ipRange` here and in `ipv6Range` there is accepted.** -/
theorem overlap_admission_crossed :
    let a : HeliosConfig :=
      { key := ⟨"default", "a"⟩, spec := { ipRange := "10.0.0.0/24", ipv6Range := "fd00::/120" } }
    let b : HeliosConfig := { key := ⟨"default", "b"⟩, spec := { ipRange := "fd00::/120" } }
    a.spec.ValidRanges ∧ validateCreate (some .ok) [a] b = .ok () ∧
      ipAllocatable "fd00::5" b.spec.ipRange = true ∧
      ipAllocatable "fd00::5" a.spec.ipv6Range = true := by
  decide

/-! ## 2. The test on ranges of one family -/

/-- Both ends of the range normalise to `len` bytes. -/
def endsOfLength (len : Nat) (ipRange : String) : Bool :=
  match parseIPRange ipRange with
  | .ok (start, stop) => (normalizeIP start).length = len ∧ (normalizeIP stop).length = len
  | .error _ => false

/-- An accepted range with ends of that length. -/
def ValidOfLength (len : Nat) (ipRange : String) : Prop :=
  validateIPRange ipRange = .ok () ∧ endsOfLength len ipRange = true

instance (len : Nat) (ipRange : String) : Decidable (ValidOfLength len ipRange) :=
  inferInstanceAs (Decidable (_ ∧ _))

/-- Such a range is an interval of normalised addresses of that length. -/
theorem ValidOfLength.interval {len : Nat} {r : String} (h : ValidOfLength len r) :
    ∃ s e, parseIPRange r = .ok (s, e) ∧ s ≤ e ∧ s.length = len ∧ normalizeIP s = s ∧
      normalizeIP e = e := by
  obtain ⟨s, e, hr, hl, hle⟩ := validateIPRange_iff.mp h.1
  have hends := h.2
  unfold endsOfLength at hends
  rw [hr] at hends
  obtain ⟨hs, he⟩ := of_decide_eq_true hends
  have hns := parseIPRange_start_normal hr
  have haddr := parseIPRange_start_length hr
  rw [hns] at hs
  refine ⟨s, e, hr, hle, hs, hns, normalizeIP_of_length ?_ (by rw [he, ← hs, hl])⟩
  unfold IsAddr at haddr ⊢
  rwa [← hl]

/-- Two of them collide exactly if they share an address. -/
theorem collide_iff {len : Nat} {r r' : String} (h : ValidOfLength len r)
    (h' : ValidOfLength len r') :
    Collide r r' ↔ ∃ x, x.length = len ∧ Between r x ∧ Between r' x := by
  obtain ⟨s, e, hr, hle, hs, hns, hne⟩ := h.interval
  obtain ⟨s', e', hr', hle', hs', hns', hne'⟩ := h'.interval
  have hlen : (∃ x, x.length = len ∧ Between r x ∧ Between r' x) ↔
      ∃ x, Between r x ∧ Between r' x :=
    exists_congr fun x => and_iff_right_of_imp fun hx => ((between_iff hr).mp hx.1).1.trans hs
  rw [hlen, exists_between_both hr hr' (hs.trans hs'.symm) hle hle']
  simp [Collide, hr, hr', compareIPs, hns, hne, hns', hne', bytesCompare_ne_gt, bytesCompare_ne_lt]

/-- **`overlapForRange` is exact on ranges of one family**: it returns an error exactly if some
    config with another name than the excluded one has, in the field that is compared, a range
    that shares an address with the new one. -/
theorem overlapForRange_exact {len : Nat} {newRange excludeName : String}
    {items : List HeliosConfig} {useIPv6 : Bool}
    (hnew : newRange ≠ "" → ValidOfLength len newRange)
    (hitems : ∀ existing ∈ items, existing.key.name ≠ excludeName →
      comparedRange useIPv6 existing ≠ "" → ValidOfLength len (comparedRange useIPv6 existing)) :
    (∃ err, overlapForRange newRange excludeName items useIPv6 = .error err) ↔
      ∃ existing ∈ items, existing.key.name ≠ excludeName ∧
        comparedRange useIPv6 existing ≠ "" ∧
        ∃ x : IP, x.length = len ∧ Between newRange x ∧
          Between (comparedRange useIPv6 existing) x := by
  have herr : (∃ err, overlapForRange newRange excludeName items useIPv6 = .error err) ↔
      ¬ overlapForRange newRange excludeName items useIPv6 = .ok () := by
    cases overlapForRange newRange excludeName items useIPv6 <;> simp
  rw [herr, overlapForRange_ok_iff]
  simp only [not_forall, not_not, exists_prop]
  refine exists_congr fun existing => and_congr_right fun hm => and_congr_right fun hx => ?_
  -- an empty text on either side neither collides nor has an address
  by_cases hn : newRange = ""
  · exact iff_of_false (fun hc => hc.nonempty.1 hn) fun h => by
      obtain ⟨_, x, _, hb, _⟩ := h
      exact hb.nonempty hn
  by_cases he : comparedRange useIPv6 existing = ""
  · exact iff_of_false (fun hc => hc.nonempty.2 he) fun h => h.1 he
  rw [collide_iff (hnew hn) (hitems existing hm hx he)]
  exact (and_iff_right he).symm

/-- A range over the edge of two existing ones, a CIDR and a pair of ends. -/
theorem overlapForRange_exact_edge :
    let a : HeliosConfig := { key := ⟨"default", "a"⟩, spec := { ipRange := "10.0.0.0/24" } }
    let b : HeliosConfig := { key := ⟨"shop", "b"⟩, spec := { ipRange := "10.0.1.0-10.0.1.9" } }
    ∃ err, overlapForRange "10.0.0.255-10.0.1.0" "" [a, b] false = .error err := by
  intro a b
  have hboth : Between "10.0.0.255-10.0.1.0" [10, 0, 1, 0] ∧
      Between (comparedRange false b) [10, 0, 1, 0] :=
    ⟨⟨[10, 0, 0, 255], [10, 0, 1, 0], by decide, rfl, by decide, by decide⟩,
      ⟨[10, 0, 1, 0], [10, 0, 1, 9], by decide, rfl, by decide, by decide⟩⟩
  exact (@overlapForRange_exact 4 _ _ _ _ (by decide) (by decide)).mpr
    ⟨b, by simp, by decide, by decide, [10, 0, 1, 0], rfl, hboth⟩

/-! ## 3. Histories of requests -/

/-- A request to store a config. -/
inductive AdmissionRequest where
  | create (hc : HeliosConfig)
  | update (hc : HeliosConfig)

/-- The stored configs after a request: the webhook sees all of them, and what it accepts is
    stored. -/
def review (S : Store HeliosConfig.key) : AdmissionRequest → Store HeliosConfig.key
  | .create hc => if validateCreate (some .ok) S.objects hc = .ok () then S.create hc else S
  | .update hc => if validateUpdate (some .ok) S.objects hc = .ok () then S.replace hc else S

/-- The excluded name is the name of no OTHER stored config. -/
def ExcludesNoOther (S : Store HeliosConfig.key) : AdmissionRequest → Prop
  | .create _ => ∀ c ∈ S, c.key.name ≠ ""
  | .update hc => ∀ c ∈ S, c.key ≠ hc.key → c.key.name ≠ hc.key.name

instance (S : Store HeliosConfig.key) : ∀ a, Decidable (ExcludesNoOther S a)
  | .create _ => inferInstanceAs (Decidable (∀ c ∈ S, c.key.name ≠ ""))
  | .update hc =>
    inferInstanceAs (Decidable (∀ c ∈ S, c.key ≠ hc.key → c.key.name ≠ hc.key.name))

/-- The `ipRange`s of any two stored configs do not meet. -/
def Apart (S : Store HeliosConfig.key) : Prop :=
  ∀ a ∈ S, ∀ b ∈ S, a.key ≠ b.key → rangesMeet a.spec.ipRange b.spec.ipRange = false

/-- Storing a config whose range meets none of the others. -/
theorem Apart.insert {S S' : Store HeliosConfig.key} {hc : HeliosConfig} (hS : Apart S)
    (hm : ∀ c ∈ S', c ∈ S ∨ c = hc)
    (hd : ∀ c ∈ S, c.key ≠ hc.key → rangesMeet hc.spec.ipRange c.spec.ipRange = false) :
    Apart S' := by
  intro a ha b hb hk
  rcases hm a ha with ha | rfl <;> rcases hm b hb with hb | rfl
  · exact hS a ha b hb hk
  · rw [rangesMeet_comm]
    exact hd a ha hk
  · exact hd b hb hk.symm
  · exact absurd rfl hk

/-- One request that excludes no other config. -/
theorem apart_review (S : Store HeliosConfig.key) (a : AdmissionRequest) (hS : Apart S)
    (h : ExcludesNoOther S a) : Apart (review S a) := by
  cases a with
  | create hc =>
      rw [review]
      split
      · rename_i hv
        have ho := (validateSpec_ok hv).2.2.1
        refine hS.insert (fun c hm => Store.mem_create hm) fun c hm _ => ?_
        exact overlapForRange_disjoint ho hm (h c hm)
      · exact hS
  | update hc =>
      rw [review]
      split
      · rename_i hv
        have ho := (validateSpec_ok hv).2.2.1
        have hmem : ∀ c ∈ S.replace hc, c ∈ S ∨ c = hc := by
          intro c hm
          rcases Store.mem_replace.mp hm with ⟨rfl, _⟩ | ⟨hm, _⟩
          · exact Or.inr rfl
          · exact Or.inl hm
        exact hS.insert hmem fun c hm hk => overlapForRange_disjoint ho hm (h c hm hk)
      · exact hS

/-- **Admission keeps the ranges of different configs apart**, over every history of creations
    and updates in which no request excludes another config: after it no address is allocatable
    from the `ipRange` of two configs that differ in namespace or name. -/
theorem admission_keeps_apart {requests : List AdmissionRequest}
    (h : Along review ExcludesNoOther Store.empty requests) :
    ∀ a ∈ run review Store.empty requests, ∀ b ∈ run review Store.empty requests,
      a.key ≠ b.key → ∀ ip, ¬ (ipAllocatable ip a.spec.ipRange = true ∧
        ipAllocatable ip b.spec.ipRange = true) := by
  have h₀ : Apart Store.empty := fun a ha => absurd ha List.not_mem_nil
  have hS := run_inv review apart_review h₀ h
  intro a ha b hb hk ip hip
  rw [not_allocatable_both (hS a ha b hb hk) hip.1] at hip
  cases hip.2

/-- Two configs with one name, and updates of others. -/
theorem admission_keeps_apart_updates :
    let a : HeliosConfig := { key := ⟨"default", "a"⟩, spec := { ipRange := "10.0.0.0/24" } }
    let b : HeliosConfig := { key := ⟨"shop", "a"⟩, spec := { ipRange := "10.0.1.0/24" } }
    let c : HeliosConfig := { key := ⟨"shop", "c"⟩, spec := { ipRange := "10.0.2.1-10.0.2.9" } }
    let c' : HeliosConfig := { key := ⟨"shop", "c"⟩, spec := { ipRange := "10.0.2.7-10.0.3.0" } }
    let S := run review Store.empty [.create a, .create b, .create c, .update c']
    S.objects.map (fun hc => hc.spec.ipRange) =
        ["10.0.0.0/24", "10.0.1.0/24", "10.0.2.7-10.0.3.0"] ∧
      ∀ x ∈ S, ∀ y ∈ S, x.key ≠ y.key → ∀ ip, ¬ (ipAllocatable ip x.spec.ipRange = true ∧
        ipAllocatable ip y.spec.ipRange = true) := by
  intro a b c c' S
  exact ⟨by decide, admission_keeps_apart (by decide)⟩

/-- **An update may move a config onto the range of one with its name in another namespace.** -/
theorem admission_overlaps_same_name :
    let a : HeliosConfig := { key := ⟨"default", "a"⟩, spec := { ipRange := "10.0.0.0/24" } }
    let b : HeliosConfig := { key := ⟨"shop", "a"⟩, spec := { ipRange := "10.0.1.0/24" } }
    let b' : HeliosConfig := { key := ⟨"shop", "a"⟩, spec := { ipRange := "10.0.0.0/24" } }
    let S := run review Store.empty [.create a, .create b, .update b']
    S.objects = [a, b'] ∧ a.key ≠ b'.key ∧ ipAllocatable "10.0.0.5" a.spec.ipRange = true ∧
      ipAllocatable "10.0.0.5" b'.spec.ipRange = true := by
  exact ⟨rfl, by decide, by decide, by decide⟩

end HeliosLB
