/-
  File:      HeliosLB/System/StaleReads.lean
  Subject:   PASSES OVER DIFFERENT CONFIGS THAT SERVE ONE SERVICE, call by call, with lagging reads.

  Here a pass is not one step: its calls are, and those of the other passes fall between them. A
  read returns any version of the Service, a write needs the latest one, and a conflict sends the
  closure of `assignIPToService` back to its `Get`. Eligibility is tested on the LISTED copy; the
  ingress is written to the FETCHED one, whatever it shows.

  * `Point`, `Pass`, `Race` -- where each pass stands, and what all of them share;
  * `Move`, `Race.step` -- one call of one pass, or somebody else's write;
  * `Race.attempt_alone` -- with nobody between, the calls of the closure store what `assignAttempt`
    stores;
  * `Move.careful` -- a status write goes out from a copy with no ingress but the pass's own;
  * `Race.Safe`, `Race.safe_step` -- the invariant of careful runs;
  * **`assignment_kept`** -- in a careful run no pass replaces the ingress of another, and the
    Service is recorded by one config at most;
  * **`assignment_replaced`** -- the source sends the write from a copy with another's ingress.
-/
import HeliosLB.Controller.ReconcileSpec
import HeliosLB.Lib.Runs
import HeliosLB.Lib.Versioned
import Mathlib.Logic.Function.Basic

namespace HeliosLB

open Lib

/-! ## 1. The passes and their calls -/

/-- Where a pass stands with the Service: before its list, with the copy it listed, with the
    addresses it drew and the retries it has left, with the copy `Get` returned (and its version),
    after the status write, after both writes, or at its end. -/
inductive Point where
  | start
  | listed (svc : Service)
  | allocated (ip ipv6 : String) (left : Nat)
  | fetched (ip ipv6 : String) (left v : Nat) (svc : Service)
  | stored (ip ipv6 : String) (left v : Nat) (svc : Service)
  | assigned (svc : Service) (ip ipv6 : String)
  | done

/-- A pass: its config in memory and where it stands. -/
structure Pass where
  hc : HeliosConfig
  point : Point := .start

/-- The Service with its versions, the pool, and the passes. -/
structure Race (ι : Type) where
  service : Versioned Service
  pool : IPAllocator
  pass : ι → Pass

/-- One call of pass `i`, with the version its read returns; or a write of somebody else: to the
    Service, but not to its status, or to the pool for another Service. -/
inductive Move (ι : Type) where
  | list (i : ι) (v : Nat) (configs : List HeliosConfig)
  | allocate (i : ι) (configs : List HeliosConfig)
  | get (i : ι) (v : Nat)
  | statusUpdate (i : ι)
  | update (i : ι)
  | record (i : ι) (r : WriteReply)
  | edit (annotations : StringMap) (spec : ServiceSpec)
  | pool (pool : IPAllocator)

namespace Race

variable {ι : Type} [DecidableEq ι]

/-- Pass `i` goes on as `p`. -/
def setPass (s : Race ι) (i : ι) (p : Pass) : Race ι :=
  { s with pass := Function.update s.pass i p }

/-- Pass `i` goes on to the point `p`. -/
def goto (s : Race ι) (i : ι) (p : Point) : Race ι := s.setPass i { s.pass i with point := p }

/-- A write met a newer version: the closure runs again, or the assignment fails and the
    addresses are put back. -/
def conflict (s : Race ι) (i : ι) (ip ipv6 : String) : Nat → Race ι
  | 0 => { s with pool := (ingressOf ip ipv6).foldl IPAllocator.releaseIP s.pool }.goto i .done
  | left + 1 => s.goto i (.allocated ip ipv6 left)

/-- The pass goes on to serve the copy it listed. -/
def serves (hc : HeliosConfig) (configs : List HeliosConfig) (svc : Service) : Bool :=
  eligible hc.spec.namespaceSelector hc.spec.ipRange [hc.spec.ipv6Range] svc &&
    StringMap.len (checkIPConflicts hc configs) = 0 && (checkQuota hc).isNone

/-- **One call.** A move that does not fit where its pass stands changes nothing. -/
def step (retries : Nat) (s : Race ι) : Move ι → Race ι
  | .list i v configs =>
    match (s.pass i).point, s.service.read v with
    | .start, some svc =>
      if serves (s.pass i).hc configs svc then s.goto i (.listed svc) else s.goto i .done
    | _, _ => s
  | .allocate i configs =>
    match (s.pass i).point with
    | .listed svc =>
      match drawAddresses (s.pass i).hc svc configs s.pool with
      | (.error _, pool) => { s with pool := pool }.goto i .done
      | (.ok (ip, ipv6), pool) => { s with pool := pool }.goto i (.allocated ip ipv6 retries)
    | _ => s
  | .get i v =>
    match (s.pass i).point, s.service.read v with
    | .allocated ip ipv6 left, some svc => s.goto i (.fetched ip ipv6 left v svc)
    | _, _ => s
  | .statusUpdate i =>
    match (s.pass i).point with
    | .fetched ip ipv6 left v svc =>
      -- the class set in the copy's spec is not stored by a status write
      let sent := written (s.pass i).hc.key ip ipv6 svc
      match s.service.write v fun stored =>
          { stored with annotations := sent.annotations, ingress := sent.ingress,
                        writer := sent.writer } with
      | none => s.conflict i ip ipv6 left
      | some service =>
        { s with service := service }.goto i
          (.stored ip ipv6 left service.version service.current)
    | _ => s
  | .update i =>
    match (s.pass i).point with
    | .stored ip ipv6 left v svc =>
      match s.service.write v fun stored =>
          { stored with annotations := svc.annotations, spec := svc.spec } with
      | none => s.conflict i ip ipv6 left
      | some service => { s with service := service }.goto i (.assigned svc ip ipv6)
    | _ => s
  | .record i r =>
    match (s.pass i).point with
    | .assigned svc ip ipv6 =>
      if r.stored then s.setPass i ⟨servedConfig (s.pass i).hc svc ip ipv6, .done⟩
      else s.goto i .done
    | _ => s
  | .edit annotations spec =>
    { s with service := s.service.push { s.service.current with annotations, spec } }
  | .pool pool => { s with pool := pool }

variable {s : Race ι} {i j : ι}

@[simp] theorem setPass_service (s : Race ι) (i : ι) (p : Pass) :
    (s.setPass i p).service = s.service := rfl

@[simp] theorem setPass_self (s : Race ι) (i : ι) (p : Pass) : (s.setPass i p).pass i = p := by
  show Function.update s.pass i p i = p
  rw [Function.update_self]

theorem setPass_ne (h : j ≠ i) (p : Pass) : (s.setPass i p).pass j = s.pass j := by
  show Function.update s.pass i p j = s.pass j
  rw [Function.update_of_ne h]

@[simp] theorem goto_service (s : Race ι) (i : ι) (p : Point) : (s.goto i p).service = s.service :=
  rfl

@[simp] theorem goto_self (s : Race ι) (i : ι) (p : Point) :
    (s.goto i p).pass i = ⟨(s.pass i).hc, p⟩ := setPass_self s i _

/-! ## 2. The closure, undisturbed -/

theorem step_get (retries : Nat) {ip ipv6 : String} {left v : Nat} {svc : Service}
    (h : (s.pass i).point = .allocated ip ipv6 left) (hv : s.service.read v = some svc) :
    s.step retries (.get i v) = s.goto i (.fetched ip ipv6 left v svc) := by
  rw [step, h, hv]

/-- A status write from the latest version stores the ingress. -/
theorem step_statusUpdate (retries : Nat) (ip ipv6 : String) (left : Nat)
    (h : (s.pass i).point = .fetched ip ipv6 left s.service.version s.service.current) :
    s.step retries (.statusUpdate i) =
      { s with service := s.service.push (written (s.pass i).hc.key ip ipv6
          s.service.current) }.goto i (.stored ip ipv6 left (s.service.version + 1)
            (written (s.pass i).hc.key ip ipv6 s.service.current)) := by
  rw [step, h]
  simp only
  rw [Versioned.write_version]
  simp only [Versioned.version_push, Versioned.push_current]
  rfl

/-- The plain write of what the status write handed back changes nothing but the version. -/
theorem step_update (retries : Nat) (ip ipv6 : String) (left : Nat)
    (h : (s.pass i).point = .stored ip ipv6 left s.service.version s.service.current) :
    s.step retries (.update i) =
      { s with service := s.service.push s.service.current }.goto i
        (.assigned s.service.current ip ipv6) := by
  rw [step, h]
  simp only
  rw [Versioned.write_version]

/-- **With nobody between**, the three calls of the closure leave the Service as `assignAttempt`
    leaves it, and the pass with its assignment done. -/
theorem attempt_alone (retries : Nat) {ip ipv6 : String} {left : Nat}
    (h : (s.pass i).point = .allocated ip ipv6 left) {c : Cluster}
    (hf : c.services.find s.service.current.key = some s.service.current) :
    let s' := run (step retries) s [.get i s.service.version, .statusUpdate i, .update i]
    (assignAttempt (s.pass i).hc.key s.service.current ip ipv6 c {}).cluster.services.find
        s.service.current.key = some s'.service.current ∧
      (s'.pass i).point = .assigned s'.service.current ip ipv6 := by
  simp only [run_cons, run_nil]
  rw [step_get retries h (Versioned.read_version _),
    step_statusUpdate retries ip ipv6 left (by simp),
    step_update retries ip ipv6 left (by simp), assignAttempt_of_find _ _ _ hf]
  simp only [goto_service, goto_self, Versioned.push_current]
  exact ⟨Cluster.assigned_find hf _ ip ipv6, trivial⟩

end Race

/-! ## 3. Careful runs -/

/-- The copy a status write would go out from, with its version. -/
def Point.copy : Point → Option (Nat × Service)
  | .fetched _ _ _ v svc => some (v, svc)
  | _ => none

/-- The pass has stored its ingress and is not on its way to store it again. -/
def Point.committed : Point → Bool
  | .stored .. | .assigned .. => true
  | _ => false

/-- The copy at hand is unassigned, or shows the pass's own ingress. -/
def Pass.careful (p : Pass) : Bool :=
  match p.point.copy with
  | some (_, svc) => svc.ingress = [] ∨ svc.writer = some p.hc.key
  | none => true

/-- **A careful call**: no status write goes out from a copy with the ingress of another. The
    source makes no such test. -/
def Move.careful {ι : Type} (s : Race ι) : Move ι → Bool
  | .statusUpdate i => (s.pass i).careful
  | _ => true

namespace Race

variable {ι : Type} {s : Race ι} {i j : ι} {name : String}

/-- Some version of the Service shows the ingress of pass `i`. -/
def Committed (s : Race ι) (i : ι) : Prop :=
  ∃ svc ∈ s.service.versions, svc.writer = some (s.pass i).hc.key

/-- **The invariant of careful runs.** A copy at hand is the version it is said to be; the ingress
    of a pass is not empty and, once stored, stays; nobody records the Service without it. -/
structure Safe (name : String) (s : Race ι) : Prop where
  keys : ∀ i j, (s.pass i).hc.key = (s.pass j).hc.key → i = j
  copies : ∀ i v svc, (s.pass i).point.copy = some (v, svc) → s.service.read v = some svc
  shown : ∀ i, ∀ svc ∈ s.service.versions, svc.writer = some (s.pass i).hc.key → svc.ingress ≠ []
  kept : ∀ i, s.Committed i → s.service.current.writer = some (s.pass i).hc.key
  stored : ∀ i, (s.pass i).point.committed = true → s.Committed i
  recorded : ∀ i, name ∈ (s.pass i).hc.status.allocatedIPs → s.Committed i

/-- The passes have not begun, their configs differ, no version of the Service shows an ingress
    of theirs, and no status has its name. -/
structure Fresh (name : String) (s : Race ι) : Prop where
  keys : ∀ i j, (s.pass i).hc.key = (s.pass j).hc.key → i = j
  start : ∀ i, (s.pass i).point = .start
  unassigned : ∀ i, ∀ svc ∈ s.service.versions, svc.writer ≠ some (s.pass i).hc.key
  unrecorded : ∀ i, name ∉ (s.pass i).hc.status.allocatedIPs

theorem Fresh.safe (h : Fresh name s) : Safe name s where
  keys := h.keys
  copies i v svc hv := by
    rw [h.start i] at hv
    cases hv
  shown i svc hs hw := absurd hw (h.unassigned i svc hs)
  kept i hi := by
    obtain ⟨svc, hs, hw⟩ := hi
    exact absurd hw (h.unassigned i svc hs)
  stored i hi := by
    rw [h.start i] at hi
    cases hi
  recorded i hi := absurd hi (h.unrecorded i)

/-- One pass at most has its ingress stored. -/
theorem Safe.unique (h : Safe name s) (hi : s.Committed i) (hj : s.Committed j) : i = j := by
  have e := (h.kept i hi).symm.trans (h.kept j hj)
  exact h.keys i j (Option.some.inj e)

/-- The invariant does not look at the pool. -/
theorem Safe.withPool (h : Safe name s) (pool : IPAllocator) :
    Safe name { s with pool := pool } :=
  ⟨h.keys, h.copies, h.shown, h.kept, h.stored, h.recorded⟩

theorem committed_push {svc : Service} :
    Committed { s with service := s.service.push svc } i ↔
      s.Committed i ∨ svc.writer = some (s.pass i).hc.key := by
  unfold Committed
  constructor
  · intro h
    obtain ⟨x, hx, hw⟩ := h
    rcases Versioned.mem_versions_push.mp hx with hx | rfl
    · exact Or.inl ⟨x, hx, hw⟩
    · exact Or.inr hw
  · intro h
    rcases h with ⟨x, hx, hw⟩ | hw
    · exact ⟨x, Versioned.mem_versions_push.mpr (Or.inl hx), hw⟩
    · exact ⟨svc, Versioned.mem_versions_push.mpr (Or.inr rfl), hw⟩

/-- **A new version** keeps the invariant if it shows an ingress for its writer and every pass
    that has its ingress stored is that writer. -/
theorem Safe.push (h : Safe name s) {svc : Service}
    (hs : ∀ i, svc.writer = some (s.pass i).hc.key → svc.ingress ≠ [])
    (hk : ∀ i, s.Committed i → svc.writer = some (s.pass i).hc.key) :
    Safe name { s with service := s.service.push svc } where
  keys := h.keys
  copies i v x hx := Versioned.read_push (h.copies i v x hx)
  shown i x hx hw := by
    rcases Versioned.mem_versions_push.mp hx with hx | rfl
    · exact h.shown i x hx hw
    · exact hs i hw
  kept i hi := by
    rcases committed_push.mp hi with hi | hw
    · exact hk i hi
    · exact hw
  stored i hi := committed_push.mpr (Or.inl (h.stored i hi))
  recorded i hi := committed_push.mpr (Or.inl (h.recorded i hi))

/-- A write that leaves the ingress alone. -/
theorem Safe.pushQuiet (h : Safe name s) (annotations : StringMap) (spec : ServiceSpec) :
    Safe name { s with
      service := s.service.push { s.service.current with annotations, spec } } :=
  h.push (fun i hw => h.shown i s.service.current s.service.current_mem hw) h.kept

/-- **The ingress of pass `i`**, stored while no other pass has its own stored. -/
theorem Safe.pushWritten (h : Safe name s) (ip ipv6 : String) (svc : Service)
    (hi : ∀ j, s.Committed j → j = i) :
    Safe name { s with service := s.service.push (written (s.pass i).hc.key ip ipv6 svc) } := by
  refine h.push (fun _ _ => ingressOf_ne_nil ip ipv6) fun j hj => ?_
  rw [hi j hj, written_writer]

/-- Before a careful status write that succeeds, no other pass has its ingress stored: the copy is
    the latest version. -/
theorem Safe.committed_of_careful (h : Safe name s) {ip ipv6 : String} {left : Nat} {svc : Service}
    (hp : (s.pass i).point = .fetched ip ipv6 left s.service.version svc)
    (hc : (s.pass i).careful = true) : ∀ j, s.Committed j → j = i := by
  intro j hj
  have hcopy : (s.pass i).point.copy = some (s.service.version, svc) := by rw [hp, Point.copy]
  have hcur : s.service.current = svc :=
    Versioned.current_of_read (h.copies i _ _ hcopy)
  unfold Pass.careful at hc
  rw [hcopy] at hc
  have hw := h.kept j hj
  rcases of_decide_eq_true hc with he | he
  · exact absurd (hcur ▸ he) (h.shown j _ s.service.current_mem hw)
  · rw [hcur, he] at hw
    exact (h.keys i j (Option.some.inj hw)).symm

variable [DecidableEq ι]

theorem setPass_key {q : Pass} (hq : q.hc.key = (s.pass i).hc.key) (j : ι) :
    ((s.setPass i q).pass j).hc.key = (s.pass j).hc.key := by
  by_cases h : j = i
  · rw [h, setPass_self, hq]
  · rw [setPass_ne h]

theorem committed_setPass {q : Pass} (hq : q.hc.key = (s.pass i).hc.key) :
    (s.setPass i q).Committed j ↔ s.Committed j := by
  unfold Committed
  rw [setPass_key hq, setPass_service]

/-- **A pass goes on**: what it then holds and records has to be there. -/
theorem Safe.setPass (h : Safe name s) {q : Pass} (hq : q.hc.key = (s.pass i).hc.key)
    (hcopy : ∀ v svc, q.point.copy = some (v, svc) → s.service.read v = some svc)
    (hstored : q.point.committed = true → s.Committed i)
    (hrec : name ∈ q.hc.status.allocatedIPs → s.Committed i) : Safe name (s.setPass i q) where
  keys a b hab := by
    rw [setPass_key hq, setPass_key hq] at hab
    exact h.keys a b hab
  copies j v svc hv := by
    by_cases hj : j = i
    · rw [hj, setPass_self] at hv
      exact hcopy v svc hv
    · rw [setPass_ne hj] at hv
      exact h.copies j v svc hv
  shown j svc hs hw := by
    rw [setPass_key hq] at hw
    exact h.shown j svc hs hw
  kept j hj := by
    rw [setPass_key hq]
    exact h.kept j ((committed_setPass hq).mp hj)
  stored j hj := by
    rw [committed_setPass hq]
    by_cases hji : j = i
    · rw [hji, setPass_self] at hj
      exact hji ▸ hstored hj
    · rw [setPass_ne hji] at hj
      exact h.stored j hj
  recorded j hj := by
    rw [committed_setPass hq]
    by_cases hji : j = i
    · rw [hji, setPass_self] at hj
      exact hji ▸ hrec hj
    · rw [setPass_ne hji] at hj
      exact h.recorded j hj

theorem Safe.goto (h : Safe name s) {p : Point}
    (hcopy : ∀ v svc, p.copy = some (v, svc) → s.service.read v = some svc)
    (hstored : p.committed = true → s.Committed i) : Safe name (s.goto i p) :=
  h.setPass rfl hcopy hstored (h.recorded i)

/-- To a point without a copy and before the status write. -/
theorem Safe.gotoPlain (h : Safe name s) {p : Point} (hp : p.copy = none)
    (hc : p.committed = false) : Safe name (s.goto i p) :=
  h.goto (fun _ _ hv => nomatch hp.symm.trans hv) fun h => nomatch hc.symm.trans h

theorem Safe.conflict (h : Safe name s) (ip ipv6 : String) (left : Nat) :
    Safe name (s.conflict i ip ipv6 left) := by
  cases left with
  | zero => exact (h.withPool _).gotoPlain rfl rfl
  | succ left => exact h.gotoPlain rfl rfl

/-! ## 4. Every careful call keeps the invariant -/

theorem Safe.statusUpdate (retries : Nat) (h : Safe name s) (hc : (s.pass i).careful = true) :
    Safe name (s.step retries (.statusUpdate i)) := by
  rw [step]
  cases hp : (s.pass i).point with
  | fetched ip ipv6 left v svc =>
      simp only
      split
      · exact h.conflict ip ipv6 left
      · next service hw =>
          -- the write succeeded, so the copy it went out from is the Service as it is
          obtain ⟨rfl, rfl⟩ := Versioned.write_eq_some hw
          have hcopy := h.copies i s.service.version svc (by rw [hp, Point.copy])
          have hcur := Versioned.current_of_read hcopy
          subst hcur
          have hs := h.pushWritten ip ipv6 s.service.current (h.committed_of_careful hp hc)
          refine hs.goto (fun _ _ hv => nomatch hv) fun _ => ?_
          exact ⟨_, Versioned.current_mem _, rfl⟩
  | _ => exact h

theorem Safe.update (retries : Nat) (h : Safe name s) :
    Safe name (s.step retries (.update i)) := by
  rw [step]
  cases hp : (s.pass i).point with
  | stored ip ipv6 left v svc =>
      simp only
      split
      · exact h.conflict ip ipv6 left
      · next service hw =>
          obtain ⟨rfl, rfl⟩ := Versioned.write_eq_some hw
          have hi : s.Committed i := h.stored i (by rw [hp, Point.committed])
          exact (h.pushQuiet svc.annotations svc.spec).goto (fun _ _ hv => nomatch hv) fun _ =>
            committed_push.mpr (Or.inl hi)
  | _ => exact h

/-- **Every careful call keeps the invariant.** -/
theorem safe_step (retries : Nat) (s : Race ι) (m : Move ι) (h : Safe name s)
    (hc : m.careful s = true) : Safe name (s.step retries m) := by
  cases m with
  | list i v configs =>
      rw [step]
      split
      · split
        · exact h.gotoPlain rfl rfl
        · exact h.gotoPlain rfl rfl
      · exact h
  | allocate i configs =>
      rw [step]
      split
      · split
        · exact (h.withPool _).gotoPlain rfl rfl
        · exact (h.withPool _).gotoPlain rfl rfl
      · exact h
  | get i v =>
      rw [step]
      split
      · next ip ipv6 left svc _ hv =>
          refine h.goto (fun v' svc' hv' => ?_) fun hc => nomatch hc
          obtain ⟨rfl, rfl⟩ := Prod.mk.inj (Option.some.inj hv')
          exact hv
      · exact h
  | statusUpdate i => exact h.statusUpdate retries hc
  | update i => exact h.update retries
  | record i r =>
      rw [step]
      split
      · next svc ip ipv6 hp =>
          have hi : s.Committed i := h.stored i (by rw [hp, Point.committed])
          split
          · exact h.setPass rfl (fun _ _ hv => nomatch hv) (fun hc => nomatch hc) fun _ => hi
          · exact h.gotoPlain rfl rfl
      · exact h
  | edit annotations spec => exact h.pushQuiet annotations spec
  | pool pool => exact h.withPool pool

end Race

/-- **No assignment is replaced in a careful run**, however the calls of the passes fall between
    each other, whatever versions the reads return and how often a conflict is retried: if some
    version of the Service shows the ingress of a pass, the present one does, and no two configs
    record the Service. -/
theorem assignment_kept {ι : Type} [DecidableEq ι] (retries : Nat) {name : String} {s : Race ι}
    (hs : s.Fresh name) {moves : List (Move ι)}
    (hc : Along (Race.step retries) (fun s m => m.careful s = true) s moves) :
    let s' := run (Race.step retries) s moves
    (∀ i, s'.Committed i → s'.service.current.ingress ≠ [] ∧
        s'.service.current.writer = some (s'.pass i).hc.key) ∧
      ∀ i j, name ∈ (s'.pass i).hc.status.allocatedIPs →
        name ∈ (s'.pass j).hc.status.allocatedIPs → i = j := by
  have h := run_inv _ (Race.safe_step retries) hs.safe hc
  refine ⟨fun i hi => ?_, fun i j hi hj => h.unique (h.recorded i hi) (h.recorded j hj)⟩
  exact ⟨h.shown i _ (Versioned.current_mem _) (h.kept i hi), h.kept i hi⟩

/-- The second pass lists and fetches the Service as it was before the first one wrote it; its write
    meets a conflict twice and gives up. -/
theorem assignment_kept_conflict :
    let web : Service := { key := ⟨"shop", "web"⟩, spec := { type := .loadBalancer } }
    let blue : HeliosConfig :=
      { key := ⟨"default", "blue"⟩, spec := { ipRange := "10.0.0.1-10.0.0.9" } }
    let green : HeliosConfig :=
      { key := ⟨"default", "green"⟩, spec := { ipRange := "10.0.1.1-10.0.1.9" } }
    let s : Race Bool := ⟨⟨[], web⟩, newIPAllocator, fun i => ⟨if i then blue else green, .start⟩⟩
    let moves : List (Move Bool) :=
      [.list true 0 [blue, green], .list false 0 [blue, green], .allocate true [blue, green],
        .get true 0, .statusUpdate true, .allocate false [blue, green], .get false 0, .update true,
        .statusUpdate false, .record true .ok, .get false 0, .statusUpdate false]
    let s' := run (Race.step 1) s moves
    s'.service.current.ingress = ["10.0.0.1"] ∧ s'.pool.used = {"10.0.0.1"} ∧
      s'.service.current.writer = some (s'.pass true).hc.key ∧
      "web" ∈ (s'.pass true).hc.status.allocatedIPs ∧
      "web" ∉ (s'.pass false).hc.status.allocatedIPs := by
  intro web blue green s moves
  have hs : s.Fresh "web" := ⟨by decide, fun _ => rfl, by decide, by decide⟩
  have hc : Along (Race.step 1) (fun s m => m.careful s = true) s moves := by decide
  have h := assignment_kept 1 hs hc
  have hweb : "web" ∈ ((run (Race.step 1) s moves).pass true).hc.status.allocatedIPs := by decide
  exact ⟨by decide, by decide, (h.1 true ⟨_, Versioned.current_mem _, by decide⟩).2, hweb,
    fun hj => nomatch h.2 true false hweb hj⟩

/-- **The second pass replaces the ingress of the first.** It lists the Service as it was before
    `blue` served it, and so does its first `Get`. The conflict makes it fetch the Service again,
    now with the ingress of `blue`; it writes its own over it, and both configs record `web`. No
    call of one pass falls between those of the other. -/
theorem assignment_replaced :
    let web : Service := { key := ⟨"shop", "web"⟩, spec := { type := .loadBalancer } }
    let blue : HeliosConfig :=
      { key := ⟨"default", "blue"⟩, spec := { ipRange := "10.0.0.1-10.0.0.9" } }
    let green : HeliosConfig :=
      { key := ⟨"default", "green"⟩, spec := { ipRange := "10.0.1.1-10.0.1.9" } }
    let s : Race Bool := ⟨⟨[], web⟩, newIPAllocator, fun i => ⟨if i then blue else green, .start⟩⟩
    let first : List (Move Bool) :=
      [.list true 0 [blue, green], .allocate true [blue, green], .get true 0, .statusUpdate true,
        .update true, .record true .ok]
    let second : List (Move Bool) :=
      [.list false 0 [blue, green], .allocate false [blue, green], .get false 0,
        .statusUpdate false, .get false 2, .statusUpdate false, .update false, .record false .ok]
    let s₁ := run (Race.step 4) s first
    let s₂ := run (Race.step 4) s₁ second
    s.Fresh "web" ∧ s₁.service.current.ingress = ["10.0.0.1"] ∧
      s₁.service.current.writer = some blue.key ∧ s₂.service.current.ingress = ["10.0.1.1"] ∧
      s₂.service.current.writer = some green.key ∧
      (s₂.pass true).hc.status.allocatedIPs.lookup "web" = some "10.0.0.1" ∧
      (s₂.pass false).hc.status.allocatedIPs.lookup "web" = some "10.0.1.1" := by
  intro web blue green s first second
  have hs : s.Fresh "web" := ⟨by decide, fun _ => rfl, by decide, by decide⟩
  exact ⟨hs, by decide, by decide, by decide, by decide, by decide, by decide⟩

end HeliosLB
