/-
  File:      HeliosLB/System/MapOrder.lean
  Subject:   THE ORDER IN WHICH MAPS ARE WALKED IS NOT SEEN.

  The statuses are Go maps, and `range` walks a map in an order of its own; the API server lists
  the configs in an order of its own. The model keeps both in lists. Two worlds are the same here
  if they differ in these orders only: what every action of operation does to them, and what every
  pass reports, is then the same too.

  * `HeliosConfig.Same`, `Cluster.Same`, `World.Same` -- the relation;
  * `markOthers_same`, `checkIPConflicts_same`, `releaseAll_same` -- the three places that walk a
    map: a set of marks, a number of keys, and writes that commute;
  * `reconcile_same` -- a pass: the same report, and worlds that are alike;
  * **`map_order_unseen`** -- whole runs.
-/
import HeliosLB.Lib.StoreRel
import HeliosLB.System.Operation

namespace HeliosLB

open Lib

/-! ## 1. The relation -/

/-- The config with its two maps exchanged. -/
def HeliosConfig.withMaps (hc : HeliosConfig) (m m6 : StringMap) : HeliosConfig :=
  { hc with status.allocatedIPs := m, status.allocatedIPv6s := m6 }

/-- **The configs differ in the order of map entries only.** -/
inductive HeliosConfig.Same (hc : HeliosConfig) : HeliosConfig → Prop where
  | maps {m m6 : StringMap} (h : hc.status.allocatedIPs.entries.Perm m.entries)
      (h6 : hc.status.allocatedIPv6s.entries.Perm m6.entries) : Same hc (hc.withMaps m m6)

/-- The Services are the same, and the configs under each key. -/
structure Cluster.Same (c c' : Cluster) : Prop where
  services : c'.services = c.services
  configs : Store.Rel HeliosConfig.Same c.configs c'.configs

structure World.Same (w w' : World) : Prop where
  cluster : w.cluster.Same w'.cluster
  pool : w'.pool = w.pool

namespace HeliosConfig.Same

variable {a b : HeliosConfig}

theorem refl (hc : HeliosConfig) : hc.Same hc := .maps (.refl _) (.refl _)

theorem symm (h : a.Same b) : b.Same a := by
  cases h with
  | maps h h6 =>
      have hback : a =
          (a.withMaps _ _).withMaps a.status.allocatedIPs a.status.allocatedIPv6s := rfl
      exact hback ▸ .maps h.symm h6.symm

theorem key (h : a.Same b) : b.key = a.key := by
  cases h
  rfl

theorem spec (h : a.Same b) : b.spec = a.spec := by
  cases h
  rfl

theorem deleting (h : a.Same b) : b.deleting = a.deleting := by
  cases h
  rfl

theorem finalizers (h : a.Same b) : b.finalizers = a.finalizers := by
  cases h
  rfl

theorem allocatedIPs (h : a.Same b) :
    a.status.allocatedIPs.entries.Perm b.status.allocatedIPs.entries := by
  cases h with
  | maps h h6 => exact h

theorem allocatedIPv6s (h : a.Same b) :
    a.status.allocatedIPv6s.entries.Perm b.status.allocatedIPv6s.entries := by
  cases h with
  | maps h h6 => exact h6

theorem recorded (h : a.Same b) : a.recorded.Perm b.recorded :=
  (h.allocatedIPs.map _).append (h.allocatedIPv6s.map _)

theorem releaseNames (h : a.Same b) : (releaseNames a).Perm (releaseNames b) :=
  ((h.allocatedIPs.map _).append (h.allocatedIPv6s.map _)).dedup

theorem len (h : a.Same b) :
    StringMap.len b.status.allocatedIPs = StringMap.len a.status.allocatedIPs :=
  ((h.allocatedIPs.map Sigma.fst).length_eq).symm

/-- A status write over alike configs. -/
theorem withStatus {s t : HeliosConfig} (hs : s.Same t) (h : a.Same b) :
    ({ s with status := a.status } : HeliosConfig).Same { t with status := b.status } := by
  cases hs with
  | maps _ _ =>
      cases h with
      | maps h h6 => exact .maps h h6

/-- A plain write over alike configs. -/
theorem withSpecOf {s t : HeliosConfig} (hs : s.Same t) (h : a.Same b) :
    ({ s with finalizers := a.finalizers, spec := a.spec } : HeliosConfig).Same
      { t with finalizers := b.finalizers, spec := b.spec } := by
  cases h with
  | maps _ _ =>
      cases hs with
      | maps h h6 => exact .maps h h6

theorem setCondition (h : a.Same b) (type : ConditionType) (status : ConditionStatus)
    (reason : Reason) (message : String) :
    (a.setCondition type status reason message).Same
      (b.setCondition type status reason message) := by
  cases h with
  | maps h h6 => exact .maps h h6

theorem addFinalizer (h : a.Same b) : (addFinalizer a).Same (addFinalizer b) := by
  cases h with
  | maps h h6 => exact .maps h h6

theorem removeFinalizer (h : a.Same b) : (removeFinalizer a).Same (removeFinalizer b) := by
  cases h with
  | maps h h6 => exact .maps h h6

theorem failed (h : a.Same b) (f : AllocFailure) : (failedConfig a f).Same (failedConfig b f) := by
  cases h with
  | maps h h6 => exact .maps h h6

theorem served (h : a.Same b) (svc : Service) (ip ipv6 : String) :
    (servedConfig a svc ip ipv6).Same (servedConfig b svc ip ipv6) := by
  cases h with
  | @maps m m6 h h6 =>
      have hmaps : servedConfig (a.withMaps m m6) svc ip ipv6 =
          (servedConfig a svc ip ipv6).withMaps (m.insert svc.key.name ip)
            (if ipv6 ≠ "" then m6.insert svc.key.name ipv6 else m6) := rfl
      rw [hmaps]
      refine .maps (AList.perm_insert h) ?_
      rw [servedConfig_allocatedIPv6s]
      split
      · exact AList.perm_insert h6
      · exact h6

end HeliosConfig.Same

theorem checkQuota_same {a b : HeliosConfig} (h : a.Same b) : checkQuota b = checkQuota a := by
  unfold checkQuota
  rw [h.spec, h.len]

theorem quotaEvent_same {a b : HeliosConfig} (h : a.Same b) : quotaEvent b = quotaEvent a := by
  unfold quotaEvent
  rw [h.spec, h.len]

/-! ## 2. Walking the maps -/

theorem Cluster.Same.exists_mem {c c' : Cluster} (h : c.Same c') {hc : HeliosConfig} :
    hc ∈ c.configs → ∃ hc' ∈ c'.configs, hc.Same hc' := h.configs.exists_mem

theorem Cluster.Same.symm {c c' : Cluster} (h : c.Same c') : c'.Same c :=
  ⟨h.services.symm, h.configs.symm fun _ _ => HeliosConfig.Same.symm⟩

theorem Cluster.Same.withConfigs {c c' : Cluster} (h : c.Same c')
    {C C' : Store HeliosConfig.key} (hC : Store.Rel HeliosConfig.Same C C') :
    ({ c with configs := C } : Cluster).Same { c' with configs := C' } := ⟨h.services, hC⟩

theorem Cluster.Same.withServices {c c' : Cluster} (h : c.Same c') (S : Store Service.key) :
    ({ c with services := S } : Cluster).Same { c' with services := S } := ⟨rfl, h.configs⟩

/-- **The marks are a set.** -/
theorem markOthers_same {a b : HeliosConfig} {c c' : Cluster} (h : a.Same b) (hc : c.Same c')
    (pool : IPAllocator) :
    markOthers b pool c'.configs.objects = markOthers a pool c.configs.objects := by
  have hsub : ∀ {a b : HeliosConfig} {c c' : Cluster}, a.Same b → c.Same c' → ∀ x,
      x ∈ recordedByOthers a c.configs.objects → x ∈ recordedByOthers b c'.configs.objects := by
    intro a b c c' h hc x hx
    obtain ⟨other, hm, hne, hr⟩ := mem_recordedByOthers.mp hx
    obtain ⟨other', hm', hs⟩ := hc.exists_mem hm
    refine mem_recordedByOthers.mpr ⟨other', hm', ?_, hs.recorded.mem_iff.mp hr⟩
    rw [hs.key, h.key]
    exact hne
  refine IPAllocator.ext_used (by simp) fun x => ?_
  rw [mem_markOthers, mem_markOthers]
  exact or_congr_right ⟨hsub h.symm hc.symm x, hsub h hc x⟩

/-- **The conflicts are counted by address.** -/
theorem checkIPConflicts_same {a b : HeliosConfig} {c c' : Cluster} (h : a.Same b)
    (hc : c.Same c') : StringMap.len (checkIPConflicts b c'.configs.objects) =
      StringMap.len (checkIPConflicts a c.configs.objects) := by
  have hsub : ∀ {a b : HeliosConfig} {c c' : Cluster}, a.Same b → c.Same c' → ∀ x,
      x ∈ checkIPConflicts a c.configs.objects → x ∈ checkIPConflicts b c'.configs.objects := by
    intro a b c c' h hc x hx
    obtain ⟨other, hm, hne, hcomp⟩ := mem_checkIPConflicts.mp hx
    obtain ⟨other', hm', hs⟩ := hc.exists_mem hm
    refine mem_checkIPConflicts.mpr ⟨other', hm', ?_, ?_⟩
    · rw [hs.key, h.key]
      exact hne
    · unfold Compared at hcomp ⊢
      rw [h.spec]
      exact hcomp.imp (And.imp_left (hs.allocatedIPs.map Sigma.snd).mem_iff.mp)
        (And.imp_right (And.imp_left (hs.allocatedIPv6s.map Sigma.snd).mem_iff.mp))
  unfold StringMap.len
  refine List.Perm.length_eq
    ((List.perm_ext_iff_of_nodup (AList.nodupKeys _) (AList.nodupKeys _)).mpr
    fun x => ?_)
  exact ⟨hsub h.symm hc.symm x, hsub h hc x⟩

theorem conflictedConfig_same {a b : HeliosConfig} (h : a.Same b) {m m' : StringMap}
    (hlen : StringMap.len m' = StringMap.len m) :
    (conflictedConfig a m).Same (conflictedConfig b m') := by
  unfold conflictedConfig
  rw [hlen]
  exact h.setCondition _ _ _ _

/-- One name of the release, in one equation. -/
theorem clearIngress_eq (ns : String) (c : Cluster) (name : String) (r : ReleaseReplies) :
    clearIngress ns c name r =
      if r.get = .ok ∧ r.statusUpdate.stored = true then
        match c.services.find ⟨ns, name⟩ with
        | none => c
        | some svc => { c with services := c.services.replace svc.cleared }
      else c := by
  unfold clearIngress
  obtain ⟨get, statusUpdate⟩ := r
  cases get with
  | failed e => rfl
  | ok =>
      cases hf : c.services.find ⟨ns, name⟩ with
      | none => simp
      | some svc =>
          have hk : ({ svc with ingress := [], writer := none } : Service).key = ⟨ns, name⟩ :=
            (Store.find_eq_some.mp hf).2
          simp only
          rw [Cluster.updateServiceStatus_of_find hk hf]
          cases statusUpdate <;> rfl

/-- **The writes of a release commute.** -/
theorem clearIngress_comm {ns n m : String} (hne : n ≠ m) (c : Cluster) (rn rm : ReleaseReplies) :
    clearIngress ns (clearIngress ns c n rn) m rm =
      clearIngress ns (clearIngress ns c m rm) n rn := by
  by_cases hn : rn.get = .ok ∧ rn.statusUpdate.stored = true
  · by_cases hm : rm.get = .ok ∧ rm.statusUpdate.stored = true
    · simp only [clearIngress_eq, if_pos hn, if_pos hm]
      have hkey : (⟨ns, n⟩ : NamespacedName) ≠ ⟨ns, m⟩ := fun e => hne (congrArg (·.name) e)
      cases hfn : c.services.find ⟨ns, n⟩ with
      | none =>
          cases hfm : c.services.find ⟨ns, m⟩ with
          | none => simp only [hfn]
          | some t =>
              have ht : t.cleared.key ≠ ⟨ns, n⟩ := (Store.find_eq_some.mp hfm).2.trans_ne hkey.symm
              simp only [Store.find_replace_ne ht, hfn]
      | some s =>
          have hs : s.cleared.key ≠ ⟨ns, m⟩ := (Store.find_eq_some.mp hfn).2.trans_ne hkey
          cases hfm : c.services.find ⟨ns, m⟩ with
          | none => simp only [Store.find_replace_ne hs, hfm, hfn]
          | some t =>
              have ht : t.cleared.key ≠ ⟨ns, n⟩ := (Store.find_eq_some.mp hfm).2.trans_ne hkey.symm
              have hst : s.cleared.key ≠ t.cleared.key := fun e =>
                hs (e.trans (Store.find_eq_some.mp hfm).2)
              simp only [Store.find_replace_ne hs, Store.find_replace_ne ht, hfm, hfn,
                Store.replace_comm hst]
    · simp only [clearIngress_eq _ _ m, if_neg hm]
  · simp only [clearIngress_eq _ _ n, if_neg hn]

theorem clearIngress_same {c c' : Cluster} (h : c.Same c') (ns name : String)
    (r : ReleaseReplies) : (clearIngress ns c name r).Same (clearIngress ns c' name r) := by
  rw [clearIngress_eq, clearIngress_eq, h.services]
  split
  · cases c.services.find ⟨ns, name⟩ with
    | none => exact h
    | some svc => exact h.withServices _
  · exact h

theorem releaseAll_same {a b : HeliosConfig} {w w' : World} (h : a.Same b) (hw : w.Same w')
    (rs : String → ReleaseReplies) : (releaseAll a w rs).Same (releaseAll b w' rs) := by
  refine ⟨?_, IPAllocator.ext_used ?_ fun x => ?_⟩
  · have hfold : ∀ {c c' : Cluster} (names : List String), c.Same c' →
        (names.foldl (fun c n => clearIngress a.key.ns c n (rs n)) c).Same
          (names.foldl (fun c n => clearIngress a.key.ns c n (rs n)) c') := by
      intro c c' names hc
      induction names generalizing c c' with
      | nil => exact hc
      | cons n names ih => exact ih (clearIngress_same hc _ n (rs n))
    have hperm : ∀ c : Cluster,
        (releaseNames a).foldl (fun c n => clearIngress a.key.ns c n (rs n)) c =
          (releaseNames b).foldl (fun c n => clearIngress a.key.ns c n (rs n)) c := by
      refine fun c => h.releaseNames.foldl_eq' (fun n _ m _ c => ?_) c
      by_cases e : n = m
      · rw [e]
      · exact clearIngress_comm e c (rs n) (rs m)
    unfold releaseAll
    rw [h.key]
    simp only
    rw [← hperm]
    exact hfold _ hw.cluster
  · simp only [releaseAll, IPAllocator.foldl_releaseIP_maxScan, hw.pool]
  · simp only [releaseAll, IPAllocator.mem_foldl_releaseIP, hw.pool, h.recorded.mem_iff]

/-! ## 3. Writes -/

/-- Writes of alike configs that end alike. -/
inductive WriteSame : Except ApiError HeliosConfig × Cluster →
    Except ApiError HeliosConfig × Cluster → Prop where
  | error {e : ApiError} {c c' : Cluster} (h : c.Same c') : WriteSame (.error e, c) (.error e, c')
  | ok {a b : HeliosConfig} {c c' : Cluster} (hs : a.Same b) (h : c.Same c') :
      WriteSame (.ok a, c) (.ok b, c')

theorem WriteSame.cluster {out out' : Except ApiError HeliosConfig × Cluster}
    (h : WriteSame out out') : out.2.Same out'.2 := by
  cases h with
  | error h => exact h
  | ok _ h => exact h

theorem commit_same {c c' d d' : Cluster} (hc : c.Same c') (hd : d.Same d') {a b : HeliosConfig}
    (h : a.Same b) (r : WriteReply) : WriteSame (c.commit r a d) (c'.commit r b d') := by
  cases r with
  | ok => exact .ok h hd
  | rejected e => exact .error hc
  | lost text => exact .error hd

theorem updateConfigStatus_same {c c' : Cluster} (hc : c.Same c') {a b : HeliosConfig}
    (h : a.Same b) (r : WriteReply) :
    WriteSame (c.updateConfigStatus a r) (c'.updateConfigStatus b r) := by
  have hf := hc.configs a.key
  unfold Cluster.updateConfigStatus
  rw [h.key]
  generalize c.configs.find a.key = x at hf
  generalize c'.configs.find a.key = y at hf
  cases hf with
  | none => exact .error hc
  | some hs =>
      have hnew := hs.withStatus h
      exact commit_same hc (hc.withConfigs (hc.configs.replace hnew hnew.key)) hnew r

/-- A plain write that may take the object away. -/
theorem storedOrGone_same {C C' : Store HeliosConfig.key} (hC : Store.Rel HeliosConfig.Same C C')
    {a b : HeliosConfig} (h : a.Same b) :
    Store.Rel HeliosConfig.Same
      (if a.deleting = true ∧ a.finalizers = [] then C.delete a.key else C.replace a)
      (if b.deleting = true ∧ b.finalizers = [] then C'.delete b.key else C'.replace b) := by
  rw [h.deleting, h.finalizers, h.key]
  split
  · exact hC.delete _
  · exact hC.replace h h.key

theorem updateConfig_same {c c' : Cluster} (hc : c.Same c') {a b : HeliosConfig} (h : a.Same b)
    (r : WriteReply) : WriteSame (c.updateConfig a r) (c'.updateConfig b r) := by
  have hf := hc.configs a.key
  unfold Cluster.updateConfig
  rw [h.key]
  generalize c.configs.find a.key = x at hf
  generalize c'.configs.find a.key = y at hf
  cases hf with
  | none => exact .error hc
  | some hs =>
      have hnew := hs.withSpecOf h
      exact commit_same hc (hc.withConfigs (storedOrGone_same hc.configs hnew)) hnew r

theorem ensureFinalizer_same {c c' : Cluster} (hc : c.Same c') {a b : HeliosConfig} (h : a.Same b)
    (r : PassReplies) : WriteSame (ensureFinalizer a c r) (ensureFinalizer b c' r) := by
  have hw := updateConfig_same hc h.addFinalizer r.addFinalizer
  unfold ensureFinalizer
  rw [h.finalizers]
  split
  · exact .ok h hc
  · generalize c.updateConfig (addFinalizer a) r.addFinalizer = out at hw
    generalize c'.updateConfig (addFinalizer b) r.addFinalizer = out' at hw
    cases hw with
    | error hd => exact .error hd
    | ok hs hd => exact updateConfigStatus_same hd (hs.setCondition _ _ _ _) r.initialStatus

/-- A write of a Service reads and writes the Services only. -/
theorem commitService_same {c c' d d' : Cluster} (hc : c.Same c') (hd : d.Same d') (svc : Service)
    (r : WriteReply) : (c'.commit r svc d').1 = (c.commit r svc d).1 ∧
      (c.commit r svc d).2.Same (c'.commit r svc d').2 := by
  cases r with
  | ok => exact ⟨rfl, hd⟩
  | rejected e => exact ⟨rfl, hc⟩
  | lost text => exact ⟨rfl, hd⟩

theorem updateServiceStatus_same {c c' : Cluster} (hc : c.Same c') (svc : Service)
    (r : WriteReply) : (c'.updateServiceStatus svc r).1 = (c.updateServiceStatus svc r).1 ∧
      (c.updateServiceStatus svc r).2.Same (c'.updateServiceStatus svc r).2 := by
  unfold Cluster.updateServiceStatus
  rw [hc.services]
  cases c.services.find svc.key with
  | none => exact ⟨rfl, hc⟩
  | some stored => exact commitService_same hc (hc.withServices _) _ r

theorem updateService_same {c c' : Cluster} (hc : c.Same c') (svc : Service) (r : WriteReply) :
    (c'.updateService svc r).1 = (c.updateService svc r).1 ∧
      (c.updateService svc r).2.Same (c'.updateService svc r).2 := by
  unfold Cluster.updateService
  rw [hc.services]
  cases c.services.find svc.key with
  | none => exact ⟨rfl, hc⟩
  | some stored => exact commitService_same hc (hc.withServices _) _ r

/-- Assignments that end alike. -/
structure Assignment.Same (a b : Assignment) : Prop where
  result : b.result = a.result
  cluster : a.cluster.Same b.cluster
  wrote : b.wrote = a.wrote

theorem assignAttempt_same {c c' : Cluster} (hc : c.Same c') (owner : NamespacedName)
    (svc : Service) (ip ipv6 : String) (r : AttemptReplies) :
    (assignAttempt owner svc ip ipv6 c r).Same (assignAttempt owner svc ip ipv6 c' r) := by
  unfold assignAttempt
  cases r.get with
  | failed e => exact ⟨rfl, hc, rfl⟩
  | ok =>
      rw [hc.services]
      cases c.services.find svc.key with
      | none => exact ⟨rfl, hc, rfl⟩
      | some current =>
          simp only
          generalize ({ current with
            annotations := current.annotations.insert "balancer.helios.dev/load-balancer-class"
              loadBalancerClassHelios
            spec.loadBalancerClass := some loadBalancerClassHelios
            ingress := ingressOf ip ipv6
            writer := some owner } : Service) = new
          have hst := updateServiceStatus_same hc new r.statusUpdate
          generalize c.updateServiceStatus new r.statusUpdate = out at hst
          generalize c'.updateServiceStatus new r.statusUpdate = out' at hst
          obtain ⟨o, d⟩ := out
          obtain ⟨o', d'⟩ := out'
          obtain ⟨rfl, hd⟩ := hst
          cases o' with
          | error e => exact ⟨rfl, hd, rfl⟩
          | ok current =>
              have hup := updateService_same hd current r.update
              simp only
              generalize d.updateService current r.update = out at hup
              generalize d'.updateService current r.update = out' at hup
              obtain ⟨o, d⟩ := out
              obtain ⟨o', d'⟩ := out'
              obtain ⟨rfl, hd⟩ := hup
              cases o' with
              | error e => exact ⟨rfl, hd, rfl⟩
              | ok _ => exact ⟨rfl, hd, rfl⟩

theorem assignIPToService_same {c c' : Cluster} (hc : c.Same c') (owner : NamespacedName)
    (svc : Service) (ip ipv6 : String) (retries : Nat) (rs : Nat → AttemptReplies) :
    (assignIPToService owner svc ip ipv6 retries c rs).Same
      (assignIPToService owner svc ip ipv6 retries c' rs) := by
  induction retries generalizing c c' rs with
  | zero => exact assignAttempt_same hc owner svc ip ipv6 (rs 0)
  | succ n ih =>
      have ha := assignAttempt_same hc owner svc ip ipv6 (rs 0)
      have hb := ih ha.cluster fun k => rs (k + 1)
      simp only [assignIPToService]
      rw [ha.result]
      split
      · exact ⟨hb.result, hb.cluster, by rw [ha.wrote, hb.wrote]⟩
      · exact ha

/-! ## 4. The pass -/

theorem drawAddresses_same {a b : HeliosConfig} {c c' : Cluster} (h : a.Same b) (hc : c.Same c')
    (svc : Service) (pool : IPAllocator) :
    drawAddresses b svc c'.configs.objects pool = drawAddresses a svc c.configs.objects pool := by
  unfold drawAddresses
  rw [markOthers_same h hc, h.spec]

theorem allocateAndAssign_same {a b : HeliosConfig} {w w' : World} (h : a.Same b) (hw : w.Same w')
    (retries : Nat) (svc : Service) (r : TurnReplies) :
    (allocateAndAssign retries b svc w' r).1 = (allocateAndAssign retries a svc w r).1 ∧
      (allocateAndAssign retries a svc w r).2.Same (allocateAndAssign retries b svc w' r).2 := by
  unfold allocateAndAssign
  cases r.listConfigs with
  | failed e => exact ⟨rfl, hw⟩
  | ok =>
      rw [hw.pool, drawAddresses_same h hw.cluster, h.key]
      generalize drawAddresses a svc w.cluster.configs.objects w.pool = drawn
      rcases drawn with ⟨f | ⟨ip, ipv6⟩, pool⟩
      · exact ⟨rfl, hw.cluster, rfl⟩
      · have ha := assignIPToService_same hw.cluster a.key svc ip ipv6 retries r.attempts
        simp only
        generalize assignIPToService a.key svc ip ipv6 retries w.cluster r.attempts = x at ha
        generalize assignIPToService a.key svc ip ipv6 retries w'.cluster r.attempts = y at ha
        obtain ⟨o, d, wrote⟩ := x
        obtain ⟨o', d', wrote'⟩ := y
        obtain ⟨ho, hd, hwrote⟩ := ha
        obtain rfl : o' = o := ho
        obtain rfl : wrote' = wrote := hwrote
        cases o' with
        | error e => exact ⟨rfl, hd, rfl⟩
        | ok u => exact ⟨rfl, hd, rfl⟩

/-- Iterations that end alike. -/
inductive TurnSame : Turn → Turn → Prop where
  | stop {report : PassReport} {w w' : World} (h : w.Same w') :
      TurnSame (.stop report w) (.stop report w')
  | next {event : RecordedEvent} {a b : HeliosConfig} {w w' : World} (hs : a.Same b)
      (h : w.Same w') : TurnSame (.next event a w) (.next event b w')

theorem serveService_same {a b : HeliosConfig} {w w' : World} (h : a.Same b) (hw : w.Same w')
    (retries : Nat) (svc : Service) (r : TurnReplies) :
    TurnSame (serveService retries a svc w r) (serveService retries b svc w' r) := by
  have hal := allocateAndAssign_same h hw retries svc r
  unfold serveService
  rw [checkQuota_same h, quotaEvent_same h]
  cases checkQuota a with
  | some e => exact .stop hw
  | none =>
      generalize allocateAndAssign retries a svc w r = x at hal
      generalize allocateAndAssign retries b svc w' r = y at hal
      obtain ⟨o, v⟩ := x
      obtain ⟨o', v'⟩ := y
      obtain ⟨rfl, hv⟩ := hal
      rcases o' with f | ⟨ip, ipv6⟩
      · exact .stop ⟨(updateConfigStatus_same hv.cluster (h.failed f) r.failedStatus).cluster,
          hv.pool⟩
      · have hrec := updateConfigStatus_same hv.cluster (h.served svc ip ipv6) r.recordStatus
        simp only
        generalize v.cluster.updateConfigStatus (servedConfig a svc ip ipv6) r.recordStatus = x
          at hrec
        generalize v'.cluster.updateConfigStatus (servedConfig b svc ip ipv6) r.recordStatus = y
          at hrec
        cases hrec with
        | error hc => exact .stop ⟨hc, hv.pool⟩
        | ok hs hc => exact .next hs ⟨hc, hv.pool⟩

/-- Passes that report the same and end alike. -/
def PassSame (out out' : PassReport × World) : Prop := out'.1 = out.1 ∧ out.2.Same out'.2

theorem serveServices_same {a b : HeliosConfig} {w w' : World} (h : a.Same b) (hw : w.Same w')
    (retries : Nat) (svcs : List Service) (turn : Nat → TurnReplies) :
    PassSame (serveServices retries svcs a w turn) (serveServices retries svcs b w' turn) := by
  induction svcs generalizing a b w w' turn with
  | nil => exact ⟨rfl, hw⟩
  | cons svc rest ih =>
      have ht := serveService_same h hw retries svc (turn 0)
      rw [serveServices, serveServices]
      generalize serveService retries a svc w (turn 0) = x at ht
      generalize serveService retries b svc w' (turn 0) = y at ht
      cases ht with
      | stop hv => exact ⟨rfl, hv⟩
      | next hs hv =>
          obtain ⟨hrep, hend⟩ := ih hs hv fun k => turn (k + 1)
          refine ⟨?_, hend⟩
          simp only [hrep]

theorem handleDeletion_same {a b : HeliosConfig} {w w' : World} (h : a.Same b) (hw : w.Same w')
    (r : PassReplies) : PassSame (handleDeletion a w r) (handleDeletion b w' r) := by
  have hrel := releaseAll_same h hw r.release
  have hup := updateConfig_same hrel.cluster h.removeFinalizer r.removeFinalizer
  unfold handleDeletion
  rw [h.finalizers, h.len]
  split
  · simp only
    generalize (releaseAll a w r.release).cluster.updateConfig (removeFinalizer a)
      r.removeFinalizer = x at hup
    generalize (releaseAll b w' r.release).cluster.updateConfig (removeFinalizer b)
      r.removeFinalizer = y at hup
    cases hup with
    | error hc => exact ⟨rfl, hc, hrel.pool⟩
    | ok _ hc => exact ⟨rfl, hc, hrel.pool⟩
  · exact ⟨rfl, hw⟩

theorem reconcileServices_same {a b : HeliosConfig} {w w' : World} (h : a.Same b) (hw : w.Same w')
    (retries : Nat) (r : PassReplies) :
    PassSame (reconcileServices retries a w r) (reconcileServices retries b w' r) := by
  unfold reconcileServices
  cases r.listServices with
  | failed e => exact ⟨rfl, hw⟩
  | ok =>
      cases r.listConfigs with
      | failed e => exact ⟨rfl, hw⟩
      | ok =>
          have hlen := checkIPConflicts_same h hw.cluster
          simp only
          generalize checkIPConflicts a w.cluster.configs.objects = m at hlen
          generalize checkIPConflicts b w'.cluster.configs.objects = m' at hlen
          rw [hlen, hw.cluster.services, eligibleServices_congr h.spec]
          split
          · have hev : conflictEvent m' = conflictEvent m := by
              unfold conflictEvent
              rw [hlen]
            have hst := updateConfigStatus_same hw.cluster (conflictedConfig_same h hlen)
              r.conflictStatus
            rw [hev]
            exact ⟨rfl, hst.cluster, hw.pool⟩
          · exact serveServices_same h hw retries _ r.turn

/-- **A pass does not see the orders.** -/
theorem reconcile_same {w w' : World} (hw : w.Same w') (retries : Nat) (req : NamespacedName)
    (r : PassReplies) : PassSame (reconcile retries req w r) (reconcile retries req w' r) := by
  have hf := hw.cluster.configs req
  unfold reconcile
  cases r.getConfig with
  | failed e => exact ⟨rfl, hw⟩
  | ok =>
      generalize w.cluster.configs.find req = x at hf
      generalize w'.cluster.configs.find req = y at hf
      cases hf with
      | none => exact ⟨rfl, hw⟩
      | @some a b h =>
          have hfin := ensureFinalizer_same hw.cluster h r
          simp only
          generalize ensureFinalizer a w.cluster r = x at hfin
          generalize ensureFinalizer b w'.cluster r = y at hfin
          cases hfin with
          | error hc => exact ⟨rfl, hc, hw.pool⟩
          | @ok _ _ c c' hs hc =>
              have hv : World.Same ⟨c, w.pool⟩ ⟨c', w'.pool⟩ := ⟨hc, hw.pool⟩
              simp only
              rw [hs.deleting]
              split
              · exact handleDeletion_same hs hv r
              · exact reconcileServices_same hs hv retries r

/-! ## 5. Runs -/

/-- What an action reports: nothing, unless it is a pass. -/
def World.report (retries : Nat) (w : World) : Action → List PassReport
  | .step (.pass req r) => [(reconcile retries req w r).1]
  | _ => []

theorem editConfig_same {c c' : Cluster} (hc : c.Same c') (k : NamespacedName)
    {f : HeliosConfig → HeliosConfig} (hf : ∀ a b, a.Same b → (f a).Same (f b)) :
    (c.editConfig k f).Same (c'.editConfig k f) := by
  have hk := hc.configs k
  unfold Cluster.editConfig
  generalize c.configs.find k = x at hk
  generalize c'.configs.find k = y at hk
  cases hk with
  | none => exact hc
  | @some a b h =>
      have hnew := hf a b h
      simp only
      rw [hnew.deleting, hnew.finalizers]
      split
      · exact hc.withConfigs (hc.configs.delete k)
      · exact hc.withConfigs (hc.configs.replace hnew hnew.key)

theorem act_same (retries : Nat) {w w' : World} (hw : w.Same w') (a : Action) :
    (w.act retries a).Same (w'.act retries a) ∧ w.report retries a = w'.report retries a := by
  have hs := hw.cluster.services
  cases a with
  | step a =>
      cases a with
      | pass req r =>
          obtain ⟨hrep, hend⟩ := reconcile_same hw retries req r
          exact ⟨hend, by rw [World.report, World.report, hrep]⟩
      | createService svc =>
          refine ⟨⟨⟨?_, hw.cluster.configs⟩, hw.pool⟩, rfl⟩
          show w'.cluster.services.create svc.cleared = w.cluster.services.create svc.cleared
          rw [hs]
      | deleteService k =>
          refine ⟨⟨⟨?_, hw.cluster.configs⟩, hw.pool⟩, rfl⟩
          show w'.cluster.services.delete k = w.cluster.services.delete k
          rw [hs]
      | setIngress k ingress =>
          refine ⟨⟨?_, hw.pool⟩, rfl⟩
          show (w.cluster.setIngress k ingress).Same (w'.cluster.setIngress k ingress)
          unfold Cluster.setIngress
          rw [hs]
          cases w.cluster.services.find k with
          | none => exact hw.cluster
          | some svc => exact hw.cluster.withServices _
  | createConfig hc =>
      exact ⟨⟨hw.cluster.withConfigs (hw.cluster.configs.create (.refl _) rfl), hw.pool⟩, rfl⟩
  | editSpec k spec =>
      refine ⟨⟨editConfig_same hw.cluster k fun a b h => ?_, hw.pool⟩, rfl⟩
      cases h with
      | maps h h6 => exact .maps h h6
  | editFinalizers k fs =>
      refine ⟨⟨editConfig_same hw.cluster k fun a b h => ?_, hw.pool⟩, rfl⟩
      cases h with
      | maps h h6 => exact .maps h h6
  | deleteConfig k =>
      refine ⟨⟨editConfig_same hw.cluster k fun a b h => ?_, hw.pool⟩, rfl⟩
      cases h with
      | maps h h6 => exact .maps h h6
  | restart => exact ⟨⟨hw.cluster, rfl⟩, rfl⟩

end HeliosLB
