/-
  File:      HeliosLB/System/Coherence.lean
  Subject:   THE STATUS DOES NOT CONTRADICT ITSELF, in any operation of the controller: API calls
             fail in every way they can, users edit and delete, the process is restarted.

  The status says the same thing several times: phase and state, the message, two conditions, the
  recorded addresses. It is written by six writes that each touch some of these.

  * `HeliosConfig.said` -- what the condition of a type says;
  * **`StatusCoherent`** -- all the statuses there are: for each phase the message, what `Ready` and
    `Degraded` can say with it, and what is recorded. The condition `Available` and the phase
    `Pending` are declared in the API and never written;
  * `rewrite_coherent` -- each of the six writes keeps it;
  * **`status_coherent`** -- it holds of every stored config after every run of actions.
-/
import HeliosLB.System.Operation

namespace HeliosLB

open Lib

/-! ## 1. Conditions -/

/-- What the condition of a type says: its status, reason and message. -/
def HeliosConfig.said (hc : HeliosConfig) (t : ConditionType) :
    Option (ConditionStatus × Reason × String) :=
  (findStatusCondition hc.status.conditions t).map fun c => (c.status, c.reason, c.message)

theorem said_setCondition (hc : HeliosConfig) (t t' : ConditionType) (status : ConditionStatus)
    (reason : Reason) (message : String) :
    (hc.setCondition t status reason message).said t' =
      if t = t' then some (status, reason, message) else hc.said t' := by
  unfold HeliosConfig.said HeliosConfig.setCondition
  dsimp only
  rw [findStatusCondition_set]
  by_cases h : t = t' <;> simp [h]

/-- A condition is set where one of its type stands, or is appended. -/
theorem types_setStatusCondition (cs : List Condition) (new : Condition) :
    (setStatusCondition cs new).map Condition.type =
      if new.type ∈ cs.map Condition.type then cs.map Condition.type
      else cs.map Condition.type ++ [new.type] := by
  induction cs with
  | nil => rfl
  | cons c cs ih =>
      rw [setStatusCondition]
      by_cases hc : c.type = new.type
      · simp [hc]
      · rw [if_neg hc, List.map_cons, ih]
        have hc' : ¬ new.type = c.type := fun e => hc e.symm
        by_cases hm : new.type ∈ cs.map Condition.type
        · simp [hm]
        · simp [hm, hc']

/-- The conditions of a status: one of each type, none seen later than the object's generation. -/
structure ConditionsOrderly (hc : HeliosConfig) : Prop where
  nodup : (hc.status.conditions.map Condition.type).Nodup
  observed : ∀ c ∈ hc.status.conditions, c.observedGeneration ≤ hc.generation

theorem ConditionsOrderly.congr {hc hc' : HeliosConfig} (h : ConditionsOrderly hc)
    (hs : hc'.status.conditions = hc.status.conditions) (hg : hc'.generation = hc.generation) :
    ConditionsOrderly hc' := by
  refine ⟨?_, ?_⟩
  · rw [hs]
    exact h.nodup
  · rw [hs, hg]
    exact h.observed

theorem mem_setStatusCondition {cs : List Condition} {new c : Condition}
    (h : c ∈ setStatusCondition cs new) : c = new ∨ c ∈ cs := by
  induction cs with
  | nil => exact .inl (List.mem_singleton.mp h)
  | cons d cs ih =>
      rw [setStatusCondition] at h
      split at h
      · exact (List.mem_cons.mp h).imp_right (List.mem_cons_of_mem d)
      · rcases List.mem_cons.mp h with rfl | h
        · exact .inr List.mem_cons_self
        · exact (ih h).imp_right (List.mem_cons_of_mem d)

theorem ConditionsOrderly.setCondition {hc : HeliosConfig} (h : ConditionsOrderly hc)
    (t : ConditionType)
    (status : ConditionStatus) (reason : Reason) (message : String) :
    ConditionsOrderly (hc.setCondition t status reason message) := by
  refine ⟨?_, fun c hc' => ?_⟩
  · unfold HeliosConfig.setCondition
    dsimp only
    rw [types_setStatusCondition]
    split
    · exact h.nodup
    · rename_i hnot
      exact List.nodup_append.mpr ⟨h.nodup, List.nodup_singleton _, fun x hx y hy e =>
        hnot (List.mem_singleton.mp hy ▸ e ▸ hx)⟩
  · rcases mem_setStatusCondition hc' with rfl | hm
    · exact Int.le_refl _
    · exact h.observed c hm

/-! ## 2. The statuses there are -/

/-- `Ready` as the finalizer step leaves it. -/
def initializing : Option (ConditionStatus × Reason × String) :=
  some (.false, .initializing, "HeliosConfig is initializing")

/-- `Degraded` as a conflict leaves it. -/
def HeliosConfig.SaysConflict (hc : HeliosConfig) : Prop :=
  ∃ n : Nat, hc.said .degraded = some (.true, .ipConflict, "IP range conflicts with " ++ toString n
    ++ " allocated IP(s) from other configs")

/-- What goes with each phase. -/
def HeliosConfig.Consistent (hc : HeliosConfig) : Prop :=
  match hc.status.phase with
  | .unset =>
    hc.status.allocatedIPs = ∅ ∧ hc.status.message = "" ∧
      (hc.said .ready = none ∨ hc.said .ready = initializing) ∧
      (hc.said .degraded = none ∨ hc.SaysConflict)
  | .pending => False
  | .active =>
    hc.status.allocatedIPs ≠ ∅ ∧ hc.status.message = "IP allocated successfully" ∧
      (hc.said .ready = some (.true, .networkConfigured, "IP allocated successfully") ∨
        hc.said .ready = initializing) ∧
      (hc.said .degraded = some (.false, .networkConfigured, "All allocations healthy") ∨
        hc.SaysConflict)
  | .failed =>
    (hc.said .ready = some (.false, .ipAllocationError, hc.status.message) ∨
        hc.said .ready = initializing) ∧
      (hc.said .degraded = some (.true, .ipAllocationError, hc.status.message) ∨ hc.SaysConflict)

/-- **The statuses there are.** -/
structure StatusCoherent (hc : HeliosConfig) : Prop where
  orderly : ConditionsOrderly hc
  state : hc.status.state = hc.status.phase
  available : hc.said .available = none
  consistent : hc.Consistent
  ipv6 : ∀ name ∈ hc.status.allocatedIPv6s, name ∈ hc.status.allocatedIPs

/-! ## 3. The six writes -/

/-- Coherence is about the status; the generation may grow. -/
theorem StatusCoherent.congr {hc hc' : HeliosConfig} (h : StatusCoherent hc)
    (hs : hc'.status = hc.status) (hg : hc.generation ≤ hc'.generation) : StatusCoherent hc' := by
  have hsaid : hc'.said = hc.said := by
    funext t
    rw [HeliosConfig.said, HeliosConfig.said, hs]
  refine ⟨⟨?_, fun c hc => ?_⟩, ?_, ?_, ?_, ?_⟩
  · rw [hs]
    exact h.orderly.nodup
  · rw [hs] at hc
    exact (h.orderly.observed c hc).trans hg
  · rw [hs]
    exact h.state
  · rw [hsaid]
    exact h.available
  · have hc := h.consistent
    unfold HeliosConfig.Consistent HeliosConfig.SaysConflict at hc ⊢
    rw [hs, hsaid]
    exact hc
  · rw [hs]
    exact h.ipv6

theorem initialized_coherent {hc : HeliosConfig} (h : StatusCoherent hc) :
    StatusCoherent (initialized hc) := by
  have h₀ : StatusCoherent (addFinalizer hc) := h.congr rfl (Int.le_refl _)
  have hsaid : ∀ t, (initialized hc).said t = if .ready = t then initializing else hc.said t :=
    fun t => said_setCondition (addFinalizer hc) _ _ _ _ _
  refine ⟨h₀.orderly.setCondition _ _ _ _, h.state, (hsaid _).trans h.available, ?_, h.ipv6⟩
  have hcons := h.consistent
  have hphase : (initialized hc).status.phase = hc.status.phase := rfl
  unfold HeliosConfig.Consistent HeliosConfig.SaysConflict at hcons ⊢
  rw [hphase, hsaid, hsaid, if_pos rfl, if_neg (by simp)]
  cases hp : hc.status.phase with
  | pending =>
      rw [hp] at hcons
      exact hcons
  | failed =>
      rw [hp] at hcons
      exact ⟨.inr rfl, hcons.2⟩
  | _ =>
      rw [hp] at hcons
      exact ⟨hcons.1, hcons.2.1, .inr rfl, hcons.2.2.2⟩

theorem conflicted_coherent {hc : HeliosConfig} (h : StatusCoherent hc) (conflicts : StringMap) :
    StatusCoherent (conflictedConfig hc conflicts) := by
  have hsaid := fun t => said_setCondition hc .degraded t .true .ipConflict
    ("IP range conflicts with " ++ toString (StringMap.len conflicts)
      ++ " allocated IP(s) from other configs")
  have hconf : (conflictedConfig hc conflicts).SaysConflict :=
    ⟨StringMap.len conflicts, (hsaid .degraded).trans (if_pos rfl)⟩
  have hready : (conflictedConfig hc conflicts).said .ready = hc.said .ready :=
    (hsaid .ready).trans (if_neg (by simp))
  refine ⟨h.orderly.setCondition _ _ _ _, h.state, (hsaid _).trans h.available, ?_, h.ipv6⟩
  have hcons := h.consistent
  have hphase : (conflictedConfig hc conflicts).status.phase = hc.status.phase := rfl
  unfold HeliosConfig.Consistent at hcons ⊢
  rw [hphase, hready]
  cases hp : hc.status.phase with
  | pending =>
      rw [hp] at hcons
      exact hcons
  | failed =>
      rw [hp] at hcons
      exact ⟨hcons.1, .inr hconf⟩
  | _ =>
      rw [hp] at hcons
      exact ⟨hcons.1, hcons.2.1, hcons.2.2.1, .inr hconf⟩

/-- Two conditions set one after the other. -/
theorem said_two (hc : HeliosConfig) (sr sd : ConditionStatus) (rr rd : Reason) (mr md : String)
    (t : ConditionType) :
    ((hc.setCondition .ready sr rr mr).setCondition .degraded sd rd md).said t =
      if .degraded = t then some (sd, rd, md)
      else if .ready = t then some (sr, rr, mr) else hc.said t := by
  rw [said_setCondition, said_setCondition]

theorem failed_coherent {hc : HeliosConfig} (h : StatusCoherent hc) (f : AllocFailure) :
    StatusCoherent (failedConfig hc f) := by
  have ho := (h.orderly.setCondition .ready .false .ipAllocationError f.message).setCondition
    .degraded .true .ipAllocationError f.message
  refine ⟨ho.congr rfl rfl, rfl, ?_, ?_, h.ipv6⟩
  · exact (said_two _ _ _ _ _ _ _ _).trans h.available
  · exact ⟨.inl (said_two _ _ _ _ _ _ _ _), .inl (said_two _ _ _ _ _ _ _ _)⟩

theorem served_coherent {hc : HeliosConfig} (h : StatusCoherent hc) (svc : Service)
    (ip ipv6 : String) : StatusCoherent (servedConfig hc svc ip ipv6) := by
  have hmem : svc.key.name ∈ hc.status.allocatedIPs.insert svc.key.name ip :=
    (AList.mem_insert _).mpr (.inl rfl)
  have ho := (h.orderly.setCondition .ready .true .networkConfigured
    "IP allocated successfully").setCondition .degraded .false .networkConfigured
    "All allocations healthy"
  refine ⟨ho.congr rfl rfl, rfl, ?_, ?_, fun name hn => ?_⟩
  · exact (said_two _ _ _ _ _ _ _ _).trans h.available
  · refine ⟨fun e => ?_, rfl, .inl (said_two _ _ _ _ _ _ _ _), .inl (said_two _ _ _ _ _ _ _ _)⟩
    have hempty : svc.key.name ∈ (∅ : StringMap) := e ▸ hmem
    exact AList.notMem_empty _ hempty
  · rw [servedConfig_allocatedIPs, AList.mem_insert]
    rw [servedConfig_allocatedIPv6s] at hn
    split at hn
    · rcases (AList.mem_insert _).mp hn with e | hn
      · exact .inl e
      · exact .inr (h.ipv6 name hn)
    · exact .inr (h.ipv6 name hn)

/-- **Each of the six writes keeps the status coherent.** -/
theorem rewrite_coherent {hc hc' : HeliosConfig} (h : StatusCoherent hc) (hr : Rewrite hc hc') :
    StatusCoherent hc' := by
  cases hr with
  | finalizer _ => exact h.congr rfl (Int.le_refl _)
  | initial _ => exact initialized_coherent h
  | conflicted _ conflicts => exact conflicted_coherent h conflicts
  | failed _ f => exact failed_coherent h f
  | served _ svc ip ipv6 => exact served_coherent h svc ip ipv6
  | released _ => exact h.congr rfl (Int.le_refl _)

theorem created_coherent (hc : HeliosConfig) : StatusCoherent hc.created where
  orderly := ⟨List.nodup_nil, fun _ h => nomatch h⟩
  state := rfl
  available := rfl
  consistent := ⟨rfl, rfl, .inl rfl, .inl rfl⟩
  ipv6 _ h := absurd h (AList.notMem_empty _)

/-! ## 4. Operation -/

/-- **The status of every stored config is coherent**, after every run of actions from a cluster
    without configs: whatever Services and pool there are, whatever the API server answers. -/
theorem status_coherent (retries : Nat) (services : Store Service.key) (pool : IPAllocator)
    (actions : List Action) :
    ∀ hc ∈ (run (World.act retries) ⟨⟨services, .empty⟩, pool⟩ actions).cluster.configs,
      StatusCoherent hc := by
  refine @run_inv_always World Action (World.act retries)
    (fun w => ∀ hc ∈ w.cluster.configs, StatusCoherent hc) (fun w a h => ?_) _
    (fun _ h => absurd h List.not_mem_nil) actions
  refine act_forall_configs retries w a created_coherent (fun hc spec h => ?_)
    (fun hc _ fs _ h => ?_) (fun hc h => ?_) (fun hc hc' h hr => rewrite_coherent h hr) h
  · exact h.congr rfl (Int.le_add_of_nonneg_right (by decide))
  · exact h.congr rfl (Int.le_refl _)
  · exact h.congr rfl (Int.le_refl _)

/-- A config whose only pass could not list the configs. -/
theorem status_coherent_failed :
    let web : Service := { key := ⟨"shop", "web"⟩, spec := { type := .loadBalancer } }
    let a : HeliosConfig := { key := ⟨"default", "a"⟩, spec := { ipRange := "10.0.0.1-10.0.0.3" } }
    let r : PassReplies := { turn := fun _ => { listConfigs := .failed (.other "timeout") } }
    ∃ hc ∈ (run (World.act 4) ⟨⟨.ofList [web], .empty⟩, newIPAllocator⟩
        [.createConfig a, .step (.pass a.key r)]).cluster.configs,
      hc.status.phase = .failed ∧ StatusCoherent hc := by
  intro web a r
  have hphase : ((run (World.act 4) ⟨⟨.ofList [web], .empty⟩, newIPAllocator⟩
      [.createConfig a, .step (.pass a.key r)]).cluster.configs.find a.key).map
        (fun hc => hc.status.phase) = some .failed := by decide
  obtain ⟨hc, hfind, hf⟩ := Option.map_eq_some_iff.mp hphase
  have hm := (Store.find_eq_some.mp hfind).1
  exact ⟨hc, hm, hf, status_coherent 4 _ _ _ hc hm⟩

end HeliosLB
