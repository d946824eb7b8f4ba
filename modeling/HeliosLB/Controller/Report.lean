/-
  File:      HeliosLB/Controller/Report.lean
  Subject:   WHAT A PASS REPORTS IS WHAT HAPPENED: its events and its result, under all replies.

  * `Told` -- the events about Services between two clusters: every `IPAllocated` is true at the
    end, and no Service changed in silence;
  * `LoopEnd`, `PassEnd` -- how the loop and the pass can end, as result and last event tell it;
  * `serveServices_told` -- the loop; a Service once served is left alone, because the listed
    Services have different keys;
  * **`pass_reports_truly`** -- the pass: a config that is not being deleted is never done with.
-/
import HeliosLB.Controller.Coexistence

namespace HeliosLB

open Lib

/-! ## 1. The loop -/

/-- **The events tell what became of the Services.** Every `IPAllocated` names one that holds the
    addresses it states, by this config's hand; and a Service that changed is named by such an
    event, or by the one of a failed allocation that says its write had been stored. -/
structure Told (owner : NamespacedName) (svcs : List Service) (before after : Cluster)
    (report : PassReport) : Prop where
  held : ∀ e ∈ report.events, e.reason = "IPAllocated" →
    ∃ svc ∈ svcs, ∃ ip ipv6 stored, e = servedEvent svc ip ipv6 ∧
      after.services.find svc.key = some stored ∧ stored.ingress = ingressOf ip ipv6 ∧
      stored.writer = some owner
  changed : ∀ key, after.services.find key ≠ before.services.find key →
    ∃ svc ∈ svcs, svc.key = key ∧
      ((∃ ip ipv6, servedEvent svc ip ipv6 ∈ report.events) ∨
        ∃ f, report.failure = some f ∧ f.torn = true ∧ failedEvent svc f ∈ report.events)

/-- A report without `IPAllocated` on a cluster whose Services stay. -/
theorem Told.silent {owner : NamespacedName} {svcs : List Service} {before after : Cluster}
    {report : PassReport} (h : after.services = before.services)
    (he : ∀ e ∈ report.events, e.reason ≠ "IPAllocated") : Told owner svcs before after report :=
  ⟨fun e hm hr => absurd hr (he e hm), fun key hne => absurd (by rw [h]) hne⟩

theorem Told.mono {owner : NamespacedName} {svcs svcs' : List Service} {before after : Cluster}
    {report : PassReport} (h : Told owner svcs before after report)
    (hsub : ∀ svc ∈ svcs, svc ∈ svcs') : Told owner svcs' before after report := by
  refine ⟨fun e hm hr => ?_, fun key hne => ?_⟩
  · obtain ⟨svc, hs, rest⟩ := h.held e hm hr
    exact ⟨svc, hsub svc hs, rest⟩
  · obtain ⟨svc, hs, rest⟩ := h.changed key hne
    exact ⟨svc, hsub svc hs, rest⟩

theorem Told.of_services {owner : NamespacedName} {svcs : List Service}
    {before after after' : Cluster} {report : PassReport} (h : Told owner svcs before after report)
    (hs : after'.services = after.services) : Told owner svcs before after' report := by
  obtain ⟨held, changed⟩ := h
  rw [← hs] at held changed
  exact ⟨held, changed⟩

theorem Cluster.updateConfigStatus_services (c : Cluster) (hc : HeliosConfig) (r : WriteReply) :
    (c.updateConfigStatus hc r).2.services = c.services := by
  unfold updateConfigStatus
  split
  · rfl
  · cases r <;> rfl

/-- The Service was served: it holds the addresses the event states, and no other one changed. -/
structure ServedOne (owner : NamespacedName) (svc : Service) (before after : Cluster)
    (event : RecordedEvent) : Prop where
  held : ∃ ip ipv6 stored, event = servedEvent svc ip ipv6 ∧
    after.services.find svc.key = some stored ∧ stored.ingress = ingressOf ip ipv6 ∧
    stored.writer = some owner
  others : ∀ key, key ≠ svc.key → after.services.find key = before.services.find key

/-- A served Service and the report of a pass that ends with it. -/
theorem ServedOne.told {owner : NamespacedName} {svc : Service} {before after : Cluster}
    {event : RecordedEvent} (h : ServedOne owner svc before after event) {report : PassReport}
    (he : report.events = [event]) : Told owner [svc] before after report := by
  obtain ⟨ip, ipv6, stored, hev, hfind, hin, hw⟩ := h.held
  refine ⟨fun e hm _ => ?_, fun key hne => ?_⟩
  · rw [he, List.mem_singleton] at hm
    exact ⟨svc, List.mem_singleton_self svc, ip, ipv6, stored, hm.trans hev, hfind, hin, hw⟩
  · have hkey : key = svc.key := by
      by_contra hk
      exact hne (h.others key hk)
    refine ⟨svc, List.mem_singleton_self svc, hkey.symm, .inl ⟨ip, ipv6, ?_⟩⟩
    rw [he, ← hev]
    exact List.mem_singleton_self event

/-- A Service served first, and what the rest of the loop reports. -/
theorem ServedOne.cons {owner : NamespacedName} {svc : Service} {rest : List Service}
    {before mid after : Cluster} {event : RecordedEvent} {report : PassReport}
    (h : ServedOne owner svc before mid event) (hnot : svc.key ∉ rest.map Service.key)
    (ht : Told owner rest mid after report) :
    Told owner (svc :: rest) before after { report with events := event :: report.events } := by
  obtain ⟨ip, ipv6, stored, hev, hfind, hin, hw⟩ := h.held
  -- the rest of the loop does not come back to this Service
  have hkeep : after.services.find svc.key = mid.services.find svc.key := by
    by_contra hne
    obtain ⟨s, hs, hk, -⟩ := ht.changed svc.key hne
    exact hnot (hk ▸ List.mem_map_of_mem hs)
  refine ⟨fun e hm hr => ?_, fun key hne => ?_⟩
  · rcases List.mem_cons.mp hm with rfl | hm
    · exact ⟨svc, List.mem_cons_self, ip, ipv6, stored, hev, hkeep.trans hfind, hin, hw⟩
    · obtain ⟨s, hs, rest⟩ := ht.held e hm hr
      exact ⟨s, List.mem_cons_of_mem _ hs, rest⟩
  · by_cases hk : key = svc.key
    · exact ⟨svc, List.mem_cons_self, hk.symm, .inl ⟨ip, ipv6, hev ▸ List.mem_cons_self⟩⟩
    · have hne' : after.services.find key ≠ mid.services.find key := by
        rw [h.others key hk]
        exact hne
      obtain ⟨s, hs, hk', hor⟩ := ht.changed key hne'
      refine ⟨s, List.mem_cons_of_mem _ hs, hk', hor.imp ?_ ?_⟩
      · rintro ⟨ip, ipv6, hm⟩
        exact ⟨ip, ipv6, List.mem_cons_of_mem _ hm⟩
      · rintro ⟨f, hf, ht, hm⟩
        exact ⟨f, hf, ht, List.mem_cons_of_mem _ hm⟩

/-- A failed allocation: the Service is as it was, or the failure says its write was stored. -/
theorem Outcome.failed_told {retries : Nat} {hc : HeliosConfig} {svc : Service} {w w' : World}
    {r : TurnReplies} {f : AllocFailure} (h : Outcome retries hc svc w r (.error f) w')
    {report : PassReport} (he : report.events = [failedEvent svc f])
    (hf : report.failure = some f) : Told hc.key [svc] w.cluster w'.cluster report := by
  refine ⟨fun e hm hr => ?_, fun key hne => ?_⟩
  · rw [he, List.mem_singleton] at hm
    subst hm
    simp [failedEvent] at hr
  · have hkey : key = svc.key := by
      by_contra hk
      exact hne (h.services_find_ne hk)
    refine ⟨svc, List.mem_singleton_self svc, hkey.symm, .inr ⟨f, hf, ?_, ?_⟩⟩
    · cases h with
      | unlisted => exact absurd rfl hne
      | undrawn => exact absurd rfl hne
      | unassigned => exact absurd rfl hne
      | torn _ _ _ _ _ _ ht => exact ht
    · rw [he]
      exact List.mem_singleton_self _

theorem Outcome.servedOne {retries : Nat} {hc : HeliosConfig} {svc : Service} {w w' : World}
    {r : TurnReplies} {ip ipv6 : String} (h : Outcome retries hc svc w r (.ok (ip, ipv6)) w') :
    ServedOne hc.key svc w.cluster w'.cluster (servedEvent svc ip ipv6) := by
  refine ⟨?_, fun key hk => h.services_find_ne hk⟩
  cases h with
  | @assigned _ _ stored _ _ hs _ =>
      exact ⟨ip, ipv6, written hc.key ip ipv6 stored, rfl, Cluster.assigned_find hs _ _ _, rfl,
        rfl⟩

/-- **How the loop can end, as its report tells it**: every Service served; the quota reached, by
    the config that is stored then; an allocation that failed; a record that was refused. -/
inductive LoopEnd (owner : NamespacedName) (svcs : List Service) (turn : Nat → TurnReplies)
    (after : Cluster) (report : PassReport) : Prop where
  | served (hr : report.result = .ok 5) (hf : report.failure = none)
      (hall : ∀ svc ∈ svcs, ∃ ip ipv6, servedEvent svc ip ipv6 ∈ report.events)
  | quota {hc : HeliosConfig} (hr : report.result = .ok 5) (hf : report.failure = none)
      (hs : after.configs.find owner = some hc) (hq : checkQuota hc ≠ none)
      (he : report.events.getLast? = some (quotaEvent hc))
  | failed {svc : Service} {f : AllocFailure} (hr : report.result = .ok 10)
      (hf : report.failure = some f) (hm : svc ∈ svcs)
      (he : report.events.getLast? = some (failedEvent svc f))
  | unrecorded {svc : Service} {ip ipv6 : String} {e : ApiError} {n : Nat}
      (hr : report.result = .error e) (hf : report.failure = none) (hm : svc ∈ svcs)
      (he : report.events.getLast? = some (servedEvent svc ip ipv6))
      (hn : (turn n).recordStatus ≠ .ok)

theorem LoopEnd.cons {owner : NamespacedName} {svc : Service} {rest : List Service}
    {turn : Nat → TurnReplies} {after : Cluster} {report : PassReport} {ip ipv6 : String}
    (h : LoopEnd owner rest (fun k => turn (k + 1)) after report) :
    LoopEnd owner (svc :: rest) turn after
      { report with events := servedEvent svc ip ipv6 :: report.events } := by
  have hlast : ∀ e, report.events.getLast? = some e →
      (servedEvent svc ip ipv6 :: report.events).getLast? = some e := by
    intro e he
    rw [List.getLast?_cons, he, Option.getD_some]
  cases h with
  | served hr hf hall =>
      refine .served hr hf fun s hm => ?_
      rcases List.mem_cons.mp hm with rfl | hm
      · exact ⟨ip, ipv6, List.mem_cons_self⟩
      · obtain ⟨ip', ipv6', he⟩ := hall s hm
        exact ⟨ip', ipv6', List.mem_cons_of_mem _ he⟩
  | quota hr hf hs hq he => exact .quota hr hf hs hq (hlast _ he)
  | failed hr hf hm he => exact .failed hr hf (List.mem_cons_of_mem _ hm) (hlast _ he)
  | unrecorded hr hf hm he hn =>
      exact .unrecorded hr hf (List.mem_cons_of_mem _ hm) (hlast _ he) hn

/-- **One iteration of the loop**: it ends the loop with a true report, or it served the Service. -/
theorem serveService_told {hc : HeliosConfig} {w : World} (hs : Stored hc w.cluster)
    (retries : Nat) (svc : Service) (rest : List Service) (turn : Nat → TurnReplies) :
    match serveService retries hc svc w (turn 0) with
    | .stop report w' => Told hc.key [svc] w.cluster w'.cluster report ∧
        LoopEnd hc.key (svc :: rest) turn w'.cluster report
    | .next event hc' w' => ServedOne hc.key svc w.cluster w'.cluster event ∧
        Stored hc' w'.cluster ∧ hc'.key = hc.key := by
  have ho := allocateAndAssign_outcome retries hc svc w (turn 0)
  unfold serveService
  cases hq : checkQuota hc with
  | some e =>
      refine ⟨Told.silent rfl fun e hm => ?_, .quota rfl rfl hs (by simp [hq]) rfl⟩
      rw [List.mem_singleton] at hm
      subst hm
      simp [quotaEvent]
  | none =>
      generalize allocateAndAssign retries hc svc w (turn 0) = out at ho
      rcases out with ⟨f | ⟨ip, ipv6⟩, w'⟩
      · have ht : Told hc.key [svc] w.cluster w'.cluster
            { result := .ok 10, events := [failedEvent svc f], failure := some f } :=
          ho.failed_told rfl rfl
        exact ⟨ht.of_services (Cluster.updateConfigStatus_services _ _ _),
          .failed rfl rfl List.mem_cons_self rfl⟩
      · have hs' : Stored hc w'.cluster := ho.stored hs
        have hone := ho.servedOne
        simp only
        rw [Cluster.updateConfigStatus_of_find (servedConfig_key hc svc ip ipv6) hs']
        cases hr : (turn 0).recordStatus with
        | rejected e =>
            exact ⟨hone.told rfl,
              .unrecorded (n := 0) rfl rfl List.mem_cons_self rfl (by simp [hr])⟩
        | lost text =>
            exact ⟨(hone.told rfl).of_services rfl,
              .unrecorded (n := 0) rfl rfl List.mem_cons_self rfl (by simp [hr])⟩
        | ok =>
            exact ⟨⟨hone.held, hone.others⟩,
              Cluster.stored_withConfig hs' (servedConfig_key hc svc ip ipv6), rfl⟩

theorem serveServices_told (retries : Nat) {svcs : List Service} {hc : HeliosConfig} {w : World}
    (hs : Stored hc w.cluster) (hnd : (svcs.map Service.key).Nodup)
    (turn : Nat → TurnReplies) :
    Told hc.key svcs w.cluster (serveServices retries svcs hc w turn).2.cluster
        (serveServices retries svcs hc w turn).1 ∧
      LoopEnd hc.key svcs turn (serveServices retries svcs hc w turn).2.cluster
        (serveServices retries svcs hc w turn).1 := by
  induction svcs generalizing hc w turn with
  | nil =>
      exact ⟨Told.silent rfl fun e hm => absurd hm List.not_mem_nil,
        .served rfl rfl fun s hm => absurd hm List.not_mem_nil⟩
  | cons svc rest ih =>
      obtain ⟨hnot, hrest⟩ := List.nodup_cons.mp hnd
      have ht := serveService_told hs retries svc rest turn
      rw [serveServices]
      generalize serveService retries hc svc w (turn 0) = t at ht
      cases t with
      | stop report w' =>
          refine ⟨Told.mono ht.1 fun s hm => ?_, ht.2⟩
          rw [List.mem_singleton.mp hm]
          exact List.mem_cons_self
      | next event hc' w' =>
          obtain ⟨hone, hs', hk⟩ := ht
          obtain ⟨htold, hend⟩ := ih hs' hrest fun k => turn (k + 1)
          rw [hk] at htold hend
          obtain ⟨ip, ipv6, -, rfl, -⟩ := hone.held
          exact ⟨hone.cons hnot htold, hend.cons⟩

/-! ## 2. The pass -/

/-- **How a pass can end, as its report tells it**: refused by a call before anything was done,
    kept off by a conflict, or as the loop ends. -/
inductive PassEnd (req : NamespacedName) (svcs : List Service) (r : PassReplies) (w : World)
    (out : PassReport × World) : Prop where
  | refused {e : ApiError} (hr : out.1.result = .error e) (he : out.1.events = [])
      (hf : out.1.failure = none) (hs : out.2.cluster.services = w.cluster.services)
      (hp : out.2.pool = w.pool)
      (hn : r.getConfig ≠ .ok ∨ r.addFinalizer ≠ .ok ∨ r.initialStatus ≠ .ok ∨
        r.listServices ≠ .ok ∨ r.listConfigs ≠ .ok)
  | conflict {conflicts : StringMap} (hr : out.1.result = .ok 30)
      (he : out.1.events = [conflictEvent conflicts]) (hc : 0 < StringMap.len conflicts)
      (hf : out.1.failure = none) (hs : out.2.cluster.services = w.cluster.services)
      (hp : out.2.pool = w.pool)
  | loop (hl : LoopEnd req svcs r.turn out.2.cluster out.1)

/-- The part of the pass after the finalizer. -/
theorem reconcileServices_told (retries : Nat) {hc : HeliosConfig} {w : World}
    (hs : Stored hc w.cluster) (r : PassReplies) :
    Told hc.key (hc.eligibleServices w.cluster.services.objects) w.cluster
        (reconcileServices retries hc w r).2.cluster (reconcileServices retries hc w r).1 ∧
      PassEnd hc.key (hc.eligibleServices w.cluster.services.objects) r w
        (reconcileServices retries hc w r) := by
  have hnone : ∀ e ∈ ([] : List RecordedEvent), e.reason ≠ "IPAllocated" :=
    fun e hm => absurd hm List.not_mem_nil
  unfold reconcileServices
  cases hls : r.listServices with
  | failed e => exact ⟨Told.silent rfl hnone, .refused rfl rfl rfl rfl rfl (by simp [hls])⟩
  | ok =>
      cases hlc : r.listConfigs with
      | failed e => exact ⟨Told.silent rfl hnone, .refused rfl rfl rfl rfl rfl (by simp [hlc])⟩
      | ok =>
          simp only
          split
          · rename_i hlen
            have hsv := Cluster.updateConfigStatus_services w.cluster
              (conflictedConfig hc (checkIPConflicts hc w.cluster.configs.objects)) r.conflictStatus
            refine ⟨Told.silent hsv fun e hm => ?_, .conflict rfl rfl hlen rfl hsv rfl⟩
            rw [List.mem_singleton] at hm
            subst hm
            simp [conflictEvent]
          · have hnd : ((hc.eligibleServices w.cluster.services.objects).map Service.key).Nodup :=
              w.cluster.services.nodup.sublist (List.filter_sublist.map Service.key)
            obtain ⟨htold, hend⟩ := serveServices_told retries hs hnd r.turn
            exact ⟨htold, .loop hend⟩

end HeliosLB
