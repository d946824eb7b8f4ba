/-
  File:      HeliosLB/System/Restarts.lean
  Subject:   THE CONFIGS STAY APART ACROSS RESTARTS.

  A restart empties the pool. What the config itself recorded is not marked again, so within one
  config an address can be given twice (Controller/Restart.lean). Between two configs it cannot:
  every draw first marks what the OTHER configs record, and that is stored. So the invariant here
  speaks of stored objects only, and the pool is in no part of it.

  * `Ledgered` -- every address this controller gave is in the status of the config that gave it,
    and two configs gave different ones;
  * `Ledgered.served` -- an assignment and its record keep it: the draw avoids the others' records;
  * `Accounted` -- the actions considered: records of assignments are stored, ranges are wide, names
    unique, no config is deleted;
  * **`restarts_keep_configs_apart`** -- every run of these.
-/
import HeliosLB.System.Operation
import HeliosLB.System.Records
import HeliosLB.System.Unique

namespace HeliosLB

open Lib

/-! ## 1. The invariant -/

/-- **The statuses account for the addresses given out**, and no two configs gave one address. -/
structure Ledgered (c : Cluster) : Prop where
  names : UniqueNames c.services
  recorded : ∀ s ∈ c.services, ∀ k, s.writer = some k →
    ∃ hc, c.configs.find k = some hc ∧ hc.records s
  address : ∀ s ∈ c.services, s.writer ≠ none → ∀ a ∈ s.ingress, ∃ x : Address, x.text = a
  apart : ∀ s ∈ c.services, ∀ t ∈ c.services, ∀ k k', s.writer = some k → t.writer = some k' →
    k ≠ k' → ∀ a ∈ s.ingress, a ∉ t.ingress

theorem mem_recorded_of_records {hc : HeliosConfig} {s : Service} (h : hc.records s) {a : String}
    (ha : a ∈ s.ingress) : a ∈ hc.recorded := by
  obtain ⟨ip, ipv6, hin, h4, h6⟩ := h
  rw [hin] at ha
  unfold HeliosConfig.recorded
  rw [List.mem_append, StringMap.mem_values, StringMap.mem_values]
  unfold ingressOf at ha
  split at ha
  · rename_i hne
    rcases List.mem_cons.mp ha with rfl | ha
    · exact .inl ⟨_, h4⟩
    · rw [List.mem_singleton.mp ha]
      exact .inr ⟨_, h6 hne⟩
  · rw [List.mem_singleton.mp ha]
    exact .inl ⟨_, h4⟩

namespace Ledgered

variable {c c' : Cluster}

/-- Fewer Services with an ingress of ours, and every config with its records. -/
theorem mono (h : Ledgered c) (hn : UniqueNames c'.services)
    (hs : ∀ s ∈ c'.services, s.writer ≠ none → s ∈ c.services)
    (hf : ∀ k hc, c.configs.find k = some hc → ∃ hc', c'.configs.find k = some hc' ∧
      ∀ s, hc.records s → hc'.records s) : Ledgered c' where
  names := hn
  recorded s hm k hw := by
    obtain ⟨hc, hfind, hr⟩ := h.recorded s (hs s hm (by simp [hw])) k hw
    obtain ⟨hc', hfind', hr'⟩ := hf k hc hfind
    exact ⟨hc', hfind', hr' s hr⟩
  address s hm hw := h.address s (hs s hm hw) hw
  apart s hm t ht k k' hw hw' :=
    h.apart s (hs s hm (by simp [hw])) t (hs t ht (by simp [hw'])) k k' hw hw'

theorem cosmetic (h : Ledgered c) (hc : Cosmetic c c') : Ledgered c' := by
  refine h.mono (hc.services ▸ h.names) (fun s hm _ => hc.services ▸ hm) fun k a ha => ?_
  have e := hc.configs k
  rw [ha, Option.map_some] at e
  obtain ⟨b, hb, hba⟩ := Option.map_eq_some_iff.mp e
  obtain ⟨-, -, -, h4, h6⟩ := HeliosConfig.core_eq hba.symm
  exact ⟨b, hb, fun s => records_congr h4 h6⟩

/-- **An assignment and its record.** The draw avoided what the others record, and that is all they
    gave. -/
theorem served (h : Ledgered c) {hc : HeliosConfig} (hst : Stored hc c) {svc stored : Service}
    (hf : c.services.find svc.key = some stored) {ip ipv6 : String}
    (hfresh : ∀ a ∈ ingressOf ip ipv6, a ∉ recordedByOthers hc c.configs.objects)
    (haddr : ∀ a ∈ ingressOf ip ipv6, ∃ x : Address, x.text = a) :
    Ledgered ((c.assigned hc.key ip ipv6 stored).withConfig (servedConfig hc svc ip ipv6)) := by
  obtain ⟨hm, hk⟩ := Store.find_eq_some.mp hf
  have hmem : ∀ s ∈ (c.assigned hc.key ip ipv6 stored).services,
      s = written hc.key ip ipv6 stored ∨ (s ∈ c.services ∧ s.key ≠ stored.key) := by
    intro s hs
    rcases Store.mem_replace.mp hs with ⟨rfl, -⟩ | hs
    · exact .inl rfl
    · exact .inr hs
  -- a Service of another config shares nothing with the new addresses
  have hnew : ∀ t ∈ c.services, ∀ k', t.writer = some k' → k' ≠ hc.key →
      ∀ a ∈ ingressOf ip ipv6, a ∉ t.ingress := by
    intro t ht k' hw' hne a ha hat
    obtain ⟨other, hfo, hro⟩ := h.recorded t ht k' hw'
    obtain ⟨hmo, hko⟩ := Store.find_eq_some.mp hfo
    exact hfresh a ha (mem_recordedByOthers.mpr
      ⟨other, hmo, hko.trans_ne hne, mem_recorded_of_records hro hat⟩)
  refine ⟨h.names.replace hm rfl, fun s hs k hw => ?_, fun s hs hw => ?_,
    fun s hs t ht k k' hw hw' hne => ?_⟩
  · have hfind : ((c.assigned hc.key ip ipv6 stored).withConfig
        (servedConfig hc svc ip ipv6)).configs.find hc.key = some (servedConfig hc svc ip ipv6) :=
      Store.find_replace hst rfl
    rcases hmem s hs with rfl | ⟨hs', hne⟩
    · obtain rfl := Option.some.inj hw
      exact ⟨_, hfind, records_written hk⟩
    · obtain ⟨old, hfo, hro⟩ := h.recorded s hs' k hw
      by_cases e : k = hc.key
      · subst e
        obtain rfl : old = hc := Option.some.inj (hfo.symm.trans hst)
        refine ⟨_, hfind, records_served (fun hn => hne ?_) hro⟩
        exact h.names s hs' stored hm (hn.trans (congrArg NamespacedName.name hk.symm))
      · have hkey : (servedConfig hc svc ip ipv6).key ≠ k := Ne.symm e
        exact ⟨old, (Store.find_replace_ne hkey).trans hfo, hro⟩
  · rcases hmem s hs with rfl | ⟨hs, -⟩
    · exact haddr
    · exact h.address s hs hw
  · rcases hmem s hs with rfl | ⟨hs, -⟩
    · obtain rfl := Option.some.inj hw
      rcases hmem t ht with rfl | ⟨ht, -⟩
      · exact absurd (Option.some.inj hw') hne
      · exact hnew t ht k' hw' (Ne.symm hne)
    · rcases hmem t ht with rfl | ⟨ht, -⟩
      · obtain rfl := Option.some.inj hw'
        exact fun a ha hat => hnew s hs k hw hne a hat ha
      · exact h.apart s hs t ht k k' hw hw' hne

end Ledgered

/-! ## 2. A pass -/

theorem ledgered_serveServices {retries : Nat} {svcs : List Service} {hc : HeliosConfig}
    {w : World} (hs : Stored hc w.cluster) (hr : hc.spec.wideRanges = true)
    (hi : Ledgered w.cluster) {turn : Nat → TurnReplies}
    (hrec : ∀ n < (serveServices retries svcs hc w turn).1.turns, Recorded retries (turn n)) :
    Ledgered (serveServices retries svcs hc w turn).2.cluster := by
  refine serveServices_rule (P := Recorded retries)
    (I := fun hc w => hc.spec.wideRanges = true ∧ Ledgered w.cluster)
    (Q := fun _ w => Ledgered w.cluster) ?_ ?_ ?_ ?_ hs ⟨hr, hi⟩ hrec
  · exact fun hc w _ hi => hi.2
  · intro svc _ hc w r f w' c _ hi hr' ho hcos
    rw [ho.failed_cluster hr'] at hcos
    exact hi.2.cosmetic hcos
  · intro svc _ hc w r ip ipv6 w' _ _ hr' hun _
    rw [hr'.2] at hun
    cases hun
  · intro svc _ hc w r ip ipv6 w' hst hi _ _ ho
    cases ho with
    | assigned _ hd hf _ =>
        refine ⟨hi.1, hi.2.served hst hf (fun a ha hrec => ?_) (drawn_address hd)⟩
        exact (drawn_fresh hi.1 hd).1 a ha (mem_markOthers.mpr (.inr hrec))

theorem ledgered_pass {retries : Nat} {req : NamespacedName} {w : World} {r : PassReplies}
    (hi : Ledgered w.cluster)
    (hcfg : ∀ hc, w.cluster.configs.find req = some hc →
      hc.deleting = false ∧ hc.spec.wideRanges = true)
    (hrec : RecordedPass retries req w r) :
    Ledgered (reconcile retries req w r).2.cluster := by
  rcases reconcile_cases retries req w r with ⟨hcos, -⟩ |
    ⟨hc₀, hc, c, hf, hcore, hcos, hs, hpass⟩
  · exact hi.cosmetic hcos
  · obtain ⟨hd, hw⟩ := hcfg hc₀ hf
    obtain ⟨-, hdel, hspec, -⟩ := HeliosConfig.core_eq hcore
    rcases hpass with ⟨hdel', -⟩ | ⟨-, he⟩
    · rw [hdel, hd] at hdel'
      cases hdel'
    · unfold RecordedPass at hrec
      rw [he] at hrec ⊢
      exact ledgered_serveServices (w := ⟨c, w.pool⟩) hs (hspec ▸ hw) (hi.cosmetic hcos) hrec

/-! ## 3. Runs -/

/-- **The actions considered**: passes whose assignments are recorded, over configs with wide
    ranges; new Services with new names; anything else but the deletion of a config. -/
def Accounted (retries : Nat) (w : World) : Action → Prop
  | .step (.pass req r) => RecordedPass retries req w r ∧
      ∀ hc, w.cluster.configs.find req = some hc → hc.spec.wideRanges = true
  | .step (.createService svc) =>
      ∀ s ∈ w.cluster.services, s.key.name = svc.key.name → s.key = svc.key
  | .deleteConfig _ => False
  | _ => True

/-- The edit of a config that keeps its status. -/
theorem Ledgered.editConfig {c : Cluster} (h : Ledgered c)
    (hd : ∀ hc ∈ c.configs, hc.deleting = false)
    (k : NamespacedName) {f : HeliosConfig → HeliosConfig}
    (hf : ∀ hc, (f hc).key = hc.key ∧ (f hc).deleting = hc.deleting ∧ (f hc).status = hc.status) :
    Ledgered (c.editConfig k f) := by
  have hsvc : (c.editConfig k f).services = c.services := Cluster.editConfig_services c k f
  refine h.mono (hsvc ▸ h.names) (fun s hm _ => hsvc ▸ hm) fun k' hc hfind => ?_
  unfold Cluster.editConfig
  cases hold : c.configs.find k with
  | none => exact ⟨hc, hfind, fun _ h => h⟩
  | some old =>
      obtain ⟨hm, hk⟩ := Store.find_eq_some.mp hold
      have hne : ¬ ((f old).deleting = true ∧ (f old).finalizers = []) := by
        rw [(hf old).2.1, hd old hm]
        exact fun h => Bool.false_ne_true h.1
      have hkey : (f old).key = k := (hf old).1.trans hk
      simp only [if_neg hne]
      by_cases e : k = k'
      · subst e
        obtain rfl : old = hc := Option.some.inj (hold.symm.trans hfind)
        refine ⟨f old, Store.find_replace hold hkey, fun s => ?_⟩
        exact records_congr (by rw [(hf old).2.2]) (by rw [(hf old).2.2])
      · exact ⟨hc, (Store.find_replace_ne (hkey.trans_ne e)).trans hfind, fun _ h => h⟩

/-- What the run keeps: the account, and that no config is being deleted. -/
def Standing (w : World) : Prop :=
  Ledgered w.cluster ∧ ∀ hc ∈ w.cluster.configs, hc.deleting = false

theorem standing_act (retries : Nat) (w : World) (a : Action) (h : Standing w)
    (ha : Accounted retries w a) : Standing (w.act retries a) := by
  obtain ⟨hl, hd⟩ := h
  cases a with
  | step a =>
      rcases a.pass_or_outside with ⟨req, r, rfl⟩ | ho
      · have hcfg : ∀ hc, w.cluster.configs.find req = some hc →
            hc.deleting = false ∧ hc.spec.wideRanges = true :=
          fun hc hf => ⟨hd hc (Store.find_eq_some.mp hf).1, ha.2 hc hf⟩
        exact ⟨ledgered_pass hl hcfg ha.1,
          (reconcile_evolves retries req w r).forall_configs
            (fun _ _ h hr => hr.deleting.trans h) hd⟩
      · obtain ⟨hsv, -, hcf⟩ := World.step_outside retries w ho
        have hnames : UniqueNames (w.step retries a).cluster.services := by
          refine uniqueNames_outside (k := ⟨"", ""⟩) hl.names ho ?_
          cases a with
          | pass req r => cases ho
          | createService svc => exact ha
          | deleteService k => trivial
          | setIngress k ingress => trivial
        refine ⟨hl.mono hnames hsv fun k hc hf => ⟨hc, ?_, fun _ h => h⟩, fun hc hm => hd hc ?_⟩
        · exact hcf.symm ▸ hf
        · exact hcf ▸ hm
  | createConfig hc =>
      refine ⟨hl.mono hl.names (fun s hm _ => hm) fun k hc' hf => ⟨hc', ?_, fun _ h => h⟩,
        fun hc' hm => ?_⟩
      · obtain ⟨hm, rfl⟩ := Store.find_eq_some.mp hf
        exact Store.find_key (Store.mem_create_of_mem hm)
      · rcases Store.mem_create hm with hm | rfl
        · exact hd hc' hm
        · rfl
  | editSpec k spec =>
      exact ⟨hl.editConfig hd k fun _ => ⟨rfl, rfl, rfl⟩, forall_editConfig (fun _ _ _ h => h) hd⟩
  | editFinalizers k fs =>
      exact ⟨hl.editConfig hd k fun _ => ⟨rfl, rfl, rfl⟩, forall_editConfig (fun _ _ _ h => h) hd⟩
  | deleteConfig k => exact ha.elim
  | restart => exact ⟨hl, hd⟩

/-- **Restarts do not mix the configs up.** Start without configs and without an ingress of this
    controller, and take any accounted actions, restarts at any point among them: every address the
    controller gave is in the status of the config that gave it, and two Services served by
    different configs hold no address in common, in any spelling. -/
theorem restarts_keep_configs_apart (retries : Nat) (services : Store Service.key)
    (pool : IPAllocator) (actions : List Action) (hn : UniqueNames services)
    (hw : ∀ s ∈ services, s.writer = none)
    (h : Along (World.act retries) (Accounted retries) ⟨⟨services, .empty⟩, pool⟩ actions) :
    let w := run (World.act retries) ⟨⟨services, .empty⟩, pool⟩ actions
    (∀ s ∈ w.cluster.services, ∀ k, s.writer = some k →
        ∃ hc, w.cluster.configs.find k = some hc ∧ hc.records s) ∧
      ∀ s ∈ w.cluster.services, ∀ t ∈ w.cluster.services, ∀ k k', s.writer = some k →
        t.writer = some k' → k ≠ k' → ∀ a ∈ s.ingress, ∀ b ∈ t.ingress, parseIP a ≠ parseIP b := by
  intro w
  have hstart : Standing ⟨⟨services, .empty⟩, pool⟩ := by
    refine ⟨⟨hn, fun s hm k hk => ?_, fun s hm hk => absurd (hw s hm) hk,
      fun s hm t _ k _ hk => ?_⟩,
      fun hc hm => absurd hm List.not_mem_nil⟩
    · exact absurd (hk.symm.trans (hw s hm)) nofun
    · exact absurd (hk.symm.trans (hw s hm)) nofun
  obtain ⟨hl, -⟩ := run_inv (World.act retries) (standing_act retries) hstart h
  refine ⟨hl.recorded, fun s hs t ht k k' hk hk' hne a ha b hb => ?_⟩
  obtain ⟨x, rfl⟩ := hl.address s hs (by simp [hk]) a ha
  obtain ⟨y, rfl⟩ := hl.address t ht (by simp [hk']) b hb
  exact parseIP_ne fun e => hl.apart s hs t ht k k' hk hk' hne _ ha (e ▸ hb)

/-- Two configs with overlapping ranges, and a restart before the second one serves. -/
theorem restarts_keep_two_configs_apart :
    let web : Service := { key := ⟨"shop", "web"⟩, spec := { type := .loadBalancer } }
    let db : Service := { key := ⟨"data", "db"⟩, spec := { type := .loadBalancer } }
    let a : HeliosConfig :=
      { key := ⟨"shop", "a"⟩
        spec := { ipRange := "10.0.0.1-10.0.0.3", namespaceSelector := ["shop"] } }
    let b : HeliosConfig :=
      { key := ⟨"data", "b"⟩
        spec := { ipRange := "10.0.0.2-10.0.0.9", namespaceSelector := ["data"] } }
    ∃ w : World, w = run (World.act 4) ⟨⟨.ofList [web, db], .empty⟩, newIPAllocator⟩
        [.createConfig a, .step (.pass a.key allOk), .restart, .createConfig b,
          .step (.pass b.key allOk)] ∧
      w.cluster.services.objects.map (fun s => (s.writer, s.ingress)) =
        [(some a.key, ["10.0.0.1"]), (some b.key, ["10.0.0.2"])] ∧
      ∀ s ∈ w.cluster.services, ∀ t ∈ w.cluster.services, ∀ k k', s.writer = some k →
        t.writer = some k' → k ≠ k' → ∀ x ∈ s.ingress, ∀ y ∈ t.ingress, parseIP x ≠ parseIP y := by
  intro web db a b
  have hwide : ∀ (w : World) (k : NamespacedName),
      ((w.cluster.configs.find k).all fun hc => hc.spec.wideRanges) = true →
      Accounted 4 w (.step (.pass k allOk)) := by
    refine fun w k h => ⟨recordedPass_allOk rfl 4 k w, fun hc hf => ?_⟩
    rw [hf, Option.all_some] at h
    exact h
  have hn : UniqueNames (.ofList [web, db]) := by
    unfold UniqueNames
    decide
  have hw : ∀ s ∈ (.ofList [web, db] : Store Service.key), s.writer = none := by decide
  have hrun := restarts_keep_configs_apart 4 (.ofList [web, db]) newIPAllocator
    [.createConfig a, .step (.pass a.key allOk), .restart, .createConfig b,
      .step (.pass b.key allOk)] hn hw
    ⟨trivial, hwide _ _ (by decide), trivial, trivial, hwide _ _ (by decide), trivial⟩
  exact ⟨_, rfl, by decide, hrun.2⟩

end HeliosLB
