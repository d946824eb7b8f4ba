/-
  File:      HeliosLB/System/Records.lean
  Subject:   ASSIGNED ADDRESSES IN THE STATUS, over whole runs.

  The Service is written first and the record follows. If the record is refused, the pass returns
  an error; the next pass does not see the Service any more, because it has an ingress now, and
  nothing records the address later.

  * `Durable` -- every Service this config assigned to has its addresses under its name;
  * `durable_recordInv` -- one recorded assignment keeps it, if names are unique;
  * `UniquelyNamed` -- the steps considered: every record of an assignment is stored, any other
    status write may fail;
  * **`assignments_recorded`** -- so in every run of these steps the records are complete.
-/
import HeliosLB.System.Recorded

namespace HeliosLB

open Lib

/-! ## 1. The invariant -/

/-- The status has the addresses of the Service under its name. -/
def HeliosConfig.records (hc : HeliosConfig) (s : Service) : Prop :=
  ∃ ip ipv6, s.ingress = ingressOf ip ipv6 ∧
    hc.status.allocatedIPs.lookup s.key.name = some ip ∧
    (ipv6 ≠ "" → hc.status.allocatedIPv6s.lookup s.key.name = some ipv6)

/-- No two Services have one name. -/
def UniqueNames (S : Store Service.key) : Prop :=
  ∀ s ∈ S, ∀ t ∈ S, s.key.name = t.key.name → s.key = t.key

/-- **The addresses this config assigned are recorded.** -/
structure Durable (k : NamespacedName) (hc : HeliosConfig) (S : Store Service.key) : Prop where
  key : hc.key = k
  names : UniqueNames S
  recorded : ∀ s ∈ S, s.writer = some k → hc.records s

theorem records_congr {a b : HeliosConfig} {s : Service}
    (h4 : a.status.allocatedIPs = b.status.allocatedIPs)
    (h6 : a.status.allocatedIPv6s = b.status.allocatedIPv6s) (h : a.records s) : b.records s := by
  unfold HeliosConfig.records at h ⊢
  rwa [← h4, ← h6]

/-- The record of one Service leaves those of the others. -/
theorem records_served {hc : HeliosConfig} {svc s : Service} {ip ipv6 : String}
    (hne : s.key.name ≠ svc.key.name) (h : hc.records s) :
    (servedConfig hc svc ip ipv6).records s := by
  obtain ⟨ip', ipv6', hi, h4, h6⟩ := h
  refine ⟨ip', ipv6', hi, ?_, fun hn => ?_⟩
  · rw [servedConfig_allocatedIPs, AList.lookup_insert_ne hne, h4]
  · rw [servedConfig_allocatedIPv6s]
    split
    · rw [AList.lookup_insert_ne hne, h6 hn]
    · exact h6 hn

/-- The Service just served is recorded. -/
theorem records_written {hc : HeliosConfig} {svc stored : Service} {ip ipv6 : String}
    (hk : stored.key = svc.key) :
    (servedConfig hc svc ip ipv6).records (written hc.key ip ipv6 stored) := by
  refine ⟨ip, ipv6, rfl, ?_, fun hn => ?_⟩
  · rw [written_key, hk, servedConfig_allocatedIPs, AList.lookup_insert]
  · rw [written_key, hk, servedConfig_allocatedIPv6s, if_pos hn, AList.lookup_insert]

theorem UniqueNames.replace {S : Store Service.key} {a b : Service} (h : UniqueNames S)
    (ha : a ∈ S) (hk : b.key = a.key) : UniqueNames (S.replace b) := by
  -- every stored Service has the key of one stored before
  have hold : ∀ s ∈ S.replace b, ∃ s' ∈ S, s'.key = s.key := by
    intro s hs
    rcases Store.mem_replace.mp hs with ⟨rfl, _⟩ | ⟨hs, _⟩
    · exact ⟨a, ha, hk.symm⟩
    · exact ⟨s, hs, rfl⟩
  intro s hs t ht hn
  obtain ⟨s', hs', hsk⟩ := hold s hs
  obtain ⟨t', ht', htk⟩ := hold t ht
  rw [← hsk, ← htk] at hn ⊢
  exact h s' hs' t' ht' hn

/-- **One recorded assignment keeps the records complete.** -/
theorem durable_recordInv (k : NamespacedName) (svcs : List Service) :
    RecordInv (Durable k) svcs where
  core a b S hab h := by
    obtain ⟨hk, _, _, h4, h6⟩ := HeliosConfig.core_eq hab
    exact ⟨hk ▸ h.key, h.names, fun s hs hw => records_congr h4 h6 (h.recorded s hs hw)⟩
  served svc _ hc S stored ip ipv6 h _ hf := by
    obtain ⟨hm, hk⟩ := Store.find_eq_some.mp hf
    refine ⟨h.key, h.names.replace hm rfl, fun s hs hw => ?_⟩
    rcases Store.mem_replace.mp hs with ⟨rfl, _⟩ | ⟨hs, hne⟩
    · exact records_written hk
    · refine records_served (fun hn => hne ?_) (h.recorded s hs hw)
      exact h.names s hs stored hm (hn.trans (congrArg NamespacedName.name hk.symm))

/-! ## 2. Runs -/

/-- **The steps considered**: passes over the config whose assignments are recorded, while every
    other status write may fail, and changes of the Services that keep their names unique. -/
def UniquelyNamed (retries : Nat) (k : NamespacedName) (w : World) : Step → Prop
  | .pass req r => req = k ∧ RecordedPass retries req w r ∧
      ∀ hc, w.cluster.configs.find k = some hc → hc.deleting = false
  | .createService svc => ∀ s ∈ w.cluster.services, s.key.name = svc.key.name → s.key = svc.key
  | _ => True

theorem uniqueNames_outside {retries : Nat} {k : NamespacedName} {w : World} {a : Step}
    (hn : UniqueNames w.cluster.services) (ha : a.outside = true)
    (h : UniquelyNamed retries k w a) :
    UniqueNames (w.step retries a).cluster.services := by
  cases a with
  | pass req r => cases ha
  | createService svc =>
      intro s hs t ht he
      rcases Store.mem_create hs with hs | rfl <;> rcases Store.mem_create ht with ht | rfl
      · exact hn s hs t ht he
      · exact h s hs he
      · exact (h t ht he.symm).symm
      · rfl
  | deleteService key =>
      intro s hs t ht he
      exact hn s (Store.mem_delete.mp hs).1 t (Store.mem_delete.mp ht).1 he
  | setIngress key ingress =>
      show UniqueNames (w.cluster.setIngress key ingress).services
      unfold Cluster.setIngress
      cases hf : w.cluster.services.find key with
      | none => exact hn
      | some svc => exact hn.replace (Store.find_eq_some.mp hf).1 rfl

theorem durable_step (retries : Nat) (k : NamespacedName) (w : World) (a : Step)
    (hi : Holds (Durable k) k w.cluster) (h : UniquelyNamed retries k w a) :
    Holds (Durable k) k (w.step retries a).cluster := by
  rcases a.pass_or_outside with ⟨req, r, rfl⟩ | ha
  · obtain ⟨rfl, hr, hdel⟩ := h
    exact reconcile_recordInv hi (fun hc hf => ⟨hdel hc hf, durable_recordInv _ _⟩) hr
  · obtain ⟨hc, hf, hd⟩ := hi
    obtain ⟨hw, _, hcf⟩ := World.step_outside retries w ha
    refine ⟨hc, hcf ▸ hf, hd.key, uniqueNames_outside hd.names ha h, fun s hs hsw => ?_⟩
    exact hd.recorded s (hw s hs (by simp [hsw])) hsw

/-- **Every address the config assigned is in its status**, in every state of every run whose
    records of assignments are stored: under the Service's name in `AllocatedIPs`, and a second
    one in `AllocatedIPv6s`. -/
theorem assignments_recorded (retries : Nat) {k : NamespacedName} {w : World} {steps : List Step}
    {hc₀ : HeliosConfig} (h₀ : w.cluster.configs.find k = some hc₀)
    (hn : UniqueNames w.cluster.services) (hw : ∀ s ∈ w.cluster.services, s.writer ≠ some k)
    (h : Along (World.step retries) (UniquelyNamed retries k) w steps) :
    let w' := run (World.step retries) w steps
    ∃ hc, w'.cluster.configs.find k = some hc ∧
      ∀ s ∈ w'.cluster.services, s.writer = some k → hc.records s := by
  obtain ⟨hc, hf, hd⟩ := run_inv (World.step retries) (durable_step retries k)
    ⟨hc₀, h₀, (Store.find_eq_some.mp h₀).2, hn, fun s hs hsw => absurd hsw (hw s hs)⟩ h
  exact ⟨hc, hf, hd.recorded⟩

/-- A first pass that cannot write its first condition, and one in which everything succeeds. -/
theorem assignments_recorded_dual_stack :
    let web : Service := { key := ⟨"shop", "web"⟩, spec := { type := .loadBalancer } }
    let a : HeliosConfig :=
      { key := ⟨"default", "a"⟩
        spec := { ipRange := "10.0.0.1-10.0.0.9", ipv6Range := "fd00::1-fd00::9" } }
    let w : World := ⟨⟨.ofList [web], .ofList [a]⟩, newIPAllocator⟩
    let steps : List Step :=
      [.pass a.key { initialStatus := .rejected .conflict }, .pass a.key allOk]
    let w' := run (World.step 4) w steps
    w'.cluster.services.objects.map Service.ingress = [["10.0.0.1", "fd00::1"]] ∧
      ∃ hc, w'.cluster.configs.find a.key = some hc ∧
        ∀ s ∈ w'.cluster.services, s.writer = some a.key → hc.records s := by
  intro web a w steps
  have h₀ : w.cluster.configs.find a.key = some a := Store.find_key (List.mem_singleton_self a)
  have hw : ∀ s ∈ w.cluster.services, s.writer ≠ some a.key := by decide
  have hn : UniqueNames w.cluster.services := by unfold UniqueNames; decide
  have hpass : ∀ (w : World) (r : PassReplies), r.turn = allOk.turn →
      (w.cluster.configs.find a.key).all (fun hc => !hc.deleting) = true →
      UniquelyNamed 4 a.key w (.pass a.key r) := by
    intro w r hr hd
    refine ⟨rfl, recordedPass_allOk hr 4 _ w, fun hc hf => ?_⟩
    rw [hf] at hd
    simpa using hd
  exact ⟨by decide, assignments_recorded 4 h₀ hn hw
    ⟨hpass _ _ rfl (by decide), hpass _ _ rfl (by decide), trivial⟩⟩

/-- **A refused record is never made up for.** The record of the first pass is rejected; the second
    pass succeeds in every call and finds no conflict, and `web` still holds an address the status
    does not have. -/
theorem assignments_lost_record :
    let web : Service := { key := ⟨"shop", "web"⟩, spec := { type := .loadBalancer } }
    let a : HeliosConfig := { key := ⟨"default", "a"⟩, spec := { ipRange := "10.0.0.1-10.0.0.9" } }
    let w : World := ⟨⟨.ofList [web], .ofList [a]⟩, newIPAllocator⟩
    let w' := run (World.step 4) w
      [.pass a.key { turn := fun _ => { recordStatus := .rejected .conflict } }, .pass a.key allOk]
    w'.cluster.services.objects.map (fun s => (s.ingress, s.writer)) =
        [(["10.0.0.1"], some a.key)] ∧
      (w'.cluster.configs.find a.key).map (fun hc =>
        (hc.status.allocatedIPs.keys, hc.status.allocatedIPv6s.keys)) = some ([], []) := by
  decide

end HeliosLB
