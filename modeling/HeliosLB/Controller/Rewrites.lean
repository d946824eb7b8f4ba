/-
  File:      HeliosLB/Controller/Rewrites.lean
  Subject:   HOW A PASS REWRITES CONFIGS, whatever the API server answers.

  ReconcileSpec.lean says what a pass does to the allocations and forgets the texts (`Cosmetic`).
  Here it is the other way round: every stored config after a pass is one that was stored before,
  rewritten by the six writes the source makes.

  * `Rewrite` -- the six writes, each with what the pass knows when it makes it;
  * `Evolves` -- a cluster whose configs came about by rewrites of one of them;
  * **`reconcile_evolves`** -- a pass, under all replies: lost writes, rejected ones, deletions;
  * `Evolves.forall_configs` -- so what every rewrite keeps, every pass keeps;
  * `reconcile_others`, `reconcile_live` -- the other configs stay, deletions included, and a config
    that is not being deleted stays stored with its finalizer.
-/
import HeliosLB.Controller.Coexistence
import Mathlib.Logic.Relation

namespace HeliosLB

open Lib Relation

/-! ## 1. The writes -/

/-- The condition a config gets with its finalizer. -/
def initialized (hc : HeliosConfig) : HeliosConfig :=
  (addFinalizer hc).setCondition .ready .false .initializing "HeliosConfig is initializing"

/-- A config that is not being deleted and carries the finalizer. -/
structure HeliosConfig.Live (hc : HeliosConfig) : Prop where
  deleting : hc.deleting = false
  guarded : heliosConfigFinalizer ∈ hc.finalizers

/-- **The writes of a pass to its config.** -/
inductive Rewrite (hc : HeliosConfig) : HeliosConfig → Prop where
  | finalizer (h : heliosConfigFinalizer ∉ hc.finalizers) : Rewrite hc (addFinalizer hc)
  | initial (h : heliosConfigFinalizer ∉ hc.finalizers) : Rewrite hc (initialized hc)
  | conflicted (h : hc.Live) (conflicts : StringMap) : Rewrite hc (conflictedConfig hc conflicts)
  | failed (h : hc.Live) (f : AllocFailure) : Rewrite hc (failedConfig hc f)
  | served (h : hc.Live) (svc : Service) (ip ipv6 : String) :
      Rewrite hc (servedConfig hc svc ip ipv6)
  | released (h : hc.deleting = true) : Rewrite hc (removeFinalizer hc)

theorem Rewrite.key {hc hc' : HeliosConfig} (h : Rewrite hc hc') : hc'.key = hc.key := by
  cases h <;> rfl

theorem Rewrite.deleting {hc hc' : HeliosConfig} (h : Rewrite hc hc') :
    hc'.deleting = hc.deleting := by
  cases h <;> rfl

/-- What every rewrite keeps holds along all of them. -/
theorem Rewrite.path {P : HeliosConfig → Prop} (hP : ∀ hc hc', P hc → Rewrite hc hc' → P hc')
    {hc hc' : HeliosConfig} (h : ReflTransGen Rewrite hc hc') (hp : P hc) : P hc' := by
  induction h with
  | refl => exact hp
  | tail _ hr ih => exact hP _ _ ih hr

/-- **Every config of `c'` is one of `c`, or came about by rewrites of the one under `k`.** -/
def Evolves (k : NamespacedName) (c c' : Cluster) : Prop :=
  ∀ hc' ∈ c'.configs, hc' ∈ c.configs ∨
    ∃ hc ∈ c.configs, hc.key = k ∧ hc'.key = k ∧ ReflTransGen Rewrite hc hc'

namespace Evolves

variable {k : NamespacedName} {c c' c'' : Cluster}

theorem refl (k : NamespacedName) (c : Cluster) : Evolves k c c := fun _ h => .inl h

theorem of_configs (h : c'.configs = c.configs) : Evolves k c c' :=
  fun _ hm => .inl (h ▸ hm)

theorem trans (h : Evolves k c c') (h' : Evolves k c' c'') : Evolves k c c'' := by
  intro hc'' hm
  rcases h' hc'' hm with hm | ⟨hc', hm, hk', hk'', hr'⟩
  · exact h hc'' hm
  · rcases h hc' hm with hm | ⟨hc, hm, hk, -, hr⟩
    · exact .inr ⟨hc', hm, hk', hk'', hr'⟩
    · exact .inr ⟨hc, hm, hk, hk'', hr.trans hr'⟩

/-- A rewrite of the config of `c` written into `c'`, whatever the reply. -/
theorem commit {hc new : HeliosConfig} (h : Evolves hc.key c c') (hs : Stored hc c)
    (hr : Rewrite hc new) (r : WriteReply) :
    Evolves hc.key c (c'.commit r new { c' with configs := c'.configs.replace new }).2 := by
  have hw : Evolves hc.key c { c' with configs := c'.configs.replace new } := by
    intro hc' hm
    rcases Store.mem_replace.mp hm with ⟨rfl, -⟩ | ⟨hm, -⟩
    · exact .inr ⟨hc, (Store.find_eq_some.mp hs).1, rfl, hr.key, .single hr⟩
    · exact h hc' hm
  cases r with
  | rejected e => exact h
  | ok => exact hw
  | lost text => exact hw

/-- A status write of a rewritten config. -/
theorem status {hc new : HeliosConfig} (hs : Stored hc c) (hr : Rewrite hc new)
    (hm : { hc with status := new.status } = new) (r : WriteReply) :
    Evolves hc.key c (c.updateConfigStatus new r).2 := by
  rw [Cluster.updateConfigStatus_of_find hr.key hs, hm]
  exact commit (refl _ _) hs hr r

/-- **The rule**: what every rewrite keeps holds of every config afterwards. -/
theorem forall_configs {P : HeliosConfig → Prop} (hP : ∀ hc hc', P hc → Rewrite hc hc' → P hc')
    (h : Evolves k c c') (hc : ∀ hc ∈ c.configs, P hc) : ∀ hc ∈ c'.configs, P hc := by
  intro hc' hm
  rcases h hc' hm with hm | ⟨hc₀, hm, -, -, hr⟩
  · exact hc hc' hm
  · exact Rewrite.path hP hr (hc hc₀ hm)

end Evolves

/-! ## 2. The pass -/

/-- The config in memory carries the finalizer after the finalizer step. -/
theorem ensureFinalizer_guarded {hc hc' : HeliosConfig} {c : Cluster} (hs : Stored hc c)
    (r : PassReplies) (h : (ensureFinalizer hc c r).1 = .ok hc') :
    heliosConfigFinalizer ∈ hc'.finalizers := by
  unfold ensureFinalizer at h
  split at h
  · rename_i hfin
    cases h
    exact hfin
  · have hw := cosmeticWrite_addFinalizer hs r.addFinalizer
    generalize c.updateConfig (addFinalizer hc) r.addFinalizer = out at hw h
    rcases out with ⟨e | hc₁, c₁⟩
    · cases h
    · obtain ⟨rfl, hs₁⟩ := hw.stored hc₁ rfl
      have hi := cosmeticWrite_status hs₁ (initialized hc) rfl rfl r.initialStatus
      obtain ⟨rfl, -⟩ := hi.stored hc' h
      exact List.mem_append_right _ (List.mem_singleton_self _)

/-- The finalizer step; the config in memory goes on being the stored one. -/
theorem ensureFinalizer_evolves {hc : HeliosConfig} {c : Cluster} (hs : Stored hc c)
    (r : PassReplies) :
    Evolves hc.key c (ensureFinalizer hc c r).2 ∧
      ∀ hc', (ensureFinalizer hc c r).1 = .ok hc' →
        Stored hc' (ensureFinalizer hc c r).2 ∧ hc'.key = hc.key ∧
          heliosConfigFinalizer ∈ hc'.finalizers := by
  have hspec := ensureFinalizer_spec hs r
  refine ⟨?_, fun hc' h => ?_⟩
  · clear hspec
    unfold ensureFinalizer
    split
    · exact Evolves.refl _ _
    · rename_i hnot
      have hw := cosmeticWrite_addFinalizer hs r.addFinalizer
      have hne : (addFinalizer hc).finalizers ≠ [] := by simp [addFinalizer]
      have hk : (addFinalizer hc).key = hc.key := rfl
      have he : Evolves hc.key c (c.updateConfig (addFinalizer hc) r.addFinalizer).2 := by
        rw [Cluster.updateConfig_of_find hk hs hne]
        exact Evolves.commit (.refl _ _) hs (.finalizer hnot) r.addFinalizer
      generalize c.updateConfig (addFinalizer hc) r.addFinalizer = out at hw he
      rcases out with ⟨e | hc₁, c₁⟩
      · exact he
      · obtain ⟨rfl, hs₁⟩ := hw.stored hc₁ rfl
        have hk₁ : (initialized hc).key = (addFinalizer hc).key := rfl
        show Evolves hc.key c (Cluster.updateConfigStatus c₁ (initialized hc) r.initialStatus).2
        rw [Cluster.updateConfigStatus_of_find hk₁ hs₁]
        exact Evolves.commit he hs (.initial hnot) r.initialStatus
  · obtain ⟨hcore, hst⟩ := hspec.2.1 hc' h
    exact ⟨hst, (HeliosConfig.core_eq hcore).1, ensureFinalizer_guarded hs r h⟩

/-- One iteration of the loop. -/
theorem serveService_evolves {hc : HeliosConfig} {w : World} (hs : Stored hc w.cluster)
    (hd : hc.Live) (retries : Nat) (svc : Service) (r : TurnReplies) :
    match serveService retries hc svc w r with
    | .stop _ w' => Evolves hc.key w.cluster w'.cluster
    | .next _ hc' w' => Evolves hc.key w.cluster w'.cluster ∧ Stored hc' w'.cluster ∧
        hc'.key = hc.key ∧ hc'.Live := by
  have ho := allocateAndAssign_outcome retries hc svc w r
  unfold serveService
  cases checkQuota hc with
  | some e => exact Evolves.refl _ _
  | none =>
      generalize allocateAndAssign retries hc svc w r = out at ho
      rcases out with ⟨f | ⟨ip, ipv6⟩, w'⟩
      · have he : Evolves hc.key w.cluster w'.cluster := .of_configs ho.configs
        exact he.trans (.status (ho.stored hs) (.failed hd f) rfl r.failedStatus)
      · have he : Evolves hc.key w.cluster w'.cluster := .of_configs ho.configs
        have hs' : Stored hc w'.cluster := ho.stored hs
        have hw := he.trans (.status hs' (.served hd svc ip ipv6) rfl r.recordStatus)
        simp only
        rw [Cluster.updateConfigStatus_of_find (servedConfig_key hc svc ip ipv6) hs'] at hw ⊢
        cases hr : r.recordStatus with
        | rejected e =>
            rw [hr] at hw
            exact hw
        | lost text =>
            rw [hr] at hw
            exact hw
        | ok =>
            rw [hr] at hw
            exact ⟨hw, Cluster.stored_withConfig hs' rfl, rfl, hd.1, hd.2⟩

theorem serveServices_evolves {svcs : List Service} {hc : HeliosConfig} {w : World}
    {turn : Nat → TurnReplies} (hs : Stored hc w.cluster) (hd : hc.Live) (retries : Nat) :
    Evolves hc.key w.cluster (serveServices retries svcs hc w turn).2.cluster := by
  induction svcs generalizing hc w turn with
  | nil => exact Evolves.refl _ _
  | cons svc rest ih =>
      have ht := serveService_evolves hs hd retries svc (turn 0)
      rw [serveServices]
      generalize serveService retries hc svc w (turn 0) = t at ht
      cases t with
      | stop report w' => exact ht
      | next event hc' w' =>
          obtain ⟨he, hs', hk, hd'⟩ := ht
          exact he.trans (hk ▸ ih hs' hd')

theorem clearIngress_configs (ns : String) (c : Cluster) (name : String) (r : ReleaseReplies) :
    (clearIngress ns c name r).configs = c.configs := by
  unfold clearIngress
  split
  · rfl
  · split
    · rfl
    · unfold Cluster.updateServiceStatus
      split
      · rfl
      · cases r.statusUpdate <;> rfl

theorem releaseAll_configs (hc : HeliosConfig) (w : World) (rs : String → ReleaseReplies) :
    (releaseAll hc w rs).cluster.configs = w.cluster.configs := by
  unfold releaseAll
  dsimp only
  generalize w.cluster = c
  induction releaseNames hc generalizing c with
  | nil => rfl
  | cons name names ih => rw [List.foldl_cons, ih, clearIngress_configs]

/-- The write that takes the finalizer off: the config is rewritten, or goes. -/
theorem updateConfig_removeFinalizer_evolves {hc : HeliosConfig} {c : Cluster} (hs : Stored hc c)
    (hd : hc.deleting = true) (r : WriteReply) :
    Evolves hc.key c (c.updateConfig (removeFinalizer hc) r).2 := by
  by_cases hf : (removeFinalizer hc).finalizers = []
  · have hgone : Evolves hc.key c { c with configs := c.configs.delete hc.key } :=
      fun _ hm => .inl (Store.mem_delete.mp hm).1
    have hk : (removeFinalizer hc).key = hc.key := rfl
    rw [Cluster.updateConfig, hk, hs]
    dsimp only
    rw [if_pos ⟨hd, hf⟩]
    cases r with
    | rejected e => exact Evolves.refl _ _
    | ok => exact hgone
    | lost text => exact hgone
  · have hk : (removeFinalizer hc).key = hc.key := rfl
    rw [Cluster.updateConfig_of_find hk hs hf]
    exact Evolves.commit (.refl _ _) hs (.released hd) r

theorem handleDeletion_evolves {hc : HeliosConfig} {w : World} (hs : Stored hc w.cluster)
    (hd : hc.deleting = true) (r : PassReplies) :
    Evolves hc.key w.cluster (handleDeletion hc w r).2.cluster := by
  unfold handleDeletion
  split
  · have hcfg := releaseAll_configs hc w r.release
    have hs' : Stored hc (releaseAll hc w r.release).cluster := by
      unfold Stored
      rw [hcfg]
      exact hs
    have hw := (Evolves.of_configs hcfg).trans
      (updateConfig_removeFinalizer_evolves hs' hd r.removeFinalizer)
    dsimp only
    generalize (releaseAll hc w r.release).cluster.updateConfig (removeFinalizer hc)
      r.removeFinalizer = out at hw
    rcases out with ⟨e | hc', c⟩
    · exact hw
    · exact hw
  · exact Evolves.refl _ _

theorem reconcileServices_evolves {hc : HeliosConfig} {w : World} (hs : Stored hc w.cluster)
    (hd : hc.Live) (retries : Nat) (r : PassReplies) :
    Evolves hc.key w.cluster (reconcileServices retries hc w r).2.cluster := by
  unfold reconcileServices
  cases r.listServices with
  | failed e => exact Evolves.refl _ _
  | ok =>
      cases r.listConfigs with
      | failed e => exact Evolves.refl _ _
      | ok =>
          simp only
          split
          · exact Evolves.status hs (.conflicted hd _) rfl r.conflictStatus
          · exact serveServices_evolves hs hd retries

/-- **A pass rewrites its own config**, by the six writes. -/
theorem reconcile_evolves (retries : Nat) (req : NamespacedName) (w : World) (r : PassReplies) :
    Evolves req w.cluster (reconcile retries req w r).2.cluster := by
  unfold reconcile
  cases r.getConfig with
  | failed e => exact Evolves.refl _ _
  | ok =>
      cases hf : w.cluster.configs.find req with
      | none => exact Evolves.refl _ _
      | some hc₀ =>
          obtain ⟨hm, rfl⟩ := Store.find_eq_some.mp hf
          have he := ensureFinalizer_evolves hf r
          simp only
          generalize ensureFinalizer hc₀ w.cluster r = out at he
          rcases out with ⟨e | hc, c⟩
          · exact he.1
          · obtain ⟨hs, hk, hfin⟩ := he.2 hc rfl
            simp only
            split
            · rename_i hd
              exact he.1.trans (hk ▸ handleDeletion_evolves (w := ⟨c, w.pool⟩) hs hd r)
            · rename_i hd
              have hlive : hc.Live := ⟨Bool.not_eq_true _ ▸ hd, hfin⟩
              exact he.1.trans
                (hk ▸ reconcileServices_evolves (w := ⟨c, w.pool⟩) hs hlive retries r)

/-! ## 3. What stays -/

theorem handleDeletion_find_ne {k : NamespacedName} {hc : HeliosConfig} (hk : k ≠ hc.key)
    (w : World) (r : PassReplies) :
    (handleDeletion hc w r).2.cluster.configs.find k = w.cluster.configs.find k := by
  have hcfg := releaseAll_configs hc w r.release
  have hkey : (removeFinalizer hc).key = hc.key := rfl
  have hw := updateConfig_writesOnly hkey (releaseAll hc w r.release).cluster r.removeFinalizer
  unfold handleDeletion
  split
  · dsimp only
    generalize (releaseAll hc w r.release).cluster.updateConfig (removeFinalizer hc)
      r.removeFinalizer = out at hw
    have hf := hw.others k hk
    rw [hcfg] at hf
    rcases out with ⟨e | hc', c⟩
    · exact hf
    · exact hf
  · rfl

/-- **A pass keeps every other config**, also if it is a deletion. -/
theorem reconcile_others {k req : NamespacedName} (hk : k ≠ req) (retries : Nat) (w : World)
    (r : PassReplies) :
    (reconcile retries req w r).2.cluster.configs.find k = w.cluster.configs.find k := by
  cases hf : w.cluster.configs.find req with
  | none =>
      unfold reconcile
      rw [hf]
      cases r.getConfig <;> rfl
  | some hc₀ =>
      cases hd : hc₀.deleting with
      | false => exact reconcile_find_ne hk retries hf hd r
      | true =>
          obtain ⟨-, rfl⟩ := Store.find_eq_some.mp hf
          have hw := ensureFinalizer_writesOnly (Eq.refl hc₀.key) w.cluster r
          have hcore := (ensureFinalizer_spec hf r).2.1
          unfold reconcile
          cases r.getConfig with
          | failed e => rfl
          | ok =>
              rw [hf]
              simp only
              generalize ensureFinalizer hc₀ w.cluster r = out at hw hcore
              rcases out with ⟨e | hc, c⟩
              · exact hw.others k hk
              · have hkey : hc.key = hc₀.key := hw.returned hc rfl
                have hdel : hc.deleting = true := by
                  rw [(HeliosConfig.core_eq (hcore hc rfl).1).2.1, hd]
                simp only
                rw [if_pos hdel]
                exact (handleDeletion_find_ne (fun e => hk (e.trans hkey)) ⟨c, w.pool⟩ r).trans
                  (hw.others k hk)

theorem Rewrite.live {hc hc' : HeliosConfig} (h : Rewrite hc hc') (hl : hc.Live) : hc'.Live := by
  obtain ⟨hd, hf⟩ := hl
  cases h with
  | finalizer hn => exact absurd hf hn
  | initial hn => exact absurd hf hn
  | conflicted => exact ⟨hd, hf⟩
  | failed => exact ⟨hd, hf⟩
  | served => exact ⟨hd, hf⟩
  | released hdel => exact absurd (hd.symm.trans hdel) Bool.false_ne_true

/-- A config that is not being deleted stays stored. -/
theorem reconcile_stored {req : NamespacedName} {w : World} {hc : HeliosConfig}
    (hf : w.cluster.configs.find req = some hc) (hd : hc.deleting = false) (retries : Nat)
    (r : PassReplies) :
    ∃ hc', (reconcile retries req w r).2.cluster.configs.find req = some hc' := by
  have hsome : ∀ {c c' : Cluster}, Cosmetic c c' → ∀ {hc : HeliosConfig},
      c.configs.find req = some hc → ∃ hc', c'.configs.find req = some hc' := by
    intro c c' hcos hc hfc
    have := hcos.configs req
    rw [hfc, Option.map_some] at this
    obtain ⟨hc', hf', -⟩ := Option.map_eq_some_iff.mp this
    exact ⟨hc', hf'⟩
  rcases reconcile_cases retries req w r with ⟨hcos, -, -⟩ |
    ⟨hc₀, hc₁, c, hf₀, hcore, hcos, hs, ⟨hdel, -⟩ | ⟨-, heq⟩⟩
  · exact hsome hcos hf
  · -- it would have to be deleting
    obtain rfl : hc = hc₀ := Option.some.inj (hf.symm.trans hf₀)
    rw [(HeliosConfig.core_eq hcore).2.1, hd] at hdel
    cases hdel
  · have hkey : hc₁.key = req :=
      (HeliosConfig.core_eq hcore).1.trans (Store.find_eq_some.mp hf₀).2
    rw [heq]
    refine serveServices_rule (P := fun _ => True) (I := fun hc _ => hc.key = req)
      (Q := fun _ w => ∃ hc', w.cluster.configs.find req = some hc') ?_ ?_ ?_ ?_ hs hkey
      fun _ _ => trivial
    · intro hc w hs hk
      exact ⟨hc, hk ▸ hs⟩
    · intro svc _ hc w r f w' c hs hk _ ho hcos
      have hs' : w'.cluster.configs.find hc.key = some hc := ho.stored hs
      exact hsome hcos (hk ▸ hs')
    · intro svc _ hc w r ip ipv6 w' hs hk _ _ ho
      have hs' : w'.cluster.configs.find hc.key = some hc := ho.stored hs
      exact ⟨hc, hk ▸ hs'⟩
    · intro svc _ hc w r ip ipv6 w' _ hk _ _ _
      exact hk

/-- **A config that is not being deleted keeps its finalizer**, through every pass. -/
theorem reconcile_live {req : NamespacedName} {w : World} {hc : HeliosConfig}
    (hf : w.cluster.configs.find req = some hc) (hl : hc.Live) (retries : Nat) (r : PassReplies) :
    ∃ hc', (reconcile retries req w r).2.cluster.configs.find req = some hc' ∧ hc'.Live := by
  obtain ⟨hc', hf'⟩ := reconcile_stored hf hl.deleting retries r
  refine ⟨hc', hf', ?_⟩
  obtain ⟨hm, hk⟩ := Store.find_eq_some.mp hf
  obtain ⟨hm', hk'⟩ := Store.find_eq_some.mp hf'
  rcases reconcile_evolves retries req w r hc' hm' with hold | ⟨hc₀, hm₀, hk₀, -, hr⟩
  · obtain rfl := Store.eq_of_key hold hm (hk'.trans hk.symm)
    exact hl
  · obtain rfl := Store.eq_of_key hm₀ hm (hk₀.trans hk.symm)
    exact Rewrite.path (fun _ _ hl hr => hr.live hl) hr hl

end HeliosLB
