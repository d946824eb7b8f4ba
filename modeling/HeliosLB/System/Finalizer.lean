/-
  File:      HeliosLB/System/Finalizer.lean
  Subject:   THE FINALIZER GUARDS THE RELEASE, in operation.

  The addresses a config has given out are released when it is deleted, by `handleDeletion`, and
  nowhere else. So a config with records must not go without a pass over it. What holds it back is
  the finalizer; this is the argument that it does, as long as nobody else takes it off.

  * `Unstripped` -- the actions considered: an edit of the finalizers leaves this one on;
  * `Released` -- an action that was a deletion: the addresses are free, and every Service whose two
    calls succeeded is cleared;
  * `guard_kept_or_released` -- one action, under all replies;
  * **`finalizer_guards_release`** -- every run.
-/
import HeliosLB.System.Operation

namespace HeliosLB

open Lib

/-! ## 1. The release under all replies -/

theorem clearIngress_find_ne {ns name : String} {key : NamespacedName} (hne : key ≠ ⟨ns, name⟩)
    (c : Cluster) (r : ReleaseReplies) :
    (clearIngress ns c name r).services.find key = c.services.find key := by
  unfold clearIngress
  cases r.get with
  | failed e => rfl
  | ok =>
      cases hf : c.services.find ⟨ns, name⟩ with
      | none => rfl
      | some svc =>
          have hk : svc.key = ⟨ns, name⟩ := (Store.find_eq_some.mp hf).2
          have hk' : ({ svc with ingress := [], writer := none } : Service).key = ⟨ns, name⟩ := hk
          simp only
          rw [Cluster.updateServiceStatus_of_find hk' hf]
          cases r.statusUpdate with
          | rejected e => rfl
          | ok => exact Store.find_replace_ne fun e => hne (e.symm.trans hk)
          | lost text => exact Store.find_replace_ne fun e => hne (e.symm.trans hk)

theorem foldl_clearIngress_find_ne {ns : String} {names : List String} {key : NamespacedName}
    (h : ¬ (key.ns = ns ∧ key.name ∈ names)) (rs : String → ReleaseReplies) (c : Cluster) :
    (names.foldl (fun c n => clearIngress ns c n (rs n)) c).services.find key =
      c.services.find key := by
  induction names generalizing c with
  | nil => rfl
  | cons n names ih =>
      have hne : key ≠ ⟨ns, n⟩ := by
        rintro rfl
        exact h ⟨rfl, List.mem_cons_self⟩
      have hrest : ¬ (key.ns = ns ∧ key.name ∈ names) :=
        fun hk => h ⟨hk.1, List.mem_cons_of_mem n hk.2⟩
      rw [List.foldl_cons, ih hrest, clearIngress_find_ne hne]

/-- A Service both of whose calls succeed is cleared, whatever becomes of the others. -/
theorem releaseAll_cleared {hc : HeliosConfig} {w : World} {rs : String → ReleaseReplies}
    {name : String} (hn : name ∈ releaseNames hc) (hr : rs name = {}) :
    (releaseAll hc w rs).cluster.services.find ⟨hc.key.ns, name⟩ =
      (w.cluster.services.find ⟨hc.key.ns, name⟩).map Service.cleared := by
  have hnd : (releaseNames hc).Nodup := List.nodup_dedup _
  unfold releaseAll
  simp only
  generalize w.cluster = c
  generalize releaseNames hc = names at hn hnd
  induction names generalizing c with
  | nil => cases hn
  | cons n names ih =>
      obtain ⟨hnot, hnd⟩ := List.nodup_cons.mp hnd
      rw [List.foldl_cons]
      by_cases e : n = name
      · subst e
        rw [foldl_clearIngress_find_ne fun h => hnot h.2, hr, clearIngress_ok, if_pos rfl]
      · rw [ih _ ((List.mem_cons.mp hn).resolve_left (Ne.symm e)) hnd,
          clearIngress_find_ne fun h => e (by cases h; rfl)]

/-! ## 2. One action -/

/-- Nobody else takes the finalizer off. -/
def Unstripped (w : World) : Action → Prop
  | .editFinalizers k fs => ∀ hc, w.cluster.configs.find k = some hc →
      heliosConfigFinalizer ∈ hc.finalizers → heliosConfigFinalizer ∈ fs
  | _ => True

/-- **The action was a deletion of the config**: a pass over it while it is being deleted, that gave
    all its recorded addresses back and cleared every Service of a recorded name whose calls
    succeeded. -/
structure Released (retries : Nat) (w : World) (a : Action) (hc : HeliosConfig) : Prop where
  deleting : hc.deleting = true
  freed : ∀ x ∈ hc.recorded, x ∉ (w.act retries a).pool.used
  cleared : ∃ r, a = .step (.pass hc.key r) ∧ ∀ name ∈ releaseNames hc, r.release name = {} →
    (w.act retries a).cluster.services.find ⟨hc.key.ns, name⟩ =
      (w.cluster.services.find ⟨hc.key.ns, name⟩).map Service.cleared

/-- The config is still stored, and the finalizer on it. -/
def Guarded (w : World) (k : NamespacedName) : Prop :=
  ∃ hc, w.cluster.configs.find k = some hc ∧ heliosConfigFinalizer ∈ hc.finalizers

theorem handleDeletion_released {hc : HeliosConfig} (hfin : heliosConfigFinalizer ∈ hc.finalizers)
    (w : World) (r : PassReplies) :
    (∀ x ∈ hc.recorded, x ∉ (handleDeletion hc w r).2.pool.used) ∧
      ∀ name ∈ releaseNames hc, r.release name = {} →
        (handleDeletion hc w r).2.cluster.services.find ⟨hc.key.ns, name⟩ =
          (w.cluster.services.find ⟨hc.key.ns, name⟩).map Service.cleared := by
  have hpool : (releaseAll hc w r.release).pool = hc.recorded.foldl IPAllocator.releaseIP w.pool :=
    rfl
  have hsvc := Cluster.updateConfig_services (releaseAll hc w r.release).cluster
    (removeFinalizer hc) r.removeFinalizer
  have hfreed : ∀ x ∈ hc.recorded, x ∉ (releaseAll hc w r.release).pool.used := by
    intro x hx hu
    rw [hpool] at hu
    exact (IPAllocator.mem_foldl_releaseIP.mp hu).2 hx
  unfold handleDeletion
  rw [if_pos hfin]
  simp only
  generalize (releaseAll hc w r.release).cluster.updateConfig (removeFinalizer hc)
    r.removeFinalizer = out at hsvc
  have hcleared : ∀ name ∈ releaseNames hc, r.release name = {} →
      out.2.services.find ⟨hc.key.ns, name⟩ =
        (w.cluster.services.find ⟨hc.key.ns, name⟩).map Service.cleared := by
    intro name hn hr
    rw [hsvc]
    exact releaseAll_cleared hn hr
  rcases out with ⟨e | hc', c⟩
  · exact ⟨hfreed, hcleared⟩
  · exact ⟨hfreed, hcleared⟩

/-- A pass over a guarded config. -/
theorem pass_kept_or_released (retries : Nat) {w : World} {hc : HeliosConfig}
    (hm : hc ∈ w.cluster.configs) (hfin : heliosConfigFinalizer ∈ hc.finalizers)
    (r : PassReplies) :
    Guarded (w.act retries (.step (.pass hc.key r))) hc.key ∨
      Released retries w (.step (.pass hc.key r)) hc := by
  have hf := Store.find_key hm
  cases hd : hc.deleting with
  | false =>
      obtain ⟨hc', hf', hl⟩ := reconcile_live hf ⟨hd, hfin⟩ retries r
      exact .inl ⟨hc', hf', hl.guarded⟩
  | true =>
      cases hg : r.getConfig with
      | failed e =>
          have hsame : w.act retries (.step (.pass hc.key r)) = w := by
            show (reconcile retries hc.key w r).2 = w
            rw [reconcile, hg]
          rw [hsame]
          exact .inl ⟨hc, hf, hfin⟩
      | ok =>
          have hpass : w.act retries (.step (.pass hc.key r)) = (handleDeletion hc w r).2 := by
            show (reconcile retries hc.key w r).2 = _
            rw [reconcile, hg, hf]
            simp only [ensureFinalizer, if_pos hfin, if_pos hd]
          obtain ⟨hfreed, hcleared⟩ := handleDeletion_released hfin w r
          refine .inr ⟨hd, ?_, r, rfl, ?_⟩
          · rw [hpass]
            exact hfreed
          · rw [hpass]
            exact hcleared

theorem editConfig_guarded {w : World} {hc : HeliosConfig} (hm : hc ∈ w.cluster.configs)
    (hfin : heliosConfigFinalizer ∈ hc.finalizers) {k : NamespacedName}
    {f : HeliosConfig → HeliosConfig} (hk : ∀ hc, (f hc).key = hc.key)
    (hf : hc.key = k → heliosConfigFinalizer ∈ (f hc).finalizers) :
    Guarded { w with cluster := w.cluster.editConfig k f } hc.key := by
  unfold Guarded Cluster.editConfig
  by_cases e : hc.key = k
  · subst e
    have hne : ¬ ((f hc).deleting = true ∧ (f hc).finalizers = []) :=
      fun h => List.ne_nil_of_mem (hf rfl) h.2
    simp only [Store.find_key hm, if_neg hne]
    exact ⟨f hc, Store.find_replace (Store.find_key hm) (hk hc), hf rfl⟩
  · refine ⟨hc, ?_, hfin⟩
    cases hold : w.cluster.configs.find k with
    | none => exact Store.find_key hm
    | some old =>
        have hkold : (f old).key = k := (hk old).trans (Store.find_eq_some.mp hold).2
        simp only
        split
        · exact (Store.find_delete_ne e).trans (Store.find_key hm)
        · exact (Store.find_replace_ne fun h => e (h.symm.trans hkold)).trans (Store.find_key hm)

/-- **One action, under all replies**: a guarded config stays so, or is released. -/
theorem guard_kept_or_released (retries : Nat) {w : World} {hc : HeliosConfig}
    (hm : hc ∈ w.cluster.configs) (hfin : heliosConfigFinalizer ∈ hc.finalizers) {a : Action}
    (ha : Unstripped w a) : Guarded (w.act retries a) hc.key ∨ Released retries w a hc := by
  have hf := Store.find_key hm
  cases a with
  | step a =>
      rcases a.pass_or_outside with ⟨req, r, rfl⟩ | ho
      · by_cases e : hc.key = req
        · subst e
          exact pass_kept_or_released retries hm hfin r
        · exact .inl ⟨hc, (reconcile_others e retries w r).trans hf, hfin⟩
      · have hcfg : (w.act retries (.step a)).cluster.configs = w.cluster.configs :=
          (World.step_outside retries w ho).2.2
        exact .inl ⟨hc, hcfg ▸ hf, hfin⟩
  | createConfig new => exact .inl ⟨hc, Store.find_key (Store.mem_create_of_mem hm), hfin⟩
  | editSpec k spec => exact .inl (editConfig_guarded hm hfin (fun _ => rfl) fun _ => hfin)
  | editFinalizers k fs =>
      refine .inl (editConfig_guarded hm hfin (fun _ => rfl) fun e => ?_)
      exact ha hc (e ▸ hf) hfin
  | deleteConfig k => exact .inl (editConfig_guarded hm hfin (fun _ => rfl) fun _ => hfin)
  | restart => exact .inl ⟨hc, hf, hfin⟩

/-! ## 3. Runs -/

/-- A config that has given addresses out carries the finalizer, until its deletion has taken it
    off. -/
def HeliosConfig.Guards (hc : HeliosConfig) : Prop :=
  hc.recorded ≠ [] → heliosConfigFinalizer ∈ hc.finalizers ∨ hc.deleting = true

theorem guards_rewrite {hc hc' : HeliosConfig} (hr : Rewrite hc hc') : hc'.Guards := by
  intro hrec
  cases hr with
  | finalizer hn => exact .inl (List.mem_append_right _ (List.mem_singleton_self _))
  | initial hn => exact .inl (List.mem_append_right _ (List.mem_singleton_self _))
  | conflicted hl => exact .inl hl.guarded
  | failed hl => exact .inl hl.guarded
  | served hl => exact .inl hl.guarded
  | released hd => exact .inr hd

theorem guards_act (retries : Nat) (w : World) (a : Action)
    (h : ∀ hc ∈ w.cluster.configs, hc.Guards) (ha : Unstripped w a) :
    ∀ hc ∈ (w.act retries a).cluster.configs, hc.Guards := by
  refine act_forall_configs retries w a (fun hc hrec => absurd rfl hrec) (fun hc spec h => h)
    (fun hc hm fs e h hrec => ?_) (fun hc _ _ => .inr rfl) (fun _ _ _ hr => guards_rewrite hr) h
  subst e
  exact (h hrec).imp_left (ha hc (Store.find_key hm))

/-- **The finalizer guards the release.** Start without configs and let anything happen but that
    somebody else takes the finalizer off: every config that records an address carries it until
    its deletion, and at any point of the run a config that carries it goes, or loses it, only in a
    pass that released it. -/
theorem finalizer_guards_release (retries : Nat) (services : Store Service.key)
    (pool : IPAllocator) (actions : List Action)
    (h : Along (World.act retries) Unstripped ⟨⟨services, .empty⟩, pool⟩ actions) :
    let w := run (World.act retries) ⟨⟨services, .empty⟩, pool⟩ actions
    (∀ hc ∈ w.cluster.configs, hc.Guards) ∧
      ∀ hc ∈ w.cluster.configs, heliosConfigFinalizer ∈ hc.finalizers → ∀ a, Unstripped w a →
        Guarded (w.act retries a) hc.key ∨ Released retries w a hc := by
  intro w
  refine ⟨?_, fun hc hm hfin a ha => guard_kept_or_released retries hm hfin ha⟩
  have hempty : ∀ hc ∈ (.empty : Store HeliosConfig.key), hc.Guards :=
    fun _ h => absurd h List.not_mem_nil
  exact @run_inv World Action (World.act retries) (fun w => ∀ hc ∈ w.cluster.configs, hc.Guards)
    Unstripped (guards_act retries) actions _ hempty h

/-- A config created, served from once, and deleted. -/
theorem finalizer_guards_one_config :
    let web : Service := { key := ⟨"shop", "web"⟩, spec := { type := .loadBalancer } }
    let a : HeliosConfig := { key := ⟨"shop", "a"⟩, spec := { ipRange := "10.0.0.1-10.0.0.3" } }
    ∃ w : World, w = run (World.act 4) ⟨⟨.ofList [web], .empty⟩, newIPAllocator⟩
        [.createConfig a, .step (.pass a.key allOk), .deleteConfig a.key] ∧
      w.pool.used = {"10.0.0.1"} ∧ ∃ hc ∈ w.cluster.configs, hc.recorded = ["10.0.0.1"] ∧
        Released 4 w (.step (.pass hc.key allOk)) hc := by
  intro web a
  have hrun := finalizer_guards_release 4 (.ofList [web]) newIPAllocator
    [.createConfig a, .step (.pass a.key allOk), .deleteConfig a.key]
    ⟨trivial, trivial, trivial, trivial⟩
  generalize hw : run (World.act 4) ⟨⟨.ofList [web], .empty⟩, newIPAllocator⟩
    [.createConfig a, .step (.pass a.key allOk), .deleteConfig a.key] = w at hrun
  have hfound : (w.cluster.configs.find a.key).map (fun hc =>
      (hc.recorded, decide (heliosConfigFinalizer ∈ hc.finalizers))) =
        some (["10.0.0.1"], true) := by
    rw [← hw]
    decide
  have hgone : (w.act 4 (.step (.pass a.key allOk))).cluster.configs.find a.key = none := by
    rw [← hw]
    decide
  have hused : w.pool.used = {"10.0.0.1"} := by
    rw [← hw]
    decide
  obtain ⟨hc, hf, heq⟩ := Option.map_eq_some_iff.mp hfound
  obtain ⟨hrec, hfin⟩ := Prod.mk.inj heq
  obtain ⟨hm, hk⟩ := Store.find_eq_some.mp hf
  refine ⟨w, rfl, hused, hc, hm, hrec, ?_⟩
  refine (hrun.2 hc hm (of_decide_eq_true hfin) (.step (.pass hc.key allOk))
    trivial).resolve_left ?_
  rintro ⟨hc', hf', -⟩
  rw [hk] at hf'
  exact absurd (hgone.symm.trans hf') nofun

end HeliosLB
