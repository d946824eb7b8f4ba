/-
  File:      HeliosLB/Balancer/HealthCheck.lean
  Subject:   THE PROBE OF ONE BACKEND (internal/loadbalancer/health.go) and the defaults
             `NewLoadBalancer` fills in before it starts probing.

  What the network answers to a text is an input (`Network`), so a probe is a function. Dialling
  reads the text; that two texts may lead to one host is left to the answers. The port of a backend
  is never written after its creation; it stands beside the heap (`ports`).

  * `BalancerConfig.withDefaults` -- the options a balancer runs with;
  * `joinHostPort`, `joinHostPort_inj` -- the address that is dialled, from which host and port can
    be read back;
  * `checkTCP`, `checkHTTP`, `checkBackendHealth` -- the probe;
    **`probe_text_separates`** -- the text it puts to the network tells the backends apart.
-/
import HeliosLB.Balancer.LoadBalancer

namespace HeliosLB

/-! ## 1. Configuration -/

/-- `time.Second`, a `time.Duration` in nanoseconds. -/
def second : Int64 := 1000000000

/-- `HealthCheckOptions`. -/
structure HealthCheckOptions where
  timeout : Int64 := 0
  protocol : String := ""
  httpPath : String := ""
  deriving DecidableEq, Repr

/-- `BalancerConfig` (`MetricsEnabled` is read nowhere). -/
structure BalancerConfig where
  type : BalancerType
  healthCheck : Bool := false
  checkInterval : Int64 := 0
  weights : List Weight := []
  healthCheckOpts : HealthCheckOptions := {}

/-- The first lines of `NewLoadBalancer`. -/
def BalancerConfig.withDefaults (config : BalancerConfig) : BalancerConfig :=
  let opts := config.healthCheckOpts
  { config with
    checkInterval :=
      if config.healthCheck ∧ config.checkInterval ≤ 0 then second * 5 else config.checkInterval
    healthCheckOpts :=
      { opts with
        timeout := if opts.timeout ≤ 0 then second else opts.timeout
        protocol := if opts.protocol = "" then "TCP" else opts.protocol } }

/-! ## 2. The address that is probed -/

/-- `net.JoinHostPort`: a host with a colon in it goes in brackets. -/
def joinHostPort (host port : String) : String :=
  if ':' ∈ host.toList then "[" ++ host ++ "]:" ++ port else host ++ ":" ++ port

/-- `strconv.Itoa`. -/
def itoa (n : Int) : String := n.repr

theorem natRepr_digit {k : Nat} {c : Char} (h : c ∈ k.repr.toList) : c.isDigit = true :=
  Nat.isDigit_of_mem_toDigits (by decide) (by decide) (Nat.toList_repr ▸ h)

theorem natRepr_inj {j k : Nat} (h : j.repr = k.repr) : j = k := by
  have e := congrArg String.toList h
  rw [Nat.toList_repr, Nat.toList_repr] at e
  rw [← @Nat.ofDigitChars_toDigits 10 j (by decide) (by decide), e,
    Nat.ofDigitChars_toDigits (by decide) (by decide)]

/-- A number that is not negative does not begin with a minus sign. -/
theorem natRepr_ne_neg (j k : Nat) : j.repr ≠ "-" ++ k.repr := by
  intro h
  have hm : '-' ∈ j.repr.toList := by
    rw [h, String.toList_append]
    exact List.mem_append_left _ (by decide)
  exact absurd (natRepr_digit hm) (by decide)

theorem itoa_inj {m n : Int} (h : itoa m = itoa n) : m = n := by
  cases m <;> cases n
  · exact congrArg Int.ofNat (natRepr_inj h)
  · exact absurd h (natRepr_ne_neg _ _)
  · exact absurd h.symm (natRepr_ne_neg _ _)
  · have e := congrArg String.toList (show "-" ++ _ = "-" ++ _ from h)
    rw [String.toList_append, String.toList_append] at e
    have := natRepr_inj (String.toList_inj.mp (List.append_cancel_left e))
    exact congrArg Int.negSucc (Nat.succ.inj this)

theorem itoa_noColon (n : Int) : ':' ∉ (itoa n).toList := by
  have hnat : ∀ k : Nat, ':' ∉ k.repr.toList :=
    fun k h => absurd (natRepr_digit h) (by decide)
  cases n with
  | ofNat k => exact hnat k
  | negSucc k =>
      rw [itoa, Int.repr, String.toList_append, List.mem_append, not_or]
      exact ⟨by decide, hnat (k + 1)⟩

/-- A text is cut at its last colon in one way. -/
theorem append_colon_inj {a b p q : List Char} (hp : ':' ∉ p) (hq : ':' ∉ q)
    (h : a ++ ':' :: p = b ++ ':' :: q) : a = b ∧ p = q := by
  have hr := congrArg List.reverse h
  simp only [List.reverse_append, List.reverse_cons, List.append_assoc, List.singleton_append] at hr
  have htake := congrArg (List.takeWhile (· ≠ ':')) hr
  have hne : ∀ {l : List Char}, ':' ∉ l → ∀ c ∈ l.reverse, decide (c ≠ ':') = true :=
    fun hl c hc => decide_eq_true fun e => hl (e ▸ List.mem_reverse.mp hc)
  rw [List.takeWhile_append_of_pos (hne hp), List.takeWhile_append_of_pos (hne hq)] at htake
  simp only [List.takeWhile_cons, ne_eq, not_true_eq_false, decide_false, Bool.false_eq_true,
    if_false, List.append_nil, List.reverse_inj] at htake
  subst htake
  exact ⟨(List.append_left_inj _).mp h, rfl⟩

/-- The dialled address tells host and port. -/
theorem joinHostPort_inj {h h' p p' : String} (hp : ':' ∉ p.toList) (hp' : ':' ∉ p'.toList)
    (e : joinHostPort h p = joinHostPort h' p') : h = h' ∧ p = p' := by
  have hcut : ∀ h p : String, (joinHostPort h p).toList =
      (if ':' ∈ h.toList then '[' :: (h.toList ++ [']']) else h.toList) ++ ':' :: p.toList := by
    intro h p
    unfold joinHostPort
    split <;> simp [String.toList_append]
  have el := congrArg String.toList e
  rw [hcut, hcut] at el
  obtain ⟨hh, hpp⟩ := append_colon_inj hp hp' el
  refine ⟨?_, String.toList_inj.mp hpp⟩
  -- brackets stand exactly around a host with a colon, so both hosts have one or neither
  split at hh <;> split at hh
  · exact String.toList_inj.mp (List.append_left_injective _ (List.cons.inj hh).2)
  · rename_i hc hn
    rw [← hh] at hn
    exact absurd (List.mem_cons_of_mem _ (List.mem_append_left _ hc)) hn
  · rename_i hn hc
    rw [hh] at hn
    exact absurd (List.mem_cons_of_mem _ (List.mem_append_left _ hc)) hn
  · exact String.toList_inj.mp hh

/-! ## 3. The probe -/

/-- What the network answers to the text it is given: whether a connection to an address is made
    within the timeout, and the status of a `GET`, if there is an answer within it. -/
structure Network where
  dial : String → Int64 → Bool
  get : String → Int64 → Option Int

/-- `checkTCP`. -/
def checkTCP (net : Network) (address : String) (timeout : Int64) : Bool := net.dial address timeout

/-- `checkHTTP`. -/
def checkHTTP (net : Network) (address : String) (opts : HealthCheckOptions) : Bool :=
  let path := if opts.httpPath = "" then "/" else opts.httpPath
  match net.get ("http://" ++ address ++ path) opts.timeout with
  | none => false
  | some statusCode => statusCode ≥ 200 ∧ statusCode < 400

/-- `checkBackendHealth`. -/
def checkBackendHealth (net : Network) (opts : HealthCheckOptions) (backend : Backend)
    (port : Int) : Bool :=
  let address := joinHostPort backend.address (itoa port)
  if opts.protocol = "HTTP" then checkHTTP net address opts else checkTCP net address opts.timeout

/-- The text a probe puts to the network: the address it dials or the URL it gets. -/
def probeTarget (opts : HealthCheckOptions) (backend : Backend) (port : Int) : String :=
  let address := joinHostPort backend.address (itoa port)
  if opts.protocol = "HTTP" then
    "http://" ++ address ++ (if opts.httpPath = "" then "/" else opts.httpPath)
  else address

theorem probeTarget_inj {opts : HealthCheckOptions} {b b' : Backend} {p p' : Int}
    (h : probeTarget opts b p = probeTarget opts b' p') : b.address = b'.address ∧ p = p' := by
  have hjoin : joinHostPort b.address (itoa p) = joinHostPort b'.address (itoa p') := by
    unfold probeTarget at h
    split at h
    · have e := congrArg String.toList h
      simp only [String.toList_append, List.append_assoc] at e
      exact String.toList_inj.mp (List.append_cancel_right (List.append_cancel_left e))
    · exact h
  obtain ⟨ha, hp⟩ := joinHostPort_inj (itoa_noColon p) (itoa_noColon p') hjoin
  exact ⟨ha, itoa_inj hp⟩

/-- The answer of the network to the text of a probe. -/
def Network.probed (net : Network) (opts : HealthCheckOptions) (target : String) : Bool :=
  if opts.protocol = "HTTP" then
    match net.get target opts.timeout with
    | none => false
    | some statusCode => statusCode ≥ 200 ∧ statusCode < 400
  else net.dial target opts.timeout

theorem checkBackendHealth_eq_probed (net : Network) (opts : HealthCheckOptions) (b : Backend)
    (p : Int) : checkBackendHealth net opts b p = net.probed opts (probeTarget opts b p) := by
  unfold checkBackendHealth Network.probed probeTarget
  split
  · rfl
  · rfl

/-- **The text of a probe tells the backends apart**: a check is the answer of the network to it,
    and two backends are probed at one text exactly if they share address and port. -/
theorem probe_text_separates (opts : HealthCheckOptions) (b b' : Backend) (p p' : Int) :
    (∀ net, checkBackendHealth net opts b p = net.probed opts (probeTarget opts b p)) ∧
      (probeTarget opts b p = probeTarget opts b' p' ↔ b.address = b'.address ∧ p = p') := by
  refine ⟨fun net => checkBackendHealth_eq_probed net opts b p, probeTarget_inj, fun h => ?_⟩
  obtain ⟨ha, rfl⟩ := h
  unfold probeTarget
  rw [ha]

end HeliosLB
