/-
  File:      HeliosLB/Admission/Webhook.lean
  Subject:   THE VALIDATING WEBHOOK (api/v1/heliosconfig_webhook.go).

  A HeliosConfig is created or updated only if `validateSpec` returns no error: the range texts,
  the lists, the health check, and last that its ranges overlap no range of another config. The
  configs it compares with are those its `List` returns; without a client, or if the list fails,
  that comparison is skipped.

  * `RangeInvalid`, `ValidationError` -- the errors, with their texts;
  * `validateIPRange`, `validatePorts`, `validateWeights`, `validateHealthCheck`,
    `overlapForRange`, `checkIPRangeOverlap`, `validateSpec`, `validateCreate`, `validateUpdate`
    -- the source's functions;
  * `checkEach` -- the loop `validatePorts` and `validateWeights` share;
  * `validateSpec_ok` -- what an accepted config passed;
  * **`validateIPRange_iff`** -- the validator accepts the texts that parse to an interval;
  * `Collide`, `overlapForRange_ok_iff` -- the overlap check as a test on pairs of range texts;
    **`overlapForRange_disjoint`** -- an accepted range meets none it was compared with.
-/
import HeliosLB.Cluster.Objects
import HeliosLB.Cluster.Api
import HeliosLB.Network.Ranges

namespace HeliosLB

open Lib

/-! ## 1. Errors -/

/-- The errors of `validateIPRange`. -/
inductive RangeInvalid where
  | required
  | cidr (ipRange trimmed : String)
  | format (ipRange : String)
  | startIP (ipRange : String)
  | endIP (ipRange : String)
  | mixed (ipRange : String)
  | order (ipRange : String)
  deriving DecidableEq, Repr

def RangeInvalid.message : RangeInvalid → String
  | .required => "ipRange is required"
  | .cidr r t => "invalid CIDR format " ++ quote r ++ ": invalid CIDR address: " ++ t
  | .format r => "invalid IP range format " ++ quote r
      ++ ": expected single IP, CIDR, or range (start-end)"
  | .startIP r => "invalid start IP in range " ++ quote r
  | .endIP r => "invalid end IP in range " ++ quote r
  | .mixed r => "mixed IPv4/IPv6 in range " ++ quote r
  | .order r => "start IP is greater than end IP in range " ++ quote r

/-- The errors of `validateSpec`. -/
inductive ValidationError where
  | ipRange (e : RangeInvalid)
  | ipv6Range (e : RangeInvalid)
  | portBounds (port : Int32)
  | portProtocol (protocol : String) (port : Int32)
  | duplicatePort (port : Int32)
  | weightsMethod (method : String)
  | weightServiceName
  | weightBounds (serviceName : String) (weight : Int32)
  | duplicateWeight (serviceName : String)
  | healthProtocol (protocol : String)
  | httpPath
  | overlap (newRange name exRange : String)
  deriving DecidableEq, Repr

def ValidationError.message : ValidationError → String
  | .ipRange e => "ipRange: " ++ e.message
  | .ipv6Range e => "ipv6Range: " ++ e.message
  | .portBounds p => "port " ++ toString p ++ " out of valid range (1-65535)"
  | .portProtocol t p => "invalid protocol " ++ quote t ++ " for port " ++ toString p
      ++ ": must be TCP or UDP"
  | .duplicatePort p => "duplicate port " ++ toString p
  | .weightsMethod m => "weights can only be used with WeightedRoundRobin method, got " ++ quote m
  | .weightServiceName => "weight serviceName is required"
  | .weightBounds s w => "weight for service " ++ quote s ++ " must be between 1 and 100, got "
      ++ toString w
  | .duplicateWeight s => "duplicate weight for service " ++ quote s
  | .healthProtocol t => "invalid health check protocol " ++ quote t ++ ": must be TCP or HTTP"
  | .httpPath => "httpPath is required when health check protocol is HTTP"
  | .overlap r n x => "IP range " ++ quote r ++ " overlaps with existing HeliosConfig " ++ quote n
      ++ " (range: " ++ x ++ ")"

/-! ## 2. The fields -/

/-- `validateIPRange`. -/
def validateIPRange (ipRange : String) : Except RangeInvalid Unit :=
  if ipRange = "" then .error .required
  else
    let trimmed := trimSpace ipRange
    if '/' ∈ trimmed.toList then
      match parseCIDR trimmed with
      | none => .error (.cidr ipRange trimmed)
      | some _ => .ok ()
    else
      match parseIP trimmed with
      | some _ => .ok ()
      | none =>
        match trimmed.toList.splitOn '-' with
        | [a, b] =>
          match parseIP (trimSpace (String.ofList a)), parseIP (trimSpace (String.ofList b)) with
          | none, _ => .error (.startIP ipRange)
          | some _, none => .error (.endIP ipRange)
          | some startIP, some endIP =>
            if (normalizeIP startIP).length ≠ (normalizeIP endIP).length then
              .error (.mixed ipRange)
            else if compareIPs (normalizeIP startIP) (normalizeIP endIP) = .gt then
              .error (.order ipRange)
            else .ok ()
        | _ => .error (.format ipRange)

/-- `ProtocolTCP`, `ProtocolUDP`, `ProtocolHTTP`. -/
def protocolTCP : String := "TCP"
def protocolUDP : String := "UDP"
def protocolHTTP : String := "HTTP"

/-- `MethodWeightedRoundRobin`. -/
def methodWeightedRoundRobin : String := "WeightedRoundRobin"

/-- The loop of a list check: an item is checked on its own and then against the keys `seen`
    before it. -/
def checkEach {α κ ε : Type} [DecidableEq κ] (check : α → Except ε Unit) (key : α → κ)
    (duplicate : κ → ε) : List κ → List α → Except ε Unit
  | _, [] => .ok ()
  | seen, a :: rest =>
    match check a with
    | .error e => .error e
    | .ok () =>
      if key a ∈ seen then .error (duplicate (key a))
      else checkEach check key duplicate (key a :: seen) rest

/-- `validatePorts`. -/
def validatePorts (ports : List PortConfig) : Except ValidationError Unit :=
  checkEach (fun p =>
      if p.port < 1 ∨ p.port > 65535 then .error (.portBounds p.port)
      else if p.protocol ∉ ["", protocolTCP, protocolUDP] then
        .error (.portProtocol p.protocol p.port)
      else .ok ())
    PortConfig.port .duplicatePort [] ports

/-- `validateWeights`. -/
def validateWeights (weights : List WeightConfig) (method : String) :
    Except ValidationError Unit :=
  if weights.length > 0 ∧ method ≠ methodWeightedRoundRobin then .error (.weightsMethod method)
  else
    checkEach (fun w =>
        if w.serviceName = "" then .error .weightServiceName
        else if w.weight < 1 ∨ w.weight > 100 then .error (.weightBounds w.serviceName w.weight)
        else .ok ())
      WeightConfig.serviceName .duplicateWeight [] weights

/-- `validateHealthCheck`. -/
def validateHealthCheck : Option HealthCheckConfig → Except ValidationError Unit
  | none => .ok ()
  | some hc =>
    if hc.protocol ∉ ["", protocolTCP, protocolHTTP] then .error (.healthProtocol hc.protocol)
    else if hc.protocol = protocolHTTP ∧ hc.httpPath = "" then .error .httpPath
    else .ok ()

/-! ## 3. The overlap check -/

/-- The range of an existing config that is compared. -/
def comparedRange (useIPv6 : Bool) (existing : HeliosConfig) : String :=
  if useIPv6 then existing.spec.ipv6Range else existing.spec.ipRange

/-- The loop of `overlapForRange`. -/
def overlapLoop (newRange : String) (newStart newEnd : IP) (excludeName : String)
    (useIPv6 : Bool) : List HeliosConfig → Except ValidationError Unit
  | [] => .ok ()
  | existing :: items =>
    if existing.key.name = excludeName then
      overlapLoop newRange newStart newEnd excludeName useIPv6 items
    else if comparedRange useIPv6 existing = "" then
      overlapLoop newRange newStart newEnd excludeName useIPv6 items
    else
      match parseIPRange (comparedRange useIPv6 existing) with
      | .error _ => overlapLoop newRange newStart newEnd excludeName useIPv6 items
      | .ok (existStart, existEnd) =>
        if compareIPs newStart existEnd ≠ .gt ∧ compareIPs newEnd existStart ≠ .lt then
          .error (.overlap newRange existing.key.name (comparedRange useIPv6 existing))
        else overlapLoop newRange newStart newEnd excludeName useIPv6 items

/-- `overlapForRange`. -/
def overlapForRange (newRange excludeName : String) (items : List HeliosConfig)
    (useIPv6 : Bool) : Except ValidationError Unit :=
  match parseIPRange newRange with
  | .error _ => .ok ()
  | .ok (newStart, newEnd) => overlapLoop newRange newStart newEnd excludeName useIPv6 items

/-- `checkIPRangeOverlap` with the reply to its `List`. -/
def checkIPRangeOverlap (list : ReadReply) (items : List HeliosConfig) (hc : HeliosConfig)
    (excludeName : String) : Except ValidationError Unit :=
  match list with
  | .failed _ => .ok ()
  | .ok =>
    match overlapForRange hc.spec.ipRange excludeName items false with
    | .error e => .error e
    | .ok () =>
      if hc.spec.ipv6Range ≠ "" then overlapForRange hc.spec.ipv6Range excludeName items true
      else .ok ()

/-- The check of `ipv6Range`, if it is set. -/
def validateIPv6Range (ipv6Range : String) : Except ValidationError Unit :=
  if ipv6Range ≠ "" then (validateIPRange ipv6Range).mapError .ipv6Range else .ok ()

/-- `validateSpec`; `client` is the reply to the `List` of the overlap check, `none` if no client
    is wired. -/
def validateSpec (client : Option ReadReply) (items : List HeliosConfig) (hc : HeliosConfig)
    (excludeName : String) : Except ValidationError Unit := do
  (validateIPRange hc.spec.ipRange).mapError .ipRange
  validateIPv6Range hc.spec.ipv6Range
  validatePorts hc.spec.ports
  validateWeights hc.spec.weights hc.spec.method
  validateHealthCheck hc.spec.healthCheck
  match client with
  | some list => checkIPRangeOverlap list items hc excludeName
  | none => .ok ()

/-- `ValidateCreate`: no config is excluded. -/
def validateCreate (client : Option ReadReply) (items : List HeliosConfig) (hc : HeliosConfig) :
    Except ValidationError Unit := validateSpec client items hc ""

/-- `ValidateUpdate`: the configs with the NAME of this one are excluded. -/
def validateUpdate (client : Option ReadReply) (items : List HeliosConfig) (hc : HeliosConfig) :
    Except ValidationError Unit := validateSpec client items hc hc.key.name

/-! ## 4. What an accepted config passed -/

theorem bind_eq_ok {ε : Type} {x : Except ε Unit} {f : Unit → Except ε Unit} :
    (x >>= f) = .ok () ↔ x = .ok () ∧ f () = .ok () := by
  cases x with
  | error e => exact ⟨fun h => (nomatch h), fun h => nomatch h.1⟩
  | ok u => exact ⟨fun h => ⟨rfl, h⟩, fun h => h.2⟩

theorem mapError_eq_ok {ε ε' : Type} {f : ε → ε'} {x : Except ε Unit} :
    x.mapError f = .ok () ↔ x = .ok () := by
  cases x with
  | error e => exact ⟨fun h => (nomatch h), fun h => nomatch h⟩
  | ok u => exact ⟨fun _ => rfl, fun _ => rfl⟩

/-- **What an accepted config passed**, with a working client. -/
theorem validateSpec_ok {items : List HeliosConfig} {hc : HeliosConfig} {excludeName : String}
    (h : validateSpec (some .ok) items hc excludeName = .ok ()) :
    validateIPRange hc.spec.ipRange = .ok () ∧
      (hc.spec.ipv6Range ≠ "" → validateIPRange hc.spec.ipv6Range = .ok ()) ∧
      overlapForRange hc.spec.ipRange excludeName items false = .ok () ∧
      (hc.spec.ipv6Range ≠ "" →
        overlapForRange hc.spec.ipv6Range excludeName items true = .ok ()) := by
  unfold validateSpec checkIPRangeOverlap at h
  obtain ⟨h4, h⟩ := bind_eq_ok.mp h
  obtain ⟨h6, h⟩ := bind_eq_ok.mp h
  obtain ⟨_, h⟩ := bind_eq_ok.mp h
  obtain ⟨_, h⟩ := bind_eq_ok.mp h
  obtain ⟨_, h⟩ := bind_eq_ok.mp h
  refine ⟨mapError_eq_ok.mp h4, fun hne => ?_, ?_⟩
  · unfold validateIPv6Range at h6
    rw [if_pos hne] at h6
    exact mapError_eq_ok.mp h6
  · simp only at h
    cases ho : overlapForRange hc.spec.ipRange excludeName items false with
    | error e =>
        rw [ho] at h
        cases h
    | ok u =>
        rw [ho] at h
        refine ⟨rfl, fun hne => ?_⟩
        rw [if_pos hne] at h
        exact h

/-- **The validator accepts what parses to an interval**: ends of one length, in order. -/
theorem validateIPRange_iff {r : String} : validateIPRange r = .ok () ↔
    ∃ s e, parseIPRange r = .ok (s, e) ∧ s.length = e.length ∧ s ≤ e := by
  by_cases h0 : r = ""
  · rw [h0, parseIPRange_empty]
    simp [validateIPRange]
  unfold validateIPRange
  rw [if_neg h0]
  simp only
  by_cases hr : '/' ∈ (trimSpace r).toList
  · rw [if_pos hr]
    cases hn : parseCIDR (trimSpace r) with
    | none =>
        rw [parseIPRange_badBlock ((isCIDR_trimSpace r).mp hr) hn]
        simp
    | some n =>
        have hw := parseCIDR_wellFormed hn
        have hb := cidrBounds_bounds hw
        exact iff_of_true rfl ⟨_, _, parseIPRange_block hn, hb.length_eq hw, hb.start_le_stop hw⟩
  · unfold parseIPRange
    simp only
    rw [if_neg hr, if_neg hr]
    cases hip : parseIP (trimSpace r) with
    | some ip => exact iff_of_true rfl ⟨_, _, rfl, rfl, List.le_refl _⟩
    | none =>
        simp only
        generalize (trimSpace r).toList.splitOn '-' = parts
        rcases parts with _ | ⟨a, _ | ⟨b, _ | ⟨c, parts⟩⟩⟩
        · simp
        · simp
        · simp only
          cases hs : parseIP (trimSpace (String.ofList a)) with
          | none => simp
          | some s =>
              cases he : parseIP (trimSpace (String.ofList b)) with
              | none => simp
              | some e =>
                  have hc : compareIPs (normalizeIP s) (normalizeIP e) ≠ .gt ↔
                      normalizeIP s ≤ normalizeIP e := by
                    unfold compareIPs
                    rw [normalizeIP_idem (isAddr_of_parseIP hs),
                      normalizeIP_idem (isAddr_of_parseIP he), bytesCompare_ne_gt]
                  by_cases hl : (normalizeIP s).length = (normalizeIP e).length
                  · simp [hl, hc]
                  · simp [hl]
        · simp

theorem validateIPRange_ordered {r : String} (h : validateIPRange r = .ok ()) :
    ordered r = true := by
  obtain ⟨s, e, hr, _, hle⟩ := validateIPRange_iff.mp h
  exact ordered_iff.mpr ⟨s, e, hr, hle⟩

/-- The test of `overlapForRange` finds two range texts to overlap. -/
def Collide (r r' : String) : Prop :=
  ∃ s e s' e', parseIPRange r = .ok (s, e) ∧ parseIPRange r' = .ok (s', e') ∧
    compareIPs s e' ≠ .gt ∧ compareIPs e s' ≠ .lt

theorem Collide.nonempty {r r' : String} (h : Collide r r') : r ≠ "" ∧ r' ≠ "" := by
  obtain ⟨_, _, _, _, hr, hr', _⟩ := h
  exact ⟨ne_empty_of_parse hr, ne_empty_of_parse hr'⟩

theorem overlapLoop_ok_iff {r excludeName : String} {s e : IP} {useIPv6 : Bool}
    (hr : parseIPRange r = .ok (s, e)) (items : List HeliosConfig) :
    overlapLoop r s e excludeName useIPv6 items = .ok () ↔
      ∀ existing ∈ items, existing.key.name ≠ excludeName →
        ¬ Collide r (comparedRange useIPv6 existing) := by
  induction items with
  | nil => simp [overlapLoop]
  | cons existing items ih =>
      rw [overlapLoop, List.forall_mem_cons, ← ih]
      by_cases hx : existing.key.name = excludeName
      · simp [hx]
      rw [if_neg hx]
      cases hp : parseIPRange (comparedRange useIPv6 existing) with
      | error err =>
          have hno : ¬ Collide r (comparedRange useIPv6 existing) := by
            rintro ⟨_, _, _, _, _, hr', _⟩
            rw [hp] at hr'
            cases hr'
          simp [hno]
      | ok b =>
          obtain ⟨s', e'⟩ := b
          have hne : comparedRange useIPv6 existing ≠ "" := ne_empty_of_parse hp
          have hc : Collide r (comparedRange useIPv6 existing) ↔
              compareIPs s e' ≠ .gt ∧ compareIPs e s' ≠ .lt := by
            simp [Collide, hr, hp]
          rw [if_neg hne, hc]
          simp only
          by_cases hov : compareIPs s e' ≠ .gt ∧ compareIPs e s' ≠ .lt
          · rw [if_pos hov]
            exact iff_of_false (fun h => by cases h) fun h => h.1 hx hov
          · rw [if_neg hov]
            exact ⟨fun h => ⟨fun _ => hov, h⟩, fun h => h.2⟩

/-- **What `overlapForRange` accepts**: a range that collides with none it is compared with. -/
theorem overlapForRange_ok_iff {r excludeName : String} {items : List HeliosConfig}
    {useIPv6 : Bool} : overlapForRange r excludeName items useIPv6 = .ok () ↔
      ∀ existing ∈ items, existing.key.name ≠ excludeName →
        ¬ Collide r (comparedRange useIPv6 existing) := by
  unfold overlapForRange
  cases hr : parseIPRange r with
  | error err =>
      refine iff_of_true rfl fun existing _ _ h => ?_
      obtain ⟨_, _, _, _, hr', _⟩ := h
      rw [hr] at hr'
      cases hr'
  | ok b => exact overlapLoop_ok_iff hr items

/-- Ranges that meet collide. -/
theorem collide_of_meet {r r' : String} (h : rangesMeet r r' = true) : Collide r r' := by
  obtain ⟨s, e, s', e', hr, hr', h1, h2⟩ := rangesMeet_iff.mp h
  refine ⟨s, e, s', e', hr, hr', ?_, ?_⟩
  · unfold compareIPs
    rw [parseIPRange_start_normal hr, bytesCompare_ne_gt]
    exact List.le_trans h1 (stop_le_normalizeIP hr')
  · unfold compareIPs
    rw [parseIPRange_start_normal hr', bytesCompare_ne_lt]
    exact List.le_trans h2 (stop_le_normalizeIP hr)

/-- **An accepted range meets none of the ranges it was compared with.** -/
theorem overlapForRange_disjoint {r excludeName : String} {items : List HeliosConfig}
    {useIPv6 : Bool} (h : overlapForRange r excludeName items useIPv6 = .ok ())
    {existing : HeliosConfig} (hm : existing ∈ items) (hx : existing.key.name ≠ excludeName) :
    rangesMeet r (comparedRange useIPv6 existing) = false := by
  rw [Bool.eq_false_iff]
  exact fun hmeet => overlapForRange_ok_iff.mp h existing hm hx (collide_of_meet hmeet)

end HeliosLB
