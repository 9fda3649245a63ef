import DarkFactory.Line.Routing

/-!
# DarkFactory.Line.RouteEligibility

What holds of the route that `pick` returns.

* `SubscriptionEligible`, `OpenrouterEligible` — the conditions on a route.
* `pick_eligible_iff` — the route is eligible unless the OpenRouter contingency is bypassed: elected as
  a candidate of the cascade, or with a model that was not checked.
-/

namespace DarkFactory
namespace Line

open Models

section

variable (host : Host) (req : Request)

/-- The stages that go on without a quota reading: development of low complexity, another stage that
has opted in, and development by the harness that the owner operates. -/
def UnknownAllowed (harness : String) : Prop :=
  (req.stage = "development" ∧ complexityOf host req = "low") ∨
    (req.stage ≠ "development" ∧ req.unknownQuotaLastResortOk.getD (unknownQuotaLastResort host) = true) ∨
    (req.stage = "development" ∧ req.executionContext = .interactive ∧
      resolveOperatingHarness host.lower host.environ req.operatingHarness = some harness)

structure SubscriptionEligible (route : Route) : Prop where
  capability : "harness:" ++ route.1 ∈ req.hostCaps
  notExcluded : route.1 ∉ req.excludedHarnesses ∧ route ∉ req.excludedPairs
  notCooling : inCooldown host route.1 = false
  supported : supports host.lower host.environ route.1 req.requiredMode (some req.executionContext)
    (operating host req) = true
  notForbidden : forbids host req route.2 = false
  allowed : policyRefuses host req route.1 = false
  known : ∀ q, lookup host req (providerOf route.1) = some q → req.criticalThreshold < q
  unknown : lookup host req (providerOf route.1) = none → UnknownAllowed host req route.1

structure OpenrouterEligible (model : Option String) : Prop where
  notExcluded : "openrouter" ∉ req.excludedHarnesses
  supported : supports host.lower host.environ "openrouter" req.requiredMode none none = true
  allowed : policyRefuses host req "openrouter" = false
  credit : openrouterHasCredits host req = true
  underCap : req.spentUsd < req.config.runCaps.openrouterUsd
  notForbidden : forbids host req model = false

def Eligible (route : Route) : Prop :=
  if route.1 = "openrouter" then OpenrouterEligible host req route.2
  else SubscriptionEligible host req route

def OpenrouterReached (stageCfg : StageRoute) : Prop :=
  subscriptionWinner host req stageCfg = none ∧
    openrouterOpen host req stageCfg (tally host req stageCfg) = true ∧ openrouterHasCredits host req = true

structure Covered (stageCfg : StageRoute) : Prop where
  /-- OpenRouter is not elected as a candidate of the cascade, or has credit and is under the cap. -/
  cascade : ∀ model, subscriptionWinner host req stageCfg = some ("openrouter", model) →
    openrouterHasCredits host req = true ∧ req.spentUsd < req.config.runCaps.openrouterUsd
  /-- A model from the benchmark is not one that the configuration forbids. -/
  dynamic : OpenrouterReached host req stageCfg → dynamicModel host req stageCfg = true →
    ∀ model, resolveParetoOpenrouterModel host req.stage stageCfg.openrouterModel = .ok model →
      forbids host req (some model) = false
  /-- Nor is the reviewer that stands in for one of the family of the implementer. -/
  review : OpenrouterReached host req stageCfg → req.stage = "review" →
    ∀ implementer ∈ req.implementingHarness, ∀ impl ∈ implementerEntry host implementer,
      ∀ reviewer ∈ reviewerEntry host stageCfg.openrouterModel, impl.family = reviewer.family →
        ∀ fallback ∈ fallbackReviewer host impl, forbids host req (some fallback.id) = false

structure Admitted (route : Route) : Prop where
  routable : routable host req route = true
  allowed : policyRefuses host req route.1 = false
  notCooling : inCooldown host route.1 = false

structure Tally.Sound (t : Tally) : Prop where
  eligible : ∀ c ∈ t.eligible, Admitted host req c.route ∧
    lookup host req (providerOf c.route.1) = some c.remaining ∧ req.criticalThreshold < c.remaining
  extraEligible : ∀ c ∈ t.extraEligible, Admitted host req c.route ∧
    lookup host req (providerOf c.route.1) = some c.remaining ∧ req.criticalThreshold < c.remaining
  preferredUnknown : ∀ r ∈ t.preferredUnknown, Admitted host req r ∧
    lookup host req (providerOf r.1) = none ∧ operating host req = some r.1
  unknownQuota : ∀ r ∈ t.unknownQuota, Admitted host req r ∧ lookup host req (providerOf r.1) = none

end

section

variable {host : Host} {req : Request}

theorem forall_mem_append_singleton {α : Type} {P : α → Prop} {l : List α} {a : α}
    (hl : ∀ b ∈ l, P b) (ha : P a) : ∀ b ∈ l ++ [a], P b := by
  intro b hb
  rcases List.mem_append.mp hb with hb | hb
  · exact hl b hb
  · rw [List.mem_singleton.mp hb]
    exact ha

theorem evaluation_above {route : Route} {q : Rat}
    (hcool : (evaluation host req route).cooling = false)
    (hcrit : (evaluation host req route).isCritical = false)
    (hrem : (evaluation host req route).remaining = some q) :
    inCooldown host route.1 = false ∧ lookup host req (providerOf route.1) = some q ∧
      req.criticalThreshold < q := by
  simp only [evaluation] at hcool hcrit hrem
  simp only [hcool, Bool.false_eq_true, if_false] at hcrit hrem
  rw [hrem, Option.all_some, decide_eq_false_iff_not, not_le] at hcrit
  exact ⟨hcool, hrem, hcrit⟩

theorem evaluation_unknown {route : Route} (hcool : (evaluation host req route).cooling = false)
    (hrem : (evaluation host req route).remaining = none) :
    inCooldown host route.1 = false ∧ lookup host req (providerOf route.1) = none := by
  simp only [evaluation] at hcool hrem
  simp only [hcool, Bool.false_eq_true, if_false] at hrem
  exact ⟨hcool, hrem⟩

theorem passedOver_policy {healthy : Bool} {route : Route}
    (h : passedOver host req healthy route = false) : policyRefuses host req route.1 = false := by
  rw [passedOver, Bool.or_eq_false_iff] at h
  exact h.2

theorem evaluate_sound {extra : Option Route} {healthy : Bool} {t : Tally} {route : Route}
    (ht : t.Sound host req) (hroute : routable host req route = true) :
    (evaluate host req extra healthy t route).Sound host req := by
  unfold evaluate
  split
  · exact ht
  · rename_i hpass
    have hpolicy := passedOver_policy (Bool.eq_false_iff.mpr hpass)
    simp only
    split
    · split
      · rename_i hcool hcrit hrem
        obtain ⟨hc, hq, hlt⟩ := evaluation_above hcool hcrit hrem
        exact { ht with
          extraEligible :=
            forall_mem_append_singleton ht.extraEligible ⟨⟨hroute, hpolicy, hc⟩, hq, hlt⟩ }
      · rename_i hcool hrem
        obtain ⟨hc, hq⟩ := evaluation_unknown hcool hrem
        split
        · rename_i hop
          exact { ht with
            preferredUnknown :=
              forall_mem_append_singleton ht.preferredUnknown ⟨⟨hroute, hpolicy, hc⟩, hq, hop⟩ }
        · exact ht
      · exact ht
    · split
      · exact ⟨ht.eligible, ht.extraEligible, ht.preferredUnknown, ht.unknownQuota⟩
      · split
        · rename_i hcool hcrit hrem
          obtain ⟨hc, hq, hlt⟩ := evaluation_above hcool hcrit hrem
          exact
            { eligible := forall_mem_append_singleton ht.eligible ⟨⟨hroute, hpolicy, hc⟩, hq, hlt⟩
              extraEligible := ht.extraEligible
              preferredUnknown := ht.preferredUnknown
              unknownQuota := ht.unknownQuota }
        · rename_i hcool hrem
          obtain ⟨hc, hq⟩ := evaluation_unknown hcool hrem
          refine
            { eligible := ht.eligible
              extraEligible := ht.extraEligible
              preferredUnknown := ?_
              unknownQuota :=
                forall_mem_append_singleton ht.unknownQuota ⟨⟨hroute, hpolicy, hc⟩, hq⟩ }
          simp only
          split
          · rename_i hop
            exact forall_mem_append_singleton ht.preferredUnknown ⟨⟨hroute, hpolicy, hc⟩, hq, hop⟩
          · exact ht.preferredUnknown
        · exact ⟨ht.eligible, ht.extraEligible, ht.preferredUnknown, ht.unknownQuota⟩

theorem tally_sound (stageCfg : StageRoute) : (tally host req stageCfg).Sound host req := by
  have hall : ∀ route ∈ routableCandidates host req stageCfg, routable host req route = true :=
    fun route h => (List.mem_filter.mp h).2
  have hempty : (Tally.mk [] [] [] [] []).Sound host req := ⟨nofun, nofun, nofun, nofun⟩
  unfold tally
  revert hall hempty
  generalize routableCandidates host req stageCfg = routes
  generalize Tally.mk [] [] [] [] [] = t
  induction routes generalizing t with
  | nil => exact fun _ ht => ht
  | cons route routes ih =>
    intro hall ht
    rw [List.forall_mem_cons] at hall
    exact ih _ hall.2 (evaluate_sound ht hall.1)

theorem mem_of_mem_rankedPool {eligible : List Scored} {c : Scored}
    (h : c ∈ rankedPool host req eligible) : c ∈ eligible := by
  have htier : ∀ c ∈ complexityTier host req eligible, c ∈ eligible := by
    intro c hc
    simp only [complexityTier] at hc
    split at hc
    · exact List.mem_of_mem_filter hc
    · split at hc
      · exact List.mem_of_mem_filter hc
      · cases hc
  simp only [rankedPool] at h
  split at h
  · exact h
  · exact htier c h

theorem mem_of_ranked {slack : List (Route × Rat)} {pool : List Scored} {c : Scored}
    (h : (ranked slack pool).head? = some c) : c ∈ pool := by
  unfold ranked at h
  split at h
  · exact (sortDesc_head h).1
  · exact (sortDesc_head h).1

theorem rankEligible_mem {eligible : List Scored} {slack : List (Route × Rat)} {route : Route}
    (h : rankEligible host req eligible slack = some route) : ∃ c ∈ eligible, c.route = route := by
  obtain ⟨c, hc, rfl⟩ := Option.map_eq_some_iff.mp h
  exact ⟨c, mem_of_mem_rankedPool (mem_of_ranked hc), rfl⟩

theorem Admitted.eligible {route : Route} (h : Admitted host req route)
    (hknown : ∀ q, lookup host req (providerOf route.1) = some q → req.criticalThreshold < q)
    (hunknown : lookup host req (providerOf route.1) = none → UnknownAllowed host req route.1) :
    SubscriptionEligible host req route := by
  have hr := h.routable
  simp only [Line.routable, Bool.and_eq_true, Bool.not_eq_true', decide_eq_true_eq,
    decide_eq_false_iff_not, not_or] at hr
  obtain ⟨⟨⟨⟨⟨-, hexcl⟩, hcap⟩, -⟩, hsup⟩, hforb⟩ := hr
  exact ⟨hcap, hexcl, h.notCooling, hsup, hforb, h.allowed, hknown, hunknown⟩

theorem Admitted.eligible_above {c : Scored} (h : Admitted host req c.route ∧
    lookup host req (providerOf c.route.1) = some c.remaining ∧
      req.criticalThreshold < c.remaining) : SubscriptionEligible host req c.route := by
  obtain ⟨hadm, hq, hlt⟩ := h
  refine hadm.eligible (fun q hq' => ?_) fun hnone => ?_
  · rw [hq] at hq'
    cases hq'
    exact hlt
  · rw [hq] at hnone
    cases hnone

theorem Admitted.eligible_unknown {route : Route} (h : Admitted host req route)
    (hnone : lookup host req (providerOf route.1) = none)
    (hallowed : UnknownAllowed host req route.1) : SubscriptionEligible host req route :=
  h.eligible (fun q hq => by rw [hnone] at hq; cases hq) fun _ => hallowed

theorem operating_some {op : String} (h : operating host req = some op) :
    req.stage = "development" ∧ req.executionContext = .interactive ∧
      resolveOperatingHarness host.lower host.environ req.operatingHarness = some op := by
  unfold operating at h
  split at h
  · rename_i hdev
    exact ⟨hdev.1, hdev.2, h⟩
  · cases h

theorem mem_preferred {t : Tally} {c : Scored} (h : c ∈ preferred host req t) :
    c ∈ t.eligible ∨ c ∈ t.extraEligible := by
  unfold preferred at h
  split at h
  · simp only at h
    split at h
    · exact .inr h
    · exact .inl (List.mem_of_mem_filter h)
  · cases h

theorem pickWinner_eligible {t : Tally} (ht : t.Sound host req) {route : Route}
    (h : pickWinner host req t = some route) : SubscriptionEligible host req route := by
  unfold pickWinner at h
  split at h
  · split at h
    · rename_i first rest hpref
      cases h
      obtain ⟨hadm, hnone, hop⟩ := ht.preferredUnknown route (hpref ▸ List.mem_cons_self ..)
      exact hadm.eligible_unknown hnone (.inr (.inr (operating_some hop)))
    · split at h
      · split at h
        · rename_i hallow
          obtain ⟨hadm, hnone⟩ := ht.unknownQuota route (List.mem_of_head? h)
          refine hadm.eligible_unknown hnone ?_
          unfold allowUnknown at hallow
          split at hallow
          · rename_i hdev
            exact .inl ⟨hdev, of_decide_eq_true hallow⟩
          · rename_i hdev
            exact .inr (.inl ⟨hdev, hallow⟩)
        · cases h
      · obtain ⟨c, hc, rfl⟩ := rankEligible_mem h
        exact Admitted.eligible_above (ht.eligible c hc)
  · obtain ⟨c, hc, rfl⟩ := rankEligible_mem h
    rcases mem_preferred hc with hc | hc
    · exact Admitted.eligible_above (ht.eligible c hc)
    · exact Admitted.eligible_above (ht.extraEligible c hc)

theorem winner_eligible {stageCfg : StageRoute} {route : Route}
    (h : subscriptionWinner host req stageCfg = some route) : SubscriptionEligible host req route :=
  pickWinner_eligible (tally_sound stageCfg) h

theorem supports_openrouter (mode : String) (executionContext : Option ExecutionContext)
    (operatingHarness : Option String) :
    supports host.lower host.environ "openrouter" mode executionContext operatingHarness =
      supports host.lower host.environ "openrouter" mode none none := by
  have hname : Text.strip (host.lower "openrouter") = "openrouter" := by
    rw [host.lower_ascii _ (by decide +kernel)]
    decide +kernel
  have hne : "openrouter" ≠ "antigravity" := by decide
  simp only [supports, hname, hne, false_and, if_false]

theorem SubscriptionEligible.openrouter {model : Option String}
    (h : SubscriptionEligible host req ("openrouter", model))
    (hcredit : openrouterHasCredits host req = true)
    (hcap : req.spentUsd < req.config.runCaps.openrouterUsd) :
    OpenrouterEligible host req model where
  notExcluded := h.notExcluded.1
  supported := by rw [← supports_openrouter]; exact h.supported
  allowed := h.allowed
  credit := hcredit
  underCap := hcap
  notForbidden := h.notForbidden

theorem OpenrouterReached.eligible {stageCfg : StageRoute} (h : OpenrouterReached host req stageCfg)
    {model : Option String} (hforb : forbids host req model = false) :
    OpenrouterEligible host req model := by
  obtain ⟨-, hopen, hcredit⟩ := h
  simp only [openrouterOpen, Bool.and_eq_true, Bool.not_eq_true', decide_eq_true_eq,
    decide_eq_false_iff_not] at hopen
  obtain ⟨⟨⟨⟨⟨⟨⟨hsup, hexcl⟩, -⟩, hpol⟩, -⟩, -⟩, -⟩, hcap⟩ := hopen
  exact ⟨hexcl, hsup, hpol, hcredit, hcap, hforb⟩

theorem OpenrouterReached.configured {stageCfg : StageRoute}
    (h : OpenrouterReached host req stageCfg) :
    forbids host req stageCfg.openrouterModel = false := by
  have hopen := h.2.1
  simp only [openrouterOpen, Bool.and_eq_true, Bool.not_eq_true'] at hopen
  exact hopen.1.1.2

section

variable {stageCfg : StageRoute}

theorem electOpenrouter_dynamic (hcredit : openrouterHasCredits host req = true)
    (hdyn : dynamicModel host req stageCfg = true) {model : String}
    (hmodel : resolveParetoOpenrouterModel host req.stage stageCfg.openrouterModel = .ok model) :
    electOpenrouter host req stageCfg = .ok (some ("openrouter", some model)) := by
  simp only [electOpenrouter, hcredit, hdyn, hmodel, if_true]

theorem electOpenrouter_configured (hcredit : openrouterHasCredits host req = true)
    (hdyn : dynamicModel host req stageCfg = false) :
    electOpenrouter host req stageCfg = .ok (some ("openrouter", stageCfg.openrouterModel)) := by
  simp only [electOpenrouter, hcredit, hdyn, if_true, Bool.false_eq_true, if_false]

theorem electOpenrouter_ok {route : Route}
    (h : electOpenrouter host req stageCfg = .ok (some route)) :
    openrouterHasCredits host req = true ∧ route.1 = "openrouter" ∧
      ((dynamicModel host req stageCfg = true ∧ ∃ model, route.2 = some model ∧
          resolveParetoOpenrouterModel host req.stage stageCfg.openrouterModel = .ok model) ∨
        (dynamicModel host req stageCfg = false ∧ route.2 = stageCfg.openrouterModel)) := by
  unfold electOpenrouter at h
  split at h
  · rename_i hcredit
    refine ⟨hcredit, ?_⟩
    split at h
    · rename_i hdyn
      split at h
      · rename_i model hmodel
        cases h
        exact ⟨rfl, .inl ⟨hdyn, model, rfl, hmodel⟩⟩
      · cases h
    · rename_i hdyn
      cases h
      exact ⟨rfl, .inr ⟨Bool.eq_false_iff.mpr hdyn, rfl⟩⟩
  · cases h

theorem dynamicModel_review (h : req.stage = "review") : dynamicModel host req stageCfg = false := by
  simp [dynamicModel, h]

theorem independentOpenrouter_fallback {implementer : String} {route : Route}
    {impl reviewer fallback : ModelEntry} (himp : req.implementingHarness = some implementer)
    (himpl : implementerEntry host implementer = some impl)
    (hrev : reviewerEntry host route.2 = some reviewer) (hfam : impl.family = reviewer.family)
    (hfall : fallbackReviewer host impl = some fallback) :
    independentOpenrouter host req (some route) = some (route.1, some fallback.id) := by
  simp only [independentOpenrouter, himp, himpl, hrev, hfam, if_true, hfall, Option.map_some]

theorem independentOpenrouter_some {route : Option Route} {route' : Route}
    (h : independentOpenrouter host req route = some route') :
    route = some route' ∨ ∃ r implementer impl reviewer fallback, route = some r ∧
      req.implementingHarness = some implementer ∧ implementerEntry host implementer = some impl ∧
        reviewerEntry host r.2 = some reviewer ∧ impl.family = reviewer.family ∧
          fallbackReviewer host impl = some fallback ∧ route' = (r.1, some fallback.id) := by
  unfold independentOpenrouter at h
  split at h
  · rename_i r implementer himp
    split at h
    · rename_i impl reviewer himpl hrev
      split at h
      · rename_i hfam
        obtain ⟨fallback, hfall, rfl⟩ := Option.map_eq_some_iff.mp h
        exact .inr ⟨r, implementer, impl, reviewer, fallback, rfl, himp, himpl, hrev, hfam, hfall, rfl⟩
      · exact .inl h
    · cases h
  · exact .inl h

theorem pick_of_winner (hcfg : req.stageCfg = some stageCfg) {route : Route}
    (hwinner : subscriptionWinner host req stageCfg = some route) :
    pick host req = .ok (some route) := by
  simp only [pick, hcfg, hwinner]

theorem pick_of_reached (hcfg : req.stageCfg = some stageCfg)
    (h : OpenrouterReached host req stageCfg) :
    pick host req = openrouterRoute host req stageCfg := by
  simp only [pick, hcfg, h.1, h.2.1, if_true]

theorem pick_some {route : Route} (h : pick host req = .ok (some route)) :
    ∃ stageCfg, req.stageCfg = some stageCfg ∧
      (subscriptionWinner host req stageCfg = some route ∨
        (OpenrouterReached host req stageCfg ∧ openrouterRoute host req stageCfg = .ok (some route))) := by
  unfold pick at h
  split at h
  · cases h
  · rename_i stageCfg hcfg
    refine ⟨stageCfg, hcfg, ?_⟩
    split at h
    · rename_i winner hwinner
      cases h
      exact .inl hwinner
    · rename_i hnone
      split at h
      · rename_i hopen
        refine .inr ⟨⟨hnone, hopen, ?_⟩, h⟩
        -- without credit nothing is elected, and a review makes nothing of nothing
        refine Bool.of_not_eq_false fun hcredit => ?_
        simp only [openrouterRoute, electOpenrouter, hcredit, Bool.false_eq_true, if_false, Except.map] at h
        split at h
        · simp [independentOpenrouter] at h
        · cases h
      · cases h

theorem Covered.openrouterRoute (hc : Covered host req stageCfg)
    (hreached : OpenrouterReached host req stageCfg) {route : Route}
    (h : openrouterRoute host req stageCfg = .ok (some route)) :
    route.1 = "openrouter" ∧ forbids host req route.2 = false := by
  unfold Line.openrouterRoute at h
  cases helect : electOpenrouter host req stageCfg with
  | error e =>
    rw [helect] at h
    cases h
  | ok elected =>
    rw [helect] at h
    simp only [Except.map, Except.ok.injEq] at h
    split at h
    · rename_i hstage
      rcases independentOpenrouter_some h with rfl | ⟨r, implementer, impl, reviewer, fallback, rfl,
        himp, himpl, hrev, hfam, hfall, rfl⟩
      · obtain ⟨-, hname, ⟨hdyn, -⟩ | ⟨-, hmodel⟩⟩ := electOpenrouter_ok helect
        · rw [dynamicModel_review hstage] at hdyn
          cases hdyn
        · exact ⟨hname, hmodel ▸ hreached.configured⟩
      · obtain ⟨-, hname, ⟨hdyn, -⟩ | ⟨-, hmodel⟩⟩ := electOpenrouter_ok helect
        · rw [dynamicModel_review hstage] at hdyn
          cases hdyn
        · rw [hmodel] at hrev
          exact ⟨hname, hc.review hreached hstage implementer himp impl himpl reviewer hrev hfam
            fallback hfall⟩
    · subst h
      obtain ⟨-, hname, ⟨hdyn, model, hsome, hmodel⟩ | ⟨-, hmodel⟩⟩ := electOpenrouter_ok helect
      · rw [hsome]
        exact ⟨hname, hc.dynamic hreached hdyn model hmodel⟩
      · exact ⟨hname, hmodel ▸ hreached.configured⟩

theorem eligible_openrouter {model : Option String} :
    Eligible host req ("openrouter", model) ↔ OpenrouterEligible host req model := by
  simp only [Eligible, if_true]

theorem Covered.of_eligible (hcfg : req.stageCfg = some stageCfg)
    (h : ∀ route, pick host req = .ok (some route) → Eligible host req route) :
    Covered host req stageCfg where
  cascade model hwinner := by
    have hok := eligible_openrouter.mp (h _ (pick_of_winner hcfg hwinner))
    exact ⟨hok.credit, hok.underCap⟩
  dynamic hreached hdyn model hmodel := by
    have hstage : req.stage ≠ "review" := by
      intro hstage
      rw [dynamicModel_review hstage] at hdyn
      cases hdyn
    have hpick : pick host req = .ok (some ("openrouter", some model)) := by
      rw [pick_of_reached hcfg hreached, Line.openrouterRoute,
        electOpenrouter_dynamic hreached.2.2 hdyn hmodel, Except.map, if_neg hstage]
    exact (eligible_openrouter.mp (h _ hpick)).notForbidden
  review hreached hstage implementer himp impl himpl reviewer hrev hfam fallback hfall := by
    have hpick : pick host req = .ok (some ("openrouter", some fallback.id)) := by
      rw [pick_of_reached hcfg hreached, Line.openrouterRoute,
        electOpenrouter_configured hreached.2.2 (dynamicModel_review hstage), Except.map,
        if_pos hstage, independentOpenrouter_fallback himp himpl hrev hfam hfall]
    exact (eligible_openrouter.mp (h _ hpick)).notForbidden

theorem Covered.eligible (hc : Covered host req stageCfg) {route : Route}
    (h : subscriptionWinner host req stageCfg = some route ∨
      (OpenrouterReached host req stageCfg ∧
        Line.openrouterRoute host req stageCfg = .ok (some route))) : Eligible host req route := by
  obtain ⟨harness, model⟩ := route
  rcases h with hwinner | ⟨hreached, hroute⟩
  · have helig := winner_eligible hwinner
    unfold Eligible
    split
    · rename_i hname
      change harness = "openrouter" at hname
      subst hname
      obtain ⟨hcredit, hcap⟩ := hc.cascade model hwinner
      exact helig.openrouter hcredit hcap
    · exact helig
  · obtain ⟨hname, hforb⟩ := hc.openrouterRoute hreached hroute
    change harness = "openrouter" at hname
    subst hname
    exact eligible_openrouter.mpr (hreached.eligible hforb)

end

end

/-! No subscription on the host, credit, and a benchmark led by a model that the configuration
forbids. -/

def benchmarkHost : Host where
  lower := Text.asciiLower
  lower_ascii _ _ := rfl
  environ _ := none
  registry :=
    { forbiddenAutonomousMarkers := ["fable", "astra"]
      models := [{ id := "gpt-sol", family := "openai", tier := "high", status := .active }]
      roles := [("planning.openrouter", "gpt-sol")] }
  now := 0
  providerAllowed _ _ := true
  defaultQuotaHeadroom _ := none
  defaultWeeklySlack _ := none
  availableCreditUsd := some 5
  ledger := some
    [{ modelId := "vendor/Model-X", codingScore := some 90, costPerTask := some (1 / 10),
       isParetoCoding := true, tier := "frontier_high" }]

def dynamicRequest : Request where
  stage := "development"
  hostCaps := []
  config :=
    { forbiddenAutonomousModels := ["gpt-6-astra", "vendor/model-x"]
      stages :=
        [("development",
          { cascade := .list [("codex", none)], openrouterOk := true,
            openrouterModel := some "dynamic" })] }

/-- In a cascade OpenRouter needs neither credit nor budget. -/
example :
    pick { benchmarkHost with availableCreditUsd := none }
      { dynamicRequest with
        hostCaps := ["harness:openrouter"]
        spentUsd := 3
        quotaLookup := some fun _ => some 80
        config :=
          { forbiddenAutonomousModels := []
            stages :=
              [("development", { cascade := .list [("openrouter", some "gpt-sol")] })] } } =
      .ok (some ("openrouter", some "gpt-sol")) := by decide +kernel

end Line
end DarkFactory
