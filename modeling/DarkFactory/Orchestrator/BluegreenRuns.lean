import DarkFactory.Lib.Runs
import DarkFactory.Orchestrator.Bluegreen

/-!
# DarkFactory.Orchestrator.BluegreenRuns

Deploys one after the other, on the compose that the last one left.

* `Shape` — the seven ways in which the effects of a call may go.
* `Safe` — what a call owes: it serves, keeps the colour that served until its cutover, records a colour that runs, and
  can be retried.
* `Migrates` — a call applies its overlap over a compose that records no colour. That overlap records green while only
  blue runs.
-/

namespace DarkFactory
namespace Orchestrator
namespace Bluegreen

theorem render?_some {allowed : Bool} {source : Lines} {s : BlueGreenState} {running : List Color} {r : Rendered}
    (h : render? allowed source s running = some r) :
    allowed = true ∧ r.state = s ∧ r.running = running ∧ r.source = source := by
  unfold render? at h
  split at h
  · split at h
    · rename_i hallowed
      cases h
      exact ⟨hallowed, rfl, rfl, rfl⟩
    · cases h
  · cases h

theorem render?_ok {source lines : Lines} {s : BlueGreenState} {running : List Color}
    (h : renderBluegreenCompose source s running = .ok lines) :
    ∃ r, render? true source s running = some r ∧ r.state = s ∧ r.running = running := by
  unfold render?
  split
  · exact ⟨_, if_pos rfl, rfl, rfl⟩
  · rename_i error herror
    rw [h] at herror
    cases herror

structure Overlapped (place : Compose) (call : Call) (r : Rendered) : Prop where
  state : r.state = overlapState place call
  running : r.running = overlapRunning place call
  source : r.source = call.source
  sha : isSha call.newSha = true
  ghcr : call.ghcr = true
  renders : call.overlapRenders = true
  applies : call.overlapApplies = true

structure CutOver (place : Compose) (call : Call) (r : Rendered) : Prop where
  state : r.state = finalState place call
  running : r.running = [(finalState place call).active]

inductive Shape (place : Compose) (call : Call) : List Effect → Prop where
  | nothing : Shape place call []
  | unrendered : Shape place call (restore place call)
  | unapplied (r : Rendered) : Shape place call (.hand .overlap (.bluegreen r) false :: restore place call)
  | unanswered (r : Rendered) (h : Overlapped place call r) :
      Shape place call (.hand .overlap (.bluegreen r) true :: restore place call)
  | uncut (r : Rendered) (h : Overlapped place call r) :
      Shape place call (.hand .overlap (.bluegreen r) true :: .answered :: restore place call)
  | cut (r r' : Rendered) (h : Overlapped place call r) (h' : CutOver place call r') :
      Shape place call [.hand .overlap (.bluegreen r) true, .answered, .hand .cutover (.bluegreen r') true]
  | cutFailed (r r' : Rendered) (h : Overlapped place call r) :
      Shape place call (.hand .overlap (.bluegreen r) true :: .answered :: .hand .cutover (.bluegreen r') false ::
        restore place call)

theorem overlap_shape {place : Compose} {call : Call} (hsha : isSha call.newSha = true) (hghcr : call.ghcr = true) :
    Shape place call (overlap place call).1 := by
  delta overlap
  split
  · exact .unrendered
  · rename_i r hr
    obtain ⟨hrenders, hstate, hrunning, hsource⟩ := render?_some hr
    split
    · rename_i happlies
      have hr' : Overlapped place call r := ⟨hstate, hrunning, hsource, hsha, hghcr, hrenders, happlies⟩
      split
      · delta cutover
        dsimp only
        split
        · exact .uncut r hr'
        · rename_i r' hr''
          obtain ⟨-, hstate', hrunning', -⟩ := render?_some hr''
          split
          · exact .cut r r' hr' ⟨hstate', hrunning'⟩
          · exact .cutFailed r r' hr'
      · exact .unanswered r hr'
    · exact .unapplied r

theorem run_shape (place : Compose) (call : Call) : Shape place call (runBluegreenDeploy place call).1 := by
  unfold runBluegreenDeploy
  split
  · exact .nothing
  · rename_i hsha
    have hsha' : isSha call.newSha = true := by simpa using hsha
    split
    · split
      · exact .nothing
      · split
        · exact .nothing
        · rename_i hghcr
          exact overlap_shape hsha' (by simpa using hghcr)
    · split
      · exact .nothing
      · rename_i hghcr
        exact overlap_shape hsha' (by simpa using hghcr)

theorem deploy_take (place : Compose) (call : Call) :
    ∃ n, (deploy place call).1 = (runBluegreenDeploy place call).1.take n ∧ (call.stop = some 0 → n = 0) := by
  unfold deploy
  dsimp only
  cases hstop : call.stop with
  | none =>
    refine ⟨(runBluegreenDeploy place call).1.length, (List.take_length ..).symm, ?_⟩
    intro h
    cases h
  | some n =>
    dsimp only
    split
    · exact ⟨n, rfl, fun h => Option.some.inj h⟩
    · rename_i hn
      refine ⟨n, ?_, fun h => Option.some.inj h⟩
      rw [List.take_of_length_le (by omega)]

theorem restore_cases (place : Compose) (call : Call) :
    restore place call = [] ∨ restore place call = [.hand .restore place call.restoreApplies] := by
  unfold restore
  split
  · exact Or.inl rfl
  · split
    · exact Or.inl rfl
    · split
      · exact Or.inl rfl
      · split
        · exact Or.inl rfl
        · exact Or.inr rfl

theorem installed_cases (place : Compose) (effects : List Effect) :
    installed place effects = place ∨ ∃ phase c, .hand phase c true ∈ effects ∧ installed place effects = c := by
  induction effects generalizing place with
  | nil => exact Or.inl rfl
  | cons e effects ih =>
    cases e with
    | answered =>
      rcases ih place with h | ⟨phase, c, hmem, h⟩
      · exact Or.inl h
      · exact Or.inr ⟨phase, c, List.mem_cons_of_mem _ hmem, h⟩
    | hand phase c b =>
      cases b with
      | false =>
        rcases ih place with h | ⟨phase', c', hmem, h⟩
        · exact Or.inl h
        · exact Or.inr ⟨phase', c', List.mem_cons_of_mem _ hmem, h⟩
      | true =>
        rcases ih c with h | ⟨phase', c', hmem, h⟩
        · exact Or.inr ⟨phase, c, List.mem_cons_self, h⟩
        · exact Or.inr ⟨phase', c', List.mem_cons_of_mem _ hmem, h⟩

def Compose.active (c : Compose) : Option Color := c.state.map BlueGreenState.active

def ChangesAnswered (newSha : String) : Option Color → Bool → List Effect → Prop
  | _, _, [] => True
  | recorded, _, .answered :: effects => ChangesAnswered newSha recorded true effects
  | recorded, answered, .hand _ _ false :: effects => ChangesAnswered newSha recorded answered effects
  | recorded, answered, .hand _ c true :: effects =>
    (c.active = recorded ∨ answered = true ∧ ∃ s, c.state = some s ∧ s.shaOf s.active = newSha) ∧
      ChangesAnswered newSha c.active answered effects

structure Works (place : Compose) (call : Call) : Prop where
  sha : isSha call.newSha = true
  ghcr : call.ghcr = true
  overlapRenders : call.overlapRenders = true
  overlap : ∃ lines, renderBluegreenCompose call.source (overlapState place call) (overlapRunning place call) = .ok lines
  overlapApplies : call.overlapApplies = true
  gate : probes call.gate 0 call.healthAttempts = true
  cutoverRenders : call.cutoverRenders = true
  cutover : ∃ lines,
    renderBluegreenCompose call.source (finalState place call) [(finalState place call).active] = .ok lines
  cutoverApplies : call.cutoverApplies = true
  serving : probes call.serving 0 call.publicAttempts = true
  stop : call.stop = none

def step (place : Compose) (call : Call) : Compose := installed place (deploy place call).1

structure Safe (m : Move Compose Call) : Prop where
  /-- every compose with colours that is handed to apply runs one of them, and says so -/
  serving : ∀ phase r b, .hand phase (.bluegreen r) b ∈ (deploy m.pre m.act).1 →
    (∃ color, color ∈ r.running ∧ ∃ block, colorBlock r.source r.state r.running color = .ok block ∧
      "      replicas: 1".toList ∈ block) ∧ hasServingReplica (some r.lines) = true
  /-- before the cutover the colour that served still does, with its image -/
  kept : ∀ r, m.pre = .bluegreen r → (∀ c, .hand .cutover c true ∉ (deploy m.pre m.act).1) →
    ∃ r', m.post = .bluegreen r' ∧ r'.state.active = r.state.active ∧ r.state.active ∈ r'.running ∧
      r'.state.shaOf r.state.active = r.state.shaOf r.state.active
  /-- the recorded colour runs, whenever a compose has been applied -/
  recorded : ∀ phase r, .hand phase (.bluegreen r) true ∈ (deploy m.pre m.act).1 → r.state.active ∈ r.running
  answered : ChangesAnswered m.act.newSha m.pre.active false (deploy m.pre m.act).1
  /-- a retry whose steps succeed leaves the new image recorded and running -/
  retried : ∀ retry, retry.newSha = m.act.newSha → Works m.post retry →
    ∃ s r, (deploy m.post retry).2 = .returned s ∧ step m.post retry = .bluegreen r ∧ r.state = s ∧
      s.shaOf s.active = retry.newSha ∧ s.active ∈ r.running

structure Migrates (place : Compose) (call : Call) : Prop where
  unmarked : place.state = none
  sha : isSha call.newSha = true
  ghcr : call.ghcr = true
  renders : call.overlapRenders = true
  rendered : ∃ lines, renderBluegreenCompose call.source ⟨.green, call.newSha, call.newSha⟩ [.blue] = .ok lines
  applies : call.overlapApplies = true
  running : call.stop ≠ some 0

def Recorded (place : Compose) : Prop := ∀ r, place = .bluegreen r → r.state.active ∈ r.running

theorem changesAnswered_take {newSha : String} (effects : List Effect) (n : Nat) (recorded : Option Color) (answered : Bool)
    (h : ChangesAnswered newSha recorded answered effects) : ChangesAnswered newSha recorded answered (effects.take n) := by
  induction effects generalizing n recorded answered with
  | nil =>
    rw [List.take_nil]
    exact h
  | cons e effects ih =>
    cases n with
    | zero => exact trivial
    | succ n =>
      rw [List.take_succ_cons]
      cases e with
      | answered => exact ih n recorded true h
      | hand phase c b =>
        cases b with
        | false => exact ih n recorded answered h
        | true => exact ⟨h.1, ih n _ answered h.2⟩

theorem changesAnswered_restore {newSha : String} {place : Compose} (call : Call) (answered : Bool) :
    ChangesAnswered newSha place.active answered (restore place call) := by
  rcases restore_cases place call with h | h
  · rw [h]
    exact trivial
  · rw [h]
    cases call.restoreApplies with
    | true => exact ⟨Or.inl rfl, trivial⟩
    | false => exact trivial

theorem rendered_serving (r : Rendered) :
    (∃ color, color ∈ r.running ∧ ∃ block, colorBlock r.source r.state r.running color = .ok block ∧
      "      replicas: 1".toList ∈ block) ∧ hasServingReplica (some r.lines) = true := by
  refine ⟨?_, serving_render r.ok⟩
  obtain ⟨-, -, hrunning, service, blue, green, hblue, hgreen, -⟩ := render_cases r.ok
  obtain ⟨color, hcolor⟩ := List.exists_mem_of_ne_nil r.running hrunning
  cases color with
  | blue =>
    have hmem := replicas_mem_colorBlock hblue
    rw [decide_eq_true hcolor] at hmem
    exact ⟨.blue, hcolor, blue, hblue, hmem⟩
  | green =>
    have hmem := replicas_mem_colorBlock hgreen
    rw [decide_eq_true hcolor] at hmem
    exact ⟨.green, hcolor, green, hgreen, hmem⟩

section

variable {place : Compose} {call : Call} {r₀ : Rendered}

theorem overlapState_active (h : place = .bluegreen r₀) : (overlapState place call).active = r₀.state.active := by
  subst h
  unfold overlapState planNext
  simp only [Compose.state_bluegreen]
  cases r₀.state.active <;> rfl

theorem overlapState_sha (h : place = .bluegreen r₀) :
    (overlapState place call).shaOf r₀.state.active = r₀.state.shaOf r₀.state.active := by
  subst h
  unfold overlapState planNext
  simp only [Compose.state_bluegreen]
  cases hactive : r₀.state.active <;> rfl

theorem overlapRunning_eq (h : place = .bluegreen r₀) : overlapRunning place call = COLORS := by
  subst h
  simp only [overlapRunning, Compose.state_bluegreen, Compose.serving_bluegreen, if_true]

theorem mem_colors (c : Color) : c ∈ COLORS := by cases c <;> decide

theorem Overlapped.active {r : Rendered} (hr : Overlapped place call r) (h : place = .bluegreen r₀) :
    r.state.active = r₀.state.active ∧ r₀.state.active ∈ r.running ∧
      r.state.shaOf r₀.state.active = r₀.state.shaOf r₀.state.active := by
  rw [hr.state, hr.running, overlapRunning_eq h]
  exact ⟨overlapState_active h, mem_colors _, overlapState_sha h⟩

theorem finalState_sha (place : Compose) (call : Call) :
    (finalState place call).shaOf (finalState place call).active = call.newSha := by
  unfold finalState planNext
  cases place.state with
  | none => rfl
  | some s => cases hactive : s.active <;> simp [otherColor, BlueGreenState.shaOf, hactive]

end

section

variable {place : Compose} {call : Call}

theorem Overlapped.unmarked {r : Rendered} (hr : Overlapped place call r) (hstate : place.state = none) :
    r.state = ⟨.green, call.newSha, call.newSha⟩ ∧ r.running = [.blue] := by
  rw [hr.state, hr.running]
  simp [overlapState, overlapRunning, planNext, hstate]

theorem Overlapped.migrates {r : Rendered} (hr : Overlapped place call r) (hstate : place.state = none)
    (hrunning : call.stop ≠ some 0) : Migrates place call where
  unmarked := hstate
  sha := hr.sha
  ghcr := hr.ghcr
  renders := hr.renders
  rendered := by
    obtain ⟨hs, hrun⟩ := hr.unmarked hstate
    have hok := r.ok
    rw [hs, hrun, hr.source] at hok
    exact ⟨_, hok⟩
  applies := hr.applies
  running := hrunning

inductive EffectOf (place : Compose) (call : Call) : Effect → Prop where
  | overlap (r : Rendered) (b : Bool) (h : b = true → Overlapped place call r) :
      EffectOf place call (.hand .overlap (.bluegreen r) b)
  | answered : EffectOf place call .answered
  | cutover (r : Rendered) (b : Bool) (h : b = true → CutOver place call r) :
      EffectOf place call (.hand .cutover (.bluegreen r) b)
  | restore (b : Bool) : EffectOf place call (.hand .restore place b)

theorem effectOf_restore {e : Effect} (h : e ∈ restore place call) : EffectOf place call e := by
  rcases restore_cases place call with hr | hr
  · rw [hr] at h
    cases h
  · rw [hr, List.mem_singleton] at h
    exact h ▸ .restore _

theorem Shape.effectOf {effects : List Effect} (h : Shape place call effects) {e : Effect} (he : e ∈ effects) :
    EffectOf place call e := by
  have hfalse : ∀ {p : Prop}, false = true → p := fun h => by cases h
  cases h with
  | nothing => cases he
  | unrendered => exact effectOf_restore he
  | unapplied r =>
    rcases List.mem_cons.mp he with rfl | he
    · exact .overlap r false hfalse
    · exact effectOf_restore he
  | unanswered r hr =>
    rcases List.mem_cons.mp he with rfl | he
    · exact .overlap r true fun _ => hr
    · exact effectOf_restore he
  | uncut r hr =>
    rcases List.mem_cons.mp he with rfl | he
    · exact .overlap r true fun _ => hr
    · rcases List.mem_cons.mp he with rfl | he
      · exact .answered
      · exact effectOf_restore he
  | cut r r' hr hr' =>
    simp only [List.mem_cons, List.not_mem_nil, or_false] at he
    rcases he with rfl | rfl | rfl
    · exact .overlap r true fun _ => hr
    · exact .answered
    · exact .cutover r' true fun _ => hr'
  | cutFailed r r' hr =>
    rcases List.mem_cons.mp he with rfl | he
    · exact .overlap r true fun _ => hr
    · rcases List.mem_cons.mp he with rfl | he
      · exact .answered
      · rcases List.mem_cons.mp he with rfl | he
        · exact .cutover r' false hfalse
        · exact effectOf_restore he

theorem effectOf_deploy {e : Effect} (h : e ∈ (deploy place call).1) : EffectOf place call e := by
  obtain ⟨n, hn, -⟩ := deploy_take place call
  rw [hn] at h
  exact (run_shape place call).effectOf (List.mem_of_mem_take h)

theorem overlapped_bluegreen (hmigrates : ¬ Migrates place call) {r : Rendered} {c : Compose} {phase : Phase}
    (hmem : .hand phase c true ∈ (deploy place call).1) (hr : Overlapped place call r) :
    ∃ r₀, place = .bluegreen r₀ := by
  cases hstate : place.state with
  | some s =>
    obtain ⟨r₀, heq, -⟩ := Compose.eq_of_state hstate
    exact ⟨r₀, heq⟩
  | none =>
    refine absurd (hr.migrates hstate fun hstop => ?_) hmigrates
    obtain ⟨n, hn, hzero⟩ := deploy_take place call
    rw [hn, hzero hstop, List.take_zero] at hmem
    cases hmem

theorem changesAnswered_overlap {r r₀ : Rendered} {sha : String} (hplace : place = .bluegreen r₀)
    (hr : Overlapped place call r) {answered : Bool} {effects : List Effect}
    (h : ChangesAnswered sha place.active answered effects) :
    ChangesAnswered sha place.active answered (.hand .overlap (.bluegreen r) true :: effects) := by
  have hactive : Compose.active (.bluegreen r) = place.active := by
    rw [hplace, Compose.active, Compose.active, Compose.state_bluegreen, Compose.state_bluegreen, Option.map_some,
      Option.map_some, (hr.active hplace).1]
  exact ⟨Or.inl hactive, hactive ▸ h⟩

theorem Shape.changesAnswered {effects : List Effect} (h : Shape place call effects)
    (hplace : ∀ r, Overlapped place call r → ∃ r₀, place = .bluegreen r₀) :
    ChangesAnswered call.newSha place.active false effects := by
  cases h with
  | nothing => exact trivial
  | unrendered => exact changesAnswered_restore call false
  | unapplied r =>
    have hrest : ChangesAnswered call.newSha place.active false (restore place call) :=
      changesAnswered_restore call false
    exact hrest
  | unanswered r hr =>
    obtain ⟨r₀, hr₀⟩ := hplace r hr
    exact changesAnswered_overlap hr₀ hr (changesAnswered_restore call false)
  | uncut r hr =>
    obtain ⟨r₀, hr₀⟩ := hplace r hr
    have hrest : ChangesAnswered call.newSha place.active true (restore place call) := changesAnswered_restore call true
    exact changesAnswered_overlap hr₀ hr hrest
  | cut r r' hr hr' =>
    obtain ⟨r₀, hr₀⟩ := hplace r hr
    have hcut : ChangesAnswered call.newSha place.active true [.hand .cutover (.bluegreen r') true] := by
      refine ⟨Or.inr ⟨rfl, r'.state, Compose.state_bluegreen r', ?_⟩, trivial⟩
      rw [hr'.state]
      exact finalState_sha place call
    exact changesAnswered_overlap hr₀ hr hcut
  | cutFailed r r' hr =>
    obtain ⟨r₀, hr₀⟩ := hplace r hr
    have hrest : ChangesAnswered call.newSha place.active true (restore place call) := changesAnswered_restore call true
    exact changesAnswered_overlap hr₀ hr hrest

theorem recorded_of_mem (hrec : Recorded place) (hmigrates : ¬ Migrates place call) {phase : Phase} {r : Rendered}
    (hmem : .hand phase (.bluegreen r) true ∈ (deploy place call).1) : r.state.active ∈ r.running := by
  generalize he : Effect.hand phase (.bluegreen r) true = e at hmem
  have heffect := effectOf_deploy hmem
  cases heffect with
  | overlap r' b h =>
    cases he
    obtain ⟨r₀, hr₀⟩ := overlapped_bluegreen hmigrates hmem (h rfl)
    obtain ⟨hactive, hrunning, -⟩ := (h rfl).active hr₀
    rw [hactive]
    exact hrunning
  | answered => cases he
  | cutover r' b h =>
    cases he
    rw [(h rfl).state, (h rfl).running]
    exact List.mem_singleton.mpr rfl
  | restore b =>
    cases he
    exact hrec r rfl

theorem recorded_step (hrec : Recorded place) (hmigrates : ¬ Migrates place call) : Recorded (step place call) := by
  intro r hr
  rcases installed_cases place (deploy place call).1 with h | ⟨phase, c, hmem, h⟩
  · exact hrec r (h.symm.trans hr)
  · have hc : c = .bluegreen r := h.symm.trans hr
    subst hc
    exact recorded_of_mem hrec hmigrates hmem

theorem kept_step {r₀ : Rendered} (hplace : place = .bluegreen r₀) (hrec : Recorded place)
    (hcut : ∀ c, .hand .cutover c true ∉ (deploy place call).1) :
    ∃ r', step place call = .bluegreen r' ∧ r'.state.active = r₀.state.active ∧ r₀.state.active ∈ r'.running ∧
      r'.state.shaOf r₀.state.active = r₀.state.shaOf r₀.state.active := by
  rcases installed_cases place (deploy place call).1 with h | ⟨phase, c, hmem, h⟩
  · exact ⟨r₀, h.trans hplace, rfl, hrec r₀ hplace, rfl⟩
  · generalize he : Effect.hand phase c true = e at hmem
    have heffect := effectOf_deploy hmem
    cases heffect with
    | overlap r' b hr =>
      cases he
      obtain ⟨hactive, hrunning, hsha⟩ := (hr rfl).active hplace
      exact ⟨r', h, hactive, hrunning, hsha⟩
    | answered => cases he
    | cutover r' b hr =>
      cases he
      exact absurd hmem (hcut _)
    | restore b =>
      cases he
      exact ⟨r₀, h.trans hplace, rfl, hrec r₀ hplace, rfl⟩

theorem works_step (hrec : Recorded place) (h : Works place call) :
    ∃ s r, (deploy place call).2 = .returned s ∧ step place call = .bluegreen r ∧ r.state = s ∧
      s.shaOf s.active = call.newSha ∧ s.active ∈ r.running := by
  obtain ⟨lines, hlines⟩ := h.overlap
  obtain ⟨lines', hlines'⟩ := h.cutover
  obtain ⟨r, hr, -, -⟩ := render?_ok hlines
  obtain ⟨r', hr', hstate', hrunning'⟩ := render?_ok hlines'
  have hoverlap : overlap place call = ([.hand .overlap (.bluegreen r) true, .answered,
      .hand .cutover (.bluegreen r') true], .returned (finalState place call)) := by
    have hcut : cutover place call =
        ([.hand .cutover (.bluegreen r') true], .returned (finalState place call)) := by
      delta cutover
      simp only [h.cutoverRenders, hr', h.cutoverApplies, if_true, h.serving, Bool.not_true, Bool.and_false,
        Bool.false_eq_true, if_false]
    delta overlap
    simp only [h.overlapRenders, hr, h.overlapApplies, h.gate, if_true, hcut]
  have hnew : runBluegreenDeploy place call = overlap place call →
      ∃ s r, (deploy place call).2 = .returned s ∧ step place call = .bluegreen r ∧ r.state = s ∧
        s.shaOf s.active = call.newSha ∧ s.active ∈ r.running := by
    intro hrun
    refine ⟨finalState place call, r', ?_, ?_, hstate', finalState_sha place call, ?_⟩
    · simp [deploy, h.stop, hrun, hoverlap]
    · simp [step, deploy, h.stop, hrun, hoverlap, installed]
    · rw [hrunning']
      exact List.mem_singleton.mpr rfl
  cases hstate : place.state with
  | none => exact hnew (by simp [runBluegreenDeploy, h.sha, h.ghcr, hstate])
  | some s =>
    by_cases hsame : s.shaOf s.active = call.newSha
    · obtain ⟨r₀, hr₀, hs⟩ := Compose.eq_of_state hstate
      refine ⟨s, r₀, ?_, ?_, hs, hsame, hs ▸ hrec r₀ hr₀⟩
      · simp [deploy, h.stop, runBluegreenDeploy, h.sha, hstate, hsame]
      · rw [← hr₀]
        simp [step, deploy, h.stop, runBluegreenDeploy, h.sha, hstate, hsame, installed]
    · exact hnew (by simp [runBluegreenDeploy, h.sha, h.ghcr, hstate, hsame])

theorem Migrates.overlap_mem (h : Migrates place call) :
    ∃ r, .hand .overlap (.bluegreen r) true ∈ (deploy place call).1 ∧ r.state.active ∉ r.running := by
  obtain ⟨lines, hlines⟩ := h.rendered
  obtain ⟨r, hr, hstate, hrunning⟩ := render?_ok hlines
  have hr' : render? call.overlapRenders call.source (overlapState place call) (overlapRunning place call) = some r := by
    rw [h.renders]
    simpa [overlapState, overlapRunning, planNext, h.unmarked] using hr
  have hrun : ∃ effects, (runBluegreenDeploy place call).1 = .hand .overlap (.bluegreen r) true :: effects := by
    have hstart : runBluegreenDeploy place call = overlap place call := by
      simp [runBluegreenDeploy, h.sha, h.ghcr, h.unmarked]
    rw [hstart]
    delta overlap
    rw [hr']
    simp only [h.applies, if_true]
    split
    · exact ⟨_, rfl⟩
    · exact ⟨_, rfl⟩
  obtain ⟨effects, heffects⟩ := hrun
  refine ⟨r, ?_, ?_⟩
  · unfold deploy
    dsimp only
    rw [heffects]
    split
    · exact List.mem_cons_self
    · rename_i n hstop
      have hn : n ≠ 0 := fun hn => h.running (hstop.trans (congrArg some hn))
      obtain ⟨k, rfl⟩ := Nat.exists_eq_succ_of_ne_zero hn
      split
      · exact List.mem_cons_self
      · exact List.mem_cons_self
  · rw [hstate, hrunning]
    exact fun h => nomatch List.mem_singleton.mp h

theorem safe_iff (place : Compose) (call : Call) (hrec : Recorded place) :
    Safe ⟨place, call, step place call⟩ ↔ ¬ Migrates place call := by
  constructor
  · intro hsafe hmigrates
    obtain ⟨r, hmem, hactive⟩ := hmigrates.overlap_mem
    exact hactive (hsafe.recorded .overlap r hmem)
  · intro hmigrates
    refine ⟨fun _ r _ _ => rendered_serving r, fun r hr hcut => kept_step hr hrec hcut, fun phase r hmem =>
      recorded_of_mem hrec hmigrates hmem, ?_, fun retry _ hworks => works_step (recorded_step hrec hmigrates) hworks⟩
    obtain ⟨n, hn, hzero⟩ := deploy_take place call
    rw [hn]
    by_cases hstop : call.stop = some 0
    · rw [hzero hstop, List.take_zero]
      exact trivial
    · refine changesAnswered_take _ n _ _ ((run_shape place call).changesAnswered fun r hr => ?_)
      cases hstate : place.state with
      | none => exact absurd (hr.migrates hstate hstop) hmigrates
      | some s =>
        obtain ⟨r₀, heq, -⟩ := Compose.eq_of_state hstate
        exact ⟨r₀, heq⟩

end

/-- A rendered compose reads back as its state; and the calls of a run, from a compose that records a running colour or
none, are safe exactly if none of them migrates. -/
theorem deploys_safe (place : Compose) (hrec : Recorded place) (calls : List Call) :
    (∀ source s running lines, renderBluegreenCompose source s running = .ok lines → parseState lines = some s) ∧
      ((∀ m ∈ Runs.moves step place calls, Safe m) ↔
        ∀ m ∈ Runs.moves step place calls, ¬ Migrates m.pre m.act) :=
  ⟨fun _ _ _ _ h => parseState_render h,
    Runs.moves_forall_iff safe_iff (fun _ _ h hmigrates => recorded_step h hmigrates) hrec calls⟩

def hubSource : Lines :=
  linesOf ["services:", "  darkhub:", "    build:", "      context: " ++ gitContext, "      no_cache: true",
    "    image: darkhub:v2.1", "    pull_policy: build", "    deploy:", "    environment:",
    "      - A=" ++ shaPlaceholder, "      - B=" ++ shaPlaceholder, "volumes:", ""]

def shaA : String := String.ofList (List.replicate 40 'a')

theorem parseMarker_of_head {line : Line} (h : line.head? ≠ some '#') : parseMarker line = none := by
  have hstart : Text.afterList markerStart line = none := by
    unfold markerStart
    rw [String.toList_ofList]
    cases line with
    | nil => rfl
    | cons c cs =>
      refine if_neg fun hhash => h ?_
      simp only [List.isPrefixOf, Bool.and_eq_true, beq_iff_eq] at hhash
      exact congrArg some hhash.1.symm
  unfold parseMarker
  rw [hstart]
  rfl

theorem hubSource_unmarked : parseState hubSource = none := by
  have hheads : ∀ line ∈ hubSource, line.head? ≠ some '#' := by
    unfold hubSource linesOf
    simp only [List.map_cons, List.map_nil, String.toList_append]
    repeat rw [String.toList_ofList]
    decide
  exact List.findSome?_eq_none_iff.mpr fun line hline => parseMarker_of_head (hheads line hline)

def hubLegacy : Compose := .legacy hubSource hubSource_unmarked

def firstCall : Call where
  source := hubSource
  newSha := shaA

theorem hubLegacy_recorded : Recorded hubLegacy := fun _ h => nomatch h

theorem deploys_safe_legacy :
    (∀ source s running lines, renderBluegreenCompose source s running = .ok lines → parseState lines = some s) ∧
      ((∀ m ∈ Runs.moves step hubLegacy [{ firstCall with ghcr := false }, firstCall], Safe m) ↔
        ∀ m ∈ Runs.moves step hubLegacy [{ firstCall with ghcr := false }, firstCall], ¬ Migrates m.pre m.act) :=
  deploys_safe hubLegacy hubLegacy_recorded [{ firstCall with ghcr := false }, firstCall]

theorem renders_of_service {source base : Lines} {sha : String} {service : Service} (hsha : isSha sha = true)
    (hbase : renderDarkhubCompose source sha = .ok base) (hservice : findService base = some service)
    (hdeploy : (service.body.any fun line => endsWith line "    deploy:") = true) :
    ∃ lines, renderBluegreenCompose source ⟨.green, sha, sha⟩ [.blue] = .ok lines := by
  have hblock : ∀ color, ∃ block, colorBlock source ⟨.green, sha, sha⟩ [.blue] color = .ok block := by
    intro color
    have hcolor : (⟨.green, sha, sha⟩ : BlueGreenState).shaOf color = sha := by cases color <;> rfl
    unfold colorBlock serviceBlock
    rw [hcolor, hbase]
    simp only [Except.bind, hservice, hdeploy, if_true]
    exact ⟨_, rfl⟩
  obtain ⟨blue, hblue⟩ := hblock .blue
  obtain ⟨green, hgreen⟩ := hblock .green
  unfold renderBluegreenCompose
  simp only [hsha, hbase, hservice, hblue, hgreen]
  exact ⟨_, rfl⟩

theorem hub_pinned : pinned hubSource = true := by
  unfold pinned contains count hubSource linesOf gitContext shaPlaceholder
  simp only [List.map_cons, List.map_nil, String.toList_append]
  repeat rw [String.toList_ofList]
  decide +kernel

def hubTransformed : Lines := hubSource.take 2 ++ (imageLines ++ (startFirst ++ hubSource.drop 8))

theorem hub_converted : (replaceBuild hubSource).bind replaceDeploy = some hubTransformed := by
  unfold hubTransformed hubSource linesOf
  simp only [List.map_cons, List.map_nil, String.toList_append]
  repeat rw [String.toList_ofList]
  rfl

theorem hub_service :
    ((findService ((dropContainerNames hubTransformed).map (Escape.replace shaPlaceholder.toList shaA.toList))).any
      fun s => s.body.any fun line => endsWith line "    deploy:") = true := by
  unfold hubTransformed hubSource imageLines startFirst linesOf shaPlaceholder shaA
  simp only [List.map_cons, List.map_nil, String.toList_append]
  repeat rw [String.toList_ofList]
  decide +kernel

theorem shaA_isSha : isSha shaA = true := by
  unfold isSha shaA
  rw [String.toList_ofList]
  decide

theorem hub_renders : ∃ lines, renderBluegreenCompose hubSource ⟨.green, shaA, shaA⟩ [.blue] = .ok lines := by
  have hbase : renderDarkhubCompose hubSource shaA =
      .ok ((dropContainerNames hubTransformed).map (Escape.replace shaPlaceholder.toList shaA.toList)) := by
    unfold renderDarkhubCompose
    rw [shaA_isSha, hub_pinned, hub_converted]
    rfl
  have hservice := hub_service
  cases hfound : findService ((dropContainerNames hubTransformed).map
      (Escape.replace shaPlaceholder.toList shaA.toList)) with
  | none =>
    rw [hfound] at hservice
    cases hservice
  | some service =>
    rw [hfound, Option.any_some] at hservice
    exact renders_of_service shaA_isSha hbase hfound hservice

theorem firstCall_migrates : Migrates hubLegacy firstCall where
  unmarked := hubSource_unmarked
  sha := shaA_isSha
  ghcr := rfl
  renders := rfl
  rendered := hub_renders
  applies := rfl
  running := nofun

/-- The overlap of the first deploy records green, and runs blue alone. -/
theorem first_deploy_unsafe :
    ¬ ∀ (place : Compose), Recorded place → ∀ calls : List Call, ∀ m ∈ Runs.moves step place calls, Safe m := by
  intro h
  have hsafe := h hubLegacy hubLegacy_recorded [firstCall] _ List.mem_cons_self
  exact (safe_iff hubLegacy firstCall hubLegacy_recorded).mp hsafe firstCall_migrates

end Bluegreen
end Orchestrator
end DarkFactory
