import DarkFactory.Line.RecoveryRuns

/-!
# DarkFactory.Line.RecoverySerial

Recovery is serial, and each proof closes it once.

* `RecoveryLaw` — one launch for each scope, one under a recovery reservation, and each proof closes one episode.
* `Inv` — which tokens a dispatcher has, and what became of the reservations of running launches.
-/

namespace DarkFactory
namespace Line
namespace AdmissionStore

open Reservations

section

variable {ι : Type}

def Call.claims : Call → List Slot
  | .heartbeatRecovery token => [⟨recoveryScope, token⟩]
  | .release scope token => [⟨scope, token⟩]
  | .releaseRecovery token => [⟨recoveryScope, token⟩]
  | _ => []

def Dispatcher.held (d : Dispatcher) : List Slot :=
  d.attempt.toList.flatMap Attempt.claims ++ d.inFlight.flatMap InFlight.claims ++ d.calls.flatMap Call.claims

/-- The reservation is one of another dispatcher, or of a launch that the dispatcher does not know. -/
def OfAnother (x : World ι) (i : ι) (c : Slot) : Prop :=
  (∃ j, j ≠ i ∧ c ∈ (x.dispatchers j).held) ∨ ∃ f ∈ x.running, c ∈ f.claims ∧ f ∉ (x.dispatchers i).inFlight

structure RecoveryLaw (m : Move (World ι) (Event ι)) : Prop where
  single : ∀ scope, (m.post.running.filter fun f => decide (f.scope = scope)).length ≤ 1
  serial : recoveryActive m.post.store = true → (m.post.running.filter fun f => f.recoveryToken.isSome).length ≤ 1
  latched : recoveryActive m.pre.store = true → recoveryActive m.post.store = false →
    ∃ i receipt safeCause saved, m.act = .prove i (some receipt) safeCause saved ∧
      completeRecovery receipt receipt.proof.candidateDigest m.pre.store = some m.post.store ∧
      m.post.closed = m.pre.closed ++ [receipt.proof]
  once : m.post.closed.Nodup
  counted : successes m.post.store = m.post.closed.length
  fenced : ∀ i, m.act = .call i → ∀ row ∈ m.pre.store.reservations, OfAnother m.pre i row.toClaim →
    row ∈ m.post.store.reservations

/-- The reservations of the scope have not run out under their launches. -/
def Kept (x : World ι) (scope : Scope) : Prop :=
  ∀ f ∈ x.running, ∀ c ∈ f.claims, c.scope = scope → Leased x.now x.store.reservations c

/-- No scope is reserved while a launch has outlived its reservation of it, no launch starts after its own have run out,
and a proof that has closed an episode is presented to a later one only as the receipt that is remembered. -/
def EventOk (x : World ι) : Event ι → Prop
  | .reserveRecovery _ => Kept x recoveryScope
  | .reserve i => ∀ a ∈ (x.dispatchers i).attempt, Kept x a.scope
  | .launch i _ => ∀ a ∈ (x.dispatchers i).attempt, ∀ c ∈ a.claims, Leased x.now x.store.reservations c
  | .prove _ receipt _ _ => recoveryActive x.store = true → ∀ r ∈ receipt, r.proof ∈ x.closed →
      x.store.recovery.bind Recovery.receiptDigest = some r
  | _ => True

instance (x : World ι) (scope : Scope) : Decidable (Kept x scope) :=
  inferInstanceAs (Decidable (∀ f ∈ x.running, ∀ c ∈ f.claims, c.scope = scope → _))

instance (x : World ι) (e : Event ι) : Decidable (EventOk x e) :=
  match e with
  | .reserveRecovery _ => inferInstanceAs (Decidable (Kept x recoveryScope))
  | .reserve i => inferInstanceAs (Decidable (∀ a ∈ (x.dispatchers i).attempt, Kept x a.scope))
  | .launch i _ =>
    inferInstanceAs (Decidable (∀ a ∈ (x.dispatchers i).attempt, ∀ c ∈ a.claims, Leased x.now x.store.reservations c))
  | .prove _ receipt _ _ =>
    inferInstanceAs (Decidable (recoveryActive x.store = true → ∀ r ∈ receipt, r.proof ∈ x.closed →
      x.store.recovery.bind Recovery.receiptDigest = some r))
  | .wait _ | .ends _ | .cycle _ _ | .reap _ _ _ | .check _ _ _ _ | .refuse _ | .launchFails _ _ | .call _ | .raises _ _
  | .restart _ => inferInstanceAs (Decidable True)

structure Inv (x : World ι) : Prop where
  keyed : Keyed x.store.reservations
  drawn : ∀ i, ∀ c ∈ (x.dispatchers i).held, c.token < x.drawn
  started : ∀ f ∈ x.running, ∀ c ∈ f.claims, c.token < x.drawn
  apart : ∀ i j, i ≠ j → ∀ c ∈ (x.dispatchers i).held, c ∉ (x.dispatchers j).held
  /-- A dispatcher with a token of a running launch has the launch in flight. -/
  known : ∀ f ∈ x.running, ∀ i, ∀ c ∈ f.claims, c ∈ (x.dispatchers i).held → f ∈ (x.dispatchers i).inFlight
  /-- An attempt for a scope of a running launch has lost its reservation. -/
  lost : ∀ f ∈ x.running, ∀ i a, (x.dispatchers i).attempt = some a → ∀ c ∈ f.claims, ∀ c' ∈ a.claims,
    c.scope = c'.scope → ¬ Listed x.store.reservations c'
  exclusive : x.running.Pairwise fun f f' => ∀ c ∈ f.claims, ∀ c' ∈ f'.claims, c.scope ≠ c'.scope

theorem Inv.start : Inv (World.start ι) where
  keyed := .nil
  drawn _ _ h := by cases h
  started _ h := by cases h
  apart _ _ _ _ h := by cases h
  known _ h := by cases h
  lost _ h := by cases h
  exclusive := .nil

structure Book (x : World ι) : Prop where
  once : x.closed.Nodup
  counted : successes x.store = x.closed.length

theorem Book.start : Book (World.start ι) := ⟨.nil, rfl⟩

variable {d d' : Dispatcher} {running : List InFlight} {x : World ι} {i : ι} {a : Attempt}

theorem mem_held {c : Slot} :
    c ∈ d.held ↔ (∃ a, d.attempt = some a ∧ c ∈ a.claims) ∨ (∃ f ∈ d.inFlight, c ∈ f.claims) ∨
      ∃ call ∈ d.calls, c ∈ call.claims := by
  simp only [Dispatcher.held, List.mem_append, List.mem_flatMap, Option.mem_toList, or_assoc]

/-- A dispatcher comes to nothing new, and knows the same launches or has forgotten everything. -/
structure Follows (running : List InFlight) (d d' : Dispatcher) : Prop where
  held : ∀ c ∈ d'.held, c ∈ d.held
  attempt : ∀ a', d'.attempt = some a' → ∀ c ∈ a'.claims, ∃ a, d.attempt = some a ∧ c ∈ a.claims
  inFlight : ∀ f ∈ running, f ∈ d.inFlight → f ∈ d'.inFlight ∨ d'.held = []

theorem Follows.refl (running : List InFlight) (d : Dispatcher) : Follows running d d where
  held _ h := h
  attempt a ha _ hc := ⟨a, ha, hc⟩
  inFlight _ _ h := .inl h

theorem Follows.of (hattempt : ∀ a', d'.attempt = some a' → ∀ c ∈ a'.claims, ∃ a, d.attempt = some a ∧ c ∈ a.claims)
    (hknown : ∀ f ∈ d'.inFlight, f ∈ d.inFlight) (hcalls : ∀ call ∈ d'.calls, ∀ c ∈ call.claims, c ∈ d.held)
    (hrunning : ∀ f ∈ running, f ∈ d.inFlight → f ∈ d'.inFlight) : Follows running d d' := by
  refine ⟨fun c hc => ?_, hattempt, fun f hf hin => .inl (hrunning f hf hin)⟩
  rcases mem_held.mp hc with ⟨a', ha', hca⟩ | ⟨f, hf, hcf⟩ | ⟨call, hcall, hcc⟩
  · exact mem_held.mpr (.inl (hattempt a' ha' c hca))
  · exact mem_held.mpr (.inr (.inl ⟨f, hknown f hf, hcf⟩))
  · exact hcalls call hcall c hcc

theorem Follows.dropped (hattempt : d'.attempt = none)
    (hin : d'.inFlight = d.inFlight) (hcalls : ∀ call ∈ d'.calls, ∀ c ∈ call.claims, c ∈ d.held) :
    Follows running d d' := by
  refine .of (fun a' ha' => ?_) (fun f hf => hin ▸ hf) hcalls fun f _ hf => hin.symm ▸ hf
  rw [hattempt] at ha'
  cases ha'

theorem Follows.called (hattempt : d'.attempt = d.attempt)
    (hin : d'.inFlight = d.inFlight) (hcalls : ∀ call ∈ d'.calls, ∀ c ∈ call.claims, c ∈ d.held) :
    Follows running d d' :=
  .of (fun a' ha' _ hc => ⟨a', hattempt ▸ ha', hc⟩) (fun _ hf => hin ▸ hf) hcalls fun _ _ hf => hin.symm ▸ hf

theorem Follows.restarted (running : List InFlight) (d : Dispatcher) (s : Store) (file : List Release) :
    Follows running d (restarted s file) where
  held _ h := by cases h
  attempt _ h := by cases h
  inFlight _ _ _ := .inr rfl

structure Shrinks (x x' : World ι) : Prop where
  dispatcher : ∀ i, Follows x'.running (x.dispatchers i) (x'.dispatchers i)
  keyed : Keyed x'.store.reservations
  listed : ∀ c, Listed x'.store.reservations c → Listed x.store.reservations c
  drawn : x'.drawn = x.drawn
  running : x'.running.Sublist x.running

theorem Inv.shrinks {x' : World ι} (h : Inv x) (hs : Shrinks x x') : Inv x' where
  keyed := hs.keyed
  drawn i c hc := hs.drawn ▸ h.drawn i c ((hs.dispatcher i).held c hc)
  started f hf c hc := hs.drawn ▸ h.started f (hs.running.subset hf) c hc
  apart i j hne c hc hc' := h.apart i j hne c ((hs.dispatcher i).held c hc) ((hs.dispatcher j).held c hc')
  known f hf i c hc hheld := by
    have hin := h.known f (hs.running.subset hf) i c hc ((hs.dispatcher i).held c hheld)
    rcases (hs.dispatcher i).inFlight f hf hin with hin' | hnone
    · exact hin'
    · rw [hnone] at hheld
      cases hheld
  lost f hf i a' ha' c hc c' hc' hscope hlisted := by
    obtain ⟨a, ha, hca⟩ := (hs.dispatcher i).attempt a' ha' c' hc'
    exact h.lost f (hs.running.subset hf) i a ha c hc c' hca hscope (hs.listed c' hlisted)
  exclusive := h.exclusive.sublist hs.running

variable [DecidableEq ι]

theorem put_self (x : World ι) (i : ι) (d : Dispatcher) : (x.put i d).dispatchers i = d := Function.update_self ..

theorem put_of_ne (x : World ι) {i j : ι} (d : Dispatcher) (hj : j ≠ i) :
    (x.put i d).dispatchers j = x.dispatchers j := Function.update_of_ne hj ..

theorem put_follows (h : Follows x.running (x.dispatchers i) d) (j : ι) :
    Follows x.running (x.dispatchers j) ((x.put i d).dispatchers j) := by
  by_cases hj : j = i
  · subst hj
    rw [put_self]
    exact h
  · rw [put_of_ne x d hj]
    exact .refl _ _

theorem Inv.changed {store : Store} {file : List Release} {closed : List Proof}
    (h : Inv x) (hd : Follows x.running (x.dispatchers i) d) (hkeyed : Keyed store.reservations)
    (hlisted : ∀ c, Listed store.reservations c → Listed x.store.reservations c) :
    Inv { x.put i d with store := store, file := file, closed := closed } :=
  h.shrinks ⟨put_follows hd, hkeyed, hlisted, rfl, .refl _⟩

theorem Inv.put (h : Inv x) (hd : Follows x.running (x.dispatchers i) d) : Inv (x.put i d) :=
  h.changed hd h.keyed fun _ hl => hl

variable {cfg : DispatcherConfig}

theorem performed_rows (cfg : DispatcherConfig) (now : Nat) {s : Store} (hk : Keyed s.reservations) (call : Call) :
    Keyed (performed cfg now s call).store.reservations ∧
      (∀ c, Listed (performed cfg now s call).store.reservations c → Listed s.reservations c) ∧
      ∀ row ∈ s.reservations, row.toClaim ∉ call.claims → row ∈ (performed cfg now s call).store.reservations := by
  cases call with
  | heartbeatRecovery token =>
    exact ⟨renew_keyed hk _ _, fun _ => renew_listed, fun row hr hne => renew_other hr fun he => hne (he ▸ .head _)⟩
  | release scope token =>
    exact ⟨release_keyed hk _, fun _ => release_listed, fun row hr hne => release_other hr fun he => hne (he ▸ .head _)⟩
  | releaseRecovery token =>
    exact ⟨release_keyed hk _, fun _ => release_listed, fun row hr hne => release_other hr fun he => hne (he ▸ .head _)⟩
  | recordFailure fingerprint =>
    have hsame : (recordFailure fingerprint s).2.reservations = s.reservations := by
      unfold recordFailure
      split <;> rfl
    exact ⟨hsame ▸ hk, fun c h => hsame ▸ h, fun row hr _ => hsame.symm ▸ hr⟩
  | setRecovery fingerprint =>
    have hsame : (setRecovery true fingerprint.errorClass (some fingerprint) false s).reservations = s.reservations := by
      unfold setRecovery
      split <;> rfl
    exact ⟨hsame ▸ hk, fun c h => hsame ▸ h, fun row hr _ => hsame.symm ▸ hr⟩
  | recordReceiptCause safeCause => exact ⟨hk, fun _ h => h, fun _ h _ => h⟩
  | addRelease r => exact ⟨hk, fun _ h => h, fun _ h _ => h⟩

theorem performed_more (cfg : DispatcherConfig) (now : Nat) (s : Store) (call : Call) :
    ∀ more ∈ (performed cfg now s call).more, more.claims = [] := by
  cases call with
  | recordFailure fingerprint =>
    intro more hmore
    rw [performed] at hmore
    split at hmore
    · rw [List.mem_singleton.mp hmore]
      rfl
    · cases hmore
  | heartbeatRecovery | release | releaseRecovery | setRecovery | recordReceiptCause | addRelease =>
    intro more hmore
    cases hmore

theorem Inv.makeCall (h : Inv x) (i : ι) : Inv (makeCall cfg x i) := by
  unfold AdmissionStore.makeCall
  split
  · exact h
  · rename_i call calls hcalls
    obtain ⟨hkeyed, hlisted, -⟩ := performed_rows cfg x.now h.keyed call
    refine h.changed (.called rfl rfl fun c hc => ?_) hkeyed hlisted
    rcases List.mem_append.mp hc with hmore | hrest
    · intro claim hclaim
      rw [performed_more cfg x.now x.store call c hmore] at hclaim
      cases hclaim
    · intro claim hclaim
      refine mem_held.mpr (.inr (.inr ⟨c, ?_, hclaim⟩))
      rw [hcalls]
      exact List.mem_cons_of_mem _ hrest

theorem makeCall_fenced (h : Inv x) (i : ι) {row : Row} (hr : row ∈ x.store.reservations)
    (hother : OfAnother x i row.toClaim) : row ∈ (makeCall cfg x i).store.reservations := by
  have hnot : row.toClaim ∉ (x.dispatchers i).held := by
    intro hheld
    rcases hother with ⟨j, hj, hc⟩ | ⟨f, hf, hc, hunknown⟩
    · exact h.apart j i hj _ hc hheld
    · exact hunknown (h.known f hf i _ hc hheld)
  unfold makeCall
  split
  · exact hr
  · rename_i call calls hcalls
    refine (performed_rows cfg x.now h.keyed call).2.2 row hr fun hc => hnot ?_
    refine mem_held.mpr (.inr (.inr ⟨call, ?_, hc⟩))
    rw [hcalls]
    exact .head _

theorem Inv.acquired {a' : Attempt} {scope : Scope} {ttl : Nat} {rows : List Row} (h : Inv x)
    (ha : (x.dispatchers i).attempt = some a) (hkept : Kept x scope)
    (hacquire : acquire x.now ttl ⟨scope, x.drawn⟩ x.store.reservations = some rows)
    (hclaims : ∀ c ∈ a'.claims, c = ⟨scope, x.drawn⟩ ∨ c ∈ a.claims) :
    Inv { x.put i { x.dispatchers i with attempt := some a' } with
      store := { x.store with reservations := rows }
      drawn := x.drawn + 1 } := by
  -- a dispatcher has the new token or those it had before
  have hheld : ∀ j, ∀ c ∈ ((x.put i { x.dispatchers i with attempt := some a' }).dispatchers j).held,
      c ∈ (x.dispatchers j).held ∨ j = i ∧ c = ⟨scope, x.drawn⟩ := by
    intro j c hc
    by_cases hj : j = i
    · subst hj
      rw [put_self] at hc
      rcases mem_held.mp hc with ⟨a'', ha'', hca⟩ | hrest
      · cases ha''
        rcases hclaims c hca with hnew | hold
        · exact .inr ⟨rfl, hnew⟩
        · exact .inl (mem_held.mpr (.inl ⟨a, ha, hold⟩))
      · exact .inl (mem_held.mpr (.inr hrest))
    · rw [put_of_ne x _ hj] at hc
      exact .inl hc
  have hinFlight : ∀ j, ((x.put i { x.dispatchers i with attempt := some a' }).dispatchers j).inFlight =
      (x.dispatchers j).inFlight := by
    intro j
    by_cases hj : j = i
    · subst hj
      rw [put_self]
    · rw [put_of_ne x _ hj]
  refine ⟨acquire_keyed h.keyed hacquire, fun j c hc => ?_, fun f hf c hc => Nat.lt_succ_of_lt (h.started f hf c hc),
    fun j k hne c hc hc' => ?_, fun f hf j c hc hc' => ?_, fun f hf j b hb c hc c' hc' hscope hlisted => ?_, h.exclusive⟩
  · change c.token < x.drawn + 1
    rcases hheld j c hc with hold | ⟨-, rfl⟩
    · exact Nat.lt_succ_of_lt (h.drawn j c hold)
    · exact Nat.lt_succ_self _
  · rcases hheld j c hc with hold | ⟨rfl, rfl⟩
    · rcases hheld k c hc' with hold' | ⟨-, rfl⟩
      · exact h.apart j k hne c hold hold'
      · exact absurd (h.drawn j _ hold) (lt_irrefl _)
    · rcases hheld k _ hc' with hold' | ⟨hk, -⟩
      · exact absurd (h.drawn k _ hold') (lt_irrefl _)
      · exact hne hk.symm
  · change f ∈ ((x.put i _).dispatchers j).inFlight
    rw [hinFlight j]
    rcases hheld j c hc' with hold | ⟨-, rfl⟩
    · exact h.known f hf j c hc hold
    · exact absurd (h.started f hf _ hc) (lt_irrefl _)
  · -- the new reservation is of no running launch's scope, and the others are lost as before
    have hb' : c' = ⟨scope, x.drawn⟩ ∨ ∃ b', (x.dispatchers j).attempt = some b' ∧ c' ∈ b'.claims := by
      change ((x.put i _).dispatchers j).attempt = some b at hb
      by_cases hj : j = i
      · subst hj
        rw [put_self] at hb
        cases hb
        exact (hclaims c' hc').imp_right fun hold => ⟨a, ha, hold⟩
      · rw [put_of_ne x _ hj] at hb
        exact .inr ⟨b, hb, hc'⟩
    rcases hb' with rfl | ⟨b', hb', hcb'⟩
    · exact acquire_free hacquire (hkept f hf c hc hscope) hscope
    · rcases acquire_listed hacquire hlisted with rfl | hold
      · have hdrawn := h.drawn j _ (mem_held.mpr (.inl ⟨b', hb', hcb'⟩))
        exact absurd hdrawn (lt_irrefl _)
      · exact h.lost f hf j b' hb' c hc c' hcb' hscope hold

theorem Inv.launched {f : InFlight} (h : Inv x)
    (ha : (x.dispatchers i).attempt = some a) (hf : ∀ c ∈ f.claims, c ∈ a.claims)
    (hleased : ∀ c ∈ a.claims, Leased x.now x.store.reservations c) :
    Inv { x.put i { x.dispatchers i with attempt := none, inFlight := (x.dispatchers i).inFlight ++ [f] } with
      running := x.running ++ [f] } := by
  have hmine : ∀ c ∈ f.claims, c ∈ (x.dispatchers i).held := fun c hc => mem_held.mpr (.inl ⟨a, ha, hf c hc⟩)
  have hheld : ∀ j, ∀ c ∈ ((x.put i { x.dispatchers i with
      attempt := none, inFlight := (x.dispatchers i).inFlight ++ [f] }).dispatchers j).held,
      c ∈ (x.dispatchers j).held := by
    intro j c hc
    by_cases hj : j = i
    · subst hj
      rw [put_self] at hc
      rcases mem_held.mp hc with ⟨a', ha', -⟩ | ⟨f', hf', hcf⟩ | hcalls
      · cases ha'
      · rcases List.mem_append.mp hf' with hold | hnew
        · exact mem_held.mpr (.inr (.inl ⟨f', hold, hcf⟩))
        · rw [List.mem_singleton.mp hnew] at hcf
          exact hmine c hcf
      · exact mem_held.mpr (.inr (.inr hcalls))
    · rw [put_of_ne x _ hj] at hc
      exact hc
  -- no running launch has a scope of the new one
  have hfree : ∀ f' ∈ x.running, ∀ c ∈ f'.claims, ∀ c' ∈ f.claims, c.scope ≠ c'.scope := by
    intro f' hf' c hc c' hc' hscope
    exact h.lost f' hf' i a ha c hc c' (hf c' hc') hscope (hleased c' (hf c' hc')).listed
  have hrunning : ∀ f' ∈ x.running ++ [f], f' ∈ x.running ∨ f' = f := fun f' hf' =>
    (List.mem_append.mp hf').imp_right List.mem_singleton.mp
  refine ⟨h.keyed, fun j c hc => h.drawn j c (hheld j c hc), fun f' hf' c hc => ?_,
    fun j k hne c hc hc' => h.apart j k hne c (hheld j c hc) (hheld k c hc'), fun f' hf' j c hc hc' => ?_,
    fun f' hf' j b hb c hc c' hc' hscope hlisted => ?_, ?_⟩
  · rcases hrunning f' hf' with hold | rfl
    · exact h.started f' hold c hc
    · exact h.drawn i c (hmine c hc)
  · change f' ∈ ((x.put i _).dispatchers j).inFlight
    by_cases hj : j = i
    · subst hj
      rw [put_self]
      rcases hrunning f' hf' with hold | rfl
      · exact List.mem_append_left _ (h.known f' hold j c hc (hheld j c hc'))
      · exact List.mem_append_right _ (.head _)
    · rw [put_of_ne x _ hj]
      rcases hrunning f' hf' with hold | rfl
      · exact h.known f' hold j c hc (hheld j c hc')
      · exact absurd (hheld j c hc') (h.apart i j (Ne.symm hj) c (hmine c hc))
  · change ((x.put i _).dispatchers j).attempt = some b at hb
    by_cases hj : j = i
    · subst hj
      rw [put_self] at hb
      cases hb
    · rw [put_of_ne x _ hj] at hb
      rcases hrunning f' hf' with hold | rfl
      · exact h.lost f' hold j b hb c hc c' hc' hscope hlisted
      · -- its row would be the one of the launch
        have heq : c = c' := h.keyed.eq (hleased c (hf c hc)).listed hlisted hscope
        subst heq
        exact h.apart i j (Ne.symm hj) c (hmine c hc) (mem_held.mpr (.inl ⟨b, hb, hc'⟩))
  · refine List.pairwise_append.mpr ⟨h.exclusive, List.pairwise_singleton _ _, fun f' hf' g hg => ?_⟩
    rw [List.mem_singleton.mp hg]
    exact hfree f' hf'

theorem held_calls (d : Dispatcher) : ∀ call ∈ d.calls, ∀ c ∈ call.claims, c ∈ d.held :=
  fun call hcall _ hc => mem_held.mpr (.inr (.inr ⟨call, hcall, hc⟩))

theorem releaseRecovery_held (ha : d.attempt = some a) :
    ∀ call ∈ (a.recoveryToken.map Call.releaseRecovery).toList, ∀ c ∈ call.claims, c ∈ d.held := by
  intro call hcall c hc
  rw [Option.mem_toList] at hcall
  obtain ⟨t, ht, rfl⟩ := Option.map_eq_some_iff.mp hcall
  refine mem_held.mpr (.inl ⟨a, ha, ?_⟩)
  rw [List.mem_singleton.mp hc, Attempt.claims, ht]
  exact List.mem_append_right _ (.head _)

theorem heartbeats_held :
    ∀ call ∈ d.inFlight.filterMap fun f => f.recoveryToken.map Call.heartbeatRecovery,
      ∀ c ∈ call.claims, c ∈ d.held := by
  intro call hcall c hc
  obtain ⟨f, hf, hcall⟩ := List.mem_filterMap.mp hcall
  obtain ⟨t, ht, rfl⟩ := Option.map_eq_some_iff.mp hcall
  refine mem_held.mpr (.inr (.inl ⟨f, hf, ?_⟩))
  rw [List.mem_singleton.mp hc, InFlight.claims, ht]
  exact .tail _ (.head _)

theorem releases_claims {f : InFlight} : ∀ call ∈ f.releases, ∀ c ∈ call.claims, c ∈ f.claims := by
  intro call hcall c hc
  rcases List.mem_cons.mp hcall with rfl | hcall
  · rw [List.mem_singleton.mp hc]
    exact .head _
  · rw [Option.mem_toList] at hcall
    obtain ⟨t, ht, rfl⟩ := Option.map_eq_some_iff.mp hcall
    rw [List.mem_singleton.mp hc, InFlight.claims, ht]
    exact .tail _ (.head _)

theorem reapCalls_claims {active : Bool} {f : InFlight} {ending : Ending} :
    ∀ call ∈ reapCalls active f ending, ∀ c ∈ call.claims, c ∈ f.claims := by
  intro call hcall c hc
  have hreleases := releases_claims (f := f) call
  cases ending with
  | delivered =>
    rcases List.mem_append.mp hcall with hcall | hcall
    · exact hreleases hcall c hc
    · split at hcall
      · rcases List.mem_cons.mp hcall with rfl | hcall
        · cases hc
        · rw [List.mem_singleton.mp hcall] at hc
          cases hc
      · cases hcall
  | silent errorClass =>
    rcases List.mem_cons.mp hcall with rfl | hcall
    · cases hc
    · rcases List.mem_append.mp hcall with hcall | hcall
      · split at hcall
        · rw [List.mem_singleton.mp hcall] at hc
          cases hc
        · cases hcall
      · exact hreleases hcall c hc
  | failed errorClass =>
    rcases List.mem_cons.mp hcall with rfl | hcall
    · cases hc
    · exact hreleases hcall c hc

theorem launchFailureCalls_held {token : Nat} {errorClass : String}
    (ha : d.attempt = some a) (ht : a.token = some token) :
    ∀ call ∈ launchFailureCalls d a token errorClass, ∀ c ∈ call.claims, c ∈ d.held := by
  intro call hcall c hc
  rcases List.mem_cons.mp hcall with rfl | hcall
  · cases hc
  · rcases List.mem_cons.mp hcall with rfl | hcall
    · refine mem_held.mpr (.inl ⟨a, ha, ?_⟩)
      rw [List.mem_singleton.mp hc, Attempt.claims, ht]
      exact .head _
    · split at hcall
      · exact releaseRecovery_held ha call hcall c hc
      · cases hcall

theorem Inv.prove (h : Inv x) (i : ι) (r : Release) (releases : List Release) (receipt : Option Receipt)
    (safeCause : String) (saved : Bool) : Inv (prove x i r releases receipt safeCause saved) := by
  unfold AdmissionStore.prove
  split
  · exact h.changed (.called rfl rfl (held_calls _)) h.keyed fun _ hl => hl
  · rename_i receipt hreceipt
    split
    · exact h
    · rename_i store hstore
      have hrows : store.reservations = x.store.reservations := by
        unfold completeRecovery at hstore
        split at hstore
        · cases hstore
        · split at hstore
          · cases hstore; rfl
          · split at hstore
            · cases hstore; rfl
            · split at hstore <;> (cases hstore; rfl)
      refine h.changed ?_ (hrows ▸ h.keyed) fun _ hl => hrows ▸ hl
      split
      · exact .called rfl rfl (held_calls _)
      · exact .restarted _ _ _ _

theorem step_inv {e : Event ι} (h : Inv x) (hok : EventOk x e) : Inv (step cfg x e) := by
  cases e with
  | wait time => exact ⟨h.keyed, h.drawn, h.started, h.apart, h.known, h.lost, h.exclusive⟩
  | ends f => exact h.shrinks ⟨fun i => .refl _ _, h.keyed, fun _ hl => hl, rfl, List.erase_sublist⟩
  | cycle i early =>
    rw [step]
    split
    · refine h.put (.called rfl rfl fun call hcall => ?_)
      change call ∈ (if _ then _ else _) at hcall
      split at hcall
      · exact heartbeats_held call hcall
      · cases hcall
    · exact h
  | reap i f ending =>
    rw [step]
    split
    · rename_i hguard
      rw [Bool.and_eq_true, Bool.and_eq_true, List.contains_iff_mem, Bool.not_eq_true'] at hguard
      obtain ⟨⟨-, hin⟩, hended⟩ := hguard
      have hgone : f ∉ x.running := by simpa using hended
      refine h.put (.of (fun a' ha' c hc => ⟨a', ha', hc⟩) (fun f' hf' => List.mem_of_mem_erase hf')
        (fun call hcall c hc => ?_) fun f' hf' hin' => ?_)
      · exact mem_held.mpr (.inr (.inl ⟨f, hin, reapCalls_claims call hcall c hc⟩))
      · have hne : f' ≠ f := fun he => hgone (he ▸ hf')
        exact (List.mem_erase_of_ne hne).mpr hin'
    · exact h
  | check i host scope errorClass =>
    rw [step]
    split
    · refine h.put (.of (fun a' ha' c hc => ?_) (fun _ hf => hf) (held_calls (x.dispatchers i)) fun _ _ hf => hf)
      cases ha'
      cases hc
    · exact h
  | reserveRecovery i =>
    rw [step]
    split
    · rename_i host scope ha
      split
      · split
        · exact h.put (.dropped rfl rfl (held_calls (x.dispatchers i)))
        · rename_i store hstore
          obtain ⟨rows, hrows, rfl⟩ := Option.map_eq_some_iff.mp hstore
          refine h.acquired ha hok hrows fun c hc => ?_
          exact .inl (List.mem_singleton.mp hc)
      · exact h
    · exact h
  | reserve i =>
    rw [step]
    split
    · rename_i host scope recoveryToken ha
      split
      · exact h
      · split
        · exact h.put (.dropped rfl rfl (releaseRecovery_held ha))
        · rename_i store hstore
          obtain ⟨rows, hrows, rfl⟩ := Option.map_eq_some_iff.mp hstore
          refine h.acquired ha (hok _ ha) hrows fun c hc => ?_
          rcases List.mem_cons.mp hc with hnew | hold
          · exact .inl hnew
          · exact .inr hold
    · exact h
  | refuse i =>
    rw [step]
    split
    · rename_i host scope recoveryToken ha
      exact h.put (.dropped rfl rfl (releaseRecovery_held ha))
    · exact h
  | launch i runId =>
    rw [step]
    split
    · rename_i host scope recoveryToken token ha
      exact h.launched ha (fun c hc => hc) (hok _ ha)
    · exact h
  | launchFails i errorClass =>
    rw [step]
    split
    · rename_i host scope recoveryToken token ha
      exact h.put (.dropped rfl rfl (launchFailureCalls_held ha rfl))
    · exact h
  | call i => exact h.makeCall i
  | raises i n =>
    refine h.put (.called rfl rfl fun call hcall => ?_)
    exact held_calls _ call (List.mem_of_mem_drop hcall)
  | prove i receipt safeCause saved =>
    rw [step]
    split
    · exact h.prove i _ _ receipt safeCause saved
    · exact h
  | restart i => exact h.put (.restarted _ _ _ _)

theorem performed_latch (cfg : DispatcherConfig) (now : Nat) (s : Store) (call : Call) :
    successes (performed cfg now s call).store = successes s ∧
      (recoveryActive s = true → recoveryActive (performed cfg now s call).store = true) := by
  cases call with
  | heartbeatRecovery | release | releaseRecovery | addRelease => exact ⟨rfl, fun h => h⟩
  | recordFailure fingerprint =>
    have hsame : (recordFailure fingerprint s).2.recovery = s.recovery := by
      unfold recordFailure
      split <;> rfl
    simp only [performed, successes, recoveryActive, hsame]
    exact ⟨trivial, fun h => h⟩
  | setRecovery fingerprint =>
    cases hrow : s.recovery with
    | none => simp [performed, setRecovery, successes, recoveryActive, hrow]
    | some row => simp [performed, setRecovery, successes, recoveryActive, hrow]
  | recordReceiptCause safeCause =>
    cases hrow : s.recovery with
    | none => simp [performed, recordRecoveryReceiptCause, successes, recoveryActive, hrow]
    | some row =>
      cases hactive : row.active with
      | true => simp [performed, recordRecoveryReceiptCause, successes, recoveryActive, hrow, hactive]
      | false => simp [performed, recordRecoveryReceiptCause, successes, recoveryActive, hrow, hactive]

/-- What `complete_recovery` does to the latch: nothing, or it closes the episode for a receipt that is not the one
remembered. -/
theorem completeRecovery_latch {receipt : Receipt} {candidate : String} {s s' : Store}
    (h : completeRecovery receipt candidate s = some s') :
    s' = s ∨ recoveryActive s = true ∧ s.recovery.bind Recovery.receiptDigest ≠ some receipt ∧
      recoveryActive s' = false ∧ successes s' = successes s + 1 := by
  unfold completeRecovery at h
  split at h
  · cases h
  · split at h
    · cases h
      exact .inl rfl
    · rename_i row hrow
      split at h
      · cases h
        exact .inl rfl
      · rename_i hactive
        split at h
        · cases h
          exact .inl rfl
        · rename_i hother
          cases h
          refine .inr ⟨?_, ?_, rfl, ?_⟩
          · simpa [recoveryActive, hrow] using hactive
          · rw [hrow]
            exact hother
          · simp [successes, hrow]

structure SameLatch (x x' : World ι) : Prop where
  closed : x'.closed = x.closed
  successes : successes x'.store = successes x.store
  active : recoveryActive x.store = true → recoveryActive x'.store = true

omit [DecidableEq ι] in
theorem SameLatch.of_store {x' : World ι} (hclosed : x'.closed = x.closed)
    (hrecovery : x'.store.recovery = x.store.recovery) : SameLatch x x' where
  closed := hclosed
  successes := by rw [AdmissionStore.successes, AdmissionStore.successes, hrecovery]
  active h := by
    rw [recoveryActive, hrecovery]
    exact h

structure Closes (x : World ι) (receipt : Receipt) (x' : World ι) : Prop where
  active : recoveryActive x.store = true
  fresh : x.store.recovery.bind Recovery.receiptDigest ≠ some receipt
  completed : completeRecovery receipt receipt.proof.candidateDigest x.store = some x'.store
  closed : x'.closed = x.closed ++ [receipt.proof]
  successes : successes x'.store = successes x.store + 1

theorem prove_latch (x : World ι) (i : ι) (r : Release) (releases : List Release) (receipt : Option Receipt)
    (safeCause : String) (saved : Bool) :
    SameLatch x (prove x i r releases receipt safeCause saved) ∨
      ∃ receipt', receipt = some receipt' ∧ Closes x receipt' (prove x i r releases receipt safeCause saved) := by
  unfold prove
  split
  · obtain ⟨hsuccesses, hactive⟩ := performed_latch {} 0 x.store (.recordReceiptCause safeCause)
    exact .inl ⟨rfl, hsuccesses, hactive⟩
  · rename_i receipt' hreceipt
    split
    · exact .inl ⟨rfl, rfl, fun h => h⟩
    · rename_i store hstore
      rcases completeRecovery_latch hstore with rfl | ⟨hactive, hfresh, hclosed, hsuccesses⟩
      · refine .inl ⟨?_, rfl, fun h => h⟩
        simp
      · refine .inr ⟨receipt', (Option.filter_eq_some_iff.mp hreceipt).1, hactive, hfresh, hstore, ?_, hsuccesses⟩
        simp [hactive, hclosed]

theorem makeCall_latch (cfg : DispatcherConfig) (x : World ι) (i : ι) : SameLatch x (makeCall cfg x i) := by
  unfold makeCall
  split
  · exact ⟨rfl, rfl, fun h => h⟩
  · rename_i call calls hcalls
    obtain ⟨hsuccesses, hactive⟩ := performed_latch cfg x.now x.store call
    exact ⟨rfl, hsuccesses, hactive⟩

theorem step_latch (cfg : DispatcherConfig) (x : World ι) (e : Event ι) :
    SameLatch x (step cfg x e) ∨
      ∃ i receipt safeCause saved, e = .prove i (some receipt) safeCause saved ∧ Closes x receipt (step cfg x e) := by
  cases e with
  | call i => exact .inl (makeCall_latch cfg x i)
  | prove i receipt safeCause saved =>
    rw [step]
    split
    · rcases prove_latch x i _ _ receipt safeCause saved with hsame | ⟨receipt', rfl, hcloses⟩
      · exact .inl hsame
      · exact .inr ⟨i, receipt', safeCause, saved, rfl, hcloses⟩
    · exact .inl (.of_store rfl rfl)
  | wait | ends | restart | raises => exact .inl (.of_store rfl rfl)
  | cycle i early | reap i f ending | check i host scope errorClass =>
    rw [step]
    split <;> exact .inl (.of_store rfl rfl)
  | refuse i | launch i runId | launchFails i errorClass =>
    rw [step]
    split <;> exact .inl (.of_store rfl rfl)
  | reserveRecovery i =>
    rw [step]
    split
    · split
      · split
        · exact .inl (.of_store rfl rfl)
        · rename_i store hstore
          obtain ⟨rows, -, rfl⟩ := Option.map_eq_some_iff.mp hstore
          exact .inl (.of_store rfl rfl)
      · exact .inl (.of_store rfl rfl)
    · exact .inl (.of_store rfl rfl)
  | reserve i =>
    rw [step]
    split
    · split
      · exact .inl (.of_store rfl rfl)
      · split
        · exact .inl (.of_store rfl rfl)
        · rename_i store hstore
          obtain ⟨rows, -, rfl⟩ := Option.map_eq_some_iff.mp hstore
          exact .inl (.of_store rfl rfl)
    · exact .inl (.of_store rfl rfl)

theorem step_book {e : Event ι} (h : Book x) (hok : EventOk x e) : Book (step cfg x e) := by
  rcases step_latch cfg x e with hsame | ⟨i, receipt, safeCause, saved, rfl, hcloses⟩
  · refine ⟨hsame.closed ▸ h.once, ?_⟩
    rw [hsame.successes, hsame.closed]
    exact h.counted
  · have hnew : receipt.proof ∉ x.closed := fun hold => hcloses.fresh (hok hcloses.active receipt rfl hold)
    refine ⟨?_, ?_⟩
    · rw [hcloses.closed, List.nodup_append]
      refine ⟨h.once, List.nodup_singleton _, fun p hp q hq => ?_⟩
      rw [List.mem_singleton.mp hq]
      exact fun he => hnew (he ▸ hp)
    · rw [hcloses.successes, hcloses.closed, h.counted, List.length_append, List.length_singleton]

omit [DecidableEq ι] in
theorem Inv.at_most_one (h : Inv x) (scope : Scope) {p : InFlight → Bool}
    (hp : ∀ f, p f = true → ∃ c ∈ f.claims, c.scope = scope) : (x.running.filter p).length ≤ 1 := by
  have hpairwise := h.exclusive.sublist (List.filter_sublist (p := p) (l := x.running))
  have hall : ∀ f ∈ x.running.filter p, ∃ c ∈ f.claims, c.scope = scope :=
    fun f hf => hp f (List.of_mem_filter hf)
  match hfs : x.running.filter p with
  | [] => exact Nat.zero_le 1
  | [f] => exact le_rfl
  | f :: f' :: fs =>
    rw [hfs] at hpairwise hall
    obtain ⟨c, hc, hscope⟩ := hall f (.head _)
    obtain ⟨c', hc', hscope'⟩ := hall f' (.tail _ (.head _))
    exact absurd (hscope.trans hscope'.symm) (List.rel_of_pairwise_cons hpairwise (.head _) c hc c' hc')

theorem step_law (cfg : DispatcherConfig) {x : World ι} {e : Event ι} (h : Inv x) (hb : Book x) (hok : EventOk x e) :
    RecoveryLaw ⟨x, e, step cfg x e⟩ where
  single scope := by
    refine (step_inv h hok).at_most_one scope fun f hf => ?_
    exact ⟨_, .head _, of_decide_eq_true hf⟩
  serial _ := by
    refine (step_inv h hok).at_most_one recoveryScope fun f hf => ?_
    obtain ⟨t, ht⟩ := Option.isSome_iff_exists.mp hf
    refine ⟨⟨recoveryScope, t⟩, ?_, rfl⟩
    rw [InFlight.claims, ht]
    exact .tail _ (.head _)
  latched hactive hinactive := by
    rcases step_latch cfg x e with hsame | ⟨i, receipt, safeCause, saved, rfl, hcloses⟩
    · have hstill := hsame.active hactive
      rw [hinactive] at hstill
      cases hstill
    · exact ⟨i, receipt, safeCause, saved, rfl, hcloses.completed, hcloses.closed⟩
  once := (step_book hb hok).once
  counted := (step_book hb hok).counted
  fenced i he row hr hother := by
    cases he
    exact makeCall_fenced h i hr hother

/-- When every step of a run meets the condition, the law holds of every step. -/
theorem recovery_serial (cfg : DispatcherConfig) (events : List (Event ι))
    (hok : ∀ m ∈ Runs.moves (step cfg) (World.start ι) events, EventOk m.pre m.act) :
    ∀ m ∈ Runs.moves (step cfg) (World.start ι) events, RecoveryLaw m := by
  intro m hm
  have hi : Inv m.pre ∧ Book m.pre :=
    Runs.moves_invariant_of (I := fun x : World ι => Inv x ∧ Book x)
      (fun _ _ h hc => ⟨step_inv h.1 hc, step_book h.2 hc⟩) ⟨Inv.start, Book.start⟩ hok m hm
  have hlaw := step_law cfg hi.1 hi.2 (hok m hm)
  rw [← Runs.post_of_mem hm] at hlaw
  exact hlaw

end

def attempting (ticketId : String) : Scope := ⟨"darkfac", ticketId, "candidate", "context", "resource"⟩

/-- The first dispatcher launches a ticket, which fails and turns recovery on. -/
def latching : List (Event Bool) :=
  [.check false "grokbox" (attempting "USR-01") none, .reserve false, .launch false "run-1",
    .ends ⟨"grokbox", "run-1", attempting "USR-01", 0, none⟩,
    .reap false ⟨"grokbox", "run-1", attempting "USR-01", 0, none⟩ (.failed "error"), .call false, .call false,
    .call false]

def recovering : List (Event Bool) :=
  [.check false "grokbox" (attempting "USR-02") none, .reserveRecovery false, .reserve false, .launch false "run-2"]

def delivering : List (Event Bool) :=
  [.ends ⟨"grokbox", "run-2", attempting "USR-02", 2, some 1⟩,
    .reap false ⟨"grokbox", "run-2", attempting "USR-02", 2, some 1⟩ .delivered, .call false, .call false, .call false,
    .call false]

def Proof.sample : Proof := ⟨"USR-02", "run-2", "candidate", "merged, reviewed, deployed"⟩

theorem recovery_serial_sample :
    (Runs.moves (step { recoveryFailureThreshold := 1 }) (World.start Bool)
      (latching ++ recovering ++ delivering ++ [.prove false (some ⟨.sample, 1⟩) "" true])).Forall RecoveryLaw :=
  List.forall_iff_forall_mem.mpr (recovery_serial _ _ (by decide +kernel))

/-- The dispatcher dies before it takes the proven release off the list, and another one turns recovery on again. -/
def relatching : List (Event Bool) :=
  [.prove false (some ⟨.sample, 1⟩) "" false,
    .check true "workbox" (attempting "USR-03") none, .reserve true, .launch true "run-3",
    .ends ⟨"workbox", "run-3", attempting "USR-03", 3, none⟩,
    .reap true ⟨"workbox", "run-3", attempting "USR-03", 3, none⟩ (.failed "error"), .call true, .call true, .call true]

/-- The lease runs out under the launch, and another dispatcher gets it. -/
def expiring : List (Event Bool) :=
  [.wait (90 * SECOND), .cycle true false, .check true "workbox" (attempting "USR-03") none, .reserveRecovery true,
    .reserve true]

theorem last_move (cfg : DispatcherConfig) (events : List (Event Bool)) (e : Event Bool) :
    ⟨Runs.run (step cfg) (World.start Bool) events, e, step cfg (Runs.run (step cfg) (World.start Bool) events) e⟩ ∈
      Runs.moves (step cfg) (World.start Bool) (events ++ [e]) := by
  rw [Runs.moves_append]
  exact List.mem_append_right _ (.head _)

/-- The proof is rebuilt and closes a second episode; and two launches run under recovery reservations. -/
theorem rebuilt_proof_closes_again :
    (∃ m ∈ Runs.moves (step { recoveryFailureThreshold := 1 }) (World.start Bool)
      (latching ++ recovering ++ delivering ++ relatching ++ [.prove false (some ⟨.sample, 2⟩) "" true]),
      ¬ RecoveryLaw m) ∧
    ∃ m ∈ Runs.moves (step { recoveryFailureThreshold := 1 }) (World.start Bool)
      (latching ++ recovering ++ expiring ++ [.launch true "run-3"]), ¬ RecoveryLaw m := by
  refine ⟨⟨_, last_move _ _ _, fun h => ?_⟩, ⟨_, last_move _ _ _, fun h => ?_⟩⟩
  · exact absurd h.once (by decide +kernel)
  · exact absurd (h.serial (by decide +kernel)) (by decide +kernel)

end AdmissionStore
end Line
end DarkFactory
