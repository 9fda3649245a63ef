import DarkFactory.Line.LineLock

/-!
# DarkFactory.Line.Exclusion

At most one live process is between a successful `acquire` and its `release`.

* `Owns` — the process has created the lock, is alive and has not released it.
* `Inv` — the lock file is that of the process that owns the lock, and a lock that is about
  to be renamed aside on the strength of its content is that of a dead process.
* `lock_exclusive` — under `Undisturbed` one process at most holds the lock, in every interleaving.
-/

namespace DarkFactory
namespace Line

def Pc.owning : Pc → Bool
  | .write _ _ => true
  | .coordinate _ => true
  | .holding _ => true
  | .releasing _ => true
  | _ => false

namespace Machine

def Owns (S : Machine) (p : Int) : Prop := S.pidAlive p = true ∧ (S.procs p).pc.owning = true

instance (S : Machine) (p : Int) : Decidable (S.Owns p) := inferInstanceAs (Decidable (_ ∧ _))

/-- Between a successful `acquire` and the end of its `release`. -/
def Holds (S : Machine) (p : Int) : Prop :=
  S.pidAlive p = true ∧ ∃ info, (S.procs p).pc = .holding info ∨ (S.procs p).pc = .releasing info

theorem Holds.owns {S : Machine} {p : Int} (h : S.Holds p) : S.Owns p := by
  obtain ⟨ha, info, hp | hp⟩ := h
  · exact ⟨ha, by rw [hp]; rfl⟩
  · exact ⟨ha, by rw [hp]; rfl⟩

def Spares (S : Machine) (exempt : Int → Prop) : Prop :=
  ∀ f ∈ S.path, S.Owns f.owner → exempt f.owner

instance (S : Machine) (exempt : Int → Prop) [DecidablePred exempt] : Decidable (S.Spares exempt) :=
  inferInstanceAs (Decidable (∀ f ∈ S.path, _ → _))

end Machine

open Machine

/-- The lock that a process judges is not that of a live process with a heartbeat in time, the one it
renames aside is still that of the process it has judged or nobody's, and none is put back over the
lock of an owner. -/
def Pc.Undisturbed (S : Machine) (now : Rat) : Pc → Prop
  | .check _ _ (some existing) => S.pidAlive existing.pid = true →
      now - existing.heartbeatAt ≤ HEARTBEAT_STALE_PID_ALIVE_SEC
  | .rename _ _ observed => S.Spares fun owner => ∃ o ∈ observed, owner = o.pid
  | .putBack _ _ _ _ => S.Spares fun _ => False
  | _ => True

instance (S : Machine) (now : Rat) (pc : Pc) : Decidable (pc.Undisturbed S now) :=
  match pc with
  | .check _ _ (some _) => inferInstanceAs (Decidable (_ → _ ≤ _))
  | .rename _ _ observed => inferInstanceAs (Decidable (S.Spares fun owner => ∃ o ∈ observed, owner = o.pid))
  | .putBack _ _ _ _ => inferInstanceAs (Decidable (S.Spares fun _ => False))
  | .check _ _ none | .idle | .inherited | .refused _ | .create _ _ | .read _ _ | .blocked _ _ _
  | .reread _ _ _ | .dropStale _ _ | .probe _ _ _ _ | .dropAside _ _ _ _ | .answer _ _ _ _
  | .lastRead _ | .write _ _ | .coordinate _ | .holding _ | .releasing _ => .isTrue trivial

/-- The step does not go wrong: so do those of `acquire` above, and a heartbeat does not replace the
lock of an owner with the file of another process. -/
def Undisturbed (S : Machine) : Event → Prop
  | .main p now _ => (S.procs p).pc.Undisturbed S now
  | .beat p k _ _ => ∀ b ∈ (S.procs p).beats[k]?, b.phase = .wrote → ∀ t ∈ S.tmp,
      S.Spares fun owner => owner = t.owner
  | _ => True

instance (S : Machine) (e : Event) : Decidable (Undisturbed S e) :=
  match e with
  | .main p now _ => inferInstanceAs (Decidable ((S.procs p).pc.Undisturbed S now))
  | .beat p k _ _ => inferInstanceAs (Decidable (∀ b ∈ (S.procs p).beats[k]?, _ → ∀ t ∈ S.tmp,
      S.Spares fun owner => owner = t.owner))
  | .acquire _ _ _ _ _ | .coordinate _ _ _ | .release _ | .die _ => .isTrue trivial

structure Inv (S : Machine) : Prop where
  file : ∀ p, S.Owns p → ∃ f, S.path = some f ∧ f.owner = p
  judged : ∀ p attempts info o, (S.procs p).pc = .rename attempts info (some o) →
    S.pidAlive p = true → S.pidAlive o.pid = false

theorem Inv.unique {S : Machine} (h : Inv S) {p q : Int} (hp : S.Owns p) (hq : S.Owns q) : p = q := by
  obtain ⟨f, hf, rfl⟩ := h.file p hp
  obtain ⟨g, hg, rfl⟩ := h.file q hq
  rw [hf] at hg
  cases hg
  rfl

/-- What a step of `p` leaves alone, and that its new pc is none about to rename a lock it has read. -/
structure StepOf (S S' : Machine) (p : Int) : Prop where
  alive : S'.alive = S.alive
  others : ∀ q, q ≠ p → (S'.procs q).pc = (S.procs q).pc
  judged : ∀ attempts info o, (S'.procs p).pc = .rename attempts info (some o) → S.pidAlive o.pid = false

section

variable {S S' : Machine} {p : Int}

theorem StepOf.pidAlive (hs : StepOf S S' p) (q : Int) : S'.pidAlive q = S.pidAlive q := by
  rw [Machine.pidAlive, Machine.pidAlive, hs.alive]

theorem StepOf.owns (hs : StepOf S S' p) {q : Int} (hq : q ≠ p) : S'.Owns q ↔ S.Owns q := by
  rw [Machine.Owns, Machine.Owns, hs.pidAlive, hs.others q hq]

theorem Inv.of_step (h : Inv S) (hs : StepOf S S' p)
    (hfile : ∀ q, S'.Owns q → ∃ f, S'.path = some f ∧ f.owner = q) : Inv S' where
  file := hfile
  judged q attempts info o hq ha := by
    rw [hs.pidAlive] at ha ⊢
    by_cases hqp : q = p
    · subst hqp
      exact hs.judged attempts info o hq
    · exact h.judged q attempts info o ((hs.others q hqp).symm.trans hq) ha

theorem Inv.kept (h : Inv S) (hs : StepOf S S' p)
    (hpath : S'.path.map File.owner = S.path.map File.owner)
    (hown : (S'.procs p).pc.owning = true → (S.procs p).pc.owning = true) : Inv S' := by
  refine h.of_step hs fun q hq => ?_
  have hq' : S.Owns q := by
    by_cases hqp : q = p
    · subst hqp
      exact ⟨(hs.pidAlive q).symm.trans hq.1, hown hq.2⟩
    · exact (hs.owns hqp).mp hq
  obtain ⟨f, hf, hfo⟩ := h.file q hq'
  rw [hf, Option.map_some, Option.map_eq_some_iff] at hpath
  obtain ⟨f', hf', ho⟩ := hpath
  exact ⟨f', hf', ho.trans hfo⟩

theorem Inv.vacant (h : Inv S) (hs : StepOf S S' p) (hno : ∀ q, q ≠ p → ¬ S.Owns q)
    (hp : (S'.procs p).pc.owning = false) : Inv S' := by
  refine h.of_step hs fun q hq => ?_
  by_cases hqp : q = p
  · subst hqp
    exact absurd hq.2 (by rw [hp]; decide)
  · exact absurd ((hs.owns hqp).mp hq) (hno q hqp)

theorem Inv.no_owner {exempt : Int → Prop} (h : Inv S) (hsp : S.Spares exempt)
    (hex : ∀ q, exempt q → S.pidAlive q = false) (q : Int) : ¬ S.Owns q := by
  intro hq
  obtain ⟨f, hf, rfl⟩ := h.file q hq
  have hdead := hex _ (hsp f hf hq)
  rw [hq.1] at hdead
  cases hdead

end

/-- A pc outside the ownership of the lock, and not one about to rename a lock it has read. -/
def Pc.Plain (pc : Pc) : Prop :=
  pc.owning = false ∧ ∀ attempts info o, pc ≠ .rename attempts info (some o)

theorem plain_retry (attempts : Nat) (info : LineLockInfo) : (retry attempts info).Plain := by
  unfold retry
  split
  · exact ⟨rfl, fun _ _ _ h => by cases h⟩
  · exact ⟨rfl, fun _ _ _ h => by cases h⟩

theorem plain_recovered (attempts : Nat) (info : LineLockInfo) (holder : Option LineLockInfo) :
    (recovered attempts info holder).Plain := by
  cases holder with
  | none => exact plain_retry attempts info
  | some holder => exact ⟨rfl, fun _ _ _ h => by cases h⟩

section

variable {S : Machine} {p : Int}

theorem stepOf_setPc (T : Machine) (pc : Pc) (halive : T.alive = S.alive)
    (hprocs : ∀ q, q ≠ p → (T.procs q).pc = (S.procs q).pc)
    (hj : ∀ attempts info o, pc = .rename attempts info (some o) → S.pidAlive o.pid = false) :
    StepOf S (T.setPc p pc) p where
  alive := halive
  others q hq := by
    show (Function.update T.procs p _ q).pc = _
    rw [Function.update_of_ne hq]
    exact hprocs q hq
  judged attempts info o ho := by
    refine hj attempts info o ?_
    rw [← ho]
    simp [setPc]

@[simp] theorem setPc_pc (T : Machine) (pc : Pc) : ((T.setPc p pc).procs p).pc = pc := by
  simp [setPc]

theorem Inv.plain (h : Inv S) (T : Machine) (halive : T.alive = S.alive)
    (hprocs : T.procs = S.procs) (hpath : T.path = S.path) {pc : Pc} (hpc : pc.Plain) :
    Inv (T.setPc p pc) := by
  refine h.kept (stepOf_setPc T pc halive (fun q _ => by rw [hprocs])
    fun _ _ _ ho => absurd ho (hpc.2 _ _ _)) ?_ fun ho => ?_
  · show T.path.map _ = _
    rw [hpath]
  · rw [setPc_pc, hpc.1] at ho
    cases ho

theorem Inv.vacated (h : Inv S) (T : Machine) (halive : T.alive = S.alive)
    (hprocs : T.procs = S.procs) {pc : Pc} (hpc : pc.Plain) (hno : ∀ q, q ≠ p → ¬ S.Owns q) :
    Inv (T.setPc p pc) := by
  refine h.vacant (stepOf_setPc T pc halive (fun q _ => by rw [hprocs])
    fun _ _ _ ho => absurd ho (hpc.2 _ _ _)) hno ?_
  rw [setPc_pc]
  exact hpc.1

theorem fill_owner (ino : Nat) (info : LineLockInfo) (file : Option File) :
    (fill ino info file).map File.owner = file.map File.owner := by
  cases file with
  | none => rfl
  | some f =>
    simp only [fill, Option.map_some, Option.some.injEq]
    split
    · rfl
    · rfl

theorem create_inv (h : Inv S) {info : LineLockInfo} (hpath : S.path = none) :
    Inv ({ S with path := some ⟨S.nextIno, p, none⟩, nextIno := S.nextIno + 1 }.setPc p
      (.write S.nextIno info)) := by
  have hs : StepOf S ({ S with
      path := some ⟨S.nextIno, p, none⟩, nextIno := S.nextIno + 1 }.setPc p
        (.write S.nextIno info)) p :=
    stepOf_setPc _ (.write S.nextIno info) rfl (fun _ _ => rfl) fun _ _ _ h => by cases h
  refine h.of_step hs fun q hq => ?_
  by_cases hqp : q = p
  · subst hqp
    exact ⟨_, rfl, rfl⟩
  · obtain ⟨f, hf, -⟩ := h.file q ((hs.owns hqp).mp hq)
    rw [hpath] at hf
    cases hf

theorem rename_inv (h : Inv S) (hp : S.pidAlive p = true) {attempts : Nat} {info : LineLockInfo}
    {observed : Option LineLockInfo} (hpc : (S.procs p).pc = .rename attempts info observed)
    (hsp : S.Spares fun owner => ∃ o ∈ observed, owner = o.pid) (f : File) :
    Inv (({ S with path := none }.setAside p (some f)).setPc p (.reread attempts info observed)) := by
  have hdead : ∀ q, (∃ o ∈ observed, q = o.pid) → S.pidAlive q = false := by
    rintro q ⟨o, ho, rfl⟩
    rw [Option.mem_def] at ho
    exact h.judged p attempts info o (ho ▸ hpc) hp
  have hplain : (Pc.reread attempts info observed).Plain := ⟨rfl, fun _ _ _ h => by cases h⟩
  exact h.vacated ({ S with path := none }.setAside p (some f)) rfl rfl hplain
    fun q _ => h.no_owner hsp hdead q

theorem putBack_inv (h : Inv S) {attempts : Nat} {info : LineLockInfo}
    {renamed observed : Option LineLockInfo} (hsp : S.Spares fun _ => False) (f : File) :
    Inv (({ S with path := some f }.setAside p none).setPc p
      (.answer attempts info renamed observed)) := by
  have hplain : (Pc.answer attempts info renamed observed).Plain :=
    ⟨rfl, fun _ _ _ h => by cases h⟩
  exact h.vacated ({ S with path := some f }.setAside p none) rfl rfl hplain
    fun q _ => h.no_owner hsp (fun _ hf => hf.elim) q

theorem unlink_inv (h : Inv S) (hp : S.pidAlive p = true) (hown : (S.procs p).pc.owning = true)
    (io : Bool) : Inv ((S.unlink io).setPc p .idle) := by
  exact h.vacated (S.unlink io) rfl rfl ⟨rfl, fun _ _ _ h => by cases h⟩
    fun q hqp hq => hqp (h.unique hq ⟨hp, hown⟩)

theorem write_inv (h : Inv S) (hown : (S.procs p).pc.owning = true) {ino : Nat}
    {info : LineLockInfo} :
    Inv ({ S with
      path := fill ino info S.path
      aside := fun q => fill ino info (S.aside q) }.setPc p (.coordinate info)) := by
  have hs : StepOf S ({ S with
      path := fill ino info S.path
      aside := fun q => fill ino info (S.aside q) }.setPc p (.coordinate info)) p :=
    stepOf_setPc _ (.coordinate info) rfl (fun _ _ => rfl) fun _ _ _ h => by cases h
  exact h.kept hs (fill_owner ino info S.path) fun _ => hown

theorem check_inv (h : Inv S) {attempts : Nat} {info existing : LineLockInfo} {now : Rat}
    (hc : S.pidAlive existing.pid = true →
      now - existing.heartbeatAt ≤ HEARTBEAT_STALE_PID_ALIVE_SEC) (hst : S.isStale existing now) :
    Inv (S.setPc p (.rename attempts info (some existing))) := by
  have hdead : S.pidAlive existing.pid = false := by
    rw [isStale, Bool.or_eq_true, Bool.not_eq_true', decide_eq_true_eq] at hst
    rcases hst with hst | hlate
    · exact hst
    · cases ha : S.pidAlive existing.pid with
      | false => rfl
      | true => exact absurd (hc ha) (not_le.mpr hlate)
  refine h.kept (stepOf_setPc S (.rename attempts info (some existing)) rfl (fun _ _ => rfl)
    fun _ _ o ho => ?_) rfl fun ho => ?_
  · cases ho
    exact hdead
  · rw [setPc_pc] at ho
    cases ho

theorem mainStep_inv (h : Inv S) (hp : S.pidAlive p = true) {now : Rat} {io : Bool}
    (hc : Undisturbed S (.main p now io)) : Inv (mainStep S p now io) := by
  have hplain : ∀ pc : Pc, pc.Plain → Inv (S.setPc p pc) := fun pc => h.plain S rfl rfl rfl
  have hdrop : ∀ pc : Pc, pc.Plain → Inv ((if io then S.setAside p none else S).setPc p pc) := by
    intro pc hpc
    split
    · exact h.plain (S.setAside p none) rfl rfl rfl hpc
    · exact hplain pc hpc
  change (S.procs p).pc.Undisturbed S now at hc
  cases hpc : (S.procs p).pc with
  | create attempts info =>
    simp only [mainStep, hpc]
    split
    · rename_i hpath
      exact create_inv h hpath
    · exact hplain _ ⟨rfl, fun _ _ _ h => by cases h⟩
  | read attempts info =>
    simp only [mainStep, hpc]
    exact hplain _ ⟨rfl, fun _ _ _ h => by cases h⟩
  | check attempts info existing =>
    cases existing with
    | none =>
      simp only [mainStep, hpc]
      exact hplain _ ⟨rfl, fun _ _ _ h => by cases h⟩
    | some existing =>
      rw [hpc] at hc
      simp only [mainStep, hpc]
      split
      · rename_i hst
        exact check_inv h hc hst
      · exact hplain _ ⟨rfl, fun _ _ _ h => by cases h⟩
  | rename attempts info observed =>
    rw [hpc] at hc
    simp only [mainStep, hpc]
    split
    · split
      · exact hplain _ (plain_retry _ _)
      · rename_i f _
        exact rename_inv h hp hpc hc f
    · exact hplain _ ⟨rfl, fun _ _ _ h => by cases h⟩
  | blocked attempts info observed =>
    simp only [mainStep, hpc]
    exact hplain _ (plain_recovered _ _ _)
  | reread attempts info observed =>
    simp only [mainStep, hpc]
    split
    · exact hplain _ ⟨rfl, fun _ _ _ h => by cases h⟩
    · exact hplain _ ⟨rfl, fun _ _ _ h => by cases h⟩
  | dropStale attempts info =>
    simp only [mainStep, hpc]
    exact hdrop _ (plain_retry _ _)
  | probe attempts info renamed observed =>
    simp only [mainStep, hpc]
    split
    · exact hplain _ ⟨rfl, fun _ _ _ h => by cases h⟩
    · exact hplain _ ⟨rfl, fun _ _ _ h => by cases h⟩
  | putBack attempts info renamed observed =>
    rw [hpc] at hc
    simp only [mainStep, hpc]
    split
    · rename_i f _
      exact putBack_inv h hc f
    · exact hplain _ ⟨rfl, fun _ _ _ h => by cases h⟩
  | dropAside attempts info renamed observed =>
    simp only [mainStep, hpc]
    exact hdrop _ ⟨rfl, fun _ _ _ h => by cases h⟩
  | answer attempts info renamed observed =>
    simp only [mainStep, hpc]
    exact hplain _ (plain_recovered _ _ _)
  | lastRead info =>
    simp only [mainStep, hpc]
    exact hplain _ ⟨rfl, fun _ _ _ h => by cases h⟩
  | write ino info =>
    simp only [mainStep, hpc]
    exact write_inv h (by rw [hpc]; rfl)
  | releasing info =>
    simp only [mainStep, hpc]
    exact unlink_inv h hp (by rw [hpc]; rfl) io
  | _ =>
    simp only [mainStep, hpc]
    exact h

theorem coordinateStep_inv (h : Inv S) (hp : S.pidAlive p = true) (outcome : Coordination)
    (io : Bool) : Inv (coordinateStep S p outcome io) := by
  unfold coordinateStep
  split
  · rename_i info hpc
    have hown : (S.procs p).pc.owning = true := by
      rw [hpc]
      rfl
    cases outcome with
    | reserved =>
      have hs : StepOf S ((S.setBeats p ((S.procs p).beats ++ [⟨info, .waiting, false⟩])).setPc p
          (.holding info)) p :=
        stepOf_setPc _ (.holding info) rfl (fun q hq => by simp [setBeats, hq]) fun _ _ _ h => by cases h
      exact h.kept hs rfl fun _ => hown
    | conflict => exact unlink_inv h hp hown io
    | error => exact h.plain S rfl rfl rfl ⟨rfl, fun _ _ _ h => by cases h⟩
  · exact h

theorem stepOf_setBeats (h : Inv S) (hp : S.pidAlive p = true) (T : Machine)
    (halive : T.alive = S.alive) (hprocs : T.procs = S.procs) (beats : List Beat) :
    StepOf S (T.setBeats p beats) p := by
  have hpc : ∀ q, ((T.setBeats p beats).procs q).pc = (S.procs q).pc := by
    intro q
    simp only [setBeats, hprocs]
    by_cases hq : q = p
    · subst hq
      rw [Function.update_self]
    · rw [Function.update_of_ne hq]
  exact ⟨halive, fun q _ => hpc q, fun attempts info o ho =>
    h.judged p attempts info o ((hpc p).symm.trans ho) hp⟩

theorem beatStep_inv (h : Inv S) (hp : S.pidAlive p = true) {k : Nat} {now : Rat} {io : Bool}
    (hc : Undisturbed S (.beat p k now io)) : Inv (beatStep S p k now io) := by
  have hbeats : ∀ (T : Machine) (beats : List Beat), T.alive = S.alive → T.procs = S.procs →
      T.path = S.path → Inv (T.setBeats p beats) := by
    intro T beats halive hprocs hpath
    have hs := stepOf_setBeats h hp T halive hprocs beats
    refine h.kept hs (congrArg (Option.map File.owner) hpath) fun ho => ?_
    simpa [setBeats, hprocs] using ho
  unfold beatStep
  split
  · exact h
  · rename_i b hb
    split
    · split
      · exact hbeats S _ rfl rfl rfl
      · exact hbeats S _ rfl rfl rfl
    · split
      · exact hbeats _ _ rfl rfl rfl
      · exact hbeats S _ rfl rfl rfl
    · rename_i hwrote
      split
      · rename_i t ht
        have hs := stepOf_setBeats h hp { S with path := some t, tmp := none } rfl rfl
          ((S.procs p).beats.set k { b with phase := .waiting })
        refine h.of_step hs fun q hq => ⟨t, rfl, ?_⟩
        have hq' : S.Owns q := by
          by_cases hqp : q = p
          · subst hqp
            exact ⟨hp, by simpa [setBeats] using hq.2⟩
          · exact (hs.owns hqp).mp hq
        obtain ⟨f, hf, rfl⟩ := h.file q hq'
        exact (hc b hb hwrote t ht f hf hq').symm
      · exact hbeats S _ rfl rfl rfl

theorem acquireStep_inv (h : Inv S) (ticketId hostname : String) (inherited : Bool) (now : Rat) :
    Inv (acquireStep S p ticketId hostname inherited now) := by
  have hplain : ∀ pc : Pc, pc.Plain → Inv (S.setPc p pc) := fun pc => h.plain S rfl rfl rfl
  have hstart : Inv (startAcquire S p ticketId hostname inherited now) := by
    unfold startAcquire
    split
    · exact hplain _ ⟨rfl, fun _ _ _ h => by cases h⟩
    · exact hplain _ ⟨rfl, fun _ _ _ h => by cases h⟩
  unfold acquireStep
  split
  · exact hstart
  · exact hstart
  · exact h

theorem releaseStep_inv (h : Inv S) : Inv (releaseStep S p) := by
  unfold releaseStep
  split
  · exact h.plain S rfl rfl rfl ⟨rfl, fun _ _ _ h => by cases h⟩
  · rename_i info hpc
    have hs : StepOf S ((S.setBeats p ((S.procs p).beats.map fun b =>
        { b with stop := true })).setPc p (.releasing info)) p :=
      stepOf_setPc _ (.releasing info) rfl (fun q hq => by simp [setBeats, hq]) fun _ _ _ h => by cases h
    refine h.kept hs rfl fun _ => ?_
    rw [hpc]
    rfl
  · exact h

theorem die_inv (h : Inv S) : Inv (step S (.die p)) := by
  have halive : ∀ q, (step S (.die p)).pidAlive q = true → S.pidAlive q = true := by
    intro q hq
    simp only [step, pidAlive, Bool.and_eq_true, decide_eq_true_eq] at hq ⊢
    refine ⟨hq.1, ?_⟩
    by_cases hqp : q = p
    · rw [hqp, Function.update_self] at hq
      cases hq.2
    · rw [Function.update_of_ne hqp] at hq
      exact hq.2
  refine ⟨fun q hq => h.file q ⟨halive q hq.1, hq.2⟩, fun q attempts info o hq ha => ?_⟩
  have hdead := h.judged q attempts info o hq (halive q ha)
  refine Bool.eq_false_iff.mpr fun ho => ?_
  rw [halive _ ho] at hdead
  cases hdead

theorem step_inv (h : Inv S) (e : Event) (hc : Undisturbed S e) : Inv (step S e) := by
  cases e with
  | acquire p ticketId hostname inherited now =>
    simp only [step]
    split
    · exact acquireStep_inv h ticketId hostname inherited now
    · exact h
  | main p now io =>
    simp only [step]
    split
    · rename_i hp
      exact mainStep_inv h hp hc
    · exact h
  | coordinate p outcome io =>
    simp only [step]
    split
    · rename_i hp
      exact coordinateStep_inv h hp outcome io
    · exact h
  | beat p k now io =>
    simp only [step]
    split
    · rename_i hp
      exact beatStep_inv h hp hc
    · exact h
  | release p =>
    simp only [step]
    split
    · exact releaseStep_inv h
    · exact h
  | die p => exact die_inv h

end

/-- No launch is under way. Whatever files there are may be left over from dead processes. -/
def Quiet (S : Machine) : Prop := ∀ p, (S.procs p).pc = .idle

theorem Quiet.inv {S : Machine} (h : Quiet S) : Inv S where
  file p hp := by
    have := hp.2
    rw [h p] at this
    cases this
  judged p attempts info o hp := by
    rw [h p] at hp
    cases hp

theorem lock_exclusive {S : Machine} (h : Quiet S) {events : List Event}
    (hc : ∀ mv ∈ Runs.moves step S events, Undisturbed mv.pre mv.act) (p q : Int)
    (hp : (Runs.run step S events).Holds p) (hq : (Runs.run step S events).Holds q) : p = q :=
  (Runs.run_invariant_of (I := Inv) (C := Undisturbed) (fun _ e hI he => step_inv hI e he) h.inv
    hc).unique hp.owns hq.owns

/-! Launches 1 and 2 on one machine. -/

def idleMachine : Machine where
  path := none
  tmp := none
  aside := fun _ => none
  nextIno := 0
  alive := fun _ => true
  procs := fun _ => ⟨.idle, []⟩

theorem idleMachine_quiet : Quiet idleMachine := fun _ => rfl

def mains (p : Int) (now : Rat) (n : Nat) : List Event := List.replicate n (.main p now true)

def infoOf (p : Int) (ticketId : String) (now : Rat) : LineLockInfo := ⟨p, ticketId, "desktop", now, now⟩

/-- The holder sends a heartbeat and dies; the second launch recovers its lock. -/
def recovery : List Event :=
  .acquire 1 "USR-1" "desktop" false 0 :: mains 1 0 2 ++
    [.coordinate 1 .reserved true, .beat 1 0 15 true, .beat 1 0 15 true, .beat 1 0 15 true, .die 1] ++
    .acquire 2 "USR-2" "desktop" false 20 :: mains 2 20 8 ++ [.coordinate 2 .reserved true]

theorem lock_exclusive_recovery :
    (Runs.run step idleMachine recovery).Holds 2 ∧
      ∀ q, (Runs.run step idleMachine recovery).Holds q → q = 2 := by
  have hp : (Runs.run step idleMachine recovery).Holds 2 :=
    ⟨by decide +kernel, infoOf 2 "USR-2" 20, .inl (by decide +kernel)⟩
  exact ⟨hp, fun q hq => lock_exclusive idleMachine_quiet (by decide +kernel) q 2 hq hp⟩

/-- Launch 2 finds the lock that launch 1 has just created still empty and takes it for an orphan. -/
def emptyLock : List Event :=
  .acquire 1 "USR-1" "desktop" false 0 :: mains 1 0 1 ++
    .acquire 2 "USR-2" "desktop" false 0 :: mains 2 0 8 ++ [.coordinate 2 .reserved true] ++
    mains 1 0 1 ++ [.coordinate 1 .reserved true]

theorem two_holders :
    Quiet idleMachine ∧ (Runs.run step idleMachine emptyLock).Holds 1 ∧
      (Runs.run step idleMachine emptyLock).Holds 2 :=
  ⟨idleMachine_quiet, ⟨by decide +kernel, infoOf 1 "USR-1" 0, .inl (by decide +kernel)⟩,
    ⟨by decide +kernel, infoOf 2 "USR-2" 0, .inl (by decide +kernel)⟩⟩

end Line
end DarkFactory
