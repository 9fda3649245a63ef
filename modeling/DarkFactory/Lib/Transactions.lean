import Mathlib.Data.Fintype.Basic
import DarkFactory.Lib.Runs

/-!
# DarkFactory.Lib.Transactions

Calls on a shared database, as the sequences of their SQL statements. A `SELECT` outside a
transaction reads what is committed. The first `INSERT` or `UPDATE` of a call opens its transaction
and takes the write lock; the end of the call commits, an exception rolls back.

* `Prog` — a call: its statements, each depending on what the ones before it read.
* `run` — the call alone; `atomic` is what it commits.
* `System` — the committed database, the open transaction, and the calls under way.
* `Current` — at the first write of a call, its `SELECT`s so far would return the same again.
* `serial_step` — under `Current` every commit is the call alone on the committed
  database, so what the calls preserve one at a time holds in every interleaving.
* `current_of_solo` — calls one after the other satisfy `Current`.
-/

namespace DarkFactory

inductive Prog (σ ε α : Type) where
  | ret (result : Except ε α)
  | select (next : σ → Prog σ ε α)
  | write (f : σ → Except ε σ) (next : Prog σ ε α)

namespace Prog

section

variable {σ ε α β : Type}

protected def bind : Prog σ ε α → (α → Prog σ ε β) → Prog σ ε β
  | .ret (.ok a), k => k a
  | .ret (.error e), _ => .ret (.error e)
  | .select next, k => .select fun s => (next s).bind k
  | .write f next, k => .write f (next.bind k)

instance : Monad (Prog σ ε) where
  pure a := .ret (.ok a)
  bind := Prog.bind

def query (q : σ → α) : Prog σ ε α := .select fun s => .ret (.ok (q s))

def tryWrite (f : σ → Except ε σ) : Prog σ ε Unit := .write f (.ret (.ok ()))

def update (f : σ → σ) : Prog σ ε Unit := tryWrite fun s => .ok (f s)

def raise (e : ε) : Prog σ ε α := .ret (.error e)

/-! ## A call alone -/

def run : Prog σ ε α → σ → Except ε α × σ
  | .ret r, s => (r, s)
  | .select next, s => (next s).run s
  | .write f next, s =>
    match f s with
    | .ok s' => next.run s'
    | .error e => (.error e, s)

def atomic (p : Prog σ ε α) (s : σ) : σ :=
  match p.run s with
  | (.ok _, s') => s'
  | (.error _, _) => s

@[simp] theorem run_pure (a : α) (s : σ) : (pure a : Prog σ ε α).run s = (.ok a, s) := rfl

@[simp] theorem run_raise (e : ε) (s : σ) : (raise e : Prog σ ε α).run s = (.error e, s) := rfl

@[simp] theorem run_query (q : σ → α) (s : σ) : (query q : Prog σ ε α).run s = (.ok (q s), s) := rfl

@[simp] theorem run_update (f : σ → σ) (s : σ) : (update f : Prog σ ε Unit).run s = (.ok (), f s) :=
  rfl

@[simp] theorem run_tryWrite (f : σ → Except ε σ) (s : σ) :
    (tryWrite f).run s = match f s with
      | .ok s' => (.ok (), s')
      | .error e => (.error e, s) := by
  cases h : f s <;> simp [tryWrite, run, h]

@[simp] theorem run_bind (p : Prog σ ε α) (k : α → Prog σ ε β) (s : σ) :
    (p >>= k).run s = match p.run s with
      | (.ok a, s') => (k a).run s'
      | (.error e, s') => (.error e, s') := by
  show (p.bind k).run s = _
  induction p generalizing s with
  | ret r =>
    cases r with
    | ok a => rfl
    | error e => rfl
  | select next ih => exact ih s s
  | write f next ih =>
    simp only [Prog.bind, run]
    cases f s with
    | ok s' => exact ih s'
    | error e => rfl

def ReadsOnly (p : Prog σ ε α) : Prop := ∀ s, (p.run s).2 = s

namespace ReadsOnly

theorem pure (a : α) : ReadsOnly (pure a : Prog σ ε α) := fun _ => rfl

theorem raise (e : ε) : ReadsOnly (raise e : Prog σ ε α) := fun _ => rfl

theorem query (q : σ → α) : ReadsOnly (query q : Prog σ ε α) := fun _ => rfl

theorem bind {p : Prog σ ε α} {k : α → Prog σ ε β} (hp : ReadsOnly p)
    (hk : ∀ a, ReadsOnly (k a)) : ReadsOnly (p >>= k) := by
  intro s
  have hs := hp s
  rw [run_bind]
  split
  · rename_i a s' h
    rw [h] at hs
    cases hs
    exact hk a _
  · rename_i e s' h
    rw [h] at hs
    exact hs

end ReadsOnly

theorem bind_ok {p : Prog σ ε α} {k : α → Prog σ ε β} {s s'' : σ} {b : β} :
    (p >>= k).run s = (.ok b, s'') ↔ ∃ a s', p.run s = (.ok a, s') ∧ (k a).run s' = (.ok b, s'') := by
  rw [run_bind]
  split
  · rename_i a s' h
    simp [h]
  · rename_i e s' h
    simp [h]

theorem atomic_eq_of_ok {p : Prog σ ε α} {s s' : σ} {a : α} (h : p.run s = (.ok a, s')) : p.atomic s = s' := by
  rw [atomic, h]

/-- The call after its `SELECT`s up to the first write. -/
def reads : Prog σ ε α → σ → Prog σ ε α
  | .select next, s => (next s).reads s
  | p, _ => p

@[simp] theorem run_reads (p : Prog σ ε α) (s : σ) : (p.reads s).run s = p.run s := by
  induction p with
  | ret r => rfl
  | select next ih => exact ih s
  | write f next _ => rfl

end

end Prog

/-! ## Interleavings -/

namespace Transactions

structure Session (σ ε α : Type) where
  start : Prog σ ε α
  rest : Prog σ ε α

structure System (ι σ ε α : Type) where
  committed : σ
  /-- The process that holds the write lock, with its uncommitted database. -/
  writer : Option (ι × σ)
  sessions : ι → Option (Session σ ε α)

inductive Event (ι σ ε α : Type) where
  | call (i : ι) (p : Prog σ ε α)
  | next (i : ι)
  /-- The wait for the write lock times out. -/
  | busy (i : ι)

section

variable {ι σ ε α : Type} [DecidableEq ι]

namespace System

def start (s : σ) : System ι σ ε α := ⟨s, none, fun _ => none⟩

/-- The database process `i` reads: its own in its transaction, else the committed one. -/
def view (S : System ι σ ε α) (i : ι) : σ :=
  match S.writer with
  | some (j, s) => if j = i then s else S.committed
  | none => S.committed

def inTransaction (S : System ι σ ε α) (i : ι) : Bool :=
  match S.writer with
  | some (j, _) => decide (j = i)
  | none => false

def resume (S : System ι σ ε α) (i : ι) (x : Session σ ε α) (p : Prog σ ε α) : System ι σ ε α :=
  { S with sessions := Function.update S.sessions i (some { x with rest := p }) }

theorem view_of_writer {S : System ι σ ε α} {i : ι} {s : σ} (h : S.writer = some (i, s)) : S.view i = s := by
  simp [view, h]

theorem view_of_out {S : System ι σ ε α} {i : ι} (h : S.inTransaction i = false) : S.view i = S.committed := by
  unfold view inTransaction at *
  split
  · rename_i j s hw
    rw [hw, decide_eq_false_iff_not] at h
    exact if_neg h
  · rfl

theorem inTransaction_iff {S : System ι σ ε α} {i : ι} :
    S.inTransaction i = true ↔ ∃ s, S.writer = some (i, s) := by
  unfold inTransaction
  split
  · rename_i j s hw
    rw [hw, decide_eq_true_eq]
    constructor
    · rintro rfl
      exact ⟨s, rfl⟩
    · rintro ⟨t, ht⟩
      cases ht
      rfl
  · rename_i hw
    simp [hw]

/-- The call of `i` ends and gives up its transaction, if it has one. -/
def finish (S : System ι σ ε α) (i : ι) (committed : σ) : System ι σ ε α where
  committed := committed
  writer := if S.inTransaction i then none else S.writer
  sessions := Function.update S.sessions i none

end System

/-- The next statement of process `i`; a write waits for the lock. -/
def advance (S : System ι σ ε α) (i : ι) (x : Session σ ε α) : System ι σ ε α :=
  match x.rest with
  | .ret (.ok _) => S.finish i (S.view i)
  | .ret (.error _) => S.finish i S.committed
  | .select next => S.resume i x (next (S.view i))
  | .write f next =>
    if S.writer.isNone || S.inTransaction i then
      match f (S.view i) with
      | .ok s => { S.resume i x next with writer := some (i, s) }
      | .error _ => S.finish i S.committed
    else S

def step (S : System ι σ ε α) : Event ι σ ε α → System ι σ ε α
  | .call i p =>
    match S.sessions i with
    | none => { S with sessions := Function.update S.sessions i (some ⟨p, p⟩) }
    | some _ => S
  | .next i =>
    match S.sessions i with
    | none => S
    | some x => advance S i x
  | .busy i => if S.writer.isNone || S.inTransaction i then S else S.finish i S.committed

/-- The step is not the first write of a call whose `SELECT`s would return something else now. -/
def Current (S : System ι σ ε α) : Event ι σ ε α → Prop
  | .next i => ∀ x f next, S.sessions i = some x → x.rest = .write f next → S.writer = none →
    x.start.reads S.committed = x.rest
  | _ => True

/-- The call, if it begins, is one of `Ok`. -/
def Calls (Ok : Prog σ ε α → Prop) : Event ι σ ε α → Prop
  | .call _ p => Ok p
  | _ => True

/-! ## Serial commits -/

/-- The invariant holds of the committed database, and the open transaction is on the way to what its
call alone does to it. -/
structure Serial (Ok : Prog σ ε α → Prop) (I : σ → Prop) (S : System ι σ ε α) : Prop where
  inv : I S.committed
  ok : ∀ i x, S.sessions i = some x → Ok x.start
  writing : ∀ i s, S.writer = some (i, s) → ∃ x, S.sessions i = some x ∧ x.rest.run s = x.start.run S.committed

variable {Ok : Prog σ ε α → Prop} {I : σ → Prop} {S : System ι σ ε α}

omit [DecidableEq ι] in
theorem serial_start {s : σ} (h : I s) : Serial Ok I (System.start s : System ι σ ε α) where
  inv := h
  ok _ _ h := by cases h
  writing _ _ h := by cases h

theorem Serial.resume (h : Serial Ok I S) {i : ι} {x : Session σ ε α} (hx : S.sessions i = some x)
    (p : Prog σ ε α)
    (hp : ∀ s, S.writer = some (i, s) → p.run s = x.rest.run s) : Serial Ok I (S.resume i x p) where
  inv := h.inv
  ok j y hy := by
    by_cases hj : j = i
    · subst hj
      simp only [System.resume, Function.update_self, Option.some.injEq] at hy
      rw [← hy]
      exact h.ok j x hx
    · simp only [System.resume, Function.update_of_ne hj] at hy
      exact h.ok j y hy
  writing j s hw := by
    obtain ⟨y, hy, hrun⟩ := h.writing j s hw
    by_cases hj : j = i
    · subst hj
      rw [hx, Option.some.injEq] at hy
      subst hy
      refine ⟨{ x with rest := p }, by simp [System.resume], ?_⟩
      rw [hp s hw]
      exact hrun
    · exact ⟨y, by simpa [System.resume, Function.update_of_ne hj] using hy, hrun⟩

theorem Serial.finish (h : Serial Ok I S) {i : ι} {s : σ} (hI : I s)
    (hs : S.inTransaction i = false → s = S.committed) : Serial Ok I (S.finish i s) where
  inv := hI
  ok j y hy := by
    by_cases hj : j = i
    · subst hj
      simp [System.finish] at hy
    · simp only [System.finish, Function.update_of_ne hj] at hy
      exact h.ok j y hy
  writing j t hw := by
    cases hin : S.inTransaction i with
    | true => simp [System.finish, hin] at hw
    | false =>
      simp only [System.finish, hin, Bool.false_eq_true, if_false] at hw
      have hj : j ≠ i := by
        rintro rfl
        simp [System.inTransaction, hw] at hin
      obtain ⟨y, hy, hrun⟩ := h.writing j t hw
      refine ⟨y, by simpa [System.finish, Function.update_of_ne hj] using hy, ?_⟩
      show _ = y.start.run s
      rw [hs hin]
      exact hrun

/-- A first write under `Current`, or a later one, is the next statement of the call alone. -/
theorem Serial.run_write (h : Serial Ok I S) {i : ι} {x : Session σ ε α}
    (hx : S.sessions i = some x) {f : σ → Except ε σ} {next : Prog σ ε α}
    (hrest : x.rest = .write f next) (hlock : (S.writer.isNone || S.inTransaction i) = true)
    (hc : Current S (.next i)) : x.rest.run (S.view i) = x.start.run S.committed := by
  cases hw : S.writer with
  | none =>
    have hview : S.view i = S.committed := by rw [System.view, hw]
    rw [hview, ← hc x f next hx hrest hw, Prog.run_reads]
  | some p =>
    rw [hw, Option.isNone_some, Bool.false_or, System.inTransaction_iff] at hlock
    obtain ⟨s, hs⟩ := hlock
    obtain ⟨y, hy, hrun⟩ := h.writing i s hs
    rw [hx, Option.some.injEq] at hy
    subst hy
    rw [System.view_of_writer hs]
    exact hrun

theorem Serial.advance (h : Serial Ok I S) (hI : ∀ p s, Ok p → I s → I (p.atomic s)) {i : ι}
    {x : Session σ ε α} (hx : S.sessions i = some x) (hc : Current S (.next i)) :
    Serial Ok I (advance S i x) := by
  unfold Transactions.advance
  split
  · rename_i a hrest
    cases hin : S.inTransaction i with
    | false =>
      rw [System.view_of_out hin]
      exact h.finish h.inv fun _ => rfl
    | true =>
      obtain ⟨s, hs⟩ := System.inTransaction_iff.mp hin
      obtain ⟨y, hy, hrun⟩ := h.writing i s hs
      rw [hx, Option.some.injEq] at hy
      subst hy
      rw [hrest] at hrun
      have hatomic : x.start.atomic S.committed = s := Prog.atomic_eq_of_ok hrun.symm
      rw [System.view_of_writer hs, ← hatomic]
      exact h.finish (hI _ _ (h.ok i x hx) h.inv) fun hout => by rw [hin] at hout; cases hout
  · exact h.finish h.inv fun _ => rfl
  · rename_i next hrest
    refine h.resume hx _ fun s hs => ?_
    rw [System.view_of_writer hs, hrest]
    rfl
  · rename_i f next hrest
    split
    · rename_i hlock
      have hrun := h.run_write hx hrest hlock hc
      split
      · rename_i s hf
        have hsess : (S.resume i x next).sessions i = some { x with rest := next } := by
          simp [System.resume]
        refine ⟨h.inv, fun j y hy => ?_, fun j t ht => ?_⟩
        · by_cases hj : j = i
          · subst hj
            rw [hsess, Option.some.injEq] at hy
            rw [← hy]
            exact h.ok j x hx
          · exact h.ok j y (by simpa [System.resume, Function.update_of_ne hj] using hy)
        · simp only [Option.some.injEq, Prod.mk.injEq] at ht
          obtain ⟨rfl, rfl⟩ := ht
          refine ⟨_, hsess, ?_⟩
          rw [hrest, Prog.run, hf] at hrun
          exact hrun
      · exact h.finish h.inv fun _ => rfl
    · exact h

/-- A step under `Current` keeps the commits serial. -/
theorem serial_step (hI : ∀ p s, Ok p → I s → I (p.atomic s)) (e : Event ι σ ε α)
    (h : Serial Ok I S) (hc : Current S e) (ho : Calls Ok e) : Serial Ok I (step S e) := by
  cases e with
  | call i p =>
    simp only [step]
    split
    · rename_i hnone
      refine ⟨h.inv, fun j y hy => ?_, fun j s hw => ?_⟩
      · by_cases hj : j = i
        · subst hj
          simp only [Function.update_self, Option.some.injEq] at hy
          rw [← hy]
          exact ho
        · exact h.ok j y (by simpa [Function.update_of_ne hj] using hy)
      · obtain ⟨y, hy, hrun⟩ := h.writing j s hw
        have hj : j ≠ i := by
          rintro rfl
          rw [hnone] at hy
          cases hy
        exact ⟨y, by simpa [Function.update_of_ne hj] using hy, hrun⟩
    · exact h
  | next i =>
    simp only [step]
    split
    · exact h
    · rename_i x hx
      exact h.advance hI hx hc
  | busy i =>
    simp only [step]
    split
    · exact h
    · exact h.finish h.inv fun _ => rfl

theorem Serial.committed (h : Serial Ok I S) {e : Event ι σ ε α}
    (hne : (step S e).committed ≠ S.committed) :
    ∃ p a, Ok p ∧ p.run S.committed = (.ok a, (step S e).committed) := by
  cases e with
  | call i p =>
    simp only [step] at hne
    split at hne
    · exact absurd rfl hne
    · exact absurd rfl hne
  | busy i =>
    simp only [step] at hne
    split at hne
    · exact absurd rfl hne
    · exact absurd rfl hne
  | next i =>
    simp only [step] at hne ⊢
    split at hne
    · exact absurd rfl hne
    · rename_i x hx
      unfold Transactions.advance at hne ⊢
      split at hne
      · rename_i a hrest
        change S.view i ≠ S.committed at hne
        cases hin : S.inTransaction i with
        | false => exact absurd (System.view_of_out hin) hne
        | true =>
          obtain ⟨s, hs⟩ := System.inTransaction_iff.mp hin
          obtain ⟨y, hy, hrun⟩ := h.writing i s hs
          rw [hx, Option.some.injEq] at hy
          subst hy
          refine ⟨x.start, a, h.ok i x hx, ?_⟩
          rw [hrest] at hrun
          rw [← hrun]
          show (_, s) = (_, S.view i)
          rw [System.view_of_writer hs]
      · exact absurd rfl hne
      · exact absurd rfl hne
      · split at hne
        · split at hne
          · exact absurd rfl hne
          · exact absurd rfl hne
        · exact absurd rfl hne

/-! ## One call at a time -/

def Solo (S : System ι σ ε α) : Event ι σ ε α → Prop
  | .call i _ => ∀ j, j ≠ i → (S.sessions j).isNone
  | .next i => ∀ j, j ≠ i → (S.sessions j).isNone
  | .busy i => ∀ j, j ≠ i → (S.sessions j).isNone

instance [Fintype ι] (e : Event ι σ ε α) : Decidable (Solo S e) :=
  match e with
  | .call i _ => inferInstanceAs (Decidable (∀ j, j ≠ i → (S.sessions j).isNone))
  | .next i => inferInstanceAs (Decidable (∀ j, j ≠ i → (S.sessions j).isNone))
  | .busy i => inferInstanceAs (Decidable (∀ j, j ≠ i → (S.sessions j).isNone))

def Fresh (S : System ι σ ε α) : Prop :=
  ∀ i x, S.sessions i = some x → S.writer = none → x.start.reads S.committed = x.rest.reads S.committed

omit [DecidableEq ι] in
theorem Fresh.current (h : Fresh S) (e : Event ι σ ε α) : Current S e := by
  cases e with
  | call i p => trivial
  | next i =>
    intro x f next hx hrest hw
    rw [h i x hx hw, hrest]
    rfl
  | busy i => trivial

/-- Only the call of `i` can have read anything. -/
theorem Fresh.of_update {i : ι} {y : Option (Session σ ε α)} (hsolo : ∀ j, j ≠ i → S.sessions j = none)
    {T : System ι σ ε α} (hT : T.sessions = Function.update S.sessions i y)
    (hy : ∀ x, y = some x → T.writer = none → x.start.reads T.committed = x.rest.reads T.committed) : Fresh T := by
  intro j x hx hw
  rw [hT] at hx
  by_cases hj : j = i
  · subst hj
    rw [Function.update_self] at hx
    exact hy x hx hw
  · rw [Function.update_of_ne hj, hsolo j hj] at hx
    cases hx

theorem fresh_step (h : Fresh S) (e : Event ι σ ε α) (hsolo : Solo S e) : Fresh (step S e) := by
  have hnone : ∀ i, (∀ j, j ≠ i → (S.sessions j).isNone) → ∀ j, j ≠ i → S.sessions j = none :=
    fun i hi j hj => Option.isNone_iff_eq_none.mp (hi j hj)
  have hfinish : ∀ i s, (∀ j, j ≠ i → S.sessions j = none) → Fresh (S.finish i s) :=
    fun i s hi => Fresh.of_update hi rfl fun x hx => by cases hx
  cases e with
  | call i p =>
    simp only [step]
    split
    · refine Fresh.of_update (hnone i hsolo) rfl fun x hx _ => ?_
      cases hx
      rfl
    · exact h
  | next i =>
    have hi := hnone i hsolo
    simp only [step]
    split
    · exact h
    · rename_i x hx
      unfold advance
      split
      · exact hfinish i _ hi
      · exact hfinish i _ hi
      · rename_i next hrest
        refine Fresh.of_update hi rfl fun y hy hw => ?_
        cases hy
        change S.writer = none at hw
        have hview : S.view i = S.committed := by rw [System.view, hw]
        show x.start.reads S.committed = (next (S.view i)).reads S.committed
        rw [h i x hx hw, hrest, hview]
        rfl
      · split
        · split
          · exact Fresh.of_update hi rfl fun y _ hw => by cases hw
          · exact hfinish i _ hi
        · exact h
  | busy i =>
    simp only [step]
    split
    · exact h
    · exact hfinish i _ (hnone i hsolo)

/-- Calls one after the other satisfy `Current`. -/
theorem current_of_solo {s : σ} {es : List (Event ι σ ε α)}
    (hsolo : ∀ m ∈ Runs.moves step (System.start s : System ι σ ε α) es, Solo m.pre m.act) :
    ∀ m ∈ Runs.moves step (System.start s : System ι σ ε α) es, Current m.pre m.act := by
  have hstart : Fresh (System.start s : System ι σ ε α) := fun _ _ hx => by cases hx
  have hfresh := Runs.moves_invariant_of (I := Fresh) (C := Solo)
    (fun _ e h hs => fresh_step h e hs) hstart hsolo
  exact fun m hm => (hfresh m hm).current m.act

end

end Transactions
end DarkFactory
