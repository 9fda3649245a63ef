import DarkFactory.Infra.Persistence
import DarkFactory.Lib.Runs

/-!
# DarkFactory.Infra.Convergence

Runs of any number of hosts that share a remote.

* `Remote` — its rows, and every write that it has taken.
* `World`, `step` — one transaction of one host after the other, in any order; a host that holds its lock does nothing else.
* `Careful` — deletions of empty records only, and no push over a row of the same or a later version.
* `converges_of_careful` — runs of careful steps converge.
-/

namespace DarkFactory
namespace Infra
namespace Persistence

section

variable {H Data : Type} [DecidableEq H]

structure Remote (Data : Type) where
  rows : Key → Option (Row Data)
  accepted : List (Key × Row Data)

def accepts (old : Option (Row Data)) (row : Row Data) : Bool :=
  match old with
  | none => true
  | some r => decide (r.version ≤ row.version)

def Remote.take (t : Remote Data) (r : OutboxRow Data) : Remote Data where
  rows := upsert t.rows r
  accepted := if accepts (t.rows r.key) r.row then t.accepted ++ [(r.key, r.row)] else t.accepted

structure World (H Data : Type) where
  hosts : H → Host Data
  remote : Remote Data

def World.start (H Data : Type) : World H Data := ⟨fun _ => .start, ⟨fun _ => none, []⟩⟩

inductive Op (H Data : Type) where
  | put (h : H) (key : Key) (data : Data) (version : Option Int)
  | delete (h : H) (key : Key)
  /-- the outbox is read, and the remote commits its rows -/
  | pushRemote (h : H)
  /-- the local commit of a push -/
  | pushMark (h : H)
  | pullRead (h : H) (scope : Scope)
  | pullApply (h : H)
  /-- the call of the host fails or its process ends, before its next commit -/
  | stop (h : H)

def Op.host : Op H Data → H
  | .put h .. | .delete h _ | .pushRemote h | .pushMark h | .pullRead h _ | .pullApply h | .stop h => h

def Op.IsSync : Op H Data → Prop
  | .put .. | .delete .. => False
  | _ => True

def World.set (w : World H Data) (h : H) (host : Host Data) : World H Data :=
  { w with hosts := Function.update w.hosts h host }

variable (empty : Data)

def step (w : World H Data) : Op H Data → World H Data
  | .put h key data version =>
    match (w.hosts h).pc with
    | .idle => w.set h (put (w.hosts h) key data version)
    | _ => w
  | .delete h key =>
    match (w.hosts h).pc with
    | .idle => w.set h (delete empty (w.hosts h) key)
    | _ => w
  | .pushRemote h =>
    match (w.hosts h).pc with
    | .idle =>
      if (w.hosts h).pending = [] then w
      else { w.set h { w.hosts h with pc := .marking ((w.hosts h).pending.map OutboxRow.id) } with
        remote := Runs.run Remote.take w.remote (w.hosts h).pending }
    | _ => w
  | .pushMark h =>
    match (w.hosts h).pc with
    | .marking ids => w.set h { w.hosts h with outbox := (w.hosts h).outbox.map (mark ids), pc := .idle }
    | _ => w
  | .pullRead h scope =>
    match (w.hosts h).pc with
    | .idle => w.set h { w.hosts h with
        pc := .applying fun key => if scope.covers key then w.remote.rows key else none }
    | _ => w
  | .pullApply h =>
    match (w.hosts h).pc with
    | .applying rows => w.set h { w.hosts h with
        records := fun key => pullRow ((w.hosts h).records key) (rows key), pc := .idle }
    | _ => w
  | .stop h => w.set h { w.hosts h with pc := .idle }

def written (w : World H Data) : Op H Data → Option (Key × Row Data)
  | .put h key data version =>
    match (w.hosts h).pc with
    | .idle => some (key, ⟨data, newVersion ((w.hosts h).records key) version, false⟩)
    | _ => none
  | .delete h key =>
    match (w.hosts h).pc with
    | .idle => ((w.hosts h).records key).map fun row => (key, ⟨empty, row.version + 1, true⟩)
    | _ => none
  | _ => none

def Pulls (w : World H Data) (window : List (Op H Data)) (h : H) (key : Key) : Prop :=
  ∃ before scope between after, window = before ++ .pullRead h scope :: (between ++ .pullApply h :: after) ∧
    scope.covers key = true ∧ ((Runs.run (step empty) w before).hosts h).pc = .idle ∧ ∀ op ∈ between, op.host ≠ h

/-- What the hosts and the remote promise for the runs whose steps meet a condition. -/
structure Converges (C : World H Data → Op H Data → Prop) : Prop where
  versions : ∀ ops, ∀ m ∈ Runs.moves (step empty) (World.start H Data) ops,
    (∀ m ∈ Runs.moves (step empty) (World.start H Data) ops, C m.pre m.act) →
    ∀ h key row, (m.pre.hosts h).records key = some row →
      ∃ row', (m.post.hosts h).records key = some row' ∧ row.version ≤ row'.version
  accounted : ∀ ops, (∀ m ∈ Runs.moves (step empty) (World.start H Data) ops, C m.pre m.act) →
    let w := Runs.run (step empty) (World.start H Data) ops
    ∀ m ∈ Runs.moves (step empty) (World.start H Data) ops, ∀ key row, written empty m.pre m.act = some (key, row) →
      (∃ r ∈ (w.hosts m.act.host).pending, r.key = key ∧ r.row = row) ∨
        ∃ row', w.remote.rows key = some row' ∧ (row' = row ∨ row.version < row'.version)
  synced : ∀ ops, (∀ m ∈ Runs.moves (step empty) (World.start H Data) ops, C m.pre m.act) →
    let w := Runs.run (step empty) (World.start H Data) ops
    ∀ h, ∀ r ∈ (w.hosts h).outbox, r.synced = true → (r.key, r.row) ∈ w.remote.accepted
  single : ∀ ops, (∀ m ∈ Runs.moves (step empty) (World.start H Data) ops, C m.pre m.act) →
    let w := Runs.run (step empty) (World.start H Data) ops
    ∀ key row row', (key, row) ∈ w.remote.accepted → (key, row') ∈ w.remote.accepted →
      row.version = row'.version → row = row'
  converge : ∀ ops window, (∀ m ∈ Runs.moves (step empty) (World.start H Data) (ops ++ window), C m.pre m.act) →
    let w := Runs.run (step empty) (World.start H Data) ops
    (∀ h, (w.hosts h).pending = []) → (∀ op ∈ window, op.IsSync) →
    ∀ key, (∀ h, Pulls empty w window h key) → let w' := Runs.run (step empty) w window
      ∀ h, (w'.hosts h).records key = w'.remote.rows key

/-- The remote has no row of this version or a later one, unless it has taken this very write. -/
def RowFresh (t : Remote Data) (r : OutboxRow Data) : Prop :=
  ∀ old, t.rows r.key = some old →
    old.version < r.row.version ∨ old = r.row ∨ (r.row.version < old.version ∧ (r.key, r.row) ∈ t.accepted)

def Careful (w : World H Data) : Op H Data → Prop
  | .delete h key => (w.hosts h).pc = .idle → ∀ row, (w.hosts h).records key = some row → row.data = empty
  | .pushRemote h => (w.hosts h).pc = .idle →
    ∀ m ∈ Runs.moves Remote.take w.remote (w.hosts h).pending, RowFresh m.pre m.act
  | _ => True

end

section

variable {Data : Type}

/-- The rows are the newest of the writes taken, and equal versions have equal data. -/
structure Consistent (t : Remote Data) : Prop where
  taken : ∀ key row, t.rows key = some row → (key, row) ∈ t.accepted
  newest : ∀ key row, (key, row) ∈ t.accepted → ∃ row', t.rows key = some row' ∧ row.version ≤ row'.version
  single : ∀ key row row', (key, row) ∈ t.accepted → (key, row') ∈ t.accepted → row.version = row'.version → row = row'

theorem Consistent.start : Consistent (⟨fun _ => none, []⟩ : Remote Data) :=
  ⟨nofun, fun _ _ h => (List.not_mem_nil h).elim, fun _ _ _ h => (List.not_mem_nil h).elim⟩

theorem upsertRow_le {old row : Row Data} (h : old.version ≤ row.version) :
    upsertRow (some old) row = some row ∧ accepts (some old) row = true :=
  ⟨if_pos h, decide_eq_true h⟩

theorem upsertRow_lt {old row : Row Data} (h : row.version < old.version) :
    upsertRow (some old) row = some old ∧ accepts (some old) row = false :=
  ⟨if_neg (Int.not_le.mpr h), decide_eq_false (Int.not_le.mpr h)⟩

theorem Consistent.accept {t : Remote Data} (h : Consistent t) {r : OutboxRow Data}
    (habove : ∀ row, (r.key, row) ∈ t.accepted →
      row.version ≤ r.row.version ∧ (row.version = r.row.version → row = r.row)) :
    Consistent ⟨Function.update t.rows r.key (some r.row), t.accepted ++ [(r.key, r.row)]⟩ := by
  have hcases : ∀ {key row}, (key, row) ∈ t.accepted ++ [(r.key, r.row)] →
      (key, row) ∈ t.accepted ∨ (key = r.key ∧ row = r.row) := by
    intro key row hmem
    rcases List.mem_append.mp hmem with hmem | hmem
    · exact Or.inl hmem
    · exact Or.inr (Prod.mk.inj (List.mem_singleton.mp hmem))
  constructor
  · intro key row hrow
    by_cases hkey : key = r.key
    · subst hkey
      dsimp only at hrow
      rw [Function.update_self] at hrow
      cases hrow
      exact List.mem_append_right _ List.mem_cons_self
    · dsimp only at hrow
      rw [Function.update_of_ne hkey] at hrow
      exact List.mem_append_left _ (h.taken key row hrow)
  · intro key row hmem
    by_cases hkey : key = r.key
    · subst hkey
      refine ⟨r.row, Function.update_self .., ?_⟩
      rcases hcases hmem with hmem | ⟨-, rfl⟩
      · exact (habove row hmem).1
      · exact Int.le_refl _
    · rcases hcases hmem with hmem | ⟨hsame, -⟩
      · obtain ⟨row', hrow', hle⟩ := h.newest key row hmem
        exact ⟨row', (Function.update_of_ne hkey ..).trans hrow', hle⟩
      · exact absurd hsame hkey
  · intro key row row' hmem hmem' hversion
    rcases hcases hmem with hmem | ⟨rfl, rfl⟩
    · rcases hcases hmem' with hmem' | ⟨rfl, rfl⟩
      · exact h.single key row row' hmem hmem' hversion
      · exact (habove row hmem).2 hversion
    · rcases hcases hmem' with hmem' | ⟨-, rfl⟩
      · exact ((habove row' hmem').2 hversion.symm).symm
      · rfl

theorem Consistent.take {t : Remote Data} (h : Consistent t) {r : OutboxRow Data} (hfresh : RowFresh t r) :
    Consistent (t.take r) ∧ (r.key, r.row) ∈ (t.take r).accepted ∧ ∀ e ∈ t.accepted, e ∈ (t.take r).accepted := by
  have htaken : ∀ {old : Option (Row Data)}, t.rows r.key = old →
      upsertRow old r.row = some r.row ∧ accepts old r.row = true → t.take r = ⟨Function.update t.rows r.key (some r.row), t.accepted ++ [(r.key, r.row)]⟩ := by
    rintro old hold ⟨hupsert, haccepts⟩
    unfold Remote.take upsert
    rw [hold, hupsert, haccepts]
    rfl
  have hdone : Consistent (⟨Function.update t.rows r.key (some r.row), t.accepted ++ [(r.key, r.row)]⟩ : Remote Data) →
      t.take r = ⟨Function.update t.rows r.key (some r.row), t.accepted ++ [(r.key, r.row)]⟩ →
      Consistent (t.take r) ∧ (r.key, r.row) ∈ (t.take r).accepted ∧ ∀ e ∈ t.accepted, e ∈ (t.take r).accepted := by
    intro hconsistent heq
    rw [heq]
    exact ⟨hconsistent, List.mem_append_right _ List.mem_cons_self, fun e he => List.mem_append_left _ he⟩
  cases hold : t.rows r.key with
  | none =>
    refine hdone (h.accept fun row hrow => ?_) (htaken hold ⟨rfl, rfl⟩)
    obtain ⟨row', hrow', -⟩ := h.newest _ _ hrow
    rw [hold] at hrow'
    cases hrow'
  | some old =>
    have hnewest : ∀ row, (r.key, row) ∈ t.accepted → row.version ≤ old.version := by
      intro row hrow
      obtain ⟨row', hrow', hle⟩ := h.newest _ _ hrow
      cases hold.symm.trans hrow'
      exact hle
    rcases hfresh old hold with hless | rfl | ⟨hless, hmem⟩
    · refine hdone (h.accept fun row hrow => ?_) (htaken hold (upsertRow_le (Int.le_of_lt hless)))
      have hle := hnewest row hrow
      exact ⟨by omega, fun heq => by omega⟩
    · refine hdone (h.accept fun row hrow => ?_) (htaken hold (upsertRow_le (Int.le_refl _)))
      exact ⟨hnewest row hrow, h.single _ _ _ hrow (h.taken _ _ hold)⟩
    · have hsame : t.take r = t := by
        obtain ⟨hupsert, haccepts⟩ := upsertRow_lt hless
        unfold Remote.take upsert
        rw [hold, hupsert, haccepts, ← hold, Function.update_eq_self]
        rfl
      rw [hsame]
      exact ⟨h, hmem, fun e he => he⟩

theorem Consistent.push (rows : List (OutboxRow Data)) {t : Remote Data} (h : Consistent t)
    (hfresh : ∀ m ∈ Runs.moves Remote.take t rows, RowFresh m.pre m.act) :
    Consistent (Runs.run Remote.take t rows) ∧
      (∀ r ∈ rows, (r.key, r.row) ∈ (Runs.run Remote.take t rows).accepted) ∧
      ∀ e ∈ t.accepted, e ∈ (Runs.run Remote.take t rows).accepted := by
  induction rows generalizing t with
  | nil => exact ⟨h, List.forall_mem_nil _, fun e he => he⟩
  | cons r rows ih =>
    rw [Runs.moves, List.forall_mem_cons] at hfresh
    obtain ⟨hconsistent, hmem, hkept⟩ := h.take hfresh.1
    obtain ⟨hall, hrows, hmore⟩ := ih hconsistent hfresh.2
    rw [Runs.run_cons]
    refine ⟨hall, ?_, fun e he => hmore e (hkept e he)⟩
    rw [List.forall_mem_cons]
    exact ⟨hmore _ hmem, hrows⟩

end

section

variable {H Data : Type} [DecidableEq H] {empty : Data}

structure Sound (accepted : List (Key × Row Data)) (host : Host Data) : Prop where
  known : ∀ key row, host.records key = some row →
    (∃ r ∈ host.outbox, r.key = key ∧ r.row = row) ∨ (key, row) ∈ accepted
  synced : ∀ r ∈ host.outbox, r.synced = true → (r.key, r.row) ∈ accepted
  marking : ∀ ids, host.pc = .marking ids → ∀ r ∈ host.outbox, r.id ∈ ids → (r.key, r.row) ∈ accepted
  applying : ∀ rows, host.pc = .applying rows → ∀ key row, rows key = some row → (key, row) ∈ accepted

structure Inv (w : World H Data) : Prop where
  remote : Consistent w.remote
  hosts : ∀ h, Sound w.remote.accepted (w.hosts h)

variable {accepted : List (Key × Row Data)} {host : Host Data} {w : World H Data} {row : Row Data}
variable {remote : Remote Data}

theorem Sound.more {accepted' : List (Key × Row Data)} (h : Sound accepted host)
    (hmore : ∀ e ∈ accepted, e ∈ accepted') : Sound accepted' host :=
  ⟨fun key row hrow => (h.known key row hrow).imp_right (hmore _), fun r hr hs => hmore _ (h.synced r hr hs),
    fun ids hpc r hr hid => hmore _ (h.marking ids hpc r hr hid),
    fun rows hpc key row hrow => hmore _ (h.applying rows hpc key row hrow)⟩

omit [DecidableEq H] in
theorem Inv.start : Inv (World.start H Data) :=
  ⟨.start, fun _ => ⟨nofun, nofun, nofun, nofun⟩⟩

theorem Inv.set (hw : Inv w) {h : H} {host : Host Data} (hhost : Sound w.remote.accepted host) :
    Inv (w.set h host) := by
  refine ⟨hw.remote, fun h' => ?_⟩
  unfold World.set
  dsimp only
  by_cases hh : h' = h
  · subst hh
    rw [Function.update_self]
    exact hhost
  · rw [Function.update_of_ne hh]
    exact hw.hosts h'

theorem Sound.queue (h : Sound accepted host)
    (hpc : host.pc = .idle) (key : Key) (row : Row Data) : Sound accepted (host.queue key row) := by
  constructor
  · intro key' row' hrow
    unfold Host.queue at hrow ⊢
    dsimp only at hrow ⊢
    by_cases hkey : key' = key
    · subst hkey
      rw [Function.update_self] at hrow
      cases hrow
      exact Or.inl ⟨_, List.mem_append_right _ List.mem_cons_self, rfl, rfl⟩
    · rw [Function.update_of_ne hkey] at hrow
      rcases h.known key' row' hrow with ⟨r, hr, hsame⟩ | hmem
      · exact Or.inl ⟨r, List.mem_append_left _ hr, hsame⟩
      · exact Or.inr hmem
  · intro r hr hs
    rcases List.mem_append.mp hr with hr | hr
    · exact h.synced r hr hs
    · rw [List.mem_singleton] at hr
      subst hr
      cases hs
  · intro ids hpc'
    cases hpc.symm.trans hpc'
  · intro rows hpc'
    cases hpc.symm.trans hpc'

theorem delete_eq {key : Key} (hrow : host.records key = some row)
    (hempty : row.data = empty) : delete empty host key = host.queue key ⟨empty, row.version + 1, true⟩ := by
  unfold delete Host.queue
  rw [hrow, ← hempty]

theorem pullRow_cases (l r : Option (Row Data)) {row : Row Data} (h : pullRow l r = some row) :
    l = some row ∨ r = some row := by
  cases r with
  | none => exact Or.inl h
  | some r =>
    cases l with
    | none => exact Or.inr h
    | some l =>
      unfold pullRow at h
      dsimp only at h
      split at h
      · exact Or.inr h
      · exact Or.inl h

theorem mark_row (ids : List Nat) (r : OutboxRow Data) : (mark ids r).key = r.key ∧ (mark ids r).row = r.row := by
  unfold mark
  split <;> exact ⟨rfl, rfl⟩

theorem Sound.mark (h : Sound accepted host) {ids : List Nat} (hpc : host.pc = .marking ids) :
    Sound accepted { host with outbox := host.outbox.map (Persistence.mark ids), pc := .idle } := by
  refine ⟨fun key row hrow => ?_, fun r hr hs => ?_, nofun, nofun⟩
  · rcases h.known key row hrow with ⟨r, hr, hkey, hsame⟩ | hmem
    · obtain ⟨hkey', hrow'⟩ := mark_row ids r
      exact Or.inl ⟨_, List.mem_map_of_mem hr, hkey'.trans hkey, hrow'.trans hsame⟩
    · exact Or.inr hmem
  · obtain ⟨r', hr', rfl⟩ := List.mem_map.mp hr
    obtain ⟨hkey, hrow⟩ := mark_row ids r'
    rw [hkey, hrow]
    by_cases hid : r'.id ∈ ids
    · exact h.marking ids hpc r' hr' hid
    · unfold Persistence.mark at hs
      rw [if_neg hid] at hs
      exact h.synced r' hr' hs

theorem Sound.idle (h : Sound accepted host) :
    Sound accepted { host with pc := .idle } := ⟨h.known, h.synced, nofun, nofun⟩

theorem Sound.apply (h : Sound accepted host) {rows : Key → Option (Row Data)} (hpc : host.pc = .applying rows) :
    Sound accepted { host with records := fun key => pullRow (host.records key) (rows key), pc := .idle } := by
  refine ⟨fun key row hrow => ?_, h.synced, nofun, nofun⟩
  rcases pullRow_cases _ _ hrow with hlocal | hremote
  · exact h.known key row hlocal
  · exact Or.inr (h.applying rows hpc key row hremote)

theorem inv_step (h : Inv w) (op : Op H Data) (hcareful : Careful empty w op) : Inv (step empty w op) := by
  cases op with
  | put host key data version =>
    unfold step
    dsimp only
    split
    · rename_i hpc
      exact h.set ((h.hosts host).queue hpc _ _)
    · exact h
  | delete host key =>
    unfold step
    dsimp only
    split
    · rename_i hpc
      refine h.set ?_
      cases hrow : (w.hosts host).records key with
      | none =>
        unfold delete
        rw [hrow]
        exact h.hosts host
      | some row =>
        rw [delete_eq hrow (hcareful hpc row hrow)]
        exact (h.hosts host).queue hpc _ _
    · exact h
  | pushRemote host =>
    unfold step
    dsimp only
    split
    · rename_i hpc
      split
      · exact h
      · obtain ⟨hremote, hrows, hmore⟩ := h.remote.push _ (hcareful hpc)
        have hsound := (h.hosts host).more hmore
        have hmarking : Sound (Runs.run Remote.take w.remote (w.hosts host).pending).accepted
            { w.hosts host with pc := .marking ((w.hosts host).pending.map OutboxRow.id) } := by
          refine ⟨hsound.known, hsound.synced, fun ids hids r hr _ => ?_, nofun⟩
          by_cases hs : r.synced = true
          · exact hsound.synced r hr hs
          · rw [Bool.not_eq_true] at hs
            exact hrows r (List.mem_filter.mpr ⟨hr, by rw [hs]; rfl⟩)
        have hall : Inv (⟨w.hosts, Runs.run Remote.take w.remote (w.hosts host).pending⟩ : World H Data) :=
          ⟨hremote, fun h' => (h.hosts h').more hmore⟩
        exact hall.set hmarking
    · exact h
  | pushMark host =>
    unfold step
    dsimp only
    split
    · rename_i ids hpc
      exact h.set ((h.hosts host).mark hpc)
    · exact h
  | pullRead host scope =>
    unfold step
    dsimp only
    split
    · have hhost := h.hosts host
      refine h.set ⟨hhost.known, hhost.synced, nofun, fun rows hrows key row hrow => ?_⟩
      cases hrows
      dsimp only at hrow
      split at hrow
      · exact h.remote.taken key row hrow
      · cases hrow
    · exact h
  | pullApply host =>
    unfold step
    dsimp only
    split
    · rename_i rows hpc
      exact h.set ((h.hosts host).apply hpc)
    · exact h
  | stop host => exact h.set (h.hosts host).idle

theorem inv_run (ops : List (Op H Data))
    (hcareful : ∀ m ∈ Runs.moves (step empty) (World.start H Data) ops, Careful empty m.pre m.act) :
    Inv (Runs.run (step empty) (World.start H Data) ops) :=
  Runs.run_invariant_of (I := Inv) (C := Careful empty) (fun _ op h hc => inv_step h op hc) .start hcareful

theorem step_other (w : World H Data) {op : Op H Data} {h : H} (hne : op.host ≠ h) :
    (step empty w op).hosts h = w.hosts h := by
  have hset : ∀ (host : Host Data) (h' : H), h' ≠ h → (w.set h' host).hosts h = w.hosts h :=
    fun host h' hne' => Function.update_of_ne (fun heq => hne' heq.symm) _ _
  cases op with
  | stop h' => exact hset _ h' hne
  | pushRemote h' =>
    unfold step
    dsimp only
    split
    · split
      · rfl
      · exact hset _ h' hne
    · rfl
  | _ =>
    unfold step
    dsimp only
    split
    · exact hset _ _ hne
    · rfl

theorem set_self (w : World H Data) (h : H) (host : Host Data) : (w.set h host).hosts h = host := Function.update_self ..

structure Grows (host host' : Host Data) : Prop where
  records : ∀ key row, host.records key = some row → ∃ row', host'.records key = some row' ∧ row.version ≤ row'.version
  outbox : ∀ r ∈ host.outbox, ∃ r' ∈ host'.outbox, r'.key = r.key ∧ r'.row = r.row

theorem Grows.refl (host : Host Data) : Grows host host :=
  ⟨fun _ row hrow => ⟨row, hrow, Int.le_refl _⟩, fun r hr => ⟨r, hr, rfl, rfl⟩⟩

theorem newVersion_gt {version : Option Int} : row.version < newVersion (some row) version := by
  unfold newVersion
  dsimp only
  split
  · split <;> omega
  · omega

theorem grows_write {host' : Host Data} {key : Key} {r : OutboxRow Data}
    (hrecords : host'.records = Function.update host.records key (some row)) (houtbox : host'.outbox = host.outbox ++ [r])
    (hversion : ∀ old, host.records key = some old → old.version ≤ row.version) : Grows host host' := by
  constructor
  · intro key' old hold
    rw [hrecords]
    by_cases hkey : key' = key
    · subst hkey
      exact ⟨row, Function.update_self .., hversion old hold⟩
    · exact ⟨old, (Function.update_of_ne hkey ..).trans hold, Int.le_refl _⟩
  · intro r' hr'
    rw [houtbox]
    exact ⟨r', List.mem_append_left _ hr', rfl, rfl⟩

theorem grows_delete (host : Host Data) (key : Key) : Grows host (delete empty host key) := by
  unfold delete
  split
  · exact .refl host
  · rename_i row hrow
    refine grows_write rfl rfl fun old hold => ?_
    cases hrow.symm.trans hold
    dsimp only
    omega

theorem grows_apply (host : Host Data) (rows : Key → Option (Row Data)) (pc : Pc Data) :
    Grows host { host with records := fun key => pullRow (host.records key) (rows key), pc } := by
  refine ⟨fun key row hrow => ?_, fun r hr => ⟨r, hr, rfl, rfl⟩⟩
  dsimp only
  rw [hrow]
  cases rows key with
  | none => exact ⟨row, rfl, Int.le_refl _⟩
  | some r =>
    unfold pullRow
    dsimp only
    split
    · rename_i hless
      exact ⟨r, rfl, Int.le_of_lt hless⟩
    · exact ⟨row, rfl, Int.le_refl _⟩

variable (empty) in
theorem grows_step (w : World H Data) (op : Op H Data) (h : H) : Grows (w.hosts h) ((step empty w op).hosts h) := by
  by_cases hh : op.host = h
  · subst hh
    cases op with
    | put host key data version =>
      unfold step Op.host
      dsimp only
      split
      · rw [set_self]
        refine grows_write rfl rfl fun old hold => ?_
        dsimp only
        rw [hold]
        exact Int.le_of_lt newVersion_gt
      · exact .refl _
    | delete host key =>
      unfold step Op.host
      dsimp only
      split
      · rw [set_self]
        exact grows_delete _ key
      · exact .refl _
    | pushRemote host =>
      unfold step Op.host
      dsimp only
      split
      · split
        · exact .refl _
        · change Grows _ ((w.set host _).hosts host)
          rw [set_self]
          exact ⟨(Grows.refl (w.hosts host)).records, (Grows.refl (w.hosts host)).outbox⟩
      · exact .refl _
    | pushMark host =>
      unfold step Op.host
      dsimp only
      split
      · rw [set_self]
        exact ⟨(Grows.refl (w.hosts host)).records, fun r hr => ⟨_, List.mem_map_of_mem hr, mark_row _ r⟩⟩
      · exact .refl _
    | pullRead host scope =>
      unfold step Op.host
      dsimp only
      split
      · rw [set_self]
        exact ⟨(Grows.refl (w.hosts host)).records, (Grows.refl (w.hosts host)).outbox⟩
      · exact .refl _
    | pullApply host =>
      unfold step Op.host
      dsimp only
      split
      · rw [set_self]
        exact grows_apply _ _ _
      · exact .refl _
    | stop host =>
      unfold step Op.host
      dsimp only
      rw [set_self]
      exact ⟨(Grows.refl (w.hosts host)).records, (Grows.refl (w.hosts host)).outbox⟩
  · rw [step_other w hh]
    exact .refl _

theorem written_kept {op : Op H Data} {key : Key}
    (hwritten : written empty w op = some (key, row)) (ops : List (Op H Data)) :
    ∃ r ∈ ((Runs.run (step empty) (step empty w op) ops).hosts op.host).outbox, r.key = key ∧ r.row = row := by
  refine Runs.run_invariant
    (I := fun w : World H Data => ∃ r ∈ (w.hosts op.host).outbox, r.key = key ∧ r.row = row) ?_ ?_ ops
  · rintro w op' ⟨r, hr, hkey, hrow⟩
    obtain ⟨r', hr', hkey', hrow'⟩ := (grows_step empty w op' op.host).outbox r hr
    exact ⟨r', hr', hkey'.trans hkey, hrow'.trans hrow⟩
  · unfold written at hwritten
    split at hwritten
    · split at hwritten
      · rename_i hpc
        cases hwritten
        unfold step Op.host
        dsimp only
        rw [hpc]
        dsimp only
        rw [set_self]
        exact ⟨_, List.mem_append_right _ List.mem_cons_self, rfl, rfl⟩
      · cases hwritten
    · split at hwritten
      · rename_i hpc
        obtain ⟨row', hrow', heq⟩ := Option.map_eq_some_iff.mp hwritten
        cases heq
        unfold step Op.host
        dsimp only
        rw [hpc]
        dsimp only
        rw [set_self]
        unfold delete
        rw [hrow']
        exact ⟨_, List.mem_append_right _ List.mem_cons_self, rfl, rfl⟩
      · cases hwritten
    · cases hwritten

def Quiet (w : World H Data) : Prop := ∀ h, (w.hosts h).pending = []

theorem pending_mark (h : host.pending = []) (ids : List Nat) (pc : Pc Data) :
    Host.pending { host with outbox := host.outbox.map (mark ids), pc } = [] := by
  unfold Host.pending at h ⊢
  rw [List.filter_eq_nil_iff] at h ⊢
  intro r hr
  obtain ⟨r', hr', rfl⟩ := List.mem_map.mp hr
  have hsynced := h r' hr'
  unfold mark
  split
  · exact Bool.false_ne_true
  · exact hsynced

variable (empty) in
theorem quiet_step (hquiet : Quiet w) {op : Op H Data} (hsync : op.IsSync) :
    (step empty w op).remote = w.remote ∧ Quiet (step empty w op) := by
  have hset : ∀ {host : Host Data} (h : H), host.pending = [] → Quiet (w.set h host) := by
    intro host h hpending h'
    by_cases hh : h' = h
    · subst hh
      rw [set_self]
      exact hpending
    · exact (congrArg Host.pending (Function.update_of_ne hh ..)).trans (hquiet h')
  cases op with
  | put host key data version => exact hsync.elim
  | delete host key => exact hsync.elim
  | pushRemote host =>
    unfold step
    dsimp only
    split
    · rw [if_pos (hquiet host)]
      exact ⟨rfl, hquiet⟩
    · exact ⟨rfl, hquiet⟩
  | pushMark host =>
    unfold step
    dsimp only
    split
    · exact ⟨rfl, hset host (pending_mark (hquiet host) _ _)⟩
    · exact ⟨rfl, hquiet⟩
  | pullRead host scope =>
    unfold step
    dsimp only
    split
    · exact ⟨rfl, hset host (hquiet host)⟩
    · exact ⟨rfl, hquiet⟩
  | pullApply host =>
    unfold step
    dsimp only
    split
    · exact ⟨rfl, hset host (hquiet host)⟩
    · exact ⟨rfl, hquiet⟩
  | stop host => exact ⟨rfl, hset host (hquiet host)⟩

omit [DecidableEq H] in
theorem Inv.taken (hinv : Inv w) (hquiet : Quiet w) {h : H} {key : Key} {row : Row Data}
    (hrow : (w.hosts h).records key = some row) : (key, row) ∈ w.remote.accepted := by
  rcases (hinv.hosts h).known key row hrow with ⟨r, hr, rfl, rfl⟩ | hmem
  · refine (hinv.hosts h).synced r hr ?_
    have hpending := hquiet h
    unfold Host.pending at hpending
    rw [List.filter_eq_nil_iff] at hpending
    have hnot := hpending r hr
    rw [Bool.not_eq_true', Bool.not_eq_false] at hnot
    exact hnot
  · exact hmem

omit [DecidableEq H] in
theorem pull_level (hinv : Inv w) (hquiet : Quiet w) (h : H) (key : Key) :
    pullRow ((w.hosts h).records key) (w.remote.rows key) = w.remote.rows key := by
  cases hlocal : (w.hosts h).records key with
  | none => cases w.remote.rows key <;> rfl
  | some l =>
    have htaken := hinv.taken hquiet hlocal
    obtain ⟨r, hr, hle⟩ := hinv.remote.newest key l htaken
    rw [hr]
    unfold pullRow
    dsimp only
    split
    · rfl
    · rename_i hnot
      have heq : l.version = r.version := by omega
      rw [hinv.remote.single key l r htaken (hinv.remote.taken key r hr) heq]

theorem level_step (hinv : Inv w) {op : Op H Data} (hsync : op.IsSync) (hquiet : Quiet w) {h : H}
    {key : Key} (hlevel : (w.hosts h).records key = w.remote.rows key) :
    ((step empty w op).hosts h).records key = (step empty w op).remote.rows key := by
  rw [(quiet_step empty hquiet hsync).1, ← hlevel]
  by_cases hh : op.host = h
  · subst hh
    cases op with
    | put host key' data version => exact hsync.elim
    | delete host key' => exact hsync.elim
    | pushRemote host =>
      unfold step Op.host
      dsimp only
      split
      · rw [if_pos (hquiet host)]
      · rfl
    | pullApply host =>
      unfold step Op.host
      dsimp only
      split
      · rename_i rows hpc
        rw [set_self]
        dsimp only
        cases hrow : rows key with
        | none => rfl
        | some r =>
          obtain ⟨r', hr', hle⟩ := hinv.remote.newest key r ((hinv.hosts host).applying rows hpc key r hrow)
          rw [Op.host] at hlevel
          rw [hlevel, hr']
          exact if_neg (Int.not_lt.mpr hle)
      · rfl
    | stop host =>
      unfold step Op.host
      dsimp only
      rw [set_self]
    | _ =>
      unfold step Op.host
      dsimp only
      split
      · rw [set_self]
      · rfl
  · rw [step_other w hh]

structure Settled (remote : Remote Data) (w : World H Data) : Prop where
  inv : Inv w
  quiet : Quiet w
  remote : w.remote = remote

variable (empty) in
theorem settled_step (h : Settled remote w) {op : Op H Data}
    (hsync : op.IsSync) : Settled remote (step empty w op) := by
  obtain ⟨hremote, hquiet⟩ := quiet_step empty h.quiet hsync
  refine ⟨inv_step h.inv op ?_, hquiet, hremote.trans h.remote⟩
  cases op with
  | put host key data version => exact hsync.elim
  | delete host key => exact hsync.elim
  | pushRemote host =>
    intro _
    rw [h.quiet host]
    exact List.forall_mem_nil _
  | _ => trivial

variable (empty) in
theorem settled_run (h : Settled remote w) {ops : List (Op H Data)}
    (hsync : ∀ op ∈ ops, op.IsSync) : Settled remote (Runs.run (step empty) w ops) := by
  induction ops generalizing w with
  | nil => exact h
  | cons op ops ih =>
    rw [List.forall_mem_cons] at hsync
    exact ih (settled_step empty h hsync.1) hsync.2

theorem level_run (h : Settled remote w) {ops : List (Op H Data)}
    (hsync : ∀ op ∈ ops, op.IsSync) {host : H} {key : Key}
    (hlevel : (w.hosts host).records key = w.remote.rows key) :
    ((Runs.run (step empty) w ops).hosts host).records key = (Runs.run (step empty) w ops).remote.rows key := by
  induction ops generalizing w with
  | nil => exact hlevel
  | cons op ops ih =>
    rw [List.forall_mem_cons] at hsync
    exact ih (settled_step empty h hsync.1) hsync.2 (level_step h.inv hsync.1 h.quiet hlevel)

variable (empty) in
theorem run_other {ops : List (Op H Data)} {h : H} (hne : ∀ op ∈ ops, op.host ≠ h) :
    (Runs.run (step empty) w ops).hosts h = w.hosts h := by
  induction ops generalizing w with
  | nil => rfl
  | cons op ops ih =>
    rw [List.forall_mem_cons] at hne
    rw [Runs.run_cons, ih hne.2, step_other w hne.1]

theorem pulled_level (h : Settled w.remote w) {window : List (Op H Data)}
    (hsync : ∀ op ∈ window, op.IsSync) {host : H} {key : Key} (hpulls : Pulls empty w window host key) :
    ((Runs.run (step empty) w window).hosts host).records key = (Runs.run (step empty) w window).remote.rows key := by
  obtain ⟨before, scope, between, after, rfl, hcovers, hidle, hothers⟩ := hpulls
  rw [List.forall_mem_append, List.forall_mem_cons, List.forall_mem_append, List.forall_mem_cons] at hsync
  obtain ⟨hsyncBefore, hsyncRead, hsyncBetween, hsyncApply, hsyncAfter⟩ := hsync
  rw [Runs.run_append, Runs.run_cons, Runs.run_append, Runs.run_cons]
  have hbefore := settled_run empty h hsyncBefore
  generalize Runs.run (step empty) w before = w₁ at hbefore hidle ⊢
  have hread := settled_step empty hbefore hsyncRead
  have hpc : ((step empty w₁ (.pullRead host scope)).hosts host).pc =
      .applying fun key => if scope.covers key then w₁.remote.rows key else none := by
    unfold step
    dsimp only
    rw [hidle]
    dsimp only
    rw [set_self]
  generalize step empty w₁ (.pullRead host scope) = w₂ at hread hpc ⊢
  have hbetween := settled_run empty hread hsyncBetween
  have hsame := run_other empty (w := w₂) hothers
  rw [← hsame] at hpc
  generalize Runs.run (step empty) w₂ between = w₃ at hbetween hpc ⊢
  refine level_run (settled_step empty hbetween hsyncApply) hsyncAfter ?_
  have happly : step empty w₃ (.pullApply host) = w₃.set host { w₃.hosts host with
      records := fun key' => pullRow ((w₃.hosts host).records key')
        (if scope.covers key' then w₁.remote.rows key' else none), pc := .idle } := by
    unfold step
    dsimp only
    rw [hpc]
  rw [happly, set_self]
  dsimp only
  rw [if_pos hcovers, hbefore.remote, ← hbetween.remote]
  exact pull_level hbetween.inv hbetween.quiet host key

def Newer (rows rows' : Key → Option (Row Data)) : Prop :=
  ∀ key row, rows key = some row → ∃ row', rows' key = some row' ∧ row.version ≤ row'.version

theorem Newer.trans {rows rows' rows'' : Key → Option (Row Data)} (h : Newer rows rows') (h' : Newer rows' rows'') :
    Newer rows rows'' := by
  intro key row hrow
  obtain ⟨row₁, hrow₁, hle⟩ := h key row hrow
  obtain ⟨row₂, hrow₂, hle'⟩ := h' key row₁ hrow₁
  exact ⟨row₂, hrow₂, Int.le_trans hle hle'⟩

theorem newer_take (t : Remote Data) (r : OutboxRow Data) : Newer t.rows (t.take r).rows := by
  intro key row hrow
  by_cases hkey : key = r.key
  · subst hkey
    simp only [Remote.take, upsert, Function.update_self, hrow]
    rcases Int.lt_or_le r.row.version row.version with hlt | hle
    · exact ⟨row, (upsertRow_lt hlt).1, Int.le_refl _⟩
    · exact ⟨r.row, (upsertRow_le hle).1, hle⟩
  · exact ⟨row, (Function.update_of_ne hkey ..).trans hrow, Int.le_refl _⟩

variable (empty) in
theorem newer_step (w : World H Data) (op : Op H Data) : Newer w.remote.rows (step empty w op).remote.rows := by
  have hsame : Newer w.remote.rows w.remote.rows := fun _ row hrow => ⟨row, hrow, Int.le_refl _⟩
  cases op with
  | pushRemote h =>
    unfold step
    dsimp only
    split
    · split
      · exact hsame
      · exact Runs.run_invariant (I := fun t : Remote Data => Newer w.remote.rows t.rows)
          (fun t r ht => ht.trans (newer_take t r)) hsame _
    · exact hsame
  | stop h => exact hsame
  | _ =>
    unfold step
    dsimp only
    split <;> exact hsame

/-- Whatever the hosts do, and in whatever order. -/
theorem versions_kept (w : World H Data) (ops : List (Op H Data)) :
    (∀ h, Grows (w.hosts h) ((Runs.run (step empty) w ops).hosts h)) ∧
      Newer w.remote.rows (Runs.run (step empty) w ops).remote.rows := by
  refine Runs.run_invariant (I := fun w' : World H Data => (∀ h, Grows (w.hosts h) (w'.hosts h)) ∧
    Newer w.remote.rows w'.remote.rows) ?_ ?_ ops
  · intro w' op ⟨hhosts, hremote⟩
    refine ⟨fun h => ?_, hremote.trans (newer_step empty w' op)⟩
    have hstep := grows_step empty w' op h
    refine ⟨Newer.trans (hhosts h).records hstep.records, fun r hr => ?_⟩
    obtain ⟨r₁, hr₁, hkey, hrow⟩ := (hhosts h).outbox r hr
    obtain ⟨r₂, hr₂, hkey', hrow'⟩ := hstep.outbox r₁ hr₁
    exact ⟨r₂, hr₂, hkey'.trans hkey, hrow'.trans hrow⟩
  · exact ⟨fun h => .refl _, fun _ row hrow => ⟨row, hrow, Int.le_refl _⟩⟩

theorem converges_of_careful (H : Type) [DecidableEq H] {Data : Type} (empty : Data) :
    Converges (H := H) empty (Careful empty) where
  versions ops m hm _ h key row hrow := by
    rw [Runs.post_of_mem hm]
    exact (grows_step empty m.pre m.act h).records key row hrow
  accounted ops hcareful m hm key row hwritten := by
    have hinv := inv_run ops hcareful
    obtain ⟨before, after, hops, hpre, -⟩ := Runs.mem_moves hm
    have hkept := written_kept hwritten after
    have hrun : Runs.run (step empty) (step empty m.pre m.act) after = Runs.run (step empty) (World.start H Data) ops := by
      rw [hops, Runs.run_append, hpre]
      rfl
    rw [hrun] at hkept
    obtain ⟨r, hr, hkey, hrow⟩ := hkept
    by_cases hs : r.synced = true
    · right
      have hmem := (hinv.hosts m.act.host).synced r hr hs
      rw [hkey, hrow] at hmem
      obtain ⟨row', hrow', hle⟩ := hinv.remote.newest key row hmem
      refine ⟨row', hrow', ?_⟩
      by_cases heq : row'.version = row.version
      · exact Or.inl (hinv.remote.single key row' row (hinv.remote.taken key row' hrow') hmem heq)
      · exact Or.inr (by omega)
    · left
      rw [Bool.not_eq_true] at hs
      exact ⟨r, List.mem_filter.mpr ⟨hr, by rw [hs]; rfl⟩, hkey, hrow⟩
  synced ops hcareful h r hr hs := ((inv_run ops hcareful).hosts h).synced r hr hs
  single ops hcareful key row row' := (inv_run ops hcareful).remote.single key row row'
  converge ops window hcareful hquiet hsync key hpulls h := by
    rw [Runs.moves_append, List.forall_mem_append] at hcareful
    exact pulled_level ⟨inv_run ops hcareful.1, hquiet, rfl⟩ hsync (hpulls h)

def someKey : Key := ⟨"darkfac", "demands", "T-1"⟩

/-- Two hosts put different data for one entity, one pushes after the other, and both pull. -/
theorem equal_versions_diverge : ¬ Converges (0 : Nat) fun (_ : World Bool Nat) _ => True := by
  intro h
  have hquiet : ∀ host, ((Runs.run (step 0) (World.start Bool Nat) [.put true someKey 1 none, .put false someKey 2 none,
      .pushRemote true, .pushMark true, .pushRemote false, .pushMark false]).hosts host).pending = [] := by
    intro host
    cases host <;> rfl
  have hequal := h.converge _ [.pullRead true ⟨"darkfac", none⟩, .pullApply true, .pullRead false ⟨"darkfac", none⟩,
    .pullApply false] (fun _ _ => trivial) hquiet (by simp [Op.IsSync]) someKey ?_ true
  · have hdata : some 1 = some 2 := congrArg (Option.map Row.data) hequal
    cases hdata
  · intro host
    cases host with
    | true => exact ⟨[], _, [], _, rfl, rfl, rfl, List.forall_mem_nil _⟩
    | false => exact ⟨[_, _], _, [], _, rfl, rfl, rfl, List.forall_mem_nil _⟩

end

end Persistence
end Infra
end DarkFactory
