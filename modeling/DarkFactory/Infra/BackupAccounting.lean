import DarkFactory.Infra.BackupService
import DarkFactory.Lib.Runs
import Mathlib.Logic.Equiv.List

/-!
# DarkFactory.Infra.BackupAccounting

Runs of the backup service over three tiers and one registry file.

* `names` — the copies that a record is about.
* `Ledger` — every copy is named by a record of the registry file, and a record names copies of its own id only.
* `Accounted` — what a call owes: every copy stays named, copies go only when their rule says so, due copies go, no
  record goes before its copies, and an unreadable registry loses nothing.
-/

namespace DarkFactory
namespace Infra
namespace BackupService

section

variable {D : Type}

inductive Call where
  /-- a new process constructs the service -/
  | construct
  | createBackup (p : Packaging) (target : BackupStorageTarget)
  | createThreeTierBackup (p : Packaging) (dump : Option Bytes) (encKey : String) (salt : Nat) (fault : Option Fault)
  | applyRetentionPolicy (projectId : String) (maxSnapshots maxAgeDays now : Int) (works : Key → Bool)
  | applyTieredRetentionPolicy (projectId : String) (r2MaxAgeDays onpremMaxAgeDays now : Int) (works : Key → Bool)

def step (T : Tools D) (s : Service D) : Call → Service D
  | .construct => construct s
  | .createBackup p target => (createBackup T s p target).2
  | .createThreeTierBackup p dump encKey salt fault => (createThreeTierBackup T s p dump encKey salt fault).2
  | .applyRetentionPolicy projectId maxSnapshots maxAgeDays now works =>
    (applyRetentionPolicy s projectId maxSnapshots maxAgeDays now works).2
  | .applyTieredRetentionPolicy projectId r2MaxAgeDays onpremMaxAgeDays now works =>
    (applyTieredRetentionPolicy s projectId r2MaxAgeDays onpremMaxAgeDays now works).2

def BackupSnapshot.names (r : BackupSnapshot D) (key : Key) : Prop :=
  key = r.storageLocation ∨ r.r2ObjectKey = some key ∨ r.onpremLocation = some key ∨
    (r.encrypted = true ∧ key = .encrypted r.snapshotId)

def entries (s : Service D) : List (BackupSnapshot D × Bool) := (s.registry.map Registry.snapshots).getD []

def drillEntries (s : Service D) : List (RestoreDrillResult × Bool) := (s.registry.map Registry.drills).getD []

structure Ledger (s : Service D) : Prop where
  accounted : ∀ key, (s.storage key).isSome → ∃ e ∈ entries s, e.1.names key
  own : ∀ e ∈ entries s, ∀ key, e.1.names key → key.id = e.1.snapshotId
  unique : ((entries s).map fun e => e.1.snapshotId).Nodup
  drawn : ∀ e ∈ entries s, e.1.snapshotId.draw < s.draws
  read : s.snapshots = (loaded s.registry).1 ∧ s.drills = (loaded s.registry).2

structure Whole (s : Service D) : Prop where
  snapshots : (entries s).map Prod.fst = s.snapshots
  drills : (drillEntries s).map Prod.fst = s.drills

def Registry.readable (registry : Registry D) : Bool :=
  registry.json && registry.snapshots.all (·.2) && registry.drills.all (·.2)

def LocalRule (s : Service D) (projectId : String) (maxSnapshots maxAgeDays now : Int) (r : BackupSnapshot D) : Prop :=
  r.createdAt < daysBefore now maxAgeDays ∨
    maxSnapshots ≤ ((ofProject s projectId).filter fun r' =>
      decide (r'.snapshotId ≠ r.snapshotId ∧ r.createdAt ≤ r'.createdAt)).length

def MayGo (s : Service D) : Call → Key → Prop
  | .applyRetentionPolicy projectId maxSnapshots maxAgeDays now _, key =>
    ∃ r ∈ ofProject s projectId, r.storageLocation = key ∧ LocalRule s projectId maxSnapshots maxAgeDays now r
  | .applyTieredRetentionPolicy projectId r2MaxAgeDays onpremMaxAgeDays now _, key =>
    ∃ r ∈ ofProject s projectId, (r.r2ObjectKey = some key ∧ r.createdAt < daysBefore now r2MaxAgeDays) ∨
      (r.onpremLocation = some key ∧ r.createdAt < daysBefore now onpremMaxAgeDays)
  | _, _ => False

def MustGo (s : Service D) : Call → Key → Prop
  | .applyTieredRetentionPolicy projectId r2MaxAgeDays onpremMaxAgeDays now works, key =>
    works key = true ∧ ∃ e ∈ entries s, e.1.projectId = projectId ∧
      ((e.1.r2ObjectKey = some key ∧ e.1.createdAt < daysBefore now r2MaxAgeDays) ∨
        (e.1.onpremLocation = some key ∧ e.1.createdAt < daysBefore now onpremMaxAgeDays))
  | _, _ => False

structure Accounted (m : Move (Service D) Call) : Prop where
  named : ∀ key, (m.post.storage key).isSome → ∃ e ∈ entries m.post, e.1.names key
  ruled : ∀ key, (m.pre.storage key).isSome → (m.post.storage key).isNone → MayGo m.pre m.act key
  due : ∀ key, MustGo m.pre m.act key → m.post.storage key = none
  recorded : ∀ r ∈ m.pre.snapshots, r ∉ m.post.snapshots → ∀ key, r.names key → m.post.storage key = none
  unread : ∀ registry, m.pre.registry = some registry → registry.readable = false →
    m.post.registry ≠ m.pre.registry → ((registry.snapshots.map Prod.fst).Sublist ((entries m.post).map Prod.fst) ∧
        (registry.drills.map Prod.fst).Sublist ((drillEntries m.post).map Prod.fst))

/-- A call that saves does so over a registry that was read whole; a three-tier backup that fails does so before its
archive; a snapshot that retention drops has no copy left but an archive that can be deleted; a due copy has a record
that was read. -/
def Careful (s : Service D) : Call → Prop
  | .construct => True
  | .createBackup p _ => p.source.isSome → p.archived = true → Whole s
  | .createThreeTierBackup p _ _ _ fault => p.source.isSome → p.archived = true → fault = none ∧ Whole s
  | .applyRetentionPolicy projectId maxSnapshots maxAgeDays now works =>
    Whole s ∧ ∀ r ∈ expired (ofProject s projectId) maxSnapshots (daysBefore now maxAgeDays), ∀ key, r.names key →
      (s.storage key).isSome → key = r.storageLocation ∧ works key = true
  | c@(.applyTieredRetentionPolicy _ _ _ _ _) => ∀ key, (s.storage key).isSome → MustGo s c key →
      ∀ e ∈ entries s, e.1.names key → e.1 ∈ s.snapshots

theorem takeWhile_sublist {α : Type} (p : α → Bool) (l : List α) : (l.takeWhile p).Sublist l :=
  (List.takeWhile_prefix p).sublist

theorem takeWhile_valid {α : Type} (l : List α) :
    ((l.map (·, true)).takeWhile (·.2)).map (·.1) = l ∧ (l.map (·, true)).all (·.2) = true := by
  induction l with
  | nil => exact ⟨rfl, rfl⟩
  | cons a l ih =>
    rw [List.map_cons, List.takeWhile_cons_of_pos rfl, List.map_cons, ih.1]
    exact ⟨rfl, ih.2⟩

variable {s t : Service D} {projectId : String}

theorem loaded_snapshots (hunique : ((entries s).map fun e => e.1.snapshotId).Nodup) :
    ∃ read : List (BackupSnapshot D × Bool), read.Sublist (entries s) ∧ (∀ e ∈ read, e.2 = true) ∧ (loaded s.registry).1 = read.map Prod.fst := by
  unfold loaded loadRegistry
  cases hregistry : s.registry with
  | none => exact ⟨[], List.nil_sublist _, List.forall_mem_nil _, rfl⟩
  | some registry =>
    dsimp only
    split
    · have hentries : entries s = registry.snapshots := by rw [entries, hregistry]; rfl
      rw [hentries] at hunique ⊢
      have hsub := takeWhile_sublist (fun e : BackupSnapshot D × Bool => e.2) registry.snapshots
      refine ⟨registry.snapshots.takeWhile (·.2), hsub, ?_, ?_⟩
      · intro e he
        exact List.mem_takeWhile_imp he
      · refine Lookup.foldl_put ?_
        rw [Lookup.Unique, List.nil_append, List.map_map]
        exact (hsub.map _).nodup hunique
    · exact ⟨[], List.nil_sublist _, List.forall_mem_nil _, rfl⟩

theorem Ledger.entry (h : Ledger s) {r : BackupSnapshot D} (hr : r ∈ s.snapshots) : (r, true) ∈ entries s := by
  obtain ⟨read, hsub, hvalid, hread⟩ := loaded_snapshots h.unique
  rw [h.read.1, hread] at hr
  obtain ⟨⟨r', valid⟩, he, rfl⟩ := List.mem_map.mp hr
  have hv : valid = true := hvalid _ he
  subst hv
  exact hsub.subset he

theorem Ledger.unique_snapshots (h : Ledger s) : Lookup.Unique BackupSnapshot.snapshotId s.snapshots := by
  obtain ⟨read, hsub, -, hread⟩ := loaded_snapshots h.unique
  rw [Lookup.Unique, h.read.1, hread, List.map_map]
  exact (hsub.map _).nodup h.unique

theorem Ledger.drills_sublist (h : Ledger s) : s.drills.Sublist ((drillEntries s).map Prod.fst) := by
  rw [h.read.2]
  unfold loaded loadRegistry drillEntries
  cases s.registry with
  | none => exact List.Sublist.refl _
  | some registry =>
    dsimp only
    split
    · dsimp only
      split
      · exact (takeWhile_sublist _ _).map _
      · exact List.nil_sublist _
    · exact List.nil_sublist _

theorem Ledger.snapshots_sublist (h : Ledger s) : s.snapshots.Sublist ((entries s).map Prod.fst) := by
  obtain ⟨read, hsub, -, hread⟩ := loaded_snapshots h.unique
  rw [h.read.1, hread]
  exact hsub.map _

theorem Whole.mem (h : Whole s) {e : BackupSnapshot D × Bool} (he : e ∈ entries s) : e.1 ∈ s.snapshots :=
  h.snapshots ▸ List.mem_map_of_mem he

theorem Ledger.whole (h : Ledger s)
    (hreadable : ∀ registry, s.registry = some registry → registry.readable = true) : Whole s := by
  cases hregistry : s.registry with
  | none =>
    constructor
    · rw [h.read.1, entries, hregistry]
      rfl
    · rw [h.read.2, drillEntries, hregistry]
      rfl
  | some registry =>
    have hread := hreadable registry hregistry
    unfold Registry.readable at hread
    rw [Bool.and_eq_true, Bool.and_eq_true] at hread
    obtain ⟨⟨hjson, hsnapshots⟩, hdrills⟩ := hread
    have hwhile : ∀ {α : Type} {l : List (α × Bool)}, l.all (·.2) = true → l.takeWhile (·.2) = l := by
      intro α l hall
      rw [List.takeWhile_eq_self_iff]
      exact List.all_eq_true.mp hall
    have hentries : entries s = registry.snapshots := by rw [entries, hregistry]; rfl
    have hunique := h.unique
    rw [hentries] at hunique
    have hloaded : loaded s.registry = (registry.snapshots.map Prod.fst, registry.drills.map Prod.fst) := by
      rw [hregistry]
      unfold loaded loadRegistry
      dsimp only
      rw [if_pos hjson, if_pos hsnapshots, hwhile hsnapshots, hwhile hdrills, Lookup.foldl_put]
      · rfl
      · rw [Lookup.Unique, List.nil_append, List.map_map]
        exact hunique
    constructor
    · rw [h.read.1, hloaded, hentries]
    · rw [h.read.2, hloaded, drillEntries, hregistry]
      rfl

theorem entries_save (s : Service D) : entries (saveRegistry s) = s.snapshots.map (·, true) := rfl

theorem drillEntries_save (s : Service D) : drillEntries (saveRegistry s) = s.drills.map (·, true) := rfl

theorem loaded_save (h : Lookup.Unique BackupSnapshot.snapshotId s.snapshots) :
    loaded (saveRegistry s).registry = (s.snapshots, s.drills) := by
  obtain ⟨hsnapshots, hall⟩ := takeWhile_valid s.snapshots
  obtain ⟨hdrills, -⟩ := takeWhile_valid s.drills
  unfold saveRegistry loaded loadRegistry
  dsimp only
  rw [if_pos rfl, if_pos hall, hsnapshots, hdrills, Lookup.foldl_put (by rwa [List.nil_append]), List.nil_append]

theorem ledger_save (hnamed : ∀ key, (s.storage key).isSome → ∃ r ∈ s.snapshots, r.names key)
    (hown : ∀ r ∈ s.snapshots, ∀ key, r.names key → key.id = r.snapshotId)
    (hunique : Lookup.Unique BackupSnapshot.snapshotId s.snapshots)
    (hdrawn : ∀ r ∈ s.snapshots, r.snapshotId.draw < s.draws) : Ledger (saveRegistry s) where
  accounted := by
    intro key hkey
    obtain ⟨r, hr, hnames⟩ := hnamed key hkey
    exact ⟨(r, true), List.mem_map_of_mem hr, hnames⟩
  own := by
    intro e he
    obtain ⟨r, hr, rfl⟩ := List.mem_map.mp he
    exact hown r hr
  unique := by
    rw [entries_save, List.map_map]
    exact hunique
  drawn := by
    intro e he
    obtain ⟨r, hr, rfl⟩ := List.mem_map.mp he
    exact hdrawn r hr
  read := by
    rw [loaded_save hunique]
    exact ⟨rfl, rfl⟩

theorem Whole.nothing (h : Ledger s) (hwhole : Whole s) {registry : Registry D}
    (hregistry : s.registry = some registry) (hbad : registry.readable = false) :
    registry.snapshots = [] ∧ registry.drills = [] := by
  have hsnapshots := hwhole.snapshots
  have hdrills := hwhole.drills
  have hunique := h.unique
  rw [h.read.1] at hsnapshots
  rw [h.read.2] at hdrills
  rw [entries, hregistry] at hsnapshots hunique
  rw [drillEntries, hregistry] at hdrills
  have hwhile : ∀ {α : Type} {l : List (α × Bool)}, l.map Prod.fst = (l.takeWhile (·.2)).map Prod.fst →
      l.all (·.2) = true := by
    intro α l heq
    have hlength := congrArg List.length heq
    rw [List.length_map, List.length_map] at hlength
    have hself := (List.takeWhile_prefix (p := fun e : α × Bool => e.2) (l := l)).eq_of_length hlength.symm
    rw [List.all_eq_true]
    exact List.takeWhile_eq_self_iff.mp hself
  unfold loaded loadRegistry at hsnapshots hdrills
  dsimp only [Option.map_some, Option.getD_some] at hsnapshots hdrills hunique
  cases hjson : registry.json with
  | false =>
    rw [hjson] at hsnapshots hdrills
    exact ⟨List.map_eq_nil_iff.mp hsnapshots, List.map_eq_nil_iff.mp hdrills⟩
  | true =>
    rw [hjson, if_pos rfl] at hsnapshots hdrills
    have hall : registry.snapshots.all (·.2) = true := by
      refine hwhile (hsnapshots.trans (Lookup.foldl_put ?_))
      rw [Lookup.Unique, List.nil_append, List.map_map]
      exact ((takeWhile_sublist _ _).map _).nodup hunique
    dsimp only at hdrills
    rw [if_pos hall] at hdrills
    unfold Registry.readable at hbad
    rw [hjson, hall, hwhile hdrills] at hbad
    cases hbad

theorem whole_of_save (h : Ledger s) (hdrills : t.drills = s.drills)
    (hkept : ∀ rows : List (BackupSnapshot D), rows.Sublist t.snapshots → (∀ r ∈ rows, ∃ e ∈ entries s, e.1 = r) →
      rows.Sublist s.snapshots)
    (hunread : ∀ registry, s.registry = some registry → registry.readable = false →
      (saveRegistry t).registry ≠ s.registry →
        ((registry.snapshots.map Prod.fst).Sublist ((entries (saveRegistry t)).map Prod.fst) ∧
          (registry.drills.map Prod.fst).Sublist ((drillEntries (saveRegistry t)).map Prod.fst))) : Whole s := by
  by_cases hreadable : ∀ registry, s.registry = some registry → registry.readable = true
  · exact h.whole hreadable
  · rw [not_forall] at hreadable
    obtain ⟨registry, hregistry⟩ := hreadable
    rw [Classical.not_imp, Bool.not_eq_true] at hregistry
    obtain ⟨hregistry, hbad⟩ := hregistry
    have hchanged : (saveRegistry t).registry ≠ s.registry := by
      intro heq
      rw [hregistry] at heq
      have hgood : registry.readable = true := by
        rw [← Option.some.inj heq]
        simp only [Registry.readable, (takeWhile_valid t.snapshots).2, (takeWhile_valid t.drills).2, Bool.and_self]
      rw [hbad] at hgood
      cases hgood
    obtain ⟨hsub, hsub'⟩ := hunread registry hregistry hbad hchanged
    have hentries : entries s = registry.snapshots := by rw [entries, hregistry]; rfl
    have hdrillEntries : drillEntries s = registry.drills := by rw [drillEntries, hregistry]; rfl
    rw [entries_save, List.map_map, ← hentries] at hsub
    rw [drillEntries_save, List.map_map, ← hdrillEntries, hdrills] at hsub'
    have hid : ∀ {α : Type} (l : List α), l.map (Prod.fst ∘ fun a => (a, true)) = l := fun l => List.map_id l
    rw [hid] at hsub hsub'
    constructor
    · refine (hkept _ hsub ?_).antisymm h.snapshots_sublist
      intro r hr
      obtain ⟨e, he, rfl⟩ := List.mem_map.mp hr
      exact ⟨e, he, rfl⟩
    · exact hsub'.antisymm h.drills_sublist

structure Registered (s : Service D) (r : BackupSnapshot D) (t : Service D) : Prop where
  snapshots : t.snapshots = s.snapshots ++ [r]
  drills : t.drills = s.drills
  draws : t.draws = s.draws + 1
  drawn : r.snapshotId.draw = s.draws
  own : ∀ key, r.names key → key.id = r.snapshotId
  copies : ∀ key, (t.storage key).isSome → (s.storage key).isSome ∨ r.names key
  kept : ∀ key, (s.storage key).isSome → (t.storage key).isSome

theorem Ledger.new_id (h : Ledger s) {r : BackupSnapshot D} (hr : r.snapshotId.draw = s.draws) :
    ∀ e ∈ entries s, e.1.snapshotId ≠ r.snapshotId := by
  intro e he heq
  have hdrawn := h.drawn e he
  rw [heq, hr] at hdrawn
  exact Nat.lt_irrefl _ hdrawn

theorem Ledger.registered (h : Ledger s) {r : BackupSnapshot D} (hr : Registered s r t)
    (hwhole : Whole s) : Ledger (saveRegistry t) := by
  have hmem : ∀ r' ∈ t.snapshots, (r', true) ∈ entries s ∨ r' = r := by
    intro r' hr'
    rw [hr.snapshots] at hr'
    rcases List.mem_append.mp hr' with hr' | hr'
    · exact Or.inl (h.entry hr')
    · exact Or.inr (List.mem_singleton.mp hr')
  refine ledger_save ?_ ?_ ?_ ?_
  · intro key hkey
    rw [hr.snapshots]
    rcases hr.copies key hkey with hold | hnew
    · obtain ⟨e, he, hnames⟩ := h.accounted key hold
      exact ⟨e.1, List.mem_append_left _ (hwhole.mem he), hnames⟩
    · exact ⟨r, List.mem_append_right _ (List.mem_singleton_self r), hnew⟩
  · intro r' hr'
    rcases hmem r' hr' with he | rfl
    · exact h.own _ he
    · exact hr.own
  · rw [hr.snapshots]
    have hunique : Lookup.Unique BackupSnapshot.snapshotId (s.snapshots ++ []) := by
      rw [List.append_nil]
      exact h.unique_snapshots
    refine Lookup.unique_insert hunique ?_
    intro r' hr'
    rw [List.append_nil] at hr'
    exact h.new_id hr.drawn _ (h.entry hr')
  · intro r' hr'
    rw [hr.draws]
    rcases hmem r' hr' with he | rfl
    · exact Nat.lt_succ_of_lt (h.drawn _ he)
    · rw [hr.drawn]
      exact Nat.lt_succ_self _

theorem Ledger.registered_iff (h : Ledger s) {r : BackupSnapshot D} (hr : Registered s r t) {c : Call}
    (hmust : ∀ key, ¬ MustGo s c key) : Accounted ⟨s, c, saveRegistry t⟩ ↔ Whole s := by
  constructor
  · intro hpaid
    refine whole_of_save h hr.drills ?_ hpaid.unread
    intro rows hsub hold
    rw [hr.snapshots, List.sublist_append_iff] at hsub
    obtain ⟨rows₁, rows₂, rfl, hsub₁, hsub₂⟩ := hsub
    rcases List.sublist_singleton.mp hsub₂ with rfl | rfl
    · rw [List.append_nil]
      exact hsub₁
    · obtain ⟨e, he, heq⟩ := hold r (List.mem_append_right _ (List.mem_singleton_self r))
      exact absurd (congrArg _ heq) (h.new_id hr.drawn e he)
  · intro hwhole
    have hledger := h.registered hr hwhole
    refine ⟨hledger.accounted, ?_, fun key hkey => absurd hkey (hmust key), ?_, ?_⟩
    · intro key hpre hpost
      have hkept := hr.kept key hpre
      rw [Option.isNone_iff_eq_none] at hpost
      rw [show t.storage key = none from hpost] at hkept
      cases hkept
    · intro r' hr' hgone
      refine absurd ?_ hgone
      rw [show (saveRegistry t).snapshots = t.snapshots from rfl, hr.snapshots]
      exact List.mem_append_left _ hr'
    · intro registry hregistry hbad hchanged
      obtain ⟨hsnapshots, hdrills⟩ := hwhole.nothing h hregistry hbad
      rw [hsnapshots, hdrills]
      exact ⟨List.nil_sublist _, List.nil_sublist _⟩

theorem Ledger.same (h : Ledger s) {c : Call} (hstorage : t.storage = s.storage)
    (hsnapshots : t.snapshots = s.snapshots) (hdrills : t.drills = s.drills) (hregistry : t.registry = s.registry)
    (hdraws : s.draws ≤ t.draws) (hmust : ∀ key, ¬ MustGo s c key) : Accounted ⟨s, c, t⟩ ∧ Ledger t := by
  have hentries : entries t = entries s := by rw [entries, hregistry]; rfl
  have hledger : Ledger t := by
    refine ⟨?_, ?_, ?_, ?_, ?_⟩
    · rw [hstorage, hentries]
      exact h.accounted
    · rw [hentries]
      exact h.own
    · rw [hentries]
      exact h.unique
    · rw [hentries]
      exact fun e he => lt_of_lt_of_le (h.drawn e he) hdraws
    · rw [hregistry, hsnapshots, hdrills]
      exact h.read
  refine ⟨⟨hledger.accounted, ?_, fun key hkey => absurd hkey (hmust key), ?_, ?_⟩, hledger⟩
  · intro key hpre hpost
    rw [Option.isNone_iff_eq_none, show t.storage key = s.storage key from congrFun hstorage key] at hpost
    rw [show s.storage key = none from hpost] at hpre
    cases hpre
  · intro r hr hgone
    exact absurd (hsnapshots ▸ hr) hgone
  · intro registry _ _ hchanged
    exact absurd hregistry hchanged

theorem store_storage (s : Service D) (key key' : Key) (data : Bytes) :
    ((store s key data).storage key').isSome ↔ key' = key ∨ (s.storage key').isSome := by
  unfold store
  dsimp only
  by_cases h : key' = key
  · subst h
    rw [Function.update_self]
    simp
  · rw [Function.update_of_ne h]
    simp [h]

theorem Ledger.orphaned (h : Ledger s) {c : Call} {id : SnapshotId} (hid : id.draw = s.draws)
    (hcopy : (t.storage (.archive id)).isSome) (hregistry : t.registry = s.registry) : ¬ Accounted ⟨s, c, t⟩ := by
  intro hpaid
  obtain ⟨e, he, hnames⟩ := hpaid.named (.archive id) hcopy
  have hentries : entries t = entries s := by rw [entries, hregistry]; rfl
  rw [show entries (Move.post ⟨s, c, t⟩) = entries s from hentries] at he
  have hown := h.own e he _ hnames
  have hdrawn := h.drawn e he
  rw [← hown, Key.id, hid] at hdrawn
  exact Nat.lt_irrefl _ hdrawn

section

variable (T : Tools D)

variable {s : Service D}

theorem Ledger.put_snapshot (h : Ledger s) {r : BackupSnapshot D} (hr : r.snapshotId.draw = s.draws) :
    Lookup.put BackupSnapshot.snapshotId s.snapshots r = s.snapshots ++ [r] :=
  Lookup.put_new fun _ hr' => h.new_id hr _ (h.entry hr')

theorem createBackup_cases (h : Ledger s) (p : Packaging) (target : BackupStorageTarget) :
    ((p.source = none ∨ p.archived = false) ∧ ∃ draws, s.draws ≤ draws ∧
      (createBackup T s p target).2 = { s with draws := draws }) ∨
    (p.source.isSome ∧ p.archived = true ∧ ∃ r t, (createBackup T s p target).2 = saveRegistry t ∧ Registered s r t) := by
  unfold createBackup
  cases hsource : p.source with
  | none => exact Or.inl ⟨Or.inl rfl, s.draws, Nat.le_refl _, rfl⟩
  | some source =>
    cases harchived : p.archived with
    | false => exact Or.inl ⟨Or.inr rfl, s.draws + 1, Nat.le_succ _, rfl⟩
    | true =>
      simp only [Bool.not_true, Bool.false_eq_true, if_false, register]
      refine Or.inr ⟨rfl, trivial, _, _, rfl, ⟨h.put_snapshot rfl, rfl, rfl, rfl, ?_, ?_, ?_⟩⟩
      · rintro key (rfl | hkey | hkey | ⟨hkey, -⟩)
        · rfl
        · cases hkey
        · cases hkey
        · cases hkey
      · intro key hkey
        rcases (store_storage _ _ _ _).mp hkey with rfl | hkey
        · exact Or.inr (Or.inl rfl)
        · exact Or.inl hkey
      · intro key hkey
        exact (store_storage _ _ _ _).mpr (Or.inr hkey)

theorem createThreeTierBackup_cases (h : Ledger s) (p : Packaging) (dump : Option Bytes) (encKey : String)
    (salt : Nat) (fault : Option Fault) :
    ((p.source = none ∨ p.archived = false) ∧ ∃ draws, s.draws ≤ draws ∧
      (createThreeTierBackup T s p dump encKey salt fault).2 = { s with draws := draws }) ∨
    (p.source.isSome ∧ p.archived = true ∧ fault = none ∧ ∃ r t,
      (createThreeTierBackup T s p dump encKey salt fault).2 = saveRegistry t ∧ Registered s r t) ∨
    (p.source.isSome ∧ p.archived = true ∧ fault ≠ none ∧ ∃ id t, id.draw = s.draws ∧
      (createThreeTierBackup T s p dump encKey salt fault).2 = t ∧ (t.storage (.archive id)).isSome ∧
        t.registry = s.registry) := by
  unfold createThreeTierBackup
  cases hsource : p.source with
  | none => exact Or.inl ⟨Or.inl rfl, s.draws, Nat.le_refl _, rfl⟩
  | some source =>
    cases harchived : p.archived with
    | false => exact Or.inl ⟨Or.inr rfl, s.draws + 1, Nat.le_succ _, rfl⟩
    | true =>
      right
      cases fault with
      | none =>
        simp only [Bool.not_true, Bool.false_eq_true, if_false, register, reduceCtorEq]
        refine Or.inl ⟨rfl, trivial, trivial, _, _, rfl, ⟨h.put_snapshot rfl, rfl, rfl, rfl, ?_, ?_, ?_⟩⟩
        · rintro key (rfl | hkey | hkey | ⟨-, rfl⟩)
          · rfl
          · cases hkey
            rfl
          · cases hkey
            rfl
          · rfl
        · intro key hkey
          rcases (store_storage _ _ _ _).mp hkey with rfl | hkey
          · exact Or.inr (Or.inr (Or.inr (Or.inl rfl)))
          · rcases (store_storage _ _ _ _).mp hkey with rfl | hkey
            · exact Or.inr (Or.inr (Or.inl rfl))
            · rcases (store_storage _ _ _ _).mp hkey with rfl | hkey
              · exact Or.inr (Or.inr (Or.inr (Or.inr ⟨rfl, rfl⟩)))
              · rcases (store_storage _ _ _ _).mp hkey with rfl | hkey
                · exact Or.inr (Or.inl rfl)
                · exact Or.inl hkey
        · intro key hkey
          simp only [store_storage]
          exact Or.inr (Or.inr (Or.inr (Or.inr hkey)))
      | some fault =>
        refine Or.inr ⟨rfl, rfl, nofun, ⟨true, p.projectId, p.now, s.draws⟩, _, rfl, rfl, ?_⟩
        cases fault with
        | encryption => exact ⟨(store_storage _ _ _ _).mpr (Or.inl rfl), rfl⟩
        | upload => exact ⟨(store_storage _ _ _ _).mpr (Or.inr ((store_storage _ _ _ _).mpr (Or.inl rfl))), rfl⟩
        | mirror =>
          exact ⟨(store_storage _ _ _ _).mpr (Or.inr ((store_storage _ _ _ _).mpr (Or.inr
            ((store_storage _ _ _ _).mpr (Or.inl rfl))))), rfl⟩

theorem createBackup_iff (h : Ledger s) (p : Packaging) (target : BackupStorageTarget) :
    (Accounted ⟨s, .createBackup p target, (createBackup T s p target).2⟩ ↔ Careful s (.createBackup p target)) ∧
      (Careful s (.createBackup p target) → Ledger (createBackup T s p target).2) := by
  have hmust : ∀ key, ¬ MustGo s (.createBackup p target) key := fun _ hkey => hkey.elim
  rcases createBackup_cases T h p target with ⟨hnothing, draws, hdraws, heq⟩ | ⟨hsource, harchived, r, t, heq, hr⟩
  · rw [heq]
    have hsame := h.same (t := { s with draws := draws }) rfl rfl rfl rfl hdraws hmust
    refine ⟨iff_of_true hsame.1 ?_, fun _ => hsame.2⟩
    intro hsource harchived
    rcases hnothing with hnone | hfalse
    · rw [hnone] at hsource
      cases hsource
    · rw [hfalse] at harchived
      cases harchived
  · rw [heq, h.registered_iff hr hmust]
    exact ⟨⟨fun hwhole _ _ => hwhole, fun hcareful => hcareful hsource harchived⟩,
      fun hcareful => h.registered hr (hcareful hsource harchived)⟩

theorem createThreeTierBackup_iff (h : Ledger s) (p : Packaging) (dump : Option Bytes) (encKey : String)
    (salt : Nat) (fault : Option Fault) :
    (Accounted ⟨s, .createThreeTierBackup p dump encKey salt fault,
        (createThreeTierBackup T s p dump encKey salt fault).2⟩ ↔
      Careful s (.createThreeTierBackup p dump encKey salt fault)) ∧
    (Careful s (.createThreeTierBackup p dump encKey salt fault) →
      Ledger (createThreeTierBackup T s p dump encKey salt fault).2) := by
  have hmust : ∀ key, ¬ MustGo s (.createThreeTierBackup p dump encKey salt fault) key := fun _ hkey => hkey.elim
  rcases createThreeTierBackup_cases T h p dump encKey salt fault with ⟨hnothing, draws, hdraws, heq⟩ |
    ⟨hsource, harchived, hfault, r, t, heq, hr⟩ | ⟨hsource, harchived, hfault, id, t, hid, heq, hcopy, hregistry⟩
  · rw [heq]
    have hsame := h.same (t := { s with draws := draws }) rfl rfl rfl rfl hdraws hmust
    refine ⟨iff_of_true hsame.1 ?_, fun _ => hsame.2⟩
    intro hsource harchived
    rcases hnothing with hnone | hfalse
    · rw [hnone] at hsource
      cases hsource
    · rw [hfalse] at harchived
      cases harchived
  · rw [heq, h.registered_iff hr hmust]
    exact ⟨⟨fun hwhole _ _ => ⟨hfault, hwhole⟩, fun hcareful => (hcareful hsource harchived).2⟩,
      fun hcareful => h.registered hr (hcareful hsource harchived).2⟩
  · rw [heq]
    refine ⟨iff_of_false (h.orphaned hid hcopy hregistry) ?_, ?_⟩
    · intro hcareful
      exact hfault (hcareful hsource harchived).1
    · intro hcareful
      exact absurd (hcareful hsource harchived).1 hfault

end

theorem newer_count {rows : List (BackupSnapshot D)} (hunique : (rows.map BackupSnapshot.snapshotId).Nodup)
    {r : BackupSnapshot D} {n : Nat} (h : (r, n) ∈ (sortDesc BackupSnapshot.createdAt rows).zipIdx) :
    n ≤ (rows.filter fun r' => decide (r'.snapshotId ≠ r.snapshotId ∧ r.createdAt ≤ r'.createdAt)).length := by
  have hperm : (sortDesc BackupSnapshot.createdAt rows).Perm rows := List.perm_insertionSort _ rows
  have hsorted := sortDesc_pairwise BackupSnapshot.createdAt rows
  have hnodup : ((sortDesc BackupSnapshot.createdAt rows).map BackupSnapshot.snapshotId).Nodup :=
    (hperm.map _).nodup_iff.mpr hunique
  rw [List.mk_mem_zipIdx_iff_getElem?] at h
  rw [← (hperm.filter _).length_eq]
  generalize sortDesc BackupSnapshot.createdAt rows = sorted at h hsorted hnodup
  obtain ⟨hlt, hget⟩ := List.getElem?_eq_some_iff.mp h
  have hsplit : sorted = sorted.take n ++ r :: sorted.drop (n + 1) := by
    conv_lhs => rw [← List.take_append_drop n sorted, List.drop_eq_getElem_cons hlt, hget]
  rw [hsplit, List.map_append, List.map_cons, List.nodup_append] at hnodup
  rw [hsplit, List.pairwise_append] at hsorted
  have hall : ∀ r' ∈ sorted.take n, decide (r'.snapshotId ≠ r.snapshotId ∧ r.createdAt ≤ r'.createdAt) = true := by
    intro r' hr'
    rw [decide_eq_true_eq]
    refine ⟨?_, hsorted.2.2 r' hr' r List.mem_cons_self⟩
    exact hnodup.2.2 _ (List.mem_map_of_mem hr') _ List.mem_cons_self
  calc n = (sorted.take n).length := (List.length_take_of_le (Nat.le_of_lt hlt)).symm
    _ = ((sorted.take n).filter fun r' =>
          decide (r'.snapshotId ≠ r.snapshotId ∧ r.createdAt ≤ r'.createdAt)).length := by
        rw [List.filter_eq_self.mpr hall]
    _ ≤ _ := ((List.take_sublist n sorted).filter _).length_le

theorem mem_expired {rows : List (BackupSnapshot D)} {maxSnapshots ageLimit : Int} {r : BackupSnapshot D}
    (h : r ∈ expired rows maxSnapshots ageLimit) : r ∈ rows ∧ ∃ n : Nat,
      (r, n) ∈ (sortDesc BackupSnapshot.createdAt rows).zipIdx ∧ (maxSnapshots ≤ n ∨ r.createdAt < ageLimit) := by
  unfold expired at h
  obtain ⟨⟨r', n⟩, hmem, rfl⟩ := List.mem_map.mp h
  rw [List.mem_filter] at hmem
  obtain ⟨hmem, hdue⟩ := hmem
  refine ⟨?_, n, hmem, ?_⟩
  · exact mem_sortDesc.mp (List.fst_mem_of_mem_zipIdx hmem)
  · simp only [Bool.not_eq_true', Bool.and_eq_false_iff, decide_eq_false_iff_not, not_lt, not_le] at hdue
    exact hdue

theorem Ledger.expired_rule (h : Ledger s) {projectId : String} {maxSnapshots maxAgeDays now : Int}
    {r : BackupSnapshot D}
    (hr : r ∈ expired (ofProject s projectId) maxSnapshots (daysBefore now maxAgeDays)) :
    r ∈ ofProject s projectId ∧ LocalRule s projectId maxSnapshots maxAgeDays now r := by
  obtain ⟨hmem, n, hn, hdue⟩ := mem_expired hr
  refine ⟨hmem, ?_⟩
  rcases hdue with hcount | hage
  · right
    have hunique : ((ofProject s projectId).map BackupSnapshot.snapshotId).Nodup :=
      (List.filter_sublist.map _).nodup h.unique_snapshots
    have hle := newer_count hunique hn
    omega
  · exact Or.inl hage

theorem Ledger.owner (h : Ledger s) {r r' : BackupSnapshot D} (hr : r ∈ s.snapshots)
    (hr' : r' ∈ s.snapshots) {key : Key} (hkey : r.names key) (hkey' : r'.names key) : r = r' := by
  have hid : r.snapshotId = r'.snapshotId := (h.own _ (h.entry hr) _ hkey).symm.trans (h.own _ (h.entry hr') _ hkey')
  exact List.inj_on_of_nodup_map h.unique_snapshots hr hr' hid

theorem without_isSome {storage : Key → Option Bytes} {gone : Key → Bool} {key : Key} :
    (without storage gone key).isSome ↔ gone key = false ∧ (storage key).isSome := by
  unfold without
  cases gone key <;> simp

theorem applyRetentionPolicy_iff (h : Ledger s) (projectId : String)
    (maxSnapshots maxAgeDays now : Int) (works : Key → Bool) :
    (Accounted ⟨s, .applyRetentionPolicy projectId maxSnapshots maxAgeDays now works,
        (applyRetentionPolicy s projectId maxSnapshots maxAgeDays now works).2⟩ ↔
      Careful s (.applyRetentionPolicy projectId maxSnapshots maxAgeDays now works)) ∧
    (Careful s (.applyRetentionPolicy projectId maxSnapshots maxAgeDays now works) →
      Ledger (applyRetentionPolicy s projectId maxSnapshots maxAgeDays now works).2) := by
  unfold applyRetentionPolicy Careful
  dsimp only
  generalize htoDelete : expired (ofProject s projectId) maxSnapshots (daysBefore now maxAgeDays) = toDelete
  have hrule : ∀ r ∈ toDelete, r ∈ ofProject s projectId ∧ LocalRule s projectId maxSnapshots maxAgeDays now r := by
    subst htoDelete
    exact fun r hr => h.expired_rule hr
  have hmem : ∀ r ∈ toDelete, r ∈ s.snapshots := fun r hr => List.mem_of_mem_filter (hrule r hr).1
  have hdropped : ∀ r ∈ s.snapshots, r.snapshotId ∈ toDelete.map BackupSnapshot.snapshotId ↔ r ∈ toDelete := by
    intro r hr
    refine ⟨?_, List.mem_map_of_mem⟩
    intro hid
    obtain ⟨r', hr', heq⟩ := List.mem_map.mp hid
    rw [← List.inj_on_of_nodup_map h.unique_snapshots (hmem r' hr') hr heq]
    exact hr'
  generalize ht : ({ s with
    snapshots := s.snapshots.filter fun r => decide (r.snapshotId ∉ toDelete.map BackupSnapshot.snapshotId)
    storage := without s.storage fun key => toDelete.any (fun r => decide (r.storageLocation = key)) && works key } :
      Service D) = t
  have hsnapshots : ∀ r, r ∈ t.snapshots ↔ r ∈ s.snapshots ∧ r ∉ toDelete := by
    intro r
    rw [← ht, List.mem_filter, decide_eq_true_eq]
    exact and_congr_right fun hr => not_congr (hdropped r hr)
  have hsub : t.snapshots.Sublist s.snapshots := ht ▸ List.filter_sublist
  have hstorage : ∀ key, (t.storage key).isSome ↔
      ¬ ((∃ r ∈ toDelete, r.storageLocation = key) ∧ works key = true) ∧ (s.storage key).isSome := by
    intro key
    rw [← ht, without_isSome, ← Bool.not_eq_true, Bool.and_eq_true, List.any_eq_true]
    simp only [decide_eq_true_eq]
  have hdrills : t.drills = s.drills := ht ▸ rfl
  have hdraws : t.draws = s.draws := ht ▸ rfl
  have hledger : (Whole s ∧ ∀ r ∈ toDelete, ∀ key, r.names key → (s.storage key).isSome →
      key = r.storageLocation ∧ works key = true) → Ledger (saveRegistry t) := by
    rintro ⟨hwhole, hcareful⟩
    refine ledger_save ?_ ?_ (hsub.map _ |>.nodup h.unique_snapshots) ?_
    · intro key hkey
      obtain ⟨hkept, hpre⟩ := (hstorage key).mp hkey
      obtain ⟨e, he, hnames⟩ := h.accounted key hpre
      refine ⟨e.1, (hsnapshots e.1).mpr ⟨hwhole.mem he, ?_⟩, hnames⟩
      intro hdeleted
      obtain ⟨hloc, hworks⟩ := hcareful e.1 hdeleted key hnames hpre
      exact hkept ⟨⟨e.1, hdeleted, hloc.symm⟩, hworks⟩
    · exact fun r hr => h.own _ (h.entry (hsub.subset hr))
    · rw [hdraws]
      exact fun r hr => h.drawn _ (h.entry (hsub.subset hr))
  refine ⟨⟨?_, ?_⟩, hledger⟩
  · intro hpaid
    refine ⟨whole_of_save h hdrills (fun rows hrows _ => hrows.trans hsub) hpaid.unread, ?_⟩
    intro r hr key hnames hpre
    have hgone : t.storage key = none :=
      hpaid.recorded r (hmem r hr) (fun hpost => ((hsnapshots r).mp hpost).2 hr) key hnames
    have hdeleted : (∃ r' ∈ toDelete, r'.storageLocation = key) ∧ works key = true := by
      by_contra hnot
      have hsome := (hstorage key).mpr ⟨hnot, hpre⟩
      rw [hgone] at hsome
      cases hsome
    obtain ⟨⟨r', hr', hloc⟩, hworks⟩ := hdeleted
    have heq := h.owner (hmem r hr) (hmem r' hr') hnames (Or.inl hloc.symm)
    exact ⟨heq ▸ hloc.symm, hworks⟩
  · intro hcareful
    refine ⟨(hledger hcareful).accounted, ?_, fun _ hkey => hkey.elim, ?_, ?_⟩
    · intro key hpre hpost
      have hnot : ¬ (t.storage key).isSome := by
        rw [show t.storage key = none from Option.isNone_iff_eq_none.mp hpost]
        nofun
      rw [hstorage] at hnot
      have hdeleted : (∃ r ∈ toDelete, r.storageLocation = key) ∧ works key = true := by
        by_contra hkept
        exact hnot ⟨hkept, hpre⟩
      obtain ⟨⟨r, hr, hloc⟩, -⟩ := hdeleted
      exact ⟨r, (hrule r hr).1, hloc, (hrule r hr).2⟩
    · intro r hr hgone key hnames
      have hdeleted : r ∈ toDelete := by
        by_contra hnot
        exact hgone ((hsnapshots r).mpr ⟨hr, hnot⟩)
      change t.storage key = none
      rw [← Option.not_isSome_iff_eq_none]
      intro hsome
      obtain ⟨hkept, hpre⟩ := (hstorage key).mp hsome
      obtain ⟨hloc, hworks⟩ := hcareful.2 r hdeleted key hnames hpre
      exact hkept ⟨⟨r, hdeleted, hloc.symm⟩, hworks⟩
    · intro registry hregistry hbad _
      obtain ⟨hnone, hnone'⟩ := hcareful.1.nothing h hregistry hbad
      rw [hnone, hnone']
      exact ⟨List.nil_sublist _, List.nil_sublist _⟩

theorem mem_dueR2 {cutoff : Int} {key : Key} : key ∈ dueR2 s projectId cutoff ↔
    ∃ r ∈ ofProject s projectId, r.r2ObjectKey = some key ∧ r.createdAt < cutoff := by
  unfold dueR2
  rw [List.mem_filterMap]
  refine exists_congr fun r => and_congr_right fun _ => ?_
  split
  · rename_i hage
    exact (and_iff_left hage).symm
  · rename_i hage
    exact iff_of_false nofun fun h => hage h.2

theorem mem_dueOnprem {cutoff : Int} {key : Key} :
    key ∈ dueOnprem s projectId cutoff ↔
      ∃ r ∈ ofProject s projectId, r.onpremLocation = some key ∧ r.createdAt < cutoff := by
  unfold dueOnprem
  rw [List.mem_filterMap]
  refine exists_congr fun r => and_congr_right fun _ => ?_
  split
  · rename_i hage
    exact (and_iff_left hage).symm
  · rename_i hage
    exact iff_of_false nofun fun h => hage h.2

theorem mem_ofProject {r : BackupSnapshot D} :
    r ∈ ofProject s projectId ↔ r ∈ s.snapshots ∧ r.projectId = projectId := by
  rw [ofProject, List.mem_filter, decide_eq_true_eq]

theorem applyTieredRetentionPolicy_iff (h : Ledger s) (projectId : String)
    (r2MaxAgeDays onpremMaxAgeDays now : Int) (works : Key → Bool) :
    (Accounted ⟨s, .applyTieredRetentionPolicy projectId r2MaxAgeDays onpremMaxAgeDays now works,
        (applyTieredRetentionPolicy s projectId r2MaxAgeDays onpremMaxAgeDays now works).2⟩ ↔
      Careful s (.applyTieredRetentionPolicy projectId r2MaxAgeDays onpremMaxAgeDays now works)) ∧
    Ledger (applyTieredRetentionPolicy s projectId r2MaxAgeDays onpremMaxAgeDays now works).2 := by
  unfold applyTieredRetentionPolicy
  dsimp only
  generalize hgone : (dueR2 s projectId (daysBefore now r2MaxAgeDays)).filter works ++
    (dueOnprem s projectId (daysBefore now onpremMaxAgeDays)).filter (fun key =>
      (s.storage key).isSome && works key) = gone
  have hmem : ∀ key, (s.storage key).isSome → (key ∈ gone ↔ works key = true ∧
      ∃ r ∈ s.snapshots, r.projectId = projectId ∧
        ((r.r2ObjectKey = some key ∧ r.createdAt < daysBefore now r2MaxAgeDays) ∨
          (r.onpremLocation = some key ∧ r.createdAt < daysBefore now onpremMaxAgeDays))) := by
    intro key hpre
    rw [← hgone, List.mem_append, List.mem_filter, List.mem_filter, mem_dueR2, mem_dueOnprem, hpre, Bool.true_and]
    simp only [mem_ofProject]
    constructor
    · rintro (⟨⟨r, ⟨hr, hproject⟩, hdue⟩, hworks⟩ | ⟨⟨r, ⟨hr, hproject⟩, hdue⟩, hworks⟩)
      · exact ⟨hworks, r, hr, hproject, Or.inl hdue⟩
      · exact ⟨hworks, r, hr, hproject, Or.inr hdue⟩
    · rintro ⟨hworks, r, hr, hproject, hdue | hdue⟩
      · exact Or.inl ⟨⟨r, ⟨hr, hproject⟩, hdue⟩, hworks⟩
      · exact Or.inr ⟨⟨r, ⟨hr, hproject⟩, hdue⟩, hworks⟩
  have hstorage : ∀ key, (without s.storage (fun key => decide (key ∈ gone)) key).isSome ↔
      key ∉ gone ∧ (s.storage key).isSome := by
    intro key
    rw [without_isSome, decide_eq_false_iff_not]
  have hledger : Ledger { s with storage := without s.storage fun key => decide (key ∈ gone) } :=
    ⟨fun key hkey => h.accounted key ((hstorage key).mp hkey).2, h.own, h.unique, h.drawn, h.read⟩
  refine ⟨⟨?_, ?_⟩, hledger⟩
  · intro hpaid key hpre hmust e he hnames
    have hnone := hpaid.due key hmust
    have hin : key ∈ gone := by
      by_contra hnot
      have hsome := (hstorage key).mpr ⟨hnot, hpre⟩
      rw [show without s.storage (fun key => decide (key ∈ gone)) key = none from hnone] at hsome
      cases hsome
    obtain ⟨-, r, hr, -, hdue⟩ := (hmem key hpre).mp hin
    have hnames' : r.names key := by
      rcases hdue with ⟨hkey, -⟩ | ⟨hkey, -⟩
      · exact Or.inr (Or.inl hkey)
      · exact Or.inr (Or.inr (Or.inl hkey))
    have hid : e.1.snapshotId = r.snapshotId := (h.own e he key hnames).symm.trans (h.own _ (h.entry hr) key hnames')
    rw [List.inj_on_of_nodup_map h.unique he (h.entry hr) hid]
    exact hr
  · intro hcareful
    refine ⟨hledger.accounted, ?_, ?_, fun r hr hnot => absurd hr hnot, fun _ _ _ hchanged => absurd rfl hchanged⟩
    · intro key hpre hpost
      have hin : key ∈ gone := by
        by_contra hnot
        have hsome := (hstorage key).mpr ⟨hnot, hpre⟩
        rw [show without s.storage (fun key => decide (key ∈ gone)) key = none from
          Option.isNone_iff_eq_none.mp hpost] at hsome
        cases hsome
      obtain ⟨-, r, hr, hproject, hdue⟩ := (hmem key hpre).mp hin
      exact ⟨r, mem_ofProject.mpr ⟨hr, hproject⟩, hdue⟩
    · intro key hmust
      change without s.storage (fun key => decide (key ∈ gone)) key = none
      rw [← Option.not_isSome_iff_eq_none, hstorage]
      rintro ⟨hnot, hpre⟩
      obtain ⟨hworks, e, he, hproject, hdue⟩ := hmust
      have hnames : e.1.names key := by
        rcases hdue with ⟨hkey, -⟩ | ⟨hkey, -⟩
        · exact Or.inr (Or.inl hkey)
        · exact Or.inr (Or.inr (Or.inl hkey))
      have hr := hcareful key hpre ⟨hworks, e, he, hproject, hdue⟩ e he hnames
      exact hnot ((hmem key hpre).mpr ⟨hworks, e.1, hr, hproject, hdue⟩)

theorem construct_accounted (h : Ledger s) : Accounted ⟨s, .construct, construct s⟩ ∧ Ledger (construct s) :=
  h.same rfl h.read.1.symm h.read.2.symm rfl (Nat.le_refl _) fun _ hkey => hkey.elim

theorem accounted_iff (T : Tools D) {s : Service D} (h : Ledger s) (c : Call) :
    (Accounted ⟨s, c, step T s c⟩ ↔ Careful s c) ∧ (Careful s c → Ledger (step T s c)) := by
  cases c with
  | construct => exact ⟨iff_of_true (construct_accounted h).1 trivial, fun _ => (construct_accounted h).2⟩
  | createBackup p target => exact createBackup_iff T h p target
  | createThreeTierBackup p dump encKey salt fault => exact createThreeTierBackup_iff T h p dump encKey salt fault
  | applyRetentionPolicy projectId maxSnapshots maxAgeDays now works =>
    exact applyRetentionPolicy_iff h projectId maxSnapshots maxAgeDays now works
  | applyTieredRetentionPolicy projectId r2MaxAgeDays onpremMaxAgeDays now works =>
    have hiff := applyTieredRetentionPolicy_iff h projectId r2MaxAgeDays onpremMaxAgeDays now works
    exact ⟨hiff.1, fun _ => hiff.2⟩

/-- What lies on the tiers and in the registry file before the service starts: the file may be missing, no JSON or hold
records that no longer validate, but every copy stands in it. -/
structure World (D : Type) where
  storage : Key → Option Bytes
  registry : Option (Registry D)
  draws : Nat
  accounted : ∀ key, (storage key).isSome →
    ∃ e ∈ ((registry.map Registry.snapshots).getD [] : List (BackupSnapshot D × Bool)), e.1.names key
  own : ∀ e ∈ ((registry.map Registry.snapshots).getD [] : List (BackupSnapshot D × Bool)), ∀ key,
    e.1.names key → key.id = e.1.snapshotId
  unique : (((registry.map Registry.snapshots).getD [] : List (BackupSnapshot D × Bool)).map fun e =>
    e.1.snapshotId).Nodup
  drawn : ∀ e ∈ ((registry.map Registry.snapshots).getD [] : List (BackupSnapshot D × Bool)),
    e.1.snapshotId.draw < draws

def World.service (w : World D) : Service D := construct ⟨w.storage, w.registry, [], [], w.draws⟩

theorem World.ledger (w : World D) : Ledger w.service := ⟨w.accounted, w.own, w.unique, w.drawn, rfl, rfl⟩

/-- Every call of a run pays what it owes exactly if every one is careful. -/
theorem backups_accounted (T : Tools D) (w : World D) (calls : List Call) :
    (∀ m ∈ Runs.moves (step T) w.service calls, Accounted m) ↔
      ∀ m ∈ Runs.moves (step T) w.service calls, Careful m.pre m.act :=
  Runs.moves_forall_iff (I := Ledger) (fun _ c h => (accounted_iff T h c).1)
    (fun _ c h => (accounted_iff T h c).2) w.ledger calls

end

instance encodableString : Encodable String :=
  Encodable.ofLeftInverse (fun s => s.toList.map Char.toNat) (fun ns => String.ofList (ns.map Char.ofNat)) (by
    intro s
    rw [List.map_map]
    have hchar : Char.ofNat ∘ Char.toNat = id := funext Char.ofNat_toNat
    rw [hchar, List.map_id, String.ofList_toList])

/-- Tools with digests that are the data themselves, and an archive for each number. -/
def plainTools : Tools Bytes where
  sha256 := id
  sha256_inj := Function.injective_id
  hexdigest _ := ""
  pack members := List.replicate (Encodable.encode members) (Fin.last 255)
  unpack data := Encodable.decode data.length
  unpack_pack members := by rw [List.length_replicate, Encodable.encodek]
  encrypt _ _ data := data
  decrypt _ data := some data
  decrypt_encrypt _ _ _ := rfl

def emptyWorld : World Bytes :=
  ⟨fun _ => none, none, 0, nofun, List.forall_mem_nil _, List.nodup_nil, List.forall_mem_nil _⟩

def shopPackaging : Packaging := ⟨"shop", 0, some ⟨[], by decide, by decide, by decide⟩, [], true⟩

def shopBackup : Call := .createThreeTierBackup shopPackaging none "key" 0 none

def shopRetention : Call := .applyRetentionPolicy "shop" 0 30 0 fun _ => true

/-- The count rule of the local tier drops the record of copies in R2 and on the mirror. -/
theorem retention_drops_record :
    ¬ ∀ m ∈ Runs.moves (step plainTools) emptyWorld.service [shopBackup, shopRetention], Accounted m := by
  intro h
  have hledger : Ledger (step plainTools emptyWorld.service shopBackup) :=
    (accounted_iff plainTools emptyWorld.ledger shopBackup).2 fun _ _ => ⟨rfl, ⟨rfl, rfl⟩⟩
  have hcareful := (accounted_iff plainTools hledger shopRetention).1.mp
    (h _ (List.mem_cons_of_mem _ List.mem_cons_self))
  obtain ⟨hlocation, -⟩ := hcareful.2 _ List.mem_cons_self (.r2 "shop" ⟨true, "shop", 0, 0⟩) (Or.inr (Or.inl rfl)) rfl
  cases hlocation

end BackupService
end Infra
end DarkFactory
