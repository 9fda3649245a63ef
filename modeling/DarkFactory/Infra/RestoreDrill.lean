import DarkFactory.Infra.BackupAccounting

/-!
# DarkFactory.Infra.RestoreDrill

A backup and the drill on its record, with what lies in between changed at will.

* `Fits` — what the drill checks of the restored files (`drill_success`).
-/

namespace DarkFactory
namespace Infra
namespace BackupService

section

variable {D : Type}

theorem extract_eq {ms files files' : List Member} (h : ms.foldlM extractMember files = some files') :
    files' = ms.foldl (Lookup.put Prod.fst) files := by
  induction ms generalizing files with
  | nil => exact (Option.some.inj h).symm
  | cons m ms ih =>
    rw [List.foldlM_cons] at h
    obtain ⟨next, hnext, hrest⟩ := Option.bind_eq_some_iff.mp h
    unfold extractMember at hnext
    split at hnext
    · cases hnext
    · rw [← Option.some.inj hnext] at hrest
      exact ih hrest

theorem above_iff {p q : RelPath} : above p q = true ↔ p <+: q ∧ p ≠ q := by
  unfold above
  rw [Bool.and_eq_true, List.isPrefixOf_iff_prefix, decide_eq_true_eq]

theorem extract_apart {ms files : List Member} (hunique : Lookup.Unique Prod.fst (files ++ ms))
    (hapart : ∀ m ∈ files ++ ms, ∀ m' ∈ files ++ ms, above m.1 m'.1 = false) :
    ms.foldlM extractMember files = some (files ++ ms) := by
  induction ms generalizing files with
  | nil => rw [List.append_nil]; rfl
  | cons m ms ih =>
    have hm : m ∈ files ++ m :: ms := List.mem_append_right _ List.mem_cons_self
    have hany : ¬ (files.any fun f => above f.1 m.1 || above m.1 f.1) = true := by
      rw [List.any_eq_true]
      rintro ⟨f, hf, habove⟩
      have hf' := List.mem_append_left (m :: ms) hf
      rw [hapart f hf' m hm, hapart m hm f hf'] at habove
      cases habove
    have hnew : ∀ f ∈ files, f.1 ≠ m.1 := by
      intro f hf hkey
      rw [Lookup.Unique, List.map_append, List.nodup_append] at hunique
      exact hunique.2.2 f.1 (List.mem_map_of_mem hf) m.1 (List.mem_map_of_mem List.mem_cons_self) hkey
    have happend : files ++ m :: ms = (files ++ [m]) ++ ms := by rw [List.append_assoc]; rfl
    rw [List.foldlM_cons]
    unfold extractMember
    rw [if_neg hany, Lookup.put_new hnew, happend]
    rw [happend] at hunique hapart
    exact ih hunique hapart

theorem SourceTree.extract (source : SourceTree) : extractAll source.files = some source.files := by
  refine extract_apart source.unique ?_
  intro m hm m' hm'
  rw [← Bool.not_eq_true, above_iff]
  rintro ⟨hhead, hne⟩
  exact hne (source.apart _ (List.mem_map_of_mem hm) _ (List.mem_map_of_mem hm') hhead)

variable (T : Tools D)

def Fits (host : RelPath → Option Bytes) (files : List Member) (manifest : List (RelPath × D)) : Prop :=
  ∀ e ∈ manifest, ∃ data, restoredFile host files e.1 = some data ∧ T.sha256 data = e.2

def hashed (m : Member) : RelPath × D := (m.1, T.sha256 m.2)

theorem manifestOf_eq (members : List Member) :
    manifestOf T members = (members.foldl (Lookup.put Prod.fst) []).map (hashed T) := by
  have hkeys : ∀ m : Member, (hashed T m).1 = m.1 := fun _ => rfl
  exact (Lookup.map_foldl_put hkeys members []).symm

/-- The name of a file in a source tree, or of the dump. -/
def Proper (path : RelPath) : Prop := path ≠ [] ∧ ∀ c ∈ path, c ∉ ["", ".", ".."]

theorem proper_dump : Proper PG_REL := by
  unfold Proper PG_REL
  decide

theorem restoredFile_proper (host : RelPath → Option Bytes) (files : List Member) {path : RelPath} (h : Proper path) :
    restoredFile host files path = (Lookup.get Prod.fst files path).map Prod.snd := by
  have hinside : ¬ (".." ∈ path ∨ (path.head? = some "" ∧ path ≠ [""])) := by
    rintro (hup | ⟨hroot, -⟩)
    · exact h.2 _ hup (by simp)
    · exact h.2 _ (List.mem_of_mem_head? hroot) (by simp)
  have hfilter : path.filter (fun c => decide (c ∉ ["", "."])) = path := by
    rw [List.filter_eq_self]
    intro c hc
    have hproper := h.2 c hc
    simp only [List.mem_cons, List.not_mem_nil, or_false, not_or] at hproper
    simp [hproper.1, hproper.2.1]
  unfold restoredFile
  rw [if_neg hinside, hfilter]

theorem fits_hashed (host : RelPath → Option Bytes) {files : List Member} (hunique : Lookup.Unique Prod.fst files)
    (hproper : ∀ m ∈ files, Proper m.1) : Fits T host files (files.map (hashed T)) := by
  intro e he
  obtain ⟨m, hm, rfl⟩ := List.mem_map.mp he
  refine ⟨m.2, ?_, rfl⟩
  change restoredFile host files m.1 = some m.2
  rw [restoredFile_proper host files (hproper m hm), (Lookup.get_eq_some hunique).mpr ⟨hm, rfl⟩]
  rfl

inductive Method where
  | createBackup (target : BackupStorageTarget)
  /-- the drill reads the tier that is named -/
  | createThreeTierBackup (dump : Option Bytes) (encKey : String) (salt : Nat) (fromTier : String)

/-- A source with nothing in it that the walk leaves out, a backup of it that succeeds, and the drill's host. -/
structure Trial (D : Type) where
  service : Service D
  projectId : String
  now : Int
  own : List RelPath
  source : SourceTree
  kept : ∀ m ∈ source.files, walked own m.1 = true
  method : Method
  host : RelPath → Option Bytes

namespace Trial

variable (t : Trial D)

def packaging : Packaging := ⟨t.projectId, t.now, some t.source, t.own, true⟩

def create : Option (BackupSnapshot D) × Service D :=
  match t.method with
  | .createBackup target => createBackup T t.service t.packaging target
  | .createThreeTierBackup dump encKey salt _ => createThreeTierBackup T t.service t.packaging dump encKey salt none

def dump : Option Bytes :=
  match t.method with
  | .createBackup _ => none
  | .createThreeTierBackup dump _ _ _ => dump

def drillArgs : String × String :=
  match t.method with
  | .createBackup _ => ("local", "")
  | .createThreeTierBackup _ encKey _ fromTier => (fromTier, encKey)

def members : List Member := t.source.files ++ (t.dump.map fun data => (PG_REL, data)).toList

def opened (copy : Bytes) : Option Bytes :=
  match t.method with
  | .createBackup _ => some copy
  | .createThreeTierBackup _ encKey _ fromTier =>
    if fromTier = "r2" ∨ fromTier = "onprem" then T.decrypt encKey copy else some copy

end Trial

def BackupSnapshot.copyKey (r : BackupSnapshot D) (fromTier : String) : Key :=
  if fromTier = "r2" then r.r2ObjectKey.getD r.storageLocation
  else if fromTier = "onprem" then r.onpremLocation.getD r.storageLocation
  else r.storageLocation

structure Stored (D : Type) where
  copy : Bytes
  archiveChecksum : D
  encryptedArchiveChecksum : Option D
  postgresDumpChecksum : Option D
  fileManifest : List (RelPath × D)

namespace Stored

def record (st : Stored D) (r : BackupSnapshot D) : BackupSnapshot D := { r with
  archiveChecksum := st.archiveChecksum
  encryptedArchiveChecksum := st.encryptedArchiveChecksum
  postgresDumpChecksum := st.postgresDumpChecksum
  fileManifest := st.fileManifest }

def place (st : Stored D) (s : Service D) (r : BackupSnapshot D) (fromTier : String) : Service D := { s with
  storage := Function.update s.storage (r.copyKey fromTier) (some st.copy)
  snapshots := Lookup.put BackupSnapshot.snapshotId s.snapshots (st.record r) }

def Altered (st : Stored D) (s : Service D) (r : BackupSnapshot D) (fromTier : String) : Prop :=
  s.storage (r.copyKey fromTier) ≠ some st.copy ∨ st.archiveChecksum ≠ r.archiveChecksum ∨
    st.encryptedArchiveChecksum ≠ r.encryptedArchiveChecksum ∨ st.postgresDumpChecksum ≠ r.postgresDumpChecksum ∨
      ¬ ∀ e, e ∈ st.fileManifest ↔ e ∈ r.fileManifest

end Stored

namespace Trial

variable (t : Trial D)

/-- What was restored is the source with the dump. -/
def Exact (files : List Member) : Prop :=
  ∀ m, m ∈ files ↔ m ∈ t.source.files ∨ ∃ data, t.dump = some data ∧ m = (PG_REL, data)

/-- Nothing of the source stands in the way of the dump, and a file under its name is the dump. -/
def Clear : Prop :=
  ∀ data, t.dump = some data → ∀ m ∈ t.source.files,
    above m.1 PG_REL = false ∧ above PG_REL m.1 = false ∧ (m.1 = PG_REL → m.2 = data)

/-- Another archive under its own checksum, and files in it for all that the manifest names. -/
def Replaced (st : Stored D) : Prop :=
  ∃ archive members files, t.opened T st.copy = some archive ∧ archive ≠ T.pack t.members ∧
    st.archiveChecksum = T.sha256 archive ∧ T.unpack archive = some members ∧ extractAll members = some files ∧
      Fits T t.host files st.fileManifest

/-- The archive that was recorded under its checksum, which can be extracted, and a manifest with nothing untrue: what
differs are entries left out or named otherwise, checksums that the drill does not read, or the encryption. -/
def Unread (st : Stored D) : Prop :=
  t.opened T st.copy = some (T.pack t.members) ∧ st.archiveChecksum = T.sha256 (T.pack t.members) ∧
    ∃ files, extractAll t.members = some files ∧ Fits T t.host files st.fileManifest

end Trial

theorem store_self (s : Service D) (key : Key) (data : Bytes) : (store s key data).storage key = some data :=
  Function.update_self ..

theorem store_ne (s : Service D) {key key' : Key} (data : Bytes) (h : key' ≠ key) :
    (store s key data).storage key' = s.storage key' :=
  Function.update_of_ne h ..

theorem register_store_self (s : Service D) (key : Key) (data : Bytes) (r : BackupSnapshot D) :
    (register (store s key data) r).storage key = some data :=
  store_self s key data

theorem register_store_ne (s : Service D) {key key' : Key} (data : Bytes) (r : BackupSnapshot D) (h : key' ≠ key) :
    (register (store s key data) r).storage key' = s.storage key' :=
  store_ne s data h

theorem activeTar_place (st : Stored D) (s : Service D) {r : BackupSnapshot D} (fromTier encKey : String)
    (hr2 : fromTier = "r2" → ∃ key, r.r2ObjectKey = some key)
    (honprem : fromTier = "onprem" → ∃ key, r.onpremLocation = some key)
    (hplain : r.storageLocation.isEncrypted = false) :
    activeTar T (st.place s r fromTier) (st.record r) fromTier encKey =
      if fromTier = "r2" ∨ fromTier = "onprem" then T.decrypt encKey st.copy else some st.copy := by
  unfold activeTar Stored.place BackupSnapshot.copyKey Stored.record
  dsimp only
  by_cases h : fromTier = "r2"
  · obtain ⟨key, hkey⟩ := hr2 h
    rw [if_pos h, if_pos h, if_pos (Or.inl h), hkey, Option.bind_some, Option.getD_some, Function.update_self,
      Option.bind_some]
  · rw [if_neg h, if_neg h]
    by_cases h' : fromTier = "onprem"
    · obtain ⟨key, hkey⟩ := honprem h'
      rw [if_pos h', if_pos h', if_pos (Or.inr h'), hkey, Option.bind_some, Option.getD_some, Function.update_self,
        Option.bind_some]
    · rw [if_neg h', if_neg h', if_neg (not_or.mpr ⟨h, h'⟩), hplain, Bool.and_false, if_neg Bool.false_ne_true,
        Function.update_self]

namespace Trial

variable {T} {t : Trial D}

theorem members_none (h : t.dump = none) : t.members = t.source.files := by
  rw [members, h, Option.map_none, Option.toList_none, List.append_nil]

theorem members_some {data : Bytes} (h : t.dump = some data) : t.members = t.source.files ++ [(PG_REL, data)] := by
  rw [members, h]
  rfl

structure Written (T : Tools D) (t : Trial D) (r : BackupSnapshot D) (s : Service D) : Prop where
  archiveChecksum : r.archiveChecksum = T.sha256 (T.pack t.members)
  fileManifest : r.fileManifest = manifestOf T t.members
  stored : ∃ copy, s.storage (r.copyKey t.drillArgs.1) = some copy ∧ t.opened T copy = some (T.pack t.members)
  read : ∀ st : Stored D,
    activeTar T (st.place s r t.drillArgs.1) (st.record r) t.drillArgs.1 t.drillArgs.2 = t.opened T st.copy

theorem create_written (T : Tools D) (t : Trial D) : ∃ r s, t.create T = (some r, s) ∧ Written T t r s := by
  obtain ⟨service, projectId, now, own, source, kept, method, host⟩ := t
  cases method with
  | createBackup target =>
    have hmembers : source.members own = Trial.members ⟨service, projectId, now, own, source, kept,
        .createBackup target, host⟩ := (List.filter_eq_self.mpr kept).trans (List.append_nil _).symm
    refine ⟨_, _, rfl, congrArg (fun ms => T.sha256 (T.pack ms)) hmembers, congrArg (manifestOf T) hmembers,
      ⟨T.pack (source.members own), Function.update_self .., congrArg (fun ms => some (T.pack ms)) hmembers⟩, ?_⟩
    intro st
    exact activeTar_place T st _ "local" "" (fun h => absurd h (by decide)) (fun h => absurd h (by decide)) rfl
  | createThreeTierBackup dump encKey salt fromTier =>
    have hmembers : threeTierMembers source own dump = Trial.members ⟨service, projectId, now, own, source, kept,
        .createThreeTierBackup dump encKey salt fromTier, host⟩ :=
      congrArg (· ++ _) (List.filter_eq_self.mpr kept)
    refine ⟨_, _, rfl, congrArg (fun ms => T.sha256 (T.pack ms)) hmembers, congrArg (manifestOf T) hmembers, ?_, ?_⟩
    · rw [← hmembers]
      unfold BackupSnapshot.copyKey drillArgs opened
      dsimp only
      by_cases hr2 : fromTier = "r2"
      · refine ⟨T.encrypt encKey salt (T.pack (threeTierMembers source own dump)), ?_, ?_⟩
        · rw [if_pos hr2]
          exact (register_store_ne _ _ _ (by rintro ⟨⟩)).trans (store_self ..)
        · rw [if_pos (Or.inl hr2), T.decrypt_encrypt]
      · rw [if_neg hr2]
        by_cases honprem : fromTier = "onprem"
        · refine ⟨T.encrypt encKey salt (T.pack (threeTierMembers source own dump)), ?_, ?_⟩
          · rw [if_pos honprem]
            exact register_store_self ..
          · rw [if_pos (Or.inr honprem), T.decrypt_encrypt]
        · refine ⟨T.pack (threeTierMembers source own dump), ?_, ?_⟩
          · rw [if_neg honprem]
            exact (register_store_ne _ _ _ (by rintro ⟨⟩)).trans ((store_ne _ _ (by rintro ⟨⟩)).trans
              ((store_ne _ _ (by rintro ⟨⟩)).trans (store_self ..)))
          · rw [if_neg (not_or.mpr ⟨hr2, honprem⟩)]
    · intro st
      exact activeTar_place T st _ _ encKey (fun _ => ⟨_, rfl⟩) (fun _ => ⟨_, rfl⟩) rfl

theorem extract_members {files : List Member} (h : extractAll t.members = some files) :
    files = t.members.foldl (Lookup.put Prod.fst) [] :=
  extract_eq h

theorem extract_dump {data : Bytes} (h : t.dump = some data) :
    extractAll t.members = extractMember t.source.files (PG_REL, data) := by
  have hsource := t.source.extract
  unfold extractAll at hsource ⊢
  rw [members_some h, List.foldlM_append, hsource]
  exact bind_pure (extractMember t.source.files (PG_REL, data))

theorem proper_members : ∀ m ∈ t.members, Proper m.1 := by
  intro m hm
  unfold members at hm
  rcases List.mem_append.mp hm with hsource | hdump
  · exact t.source.named _ (List.mem_map_of_mem hsource)
  · rw [Option.mem_toList, Option.map_eq_some_iff] at hdump
    obtain ⟨data, -, rfl⟩ := hdump
    exact proper_dump

theorem fits_members {files : List Member} (h : extractAll t.members = some files) :
    Fits T t.host files (manifestOf T t.members) := by
  have hfiles := extract_members h
  rw [manifestOf_eq, ← hfiles]
  have hunique : Lookup.Unique Prod.fst files := by
    rw [hfiles]
    exact Lookup.unique_foldl (fun _ m hrows => Lookup.unique_put hrows m) _ List.nodup_nil
  refine fits_hashed T t.host hunique ?_
  intro m hm
  rw [hfiles] at hm
  exact proper_members m ((Lookup.mem_foldl_put hm).resolve_left List.not_mem_nil)

theorem exact_iff : (∃ files, extractAll t.members = some files ∧ t.Exact files) ↔ t.Clear := by
  unfold Exact Clear
  cases hdump : t.dump with
  | none =>
    refine iff_of_true ⟨t.source.files, ?_, fun m => ?_⟩ nofun
    · rw [members_none hdump]
      exact t.source.extract
    · exact ⟨Or.inl, fun h => h.resolve_right nofun⟩
  | some data =>
    rw [extract_dump hdump]
    unfold extractMember
    have hput : ∀ m, m ∈ Lookup.put Prod.fst t.source.files (PG_REL, data) ↔
        if PG_REL = m.1 then (PG_REL, data) = m else m ∈ t.source.files := by
      intro m
      have hmem : _ = some m ↔ _ ∧ m.1 = m.1 := Lookup.get_eq_some (Lookup.unique_put t.source.unique (PG_REL, data))
      rw [and_iff_left rfl, Lookup.get_put] at hmem
      rw [← hmem]
      split
      · exact Option.some_inj
      · rw [Lookup.get_eq_some t.source.unique, and_iff_left rfl]
    constructor
    · rintro ⟨files, hfiles, hexact⟩
      split at hfiles
      · cases hfiles
      · rename_i hany
        rw [← Option.some.inj hfiles] at hexact
        rintro _ ⟨⟩ m hm
        have hclear : ¬ (above m.1 PG_REL || above PG_REL m.1) = true :=
          fun h => hany (List.any_eq_true.mpr ⟨m, hm, h⟩)
        rw [Bool.not_eq_true, Bool.or_eq_false_iff] at hclear
        refine ⟨hclear.1, hclear.2, fun hname => ?_⟩
        have hrestored := (hput m).mp ((hexact m).mpr (Or.inl hm))
        rw [if_pos hname.symm] at hrestored
        rw [← hrestored]
    · intro hclear
      rw [if_neg]
      · refine ⟨_, rfl, fun m => ?_⟩
        rw [hput]
        split
        · rename_i hname
          constructor
          · intro h
            exact Or.inr ⟨data, rfl, h.symm⟩
          · rintro (hm | ⟨_, ⟨⟩, h⟩)
            · rw [← (hclear data rfl m hm).2.2 hname.symm, hname]
            · exact h.symm
        · rename_i hname
          refine ⟨Or.inl, ?_⟩
          rintro (hm | ⟨_, -, rfl⟩)
          · exact hm
          · exact absurd rfl hname
      · rw [List.any_eq_true]
        rintro ⟨m, hm, habove⟩
        rw [(hclear data rfl m hm).1, (hclear data rfl m hm).2.1] at habove
        cases habove

end Trial

variable [DecidableEq D]

theorem verifyManifest_none (host : RelPath → Option Bytes) (files : List Member) (manifest : List (RelPath × D)) :
    (verifyManifest T host files manifest).2 = none ↔ Fits T host files manifest := by
  induction manifest with
  | nil => exact iff_of_true rfl (List.forall_mem_nil _)
  | cons e manifest ih =>
    obtain ⟨relPath, expectedHash⟩ := e
    unfold Fits verifyManifest
    rw [List.forall_mem_cons]
    dsimp only
    split
    · rename_i hfile
      refine iff_of_false nofun ?_
      rintro ⟨⟨data, hdata, -⟩, -⟩
      rw [hfile] at hdata
      cases hdata
    · rename_i data hfile
      rw [hfile]
      split
      · rename_i hhash
        refine iff_of_false nofun ?_
        rintro ⟨⟨data', hdata, hequal⟩, -⟩
        rw [Option.some.inj hdata] at hhash
        exact hhash hequal
      · rename_i hhash
        rw [ih]
        exact (and_iff_right ⟨data, rfl, not_not.mp hhash⟩).symm

theorem drill_success (host : RelPath → Option Bytes) (s : Service D) (r : BackupSnapshot D)
    (fromTier encKey : String) (files : List Member) :
    (∃ result, drill T host s r fromTier encKey = some (result, files) ∧ result.success = true) ↔
      ∃ archive members, activeTar T s r fromTier encKey = some archive ∧ T.sha256 archive = r.archiveChecksum ∧
        T.unpack archive = some members ∧ extractAll members = some files ∧ Fits T host files r.fileManifest := by
  unfold drill
  simp only [Option.bind_eq_bind]
  constructor
  · rintro ⟨result, hdrill, hsuccess⟩
    obtain ⟨archive, harchive, hdrill⟩ := Option.bind_eq_some_iff.mp hdrill
    split at hdrill
    · cases hdrill
      cases hsuccess
    · rename_i hchecksum
      obtain ⟨members, hmembers, hdrill⟩ := Option.bind_eq_some_iff.mp hdrill
      obtain ⟨files', hfiles, hdrill⟩ := Option.bind_eq_some_iff.mp hdrill
      cases hdrill
      have hfits := (verifyManifest_none T host files r.fileManifest).mp (Option.isNone_iff_eq_none.mp hsuccess)
      exact ⟨archive, members, harchive, not_not.mp hchecksum, hmembers, hfiles, hfits⟩
  · rintro ⟨archive, members, harchive, hchecksum, hmembers, hfiles, hfits⟩
    rw [harchive, Option.bind_some, if_neg (not_not.mpr hchecksum), hmembers, Option.bind_some, hfiles,
      Option.bind_some]
    refine ⟨_, rfl, ?_⟩
    dsimp only
    rw [(verifyManifest_none T host files r.fileManifest).mpr hfits]
    rfl

namespace Trial

variable {T} {t : Trial D}

theorem outcome_eq (st : Stored D) (s : Service D) (r : BackupSnapshot D) :
    (runRestoreDrill T t.host (st.place s r t.drillArgs.1) r.snapshotId t.drillArgs.1 t.drillArgs.2).1 =
      drill T t.host (st.place s r t.drillArgs.1) (st.record r) t.drillArgs.1 t.drillArgs.2 := by
  have hget : Lookup.get BackupSnapshot.snapshotId (st.place s r t.drillArgs.1).snapshots r.snapshotId =
      some (st.record r) := by
    unfold Stored.place
    dsimp only
    rw [Lookup.get_put]
    exact if_pos rfl
  unfold runRestoreDrill
  rw [hget, Option.bind_some]
  split
  · rename_i houtcome
    exact houtcome.symm
  · rename_i houtcome
    exact houtcome.symm

theorem success_iff {r : BackupSnapshot D} {s : Service D} (hwritten : Written T t r s) (st : Stored D)
    (files : List Member) :
    (∃ result, drill T t.host (st.place s r t.drillArgs.1) (st.record r) t.drillArgs.1 t.drillArgs.2 =
        some (result, files) ∧ result.success = true) ↔
      ∃ archive members, t.opened T st.copy = some archive ∧ T.sha256 archive = st.archiveChecksum ∧
        T.unpack archive = some members ∧ extractAll members = some files ∧ Fits T t.host files st.fileManifest := by
  rw [drill_success, hwritten.read]
  rfl

theorem success_unaltered {r : BackupSnapshot D} {s : Service D} (hwritten : Written T t r s) {st : Stored D}
    (hsame : ¬ st.Altered s r t.drillArgs.1) (files : List Member) :
    (∃ result, drill T t.host (st.place s r t.drillArgs.1) (st.record r) t.drillArgs.1 t.drillArgs.2 =
        some (result, files) ∧ result.success = true) ↔ extractAll t.members = some files := by
  unfold Stored.Altered at hsame
  simp only [not_or, not_not] at hsame
  obtain ⟨hcopy, hchecksum, -, -, hmanifest⟩ := hsame
  obtain ⟨copy, hstored, hopened⟩ := hwritten.stored
  have heq : copy = st.copy := Option.some.inj (hstored.symm.trans hcopy)
  rw [success_iff hwritten, ← heq, hopened, hchecksum, hwritten.archiveChecksum]
  constructor
  · rintro ⟨archive, members, harchive, -, hunpack, hfiles, -⟩
    rw [← Option.some.inj harchive, T.unpack_pack] at hunpack
    rw [Option.some.inj hunpack]
    exact hfiles
  · intro hfiles
    refine ⟨_, _, rfl, rfl, T.unpack_pack _, hfiles, ?_⟩
    intro e he
    have hrecorded := (hmanifest e).mp he
    rw [hwritten.fileManifest] at hrecorded
    exact fits_members hfiles e hrecorded

theorem success_kinds {r : BackupSnapshot D} {s : Service D} (hwritten : Written T t r s) (st : Stored D) :
    (∃ files result, drill T t.host (st.place s r t.drillArgs.1) (st.record r) t.drillArgs.1 t.drillArgs.2 =
        some (result, files) ∧ result.success = true) ↔ t.Replaced T st ∨ t.Unread T st := by
  simp only [success_iff hwritten]
  constructor
  · rintro ⟨files, archive, members, hopened, hchecksum, hunpack, hfiles, hfits⟩
    by_cases hsame : archive = T.pack t.members
    · subst hsame
      rw [T.unpack_pack] at hunpack
      rw [← Option.some.inj hunpack] at hfiles
      exact Or.inr ⟨hopened, hchecksum.symm, files, hfiles, hfits⟩
    · exact Or.inl ⟨archive, members, files, hopened, hsame, hchecksum.symm, hunpack, hfiles, hfits⟩
  · rintro (⟨archive, members, files, hopened, -, hchecksum, hunpack, hfiles, hfits⟩ |
      ⟨hopened, hchecksum, files, hfiles, hfits⟩)
    · exact ⟨files, archive, members, hopened, hchecksum.symm, hunpack, hfiles, hfits⟩
    · exact ⟨files, _, _, hopened, hchecksum.symm, T.unpack_pack _, hfiles, hfits⟩

end Trial

/-- The drill succeeds on what was recorded and restores it, and fails on what was altered. -/
def Trial.Agrees (T : Tools D) (t : Trial D) (st : Stored D) : Prop :=
  ∀ r s, t.create T = (some r, s) →
    let outcome := (runRestoreDrill T t.host (st.place s r t.drillArgs.1) r.snapshotId t.drillArgs.1 t.drillArgs.2).1
    (¬ st.Altered s r t.drillArgs.1 →
      ∃ result files, outcome = some (result, files) ∧ result.success = true ∧ t.Exact files) ∧
    (st.Altered s r t.drillArgs.1 → ∀ result files, outcome = some (result, files) → result.success = false)

theorem clear_of_agrees {T : Tools D} {t : Trial D} (h : ∀ st, t.Agrees T st) : t.Clear := by
  obtain ⟨r, s, hcreate, hwritten⟩ := t.create_written T
  obtain ⟨copy, hstored, -⟩ := hwritten.stored
  have hrecorded : ¬ Stored.Altered ⟨copy, r.archiveChecksum, r.encryptedArchiveChecksum, r.postgresDumpChecksum,
      r.fileManifest⟩ s r t.drillArgs.1 := by
    rintro (hcopy | hne | hne | hne | hne)
    · exact hcopy hstored
    · exact hne rfl
    · exact hne rfl
    · exact hne rfl
    · exact hne fun _ => Iff.rfl
  obtain ⟨result, files, hdrill, hsuccess, hexact⟩ := (h _ r s hcreate).1 hrecorded
  rw [Trial.outcome_eq] at hdrill
  exact Trial.exact_iff.mp ⟨files, (Trial.success_unaltered hwritten hrecorded files).mp ⟨result, hdrill, hsuccess⟩,
    hexact⟩

/-- The drill on a record agrees with the backup exactly if the source is clear of the dump when nothing was altered,
and what was altered is neither another archive put in whole nor something the drill does not read. -/
theorem drill_agrees (T : Tools D) (t : Trial D) (st : Stored D) :
    t.Agrees T st ↔ ∀ r s, t.create T = (some r, s) →
      (¬ st.Altered s r t.drillArgs.1 → t.Clear) ∧
        (st.Altered s r t.drillArgs.1 → ¬ t.Replaced T st ∧ ¬ t.Unread T st) := by
  unfold Trial.Agrees
  refine forall_congr' fun r => forall_congr' fun s => forall_congr' fun hcreate => ?_
  obtain ⟨r', s', hcreate', hwritten⟩ := t.create_written T
  rw [hcreate] at hcreate'
  cases hcreate'
  dsimp only
  rw [Trial.outcome_eq]
  refine and_congr (forall_congr' fun hsame => ?_) (forall_congr' fun _ => ?_)
  · rw [← Trial.exact_iff]
    constructor
    · rintro ⟨result, files, hdrill, hsuccess, hexact⟩
      exact ⟨files, (Trial.success_unaltered hwritten hsame files).mp ⟨result, hdrill, hsuccess⟩, hexact⟩
    · rintro ⟨files, hfiles, hexact⟩
      obtain ⟨result, hdrill, hsuccess⟩ := (Trial.success_unaltered hwritten hsame files).mpr hfiles
      exact ⟨result, files, hdrill, hsuccess, hexact⟩
  · rw [← not_or, ← Trial.success_kinds hwritten st]
    constructor
    · rintro hfails ⟨files, result, hdrill, hsuccess⟩
      rw [hfails result files hdrill] at hsuccess
      cases hsuccess
    · intro hnever result files hdrill
      rw [← Bool.not_eq_true]
      exact fun hsuccess => hnever ⟨files, result, hdrill, hsuccess⟩

end

def dumpedSource : SourceTree := ⟨[(PG_REL, [1])], by decide, by decide, by decide⟩

def dumpedTrial : Trial Bytes where
  service := emptyWorld.service
  projectId := "shop"
  now := 0
  own := []
  source := dumpedSource
  kept := by decide
  method := .createThreeTierBackup (some [2]) "key" 0 "local"
  host _ := none

/-- The project's own `database/postgres_dump.sql` is overwritten by the dump. -/
theorem dump_overwrites_source : ¬ ∀ st, dumpedTrial.Agrees plainTools st := by
  intro h
  have hclear := (clear_of_agrees h [2] rfl (PG_REL, [1]) List.mem_cons_self).2.2 rfl
  exact absurd hclear (by decide)

end BackupService
end Infra
end DarkFactory
