import DarkFactory.Enterprise.AuditChain
import DarkFactory.Lib.Runs

/-!
# DarkFactory.Enterprise.Binding

What an accepted audit log says about its records.
-/

namespace DarkFactory
namespace Enterprise
namespace ImmutableAuditChain

variable {sha256 : String → String}

/-- The events from number `idx` on, after the hash `prev`. -/
def Intact (sha256 : String → String) : Nat → String → List AuditEvent → Prop
  | _, _, [] => True
  | idx, prev, e :: rest =>
    e.sequence = idx ∧ e.prevHash = prev ∧ sha256 (canonical e) = e.eventHash ∧
      Intact sha256 (idx + 1) e.eventHash rest

variable {idx : Nat} {prev : String} {events : List AuditEvent}

theorem checkChain_eq_none {total : Nat} :
    checkChain sha256 total idx prev events = none ↔ Intact sha256 idx prev events := by
  induction events generalizing idx prev with
  | nil => exact iff_of_true rfl trivial
  | cons e rest ih =>
    unfold checkChain Intact
    split
    · rename_i h
      exact iff_of_false (by simp) fun hi => h hi.1
    · rename_i hseq
      split
      · rename_i h
        exact iff_of_false (by simp) fun hi => h hi.2.1
      · rename_i hprev
        split
        · rename_i h
          exact iff_of_false (by simp) fun hi => h hi.2.2.1
        · rename_i hhash
          rw [ih]
          exact ⟨fun hi => ⟨not_not.mp hseq, not_not.mp hprev, not_not.mp hhash, hi⟩, fun hi => hi.2.2.2⟩

theorem checkChain_invalid {total : Nat}
    {r : AuditChainVerificationResult} (h : checkChain sha256 total idx prev events = some r) :
    r.isValid = false := by
  induction events generalizing idx prev with
  | nil => cases h
  | cons e rest ih =>
    unfold checkChain at h
    split at h
    · cases h
      rfl
    · split at h
      · cases h
        rfl
      · split at h
        · cases h
          rfl
        · exact ih h

theorem verifyIntegrity_valid {projectId : Option String} {log : LogFile} :
    (verifyIntegrity sha256 projectId log).isValid = true ↔
      ∃ events, readStrict log = .ok events ∧ Intact sha256 0 genesisHash events := by
  unfold verifyIntegrity
  split
  · rename_i err herr
    rw [herr]
    exact iff_of_false (by simp) fun ⟨_, h, _⟩ => by cases h
  · rename_i hnil
    rw [hnil]
    exact iff_of_true rfl ⟨[], rfl, trivial⟩
  · rename_i evt rest hread
    rw [hread]
    split
    · rename_i violation hv
      refine iff_of_false (by simp [checkChain_invalid hv]) fun ⟨events, he, hi⟩ => ?_
      cases he
      rw [checkChain_eq_none.mpr hi] at hv
      cases hv
    · rename_i hnone
      exact iff_of_true rfl ⟨_, rfl, checkChain_eq_none.mp hnone⟩

open HashChain

theorem Intact.linked (h : Intact sha256 idx prev events) :
    Linked canonical AuditEvent.prevHash AuditEvent.eventHash sha256 prev events := by
  induction events generalizing idx prev with
  | nil => trivial
  | cons e rest ih => exact ⟨h.2.1, h.2.2.1, ih h.2.2.2⟩

theorem Intact.append
    (h : Intact sha256 idx prev events) {e : AuditEvent} (hseq : e.sequence = ↑(idx + events.length))
    (hprev : e.prevHash = lastDigest AuditEvent.eventHash prev events)
    (hhash : sha256 (canonical e) = e.eventHash) : Intact sha256 idx prev (events ++ [e]) := by
  induction events generalizing idx prev with
  | nil => exact ⟨hseq, hprev, hhash, trivial⟩
  | cons a rest ih =>
    refine ⟨h.1, h.2.1, h.2.2.1, ih h.2.2.2 ?_ hprev⟩
    rw [hseq, List.length_cons]
    congr 1
    omega

theorem nextEvent_intact (actorId projectId action resource payload eid ts : String)
    {events : List AuditEvent} (h : Intact sha256 0 genesisHash events) :
    Intact sha256 0 genesisHash
      (events ++ [nextEvent sha256 actorId projectId action resource payload eid ts events]) := by
  refine h.append (by rw [Nat.zero_add]; rfl) ?_ rfl
  rw [lastDigest_eq]
  show lastHash events = _
  unfold lastHash
  split
  · rename_i e he
    rw [he]
    rfl
  · rename_i hnone
    rw [hnone]
    rfl

theorem recordEvent_absent (sha256 : String → String)
    (actorId projectId action resource payload eid ts path : String) :
    recordEvent sha256 actorId projectId action resource payload eid ts ⟨path, none⟩ =
      .ok (nextEvent sha256 actorId projectId action resource payload eid ts [], ⟨path, some
        [.event (nextEvent sha256 actorId projectId action resource payload eid ts [])]⟩) :=
  rfl

/-- The texts between the separators of the hashed string, but for the sequence and the hash at its
end. -/
def fields (e : AuditEvent) : List (List Char) :=
  [e.eventId.toList, e.actorId.toList, e.projectId.toList, e.action.toList, e.resource.toList,
    e.payloadHash.toList, e.timestamp.toList]

def SameBars (e e' : AuditEvent) : Prop :=
  List.Forall₂ (fun f f' => f.count '|' = f'.count '|') (fields e) (fields e')

theorem SameBars.refl (e : AuditEvent) : SameBars e e := List.forall₂_refl _

theorem canonical_toList (e : AuditEvent) :
    (canonical e).toList = joined '|' ((toString e.sequence).toList :: fields e) e.prevHash.toList := by
  have hid : ∀ s : String, toString s = s := fun _ => rfl
  have hbar : "|".toList = ['|'] := rfl
  unfold canonical
  simp only [hid]
  simp only [String.toList_append, hbar]
  simp only [fields, joined, List.append_assoc, List.cons_append, List.nil_append]

theorem fields_of_canonical {e e' : AuditEvent} (hseq : e.sequence = e'.sequence)
    (hbars : SameBars e e') (h : canonical e = canonical e') :
    fields e = fields e' ∧ e.prevHash = e'.prevHash := by
  have hj := congrArg String.toList h
  rw [canonical_toList, canonical_toList, hseq] at hj
  obtain ⟨hf, hp⟩ := joined_inj (.cons rfl hbars) hj
  exact ⟨(List.cons.inj hf).2, String.toList_inj.mp hp⟩

theorem eq_of_fields {e e' : AuditEvent} (hf : fields e = fields e')
    (hseq : e.sequence = e'.sequence) (hprev : e.prevHash = e'.prevHash)
    (hhash : e.eventHash = e'.eventHash) : e = e' := by
  simp only [fields, List.cons.injEq, String.toList_inj, and_true] at hf
  obtain ⟨h₁, h₂, h₃, h₄, h₅, h₆, h₇⟩ := hf
  cases e
  cases e'
  simp_all

theorem Intact.sequence_eq {prev' : String} {events' : List AuditEvent}
    (h : Intact sha256 idx prev events) (h' : Intact sha256 idx prev' events')
    (hbars : List.Forall₂ SameBars events events') :
    List.Forall₂ (fun e e' => e.sequence = e'.sequence ∧ SameBars e e') events events' := by
  induction hbars generalizing idx prev prev' with
  | nil => exact .nil
  | cons hab _ ih =>
    exact .cons ⟨h.1.trans h'.1.symm, hab⟩ (ih h.2.2.2 h'.2.2.2)

theorem Intact.eq_of_canonical {prev' : String} {events' : List AuditEvent}
    (h : Intact sha256 idx prev events) (h' : Intact sha256 idx prev' events')
    (hbars : List.Forall₂ SameBars events events')
    (hcanon : List.Forall₂ (fun e e' => canonical e = canonical e') events events') :
    events = events' := by
  induction hbars generalizing idx prev prev' with
  | nil => rfl
  | cons hab _ ih =>
    obtain ⟨hc, hcanon⟩ := List.forall₂_cons.mp hcanon
    have hseq := h.1.trans h'.1.symm
    obtain ⟨hf, hp⟩ := fields_of_canonical hseq hab hc
    have hhash := h.2.2.1.symm.trans ((congrArg sha256 hc).trans h'.2.2.1)
    rw [eq_of_fields hf hseq hp hhash, ih h.2.2.2 h'.2.2.2 hcanon]

/-- Two accepted logs of one length with one last hash. The last hash binds the hashed strings, and
these bind the records up to where the separators stand. -/
theorem records_bound_iff (hsha : Function.Injective sha256) {projectId projectId' : Option String}
    {log log' : LogFile} {events events' : List AuditEvent}
    (hread : readStrict log = .ok events) (hread' : readStrict log' = .ok events')
    (hvalid : (verifyIntegrity sha256 projectId log).isValid = true)
    (hvalid' : (verifyIntegrity sha256 projectId' log').isValid = true)
    (hlen : events.length = events'.length)
    (hlast : events.getLast?.map AuditEvent.eventHash = events'.getLast?.map AuditEvent.eventHash) :
    events = events' ↔ List.Forall₂ SameBars events events' := by
  obtain ⟨_, hr, h⟩ := verifyIntegrity_valid.mp hvalid
  obtain ⟨_, hr', h'⟩ := verifyIntegrity_valid.mp hvalid'
  rw [hread] at hr
  rw [hread'] at hr'
  cases hr
  cases hr'
  constructor
  · rintro rfl
    exact List.forall₂_same.mpr fun e _ => .refl e
  · intro hbars
    have hprev : List.Forall₂ (fun e e' => canonical e = canonical e' → e.prevHash = e'.prevHash)
        events events' := by
      refine List.Forall₂.imp ?_ (h.sequence_eq h' hbars)
      intro e e' hs hc
      exact (fields_of_canonical hs.1 hs.2 hc).2
    have hdigest : lastDigest AuditEvent.eventHash genesisHash events =
        lastDigest AuditEvent.eventHash genesisHash events' := by
      rw [lastDigest_eq, lastDigest_eq, hlast]
    exact h.eq_of_canonical h' hbars (h.linked.binds hsha h'.linked hprev hdigest).2

/-! A stand-in for SHA-256 with the true digests of the two texts below. -/

def sessionCanonical : String :=
  "0|evt_1|a|b|c|login|console|e3b0c44298fc1c149afbf4c8996fb92427ae41e4649b934ca495991b7852b855|" ++
    "2026-01-01T00:00:00+00:00|0000000000000000000000000000000000000000000000000000000000000000"

def digest (s : String) : String :=
  if s = sessionCanonical then "7906600cd9212de4841b7f7293ab36e8346c9c1e945d51880ca30579d5b324f6"
  else if s = "" then "e3b0c44298fc1c149afbf4c8996fb92427ae41e4649b934ca495991b7852b855"
  else "sha256:" ++ s

theorem digest_injective : Function.Injective digest := by
  have hne : ∀ {s t : String} {c : Char}, t.toList.head? = some c → c ≠ 's' → "sha256:" ++ s ≠ t := by
    rintro s t c ht hc rfl
    rw [String.toList_append, String.toList_ofList] at ht
    exact hc (Option.some.inj ht).symm
  have hsession : ("7906600cd9212de4841b7f7293ab36e8346c9c1e945d51880ca30579d5b324f6".toList).head? = some '7' := by
    rw [String.toList_ofList]
    rfl
  have hempty : ("e3b0c44298fc1c149afbf4c8996fb92427ae41e4649b934ca495991b7852b855".toList).head? = some 'e' := by
    rw [String.toList_ofList]
    rfl
  intro s t h
  unfold digest at h
  split at h
  · rename_i hs
    split at h
    · rename_i ht
      rw [hs, ht]
    · split at h
      · rw [h, hempty] at hsession
        exact absurd hsession (by decide)
      · exact absurd h.symm (hne hsession (by decide))
  · split at h
    · rename_i hs
      split at h
      · rw [← h, hempty] at hsession
        exact absurd hsession (by decide)
      · split at h
        · rename_i ht
          rw [hs, ht]
        · exact absurd h.symm (hne hempty (by decide))
    · split at h
      · exact absurd h (hne hsession (by decide))
      · split at h
        · exact absurd h (hne hempty (by decide))
        · have hl := congrArg String.toList h
          rw [String.toList_append, String.toList_append] at hl
          exact String.toList_inj.mp (List.append_cancel_left hl)

def emptyLog : LogFile := ⟨"audit_trail.jsonl", none⟩

def sessionEvent : AuditEvent :=
  nextEvent digest "a|b" "c" "login" "console" "" "evt_1" "2026-01-01T00:00:00+00:00" []

def sessionLog : LogFile := { emptyLog with lines := some [.event sessionEvent] }

/-- The actor `a|b` on project `c` becomes the actor `a` on project `b|c`. -/
def editedEvent : AuditEvent := { sessionEvent with actorId := "a", projectId := "b|c" }

def editedLog : LogFile := { emptyLog with lines := some [.event editedEvent] }

def spacedLog : LogFile := { emptyLog with lines := some [.blank, .event sessionEvent] }

theorem session_intact : Intact digest 0 genesisHash [sessionEvent] :=
  nextEvent_intact "a|b" "c" "login" "console" "" "evt_1" "2026-01-01T00:00:00+00:00"
    (show Intact digest 0 genesisHash [] from trivial)

theorem canonical_moved (sha256 : String → String) (action resource payload eid ts : String)
    (events : List AuditEvent) :
    canonical { nextEvent sha256 "a|b" "c" action resource payload eid ts events with
      actorId := "a", projectId := "b|c" } =
        canonical (nextEvent sha256 "a|b" "c" action resource payload eid ts events) := by
  have hmoved : ∀ start : String, start ++ "a" ++ "|" ++ "b|c" = start ++ "a|b" ++ "|" ++ "c" := by
    intro start
    have hclosed : "a" ++ ("|" ++ "b|c") = "a|b" ++ ("|" ++ "c") := by decide
    simp only [String.append_assoc, hclosed]
  unfold canonical nextEvent
  simp only [toString, hmoved]

theorem records_bound_session :
    [sessionEvent] = [sessionEvent] ↔ List.Forall₂ SameBars [sessionEvent] [sessionEvent] := by
  have hread : readStrict sessionLog = .ok [sessionEvent] := rfl
  have hread' : readStrict spacedLog = .ok [sessionEvent] := rfl
  have hvalid : (verifyIntegrity digest none sessionLog).isValid = true :=
    verifyIntegrity_valid.mpr ⟨_, hread, session_intact⟩
  have hvalid' : (verifyIntegrity digest none spacedLog).isValid = true :=
    verifyIntegrity_valid.mpr ⟨_, hread', session_intact⟩
  exact records_bound_iff digest_injective hread hread' hvalid hvalid' rfl rfl

theorem edit_accepted :
    Function.Injective digest ∧
      recordEvent digest "a|b" "c" "login" "console" "" "evt_1" "2026-01-01T00:00:00+00:00"
        emptyLog = .ok (sessionEvent, sessionLog) ∧
      (verifyIntegrity digest none sessionLog).isValid = true ∧
      (verifyIntegrity digest none editedLog).isValid = true ∧
      editedEvent.eventHash = sessionEvent.eventHash ∧ editedEvent ≠ sessionEvent := by
  have hread : readStrict sessionLog = .ok [sessionEvent] := rfl
  have hread' : readStrict editedLog = .ok [editedEvent] := rfl
  have hsame : editedEvent.eventHash = sessionEvent.eventHash := by simp only [editedEvent]
  refine ⟨digest_injective, recordEvent_absent _ _ _ _ _ _ _ _ _,
    verifyIntegrity_valid.mpr ⟨_, hread, session_intact⟩, verifyIntegrity_valid.mpr ⟨_, hread', ?_⟩, ?_, ?_⟩
  · obtain ⟨hsequence, hprev, hhash, -⟩ := session_intact
    have hcanonical : canonical editedEvent = canonical sessionEvent := canonical_moved digest _ _ _ _ _ _
    exact ⟨hsequence, hprev, (congrArg digest hcanonical).trans (hhash.trans hsame.symm), trivial⟩
  · exact hsame
  · intro h
    exact absurd (congrArg AuditEvent.actorId h) (by decide)

/-- The arguments of one `record_event`, with the id and the time that it draws. -/
structure Record where
  actorId : String
  projectId : String
  action : String
  resource : String
  payload : String
  eventId : String
  timestamp : String

/-- A call that raises leaves the file. -/
def record (sha256 : String → String) (log : LogFile) (r : Record) : LogFile :=
  match recordEvent sha256 r.actorId r.projectId r.action r.resource r.payload r.eventId r.timestamp log with
  | .ok (_, log') => log'
  | .error _ => log

def Record.Stored (sha256 : String → String) (r : Record) (e : AuditEvent) : Prop :=
  fields e = [r.eventId.toList, r.actorId.toList, r.projectId.toList, r.action.toList, r.resource.toList,
    (sha256 r.payload).toList, r.timestamp.toList]

theorem readLines_append {path : String} {lines : List Line} (h : readLines path idx lines = .ok events)
    (e : AuditEvent) : readLines path idx (lines ++ [.event e]) = .ok (events ++ [e]) := by
  induction lines generalizing idx events with
  | nil =>
    cases h
    rfl
  | cons line rest ih =>
    cases line with
    | blank => exact ih h
    | event a =>
      simp only [readLines, List.cons_append] at h ⊢
      split at h
      · rename_i events' h'
        cases h
        rw [ih h']
        rfl
      · cases h
    | malformed exc => cases h
    | unreadable exc => cases h

theorem records_intact (records : List Record) {log : LogFile} (hread : readStrict log = .ok events)
    (h : Intact sha256 0 genesisHash events) :
    ∃ added, readStrict (Runs.run (record sha256) log records) = .ok (events ++ added) ∧
      Intact sha256 0 genesisHash (events ++ added) ∧ List.Forall₂ (Record.Stored sha256) records added := by
  induction records generalizing log events with
  | nil => exact ⟨[], by rw [List.append_nil]; exact hread, by rwa [List.append_nil], .nil⟩
  | cons r records ih =>
    have hnext : readStrict (record sha256 log r) = .ok (events ++
        [nextEvent sha256 r.actorId r.projectId r.action r.resource r.payload r.eventId r.timestamp events]) := by
      unfold record recordEvent
      rw [hread]
      unfold readStrict at hread ⊢
      split at hread
      · rename_i hnone
        cases hread
        simp [hnone, readLines]
      · rename_i lines hlines
        simp only [hlines, Option.getD_some]
        exact readLines_append hread _
    obtain ⟨added, hread', hintact, hstored⟩ := ih hnext (nextEvent_intact _ _ _ _ _ _ _ h)
    rw [List.append_assoc] at hread' hintact
    exact ⟨_, hread', hintact, .cons rfl hstored⟩

/-- A log that was only recorded to is accepted, has every record, and has kept what was there before. -/
theorem recorded_log_accepted (sha256 : String → String) (path : String) (projectId : Option String)
    (earlier later : List Record) :
    let log := Runs.run (record sha256) ⟨path, none⟩ earlier
    let log' := Runs.run (record sha256) log later
    (verifyIntegrity sha256 projectId log').isValid = true ∧
      ∃ events added, readStrict log = .ok events ∧ readStrict log' = .ok (events ++ added) ∧
        List.Forall₂ (Record.Stored sha256) earlier events ∧ List.Forall₂ (Record.Stored sha256) later added := by
  intro log log'
  obtain ⟨events, hread, hintact, hstored⟩ := @records_intact sha256 [] earlier ⟨path, none⟩ rfl trivial
  obtain ⟨added, hread', hintact', hstored'⟩ := records_intact later hread hintact
  exact ⟨verifyIntegrity_valid.mpr ⟨_, hread', hintact'⟩, events, added, hread, hread', hstored, hstored'⟩

end ImmutableAuditChain
end Enterprise
end DarkFactory
