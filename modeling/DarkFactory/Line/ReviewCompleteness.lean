import DarkFactory.Lib.Calls
import DarkFactory.Line.ReviewPayload

/-!
# DarkFactory.Line.ReviewCompleteness

What a review payload says about the changed paths.

* `Represented` — one item of the manifest bears the path, the digest of its file and a cut of its redacted text.
* `Reviewed` — the promises of a payload.
* `Plain` — a path that cannot be read, or is filed under its own name and under no other file's.
-/

namespace DarkFactory
namespace Line
namespace ReviewPayload

open Python

section

variable {Digest : Type} (h : Host Digest) (t : Tree)

def ownFile (p : List Char) : Option (List UInt8) :=
  match t.resolve p with
  | .inside display =>
    match t.source display with
    | .bytes raw => some raw
    | _ => none
  | _ => none

def Represented (payload : Payload Digest) (p : List Char) : Prop :=
  ∃ raw text piece, ownFile t p = some raw ∧ decodeUtf8 raw = some text ∧
    (payload.slices.zip payload.manifest).filter (fun piece => decide (piece.2.path = p)) = [piece] ∧
    piece.1.path = p ∧ piece.2.sha256 = h.sha256 raw ∧ piece.1.text <+: h.redactSecrets text ∧
    (piece.2.truncated = false → piece.1.text = h.redactSecrets text)

def Holds (fields : List (String × JsonValue)) (c : String) : Prop :=
  ∃ key ∈ criteriaKeys, ∃ items, JsonValue.field fields key = some (.arr items) ∧ JsonValue.str c ∈ items

inductive Criterion : JsonValue → String → Prop where
  | listed {items : List JsonValue} {c : String} : JsonValue.str c ∈ items → Criterion (.arr items) c
  | entry {items : List JsonValue} {fields : List (String × JsonValue)} {c : String} :
      JsonValue.obj fields ∈ items → Holds fields c → Criterion (.arr items) c
  | beside {fields : List (String × JsonValue)} {c : String} : Holds fields c → Criterion (.obj fields) c
  | tickets {fields : List (String × JsonValue)} {items : List JsonValue} {c : String} :
      JsonValue.field fields "tickets" = some (.arr items) → Criterion (.arr items) c → Criterion (.obj fields) c

def Reason.About (p : List Char) : Reason → Prop
  | .changedUnreadable display => locate t p = .file display
  | .changedOutside label => outsideLabel t p = some label
  | _ => False

def Cut (text slice : List Char) : Prop :=
  ∃ cut, cut <+: Redaction.redact Prod.fst (Redaction.marked redactedMark) h.patterns (Redaction.positions text) ∧
    cut.map Prod.fst = slice ∧
    ∀ c i, (c, some i) ∈
      Redaction.hidden Prod.fst (Redaction.marked redactedMark) h.patterns (Redaction.positions text) →
      ∀ c', (c', some i) ∉ cut

def bytes (text : List Char) : Nat := (encode text).length

structure Reviewed (paths : List (List Char)) (item total : Int) (payload : Payload Digest) : Prop where
  represented : payload.complete = true → ∀ p ∈ paths, Represented h t payload p
  criteria : payload.complete = true → ∃ raw text v, t.tickets = .bytes raw ∧ decodeUtf8 raw = some text ∧
    h.loads text = .value v ∧ ∀ c, Criterion v c → Text.stripList c.toList ≠ [] →
      h.redactSecrets (h.redactSecrets (Text.stripList c.toList)) ∈ payload.criteria
  reasons : ∀ p ∈ paths, ¬ Represented h t payload p → ∃ r ∈ payload.reasons, r.About t p
  itemBudget : ∀ sl ∈ payload.slices, (bytes sl.text : Int) ≤ item
  totalBudget : (((payload.slices.map fun sl => bytes sl.text).sum + (payload.criteria.map bytes).sum : Nat) : Int) ≤ total
  cuts : ∀ piece ∈ payload.slices.zip payload.manifest, ∃ raw text, piece.2.sha256 = h.sha256 raw ∧
    decodeUtf8 raw = some text ∧ piece.2.bytesIncluded = bytes piece.1.text ∧ Cut h text piece.1.text
  order : ∀ paths', paths'.Perm paths → buildReviewPayload h t paths' item total = some payload

def filedAt (name : List Char) : Source → Option (List Char × List UInt8)
  | .bytes raw => if (decodeUtf8 raw).isSome then some (name, raw) else none
  | _ => none

def filedDisplays (displays : List (List Char)) : List (List Char × List UInt8) :=
  displays.filterMap fun display => filedAt display (t.source display)

def filed (paths : List (List Char)) : List (List Char × List UInt8) :=
  (filedAt contextSpecPath t.spec).toList ++ (filedAt contextTicketsPath t.tickets).toList ++
    filedDisplays t (sortedSet (paths.filterMap (displayOf t)))

def Unread (p : List Char) : Prop := ∀ display, displayOf t p = some display → filedAt display (t.source display) = none

def Plain (paths : List (List Char)) (p : List Char) : Prop :=
  Unread t p ∨ ∃ raw, ownFile t p = some raw ∧ (filed t paths).filter (fun e => decide (e.1 = p)) = [(p, raw)]

end

section

variable {Digest : Type} {h : Host Digest} {t : Tree}

theorem cutUtf8_spec (text : List Char) (budget : Nat) :
    (cutUtf8 text budget).1 <+: text ∧ bytes (cutUtf8 text budget).1 ≤ budget ∧
      ((cutUtf8 text budget).2 = false → (cutUtf8 text budget).1 = text) := by
  unfold cutUtf8
  dsimp only
  split
  · rename_i hfits
    exact ⟨List.prefix_refl _, hfits, fun _ => rfl⟩
  · obtain ⟨hhead, hlength⟩ := decodeBelow_spec text budget
    exact ⟨hhead, hlength, nofun⟩

theorem clip_spec (b : Budget) (text : List Char) :
    (b.clip text).1.included <+: text ∧ bytes (b.clip text).1.included ≤ b.perItem ∧
      ((b.clip text).1.truncated = false → (b.clip text).1.included = text) ∧
      (b.clip text).1.size = bytes (b.clip text).1.included ∧ (b.clip text).2.perItem = b.perItem ∧
      bytes (b.clip text).1.included + (b.clip text).2.remaining = b.remaining := by
  obtain ⟨hhead, hlength, hwhole⟩ := cutUtf8_spec text (min b.perItem b.remaining)
  refine ⟨hhead, hlength.trans (Nat.min_le_left ..), hwhole, rfl, rfl, ?_⟩
  exact Nat.add_sub_cancel' (hlength.trans (Nat.min_le_right ..))

theorem redacted_eq (h : Host Digest) (text : List Char) : h.redactSecrets text =
    (Redaction.redact Prod.fst (Redaction.marked redactedMark) h.patterns (Redaction.positions text)).map Prod.fst := by
  have hmap : Redaction.redact id ((Redaction.marked redactedMark).map Prod.fst) h.patterns
      ((Redaction.positions text).map Prod.fst) =
      (Redaction.redact Prod.fst (Redaction.marked redactedMark) h.patterns (Redaction.positions text)).map Prod.fst :=
    Redaction.redact_map Prod.fst (fun _ => rfl) _ _ _
  rw [Redaction.marked_chars, Redaction.positions_chars] at hmap
  exact hmap

variable {text name : List Char} {raw : List UInt8} {P : Reason → Prop} {g' : Gathered Digest} {α β : Type}
variable {found criteria paths : List (List Char)} {payload : Payload Digest}

theorem cut_of_prefix {slice : List Char} (hhead : slice <+: h.redactSecrets text) : Cut h text slice := by
  rw [redacted_eq] at hhead
  obtain ⟨cut, hcut, rfl⟩ := List.prefix_map_iff.mp hhead
  refine ⟨cut, hcut, rfl, ?_⟩
  intro c i hhidden c' hleft
  exact Redaction.redact_hidden redactedMark h.patterns text hhidden c' (hcut.subset hleft)

structure Bears (h : Host Digest) (item : Nat) (e : List Char × List UInt8)
    (piece : FileSlice × ManifestItem Digest) : Prop where
  slicePath : piece.1.path = e.1
  itemPath : piece.2.path = e.1
  digest : piece.2.sha256 = h.sha256 e.2
  text : ∃ text, decodeUtf8 e.2 = some text ∧ piece.1.text <+: h.redactSecrets text ∧
    (piece.2.truncated = false → piece.1.text = h.redactSecrets text)
  size : bytes piece.1.text ≤ item
  included : piece.2.bytesIncluded = bytes piece.1.text

def used (pieces : List (FileSlice × ManifestItem Digest)) : Nat := (pieces.map fun piece => bytes piece.1.text).sum

structure Sound (h : Host Digest) (item total spent : Nat) (filed : List (List Char × List UInt8))
    (g : Gathered Digest) : Prop where
  perItem : g.budget.perItem = item
  within : used g.pieces + spent + g.budget.remaining ≤ total
  bears : List.Forall₂ (Bears h item) filed g.pieces

variable {item total spent : Nat} {known : List (List Char × List UInt8)} {g : Gathered Digest}

theorem Sound.reason (hg : Sound h item total spent known g) (r : Reason) :
    Sound h item total spent known (g.reason r) := ⟨hg.perItem, hg.within, hg.bears⟩

theorem Sound.less {spent' : Nat} (hg : Sound h item total spent known g) (hless : spent' ≤ spent) :
    Sound h item total spent' known g := ⟨hg.perItem, by have hwithin := hg.within; omega, hg.bears⟩

theorem sliceRaw_none {path : List Char} {b : Budget} (hdecode : decodeUtf8 raw = none) :
    sliceRaw h path raw b = none := by
  unfold sliceRaw
  rw [hdecode]
  rfl

theorem Sound.slice (hg : Sound h item total spent known g) (path : List Char) {raw : List UInt8} {text : List Char}
    (hdecode : decodeUtf8 raw = some text) :
    ∃ piece, sliceRaw h path raw g.budget = some piece ∧
      Sound h item total spent (known ++ [(path, raw)]) (g.add piece) := by
  obtain ⟨hhead, hitem, hwhole, hsize, hperItem, hremaining⟩ := clip_spec g.budget (h.redactSecrets text)
  have hslice : sliceRaw h path raw g.budget = some ((⟨path, (g.budget.clip (h.redactSecrets text)).1.included⟩,
      ⟨path, h.sha256 raw, (g.budget.clip (h.redactSecrets text)).1.size,
        (g.budget.clip (h.redactSecrets text)).1.truncated⟩), (g.budget.clip (h.redactSecrets text)).2) := by
    unfold sliceRaw
    rw [hdecode]
    rfl
  generalize g.budget.clip (h.redactSecrets text) = clipped at *
  refine ⟨_, hslice, hperItem.trans hg.perItem, ?_, ?_⟩
  · have hwithin := hg.within
    unfold used at hwithin ⊢
    unfold Gathered.add
    dsimp only
    rw [List.map_append, List.sum_append, List.map_singleton, List.sum_singleton]
    dsimp only
    omega
  · refine List.rel_append hg.bears (List.Forall₂.cons ?_ .nil)
    exact ⟨rfl, rfl, rfl, ⟨text, hdecode, hhead, hwhole⟩, hg.perItem ▸ hitem, hsize⟩

theorem filedAt_none (hdecode : decodeUtf8 raw = none) : filedAt name (.bytes raw) = none := by
  unfold filedAt
  dsimp only
  rw [hdecode]
  rfl

theorem filedAt_some (hdecode : decodeUtf8 raw = some text) : filedAt name (.bytes raw) = some (name, raw) := by
  unfold filedAt
  dsimp only
  rw [hdecode]
  rfl

def Grows (P : Reason → Prop) (g g' : Gathered Digest) : Prop :=
  ∃ new, g'.reasons = g.reasons ++ new ∧ ∀ r ∈ new, P r

theorem Grows.refl (P : Reason → Prop) (g : Gathered Digest) : Grows P g g :=
  ⟨[], (List.append_nil _).symm, List.forall_mem_nil _⟩

theorem Grows.trans {g'' : Gathered Digest} (hfirst : Grows P g g') (hnext : Grows P g' g'') : Grows P g g'' := by
  obtain ⟨new, hnew, hP⟩ := hfirst
  obtain ⟨new', hnew', hP'⟩ := hnext
  exact ⟨new ++ new', by rw [hnew', hnew, List.append_assoc], List.forall_mem_append.mpr ⟨hP, hP'⟩⟩

theorem Grows.nil (hgrows : Grows P g g') (hnone : g'.reasons = []) : g.reasons = [] := by
  obtain ⟨new, hnew, -⟩ := hgrows
  rw [hnew] at hnone
  exact (List.append_eq_nil_iff.mp hnone).1

theorem Grows.reason {r : Reason} (hr : P r) (g : Gathered Digest) : Grows P g (g.reason r) :=
  ⟨[r], rfl, List.forall_mem_singleton.mpr hr⟩

def OfContext (r : Reason) : Prop := ∀ display, r ≠ .changedUnreadable display

theorem loadSpec_sound (t : Tree) (hg : Sound h item total spent known g) :
    Sound h item total spent (known ++ (filedAt contextSpecPath t.spec).toList) (loadSpec h t g) ∧
      Grows OfContext g (loadSpec h t g) := by
  unfold loadSpec
  cases hspec : t.spec with
  | missing =>
    rw [show (filedAt contextSpecPath .missing).toList = [] from rfl, List.append_nil]
    exact ⟨hg.reason _, .reason nofun g⟩
  | unreadable =>
    rw [show (filedAt contextSpecPath .unreadable).toList = [] from rfl, List.append_nil]
    exact ⟨hg.reason _, .reason nofun g⟩
  | bytes raw =>
    dsimp only
    cases hdecode : decodeUtf8 raw with
    | none =>
      rw [filedAt_none hdecode, Option.toList_none, List.append_nil]
      exact ⟨hg.reason _, .reason nofun g⟩
    | some decoded =>
      dsimp only
      rw [filedAt_some hdecode, Option.toList_some]
      generalize decide (Text.stripList decoded = []) = blankSource
      have hfirst : Sound h item total spent known (if blankSource then g.reason .specEmpty else g) ∧
          Grows OfContext g (if blankSource then g.reason .specEmpty else g) := by
        split
        · exact ⟨hg.reason _, .reason nofun g⟩
        · exact ⟨hg, .refl _ g⟩
      generalize (if blankSource then g.reason .specEmpty else g) = g' at hfirst ⊢
      obtain ⟨piece, hslice, hsound⟩ := hfirst.1.slice contextSpecPath hdecode
      rw [hslice]
      dsimp only
      have hadd : Grows OfContext g (g'.add piece) := hfirst.2
      split
      · exact ⟨hsound.reason _, hadd.trans (.reason nofun _)⟩
      · exact ⟨hsound, hadd⟩

theorem includeCriteria_sound (cs : List (List Char)) {spent : Nat} {g : Gathered Digest}
    (hg : Sound h item total spent known g) :
    Sound h item total (spent + ((includeCriteria h g cs).1.map bytes).sum) known (includeCriteria h g cs).2 ∧
      Grows OfContext g (includeCriteria h g cs).2 ∧
      ((includeCriteria h g cs).2.reasons = [] → (includeCriteria h g cs).1 = cs.map h.redactSecrets) := by
  induction cs generalizing spent g with
  | nil => exact ⟨hg, .refl _ g, fun _ => rfl⟩
  | cons c cs ih =>
    obtain ⟨-, -, hwhole, -, hperItem, hremaining⟩ := clip_spec g.budget (h.redactSecrets c)
    have hwithin := hg.within
    rw [includeCriteria]
    dsimp only
    generalize g.budget.clip (h.redactSecrets c) = clipped at hwhole hperItem hremaining ⊢
    split
    · have hspend : Sound h item total spent known
          (Gathered.reason { g with budget := clipped.2 } .ticketsNotIncluded) := by
        refine ⟨hperItem.trans hg.perItem, ?_, hg.bears⟩
        change used g.pieces + spent + clipped.2.remaining ≤ total
        omega
      obtain ⟨hsound, hgrows, -⟩ := ih hspend
      have hreason : Grows OfContext g
          (Gathered.reason { g with budget := clipped.2 } .ticketsNotIncluded) :=
        ⟨[_], rfl, List.forall_mem_singleton.mpr nofun⟩
      refine ⟨hsound, hreason.trans hgrows, fun hnone => ?_⟩
      exact absurd (List.append_eq_nil_iff.mp (hgrows.nil hnone)).2 (List.cons_ne_nil _ _)
    · rename_i hkept
      have hspend : Sound h item total (spent + bytes clipped.1.included) known
          { g with budget := clipped.2 } := by
        refine ⟨hperItem.trans hg.perItem, ?_, hg.bears⟩
        change used g.pieces + (spent + _) + clipped.2.remaining ≤ total
        omega
      obtain ⟨hsound, hgrows, hall⟩ := ih hspend
      refine ⟨?_, hgrows, fun hnone => ?_⟩
      · rw [List.map_cons, List.sum_cons, ← Nat.add_assoc]
        exact hsound
      · rw [Bool.or_eq_true, not_or] at hkept
        rw [List.map_cons, ← hall hnone, hwhole (Bool.eq_false_of_not_eq_true hkept.2)]

theorem mem_nonblank (hne : Text.stripList text ≠ []) : Text.stripList text ∈ nonblank text := by
  unfold nonblank
  rw [if_neg hne]
  exact List.mem_singleton_self _

theorem mem_flatten_of_mapM {f : α → Option (List β)} {xs : List α} {found : List β}
    (hfound : (xs.mapM f).map List.flatten = some found) {x : α} (hx : x ∈ xs) :
    ∃ ys, f x = some ys ∧ ∀ y ∈ ys, y ∈ found := by
  obtain ⟨zs, hzs, rfl⟩ := Option.map_eq_some_iff.mp hfound
  clear hfound
  induction xs generalizing zs with
  | nil => cases hx
  | cons a xs ih =>
    obtain ⟨y, ys, hy, hys, rfl⟩ := Traverse.traverse_cons.mp hzs
    rw [List.flatten_cons]
    rcases List.mem_cons.mp hx with rfl | hx
    · exact ⟨y, hy, fun _ => List.mem_append_left _⟩
    · obtain ⟨ys', hys', hmem⟩ := ih hx _ hys
      exact ⟨ys', hys', fun z hz => List.mem_append_right _ (hmem z hz)⟩

theorem mem_of_holds {fields : List (String × JsonValue)}
    (hfound : criteriaFromMapping fields = some found) {c : String} (hholds : Holds fields c)
    (hne : Text.stripList c.toList ≠ []) : Text.stripList c.toList ∈ found := by
  obtain ⟨key, hkey, items, hitems, hc⟩ := hholds
  obtain ⟨ys, hys, hmem⟩ := mem_flatten_of_mapM hfound hkey
  unfold criteriaAt at hys
  rw [hitems] at hys
  obtain ⟨zs, hzs, hmem'⟩ := mem_flatten_of_mapM hys hc
  cases hzs
  exact hmem _ (hmem' _ (mem_nonblank hne))

theorem mem_of_entries {items : List JsonValue}
    (hfound : (items.mapM criteriaOf).map List.flatten = some found) {c : String} (hc : Criterion (.arr items) c)
    (hne : Text.stripList c.toList ≠ []) : Text.stripList c.toList ∈ found := by
  cases hc with
  | listed hmem =>
    obtain ⟨ys, hys, hsub⟩ := mem_flatten_of_mapM hfound hmem
    cases hys
    exact hsub _ (mem_nonblank hne)
  | entry hmem hholds =>
    obtain ⟨ys, hys, hsub⟩ := mem_flatten_of_mapM hfound hmem
    exact hsub _ (mem_of_holds hys hholds hne)

theorem mem_of_criterion {v : JsonValue} (hfound : foundCriteria v = some found) {c : String}
    (hc : Criterion v c) (hne : Text.stripList c.toList ≠ []) : Text.stripList c.toList ∈ found := by
  unfold foundCriteria at hfound
  obtain ⟨⟨entries, extra⟩, hbody, hrest⟩ := Option.bind_eq_some_iff.mp hfound
  obtain ⟨zs, hzs, rfl⟩ := Option.map_eq_some_iff.mp hrest
  have hentries : (entries.mapM criteriaOf).map List.flatten = some zs.flatten := by
    dsimp only at hzs
    rw [hzs]
    rfl
  cases v with
  | arr items =>
    cases hbody
    exact List.mem_append_left _ (mem_of_entries hentries hc hne)
  | obj fields =>
    unfold ticketBody at hbody
    dsimp only at hbody
    cases hc with
    | beside hholds =>
      refine List.mem_append_right _ ?_
      split at hbody
      · obtain ⟨extra', hextra, heq⟩ := Option.map_eq_some_iff.mp hbody
        cases heq
        exact mem_of_holds hextra hholds hne
      · obtain ⟨extra', hextra, heq⟩ := Option.map_eq_some_iff.mp hbody
        cases heq
        exact mem_of_holds hextra hholds hne
      · cases hbody
    | tickets hitems hentry =>
      rw [hitems] at hbody
      obtain ⟨extra', hextra, heq⟩ := Option.map_eq_some_iff.mp hbody
      cases heq
      exact List.mem_append_left _ (mem_of_entries hentries hentry hne)
  | _ => cases hbody

def Kept (h : Host Digest) (t : Tree) (criteria : List (List Char)) : Prop :=
  ∃ raw text v, t.tickets = .bytes raw ∧ decodeUtf8 raw = some text ∧ h.loads text = .value v ∧
    ∀ c, Criterion v c → Text.stripList c.toList ≠ [] →
      h.redactSecrets (h.redactSecrets (Text.stripList c.toList)) ∈ criteria

theorem parseCriteria_found {decoded : List Char} (hparse : parseCriteria h decoded = some (criteria, none)) :
    ∃ v found, h.loads decoded = .value v ∧ foundCriteria v = some found ∧ criteria = found.map h.redactSecrets := by
  unfold parseCriteria at hparse
  cases hloads : h.loads decoded with
  | raises => rw [hloads] at hparse; cases hparse
  | invalid => rw [hloads] at hparse; cases hparse
  | value v =>
    rw [hloads] at hparse
    dsimp only at hparse
    split at hparse
    · cases hparse
    · cases hparse
    · rename_i found _ hfound
      cases hparse
      exact ⟨v, found, rfl, hfound, rfl⟩

theorem parseCriteria_problem {decoded : List Char} {r : Reason}
    (hparse : parseCriteria h decoded = some (criteria, some r)) : OfContext r ∧ criteria = [] := by
  unfold parseCriteria at hparse
  split at hparse
  · cases hparse
  · cases hparse
    exact ⟨nofun, rfl⟩
  · split at hparse
    · cases hparse
      exact ⟨nofun, rfl⟩
    · cases hparse
      exact ⟨nofun, rfl⟩
    · cases hparse

theorem loadTickets_sound (hg : Sound h item total 0 known g) (hload : loadTickets h t g = some (criteria, g')) :
    Sound h item total (criteria.map bytes).sum (known ++ (filedAt contextTicketsPath t.tickets).toList) g' ∧
      Grows OfContext g g' ∧ (g'.reasons = [] → Kept h t criteria) := by
  unfold loadTickets at hload
  cases htickets : t.tickets with
  | missing =>
    rw [htickets] at hload
    cases hload
    rw [show (filedAt contextTicketsPath .missing).toList = [] from rfl, List.append_nil]
    exact ⟨hg.reason _, .reason nofun g, fun hnone => absurd (List.append_eq_nil_iff.mp hnone).2 (List.cons_ne_nil _ _)⟩
  | unreadable =>
    rw [htickets] at hload
    cases hload
    rw [show (filedAt contextTicketsPath .unreadable).toList = [] from rfl, List.append_nil]
    exact ⟨hg.reason _, .reason nofun g, fun hnone => absurd (List.append_eq_nil_iff.mp hnone).2 (List.cons_ne_nil _ _)⟩
  | bytes raw =>
    rw [htickets] at hload
    dsimp only at hload
    cases hdecode : decodeUtf8 raw with
    | none =>
      rw [hdecode] at hload
      cases hload
      rw [filedAt_none hdecode, Option.toList_none, List.append_nil]
      exact ⟨hg.reason _, .reason nofun g, fun hnone => absurd (List.append_eq_nil_iff.mp hnone).2 (List.cons_ne_nil _ _)⟩
    | some decoded =>
      rw [hdecode] at hload
      dsimp only at hload
      cases hparse : parseCriteria h decoded with
      | none => rw [hparse] at hload; cases hload
      | some parsed =>
        obtain ⟨found, problem⟩ := parsed
        rw [hparse] at hload
        dsimp only at hload
        rw [filedAt_some hdecode, Option.toList_some]
        have hproblem : Sound h item total 0 known (g.problem problem) ∧
            Grows OfContext g (g.problem problem) ∧
            ((g.problem problem).reasons = [] → problem = none) := by
          cases problem with
          | none => exact ⟨hg, .refl _ g, fun _ => rfl⟩
          | some r =>
            refine ⟨hg.reason r, .reason (parseCriteria_problem hparse).1 g, fun hnone => ?_⟩
            exact absurd (List.append_eq_nil_iff.mp hnone).2 (List.cons_ne_nil _ _)
        generalize g.problem problem = g₁ at hproblem hload
        obtain ⟨hsound₁, hgrows₁, hnone₁⟩ := hproblem
        obtain ⟨piece, hslice, hsound₂⟩ := hsound₁.slice contextTicketsPath hdecode
        rw [hslice] at hload
        dsimp only at hload
        have hcut : Sound h item total 0 (known ++ [(contextTicketsPath, raw)])
            (if (Text.stripList piece.1.1.text = [] || piece.1.2.truncated) = true then
              (g₁.add piece).reason .ticketsNotIncluded else g₁.add piece) ∧
            Grows OfContext g₁ (if (Text.stripList piece.1.1.text = [] || piece.1.2.truncated) = true then
              (g₁.add piece).reason .ticketsNotIncluded else g₁.add piece) := by
          split
          · exact ⟨hsound₂.reason _, [_], rfl, List.forall_mem_singleton.mpr nofun⟩
          · exact ⟨hsound₂, [], (List.append_nil _).symm, List.forall_mem_nil _⟩
        generalize (if (Text.stripList piece.1.1.text = [] || piece.1.2.truncated) = true then
          (g₁.add piece).reason .ticketsNotIncluded else g₁.add piece) = g₂ at hcut hload
        obtain ⟨hsound₃, hgrows₃, hall⟩ := includeCriteria_sound found hcut.1
        rw [Nat.zero_add] at hsound₃
        generalize includeCriteria h g₂ found = included at hload hsound₃ hgrows₃ hall
        rw [Option.some.injEq, Prod.mk.injEq] at hload
        obtain ⟨hcriteria, hg'⟩ := hload
        have hmissing : ∀ missing : Bool, Sound h item total (included.1.map bytes).sum
            (known ++ [(contextTicketsPath, raw)])
            (if missing then included.2.reason .ticketsNotIncluded else included.2) ∧
            Grows OfContext included.2 (if missing then included.2.reason .ticketsNotIncluded else included.2) := by
          intro missing
          cases missing with
          | true => exact ⟨hsound₃.reason _, .reason nofun _⟩
          | false => exact ⟨hsound₃, .refl _ _⟩
        rw [hcriteria] at hg'
        have hlast := hmissing (criteria.isEmpty && !included.2.reasons.contains .ticketsNotIncluded)
        rw [hg'] at hlast
        have hgrows : Grows OfContext g₁ g' := hcut.2.trans (hgrows₃.trans hlast.2)
        refine ⟨hlast.1.less ?_, hgrows₁.trans hgrows, fun hnone => ?_⟩
        · rw [← hcriteria]
          split
          · exact Nat.zero_le _
          · exact Nat.le_refl _
        · have hall' := hall (hlast.2.nil hnone)
          have hnoproblem := hnone₁ (hgrows.nil hnone)
          subst hnoproblem
          obtain ⟨v, texts, hloads, hfound, rfl⟩ := parseCriteria_found hparse
          refine ⟨raw, decoded, v, htickets, hdecode, hloads, fun c hc hne => ?_⟩
          rw [← hcriteria, hall', if_neg]
          · exact List.mem_map_of_mem (List.mem_map_of_mem (mem_of_criterion hfound hc hne))
          · rw [List.length_map]
            exact fun hless => hless.2 rfl

def unread (t : Tree) (displays : List (List Char)) : List (List Char) :=
  displays.filter fun display => (filedAt display (t.source display)).isNone

theorem addChanged_sound (hg : Sound h item total spent known g) (display : List Char) :
    Sound h item total spent (known ++ (filedAt display (t.source display)).toList) (addChanged h t g display) ∧
      (addChanged h t g display).reasons =
        g.reasons ++ (if (filedAt display (t.source display)).isNone then [.changedUnreadable display] else []) := by
  unfold addChanged
  cases hsource : t.source display with
  | missing =>
    rw [show (filedAt display .missing).toList = [] from rfl, List.append_nil]
    exact ⟨hg.reason _, rfl⟩
  | unreadable =>
    rw [show (filedAt display .unreadable).toList = [] from rfl, List.append_nil]
    exact ⟨hg.reason _, rfl⟩
  | bytes raw =>
    dsimp only
    cases hdecode : decodeUtf8 raw with
    | none =>
      rw [filedAt_none hdecode, sliceRaw_none hdecode, Option.toList_none, List.append_nil]
      exact ⟨hg.reason _, rfl⟩
    | some text =>
      obtain ⟨piece, hslice, hsound⟩ := hg.slice display hdecode
      rw [filedAt_some hdecode, hslice]
      exact ⟨hsound, (List.append_nil _).symm⟩

theorem filedDisplays_cons (t : Tree) (display : List Char) (displays : List (List Char)) :
    filedDisplays t (display :: displays) =
      (filedAt display (t.source display)).toList ++ filedDisplays t displays := by
  unfold filedDisplays
  rw [List.filterMap_cons]
  cases filedAt display (t.source display) <;> rfl

theorem addAll_sound (displays : List (List Char)) {known : List (List Char × List UInt8)} {g : Gathered Digest}
    (hg : Sound h item total spent known g) :
    Sound h item total spent (known ++ filedDisplays t displays) (displays.foldl (addChanged h t) g) ∧
      (displays.foldl (addChanged h t) g).reasons = g.reasons ++ (unread t displays).map .changedUnreadable := by
  induction displays generalizing known g with
  | nil =>
    rw [show filedDisplays t [] = [] from rfl, List.append_nil]
    exact ⟨hg, (List.append_nil _).symm⟩
  | cons display displays ih =>
    obtain ⟨hsound, hreasons⟩ := addChanged_sound (t := t) hg display
    obtain ⟨hall, hrest⟩ := ih hsound
    rw [List.foldl_cons]
    refine ⟨?_, ?_⟩
    · rw [filedDisplays_cons, ← List.append_assoc]
      exact hall
    · rw [hrest, hreasons, List.append_assoc]
      congr 1
      unfold unread
      rw [List.filter_cons]
      split <;> rfl

theorem outside_sound (labels : List (List Char)) {g : Gathered Digest} (hg : Sound h item total spent known g) :
    Sound h item total spent known (labels.foldl (fun g label => g.reason (.changedOutside label)) g) ∧
      (labels.foldl (fun g label => g.reason (.changedOutside label)) g).reasons =
        g.reasons ++ labels.map .changedOutside := by
  induction labels generalizing g with
  | nil => exact ⟨hg, (List.append_nil _).symm⟩
  | cons label labels ih =>
    obtain ⟨hsound, hreasons⟩ := ih (hg.reason (.changedOutside label))
    refine ⟨hsound, hreasons.trans ?_⟩
    exact List.append_assoc ..

structure Built (h : Host Digest) (t : Tree) (paths : List (List Char)) (item total : Nat)
    (payload : Payload Digest) : Prop where
  complete : payload.complete = payload.reasons.isEmpty
  bears : List.Forall₂ (Bears h item) (filed t paths) (payload.slices.zip payload.manifest)
  slices : payload.slices = (payload.slices.zip payload.manifest).map Prod.fst
  within : used (payload.slices.zip payload.manifest) + (payload.criteria.map bytes).sum ≤ total
  kept : payload.reasons = [] → Kept h t payload.criteria
  reasons : ∃ context, (∀ r ∈ context, OfContext r) ∧ payload.reasons =
    context ++ (unread t (sortedSet (paths.filterMap (displayOf t)))).map .changedUnreadable ++
      (sortedSet (paths.filterMap (outsideLabel t))).map .changedOutside
  located : ∀ p ∈ paths, locate t p ≠ .raises

theorem zip_fst_snd (l : List (α × β)) : (l.map Prod.fst).zip (l.map Prod.snd) = l := by
  induction l with
  | nil => rfl
  | cons x l ih => rw [List.map_cons, List.map_cons, List.zip_cons_cons, ih]

theorem built {item total : Int} (hbuild : buildReviewPayload h t paths item total = some payload) :
    0 ≤ item ∧ 0 ≤ total ∧ Built h t paths item.toNat total.toNat payload := by
  unfold buildReviewPayload at hbuild
  by_cases hnegative : item < 0 ∨ total < 0
  · rw [if_pos hnegative] at hbuild
    cases hbuild
  · rw [if_neg hnegative] at hbuild
    rw [not_or, Int.not_lt, Int.not_lt] at hnegative
    refine ⟨hnegative.1, hnegative.2, ?_⟩
    dsimp only at hbuild
    have hstart : Sound h item.toNat total.toNat 0 [] (⟨⟨item.toNat, total.toNat⟩, [], []⟩ : Gathered Digest) :=
      ⟨rfl, (Nat.zero_add _).le, .nil⟩
    obtain ⟨hspec, hspecReasons⟩ := loadSpec_sound t hstart
    cases htickets : loadTickets h t (loadSpec h t ⟨⟨item.toNat, total.toNat⟩, [], []⟩) with
    | none => rw [htickets] at hbuild; cases hbuild
    | some loaded =>
      obtain ⟨criteria, g⟩ := loaded
      rw [htickets] at hbuild
      dsimp only at hbuild
      obtain ⟨hsound, hgrows, hkept⟩ := loadTickets_sound hspec htickets
      obtain ⟨context, hcontext, hofContext⟩ := hspecReasons.trans hgrows
      unfold loadChanged at hbuild
      by_cases hraises : (paths.any fun p => decide (locate t p = .raises)) = true
      · rw [if_pos hraises] at hbuild
        cases hbuild
      · rw [if_neg hraises] at hbuild
        dsimp only at hbuild
        obtain ⟨hfiles, hfileReasons⟩ := addAll_sound (t := t) (sortedSet (paths.filterMap (displayOf t))) hsound
        obtain ⟨hall, hallReasons⟩ := outside_sound (sortedSet (paths.filterMap (outsideLabel t))) hfiles
        rw [hfileReasons, hcontext] at hallReasons
        generalize (sortedSet (paths.filterMap (outsideLabel t))).foldl
          (fun (g : Gathered Digest) label => g.reason (.changedOutside label)) _ = g' at hall hallReasons hbuild
        split at hbuild
        · cases hbuild
          refine ⟨rfl, ?_, ?_, ?_, ?_, ⟨context, hofContext, hallReasons⟩, ?_⟩
          · rw [zip_fst_snd]
            exact hall.bears
          · rw [zip_fst_snd]
          · rw [zip_fst_snd]
            exact Nat.le_of_add_right_le hall.within
          · intro hnone
            refine hkept ?_
            dsimp only at hnone
            rw [hallReasons] at hnone
            rw [hcontext]
            exact (List.append_eq_nil_iff.mp (List.append_eq_nil_iff.mp hnone).1).1
          · intro p hp hloc
            exact hraises (List.any_eq_true.mpr ⟨p, hp, decide_eq_true hloc⟩)
        · cases hbuild

theorem sortedSet_perm {l l' : List (List Char)} (hperm : l.Perm l') : sortedSet l = sortedSet l' := by
  unfold sortedSet
  have hanti : ∀ a b : List Char, a ∈ sortAsc id l.dedup → b ∈ sortAsc id l'.dedup → id a ≤ id b → id b ≤ id a → a = b :=
    fun _ _ _ _ hab hba => le_antisymm hab hba
  refine List.Perm.eq_of_pairwise hanti (sortAsc_pairwise id _) (sortAsc_pairwise id _) ?_
  exact (sortAsc_perm id _).trans ((hperm.dedup).trans (sortAsc_perm id _).symm)

theorem mem_sortedSet {l : List (List Char)} {a : List Char} : a ∈ sortedSet l ↔ a ∈ l := by
  unfold sortedSet
  rw [(sortAsc_perm id _).mem_iff, List.mem_dedup]

theorem buildReviewPayload_perm (h : Host Digest) (t : Tree) {paths paths' : List (List Char)}
    (hperm : paths'.Perm paths) (item total : Int) :
    buildReviewPayload h t paths' item total = buildReviewPayload h t paths item total := by
  have hany : (paths'.any fun p => decide (locate t p = .raises)) = paths.any fun p => decide (locate t p = .raises) := by
    rw [Bool.eq_iff_iff, List.any_eq_true, List.any_eq_true]
    simp only [hperm.mem_iff]
  have hloaded : ∀ g : Gathered Digest, loadChanged h t paths' g = loadChanged h t paths g := by
    intro g
    unfold loadChanged
    rw [hany, sortedSet_perm (hperm.filterMap (displayOf t)), sortedSet_perm (hperm.filterMap (outsideLabel t))]
  unfold buildReviewPayload
  simp only [hloaded]

theorem forall₂_filter {R : α → β → Prop} {p : α → Bool} {q : β → Bool}
    (hpq : ∀ a b, R a b → p a = q b) {xs : List α} {ys : List β} (hxs : List.Forall₂ R xs ys) :
    List.Forall₂ R (xs.filter p) (ys.filter q) := by
  induction hxs with
  | nil => exact .nil
  | @cons a b xs ys hab _ ih =>
    rw [List.filter_cons, List.filter_cons, hpq a b hab]
    split
    · exact .cons hab ih
    · exact ih

theorem forall₂_mem {R : α → β → Prop} {xs : List α} {ys : List β} (hxs : List.Forall₂ R xs ys) {y : β}
    (hy : y ∈ ys) : ∃ x, R x y := by
  induction hxs with
  | nil => cases hy
  | cons hab _ ih =>
    rcases List.mem_cons.mp hy with rfl | hy
    · exact ⟨_, hab⟩
    · exact ih hy

theorem Built.represented_iff (hbuilt : Built h t paths item total payload) (p : List Char) :
    Represented h t payload p ↔
      ∃ raw, ownFile t p = some raw ∧ (filed t paths).filter (fun e => decide (e.1 = p)) = [(p, raw)] := by
  have hfilter : List.Forall₂ (Bears h item) ((filed t paths).filter fun e => decide (e.1 = p))
      ((payload.slices.zip payload.manifest).filter fun piece => decide (piece.2.path = p)) := by
    refine forall₂_filter (fun e piece hbears => ?_) hbuilt.bears
    rw [hbears.itemPath]
  constructor
  · rintro ⟨raw, text, piece, hown, -, hone, -, hdigest, -⟩
    rw [hone] at hfilter
    refine ⟨raw, hown, ?_⟩
    obtain ⟨e, hbears, hsingle⟩ : ∃ e, Bears h item e piece ∧
        (filed t paths).filter (fun e => decide (e.1 = p)) = [e] := by
      generalize (filed t paths).filter (fun e => decide (e.1 = p)) = entries at hfilter
      cases hfilter with
      | cons hbears hrest =>
        cases hrest
        exact ⟨_, hbears, rfl⟩
    have hname : e.1 = p := by
      have hmem : e ∈ (filed t paths).filter fun e => decide (e.1 = p) := by rw [hsingle]; exact List.mem_cons_self
      exact of_decide_eq_true (List.mem_filter.mp hmem).2
    have hraw : e.2 = raw := h.sha256_injective (hbears.digest.symm.trans hdigest)
    rw [hsingle, ← hname, ← hraw]
  · rintro ⟨raw, hown, hone⟩
    rw [hone] at hfilter
    generalize hpieces : (payload.slices.zip payload.manifest).filter (fun piece => decide (piece.2.path = p)) = pieces
      at hfilter
    cases hfilter with
    | cons hbears hrest =>
      cases hrest
      obtain ⟨text, hdecode, hhead, hwhole⟩ := hbears.text
      exact ⟨raw, text, _, hown, hdecode, hpieces, hbears.slicePath, hbears.digest, hhead, hwhole⟩

theorem displayOf_eq {p display : List Char} : displayOf t p = some display ↔ locate t p = .file display := by
  unfold displayOf
  cases locate t p with
  | file d => exact ⟨fun heq => by rw [Option.some.inj heq], fun heq => by cases heq; rfl⟩
  | _ => exact ⟨nofun, nofun⟩

theorem Built.reason_iff (hbuilt : Built h t paths item total payload) {p : List Char} (hp : p ∈ paths) :
    (∃ r ∈ payload.reasons, r.About t p) ↔ Unread t p := by
  obtain ⟨context, hcontext, hreasons⟩ := hbuilt.reasons
  constructor
  · rintro ⟨r, hr, habout⟩ display hdisplay
    cases r with
    | changedUnreadable display' =>
      have hsame : locate t p = .file display' := habout
      rw [displayOf_eq.mp hdisplay] at hsame
      cases hsame
      rw [hreasons, List.append_assoc, List.mem_append, List.mem_append] at hr
      rcases hr with hr | hr | hr
      · exact absurd rfl (hcontext _ hr display)
      · obtain ⟨display', hmem, heq⟩ := List.mem_map.mp hr
        cases heq
        exact Option.isNone_iff_eq_none.mp (List.mem_filter.mp hmem).2
      · obtain ⟨label, -, heq⟩ := List.mem_map.mp hr
        cases heq
    | changedOutside label =>
      have hlabel : outsideLabel t p = some label := habout
      unfold outsideLabel at hlabel
      rw [displayOf_eq.mp hdisplay] at hlabel
      cases hlabel
    | _ => exact habout.elim
  · intro hunread
    rw [hreasons]
    cases hlocate : locate t p with
    | raises => exact absurd hlocate (hbuilt.located p hp)
    | file display =>
      have hdisplay := displayOf_eq.mpr hlocate
      refine ⟨.changedUnreadable display, List.mem_append_left _ (List.mem_append_right _ ?_), hlocate⟩
      refine List.mem_map_of_mem (List.mem_filter.mpr ⟨mem_sortedSet.mpr (List.mem_filterMap.mpr ⟨p, hp, hdisplay⟩), ?_⟩)
      rw [hunread display hdisplay]
      rfl
    | outside cleaned =>
      have hlabel : outsideLabel t p = some (if cleaned = [] then "(vazio)".toList else cleaned) := by
        unfold outsideLabel
        rw [hlocate]
      exact ⟨.changedOutside _, List.mem_append_right _
        (List.mem_map_of_mem (mem_sortedSet.mpr (List.mem_filterMap.mpr ⟨p, hp, hlabel⟩))), hlabel⟩

theorem Built.slice_size
    (hbuilt : Built h t paths item total payload) {sl : FileSlice} (hsl : sl ∈ payload.slices) : bytes sl.text ≤ item := by
  rw [hbuilt.slices] at hsl
  obtain ⟨piece, hpiece, rfl⟩ := List.mem_map.mp hsl
  obtain ⟨e, hbears⟩ := forall₂_mem hbuilt.bears hpiece
  exact hbears.size

theorem filedAt_name {source : Source} {e : List Char × List UInt8}
    (hfiled : filedAt name source = some e) : e.1 = name := by
  unfold filedAt at hfiled
  split at hfiled
  · split at hfiled
    · cases hfiled
      rfl
    · cases hfiled
  · cases hfiled

theorem filedDisplays_absent {displays : List (List Char)} {p : List Char} (hp : p ∉ displays) :
    (filedDisplays t displays).filter (fun e => decide (e.1 = p)) = [] := by
  rw [List.filter_eq_nil_iff]
  intro e he hname
  obtain ⟨display, hdisplay, hfiled⟩ := List.mem_filterMap.mp he
  rw [filedAt_name hfiled] at hname
  exact hp (of_decide_eq_true hname ▸ hdisplay)

theorem filedDisplays_filter {displays : List (List Char)} (hnodup : displays.Nodup) {p : List Char}
    (hp : p ∈ displays) {e : List Char × List UInt8} (hfiled : filedAt p (t.source p) = some e) :
    (filedDisplays t displays).filter (fun e => decide (e.1 = p)) = [e] := by
  induction displays with
  | nil => cases hp
  | cons display displays ih =>
    obtain ⟨hnot, hrest⟩ := List.nodup_cons.mp hnodup
    rw [filedDisplays_cons, List.filter_append]
    rcases List.mem_cons.mp hp with rfl | hp
    · have hone : ([e].filter fun e => decide (e.1 = p)) = [e] :=
        List.filter_cons_of_pos (decide_eq_true (filedAt_name hfiled))
      rw [hfiled, Option.toList_some, filedDisplays_absent hnot, hone]
      rfl
    · have hnone : (filedAt display (t.source display)).toList.filter (fun e => decide (e.1 = p)) = [] := by
        rw [List.filter_eq_nil_iff]
        intro e' he' hname
        rw [filedAt_name (Option.mem_toList.mp he')] at hname
        exact hnot (of_decide_eq_true hname ▸ hp)
      rw [hnone, List.nil_append]
      exact ih hrest hp

theorem plain_of_own {p : List Char} (hp : p ∈ paths) (hlocate : locate t p = .file p)
    (hresolve : t.resolve p = .inside p) (hspec : p ≠ contextSpecPath) (htickets : p ≠ contextTicketsPath) :
    Plain t paths p := by
  have hdisplay := displayOf_eq.mpr hlocate
  cases hfiled : filedAt p (t.source p) with
  | none =>
    left
    intro display heq
    cases hdisplay.symm.trans heq
    exact hfiled
  | some e =>
    right
    obtain ⟨raw, hsource, rfl⟩ : ∃ raw, t.source p = .bytes raw ∧ e = (p, raw) := by
      cases hsource : t.source p with
      | bytes raw =>
        rw [hsource] at hfiled
        unfold filedAt at hfiled
        dsimp only at hfiled
        split at hfiled
        · exact ⟨raw, rfl, (Option.some.inj hfiled).symm⟩
        · cases hfiled
      | _ => rw [hsource] at hfiled; cases hfiled
    refine ⟨raw, ?_, ?_⟩
    · unfold ownFile
      rw [hresolve]
      dsimp only
      rw [hsource]
    · have hother : ∀ {name : List Char} {source : Source}, p ≠ name →
          (filedAt name source).toList.filter (fun e => decide (e.1 = p)) = [] := by
        intro name source hne
        rw [List.filter_eq_nil_iff]
        intro e he hname
        rw [filedAt_name (Option.mem_toList.mp he)] at hname
        exact hne (of_decide_eq_true hname).symm
      unfold filed
      rw [List.filter_append, List.filter_append, hother hspec, hother htickets, List.nil_append, List.nil_append]
      have hnodup : (sortedSet (paths.filterMap (displayOf t))).Nodup :=
        (sortAsc_perm id _).nodup_iff.mpr (List.nodup_dedup _)
      have hmem : p ∈ sortedSet (paths.filterMap (displayOf t)) :=
        mem_sortedSet.mpr (List.mem_filterMap.mpr ⟨p, hp, hdisplay⟩)
      exact filedDisplays_filter hnodup hmem hfiled

/-- A payload keeps its promises exactly if every changed path is unread, or filed as itself. -/
theorem reviewed_iff (h : Host Digest) (t : Tree) (paths : List (List Char)) (item total : Int)
    (payload : Payload Digest) (hbuild : buildReviewPayload h t paths item total = some payload) :
    Reviewed h t paths item total payload ↔ ∀ p ∈ paths, Plain t paths p := by
  obtain ⟨hitem, htotal, hbuilt⟩ := built hbuild
  constructor
  · intro hreviewed p hp
    by_cases hrepresented : Represented h t payload p
    · exact Or.inr ((hbuilt.represented_iff p).mp hrepresented)
    · exact Or.inl ((hbuilt.reason_iff hp).mp (hreviewed.reasons p hp hrepresented))
  · intro hplain
    have hnamed : ∀ p ∈ paths, ¬ Represented h t payload p → ∃ r ∈ payload.reasons, r.About t p := by
      intro p hp hnot
      rcases hplain p hp with hunread | hfiled
      · exact (hbuilt.reason_iff hp).mpr hunread
      · exact absurd ((hbuilt.represented_iff p).mpr hfiled) hnot
    have hnone : payload.complete = true → payload.reasons = [] := by
      intro hcomplete
      rw [hbuilt.complete] at hcomplete
      exact List.isEmpty_iff.mp hcomplete
    refine ⟨?_, fun hcomplete => hbuilt.kept (hnone hcomplete), hnamed, ?_, ?_, ?_, ?_⟩
    · intro hcomplete p hp
      by_contra hnot
      obtain ⟨r, hr, -⟩ := hnamed p hp hnot
      rw [hnone hcomplete] at hr
      cases hr
    · intro sl hsl
      have hsize := hbuilt.slice_size hsl
      omega
    · have hwithin := hbuilt.within
      have hsum : payload.slices.map (fun sl => bytes sl.text) =
          (payload.slices.zip payload.manifest).map fun piece => bytes piece.1.text := by
        conv_lhs => rw [hbuilt.slices]
        rw [List.map_map]
        rfl
      rw [hsum]
      unfold used at hwithin
      omega
    · intro piece hpiece
      obtain ⟨e, hbears⟩ := forall₂_mem hbuilt.bears hpiece
      obtain ⟨text, hdecode, hhead, -⟩ := hbears.text
      exact ⟨e.2, text, hbears.digest, hdecode, hbears.included, cut_of_prefix hhead⟩
    · intro paths' hperm
      rw [buildReviewPayload_perm h t hperm]
      exact hbuild

end

def plainHost : Host (List UInt8) where
  secretValues := []
  variants := fun c => [c, c.toLower, c.toUpper]
  isWord := fun c => c.isAlphanum || c == '_'
  loads := fun text => if text = "[\"ok\"]".toList then .value (.arr [.str "ok"]) else .invalid
  sha256 := id
  sha256_injective := Function.injective_id

def longNames : Tree where
  spec := .bytes (encode "spec".toList)
  tickets := .bytes (encode "[\"ok\"]".toList)
  resolve := .inside
  source := fun display =>
    if display = List.replicate 200 'a' then .bytes (encode "x".toList)
    else if display = List.replicate 201 'a' then .bytes (encode "y".toList)
    else .missing

set_option maxRecDepth 4000 in
theorem reviewed_own_name : Reviewed plainHost longNames [List.replicate 200 'a'] 32768 131072
    ((buildReviewPayload plainHost longNames [List.replicate 200 'a'] 32768 131072).get rfl) := by
  refine (reviewed_iff plainHost longNames _ _ _ _ (Option.some_get _).symm).mpr ?_
  rw [List.forall_mem_singleton]
  exact plain_of_own List.mem_cons_self rfl rfl (by decide) (by decide)

set_option maxRecDepth 4000 in
/-- A path of 201 characters is cut, and another file is reviewed in its place. -/
theorem cut_path_unreviewed : ∃ payload,
    buildReviewPayload plainHost longNames [List.replicate 201 'a'] 32768 131072 = some payload ∧
      payload.complete = true ∧
      ¬ Reviewed plainHost longNames [List.replicate 201 'a'] 32768 131072 payload := by
  have hcomplete : (buildReviewPayload plainHost longNames [List.replicate 201 'a'] 32768 131072).map Payload.complete =
      some true := rfl
  obtain ⟨payload, hbuild, hcomplete⟩ := Option.map_eq_some_iff.mp hcomplete
  refine ⟨payload, hbuild, hcomplete, fun hreviewed => ?_⟩
  obtain ⟨-, -, hbuilt⟩ := built hbuild
  have hrepresented := hreviewed.represented hcomplete _ List.mem_cons_self
  obtain ⟨raw, -, hfiled⟩ := (hbuilt.represented_iff _).mp hrepresented
  have hnone : (filed longNames [List.replicate 201 'a']).filter (fun e => decide (e.1 = List.replicate 201 'a')) = [] := by
    rfl
  rw [hnone] at hfiled
  cases hfiled

end ReviewPayload
end Line
end DarkFactory
