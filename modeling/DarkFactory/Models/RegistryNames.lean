import Mathlib.Data.List.Nodup
import Mathlib.Data.List.Pairwise
import DarkFactory.Lib.Calls
import DarkFactory.Models.Registry

/-!
# DarkFactory.Models.RegistryNames

Which documents `parse_registry` accepts, and what `resolve` makes of a name in one of them. The validator keeps the
lowered aliases apart from each other and from the ids as they are written; `resolve` lowers the ids as well.

* `Accepted` — what the validator has checked of an accepted document.
* `CaseTwins` — an id that a name matches up to case, beside another entry that it matches too.
-/

namespace DarkFactory
namespace Models

inductive QualificationStatus where
  | approved | failed | grandfathered
deriving DecidableEq

def QUALIFIED_STATUSES : List QualificationStatus := [.approved, .grandfathered]

/-- An entry as a document has it; `qualification` is the status of its record. -/
structure DocumentEntry extends ModelEntry where
  provider : String
  qualification : Option QualificationStatus := none
deriving DecidableEq

structure ReviewPair where
  implementer : String
  reviewer : String
deriving DecidableEq

/-- The JSON document; the thresholds that the validator does not read are left out. -/
structure Document where
  quotaFloorPercent : Rat := QUOTA_FLOOR_MIN
  forbiddenAutonomousMarkers : List String := []
  models : List DocumentEntry
  roles : List (String × String) := []
  reviewPairs : List ReviewPair := []

/-- `str.lower` and `repr` of the strings a document holds. -/
structure Texts where
  lower : String → String
  repr : String → String

def ModelStatus.value : ModelStatus → String
  | .candidate => "candidate"
  | .active => "active"
  | .deprecated => "deprecated"
  | .retired => "retired"

namespace Document

def registry (doc : Document) : ModelRegistry where
  forbiddenAutonomousMarkers := doc.forbiddenAutonomousMarkers
  models := doc.models.map DocumentEntry.toModelEntry
  roles := doc.roles

/-- `by_id.get`. -/
def byId (doc : Document) (id : String) : Option DocumentEntry := doc.models.find? fun e => decide (e.id = id)

variable (texts : Texts)

/-- `min_length=1`, field by field. -/
def checkEntry (e : DocumentEntry) : Except String Unit :=
  if e.id = "" then .error "id"
  else if e.provider = "" then .error "provider"
  else if e.family = "" then .error "family"
  else if e.tier = "" then .error "tier"
  else .ok ()

def checkIds : List String → List DocumentEntry → Except String Unit
  | _, [] => .ok ()
  | seen, e :: rest =>
    if e.id ∈ seen then .error ("duplicate model id " ++ texts.repr e.id) else checkIds (e.id :: seen) rest

def aliasKey (a : String) : String := texts.lower (Text.strip a)

/-- The second loop over `[*entry.aliases, *entry.gateway_ids]` of all entries, with `names`. -/
def checkAliases (ids : List String) : List String → List String → Except String Unit
  | _, [] => .ok ()
  | names, a :: rest =>
    if aliasKey texts a ∈ names ∨ aliasKey texts a ∈ ids then
      .error ("alias " ++ texts.repr a ++ " collides with another alias or model id")
    else checkAliases ids (aliasKey texts a :: names) rest

def markers (given : List String) : List String :=
  (given.filter fun m => decide (Text.strip m ≠ "")).map fun m => texts.lower (Text.strip m)

def checkRole (doc : Document) (role : String × String) : Except String Unit :=
  match doc.byId role.2 with
  | none => .error ("role " ++ texts.repr role.1 ++ " points to unknown model " ++ texts.repr role.2)
  | some entry =>
    if entry.forbiddenAutonomous ∨
        ((markers texts doc.forbiddenAutonomousMarkers).any fun mk => Text.contains mk (texts.lower role.2)) then
      .error ("role " ++ texts.repr role.1 ++ " routes to forbidden autonomous model " ++ texts.repr role.2)
    else if entry.status ≠ .active then
      .error ("role " ++ texts.repr role.1 ++ " routes to " ++ texts.repr role.2 ++
        " without approved qualification (status=" ++ entry.status.value ++ ")")
    else .ok ()

def checkPair (doc : Document) (pair : ReviewPair) : Except String Unit :=
  match doc.roles.lookup pair.implementer, doc.roles.lookup pair.reviewer with
  | none, _ => .error ("review pair references unknown role " ++ texts.repr pair.implementer)
  | some _, none => .error ("review pair references unknown role " ++ texts.repr pair.reviewer)
  | some implementer, some reviewer =>
    if (doc.byId implementer).map (·.family) = (doc.byId reviewer).map (·.family) then
      .error ("reviewer " ++ texts.repr pair.reviewer ++ " is the same family as implementer " ++
        texts.repr pair.implementer)
    else .ok ()

def checkQualification (e : DocumentEntry) : Except String Unit :=
  if e.status = .active ∧ ∀ q ∈ e.qualification, q ∉ QUALIFIED_STATUSES then
    .error ("model " ++ texts.repr e.id ++ " cannot be active without approved qualification")
  else .ok ()

def invariants (doc : Document) : Except String Unit :=
  if doc.quotaFloorPercent < QUOTA_FLOOR_MIN then .error "quota_floor_percent must be >= 15.0"
  else do
    checkIds texts [] doc.models
    checkAliases texts (doc.models.map (·.id)) [] (doc.models.flatMap fun e => e.aliases ++ e.gatewayIds)
    doc.roles.forM (checkRole texts doc)
    doc.reviewPairs.forM (checkPair texts doc)
    doc.models.forM (checkQualification texts)

end Document

def parseRegistry (texts : Texts) (doc : Document) : Except String ModelRegistry := do
  doc.models.forM Document.checkEntry
  doc.invariants texts
  return doc.registry

namespace Document

variable {texts : Texts} {doc : Document}

theorem ok_of_forM {α : Type} {f : α → Except String Unit} {l : List α} (h : l.forM f = .ok ()) :
    ∀ x ∈ l, f x = .ok () := by
  induction l with
  | nil => nofun
  | cons x l ih =>
    obtain ⟨_, hx, hl⟩ := Calls.bind_ok.mp (show (do f x; l.forM f) = .ok () from h)
    exact List.forall_mem_cons.mpr ⟨hx, ih hl⟩

theorem checkIds_ok {seen : List String} {l : List DocumentEntry} (h : checkIds texts seen l = .ok ()) :
    (l.map (·.id)).Nodup ∧ ∀ e ∈ l, e.id ∉ seen := by
  induction l generalizing seen with
  | nil => exact ⟨List.nodup_nil, nofun⟩
  | cons e l ih =>
    rw [checkIds] at h
    split at h
    · cases h
    · rename_i hnew
      obtain ⟨hnodup, hseen⟩ := ih h
      refine ⟨List.nodup_cons.mpr ⟨?_, hnodup⟩, List.forall_mem_cons.mpr ⟨hnew, ?_⟩⟩
      · rintro hmem
        obtain ⟨e', he', heq⟩ := List.mem_map.mp hmem
        exact hseen e' he' (heq ▸ List.mem_cons_self)
      · intro e' he' hmem
        exact hseen e' he' (List.mem_cons_of_mem _ hmem)

theorem checkAliases_ok {ids names l : List String} (h : checkAliases texts ids names l = .ok ()) :
    (l.map (aliasKey texts)).Nodup ∧ ∀ a ∈ l, aliasKey texts a ∉ names ∧ aliasKey texts a ∉ ids := by
  induction l generalizing names with
  | nil => exact ⟨List.nodup_nil, nofun⟩
  | cons a l ih =>
    rw [checkAliases] at h
    split at h
    · cases h
    · rename_i hnew
      rw [not_or] at hnew
      obtain ⟨hnodup, hnames⟩ := ih h
      refine ⟨List.nodup_cons.mpr ⟨?_, hnodup⟩, List.forall_mem_cons.mpr ⟨hnew, ?_⟩⟩
      · rintro hmem
        obtain ⟨a', ha', heq⟩ := List.mem_map.mp hmem
        exact (hnames a' ha').1 (heq ▸ List.mem_cons_self)
      · intro a' ha'
        exact ⟨fun hmem => (hnames a' ha').1 (List.mem_cons_of_mem _ hmem), (hnames a' ha').2⟩

structure Accepted (texts : Texts) (doc : Document) : Prop where
  ids : (doc.models.map (·.id)).Nodup
  aliases : ((doc.models.flatMap fun e => e.aliases ++ e.gatewayIds).map (aliasKey texts)).Nodup
  routed : ∀ role ∈ doc.roles, ∃ e ∈ doc.models, e.id = role.2 ∧ e.status = .active ∧
    e.forbiddenAutonomous = false ∧
      ∀ mk ∈ markers texts doc.forbiddenAutonomousMarkers, Text.contains mk (texts.lower role.2) = false

theorem checkRole_ok {role : String × String} (h : checkRole texts doc role = .ok ()) :
    ∃ e ∈ doc.models, e.id = role.2 ∧ e.status = .active ∧ e.forbiddenAutonomous = false ∧
      ∀ mk ∈ markers texts doc.forbiddenAutonomousMarkers, Text.contains mk (texts.lower role.2) = false := by
  unfold checkRole at h
  split at h
  · cases h
  · rename_i e he
    unfold byId at he
    split at h
    · cases h
    · rename_i hforbidden
      split at h
      · cases h
      · rename_i hactive
        rw [not_or] at hforbidden
        have hid := List.find?_some he
        refine ⟨e, List.mem_of_find?_eq_some he, of_decide_eq_true hid, not_not.mp hactive,
          Bool.eq_false_of_not_eq_true hforbidden.1, fun mk hmk => ?_⟩
        exact Bool.eq_false_of_not_eq_true fun hmark => hforbidden.2 (List.any_eq_true.mpr ⟨mk, hmk, hmark⟩)

theorem accepted_of_invariants (h : doc.invariants texts = .ok ()) : Accepted texts doc := by
  unfold invariants at h
  split at h
  · cases h
  obtain ⟨_, hids, h⟩ := Calls.bind_ok.mp h
  obtain ⟨_, haliases, h⟩ := Calls.bind_ok.mp h
  obtain ⟨_, hroles, -⟩ := Calls.bind_ok.mp h
  exact ⟨(checkIds_ok hids).1, (checkAliases_ok haliases).1, fun role hrole =>
    checkRole_ok (ok_of_forM hroles role hrole)⟩

end Document

theorem parseRegistry_ok {texts : Texts} {doc : Document} {reg : ModelRegistry}
    (h : parseRegistry texts doc = .ok reg) : reg = doc.registry ∧ doc.Accepted texts := by
  obtain ⟨_, -, h⟩ := Calls.bind_ok.mp h
  obtain ⟨_, hinvariants, h⟩ := Calls.bind_ok.mp h
  cases h
  exact ⟨rfl, Document.accepted_of_invariants hinvariants⟩

namespace ModelRegistry

variable (texts : Texts) (reg : ModelRegistry)

/-- The entry has the name as its id or among its aliases and gateway ids, compared as `resolve` compares. -/
def Matches (e : ModelEntry) (name : String) : Prop :=
  texts.lower (Text.strip name) = texts.lower e.id ∨
    ∃ a ∈ e.aliases ++ e.gatewayIds, texts.lower (Text.strip name) = texts.lower (Text.strip a)

def Unambiguous (name : String) : Prop :=
  ∀ e ∈ reg.models, ∀ e' ∈ reg.models, Matches texts e name → Matches texts e' name → e = e'

def Safe (e : ModelEntry) : Prop :=
  e.status = .active ∧ e.forbiddenAutonomous = false ∧
    ∀ mk ∈ Document.markers texts reg.forbiddenAutonomousMarkers, Text.contains mk (texts.lower e.id) = false

def ResolvesSafely (name : String) : Prop :=
  ∀ id, resolve texts.lower reg name = some id → ∃ e ∈ reg.models, e.id = id ∧ Safe texts reg e

def CaseTwins (name : String) : Prop :=
  ∃ e ∈ reg.models, ∃ e' ∈ reg.models, e ≠ e' ∧
    texts.lower (Text.strip name) = texts.lower e.id ∧ Matches texts e' name

/-- A name that is no role means no active model that only its id forbids. -/
def MarkersKept (name : String) : Prop :=
  reg.roles.lookup (Text.strip name) = none → ∀ e ∈ reg.models, Matches texts e name → e.status = .active →
    e.forbiddenAutonomous = false →
      ∀ mk ∈ Document.markers texts reg.forbiddenAutonomousMarkers, Text.contains mk (texts.lower e.id) = false

variable {texts reg}

theorem find_some {name : String} {e : ModelEntry} (h : find texts.lower reg (Text.strip name) = some e) :
    e ∈ reg.models ∧ Matches texts e name := by
  unfold find at h
  refine ⟨List.mem_of_find?_eq_some h, ?_⟩
  have hmatch := List.find?_some h
  simp only [Text.strip_idem, Bool.or_eq_true, decide_eq_true_eq, List.any_eq_true] at hmatch
  exact hmatch

theorem find_isSome {name : String} {e : ModelEntry} (hmem : e ∈ reg.models) (hmatch : Matches texts e name) :
    ∃ e', find texts.lower reg (Text.strip name) = some e' := by
  unfold find
  refine Option.isSome_iff_exists.mp (List.find?_isSome.mpr ⟨e, hmem, ?_⟩)
  simp only [Text.strip_idem, Bool.or_eq_true, decide_eq_true_eq, List.any_eq_true]
  exact hmatch

theorem resolve_some {name id : String} (h : resolve texts.lower reg name = some id) :
    (Text.strip name, id) ∈ reg.roles ∨
      (reg.roles.lookup (Text.strip name) = none ∧ ∃ e ∈ reg.models, Matches texts e name ∧ e.id = id ∧
        e.status = .active ∧ e.forbiddenAutonomous = false) := by
  unfold resolve resolveTo at h
  simp only at h
  split at h
  · rename_i id' hrole
    cases h
    obtain ⟨l, l', heq, -⟩ := List.lookup_eq_some_iff.mp hrole
    rw [heq]
    exact .inl (List.mem_append_right _ List.mem_cons_self)
  · rename_i hrole
    split at h
    · rename_i e he
      split at h
      · cases h
      · rename_i hroutable
        cases h
        rw [not_or, not_not, List.mem_singleton] at hroutable
        obtain ⟨hmem, hmatch⟩ := find_some he
        exact .inr ⟨hrole, e, hmem, hmatch, rfl, hroutable.1, Bool.eq_false_of_not_eq_true hroutable.2⟩
    · cases h

theorem resolve_of_match {name : String} {e : ModelEntry} (hrole : reg.roles.lookup (Text.strip name) = none)
    (hfind : find texts.lower reg (Text.strip name) = some e) (hactive : e.status = .active)
    (hforbidden : e.forbiddenAutonomous = false) : resolve texts.lower reg name = some e.id := by
  unfold resolve resolveTo
  simp only [hrole, hfind, hactive, hforbidden, List.mem_singleton, not_true, Bool.false_eq_true, or_self, if_false]

theorem owner_unique {α β γ : Type} {f : α → List β} {g : β → γ} {l : List α}
    (h : ((l.flatMap f).map g).Nodup) {x y : α} (hx : x ∈ l) (hy : y ∈ l) {a b : β} (ha : a ∈ f x) (hb : b ∈ f y)
    (hab : g a = g b) : x = y := by
  rw [List.map_flatMap, List.nodup_flatMap] at h
  by_contra hne
  have hsymm : Std.Symm (Function.onFun List.Disjoint fun x => (f x).map g) := ⟨fun _ _ hd _ ha hb => hd hb ha⟩
  exact h.2.forall hx hy hne (List.mem_map_of_mem ha) (hab ▸ List.mem_map_of_mem hb)

theorem unambiguous_iff {doc : Document} (h : doc.Accepted texts) {name : String} :
    Unambiguous texts doc.registry name ↔ ¬ CaseTwins texts doc.registry name := by
  constructor
  · rintro hone ⟨e, he, e', he', hne, hid, hmatch⟩
    exact hne (hone e he e' he' (.inl hid) hmatch)
  · intro htwins e he e' he' hmatch hmatch'
    by_contra hne
    rcases hmatch with hid | ⟨a, ha, hlow⟩
    · exact htwins ⟨e, he, e', he', hne, hid, hmatch'⟩
    · rcases hmatch' with hid' | ⟨a', ha', hlow'⟩
      · exact htwins ⟨e', he', e, he, Ne.symm hne, hid', .inr ⟨a, ha, hlow⟩⟩
      · obtain ⟨d, hd, rfl⟩ := List.mem_map.mp he
        obtain ⟨d', hd', rfl⟩ := List.mem_map.mp he'
        exact hne (congrArg _ (owner_unique h.aliases hd hd' ha ha' (hlow.symm.trans hlow')))

/-- In an accepted document, a name means one model at most and only resolves to a safe one exactly if no id is its
twin, and no active model that it means carries a marker in its id alone. -/
theorem names_safe_iff (texts : Texts) (doc : Document) (reg : ModelRegistry) (name : String)
    (h : parseRegistry texts doc = .ok reg) :
    (Unambiguous texts reg name ∧ ResolvesSafely texts reg name) ↔
      ¬ CaseTwins texts reg name ∧ MarkersKept texts reg name := by
  obtain ⟨rfl, haccepted⟩ := parseRegistry_ok h
  rw [← unambiguous_iff haccepted]
  refine and_congr_right fun hone => ⟨fun hsafe hrole e he hmatch hactive hforbidden => ?_, fun hkept id hid => ?_⟩
  · obtain ⟨e', hfind⟩ := find_isSome he hmatch
    obtain ⟨he', hmatch'⟩ := find_some hfind
    obtain rfl := hone e he e' he' hmatch hmatch'
    obtain ⟨e'', -, heq, -, -, hmarkers⟩ := hsafe e.id (resolve_of_match hrole hfind hactive hforbidden)
    rw [heq] at hmarkers
    exact hmarkers
  · rcases resolve_some hid with hrole | ⟨hrole, e, he, hmatch, rfl, hactive, hforbidden⟩
    · obtain ⟨d, hd, hsame, hactive, hforbidden, hmarkers⟩ := haccepted.routed _ hrole
      refine ⟨d.toModelEntry, List.mem_map_of_mem hd, hsame, hactive, hforbidden, ?_⟩
      rw [hsame]
      exact hmarkers
    · exact ⟨e, he, rfl, hactive, hforbidden, hkept hrole e he hmatch hactive hforbidden⟩

def plainTexts : Texts := ⟨Text.asciiLower, fun s => "'" ++ s ++ "'"⟩

def approvedEntry (id : String) : DocumentEntry where
  id := id
  family := "f"
  tier := "mid"
  status := .active
  provider := "p"
  qualification := some .approved

/-- Two ids that differ by case, and an active model whose id carries a marker. -/
def looseDocument : Document where
  forbiddenAutonomousMarkers := ["fable"]
  models := [approvedEntry "Foo", approvedEntry "foo", approvedEntry "fable-6", approvedEntry "bar"]
  roles := [("development", "bar")]

theorem names_safe_bar :
    (Unambiguous plainTexts looseDocument.registry "Bar" ∧ ResolvesSafely plainTexts looseDocument.registry "Bar") ↔
      ¬ CaseTwins plainTexts looseDocument.registry "Bar" ∧ MarkersKept plainTexts looseDocument.registry "Bar" :=
  names_safe_iff plainTexts looseDocument looseDocument.registry "Bar" rfl

theorem loose_names_unsafe :
    parseRegistry plainTexts looseDocument = .ok looseDocument.registry ∧
      ¬ Unambiguous plainTexts looseDocument.registry "foo" ∧
      ¬ ResolvesSafely plainTexts looseDocument.registry "fable-6" := by
  refine ⟨rfl, ?_, ?_⟩
  · intro h
    have hsame := h (approvedEntry "Foo").toModelEntry (by decide) (approvedEntry "foo").toModelEntry (by decide)
      (.inl (by decide)) (.inl (by decide))
    exact absurd (congrArg ModelEntry.id hsame) (by decide)
  · intro h
    obtain ⟨e, -, hid, -, -, hmarkers⟩ := h "fable-6" (by decide)
    have hmark := hmarkers "fable" (by decide)
    rw [hid] at hmark
    exact absurd hmark (by decide)

end ModelRegistry

end Models
end DarkFactory
