import DarkFactory.Python.JsonValue
import DarkFactory.Python.Text

/-!
# DarkFactory.Workflow.Sanitize

What an operator submits is stripped of secrets, `_sanitize_payload_value` of `core/workflow/manual_resolution.py`.

* `looksLikeSecretValue` — the search for `_SECRET_PATTERN`.
* `Sanitised` — no secret is left, and nothing else is gone.
-/

namespace DarkFactory
namespace Workflow
namespace Sanitize

open Python Text

/-- What `re.IGNORECASE` takes a character for. -/
def foldCase (c : Char) : Char :=
  match c.toNat with
  | 0x130 | 0x131 => 'i'
  | 0x17f => 's'
  | 0x212a => 'k'
  | _ => c.toLower

def afterWord : List Char → List Char → Option (List Char)
  | [], cs => some cs
  | _ :: _, [] => none
  | p :: ps, c :: cs => if foldCase c = p then afterWord ps cs else none

def secretWords : List String :=
  ["password", "passwd", "token", "apikey", "api_key", "api-key", "secret", "credential", "accesstoken",
    "access_token", "access-token"]

/-- `\s*[:=]\s*[^\s]+` -/
def startsValue (cs : List Char) : Bool :=
  match cs.dropWhile isSpace with
  | c :: rest => (c == ':' || c == '=') && rest.any fun ch => !isSpace ch
  | [] => false

/-- `[^\s]+` -/
def startsText (cs : List Char) : Bool := cs.head?.any fun ch => !isSpace ch

def startsSecret (cs : List Char) : Bool :=
  (["postgres://", "postgresql://"].any fun word => (afterWord word.toList cs).any startsText) ||
    secretWords.any fun word => (afterWord word.toList cs).any startsValue

def looksLikeSecretValue (value : String) : Bool := value.toList.tails.any startsSecret

/-- The pattern and the length of an `Identifier`. -/
def isIdentifier (s : String) : Bool :=
  match s.toList with
  | [] => false
  | c :: cs => c.isAlphanum && (cs.all fun ch => ch.isAlphanum || "._:/-".toList.contains ch) && s.length ≤ 160

def isShortText (s : String) : Bool := strip s = s && 1 ≤ s.length && s.length ≤ 512

structure SecretReference where
  refId : String
  provider : String
  locator : String
  variableName : Option String
  refId_ok : isIdentifier refId = true
  provider_ok : isShortText provider = true
  locator_ok : isShortText locator = true
  variableName_ok : variableName.all isIdentifier = true
  provider_plain : looksLikeSecretValue provider = false
  locator_plain : looksLikeSecretValue locator = false

inductive Scalar where
  | null
  | bool (b : Bool)
  | int (n : Int)
  | float (x : Double)
deriving DecidableEq

inductive Payload where
  | scalar (x : Scalar)
  | str (s : String)
  | reference (ref : SecretReference)
  | tuple (items : List Payload)
  | list (items : List Payload)
  | dict (fields : List (String × Payload))

theorem Payload.inductionOn {motive : Payload → Prop} (scalar : ∀ x, motive (.scalar x)) (str : ∀ s, motive (.str s))
    (reference : ∀ ref, motive (.reference ref))
    (tuple : ∀ items, (∀ item ∈ items, motive item) → motive (.tuple items))
    (list : ∀ items, (∀ item ∈ items, motive item) → motive (.list items))
    (dict : ∀ fields, (∀ f ∈ fields, motive f.2) → motive (.dict fields)) (value : Payload) : motive value :=
  @Payload.rec motive (fun items => ∀ item ∈ items, motive item) (fun fields => ∀ f ∈ fields, motive f.2)
    (fun f => motive f.2) scalar str reference tuple list dict
    (List.forall_mem_nil _) (fun _ _ hitem hitems => List.forall_mem_cons.mpr ⟨hitem, hitems⟩)
    (List.forall_mem_nil _) (fun _ _ hf hfields => List.forall_mem_cons.mpr ⟨hf, hfields⟩)
    (fun _ _ hvalue => hvalue) value

/-- `str.lower`, and `str` of a value that is no string. -/
structure Host where
  lower : String → String
  str : Payload → String

def redacted : Payload := .str "[REDACTED]"

def SecretReference.fields (ref : SecretReference) : List (String × Payload) :=
  [("ref_id", .str ref.refId), ("provider", .str ref.provider), ("locator", .str ref.locator),
    ("variable_name", match ref.variableName with | some name => .str name | none => .scalar .null)]

def SecretReference.modelDump (ref : SecretReference) : Payload := .dict ref.fields

def field (fields : List (String × Payload)) (key : String) : Option Payload :=
  (fields.find? fun f => decide (f.1 = key)).map Prod.snd

def hasKey (fields : List (String × Payload)) (key : String) : Bool := fields.any fun f => decide (f.1 = key)

def isReferenceShaped (fields : List (String × Payload)) : Bool :=
  hasKey fields "ref_id" && hasKey fields "provider" && hasKey fields "locator"

section

variable (host : Host)

/-- `str(value)` -/
def textOf : Payload → String
  | .str s => s
  | value => host.str value

def sensitiveWords : List String :=
  ["password", "passwd", "token", "secret", "api_key", "apikey", "credential", "auth_header"]

def isSensitive (key : String) : Bool := sensitiveWords.any fun word => contains word (host.lower key)

/-- `_looks_like_secret_value(str(val.get("locator", "")))` -/
def hidesLocator (fields : List (String × Payload)) : Bool :=
  looksLikeSecretValue (textOf host ((field fields "locator").getD (.str "")))

def setLocator (fields : List (String × Payload)) : List (String × Payload) :=
  fields.map fun f => (f.1, if f.1 = "locator" then redacted else f.2)

/-- A reference, or a dict with a `ref_id`. -/
def holdsRefId : Payload → Bool
  | .reference _ => true
  | .dict fields => hasKey fields "ref_id"
  | _ => false

def isDictOrList : Payload → Bool
  | .dict _ | .list _ => true
  | _ => false

def hideText : Payload → Payload
  | .str s => if looksLikeSecretValue s then redacted else .str s
  | value => value

mutual

/-- `_sanitize_payload_value` -/
def sanitize : Payload → Payload
  | .reference ref => ref.modelDump
  | .dict fields =>
    if isReferenceShaped fields then .dict (if hidesLocator host fields then setLocator fields else fields)
    else .dict (sanitizeFields fields)
  | .list items => .list (sanitizeItems items)
  | .str s => hideText (.str s)
  | .tuple items => .tuple items
  | .scalar x => .scalar x

def sanitizeFields : List (String × Payload) → List (String × Payload)
  | [] => []
  | (key, value) :: rest =>
    (key, if isSensitive host key then if holdsRefId value then sanitize value else redacted
      else if isDictOrList value then sanitize value
      else hideText value) :: sanitizeFields rest

def sanitizeItems : List Payload → List Payload
  | [] => []
  | item :: rest => sanitize item :: sanitizeItems rest

end

def isReferenceField (f : String × Payload) : Bool :=
  match f.1, f.2 with
  | "ref_id", .str s | "variable_name", .str s => isIdentifier (strip s)
  | "provider", .str s | "locator", .str s => isShortText (strip s) && !looksLikeSecretValue (strip s)
  | "variable_name", .scalar .null => true
  | _, _ => false

def isGenuine (fields : List (String × Payload)) : Bool :=
  isReferenceShaped fields && fields.all isReferenceField

mutual

def strings : Payload → List String
  | .scalar _ => []
  | .str s => [s]
  | .reference ref => [ref.refId, ref.provider, ref.locator] ++ ref.variableName.toList
  | .tuple items | .list items => itemStrings items
  | .dict fields => fieldStrings fields

def itemStrings : List Payload → List String
  | [] => []
  | item :: rest => strings item ++ itemStrings rest

def fieldStrings : List (String × Payload) → List String
  | [] => []
  | (key, value) :: rest => key :: strings value ++ fieldStrings rest

end

mutual

/-- No text of the first value that is under a sensitive key, outside a genuine reference, is in its place in the
second. -/
def Hides : Bool → Payload → Payload → Prop
  | under, .str s, w => under = true → w = .str s → .str s = redacted
  | under, .tuple items, w => ∀ items', w = .tuple items' → HidesItems under items items'
  | under, .list items, w => ∀ items', w = .list items' → HidesItems under items items'
  | under, .dict fields, w =>
    isGenuine fields = false → ∀ fields', w = .dict fields' → HidesFields under fields fields'
  | _, .reference _, _ | _, .scalar _, _ => True

def HidesItems : Bool → List Payload → List Payload → Prop
  | under, v :: rest, w :: rest' => Hides under v w ∧ HidesItems under rest rest'
  | _, _, _ => True

def HidesFields : Bool → List (String × Payload) → List (String × Payload) → Prop
  | under, (key, v) :: rest, (_, w) :: rest' =>
    Hides (under || isSensitive host key) v w ∧ HidesFields under rest rest'
  | _, _, _ => True

end

mutual

/-- The second value is the first one, where a text that looks like a secret and what is under a sensitive key,
outside a genuine reference, may be redacted. -/
def Keeps : Bool → Payload → Payload → Prop
  | under, .scalar x, w => (under = true ∧ w = redacted) ∨ w = .scalar x
  | under, .str s, w => ((under = true ∨ looksLikeSecretValue s = true) ∧ w = redacted) ∨ w = .str s
  | _, .reference ref, w => w = .reference ref ∨ w = ref.modelDump
  | under, .tuple items, w =>
    (under = true ∧ w = redacted) ∨ ∃ items', w = .tuple items' ∧ KeepsItems under items items'
  | under, .list items, w =>
    (under = true ∧ w = redacted) ∨ ∃ items', w = .list items' ∧ KeepsItems under items items'
  | under, .dict fields, w =>
    if isGenuine fields then w = .dict fields
    else (under = true ∧ w = redacted) ∨ ∃ fields', w = .dict fields' ∧ KeepsFields under fields fields'

def KeepsItems : Bool → List Payload → List Payload → Prop
  | _, [], [] => True
  | under, v :: rest, w :: rest' => Keeps under v w ∧ KeepsItems under rest rest'
  | _, _, _ => False

def KeepsFields : Bool → List (String × Payload) → List (String × Payload) → Prop
  | _, [], [] => True
  | under, (key, v) :: rest, (key', w) :: rest' =>
    key' = key ∧ Keeps (under || isSensitive host key) v w ∧ KeepsFields under rest rest'
  | _, _, _ => False

end

structure Sanitised (under : Bool) (v w : Payload) : Prop where
  plain : ∀ s ∈ strings w, looksLikeSecretValue s = false
  hides : Hides host under v w
  keeps : Keeps host under v w

mutual

/-- What has to go stands where the walk looks at it: the rest of the value may stay as it is. -/
def Covered : Bool → Payload → Prop
  | _, .scalar _ => True
  | under, .str s => under = true → looksLikeSecretValue s = true ∨ .str s = redacted
  | under, .reference ref => Sanitised host under (.reference ref) (.reference ref)
  | under, .tuple items => Sanitised host under (.tuple items) (.tuple items)
  | under, .list items => CoveredItems under items
  | under, .dict fields =>
    if isReferenceShaped fields then
      if hidesLocator host fields then
        isGenuine fields = false ∧ ∀ f ∈ fields, looksLikeSecretValue f.1 = false ∧
          if f.1 = "locator" then Keeps host (under || isSensitive host f.1) f.2 redacted
          else Sanitised host (under || isSensitive host f.1) f.2 f.2
      else Sanitised host under (.dict fields) (.dict fields)
    else CoveredFields under fields

def CoveredItems : Bool → List Payload → Prop
  | _, [] => True
  | under, item :: rest => Covered under item ∧ CoveredItems under rest

def CoveredFields : Bool → List (String × Payload) → Prop
  | _, [] => True
  | under, (key, value) :: rest =>
    (looksLikeSecretValue key = false ∧
      if isSensitive host key then holdsRefId value = true → Covered true value else Covered under value) ∧
    CoveredFields under rest

end

def sanitizeField (key : String) (value : Payload) : Payload :=
  if isSensitive host key then if holdsRefId value then sanitize host value else redacted
  else if isDictOrList value then sanitize host value
  else hideText value

/-- What `Covered` asks of a field of a dict. -/
def CoveredField (under : Bool) (f : String × Payload) : Prop :=
  looksLikeSecretValue f.1 = false ∧
    if isSensitive host f.1 then holdsRefId f.2 = true → Covered host true f.2 else Covered host under f.2

variable {host}

theorem sanitizeItems_eq (items : List Payload) : sanitizeItems host items = items.map (sanitize host) := by
  induction items with
  | nil => rfl
  | cons item rest ih => rw [sanitizeItems, ih, List.map_cons]

theorem sanitizeFields_eq (fields : List (String × Payload)) :
    sanitizeFields host fields = fields.map fun f => (f.1, sanitizeField host f.1 f.2) := by
  induction fields with
  | nil => rfl
  | cons f rest ih => rw [sanitizeFields, ih, List.map_cons, sanitizeField]

theorem mem_itemStrings {items : List Payload} {s : String} :
    s ∈ itemStrings items ↔ ∃ item ∈ items, s ∈ strings item := by
  induction items with
  | nil => simp [itemStrings]
  | cons item rest ih => rw [itemStrings, List.mem_append, ih, List.exists_mem_cons_iff]

theorem mem_fieldStrings {fields : List (String × Payload)} {s : String} :
    s ∈ fieldStrings fields ↔ ∃ f ∈ fields, s = f.1 ∨ s ∈ strings f.2 := by
  induction fields with
  | nil => simp [fieldStrings]
  | cons f rest ih =>
    rw [fieldStrings, List.cons_append, List.mem_cons, List.mem_append, ih, List.exists_mem_cons_iff, or_assoc]

theorem hidesItems_map {under : Bool} {g : Payload → Payload} {items : List Payload} :
    HidesItems host under items (items.map g) ↔ ∀ item ∈ items, Hides host under item (g item) := by
  induction items with
  | nil => simp [HidesItems]
  | cons item rest ih => rw [List.map_cons, HidesItems, ih, List.forall_mem_cons]

theorem keepsItems_map {under : Bool} {g : Payload → Payload} {items : List Payload} :
    KeepsItems host under items (items.map g) ↔ ∀ item ∈ items, Keeps host under item (g item) := by
  induction items with
  | nil => simp [KeepsItems]
  | cons item rest ih => rw [List.map_cons, KeepsItems, ih, List.forall_mem_cons]

theorem hidesFields_map {under : Bool} {g : String × Payload → Payload} {fields : List (String × Payload)} :
    HidesFields host under fields (fields.map fun f => (f.1, g f)) ↔
      ∀ f ∈ fields, Hides host (under || isSensitive host f.1) f.2 (g f) := by
  induction fields with
  | nil => simp [HidesFields]
  | cons f rest ih => rw [List.map_cons, HidesFields, ih, List.forall_mem_cons]

theorem keepsFields_map {under : Bool} {g : String × Payload → Payload} {fields : List (String × Payload)} :
    KeepsFields host under fields (fields.map fun f => (f.1, g f)) ↔
      ∀ f ∈ fields, Keeps host (under || isSensitive host f.1) f.2 (g f) := by
  induction fields with
  | nil => simp [KeepsFields]
  | cons f rest ih =>
    rw [List.map_cons, KeepsFields, ih, List.forall_mem_cons]
    exact ⟨fun h => h.2, fun h => ⟨rfl, h⟩⟩

theorem coveredItems_iff {under : Bool} {items : List Payload} :
    CoveredItems host under items ↔ ∀ item ∈ items, Covered host under item := by
  induction items with
  | nil => simp [CoveredItems]
  | cons item rest ih => rw [CoveredItems, ih, List.forall_mem_cons]

theorem coveredFields_iff {under : Bool} {fields : List (String × Payload)} :
    CoveredFields host under fields ↔ ∀ f ∈ fields, CoveredField host under f := by
  induction fields with
  | nil => simp [CoveredFields]
  | cons f rest ih => rw [CoveredFields, ih, List.forall_mem_cons, CoveredField]

theorem redacted_plain : looksLikeSecretValue "[REDACTED]" = false := by decide +kernel

theorem sanitised_items {under : Bool} {g : Payload → Payload} {items : List Payload}
    {wrap : List Payload → Payload} (hwrap : wrap = .tuple ∨ wrap = .list) :
    Sanitised host under (wrap items) (wrap (items.map g)) ↔ ∀ item ∈ items, Sanitised host under item (g item) := by
  have hstrings : ∀ items', strings (wrap items') = itemStrings items' := by
    rcases hwrap with rfl | rfl <;> exact fun _ => rfl
  have hhides : Hides host under (wrap items) (wrap (items.map g)) ↔
      ∀ item ∈ items, Hides host under item (g item) := by
    rw [← hidesItems_map]
    rcases hwrap with rfl | rfl <;> simp [Hides]
  have hkeeps : Keeps host under (wrap items) (wrap (items.map g)) ↔
      ∀ item ∈ items, Keeps host under item (g item) := by
    rw [← keepsItems_map]
    rcases hwrap with rfl | rfl <;> simp [Keeps, redacted]
  constructor
  · intro h item hitem
    refine ⟨fun s hs => h.plain s ?_, hhides.mp h.hides item hitem, hkeeps.mp h.keeps item hitem⟩
    rw [hstrings, mem_itemStrings]
    exact ⟨g item, List.mem_map_of_mem hitem, hs⟩
  · intro h
    refine ⟨fun s hs => ?_, hhides.mpr fun item hitem => (h item hitem).hides,
      hkeeps.mpr fun item hitem => (h item hitem).keeps⟩
    rw [hstrings, mem_itemStrings] at hs
    obtain ⟨_, hmem, hs⟩ := hs
    obtain ⟨item, hitem, rfl⟩ := List.mem_map.mp hmem
    exact (h item hitem).plain s hs

theorem hasKey_map {g : String × Payload → Payload} {fields : List (String × Payload)} {key : String} :
    hasKey (fields.map fun f => (f.1, g f)) key = hasKey fields key := by
  rw [hasKey, List.any_map]
  rfl

theorem isReferenceShaped_map {g : String × Payload → Payload} {fields : List (String × Payload)} :
    isReferenceShaped (fields.map fun f => (f.1, g f)) = isReferenceShaped fields := by
  simp only [isReferenceShaped, hasKey_map]

theorem isGenuine_of_not_shaped {fields : List (String × Payload)} (h : isReferenceShaped fields = false) :
    isGenuine fields = false := by
  rw [isGenuine, h, Bool.false_and]

theorem sanitised_fields {under : Bool} {g : String × Payload → Payload} {fields : List (String × Payload)}
    (hgenuine : isGenuine fields = false) :
    Sanitised host under (.dict fields) (.dict (fields.map fun f => (f.1, g f))) ↔
      ∀ f ∈ fields, looksLikeSecretValue f.1 = false ∧ Sanitised host (under || isSensitive host f.1) f.2 (g f) := by
  have hhides : Hides host under (.dict fields) (.dict (fields.map fun f => (f.1, g f))) ↔
      ∀ f ∈ fields, Hides host (under || isSensitive host f.1) f.2 (g f) := by
    rw [← hidesFields_map]
    simp [Hides, hgenuine]
  constructor
  · intro h f hf
    have hplain : ∀ s, s = f.1 ∨ s ∈ strings (g f) → looksLikeSecretValue s = false := fun s hs =>
      h.plain s (mem_fieldStrings.mpr ⟨(f.1, g f), List.mem_map_of_mem hf, hs⟩)
    have hkeeps : Keeps host (under || isSensitive host f.1) f.2 (g f) := by
      have hdict := h.keeps
      rw [Keeps, hgenuine, if_neg Bool.false_ne_true] at hdict
      rcases hdict with ⟨_, hmarker⟩ | ⟨fields', hfields, hall⟩
      · cases hmarker
      · cases hfields
        exact keepsFields_map.mp hall f hf
    exact ⟨hplain f.1 (.inl rfl), fun s hs => hplain s (.inr hs), hhides.mp h.hides f hf, hkeeps⟩
  · intro h
    refine ⟨fun s hs => ?_, hhides.mpr fun f hf => (h f hf).2.hides, ?_⟩
    · obtain ⟨_, hmem, hs⟩ := mem_fieldStrings.mp hs
      obtain ⟨f, hf, rfl⟩ := List.mem_map.mp hmem
      rcases hs with rfl | hs
      · exact (h f hf).1
      · exact (h f hf).2.plain s hs
    · rw [Keeps, hgenuine, if_neg Bool.false_ne_true]
      exact .inr ⟨_, rfl, keepsFields_map.mpr fun f hf => (h f hf).2.keeps⟩

theorem sanitised_dump {under : Bool} {ref : SecretReference} :
    Sanitised host under (.reference ref) ref.modelDump ↔
      Sanitised host under (.reference ref) (.reference ref) := by
  have hkeys : ∀ s ∈ ["ref_id", "provider", "locator", "variable_name"], looksLikeSecretValue s = false := by
    decide +kernel
  have hstrings : (∀ s ∈ strings ref.modelDump, looksLikeSecretValue s = false) ↔
      ∀ s ∈ strings (.reference ref), looksLikeSecretValue s = false := by
    simp only [SecretReference.modelDump, SecretReference.fields, strings, fieldStrings]
    cases ref.variableName <;> simp [strings, hkeys]
  exact ⟨fun h => ⟨hstrings.mp h.plain, trivial, .inl rfl⟩, fun h => ⟨hstrings.mpr h.plain, trivial, .inr rfl⟩⟩

theorem sanitised_redacted {under : Bool} {v : Payload} :
    Sanitised host under v redacted ↔ Keeps host under v redacted := by
  refine ⟨Sanitised.keeps, fun h => ⟨fun s hs => ?_, ?_, h⟩⟩
  · cases List.mem_singleton.mp hs
    exact redacted_plain
  · cases v with
    | str s => exact fun _ hsame => hsame.symm
    | _ => simp [Hides, redacted]

theorem keeps_redacted {v : Payload} (hv : holdsRefId v = false) : Keeps host true v redacted := by
  cases v with
  | scalar x => exact .inl ⟨rfl, rfl⟩
  | str s => exact .inl ⟨.inl rfl, rfl⟩
  | tuple items => exact .inl ⟨rfl, rfl⟩
  | list items => exact .inl ⟨rfl, rfl⟩
  | reference ref => cases hv
  | dict fields =>
    have hgenuine : isGenuine fields = false := by
      refine isGenuine_of_not_shaped ?_
      rw [isReferenceShaped, show hasKey fields "ref_id" = false from hv, Bool.false_and, Bool.false_and]
    rw [Keeps, hgenuine, if_neg Bool.false_ne_true]
    exact .inl ⟨rfl, rfl⟩

theorem sanitised_text {under : Bool} {s : String} :
    Sanitised host under (.str s) (hideText (.str s)) ↔ Covered host under (.str s) := by
  rw [hideText, Covered]
  split
  · rename_i hlooks
    rw [sanitised_redacted]
    exact ⟨fun _ _ => .inl hlooks, fun _ => .inl ⟨.inr hlooks, rfl⟩⟩
  · rename_i hlooks
    rw [Bool.not_eq_true] at hlooks
    constructor
    · exact fun h hunder => .inr (h.hides hunder rfl)
    · intro h
      refine ⟨fun t ht => by rwa [List.mem_singleton.mp ht], fun hunder _ => ?_, .inr rfl⟩
      exact (h hunder).resolve_left (by rw [hlooks]; exact Bool.false_ne_true)

theorem sanitised_field {under : Bool} {f : String × Payload}
    (ih : ∀ under, Sanitised host under f.2 (sanitize host f.2) ↔ Covered host under f.2) :
    (looksLikeSecretValue f.1 = false ∧
      Sanitised host (under || isSensitive host f.1) f.2 (sanitizeField host f.1 f.2)) ↔
      CoveredField host under f := by
  obtain ⟨key, value⟩ := f
  rw [CoveredField, sanitizeField]
  refine and_congr_right fun _ => ?_
  split
  · rename_i hsensitive
    rw [hsensitive, Bool.or_true]
    split
    · rename_i hholds
      exact (ih true).trans ⟨fun h _ => h, fun h => h hholds⟩
    · rename_i hholds
      rw [Bool.not_eq_true] at hholds
      refine iff_of_true (sanitised_redacted.mpr (keeps_redacted hholds)) fun h => ?_
      rw [hholds] at h
      cases h
  · rename_i hsensitive
    rw [Bool.not_eq_true] at hsensitive
    rw [hsensitive, Bool.or_false]
    split
    · exact ih under
    · rename_i hcontainer
      cases value with
      | str s => exact sanitised_text
      | scalar x => exact ih under
      | tuple items => exact ih under
      -- a reference under a plain key stays an object
      | reference ref => exact Iff.of_eq (Covered.eq_3 ..).symm
      | list items => exact absurd rfl hcontainer
      | dict fields => exact absurd rfl hcontainer

theorem field_setLocator {fields : List (String × Payload)} (h : hasKey fields "locator" = true) :
    field (setLocator fields) "locator" = some redacted := by
  induction fields with
  | nil => cases h
  | cons f rest ih =>
    by_cases hkey : f.1 = "locator"
    · simp [setLocator, field, hkey]
    · rw [hasKey, List.any_cons, decide_eq_false hkey, Bool.false_or] at h
      rw [← ih h, setLocator, List.map_cons, field, List.find?_cons_of_neg (by simpa using hkey)]
      rfl

theorem hidesLocator_setLocator {fields : List (String × Payload)} (h : isReferenceShaped fields = true) :
    hidesLocator host (setLocator fields) = false := by
  rw [isReferenceShaped, Bool.and_eq_true] at h
  rw [hidesLocator, field_setLocator h.2]
  exact redacted_plain

theorem sanitised_shaped {under : Bool} {f : String × Payload} :
    Sanitised host under f.2 (if f.1 = "locator" then redacted else f.2) ↔
      if f.1 = "locator" then Keeps host under f.2 redacted else Sanitised host under f.2 f.2 := by
  split
  · exact sanitised_redacted
  · rfl

theorem sanitised_iff (v : Payload) : ∀ under, Sanitised host under v (sanitize host v) ↔ Covered host under v := by
  induction v using Payload.inductionOn with
  | scalar x =>
    intro under
    rw [sanitize, Covered]
    exact iff_of_true ⟨List.forall_mem_nil _, trivial, .inr rfl⟩ trivial
  | str s =>
    intro under
    rw [sanitize]
    exact sanitised_text
  | reference ref =>
    intro under
    rw [sanitize, Covered]
    exact sanitised_dump
  | tuple items ih =>
    intro under
    rw [sanitize, Covered]
  | list items ih =>
    intro under
    rw [sanitize, Covered, coveredItems_iff, sanitizeItems_eq, sanitised_items (.inr rfl)]
    exact forall₂_congr fun item hitem => ih item hitem under
  | dict fields ih =>
    intro under
    rw [sanitize, Covered]
    split
    · rename_i hshaped
      split
      · rename_i hhides
        constructor
        · intro h
          cases hgenuine : isGenuine fields with
          | true =>
            have hkeeps := h.keeps
            rw [Keeps, if_pos hgenuine] at hkeeps
            rw [← Payload.dict.inj hkeeps, hidesLocator_setLocator hshaped] at hhides
            cases hhides
          | false =>
            refine ⟨rfl, fun f hf => ?_⟩
            obtain ⟨hkey, hvalue⟩ := (sanitised_fields hgenuine).mp h f hf
            exact ⟨hkey, sanitised_shaped.mp hvalue⟩
        · rintro ⟨hgenuine, hfields⟩
          exact (sanitised_fields hgenuine).mpr fun f hf => ⟨(hfields f hf).1, sanitised_shaped.mpr (hfields f hf).2⟩
      · rfl
    · rename_i hshaped
      rw [Bool.not_eq_true] at hshaped
      rw [sanitizeFields_eq, coveredFields_iff,
        sanitised_fields (g := fun f => sanitizeField host f.1 f.2) (isGenuine_of_not_shaped hshaped)]
      exact forall₂_congr fun f hf => sanitised_field (ih f hf)

theorem hideText_idem (v : Payload) : hideText (hideText v) = hideText v := by
  cases v with
  | str s =>
    rw [hideText]
    split
    · rfl
    · rename_i hlooks
      rw [hideText, if_neg hlooks]
  | _ => rfl

theorem sanitize_modelDump (ref : SecretReference) : sanitize host ref.modelDump = ref.modelDump := by
  have hshaped : isReferenceShaped ref.fields = true := rfl
  have hlocator : hidesLocator host ref.fields = false := ref.locator_plain
  rw [SecretReference.modelDump, sanitize, hshaped, if_pos rfl, hlocator, if_neg Bool.false_ne_true]

theorem holdsRefId_sanitize {v : Payload} (h : holdsRefId v = true) : holdsRefId (sanitize host v) = true := by
  cases v with
  | reference ref => rfl
  | dict fields =>
    rw [sanitize]
    split
    · split
      · exact hasKey_map.trans h
      · exact h
    · rw [sanitizeFields_eq]
      exact hasKey_map.trans h
  | _ => cases h

theorem isDictOrList_sanitize {v : Payload} (h : isDictOrList v = true) : isDictOrList (sanitize host v) = true := by
  cases v with
  | list items => rfl
  | dict fields =>
    rw [sanitize]
    split <;> rfl
  | _ => cases h

theorem isDictOrList_hideText {v : Payload} (h : isDictOrList v = false) : isDictOrList (hideText v) = false := by
  cases v with
  | str s =>
    rw [hideText]
    split <;> rfl
  | _ => exact h

theorem sanitizeField_idem {key : String} {v : Payload} (ih : sanitize host (sanitize host v) = sanitize host v) :
    sanitizeField host key (sanitizeField host key v) = sanitizeField host key v := by
  by_cases hsensitive : isSensitive host key = true
  · simp only [sanitizeField, if_pos hsensitive]
    split
    · rename_i hholds
      rw [if_pos (holdsRefId_sanitize hholds), ih]
    · rfl
  · simp only [sanitizeField, if_neg hsensitive]
    split
    · rename_i hcontainer
      rw [if_pos (isDictOrList_sanitize hcontainer), ih]
    · rename_i hcontainer
      rw [Bool.not_eq_true] at hcontainer
      rw [isDictOrList_hideText hcontainer, if_neg Bool.false_ne_true, hideText_idem]

theorem sanitize_idem (v : Payload) : sanitize host (sanitize host v) = sanitize host v := by
  induction v using Payload.inductionOn with
  | scalar x => rfl
  | str s =>
    rw [sanitize]
    cases hlooks : looksLikeSecretValue s with
    | true =>
      rw [hideText, if_pos hlooks]
      rfl
    | false =>
      rw [hideText, hlooks, if_neg Bool.false_ne_true, sanitize, hideText, hlooks, if_neg Bool.false_ne_true]
  | reference ref => exact sanitize_modelDump ref
  | tuple items ih => rfl
  | list items ih =>
    rw [sanitize, sanitize, sanitizeItems_eq, sanitizeItems_eq, List.map_map]
    exact congrArg Payload.list (List.map_congr_left ih)
  | dict fields ih =>
    by_cases hshaped : isReferenceShaped fields = true
    · rw [sanitize, if_pos hshaped, sanitize]
      split
      · have hset : isReferenceShaped (setLocator fields) = true := isReferenceShaped_map.trans hshaped
        rw [if_pos hset, hidesLocator_setLocator hshaped, if_neg Bool.false_ne_true]
      · rfl
    · have hfields : isReferenceShaped (sanitizeFields host fields) = isReferenceShaped fields := by
        rw [sanitizeFields_eq, isReferenceShaped_map]
      rw [sanitize, if_neg hshaped, sanitize, hfields, if_neg hshaped, sanitizeFields_eq, sanitizeFields_eq,
        List.map_map]
      refine congrArg Payload.dict (List.map_congr_left fun f hf => ?_)
      rw [Function.comp_apply, sanitizeField_idem (ih f hf)]

/-- A payload comes out without a secret and otherwise as it was, and the same from a second walk, exactly if it is
covered. -/
theorem sanitize_complete_iff (v : Payload) :
    ((∀ s ∈ strings (sanitize host v), looksLikeSecretValue s = false) ∧ Hides host false v (sanitize host v) ∧
      Keeps host false v (sanitize host v) ∧ sanitize host (sanitize host v) = sanitize host v) ↔
      Covered host false v := by
  rw [← sanitised_iff]
  constructor
  · rintro ⟨hplain, hhides, hkeeps, _⟩
    exact ⟨hplain, hhides, hkeeps⟩
  · exact fun h => ⟨h.plain, h.hides, h.keeps, sanitize_idem v⟩

def asciiHost : Host := ⟨asciiLower, fun _ => ""⟩

/-- A dict with the keys of a reference is returned with all else that it holds. -/
def lookalike : Payload :=
  .dict [("ref_id", .str "sec-1"), ("provider", .str "vault"), ("locator", .str "app/key"),
    ("note", .str "password=x")]

theorem lookalike_keeps_password :
    ¬ ∀ (host : Host) (v : Payload),
      (∀ s ∈ strings (sanitize host v), looksLikeSecretValue s = false) ∧ Hides host false v (sanitize host v) ∧
        Keeps host false v (sanitize host v) ∧ sanitize host (sanitize host v) = sanitize host v := by
  intro h
  have hplain := (h asciiHost lookalike).1 "password=x" (by decide +kernel)
  exact absurd hplain (by decide +kernel)

end

end Sanitize
end Workflow
end DarkFactory
