import Mathlib.Algebra.GroupWithZero.Nat
import Mathlib.Data.List.Dedup
import Mathlib.Data.List.Lex
import Mathlib.Data.Char
import DarkFactory.Lib.Redaction
import DarkFactory.Python.JsonValue
import DarkFactory.Python.Text
import DarkFactory.Python.Sort

/-!
# DarkFactory.Line.ReviewPayload

The bounded context of a review, of `core/line/review_payload.py`, and the redactor of `core/line/agent_cli.py`.

* `Tree` — the context files and the worktree: what a path resolves to, and what can be read there.
* `redactSecrets` — the values of the secret variables, then the four patterns.
* `buildReviewPayload` — SPEC, tickets and the changed files, each cut to what is left of the budget. None where the
  code raises.
-/

namespace DarkFactory
namespace Line
namespace ReviewPayload

open Python

inductive Loaded where
  | value (v : JsonValue)
  /-- a `JSONDecodeError` -/
  | invalid
  /-- any other exception, here or when a text with a lone surrogate is encoded -/
  | raises

structure Host (Digest : Type) where
  /-- `os.environ.get(name, "")` of the secret variables -/
  secretValues : List (List Char)
  /-- the characters that a character is equal to under `(?i)` -/
  variants : Char → List Char
  /-- `\w` -/
  isWord : Char → Bool
  loads : List Char → Loaded
  sha256 : List UInt8 → Digest
  sha256_injective : Function.Injective sha256

variable {Digest : Type}

def redactedMark : List Char := "[REDACTED]".toList

/-- `[A-Za-z0-9_\-]` -/
def tokenChar (c : Char) : Bool := c.isAlphanum || c == '_' || c == '-'

/-- `[A-Za-z0-9._~+/=\-]` -/
def bearerChar (c : Char) : Bool := c.isAlphanum || "._~+/=-".toList.contains c

/-- `\b` before a character of a word. -/
def Host.boundary (h : Host Digest) (before : Option Char) : Bool := !(before.any h.isWord)

/-- What is left after a literal under `(?i)`. -/
def Host.literal (h : Host Digest) : List Char → List Char → Option (List Char)
  | [], cs => some cs
  | _ :: _, [] => none
  | l :: ls, c :: cs => if (h.variants c).contains l then h.literal ls cs else none

/-- The length of `text` up to what is left of it, when this is a match. -/
def matched (text : List Char) (rest : Option (List Char)) : Nat :=
  match rest with
  | none => 0
  | some rest => text.length - rest.length

def many (p : Char → Bool) (atLeast : Nat) (cs : List Char) : Option (List Char) :=
  if atLeast ≤ (cs.takeWhile p).length then some (cs.dropWhile p) else none

def dropLiteral (literal cs : List Char) : Option (List Char) :=
  if literal.isPrefixOf cs then some (cs.drop literal.length) else none

/-- `out.replace(value, _REDACTED)`, for values of at least eight characters. -/
def valuePattern (value : List Char) : Redaction.Pattern := fun _ text => matched text (dropLiteral value text)

/-- `sk-ant-[A-Za-z0-9_\-]+` -/
def antPattern : Redaction.Pattern := fun _ text =>
  matched text ((dropLiteral "sk-ant-".toList text).bind (many tokenChar 1))

/-- `\bsk-[A-Za-z0-9_\-]{16,}` -/
def skPattern (h : Host Digest) : Redaction.Pattern := fun before text =>
  if h.boundary before then matched text ((dropLiteral "sk-".toList text).bind (many tokenChar 16)) else 0

/-- `(?i)\bBearer\s+[A-Za-z0-9._~+/=\-]+` -/
def bearerPattern (h : Host Digest) : Redaction.Pattern := fun before text =>
  if h.boundary before then
    matched text (((h.literal "Bearer".toList text).bind (many Text.isSpace 1)).bind
      (many (fun c => (h.variants c).any bearerChar) 1))
  else 0

def secretNames : List (List Char) :=
  ["CLAUDE_CODE_OAUTH_TOKEN".toList, "ANTHROPIC_API_KEY".toList, "OPENAI_API_KEY".toList, "OPENROUTER_API_KEY".toList]

/-- `\s*[=:]\s*\S+` -/
def assignment (cs : List Char) : Option (List Char) :=
  match cs.dropWhile Text.isSpace with
  | '=' :: cs | ':' :: cs => many (fun c => !Text.isSpace c) 1 (cs.dropWhile Text.isSpace)
  | _ => none

/-- `(?i)\b(CLAUDE_CODE_OAUTH_TOKEN|ANTHROPIC_API_KEY|OPENAI_API_KEY|OPENROUTER_API_KEY)\s*[=:]\s*\S+` -/
def namePattern (h : Host Digest) : Redaction.Pattern := fun before text =>
  if h.boundary before then
    matched text (secretNames.findSome? fun name => (h.literal name text).bind assignment)
  else 0

def Host.patterns (h : Host Digest) : List Redaction.Pattern :=
  (h.secretValues.filter fun value => decide (8 ≤ value.length)).map valuePattern ++
    [antPattern, skPattern h, bearerPattern h, namePattern h]

def Host.redactSecrets (h : Host Digest) (text : List Char) : List Char := Redaction.redact id redactedMark h.patterns text

def cutUtf8 (text : List Char) (budget : Nat) : List Char × Bool :=
  let raw := encode text
  if raw.length ≤ budget then (text, false) else (decodeBelow raw budget, true)

structure Budget where
  perItem : Nat
  remaining : Nat

structure Clipped where
  included : List Char
  size : Nat
  truncated : Bool

def Budget.clip (b : Budget) (text : List Char) : Clipped × Budget :=
  let allowance := min b.perItem b.remaining
  let (included, truncated) := cutUtf8 text allowance
  let size := (encode included).length
  (⟨included, size, truncated⟩, { b with remaining := b.remaining - size })

def contextSpecPath : List Char := "context/SPEC.md".toList

def contextTicketsPath : List Char := "context/tickets.json".toList

inductive Reason where
  | specMissing
  | specUnreadable
  | specEmpty
  | specNotIncluded
  | ticketsMissing
  | ticketsUnreadable
  | ticketsEmpty
  | ticketsNotIncluded
  | changedUnreadable (path : List Char)
  | changedOutside (label : List Char)
  deriving DecidableEq

structure ManifestItem (Digest : Type) where
  path : List Char
  sha256 : Digest
  bytesIncluded : Nat
  truncated : Bool

structure FileSlice where
  path : List Char
  text : List Char

structure Payload (Digest : Type) where
  complete : Bool
  reasons : List Reason
  criteria : List (List Char)
  slices : List FileSlice
  manifest : List (ManifestItem Digest)

def itemConsistent (sl : FileSlice) (item : ManifestItem Digest) : Bool :=
  decide (sl.path = item.path) && decide (item.path ≠ []) && !item.path.contains '\\' &&
    !(item.path.head? == some '/') && !(Text.splitList '/' item.path).contains "..".toList &&
    decide (item.bytesIncluded = (encode sl.text).length)

def Payload.consistent (p : Payload Digest) : Bool :=
  !(p.complete && !p.reasons.isEmpty) && !(!p.complete && p.reasons.isEmpty) &&
    decide (p.slices.length = p.manifest.length) && (p.slices.zip p.manifest).all fun pair => itemConsistent pair.1 pair.2

inductive Source where
  | missing
  | unreadable
  | bytes (raw : List UInt8)

inductive Resolved where
  /-- an `OSError`, or a place outside the tree -/
  | outside
  /-- an exception that is not caught, of a loop of symbolic links or when the kind of the place is asked for -/
  | raises
  /-- the posix path of the place in the tree -/
  | inside (display : List Char)

structure Tree where
  spec : Source
  tickets : Source
  /-- `(root / path).resolve()`, relative to `root.resolve()` -/
  resolve : List Char → Resolved
  /-- what is read at a resolved place -/
  source : List Char → Source

def decodeUtf8 (raw : List UInt8) : Option (List Char) :=
  decode (if [0xef, 0xbb, 0xbf].isPrefixOf raw then raw.drop 3 else raw)

/-- What is gathered: the budget left, the reasons, and the slices with their items. -/
structure Gathered (Digest : Type) where
  budget : Budget
  reasons : List Reason
  pieces : List (FileSlice × ManifestItem Digest)

def Gathered.reason (g : Gathered Digest) (r : Reason) : Gathered Digest := { g with reasons := g.reasons ++ [r] }

def Gathered.problem (g : Gathered Digest) : Option Reason → Gathered Digest
  | none => g
  | some r => g.reason r

variable (h : Host Digest)

def sliceRaw (path : List Char) (raw : List UInt8) (budget : Budget) : Option ((FileSlice × ManifestItem Digest) × Budget) :=
  (decodeUtf8 raw).map fun decoded =>
    let (clipped, budget) := budget.clip (h.redactSecrets decoded)
    ((⟨path, clipped.included⟩, ⟨path, h.sha256 raw, clipped.size, clipped.truncated⟩), budget)

def Gathered.add (g : Gathered Digest) (piece : (FileSlice × ManifestItem Digest) × Budget) : Gathered Digest :=
  { g with budget := piece.2, pieces := g.pieces ++ [piece.1] }

def criteriaKeys : List String := ["acceptance", "acceptance_criteria", "criteria"]

def nonblank (text : List Char) : List (List Char) := if Text.stripList text = [] then [] else [Text.stripList text]

def stringItem : JsonValue → Option (List (List Char))
  | .str s => some (nonblank s.toList)
  | _ => none

def stringList : JsonValue → Option (List (List Char))
  | .arr items => (items.mapM stringItem).map List.flatten
  | _ => none

def criteriaAt (fields : List (String × JsonValue)) (key : String) : Option (List (List Char)) :=
  match JsonValue.field fields key with
  | none => some []
  | some value => stringList value

def criteriaFromMapping (fields : List (String × JsonValue)) : Option (List (List Char)) :=
  (criteriaKeys.mapM (criteriaAt fields)).map List.flatten

def criteriaOf : JsonValue → Option (List (List Char))
  | .str s => some (nonblank s.toList)
  | .obj fields => criteriaFromMapping fields
  | _ => none

def ticketBody : JsonValue → Option (List JsonValue × List (List Char))
  | .obj fields =>
    match JsonValue.field fields "tickets" with
    | none => (criteriaFromMapping fields).map fun extra => ([], extra)
    | some (.arr tickets) => (criteriaFromMapping fields).map fun extra => (tickets, extra)
    | some _ => none
  | .arr items => some (items, [])
  | _ => none

def foundCriteria (v : JsonValue) : Option (List (List Char)) :=
  (ticketBody v).bind fun body => (body.1.mapM criteriaOf).map fun found => found.flatten ++ body.2

/-- `_parse_criteria(decoded)`, or none where it raises. -/
def parseCriteria (decoded : List Char) : Option (List (List Char) × Option Reason) :=
  match h.loads decoded with
  | .raises => none
  | .invalid => some ([], some .ticketsUnreadable)
  | .value v =>
    match foundCriteria v with
    | none => some ([], some .ticketsUnreadable)
    | some [] => some ([], some .ticketsEmpty)
    | some found => some (found.map h.redactSecrets, none)

def loadSpec (t : Tree) (g : Gathered Digest) : Gathered Digest :=
  match t.spec with
  | .missing => g.reason .specMissing
  | .unreadable => g.reason .specUnreadable
  | .bytes raw =>
    match decodeUtf8 raw with
    | none => g.reason .specUnreadable
    | some decoded =>
      let blankSource := decide (Text.stripList decoded = [])
      let g := if blankSource then g.reason .specEmpty else g
      match sliceRaw h contextSpecPath raw g.budget with
      | none => g.reason .specUnreadable
      | some piece =>
        let g := g.add piece
        if Text.stripList piece.1.1.text = [] && !blankSource then g.reason .specNotIncluded else g

def includeCriteria (g : Gathered Digest) : List (List Char) → List (List Char) × Gathered Digest
  | [] => ([], g)
  | criterion :: criteria =>
    let (clipped, budget) := g.budget.clip (h.redactSecrets criterion)
    let g := { g with budget }
    if Text.stripList clipped.included = [] || clipped.truncated then
      includeCriteria (g.reason .ticketsNotIncluded) criteria
    else
      let (included, g) := includeCriteria g criteria
      (clipped.included :: included, g)

def loadTickets (t : Tree) (g : Gathered Digest) : Option (List (List Char) × Gathered Digest) :=
  match t.tickets with
  | .missing => some ([], g.reason .ticketsMissing)
  | .unreadable => some ([], g.reason .ticketsUnreadable)
  | .bytes raw =>
    match decodeUtf8 raw with
    | none => some ([], g.reason .ticketsUnreadable)
    | some decoded =>
      match parseCriteria h decoded with
      | none => none
      | some (criteria, problem) =>
        let g := g.problem problem
        match sliceRaw h contextTicketsPath raw g.budget with
        | none => some ([], if g.reasons.contains .ticketsUnreadable then g else g.reason .ticketsUnreadable)
        | some piece =>
          let g := g.add piece
          let g := if Text.stripList piece.1.1.text = [] || piece.1.2.truncated then g.reason .ticketsNotIncluded else g
          let (included, g) := includeCriteria h g criteria
          let included := if criteria ≠ [] ∧ included.length ≠ criteria.length then [] else included
          some (included, if included.isEmpty && !g.reasons.contains .ticketsNotIncluded then
            g.reason .ticketsNotIncluded else g)

def reasonPath (raw : List Char) : List Char :=
  (Text.stripList ((raw.map fun c => if c = '\\' then '/' else c).filter fun c => c ≠ '\n' && c ≠ '\r')).take 200

inductive Located where
  | outside (cleaned : List Char)
  | raises
  | file (display : List Char)
  deriving DecidableEq

def locate (t : Tree) (rawPath : List Char) : Located :=
  let cleaned := reasonPath rawPath
  if cleaned = [] || cleaned.head? == some '/' || cleaned.contains ':' ||
      (Text.splitList '/' cleaned).contains "..".toList then .outside cleaned
  else
    match t.resolve cleaned with
    | .outside => .outside cleaned
    | .raises => .raises
    | .inside display => if display = [] || display = ['.'] then .outside cleaned else .file display

def displayOf (t : Tree) (rawPath : List Char) : Option (List Char) :=
  match locate t rawPath with
  | .file display => some display
  | _ => none

def outsideLabel (t : Tree) (rawPath : List Char) : Option (List Char) :=
  match locate t rawPath with
  | .outside cleaned => some (if cleaned = [] then "(vazio)".toList else cleaned)
  | _ => none

def addChanged (t : Tree) (g : Gathered Digest) (display : List Char) : Gathered Digest :=
  match t.source display with
  | .bytes raw =>
    match sliceRaw h display raw g.budget with
    | none => g.reason (.changedUnreadable display)
    | some piece => g.add piece
  | _ => g.reason (.changedUnreadable display)

/-- `sorted` of the keys of a dict or of a set -/
def sortedSet (l : List (List Char)) : List (List Char) := sortAsc id l.dedup

def loadChanged (t : Tree) (changedPaths : List (List Char)) (g : Gathered Digest) : Option (Gathered Digest) :=
  if changedPaths.any fun p => locate t p = .raises then none
  else
    let g := (sortedSet (changedPaths.filterMap (displayOf t))).foldl (addChanged h t) g
    some ((sortedSet (changedPaths.filterMap (outsideLabel t))).foldl (fun g label => g.reason (.changedOutside label)) g)

def buildReviewPayload (t : Tree) (changedPaths : List (List Char)) (itemBudgetBytes totalBudgetBytes : Int) :
    Option (Payload Digest) :=
  if itemBudgetBytes < 0 ∨ totalBudgetBytes < 0 then none
  else
    let g := loadSpec h t ⟨⟨itemBudgetBytes.toNat, totalBudgetBytes.toNat⟩, [], []⟩
    match loadTickets h t g with
    | none => none
    | some (criteria, g) =>
      match loadChanged h t changedPaths g with
      | none => none
      | some g =>
        let payload : Payload Digest := ⟨g.reasons.isEmpty, g.reasons, criteria, g.pieces.map Prod.fst, g.pieces.map Prod.snd⟩
        if payload.consistent then some payload else none

end ReviewPayload
end Line
end DarkFactory
