import DarkFactory.Lib.Redaction
import DarkFactory.Python.Digits
import DarkFactory.Python.Text

/-!
# DarkFactory.OwnerActions.Secrets

`_SECRET_PATTERNS`, `find_secrets` and `redact` of `core/owner_actions/models.py`.

* `secretPatterns` — the eight patterns in their order.
* `findSecrets`, `redact` — the names of the patterns with a match, and the text with all matches replaced.
-/

namespace DarkFactory
namespace OwnerActions
namespace Secrets

open Text

/-- The letters and digits of `str.isalnum` outside ASCII, decimal digits apart. -/
structure Alphabet where
  letters : Char → Bool

abbrev Matcher := Option Char → List Char → Option (List Char)

/-- `\d` -/
def isDigit (c : Char) : Bool := (digitValue c).isSome

/-- `\w` -/
def Alphabet.isWord (al : Alphabet) (c : Char) : Bool :=
  c.isAlphanum || c == '_' || isDigit c || (128 ≤ c.toNat && al.letters c)

/-- `\b` between two characters or ends of the text. -/
def Alphabet.boundary (al : Alphabet) (before after : Option Char) : Bool :=
  before.any al.isWord != after.any al.isWord

/-- `[..]{lo,hi}\b`, as long as it can be. -/
def Alphabet.greedy (al : Alphabet) (p : Char → Bool) :
    Nat → Nat → Option Char → List Char → Option (List Char)
  | lo, 0, before, cs => if lo = 0 ∧ al.boundary before cs.head? then some cs else none
  | lo, _ + 1, before, [] => if lo = 0 ∧ al.boundary before none then some [] else none
  | lo, hi + 1, before, c :: cs =>
    let stop := if lo = 0 ∧ al.boundary before (some c) then some (c :: cs) else none
    if p c then (al.greedy p (lo - 1) hi (some c) cs).or stop else stop

theorem afterList_some {p cs rest : List Char} (h : afterList p cs = some rest) : cs = p ++ rest := by
  unfold afterList at h
  split at h
  · rename_i hp
    obtain ⟨t, rfl⟩ := List.isPrefixOf_iff_prefix.mp hp
    rw [List.drop_left] at h
    rw [Option.some.inj h]
  · cases h

/-- `[..]{lo,}` of a class that the rest of the pattern has no character of. -/
def many (p : Char → Bool) (lo : Nat) (cs : List Char) : Option (List Char) :=
  if lo ≤ (cs.takeWhile p).length then some (cs.dropWhile p) else none

/-- `\blead[..]{lo,hi}\b` -/
def Alphabet.token (al : Alphabet) (lead : List Char → Option (List Char)) (p : Char → Bool) (lo : Nat)
    (hi : Option Nat) : Matcher := fun before cs =>
  if al.boundary before cs.head? then (lead cs).bind fun rest => al.greedy p lo (hi.getD rest.length) none rest
  else none

def afterOneOf (words : List String) (cs : List Char) : Option (List Char) :=
  words.findSome? fun word => afterList word.toList cs

def isUpper (c : Char) : Bool := 'A' ≤ c && c ≤ 'Z'

def isNameChar (c : Char) : Bool := c.isAlphanum || c == '_'

def isTokenChar (c : Char) : Bool := c.isAlphanum || c == '_' || c == '-'

def isAwsChar (c : Char) : Bool := c.isDigit || isUpper c

def isSlackChar (c : Char) : Bool := c.isAlphanum || c == '-'

/-- `[A-Za-z0-9._~+/=-]` under `(?i)`, where four more characters fold to a letter. -/
def isBearerChar (c : Char) : Bool :=
  c.isAlphanum || "._~+/=-".toList.contains c || [0x130, 0x131, 0x17f, 0x212a].contains c.toNat

/-- `[^/\s@<>"']` -/
def isPasswordChar (c : Char) : Bool := !(isSpace c || ['/', '@', '<', '>', Char.ofNat 34, Char.ofNat 39].contains c)

/-- `[^/\s:@<>"']` -/
def isUserChar (c : Char) : Bool := isPasswordChar c && c != ':'

/-- `bearer` under `(?i)` -/
def afterFolded : List Char → List Char → Option (List Char)
  | [], cs => some cs
  | _ :: _, [] => none
  | l :: ls, c :: cs => if c.toLower = l then afterFolded ls cs else none

/-- `\d{8,12}:` -/
def telegramLead (cs : List Char) : Option (List Char) :=
  let digits := cs.takeWhile isDigit
  if 8 ≤ digits.length ∧ digits.length ≤ 12 then afterList [':'] (cs.dropWhile isDigit) else none

/-- `\b\d{8,12}:[A-Za-z0-9_-]{30,}\b` -/
def telegramBotToken (al : Alphabet) : Matcher := al.token telegramLead isTokenChar 30 none

/-- `\b(?:ghp|gho|ghu|ghs|ghr)_[A-Za-z0-9]{30,}\b` -/
def githubShort (al : Alphabet) : Matcher :=
  al.token (afterOneOf ["ghp_", "gho_", "ghu_", "ghs_", "ghr_"]) Char.isAlphanum 30 none

/-- `\bgithub_pat_[A-Za-z0-9_]{30,}\b` -/
def githubLong (al : Alphabet) : Matcher := al.token (afterOneOf ["github_pat_"]) isNameChar 30 none

def githubToken (al : Alphabet) : Matcher := fun before cs => (githubShort al before cs).or (githubLong al before cs)

/-- `\bsk-[A-Za-z0-9_-]{20,}\b` -/
def apiKey (al : Alphabet) : Matcher := al.token (afterOneOf ["sk-"]) isTokenChar 20 none

/-- `\bAKIA[0-9A-Z]{16}\b` -/
def awsAccessKey (al : Alphabet) : Matcher := al.token (afterOneOf ["AKIA"]) isAwsChar 16 (some 16)

/-- `\bxox[abprs]-[A-Za-z0-9-]{10,}\b` -/
def slackToken (al : Alphabet) : Matcher :=
  al.token (afterOneOf ["xoxa-", "xoxb-", "xoxp-", "xoxr-", "xoxs-"]) isSlackChar 10 none

/-- `(?i)\bbearer\s+[A-Za-z0-9._~+/=-]{24,}` -/
def bearerToken (al : Alphabet) : Matcher := fun before cs =>
  if al.boundary before cs.head? then
    ((afterFolded "bearer".toList cs).bind (many isSpace 1)).bind (many isBearerChar 24)
  else none

/-- `-----BEGIN [A-Z ]*PRIVATE KEY-----`: a dash ends the class, so the words end what the class takes. -/
def privateKey : Matcher := fun _ cs =>
  (afterList "-----BEGIN ".toList cs).bind fun rest =>
    if "PRIVATE KEY".toList.isSuffixOf (rest.takeWhile fun c => isUpper c || c == ' ') then
      afterList "-----".toList (rest.dropWhile fun c => isUpper c || c == ' ')
    else none

/-- `[A-Z]{3,10}@` takes a whole password. -/
def isPlaceholder (password : List Char) : Bool :=
  3 ≤ password.length && password.length ≤ 10 && password.all isUpper

/-- `://[^/\s:@<>"']+:(?![A-Z]{3,10}@)(?!<)[^/\s@<>"']{6,}@` -/
def urlPassword : Matcher := fun _ cs =>
  ((afterList "://".toList cs).bind (many isUserChar 1)).bind fun rest =>
    (afterList [':'] rest).bind fun rest =>
      if isPlaceholder (rest.takeWhile isPasswordChar) then none
      else (many isPasswordChar 6 rest).bind (afterList ['@'])

def secretPatterns (al : Alphabet) : List (String × Matcher) :=
  [("telegram-bot-token", telegramBotToken al), ("github-token", githubToken al), ("api-key", apiKey al),
    ("aws-access-key", awsAccessKey al), ("slack-token", slackToken al), ("bearer-token", bearerToken al),
    ("private-key", privateKey), ("url-password", urlPassword)]

/-- `pattern.search(text)` finds a match, in a text that stands after a character. -/
def Matcher.searchFrom (m : Matcher) : Option Char → List Char → Bool
  | before, [] => (m before []).isSome
  | before, c :: cs => (m before (c :: cs)).isSome || m.searchFrom (some c) cs

def Matcher.search (m : Matcher) (cs : List Char) : Bool := m.searchFrom none cs

def Matcher.pattern (m : Matcher) : Redaction.Pattern := fun before cs =>
  match m before cs with
  | none => 0
  | some rest => cs.length - rest.length

def redacted : List Char := "[REDACTED]".toList

def findSecrets (al : Alphabet) (text : String) : List String :=
  ((secretPatterns al).filter fun p => p.2.search text.toList).map Prod.fst

def redactList (al : Alphabet) (cs : List Char) : List Char :=
  Redaction.redact id redacted ((secretPatterns al).map fun p => p.2.pattern) cs

def redact (al : Alphabet) (text : String) : String := String.ofList (redactList al text.toList)

theorem isWord_bracket (al : Alphabet) : al.isWord '[' = false := by
  have hdigit : isDigit '[' = false := by decide
  rw [Alphabet.isWord, hdigit]
  rfl

theorem matcher_bracket (al : Alphabet) {p : String × Matcher} (hp : p ∈ secretPatterns al) (cs : List Char) :
    p.2 none ('[' :: cs) = none := by
  have hboundary : al.boundary none (some '[') = false := by
    rw [Alphabet.boundary, Option.any_some, isWord_bracket]
    rfl
  have htoken : ∀ lead p lo hi, al.token lead p lo hi none ('[' :: cs) = none := by
    intro lead p lo hi
    rw [Alphabet.token, List.head?_cons, hboundary, if_neg Bool.false_ne_true]
  simp only [secretPatterns, List.mem_cons, List.not_mem_nil, or_false] at hp
  rcases hp with rfl | rfl | rfl | rfl | rfl | rfl | rfl | rfl
  · exact htoken telegramLead isTokenChar 30 none
  · show githubToken al none ('[' :: cs) = none
    rw [githubToken, githubShort, githubLong, htoken, htoken]
    rfl
  · exact htoken (afterOneOf ["sk-"]) isTokenChar 20 none
  · exact htoken (afterOneOf ["AKIA"]) isAwsChar 16 (some 16)
  · exact htoken (afterOneOf ["xoxa-", "xoxb-", "xoxp-", "xoxr-", "xoxs-"]) isSlackChar 10 none
  · show bearerToken al none ('[' :: cs) = none
    rw [bearerToken, List.head?_cons, hboundary, if_neg Bool.false_ne_true]
  · rfl
  · rfl

theorem redactList_bracket (al : Alphabet) (cs : List Char) : ∃ cs', redactList al ('[' :: cs) = '[' :: cs' := by
  unfold redactList
  have hnone : ∀ p ∈ (secretPatterns al).map fun p => p.2.pattern, ∀ cs, p none ('[' :: cs) = 0 := by
    intro pattern hmem cs
    obtain ⟨p, hp, rfl⟩ := List.mem_map.mp hmem
    rw [Matcher.pattern, matcher_bracket al hp]
  generalize (secretPatterns al).map (fun p => p.2.pattern) = patterns at hnone
  induction patterns generalizing cs with
  | nil => exact ⟨cs, rfl⟩
  | cons pattern patterns ih =>
    rw [Redaction.redact, Redaction.sub, List.map_id, hnone pattern List.mem_cons_self]
    exact ih _ fun p hp => hnone p (List.mem_cons_of_mem _ hp)

end Secrets
end OwnerActions
end DarkFactory
