import DarkFactory.Python.Text
import Mathlib.Data.List.Dedup

/-!
# DarkFactory.Line.Harness

The agent harnesses: what each declares it can do, and which one the owner operates the factory
through.
-/

namespace DarkFactory
namespace Line

inductive ExecutionContext where
  | interactive | headless
deriving DecidableEq

/-- `s` in a condition: an empty text counts as none. -/
def truthy (s : Option String) : Option String := s.filter fun t => decide (t ≠ "")

def OPERATING_HARNESS_ENV : String := "DARKFAC_OPERATING_HARNESS"

def KNOWN_HARNESSES : List String := ["claude", "codex", "grok", "antigravity"]

def AUTODETECT_ENV_SIGNALS : List (String × String) :=
  [("CLAUDECODE", "claude"), ("CLAUDE_CODE_ENTRYPOINT", "claude"), ("CODEX_SANDBOX", "codex"),
    ("CODEX_THREAD_ID", "codex"), ("GROK_AGENT", "grok"), ("GROK_SESSION_ID", "grok"),
    ("GROK_CLI", "grok"), ("ANTIGRAVITY_AGENT", "antigravity"),
    ("ANTIGRAVITY_CONVERSATION_ID", "antigravity"), ("ANTIGRAVITY_SESSION", "antigravity")]

section

variable (lower : String → String) (environ : String → Option String)

def normalizeHarness (value : Option String) : Option String :=
  let cleaned := lower (Text.strip (value.getD ""))
  if cleaned ∈ KNOWN_HARNESSES then some cleaned else none

def signalled : List String :=
  ((AUTODETECT_ENV_SIGNALS.filter fun s => decide (Text.strip ((environ s.1).getD "") ≠ "")).map
    Prod.snd).dedup

def detectOperatingHarness : Option String :=
  match normalizeHarness lower (environ OPERATING_HARNESS_ENV) with
  | some harness => some harness
  | none =>
    match signalled environ with
    | [harness] => some harness
    | _ => none

def resolveOperatingHarness (explicit : Option String) : Option String :=
  if Text.strip (explicit.getD "") ≠ "" then normalizeHarness lower explicit
  else detectOperatingHarness lower environ

def HARNESS_CAPABILITIES : List (String × List String) :=
  [("claude", ["read", "write"]), ("codex", ["read", "write"]), ("grok", ["read", "write"]),
    ("antigravity", ["read"]), ("openrouter", ["read", "write"])]

def supports (harness mode : String) (executionContext : Option ExecutionContext)
    (operatingHarness : Option String) : Bool :=
  let h := Text.strip (lower harness)
  let op := (truthy operatingHarness <|> truthy (environ OPERATING_HARNESS_ENV)) <|>
    detectOperatingHarness lower environ
  if h = "antigravity" ∧ mode = "write" ∧ executionContext ≠ some .headless ∧ op = some "antigravity" then true
  else decide (mode ∈ (HARNESS_CAPABILITIES.lookup h).getD [])

end

end Line
end DarkFactory
