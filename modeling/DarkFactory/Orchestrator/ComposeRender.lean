import Mathlib.Algebra.GroupWithZero.Nat
import DarkFactory.Python.Digits
import DarkFactory.Python.Text

/-!
# DarkFactory.Orchestrator.ComposeRender

`core/orchestrator/compose_render.py`: the compose of one image, from its source.

* `Lines` — a compose file as `text.split("\n")`: every line but the last ends in a line feed.
* The patterns of the source are about whole lines or the ends of lines, so they are read off the lines.
* `renderDarkhubCompose` — the image layout (`ghcr`) of a source that meets the pinned-build contract.
-/

namespace DarkFactory
namespace Orchestrator
namespace Bluegreen

abbrev Line := List Char

abbrev Lines := List Line

def linesOf (texts : List String) : Lines := texts.map String.toList

def startsWith (line : Line) (p : String) : Bool := p.toList.isPrefixOf line

def endsWith (line : Line) (p : String) : Bool := p.toList.isSuffixOf line

def contains (p : String) (line : Line) : Bool := Text.isInfixList p.toList line

inductive ComposeRenderError where
  | sha | contract | conversion | noService | noDeploy | activeColor | stateShas | zeroReplicas
deriving DecidableEq

/-- `[0-9a-f]`. -/
def isHex (c : Char) : Bool := ('0' ≤ c && c ≤ '9') || ('a' ≤ c && c ≤ 'f')

/-- `SHA_PATTERN.fullmatch(text)`. -/
def isSha (text : String) : Bool := text.toList.length = 40 && text.toList.all isHex

def gitContext : String := "DarkFactory.git#$\x7bDARKFAC_GIT_SHA\x7d"

def shaPlaceholder : String := "$\x7bDARKFAC_GIT_SHA\x7d"

def countFrom (p : List Char) : Nat → Line → Nat
  | 0, _ => 0
  | _, [] => 0
  | fuel + 1, c :: cs =>
    if p.isPrefixOf (c :: cs) then countFrom p fuel ((c :: cs).drop p.length) + 1 else countFrom p fuel cs

/-- `line.count(p)`, for `p` not empty. -/
def count (p : String) (line : Line) : Nat := countFrom p.toList line.length line

def imageLines : Lines :=
  linesOf ["    image: ghcr.io/gcamposgit/darkhub:" ++ shaPlaceholder, "    pull_policy: always"]

def startFirst : Lines :=
  linesOf ["    deploy:",
    "      # USR-339: start-first only takes effect under Swarm/Stack mode; plain " ++ "`docker compose`",
    "      # ignores update_config. The healthcheck gates the traffic cut-over.",
    "      update_config:",
    "        order: start-first",
    "        parallelism: 1",
    "        monitor: 20s",
    "        failure_action: rollback",
    "      rollback_config:",
    "        order: start-first"]

def afterBuildBlock : Lines → Option Lines
  | [] => none
  | line :: rest =>
    if line = "    build:".toList ∧ (rest.takeWhile fun line => startsWith line "      ") ≠ [] then
      match rest.dropWhile fun line => startsWith line "      " with
      | image :: policy :: line :: rest =>
        if image = "    image: darkhub:v2.1".toList ∧ policy = "    pull_policy: build".toList then some (line :: rest)
        else none
      | _ => none
    else none

/-- `_BUILD_BLOCK_RE.subn(image_lines, source, count=1)`; none without a match. -/
def replaceBuild : Lines → Option Lines
  | [] => none
  | line :: rest =>
    match afterBuildBlock (line :: rest) with
    | some after => some (imageLines ++ after)
    | none => (replaceBuild rest).map fun after => line :: after

/-- `_DEPLOY_RE.subn(_START_FIRST, transformed, count=1)`. -/
def replaceDeploy : Lines → Option Lines
  | [] => none
  | line :: rest =>
    if line = "    deploy:".toList ∧ rest ≠ [] then some (startFirst ++ rest)
    else (replaceDeploy rest).map fun after => line :: after

/-- `_CONTAINER_NAME_RE.sub("", transformed)`. -/
def dropContainerNames : Lines → Lines
  | [] => []
  | line :: rest =>
    if startsWith line "    container_name: " ∧ rest ≠ [] then dropContainerNames rest
    else line :: dropContainerNames rest

def pinned (source : Lines) : Bool :=
  (source.any fun line => contains gitContext line) &&
    (source.map fun line => count shaPlaceholder line).sum = 3 &&
    (source.any fun line => contains "no_cache: true" line) &&
    source.any fun line => contains "pull_policy: build" line

def renderDarkhubCompose (source : Lines) (sha : String) : Except ComposeRenderError Lines :=
  if !isSha sha then .error .sha
  else if !pinned source then .error .contract
  else
    match (replaceBuild source).bind replaceDeploy with
    | none => .error .conversion
    | some transformed =>
      .ok ((dropContainerNames transformed).map (Escape.replace shaPlaceholder.toList sha.toList))

end Bluegreen
end Orchestrator
end DarkFactory
