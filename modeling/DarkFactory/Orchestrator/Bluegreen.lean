import DarkFactory.Orchestrator.ComposeRender

/-!
# DarkFactory.Orchestrator.Bluegreen

`core/orchestrator/bluegreen.py`: the two-colour compose and its deploys.

* `parseState`, `hasServingReplica` — what is read back from a compose; `renderBluegreenCompose` — what is written.
* `parseState_render`, `serving_render` — a rendered compose records its state, and serves.
* `deploy` — the effects of one call and how it ends; a call that stops makes the first of them.
-/

namespace DarkFactory
namespace Orchestrator
namespace Bluegreen

inductive Color where
  | blue | green
deriving DecidableEq

def Color.name : Color → String
  | .blue => "blue"
  | .green => "green"

def COLORS : List Color := [.blue, .green]

def otherColor : Color → Color
  | .blue => .green
  | .green => .blue

structure BlueGreenState where
  active : Color
  blueSha : String
  greenSha : String
deriving DecidableEq

def BlueGreenState.shaOf (s : BlueGreenState) : Color → String
  | .blue => s.blueSha
  | .green => s.greenSha

def markerStart : List Char := "# darkfac-bluegreen: active=".toList

def markerBlue : List Char := " blue=".toList

def markerGreen : List Char := " green=".toList

def markerOf (s : BlueGreenState) : Line :=
  markerStart ++ (s.active.name.toList ++ (markerBlue ++ (s.blueSha.toList ++ (markerGreen ++ s.greenSha.toList))))

def takeColor (cs : List Char) : Option (Color × List Char) :=
  match Text.afterList Color.blue.name.toList cs with
  | some rest => some (.blue, rest)
  | none => (Text.afterList Color.green.name.toList cs).map fun rest => (.green, rest)

/-- `[0-9a-f]{40}`. -/
def takeSha (cs : List Char) : Option (String × List Char) :=
  let sha := String.ofList (cs.take 40)
  if isSha sha then some (sha, cs.drop 40) else none

/-- `_MARKER_RE` on a line. -/
def parseMarker (line : Line) : Option BlueGreenState := do
  let rest ← Text.afterList markerStart line
  let (active, rest) ← takeColor rest
  let rest ← Text.afterList markerBlue rest
  let (blue, rest) ← takeSha rest
  let rest ← Text.afterList markerGreen rest
  let (green, rest) ← takeSha rest
  if rest.all Text.isSpace then some ⟨active, blue, green⟩ else none

def parseState (compose : Lines) : Option BlueGreenState := compose.findSome? parseMarker

theorem takeColor_name (c : Color) (cs : List Char) : takeColor (c.name.toList ++ cs) = some (c, cs) := by
  cases c with
  | blue => rw [takeColor, Text.afterList_append]
  | green =>
    have hblue : Text.afterList Color.blue.name.toList (Color.green.name.toList ++ cs) = none := by
      simp [Text.afterList, Color.name]
    rw [takeColor, hblue, Text.afterList_append]
    rfl

theorem takeSha_append {sha : String} (h : isSha sha = true) (cs : List Char) :
    takeSha (sha.toList ++ cs) = some (sha, cs) := by
  have hlength : sha.toList.length = 40 := by
    rw [isSha, Bool.and_eq_true, decide_eq_true_eq] at h
    exact h.1
  unfold takeSha
  rw [List.take_left' hlength, List.drop_left' hlength, String.ofList_toList, if_pos h]

variable {s : BlueGreenState} {lines source : Lines} {running : List Color}

theorem parseMarker_markerOf (hblue : isSha s.blueSha = true) (hgreen : isSha s.greenSha = true) :
    parseMarker (markerOf s) = some s := by
  have hlast : takeSha s.greenSha.toList = some (s.greenSha, []) := by
    have h := takeSha_append hgreen []
    rwa [List.append_nil] at h
  simp only [parseMarker, markerOf, Text.afterList_append, Option.bind_eq_bind, Option.bind_some,
    takeColor_name, takeSha_append hblue, hlast, List.all_nil, if_true]

/-- `_REPLICAS_RE` on a line. -/
def replicasOf (line : Line) : Option Nat := do
  let rest ← Text.afterList "      replicas: ".toList line
  let digits := rest.takeWhile fun c => (Text.digitValue c).isSome
  let n ← Text.parseDigits digits
  if (rest.drop digits.length).all Text.isSpace then some n else none

def hasServingReplica (compose : Option Lines) : Bool :=
  let lines := compose.getD [[]]
  match parseState lines with
  | none => lines ≠ [[]]
  | some _ => lines.any fun line => (replicasOf line).any fun n => 0 < n

def isBodyLine (line : Line) : Bool := line = [] || startsWith line "    "

def startsVisible (line : Line) : Bool := line.head?.any fun c => !Text.isSpace c

structure Service where
  before : Lines
  body : Lines
  after : Lines

/-- `_SERVICE_RE.search`: the lines of the first `darkhub` service that the next section follows. -/
def findService : Lines → Option Service
  | [] => none
  | line :: rest =>
    let body := rest.takeWhile isBodyLine
    let after := rest.dropWhile isBodyLine
    if line = "  darkhub:".toList ∧ body ≠ [] ∧ (after.head?.any startsVisible) then some ⟨[], body, after⟩
    else (findService rest).map fun s => { s with before := line :: s.before }

/-- `body.replace(end + "\n", end + "\n" + inserted, 1)`. -/
def insertAfter (lineEnd : String) (inserted : Lines) : Lines → Lines
  | [] => []
  | line :: rest =>
    if endsWith line lineEnd then line :: (inserted ++ rest) else line :: insertAfter lineEnd inserted rest

def sharedServiceLabel : String := "      - \"traefik.http.services.darkhub.loadbalancer.server.port=8000\""

def colorLabels (color : Color) : Lines :=
  let r := "darkhub-" ++ color.name
  let path := "/__bg/" ++ color.name
  (["traefik.http.routers.darkhub.service=darkhub",
    "traefik.http.routers." ++ r ++ ".rule=Host(`darkhub.ggcampos.com`) && PathPrefix(`" ++ path ++ "`)",
    "traefik.http.routers." ++ r ++ ".entrypoints=websecure",
    "traefik.http.routers." ++ r ++ ".tls.certresolver=letsencrypt",
    "traefik.http.routers." ++ r ++ ".priority=100",
    "traefik.http.routers." ++ r ++ ".service=" ++ r,
    "traefik.http.routers." ++ r ++ ".middlewares=" ++ r ++ "-strip",
    "traefik.http.middlewares." ++ r ++ "-strip.stripprefix.prefixes=" ++ path,
    "traefik.http.services." ++ r ++ ".loadbalancer.server.port=8000"]).map fun label => ("      - \"" ++ label ++ "\"").toList

def replicasLine (running : Bool) : Line :=
  if running then "      replicas: 1".toList else "      replicas: 0".toList

def serviceBlock (rendered : Lines) (color : Color) (sha : String) (running : Bool) : Except ComposeRenderError Lines :=
  match findService rendered with
  | none => .error .noService
  | some s =>
    if s.body.any fun line => endsWith line "    deploy:" then
      let body := insertAfter "    deploy:" [replicasLine running] s.body
      let comment := "    # colour=" ++ color.name ++ " sha=" ++ String.ofList (sha.toList.take 12)
      let body := insertAfter "    restart: unless-stopped" [comment.toList] body
      .ok (("  darkhub-" ++ color.name ++ ":").toList :: insertAfter sharedServiceLabel (colorLabels color) body)
    else .error .noDeploy

def colorBlock (source : Lines) (s : BlueGreenState) (running : List Color) (color : Color) :
    Except ComposeRenderError Lines :=
  (renderDarkhubCompose source (s.shaOf color)).bind fun rendered =>
    serviceBlock rendered color (s.shaOf color) (color ∈ running)

def renderBluegreenCompose (source : Lines) (s : BlueGreenState) (running : List Color) :
    Except ComposeRenderError Lines :=
  if !(isSha s.blueSha && isSha s.greenSha) then .error .stateShas
  else
    match renderDarkhubCompose source s.blueSha with
    | .error error => .error error
    | .ok base =>
      match findService base with
      | none => .error .noService
      | some service =>
        if running = [] then .error .zeroReplicas
        else
          match colorBlock source s running .blue, colorBlock source s running .green with
          | .ok blue, .ok green => .ok (markerOf s :: (service.before ++ (blue ++ green) ++ service.after))
          | .error error, _ => .error error
          | .ok _, .error error => .error error

theorem subset_insertAfter (lineEnd : String) (inserted lines : Lines) : lines ⊆ insertAfter lineEnd inserted lines := by
  induction lines with
  | nil => exact List.Subset.refl _
  | cons line rest ih =>
    rw [insertAfter]
    split
    · exact List.cons_subset_cons _ (List.subset_append_right _ _)
    · exact List.cons_subset_cons _ ih

theorem mem_insertAfter {lineEnd : String} {line : Line} {inserted : Lines} (hline : line ∈ inserted)
    (h : lines.any (fun l => endsWith l lineEnd) = true) : line ∈ insertAfter lineEnd inserted lines := by
  induction lines with
  | nil => cases h
  | cons l rest ih =>
    rw [insertAfter]
    split
    · exact List.mem_cons_of_mem _ (List.mem_append_left _ hline)
    · rename_i hl
      rw [List.any_cons, Bool.or_eq_true] at h
      exact List.mem_cons_of_mem _ (ih (h.resolve_left hl))

theorem replicas_mem_block {rendered block : Lines} {color : Color} {sha : String} {running : Bool}
    (h : serviceBlock rendered color sha running = .ok block) : replicasLine running ∈ block := by
  unfold serviceBlock at h
  split at h
  · cases h
  · split at h
    · rename_i hdeploy
      cases h
      refine List.mem_cons_of_mem _ (subset_insertAfter _ _ _ (subset_insertAfter _ _ _ ?_))
      exact mem_insertAfter List.mem_cons_self hdeploy
    · cases h

theorem replicas_mem_colorBlock {block : Lines} {color : Color}
    (h : colorBlock source s running color = .ok block) : replicasLine (color ∈ running) ∈ block := by
  unfold colorBlock at h
  cases hrendered : renderDarkhubCompose source (s.shaOf color) with
  | error error =>
    rw [hrendered] at h
    cases h
  | ok rendered =>
    rw [hrendered] at h
    exact replicas_mem_block h

theorem render_cases (h : renderBluegreenCompose source s running = .ok lines) :
    isSha s.blueSha = true ∧ isSha s.greenSha = true ∧ running ≠ [] ∧
      ∃ (service : Service) (blue green : Lines), colorBlock source s running .blue = .ok blue ∧ colorBlock source s running .green = .ok green ∧
        lines = markerOf s :: (service.before ++ (blue ++ green) ++ service.after) := by
  unfold renderBluegreenCompose at h
  split at h
  · cases h
  · rename_i hshas
    have hshas' : isSha s.blueSha = true ∧ isSha s.greenSha = true := by simpa using hshas
    split at h
    · cases h
    · split at h
      · cases h
      · rename_i service _
        split at h
        · cases h
        · rename_i hrunning
          split at h
          · rename_i blue green hblue hgreen
            cases h
            exact ⟨hshas'.1, hshas'.2, hrunning, service, blue, green, hblue, hgreen, rfl⟩
          · cases h
          · cases h

theorem parseState_render (h : renderBluegreenCompose source s running = .ok lines) : parseState lines = some s := by
  obtain ⟨hblue, hgreen, -, service, blue, green, -, -, rfl⟩ := render_cases h
  rw [parseState, List.findSome?_cons, parseMarker_markerOf hblue hgreen]

theorem serving_render
    (h : renderBluegreenCompose source s running = .ok lines) : hasServingReplica (some lines) = true := by
  have hparse := parseState_render h
  obtain ⟨-, -, hrunning, service, blue, green, hblue, hgreen, rfl⟩ := render_cases h
  have hone : replicasOf (replicasLine true) = some 1 := by decide +kernel
  have hline : replicasLine true ∈ markerOf s :: (service.before ++ (blue ++ green) ++ service.after) := by
    refine List.mem_cons_of_mem _ (List.mem_append_left _ (List.mem_append_right _ ?_))
    obtain ⟨color, hcolor⟩ := List.exists_mem_of_ne_nil running hrunning
    cases color with
    | blue =>
      have hmem := replicas_mem_colorBlock hblue
      rw [decide_eq_true hcolor] at hmem
      exact List.mem_append_left _ hmem
    | green =>
      have hmem := replicas_mem_colorBlock hgreen
      rw [decide_eq_true hcolor] at hmem
      exact List.mem_append_right _ hmem
  rw [hasServingReplica, Option.getD_some, hparse]
  refine List.any_eq_true.mpr ⟨_, hline, ?_⟩
  rw [hone]
  rfl

structure Rendered where
  source : Lines
  state : BlueGreenState
  running : List Color
  lines : Lines
  ok : renderBluegreenCompose source state running = .ok lines

inductive Compose where
  | absent
  | legacy (lines : Lines) (unmarked : parseState lines = none)
  | bluegreen (r : Rendered)

/-- `read_compose()`. -/
def Compose.text : Compose → Option Lines
  | .absent => none
  | .legacy lines _ => some lines
  | .bluegreen r => some r.lines

/-- `parse_state(previous_compose)`. -/
def Compose.state (c : Compose) : Option BlueGreenState := parseState (c.text.getD [[]])

@[simp] theorem Compose.state_absent : Compose.absent.state = none := by decide +kernel

@[simp] theorem Compose.state_legacy (h : parseState lines = none) : (Compose.legacy lines h).state = none := h

@[simp] theorem Compose.state_bluegreen (r : Rendered) : (Compose.bluegreen r).state = some r.state :=
  parseState_render r.ok

@[simp] theorem Compose.serving_bluegreen (r : Rendered) : hasServingReplica (Compose.bluegreen r).text = true :=
  serving_render r.ok

theorem Compose.eq_of_state {c : Compose} (h : c.state = some s) : ∃ r, c = .bluegreen r ∧ r.state = s := by
  cases c with
  | absent =>
    rw [Compose.state_absent] at h
    cases h
  | legacy lines hlines =>
    rw [Compose.state_legacy] at h
    cases h
  | bluegreen r =>
    rw [Compose.state_bluegreen] at h
    exact ⟨r, rfl, Option.some.inj h⟩

def planNext (current : Option BlueGreenState) (newSha : String) : Color × BlueGreenState :=
  match current with
  | none => (.blue, ⟨.green, newSha, newSha⟩)
  | some s =>
    match otherColor s.active with
    | .blue => (.blue, ⟨s.active, newSha, s.greenSha⟩)
    | .green => (.green, ⟨s.active, s.blueSha, newSha⟩)

/-- The answers one call gets. A probe that answers nothing raises. -/
structure Call where
  source : Lines
  newSha : String
  ghcr : Bool := true
  overlapRenders : Bool := true
  overlapApplies : Bool := true
  healthAttempts : Nat := 30
  gate : Nat → Option Bool := fun _ => some true
  cutoverRenders : Bool := true
  cutoverApplies : Bool := true
  restoreAllowed : Bool := true
  restoreApplies : Bool := true
  /-- whether the gate is the route of the colour, and the public probe comes after -/
  colorProbe : Bool := true
  publicAttempts : Nat := 12
  serving : Nat → Option Bool := fun _ => some true
  /-- how many of its effects the process makes before it stops; none when it does not stop -/
  stop : Option Nat := none

inductive Phase where
  | overlap | cutover | restore
deriving DecidableEq

inductive Effect where
  /-- a compose handed to apply -/
  | hand (phase : Phase) (compose : Compose) (installed : Bool)
  /-- the new colour answered with the new image -/
  | answered

inductive Result where
  | returned (s : BlueGreenState)
  | raised
  | stopped
deriving DecidableEq

/-- The loop of a probe: some attempt answers true before one raises. -/
def probes (answers : Nat → Option Bool) : Nat → Nat → Bool
  | _, 0 => false
  | i, attempts + 1 =>
    match answers i with
    | some true => true
    | some false => probes answers (i + 1) attempts
    | none => false

def render? (allowed : Bool) (source : Lines) (s : BlueGreenState) (running : List Color) : Option Rendered :=
  match h : renderBluegreenCompose source s running with
  | .ok lines => if allowed then some ⟨source, s, running, lines, h⟩ else none
  | .error _ => none

def restore (place : Compose) (call : Call) : List Effect :=
  match place.text with
  | none => []
  | some lines =>
    if lines = [[]] then []
    else if !hasServingReplica place.text then []
    else if !call.restoreAllowed then []
    else [.hand .restore place call.restoreApplies]

def overlapState (place : Compose) (call : Call) : BlueGreenState :=
  match place.state with
  | none => ⟨.green, call.newSha, call.newSha⟩
  | some s => (planNext (some s) call.newSha).2

def overlapRunning (place : Compose) (call : Call) : List Color :=
  let target := (planNext place.state call.newSha).1
  match place.state with
  | none => [target]
  | some _ => if hasServingReplica place.text then COLORS else [target]

def finalState (place : Compose) (call : Call) : BlueGreenState :=
  let (target, planned) := planNext place.state call.newSha
  match place.state with
  | none => ⟨target, call.newSha, call.newSha⟩
  | some _ => ⟨target, planned.blueSha, planned.greenSha⟩

def cutover (place : Compose) (call : Call) : List Effect × Result :=
  let final := finalState place call
  match render? call.cutoverRenders call.source final [final.active] with
  | none => (restore place call, .raised)
  | some r =>
    if call.cutoverApplies then
      ([.hand .cutover (.bluegreen r) true],
        if call.colorProbe && !probes call.serving 0 call.publicAttempts then .raised else .returned final)
    else (.hand .cutover (.bluegreen r) false :: restore place call, .raised)

def overlap (place : Compose) (call : Call) : List Effect × Result :=
  match render? call.overlapRenders call.source (overlapState place call) (overlapRunning place call) with
  | none => (restore place call, .raised)
  | some r =>
    if call.overlapApplies then
      if probes call.gate 0 call.healthAttempts then
        let (effects, result) := cutover place call
        (.hand .overlap (.bluegreen r) true :: .answered :: effects, result)
      else (.hand .overlap (.bluegreen r) true :: restore place call, .raised)
    else (.hand .overlap (.bluegreen r) false :: restore place call, .raised)

def runBluegreenDeploy (place : Compose) (call : Call) : List Effect × Result :=
  if !isSha call.newSha then ([], .raised)
  else
    match place.state with
    | some s =>
      if s.shaOf s.active = call.newSha then ([], .returned s)
      else if !call.ghcr then ([], .raised)
      else overlap place call
    | none => if !call.ghcr then ([], .raised) else overlap place call

def deploy (place : Compose) (call : Call) : List Effect × Result :=
  let (effects, result) := runBluegreenDeploy place call
  match call.stop with
  | none => (effects, result)
  | some n => if n ≤ effects.length then (effects.take n, .stopped) else (effects, result)

def installed (place : Compose) (effects : List Effect) : Compose :=
  effects.foldl (fun place e =>
    match e with
    | .hand _ c true => c
    | .hand _ _ false | .answered => place) place

end Bluegreen
end Orchestrator
end DarkFactory
