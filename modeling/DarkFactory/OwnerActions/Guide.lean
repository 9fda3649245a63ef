import Mathlib.Data.List.Forall2
import DarkFactory.Lib.Passages
import DarkFactory.OwnerActions.Models

/-!
# DarkFactory.OwnerActions.Guide

`parse_guide` of `core/owner_actions/mirror.py`, and when a guide reaches the owner whole.

* `readLine` — the loop body. The steps are newest first.
* `passages`, `fencedRows` — the lines of a guide outside and inside its fences, without what the parser may drop.
* `Whole` — the passages are spread in their order over the intro and the texts of the steps, and the rows of the
  commands are those of the fences.
-/

namespace DarkFactory
namespace OwnerActions
namespace Guide

open Text (isSpace)
open Passages

/-- `_FENCE`. -/
def isFence (line : String) : Bool := "```".toList.isPrefixOf (line.toList.dropWhile isSpace)

/-- What follows `\d+[.)]|[-*]`. -/
def afterMarker : List Char → Option (List Char)
  | [] => none
  | c :: cs =>
    if c = '-' ∨ c = '*' then some cs
    else
      match (c :: cs).dropWhile fun c => (Text.digitValue c).isSome with
      | [] => none
      | d :: rest => if (Text.digitValue c).isSome ∧ (d = '.' ∨ d = ')') then some rest else none

/-- `group(1)` of a match of `_LIST_ITEM`. -/
def listItem (line : String) : Option String :=
  match afterMarker (line.toList.dropWhile isSpace) with
  | some (c :: rest) =>
    if isSpace c ∧ Text.stripList rest ≠ [] then some (String.ofList (Text.stripList rest)) else none
  | _ => none

def isItem (line : String) : Bool := (listItem line).isSome

/-- `text.replace("**", "")`. -/
def removeBold (text : String) : String := Text.replace text "**" ""

structure GuideState where
  intro : List String := []
  steps : List ActionStep := []
  inFence : Bool := false
  fenceLines : List String := []
deriving DecidableEq

def addCommand (fenceLines : List String) (step : ActionStep) : ActionStep :=
  let command := Text.strip ("\n".intercalate fenceLines)
  match step.command.filter fun c => decide (c ≠ "") with
  | some old => { step with command := some (old ++ "\n" ++ command) }
  | none => { step with command := some command }

def readLine (s : GuideState) (line : String) : GuideState :=
  if isFence line then
    if s.inFence then
      match s.steps with
      | step :: steps =>
        { s with
          steps := (if s.fenceLines = [] then step else addCommand s.fenceLines step) :: steps
          inFence := false, fenceLines := [] }
      | [] => { s with inFence := false, fenceLines := [] }
    else { s with inFence := true }
  else if s.inFence then { s with fenceLines := s.fenceLines ++ [line] }
  else
    match listItem line with
    | some text => { s with steps := { text := Text.strip (removeBold text) } :: s.steps }
    | none =>
      if Text.strip line = "" then s
      else
        match s.steps with
        | step :: steps =>
          { s with steps := { step with text := step.text ++ (" " ++ removeBold (Text.strip line)) } :: steps }
        | [] => { s with intro := s.intro ++ [removeBold (Text.strip line)] }

/-- None where the construction of a step raises. -/
def parseGuide (guideMd : String) : Option (String × List ActionStep) :=
  let s := (Text.splitlines guideMd).foldl readLine {}
  if s.steps = [] ∧ Text.strip guideMd ≠ "" then
    let joined := Text.strip ("\n".intercalate s.intro)
    let text := if joined = "" then Text.strip guideMd else joined
    (ActionStep.validate { text := text }).map fun step => ("", [step])
  else
    (s.steps.reverse.mapM ActionStep.validate).map fun steps => (Text.strip (" ".intercalate s.intro), steps)

def fenced (inFence : Bool) (lines : List String) : Bool :=
  lines.foldl (fun inFence line => if isFence line then !inFence else inFence) inFence

def outside (inFence : Bool) : List String → List String
  | [] => []
  | line :: lines =>
    if isFence line then outside (!inFence) lines
    else if inFence then outside inFence lines
    else line :: outside inFence lines

def inside (inFence : Bool) : List String → List String
  | [] => []
  | line :: lines =>
    if isFence line then inside (!inFence) lines
    else if inFence then line :: inside inFence lines
    else inside inFence lines

/-- A line without list marker and `**`. -/
def plain (line : String) : List Char := (removeBold ((listItem line).getD (Text.strip line))).toList

def plains (lines : List String) : List (List Char) := solids isSpace (lines.map plain)

def fenceRows (lines : List String) : List (List Char) := solids isSpace (lines.map String.toList)

def passages (guideMd : String) : List (List Char) := plains (outside false (Text.splitlines guideMd))

def fencedRows (guideMd : String) : List (List Char) := fenceRows (inside false (Text.splitlines guideMd))

def commandRows (step : ActionStep) : List (List Char) := rows isSpace '\n' (step.command.getD "").toList

def Whole (guideMd : String) : Prop :=
  ∃ intro steps, parseGuide guideMd = some (intro, steps) ∧
    Spread (passages guideMd) (intro.toList :: steps.map fun step => step.text.toList) ∧
    steps.flatMap commandRows = fencedRows guideMd

def sections : List String → List (List String)
  | [] => []
  | line :: lines =>
    if isItem line then (line :: lines.takeWhile fun l => !isItem l) :: sections lines else sections lines

/-- No list item is without a text. -/
def Titled (guideMd : String) : Prop :=
  ∀ item ∈ sections (outside false (Text.splitlines guideMd)), plains item ≠ []

/-- A line in a fence comes after the first list item and before the end of the fence, or is blank. -/
def Attached (guideMd : String) : Prop :=
  ∀ pre line post, Text.splitlines guideMd = pre ++ line :: post → fenced false pre = true → isFence line = false →
    Text.strip line ≠ "" → post.any isFence = true ∧ (outside false pre).any isItem = true

attribute [local irreducible] Holds

theorem strip_toList (s : String) : (Text.strip s).toList = trim isSpace s.toList := Text.strip_toList s

theorem strip_eq_empty {s : String} : Text.strip s = "" ↔ trim isSpace s.toList = [] := by
  rw [← String.toList_eq_nil_iff, strip_toList]

theorem plains_append (lines lines' : List String) : plains (lines ++ lines') = plains lines ++ plains lines' := by
  unfold plains
  rw [List.map_append, solids_append]

theorem plains_singleton (line : String) : plains [line] = solids isSpace [plain line] := by
  unfold plains
  rw [List.map_singleton]

structure Grown (item : List String) (step : ActionStep) : Prop where
  holds : Holds (plains item) step.text.toList
  blank : plains item = [] → Text.strip step.text = ""

theorem plain_item {line text : String} (h : listItem line = some text) : plain line = (removeBold text).toList := by
  unfold plain
  rw [h]
  rfl

theorem plain_other {line : String} (h : listItem line = none) :
    plain line = (removeBold (Text.strip line)).toList := by
  unfold plain
  rw [h]
  rfl

theorem plains_blank {line : String} (h : listItem line = none) (hblank : Text.strip line = "") :
    plains [line] = [] := by
  rw [plains_singleton, plain_other h, hblank]
  decide

theorem strip_of_plains_nil {line : String} (h : plains [line] = []) : trim isSpace (plain line) = [] := by
  rw [plains_singleton, solids, List.map_singleton, List.filter_cons] at h
  by_contra hne
  rw [if_pos (decide_eq_true hne)] at h
  cases h

theorem grown_item {line text : String} (h : listItem line = some text) :
    Grown [line] { text := Text.strip (removeBold text) } := by
  constructor
  · rw [strip_toList, ← plain_item h, plains_singleton]
    exact (holds_solids (plain line)).trim solid_of_mem
  · intro hnil
    rw [Text.strip_idem, strip_eq_empty, ← plain_item h]
    exact strip_of_plains_nil hnil

variable {s : GuideState} {item : List String} {step : ActionStep} {steps : List ActionStep}

theorem Grown.line {line : String} (h : Grown item step) (hline : listItem line = none) :
    Grown (item ++ [line]) { step with text := step.text ++ (" " ++ removeBold (Text.strip line)) } := by
  constructor
  · rw [plains_append]
    dsimp only
    rw [String.toList_append, String.toList_append, ← plain_other hline]
    have hline : Holds (plains [line]) (plain line) := by
      rw [plains_singleton]
      exact holds_solids (plain line)
    exact h.holds.append (hline.pad_left _)
  · intro hnil
    rw [plains_append, List.append_eq_nil_iff] at hnil
    have hstep := (trim_eq_nil _).mp (strip_eq_empty.mp (h.blank hnil.1))
    have hplain := (trim_eq_nil _).mp (strip_of_plains_nil hnil.2)
    rw [plain_other hline] at hplain
    rw [strip_eq_empty, trim_eq_nil _, String.toList_append, String.toList_append]
    intro c hc
    rcases List.mem_append.mp hc with hc | hc
    · exact hstep c hc
    · rcases List.mem_append.mp hc with hc | hc
      · exact List.mem_singleton.mp hc ▸ rfl
      · exact hplain c hc

theorem sections_eq_nil {lines : List String} : sections lines = [] ↔ ∀ line ∈ lines, isItem line = false := by
  induction lines with
  | nil => simp [sections]
  | cons line lines ih =>
    rw [sections, List.forall_mem_cons, ← ih]
    split
    · rename_i hitem
      simp [hitem]
    · rename_i hitem
      simp [hitem]

theorem takeWhile_of_noItem {lines : List String} (h : ∀ line ∈ lines, isItem line = false) :
    lines.takeWhile (fun l => !isItem l) = lines := by
  rw [List.takeWhile_eq_self_iff]
  intro line hline
  rw [h line hline]
  rfl

theorem takeWhile_concat_of_item {lines : List String} (h : ¬ ∀ line ∈ lines, isItem line = false) (line : String) :
    (lines ++ [line]).takeWhile (fun l => !isItem l) = lines.takeWhile (fun l => !isItem l) := by
  induction lines with
  | nil => exact absurd (fun _ hmem => absurd hmem List.not_mem_nil) h
  | cons l lines ih =>
    rw [List.cons_append, List.takeWhile_cons, List.takeWhile_cons]
    split
    · rename_i hl
      rw [ih fun hall => h (List.forall_mem_cons.mpr ⟨by simpa using hl, hall⟩)]
    · rfl

theorem sections_item {line : String} (h : isItem line = true) (lines : List String) :
    sections (lines ++ [line]) = sections lines ++ [[line]] := by
  induction lines with
  | nil =>
    rw [List.nil_append, sections.eq_2, if_pos h]
    rfl
  | cons l lines ih =>
    rw [List.cons_append, sections, sections, ih]
    have htake : (lines ++ [line]).takeWhile (fun l => !isItem l) = lines.takeWhile (fun l => !isItem l) := by
      by_cases hall : ∀ line ∈ lines, isItem line = false
      · rw [List.takeWhile_append, takeWhile_of_noItem hall, if_pos rfl, List.takeWhile_cons, h]
        exact List.append_nil lines
      · exact takeWhile_concat_of_item hall line
    rw [htake]
    split
    · rfl
    · rfl

theorem sections_other {line : String} (h : isItem line = false) (lines : List String) :
    (sections lines = [] ∧ sections (lines ++ [line]) = []) ∨
      ∃ items item, sections lines = items ++ [item] ∧ sections (lines ++ [line]) = items ++ [item ++ [line]] := by
  induction lines with
  | nil =>
    refine .inl ⟨rfl, ?_⟩
    rw [List.nil_append, sections_eq_nil, List.forall_mem_singleton]
    exact h
  | cons l lines ih =>
    rw [List.cons_append, sections, sections]
    cases hl : isItem l with
    | false => exact ih
    | true =>
      rw [if_pos rfl, if_pos rfl]
      refine .inr ?_
      rcases ih with ⟨hnone, hnone'⟩ | ⟨items, item, hitems, hitems'⟩
      · rw [hnone, hnone']
        have hall := sections_eq_nil.mp hnone
        have hall' := sections_eq_nil.mp hnone'
        exact ⟨[], l :: lines, by rw [takeWhile_of_noItem hall]; rfl, by rw [takeWhile_of_noItem hall']; rfl⟩
      · refine ⟨(l :: lines.takeWhile fun l => !isItem l) :: items, item, by rw [hitems]; rfl, ?_⟩
        rw [hitems', takeWhile_concat_of_item]
        · rfl
        · rw [← sections_eq_nil, hitems]
          exact List.append_ne_nil_of_right_ne_nil _ (List.cons_ne_nil _ _)

theorem sections_flatten (lines : List String) :
    lines.takeWhile (fun l => !isItem l) ++ (sections lines).flatten = lines := by
  induction lines with
  | nil => rfl
  | cons l lines ih =>
    rw [List.takeWhile_cons, sections]
    cases hl : isItem l with
    | true =>
      rw [if_neg (by decide), if_pos rfl, List.flatten_cons, List.nil_append, List.cons_append, ih]
    | false =>
      rw [if_pos (by decide), if_neg (by decide), List.cons_append, ih]

theorem plains_flatten (items : List (List String)) : plains items.flatten = (items.map plains).flatten := by
  induction items with
  | nil => rfl
  | cons item items ih => rw [List.flatten_cons, plains_append, ih, List.map_cons, List.flatten_cons]

structure Told (lines : List String) (s : GuideState) : Prop where
  intro : solids isSpace (s.intro.map String.toList) = plains (lines.takeWhile fun l => !isItem l)
  steps : List.Forall₂ Grown (sections lines).reverse s.steps

theorem addCommand_text (fenceLines : List String) (step : ActionStep) :
    (addCommand fenceLines step).text = step.text := by
  unfold addCommand
  dsimp only
  split
  · rfl
  · rfl

theorem Grown.same_text {step' : ActionStep} (h : Grown item step)
    (htext : step'.text = step.text) : Grown item step' :=
  ⟨htext ▸ h.holds, htext ▸ h.blank⟩

theorem Told.fence {lines : List String} {line : String} (h : Told lines s)
    (hline : isFence line = true ∨ s.inFence = true) : Told lines (readLine s line) := by
  unfold readLine
  cases hfence : isFence line with
  | false =>
    rw [if_neg (by decide), if_pos (hline.resolve_left (by rw [hfence]; decide))]
    exact ⟨h.intro, h.steps⟩
  | true =>
    rw [if_pos rfl]
    split
    · split
      · rename_i step steps hsteps
        refine ⟨h.intro, ?_⟩
        have hgrown := h.steps
        rw [hsteps] at hgrown
        generalize (sections lines).reverse = items at hgrown ⊢
        cases hgrown with
        | cons hstep hrest =>
          refine .cons (hstep.same_text ?_) hrest
          split
          · rfl
          · exact addCommand_text _ _
      · rename_i hsteps
        exact ⟨h.intro, hsteps ▸ h.steps⟩
    · exact ⟨h.intro, h.steps⟩

theorem Told.line {lines : List String} {line : String} (h : Told lines s)
    (hfence : isFence line = false) (hout : s.inFence = false) : Told (lines ++ [line]) (readLine s line) := by
  unfold readLine
  rw [hfence, hout, if_neg (by decide), if_neg (by decide)]
  cases hitem : listItem line with
  | some text =>
    have his : isItem line = true := by
      unfold isItem
      rw [hitem]
      rfl
    constructor
    · dsimp only
      rw [h.intro]
      by_cases hall : ∀ line ∈ lines, isItem line = false
      · rw [List.takeWhile_append, takeWhile_of_noItem hall, if_pos rfl, List.takeWhile_cons, his]
        exact congrArg plains (List.append_nil lines).symm
      · rw [takeWhile_concat_of_item hall]
    · dsimp only
      rw [sections_item his, List.reverse_append, List.reverse_singleton, List.singleton_append]
      exact .cons (grown_item hitem) h.steps
  | none =>
    have his : isItem line = false := by
      unfold isItem
      rw [hitem]
      rfl
    dsimp only
    rcases sections_other his lines with ⟨hnone, hnone'⟩ | ⟨items, item, hitems, hitems'⟩
    · have hsteps := h.steps
      rw [hnone, List.reverse_nil, List.forall₂_nil_left_iff] at hsteps
      have hintro := h.intro
      rw [takeWhile_of_noItem (sections_eq_nil.mp hnone)] at hintro
      split
      · rename_i hblank
        refine ⟨?_, by rw [hnone', hsteps]; exact .nil⟩
        rw [takeWhile_of_noItem (sections_eq_nil.mp hnone'), hintro, plains_append, plains_blank hitem hblank,
          List.append_nil]
      · rw [hsteps]
        refine ⟨?_, by rw [hnone']; exact .nil⟩
        dsimp only
        rw [takeWhile_of_noItem (sections_eq_nil.mp hnone'), List.map_append, solids_append, hintro, plains_append,
          plains_singleton, plain_other hitem, List.map_singleton]
    · have hsome : ¬ ∀ line ∈ lines, isItem line = false := by
        rw [← sections_eq_nil, hitems]
        exact List.append_ne_nil_of_right_ne_nil _ (List.cons_ne_nil _ _)
      have hintro := h.intro
      rw [← takeWhile_concat_of_item hsome line] at hintro
      have hsteps := h.steps
      rw [hitems, List.reverse_append, List.reverse_singleton, List.singleton_append] at hsteps
      obtain ⟨step, steps, hstep, hrest, hcons⟩ := List.forall₂_cons_left_iff.mp hsteps
      split
      · rename_i hblank
        refine ⟨hintro, ?_⟩
        rw [hitems', List.reverse_append, List.reverse_singleton, List.singleton_append, hcons]
        refine .cons ⟨?_, ?_⟩ hrest
        · rw [plains_append, plains_blank hitem hblank, List.append_nil]
          exact hstep.holds
        · rw [plains_append, plains_blank hitem hblank, List.append_nil]
          exact hstep.blank
      · rw [hcons]
        refine ⟨hintro, ?_⟩
        rw [hitems', List.reverse_append, List.reverse_singleton, List.singleton_append]
        exact .cons (hstep.line hitem) hrest

theorem readLine_inFence (s : GuideState) (line : String) :
    (readLine s line).inFence = if isFence line then !s.inFence else s.inFence := by
  unfold readLine
  by_cases hfence : isFence line = true
  · rw [if_pos hfence, if_pos hfence]
    cases hin : s.inFence with
    | true =>
      rw [if_pos rfl]
      split
      · rfl
      · rfl
    | false => rfl
  · rw [if_neg hfence, if_neg hfence]
    split
    · rfl
    · split
      · rfl
      · split
        · rfl
        · split
          · rfl
          · rfl

theorem Told.run {before : List String} (h : Told before s) (lines : List String) :
    Told (before ++ outside s.inFence lines) (lines.foldl readLine s) := by
  induction lines generalizing before s with
  | nil => exact (List.append_nil before).symm ▸ h
  | cons line lines ih =>
    rw [List.foldl_cons, outside]
    cases hfence : isFence line with
    | true =>
      have hnext := ih (h.fence (.inl hfence : isFence line = true ∨ s.inFence = true))
      rw [readLine_inFence, hfence] at hnext
      exact hnext
    | false =>
      rw [if_neg (by decide)]
      cases hin : s.inFence with
      | true =>
        have hnext := ih (h.fence (.inr hin : isFence line = true ∨ s.inFence = true))
        rw [readLine_inFence, hfence, if_neg (by decide), hin] at hnext
        exact hnext
      | false =>
        have hnext := ih (h.line hfence hin)
        rw [readLine_inFence, hfence, if_neg (by decide), hin] at hnext
        rw [if_neg (by decide), ← List.singleton_append, ← List.append_assoc]
        exact hnext

def Unbroken (lines : List String) : Prop := ∀ line ∈ lines, '\n' ∉ line.toList

theorem fenceRows_append (lines lines' : List String) :
    fenceRows (lines ++ lines') = fenceRows lines ++ fenceRows lines' := by
  unfold fenceRows
  rw [List.map_append, solids_append]

theorem fenceRows_singleton {line : String} : fenceRows [line] = [] ↔ Text.strip line = "" := by
  unfold fenceRows solids
  rw [List.map_singleton, List.map_singleton, List.filter_cons, strip_eq_empty]
  split
  · rename_i hne
    exact iff_of_false (List.cons_ne_nil _ _) (of_decide_eq_true hne)
  · rename_i hne
    exact iff_of_true rfl (by simpa using hne)

theorem rows_command {lines : List String} (h : Unbroken lines) :
    rows isSpace '\n' (Text.strip ("\n".intercalate lines)).toList = fenceRows lines := by
  rw [strip_toList, rows_trim rfl, String.toList_intercalate]
  exact rows_intercalate (List.forall_mem_map.mpr h)

theorem commandRows_addCommand {lines : List String} (h : Unbroken lines) (step : ActionStep) :
    commandRows (addCommand lines step) = commandRows step ++ fenceRows lines := by
  unfold addCommand commandRows
  dsimp only
  split
  · rename_i old hold
    rw [(Option.filter_eq_some_iff.mp hold).1, Option.getD_some, Option.getD_some, ← rows_command h,
      String.append_assoc, String.toList_append, String.toList_append]
    exact rows_append _ _
  · rename_i hnone
    have hempty : step.command.getD "" = "" := by
      cases hcommand : step.command with
      | none => rfl
      | some c =>
        rw [hcommand, Option.filter_eq_none_iff] at hnone
        simpa using hnone c rfl
    rw [hempty, Option.getD_some, rows_command h]
    rfl

def toldRows (s : GuideState) : List (List Char) := s.steps.reverse.flatMap commandRows

def hasItem (s : GuideState) : Bool := !s.steps.isEmpty

theorem toldRows_cons (h : s.steps = step :: steps) :
    toldRows s = steps.reverse.flatMap commandRows ++ commandRows step := by
  unfold toldRows
  rw [h, List.reverse_cons, List.flatMap_append, List.flatMap_singleton]

theorem readLine_toldRows (h : Unbroken s.fenceLines) (line : String) :
    toldRows (readLine s line) =
      toldRows s ++ if isFence line && s.inFence && hasItem s then fenceRows s.fenceLines else [] := by
  unfold readLine
  cases hfence : isFence line with
  | true =>
    rw [if_pos rfl]
    cases hin : s.inFence with
    | false => exact (List.append_nil _).symm
    | true =>
      rw [if_pos rfl]
      split
      · rename_i step steps hsteps
        have hclosed : ∀ step' : ActionStep,
            toldRows { s with steps := step' :: steps, inFence := false, fenceLines := [] } =
              steps.reverse.flatMap commandRows ++ commandRows step' := fun _ => toldRows_cons rfl
        rw [toldRows_cons hsteps, hclosed]
        unfold hasItem
        rw [hsteps, if_pos (show (true && true && !(step :: steps).isEmpty) = true from rfl), List.append_assoc]
        congr 1
        split
        · rename_i hnil
          rw [hnil]
          exact (List.append_nil _).symm
        · exact commandRows_addCommand h step
      · rename_i hsteps
        unfold toldRows hasItem
        rw [hsteps]
        rfl
  | false =>
    rw [if_neg Bool.false_ne_true, Bool.false_and, Bool.false_and, if_neg Bool.false_ne_true, List.append_nil]
    split
    · rfl
    · split
      · exact (toldRows_cons rfl).trans (List.append_nil _)
      · split
        · rfl
        · split
          · rename_i step steps hsteps
            rw [toldRows_cons hsteps]
            unfold toldRows
            rw [List.reverse_cons, List.flatMap_append, List.flatMap_singleton]
            rfl
          · rfl

theorem readLine_hasItem (s : GuideState) (line : String) :
    hasItem (readLine s line) = (hasItem s || (!isFence line && !s.inFence && isItem line)) := by
  unfold readLine
  cases hfence : isFence line with
  | true =>
    rw [if_pos rfl, Bool.not_true, Bool.false_and, Bool.false_and, Bool.or_false]
    split
    · split
      · rename_i step steps hsteps
        unfold hasItem
        rw [hsteps]
        rfl
      · rfl
    · rfl
  | false =>
    rw [if_neg Bool.false_ne_true]
    cases hin : s.inFence with
    | true => exact (Bool.or_false _).symm
    | false =>
      rw [if_neg Bool.false_ne_true]
      unfold isItem
      cases hitem : listItem line with
      | some text => exact (Bool.or_true _).symm
      | none =>
        rw [Option.isSome_none, Bool.and_false, Bool.or_false]
        dsimp only
        split
        · rfl
        · split
          · rename_i step steps hsteps
            unfold hasItem
            rw [hsteps]
            rfl
          · rfl

theorem readLine_fenceLines (s : GuideState) (line : String) :
    (readLine s line).fenceLines = if isFence line then if s.inFence then [] else s.fenceLines
      else if s.inFence then s.fenceLines ++ [line] else s.fenceLines := by
  unfold readLine
  by_cases hfence : isFence line = true
  · rw [if_pos hfence, if_pos hfence]
    by_cases hin : s.inFence = true
    · rw [if_pos hin, if_pos hin]
      split
      · rfl
      · rfl
    · rw [if_neg hin, if_neg hin]
  · rw [if_neg hfence, if_neg hfence]
    by_cases hin : s.inFence = true
    · rw [if_pos hin, if_pos hin]
    · rw [if_neg hin, if_neg hin]
      split
      · rfl
      · split
        · rfl
        · split
          · rfl
          · rfl

/-- `Attached`, of what is left of the lines. -/
structure AttachedFrom (items inFence : Bool) (pending lines : List String) : Prop where
  now : inFence = true → fenceRows pending ≠ [] → lines.any isFence = true ∧ items = true
  later : ∀ pre line post, lines = pre ++ line :: post → fenced inFence pre = true → isFence line = false →
    Text.strip line ≠ "" → post.any isFence = true ∧ (items || (outside inFence pre).any isItem) = true

theorem forall_split_cons {α : Type} {x : α} {xs : List α} {P : List α → α → List α → Prop} :
    (∀ pre y post, x :: xs = pre ++ y :: post → P pre y post) ↔
      P [] x xs ∧ ∀ pre y post, xs = pre ++ y :: post → P (x :: pre) y post := by
  constructor
  · intro h
    exact ⟨h [] x xs rfl, fun pre y post heq => h (x :: pre) y post (congrArg (x :: ·) heq)⟩
  · rintro ⟨hnow, hlater⟩ pre y post heq
    cases pre with
    | nil =>
      cases heq
      exact hnow
    | cons z pre =>
      obtain ⟨rfl, hrest⟩ := List.cons.inj heq
      exact hlater pre y post hrest

variable {items : Bool} {pending lines : List String} {line : String}

theorem attachedFrom_close (h : isFence line = true) :
    AttachedFrom items true pending (line :: lines) ↔
      (fenceRows pending ≠ [] → items = true) ∧ AttachedFrom items false [] lines := by
  constructor
  · rintro ⟨hnow, hlater⟩
    rw [forall_split_cons] at hlater
    refine ⟨fun hne => (hnow rfl hne).2, nofun, fun pre l post heq hfenced => ?_⟩
    have := hlater.2 pre l post heq
    rw [fenced, List.foldl_cons, if_pos h, outside, if_pos h] at this
    exact this hfenced
  · rintro ⟨hitems, -, hlater⟩
    refine ⟨fun _ hne => ⟨by rw [List.any_cons, h]; rfl, hitems hne⟩, ?_⟩
    rw [forall_split_cons]
    refine ⟨fun _ hline => absurd h (by rw [hline]; decide), fun pre l post heq hfenced => ?_⟩
    rw [fenced, List.foldl_cons, if_pos h] at hfenced
    rw [outside, if_pos h]
    exact hlater pre l post heq hfenced

theorem attachedFrom_open (h : isFence line = true) :
    AttachedFrom items false [] (line :: lines) ↔ AttachedFrom items true [] lines := by
  constructor
  · rintro ⟨-, hlater⟩
    rw [forall_split_cons] at hlater
    refine ⟨fun _ hne => absurd rfl hne, fun pre l post heq hfenced => ?_⟩
    have := hlater.2 pre l post heq
    rw [fenced, List.foldl_cons, if_pos h, outside, if_pos h] at this
    exact this hfenced
  · rintro ⟨-, hlater⟩
    refine ⟨nofun, ?_⟩
    rw [forall_split_cons]
    refine ⟨fun _ hline => absurd h (by rw [hline]; decide), fun pre l post heq hfenced => ?_⟩
    rw [fenced, List.foldl_cons, if_pos h] at hfenced
    rw [outside, if_pos h]
    exact hlater pre l post heq hfenced

theorem attachedFrom_content (h : isFence line = false) :
    AttachedFrom items true pending (line :: lines) ↔ AttachedFrom items true (pending ++ [line]) lines := by
  have hne : fenceRows (pending ++ [line]) ≠ [] ↔ fenceRows pending ≠ [] ∨ Text.strip line ≠ "" := by
    rw [fenceRows_append, ne_eq, List.append_eq_nil_iff, fenceRows_singleton]
    exact not_and_or
  have hany : (line :: lines).any isFence = lines.any isFence := by rw [List.any_cons, h, Bool.false_or]
  have hnot : ¬ isFence line = true := by rw [h]; decide
  constructor
  · rintro ⟨hnow, hlater⟩
    rw [forall_split_cons] at hlater
    rw [hany] at hnow
    refine ⟨fun _ hrows => ?_, fun pre l post heq hfenced => ?_⟩
    · rcases hne.mp hrows with hpending | hline
      · exact hnow rfl hpending
      · have := hlater.1 rfl h hline
        rwa [outside, List.any_nil, Bool.or_false] at this
    · have := hlater.2 pre l post heq
      rw [fenced, List.foldl_cons, if_neg hnot, outside, if_neg hnot, if_pos rfl] at this
      exact this hfenced
  · rintro ⟨hnow, hlater⟩
    refine ⟨fun _ hrows => hany ▸ hnow rfl (hne.mpr (.inl hrows)), ?_⟩
    rw [forall_split_cons]
    refine ⟨fun _ _ hline => ?_, fun pre l post heq hfenced => ?_⟩
    · rw [outside, List.any_nil, Bool.or_false]
      exact hnow rfl (hne.mpr (.inr hline))
    · rw [fenced, List.foldl_cons, if_neg hnot] at hfenced
      rw [outside, if_neg hnot, if_pos rfl]
      exact hlater pre l post heq hfenced

theorem attachedFrom_outside (h : isFence line = false) :
    AttachedFrom items false [] (line :: lines) ↔ AttachedFrom (items || isItem line) false [] lines := by
  have hnot : ¬ isFence line = true := by rw [h]; decide
  have hor : ∀ pre, (items || (outside false (line :: pre)).any isItem) =
      (items || isItem line || (outside false pre).any isItem) := by
    intro pre
    rw [outside, if_neg hnot, if_neg (by decide), List.any_cons, Bool.or_assoc]
  constructor
  · rintro ⟨-, hlater⟩
    rw [forall_split_cons] at hlater
    refine ⟨nofun, fun pre l post heq hfenced => ?_⟩
    have := hlater.2 pre l post heq
    rw [fenced, List.foldl_cons, if_neg hnot, hor] at this
    exact this hfenced
  · rintro ⟨-, hlater⟩
    refine ⟨nofun, ?_⟩
    rw [forall_split_cons]
    refine ⟨nofun, fun pre l post heq hfenced => ?_⟩
    rw [fenced, List.foldl_cons, if_neg hnot] at hfenced
    rw [hor]
    exact hlater pre l post heq hfenced

theorem readLine_unbroken (hline : '\n' ∉ line.toList) (h : Unbroken s.fenceLines) :
    Unbroken (readLine s line).fenceLines := by
  rw [readLine_fenceLines]
  split
  · split
    · exact fun _ hmem => absurd hmem List.not_mem_nil
    · exact h
  · split
    · intro l hl
      rcases List.mem_append.mp hl with hl | hl
      · exact h l hl
      · exact List.mem_singleton.mp hl ▸ hline
    · exact h

def Settled (s : GuideState) : Prop := s.inFence = false → s.fenceLines = []

theorem readLine_settled (h : Settled s) (line : String) : Settled (readLine s line) := by
  unfold Settled
  rw [readLine_inFence, readLine_fenceLines]
  intro hout
  by_cases hfence : isFence line = true
  · rw [if_pos hfence] at hout ⊢
    cases hin : s.inFence with
    | true => rfl
    | false =>
      rw [hin] at hout
      cases hout
  · rw [if_neg hfence] at hout ⊢
    rw [if_neg (by rw [hout]; decide)]
    exact h hout

theorem rest_cons (s : GuideState) (line : String) (lines : List String) :
    fenceRows (s.fenceLines ++ inside s.inFence (line :: lines)) =
      (if isFence line && s.inFence then fenceRows s.fenceLines else []) ++
        fenceRows ((readLine s line).fenceLines ++ inside (readLine s line).inFence lines) := by
  rw [readLine_fenceLines, readLine_inFence, inside]
  cases hfence : isFence line with
  | true =>
    cases hin : s.inFence with
    | true => exact fenceRows_append _ _
    | false => rfl
  | false =>
    cases hin : s.inFence with
    | true =>
      exact congrArg fenceRows (List.append_cons s.fenceLines line (inside true lines))
    | false => rfl

theorem attachedFrom_cons (hsettled : Settled s) :
    AttachedFrom (hasItem s) s.inFence s.fenceLines (line :: lines) ↔
      ((isFence line && s.inFence) = true → fenceRows s.fenceLines ≠ [] → hasItem s = true) ∧
      AttachedFrom (hasItem (readLine s line)) (readLine s line).inFence (readLine s line).fenceLines lines := by
  rw [readLine_hasItem, readLine_inFence, readLine_fenceLines]
  cases hfence : isFence line with
  | true =>
    rw [Bool.not_true, Bool.false_and, Bool.false_and, Bool.or_false, Bool.true_and]
    cases hin : s.inFence with
    | true =>
      rw [attachedFrom_close hfence]
      exact ⟨fun h => ⟨fun _ => h.1, h.2⟩, fun h => ⟨h.1 rfl, h.2⟩⟩
    | false =>
      rw [hsettled hin, attachedFrom_open hfence]
      exact ⟨fun h => ⟨nofun, h⟩, And.right⟩
  | false =>
    rw [Bool.not_false, Bool.true_and, Bool.false_and]
    cases hin : s.inFence with
    | true =>
      rw [attachedFrom_content hfence, Bool.not_true, Bool.false_and, Bool.or_false]
      exact ⟨fun h => ⟨nofun, h⟩, And.right⟩
    | false =>
      rw [hsettled hin, attachedFrom_outside hfence, Bool.not_false, Bool.true_and]
      exact ⟨fun h => ⟨nofun, h⟩, And.right⟩

theorem run_le (hpending : Unbroken s.fenceLines) (hlines : Unbroken lines) :
    (toldRows (lines.foldl readLine s)).length ≤
      (toldRows s).length + (fenceRows (s.fenceLines ++ inside s.inFence lines)).length := by
  induction lines generalizing s with
  | nil => exact Nat.le_add_right _ _
  | cons line lines ih =>
    have hnext := ih (readLine_unbroken (hlines line List.mem_cons_self) hpending)
      fun l hl => hlines l (List.mem_cons_of_mem _ hl)
    rw [List.foldl_cons, rest_cons, List.length_append]
    rw [readLine_toldRows hpending, List.length_append] at hnext
    have hle : (if isFence line && s.inFence && hasItem s then fenceRows s.fenceLines else []).length ≤
        (if isFence line && s.inFence then fenceRows s.fenceLines else []).length := by
      cases isFence line && s.inFence with
      | true =>
        cases hasItem s with
        | true => exact Nat.le_refl _
        | false => exact Nat.zero_le _
      | false => exact Nat.le_refl _
    omega

theorem run_iff (hsettled : Settled s) (hpending : Unbroken s.fenceLines) (hlines : Unbroken lines) :
    toldRows (lines.foldl readLine s) = toldRows s ++ fenceRows (s.fenceLines ++ inside s.inFence lines) ↔
      AttachedFrom (hasItem s) s.inFence s.fenceLines lines := by
  induction lines generalizing s with
  | nil =>
    rw [List.foldl_nil, inside, List.append_nil, List.self_eq_append_right]
    constructor
    · intro hnil
      refine ⟨fun _ hne => absurd hnil hne, fun pre l post heq => ?_⟩
      exact absurd heq.symm (List.append_ne_nil_of_right_ne_nil _ (List.cons_ne_nil _ _))
    · rintro ⟨hnow, -⟩
      by_contra hne
      cases hin : s.inFence with
      | true => cases (hnow hin hne).1
      | false =>
        rw [hsettled hin] at hne
        exact hne rfl
  | cons line lines ih =>
    have hlines' : Unbroken lines := fun l hl => hlines l (List.mem_cons_of_mem _ hl)
    have hpending' := readLine_unbroken (hlines line List.mem_cons_self) hpending
    have hnext := ih (readLine_settled hsettled line) hpending' hlines'
    have hle := run_le hpending' hlines'
    rw [List.foldl_cons, rest_cons, attachedFrom_cons hsettled, ← hnext, readLine_toldRows hpending]
    rw [readLine_toldRows hpending] at hle
    cases hclose : isFence line && s.inFence with
    | false =>
      rw [Bool.false_and, if_neg Bool.false_ne_true, List.append_nil, List.nil_append]
      exact ⟨fun h => ⟨nofun, h⟩, And.right⟩
    | true =>
      cases hitem : hasItem s with
      | true =>
        rw [Bool.and_self, if_pos rfl, List.append_assoc]
        exact ⟨fun h => ⟨fun _ _ => rfl, h⟩, And.right⟩
      | false =>
        rw [Bool.and_false, if_neg Bool.false_ne_true, List.append_nil, if_pos rfl]
        rw [hclose, hitem, Bool.and_false, if_neg Bool.false_ne_true, List.append_nil] at hle
        constructor
        · -- what the fence held is missing
          intro heq
          rw [heq, List.length_append, List.length_append] at hle
          have hnil : fenceRows s.fenceLines = [] := List.length_eq_zero_iff.mp (by omega)
          rw [hnil, List.nil_append] at heq
          exact ⟨fun _ hne => absurd hnil hne, heq⟩
        · rintro ⟨hnone, heq⟩
          have hnil : fenceRows s.fenceLines = [] := by
            by_contra hne
            cases hnone rfl hne
          rw [heq, hnil, List.nil_append]

theorem splitlinesFrom_unbroken {line cs l : List Char} (hline : ∀ c ∈ line, Text.isLineBreak c = false)
    (h : l ∈ Text.splitlinesFrom line cs) : ∀ c ∈ l, Text.isLineBreak c = false := by
  induction line, cs using Text.splitlinesFrom.induct with
  | case1 =>
    rw [Text.splitlinesFrom, if_pos rfl] at h
    cases h
  | case2 line hne =>
    rw [Text.splitlinesFrom, if_neg hne, List.mem_singleton] at h
    exact h ▸ hline
  | case3 line cs ih =>
    rw [Text.splitlinesFrom, List.mem_cons] at h
    cases h with
    | inl h => exact h ▸ hline
    | inr h => exact ih (fun _ hc => absurd hc List.not_mem_nil) h
  | case4 line c cs hcr hbreak ih =>
    rw [Text.splitlinesFrom.eq_3 _ _ _ hcr, if_pos hbreak, List.mem_cons] at h
    cases h with
    | inl h => exact h ▸ hline
    | inr h => exact ih (fun _ hc => absurd hc List.not_mem_nil) h
  | case5 line c cs hcr hbreak ih =>
    rw [Text.splitlinesFrom.eq_3 _ _ _ hcr, if_neg hbreak] at h
    refine ih (fun x hx => ?_) h
    rcases List.mem_append.mp hx with hx | hx
    · exact hline x hx
    · exact List.mem_singleton.mp hx ▸ Bool.eq_false_iff.mpr hbreak

theorem splitlines_unbroken (s : String) : Unbroken (Text.splitlines s) := by
  intro line hline hmem
  obtain ⟨l, hl, rfl⟩ := List.mem_map.mp hline
  rw [String.toList_ofList] at hmem
  exact absurd (splitlinesFrom_unbroken (fun _ hc => absurd hc List.not_mem_nil) hl _ hmem) (by decide)

def readGuide (guideMd : String) : GuideState := (Text.splitlines guideMd).foldl readLine {}

theorem told_start : Told [] {} := by
  constructor
  · exact (rfl : solids isSpace [] = plains [])
  · exact .nil

theorem readGuide_told (guideMd : String) : Told (outside false (Text.splitlines guideMd)) (readGuide guideMd) :=
  told_start.run (Text.splitlines guideMd)

theorem readGuide_rows (guideMd : String) : toldRows (readGuide guideMd) = fencedRows guideMd ↔ Attached guideMd := by
  have h : toldRows (readGuide guideMd) = [] ++ fenceRows ([] ++ inside false (Text.splitlines guideMd)) ↔
      AttachedFrom false false [] (Text.splitlines guideMd) :=
    run_iff (fun _ => rfl) (fun _ h => absurd h List.not_mem_nil) (splitlines_unbroken guideMd)
  rw [List.nil_append, List.nil_append] at h
  refine h.trans ⟨fun h pre line post heq => ?_, fun h => ⟨nofun, fun pre line post heq => ?_⟩⟩
  · have := h.later pre line post heq
    rwa [Bool.false_or] at this
  · rw [Bool.false_or]
    exact h pre line post heq

/-- A step without the blanks around its parts. -/
def stripped (step : ActionStep) : ActionStep :=
  { text := Text.strip step.text, command := (step.command.map Text.strip).filter fun c => decide (c ≠ "") }

theorem stripped_text (step : ActionStep) : (stripped step).text = Text.strip step.text := rfl

theorem validate_eq (step : ActionStep) :
    step.validate = if Text.strip step.text = "" then none else some (stripped step) := rfl

theorem validate_some {step' : ActionStep} (h : step.validate = some step') :
    Text.strip step.text ≠ "" ∧ step' = stripped step := by
  rw [validate_eq] at h
  split at h
  · cases h
  · rename_i hne
    exact ⟨hne, (Option.some.inj h).symm⟩

theorem validate_steps {steps' : List ActionStep} : steps.mapM ActionStep.validate = some steps' ↔
    (∀ step ∈ steps, Text.strip step.text ≠ "") ∧ steps' = steps.map stripped := by
  induction steps generalizing steps' with
  | nil =>
    rw [List.mapM_nil, List.map_nil]
    exact ⟨fun h => ⟨nofun, (Option.some.inj h).symm⟩, fun h => h.2 ▸ rfl⟩
  | cons step steps ih =>
    rw [List.mapM_cons, List.forall_mem_cons, List.map_cons]
    simp only [Option.bind_eq_bind, Option.bind_eq_some_iff, validate_eq, ih]
    constructor
    · rintro ⟨step', hstep, rest, ⟨hall, rfl⟩, h⟩
      cases h
      split at hstep
      · cases hstep
      · rename_i hne
        cases hstep
        exact ⟨⟨hne, hall⟩, rfl⟩
    · rintro ⟨⟨hne, hall⟩, rfl⟩
      exact ⟨stripped step, if_neg hne, steps.map stripped, ⟨hall, rfl⟩, rfl⟩

theorem commandRows_stripped (step : ActionStep) : commandRows (stripped step) = commandRows step := by
  unfold commandRows stripped
  dsimp only
  cases step.command with
  | none => rfl
  | some c =>
    rw [Option.map_some, Option.filter_some, Option.getD_some,
      ← rows_trim (rfl : isSpace '\n' = true) c.toList, ← strip_toList]
    by_cases hne : Text.strip c = ""
    · rw [if_neg (by simpa using hne), hne]
      rfl
    · rw [if_pos (decide_eq_true hne)]
      rfl

theorem grown_named (h : Grown item step) : Text.strip step.text ≠ "" ↔ plains item ≠ [] := by
  refine ⟨fun hne hnil => hne (h.blank hnil), fun hne hblank => hne ?_⟩
  have hholds : Holds (plains item) (trim isSpace step.text.toList) := h.holds.trim solid_of_mem
  rw [strip_eq_empty.mp hblank] at hholds
  exact Solid.holds_nil solid_of_mem hholds

theorem grown_all {items : List (List String)} (h : List.Forall₂ Grown items steps) :
    (∀ step ∈ steps, Text.strip step.text ≠ "") ↔ ∀ item ∈ items, plains item ≠ [] := by
  induction h with
  | nil => exact ⟨nofun, nofun⟩
  | cons hstep hrest ih => rw [List.forall_mem_cons, List.forall_mem_cons, ih, grown_named hstep]

theorem spread_told {lines : List String} (h : Told lines s) :
    Spread (plains lines) ((Text.strip (" ".intercalate s.intro)).toList ::
      (s.steps.reverse.map stripped).map fun step => step.text.toList) := by
  refine ⟨plains (lines.takeWhile fun l => !isItem l) :: (sections lines).map plains, ?_, .cons ?_ ?_⟩
  · rw [List.flatten_cons, ← plains_flatten, ← plains_append, sections_flatten]
  · rw [strip_toList, ← h.intro, String.toList_intercalate]
    exact (holds_intercalate _ _).trim solid_of_mem
  · rw [List.map_map, List.forall₂_map_left_iff, List.forall₂_map_right_iff, ← List.forall₂_reverse_iff,
      List.reverse_reverse]
    refine h.steps.imp fun item step hstep => ?_
    dsimp only [Function.comp_apply]
    rw [stripped_text, strip_toList]
    exact hstep.holds.trim solid_of_mem

theorem reverse_commandRows (s : GuideState) : (s.steps.reverse.map stripped).flatMap commandRows = toldRows s := by
  unfold toldRows
  rw [List.flatMap_map]
  exact congrArg (s.steps.reverse.flatMap ·) (funext commandRows_stripped)

theorem holds_single (intro : List String) (guideMd : String) :
    Holds (solids isSpace (intro.map String.toList))
      (Text.strip (if Text.strip ("\n".intercalate intro) = "" then Text.strip guideMd
        else Text.strip ("\n".intercalate intro))).toList := by
  have hall : Holds (solids isSpace (intro.map String.toList)) (Text.strip ("\n".intercalate intro)).toList := by
    rw [strip_toList, String.toList_intercalate]
    exact (holds_intercalate _ _).trim solid_of_mem
  split
  · rename_i hempty
    rw [hempty] at hall
    rw [Solid.holds_nil solid_of_mem hall]
    exact holds_nil _
  · rw [Text.strip_idem]
    exact hall

theorem parseGuide_some {guideMd intro : String} (h : parseGuide guideMd = some (intro, steps)) :
    Spread (passages guideMd) (intro.toList :: steps.map fun step => step.text.toList) ∧
      steps.flatMap commandRows = toldRows (readGuide guideMd) := by
  have htold := readGuide_told guideMd
  unfold parseGuide at h
  dsimp only at h
  rw [show (Text.splitlines guideMd).foldl readLine {} = readGuide guideMd from rfl] at h
  split at h
  · -- the guide is one step
    rename_i hsingle
    rw [Option.map_eq_some_iff] at h
    obtain ⟨step, hstep, h⟩ := h
    cases h
    obtain ⟨-, rfl⟩ := validate_some hstep
    have hlines : passages guideMd = solids isSpace ((readGuide guideMd).intro.map String.toList) := by
      have hnone := htold.steps
      rw [hsingle.1, List.forall₂_nil_right_iff, List.reverse_eq_nil_iff, sections_eq_nil] at hnone
      rw [htold.intro, takeWhile_of_noItem hnone]
      rfl
    refine ⟨⟨[[], passages guideMd], List.append_nil _, .cons (holds_nil _) (.cons ?_ .nil)⟩, ?_⟩
    · rw [hlines]
      dsimp only [stripped_text]
      exact holds_single (readGuide guideMd).intro guideMd
    · unfold toldRows
      rw [hsingle.1]
      rfl
  · rw [Option.map_eq_some_iff] at h
    obtain ⟨steps, hsteps, h⟩ := h
    obtain ⟨rfl, rfl⟩ := Prod.mk.inj h
    obtain ⟨-, rfl⟩ := validate_steps.mp hsteps
    refine ⟨?_, reverse_commandRows _⟩
    unfold passages
    exact spread_told htold

theorem titled_iff (guideMd : String) :
    Titled guideMd ↔ ∀ step ∈ (readGuide guideMd).steps.reverse, Text.strip step.text ≠ "" := by
  simp only [List.mem_reverse]
  rw [grown_all (readGuide_told guideMd).steps]
  simp only [List.mem_reverse]
  rfl

theorem parseGuide_isSome (guideMd : String) : (parseGuide guideMd).isSome = true ↔ Titled guideMd := by
  rw [titled_iff]
  unfold parseGuide
  dsimp only
  rw [show (Text.splitlines guideMd).foldl readLine {} = readGuide guideMd from rfl]
  split
  · rename_i hsingle
    rw [Option.isSome_map, validate_eq, if_neg, hsingle.1]
    · exact iff_of_true rfl nofun
    · dsimp only
      split
      · rw [Text.strip_idem]
        exact hsingle.2
      · rw [Text.strip_idem]
        assumption
  · rw [Option.isSome_map]
    constructor
    · intro hsome
      obtain ⟨steps, hsteps⟩ := Option.isSome_iff_exists.mp hsome
      exact (validate_steps.mp hsteps).1
    · intro hall
      rw [validate_steps.mpr ⟨hall, rfl⟩]
      rfl

/-- A guide reaches the owner whole exactly when every list item has a text and every fence that holds something
comes after the first list item and ends. -/
theorem whole_iff (guideMd : String) : Whole guideMd ↔ Titled guideMd ∧ Attached guideMd := by
  constructor
  · rintro ⟨intro, steps, hparse, -, hrows⟩
    obtain ⟨-, hrows'⟩ := parseGuide_some hparse
    refine ⟨(parseGuide_isSome guideMd).mp (by rw [hparse]; rfl), ?_⟩
    rw [← readGuide_rows, ← hrows', hrows]
  · rintro ⟨htitled, hattached⟩
    obtain ⟨⟨intro, steps⟩, hparse⟩ := Option.isSome_iff_exists.mp ((parseGuide_isSome guideMd).mpr htitled)
    obtain ⟨hspread, hrows⟩ := parseGuide_some hparse
    refine ⟨intro, steps, hparse, hspread, ?_⟩
    rw [hrows, readGuide_rows]
    exact hattached

/-- The command comes before its step. -/
theorem early_command_lost :
    parseGuide "```\nmake backup\n```\n1. Run it" = some ("", [{ text := "Run it" }]) ∧
    ¬ Whole "```\nmake backup\n```\n1. Run it" := by
  have hparse : parseGuide "```\nmake backup\n```\n1. Run it" = some ("", [{ text := "Run it" }]) := by
    decide +kernel
  refine ⟨hparse, ?_⟩
  rintro ⟨intro, steps, hparse', -, hrows⟩
  rw [hparse] at hparse'
  cases hparse'
  revert hrows
  decide +kernel

end Guide
end OwnerActions
end DarkFactory
