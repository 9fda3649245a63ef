import DarkFactory.Orchestrator.Guard

/-!
# DarkFactory.Orchestrator.GuardCompleteness

What git prints for a list of changes, and what the guard reads back from it.

* `Change` — a record of `git diff --name-status`, with one path or two.
* `parseNameStatus_print` — all paths of all records are read, whatever the paths look like.
* `parse_cut_status`, `parse_cut_paths` — a stream that is cut inside a record, read.
-/

namespace DarkFactory
namespace Orchestrator

structure Path where
  text : String
  isField : Fields.IsField '\x00' text.toList

inductive ChangeLetter where
  | added | deleted | modified | typeChanged | unmerged | unknown | broken
deriving DecidableEq

def ChangeLetter.char : ChangeLetter → Char
  | .added => 'A'
  | .deleted => 'D'
  | .modified => 'M'
  | .typeChanged => 'T'
  | .unmerged => 'U'
  | .unknown => 'X'
  | .broken => 'B'

inductive MoveLetter where
  | renamed | copied
deriving DecidableEq

def MoveLetter.char : MoveLetter → Char
  | .renamed => 'R'
  | .copied => 'C'

/-- The digits of a score, none where there is no score. -/
abbrev Score := List (Fin 10)

inductive Change where
  | changed (letter : ChangeLetter) (score : Score) (path : Path)
  | moved (letter : MoveLetter) (score : Score) (old new : Path)

def statusField (letter : Char) (score : Score) : List Char :=
  letter :: score.map fun d : Fin 10 => Char.ofNat ('0'.toNat + d.val)

namespace Change

def paths : Change → List Path
  | .changed _ _ path => [path]
  | .moved _ _ old new => [old, new]

def status : Change → List Char
  | .changed letter score _ => statusField letter.char score
  | .moved letter score _ _ => statusField letter.char score

def fields (c : Change) : List (List Char) := c.status :: c.paths.map fun p => p.text.toList

def print (c : Change) : List Char := Fields.terminated '\x00' c.fields

def lastPathStart (c : Change) : Nat :=
  match c with
  | .changed _ _ _ => c.status.length + 1
  | .moved _ _ old _ => c.status.length + 1 + (old.text.toList.length + 1)

end Change

/-- The output of `git diff --name-status -z`. -/
def printChanges (changes : List Change) : String :=
  String.ofList (changes.flatMap Change.print)

/-- The output of `git ls-files -z`. -/
def printPaths (paths : List Path) : String :=
  String.ofList (Fields.terminated '\x00' (paths.map fun p => p.text.toList))

theorem digit_ne_nul (d : Fin 10) : Char.ofNat ('0'.toNat + d.val) ≠ '\x00' := by
  revert d
  decide

theorem statusField_isField {letter : Char} (h : letter ≠ '\x00') (score : Score) :
    Fields.IsField '\x00' (statusField letter score) := by
  refine ⟨List.cons_ne_nil _ _, fun hmem => ?_⟩
  rcases List.mem_cons.mp hmem with h0 | hmem
  · exact h h0.symm
  · obtain ⟨d, -, hd⟩ := List.mem_map.mp hmem
    exact digit_ne_nul d hd

theorem status_isField (c : Change) : Fields.IsField '\x00' c.status := by
  cases c with
  | changed letter score path => exact statusField_isField (by cases letter <;> decide) score
  | moved letter score old new => exact statusField_isField (by cases letter <;> decide) score

theorem fields_isField (c : Change) : ∀ f ∈ c.fields, Fields.IsField '\x00' f := by
  rw [Change.fields, List.forall_mem_cons]
  refine ⟨status_isField c, fun f hf => ?_⟩
  obtain ⟨p, -, rfl⟩ := List.mem_map.mp hf
  exact p.isField

theorem hasTwoPaths_status (c : Change) : hasTwoPaths (String.ofList c.status) = true ↔ c.paths.length = 2 := by
  cases c with
  | changed letter score path =>
    cases letter <;> simp [hasTwoPaths, Text.startsWith, Change.status, statusField, Change.paths,
      ChangeLetter.char]
  | moved letter score old new =>
    cases letter <;> simp [hasTwoPaths, Text.startsWith, Change.status, statusField, Change.paths, MoveLetter.char]

theorem paths_length (c : Change) : c.paths.length = 1 ∨ c.paths.length = 2 := by
  cases c with
  | changed => exact .inl rfl
  | moved => exact .inr rfl

theorem pathCount_status (c : Change) :
    (if hasTwoPaths (String.ofList c.status) then 2 else 1) = c.paths.length := by
  split
  · rename_i h
    exact ((hasTwoPaths_status c).mp h).symm
  · rename_i h
    rcases paths_length c with h1 | h2
    · exact h1.symm
    · exact absurd ((hasTwoPaths_status c).mpr h2) h

theorem parseFields_status (c : Change) (rest : List String) :
    parseFields (String.ofList c.status :: rest) = if rest.length < c.paths.length then .error malformed
      else (parseFields (rest.drop c.paths.length)).map fun paths => rest.take c.paths.length ++ paths := by
  rw [parseFields, pathCount_status]

theorem parseFields_fields (c : Change) (rest : List String) :
    parseFields (c.fields.map String.ofList ++ rest) =
      (parseFields rest).map fun paths => c.paths.map Path.text ++ paths := by
  have hpaths : (c.paths.map fun p => p.text.toList).map String.ofList = c.paths.map Path.text := by
    simp
  rw [Change.fields, List.map_cons, hpaths, List.cons_append, parseFields_status, if_neg]
  · rw [List.drop_left' (List.length_map _), List.take_left' (List.length_map _)]
  · rw [List.length_append, List.length_map]
    omega

theorem nulFields_print (c : Change) (rest : List Char) :
    (Fields.fields '\x00' (c.print ++ rest)).map String.ofList =
      c.fields.map String.ofList ++ (Fields.fields '\x00' rest).map String.ofList := by
  rw [Change.print, Fields.fields_terminated (fields_isField c), List.map_append]

theorem parse_print_append (changes : List Change) (rest : List Char) :
    parseFields ((Fields.fields '\x00' (changes.flatMap Change.print ++ rest)).map String.ofList) =
      (parseFields ((Fields.fields '\x00' rest).map String.ofList)).map fun paths =>
        (changes.flatMap Change.paths).map Path.text ++ paths := by
  induction changes with
  | nil =>
    rw [List.flatMap_nil, List.nil_append]
    cases parseFields ((Fields.fields '\x00' rest).map String.ofList) with
    | error e => rfl
    | ok paths => rfl
  | cons c changes ih =>
    rw [List.flatMap_cons, List.append_assoc, nulFields_print, parseFields_fields, ih]
    cases parseFields ((Fields.fields '\x00' rest).map String.ofList) with
    | error e => rfl
    | ok paths => simp [Except.map]

theorem parseNameStatus_print (changes : List Change) :
    parseNameStatus (printChanges changes) = .ok ((changes.flatMap Change.paths).map Path.text) := by
  have h := parse_print_append changes []
  rw [List.append_nil, Fields.fields_nil, List.map_nil, parseFields] at h
  rw [parseNameStatus, nulFields, printChanges, String.toList_ofList, h]
  simp [Except.map]

theorem parseFields_single (status : String) : parseFields [status] = .error malformed := by
  rw [parseFields]
  simp only [List.length_nil]
  split <;> rfl

def Change.cutPaths (c : Change) (k : Nat) : List String :=
  match c with
  | .changed _ _ path => [String.ofList (path.text.toList.take (k - c.lastPathStart))]
  | .moved _ _ old new => [old.text, String.ofList (new.text.toList.take (k - c.lastPathStart))]

theorem parse_cut_status (c : Change) {k : Nat} (hk : 0 < k) (hle : k ≤ c.status.length) :
    parseFields ((Fields.fields '\x00' (c.print.take k)).map String.ofList) = .error malformed := by
  rw [Change.print, Change.fields, Fields.fields_take_le (status_isField c) _ hk hle]
  exact parseFields_single _

theorem parse_cut_paths (c : Change) (j : Nat) :
    parseFields ((Fields.fields '\x00' (c.print.take (c.status.length + 1 + j))).map String.ofList) =
      parseFields (String.ofList c.status :: (Fields.fields '\x00' ((Fields.terminated '\x00'
        (c.paths.map fun p => p.text.toList)).take j)).map String.ofList) := by
  rw [Change.print, Change.fields, Fields.fields_take_gt (status_isField c), List.map_cons]

theorem parse_cut_before (c : Change) {k : Nat} (hk : 0 < k) (hle : k ≤ c.lastPathStart) :
    parseFields ((Fields.fields '\x00' (c.print.take k)).map String.ofList) = .error malformed := by
  by_cases hstatus : k ≤ c.status.length
  · exact parse_cut_status c hk hstatus
  obtain ⟨j, rfl⟩ : ∃ j, k = c.status.length + 1 + j := ⟨k - (c.status.length + 1), by omega⟩
  rw [parse_cut_paths]
  by_cases hj : j = 0
  · subst hj
    exact parseFields_single _
  cases c with
  | changed letter score path =>
    simp only [Change.lastPathStart] at hle
    omega
  | moved letter score old new =>
    simp only [Change.lastPathStart] at hle
    simp only [Change.paths, List.map_cons, List.map_nil]
    rw [parseFields_status]
    have htwo : (Change.moved letter score old new).paths.length = 2 := rfl
    by_cases hold : j ≤ old.text.toList.length
    · rw [Fields.fields_take_le old.isField _ (Nat.pos_of_ne_zero hj) hold, htwo]
      rfl
    · have hend : j = old.text.toList.length + 1 + 0 := by omega
      rw [hend, Fields.fields_take_gt old.isField, htwo]
      rfl

theorem parse_cut_inside (c : Change) {k : Nat} (hgt : c.lastPathStart < k)
    (hlt : k < c.print.length) :
    parseFields ((Fields.fields '\x00' (c.print.take k)).map String.ofList) = .ok (c.cutPaths k) := by
  rw [Change.print, Change.fields, Fields.terminated_cons, List.length_append, List.length_cons] at hlt
  cases c with
  | changed letter score path =>
    simp only [Change.lastPathStart] at hgt
    obtain ⟨j, rfl⟩ : ∃ j, k = (Change.changed letter score path).status.length + 1 + j :=
      ⟨k - ((Change.changed letter score path).status.length + 1), by omega⟩
    simp only [Change.paths, List.map_cons, List.map_nil, Fields.terminated_cons,
      Fields.terminated_nil, List.length_append, List.length_cons, List.length_nil] at hlt
    rw [parse_cut_paths, Change.cutPaths, Change.lastPathStart, Nat.add_sub_cancel_left]
    simp only [Change.paths, List.map_cons, List.map_nil]
    rw [Fields.fields_take_le path.isField [] (by omega) (by omega), parseFields_status]
    simp [Change.paths, parseFields, Except.map]
  | moved letter score old new =>
    simp only [Change.lastPathStart] at hgt
    obtain ⟨i, rfl⟩ : ∃ i, k = (Change.moved letter score old new).status.length + 1 +
        (old.text.toList.length + 1 + i) :=
      ⟨k - ((Change.moved letter score old new).status.length + 1 + (old.text.toList.length + 1)), by omega⟩
    simp only [Change.paths, List.map_cons, List.map_nil, Fields.terminated_cons,
      Fields.terminated_nil, List.length_append, List.length_cons, List.length_nil] at hlt
    rw [parse_cut_paths, Change.cutPaths, Change.lastPathStart, ← Nat.add_assoc _ _ i, Nat.add_sub_cancel_left]
    simp only [Change.paths, List.map_cons, List.map_nil]
    rw [Fields.fields_take_gt old.isField, Fields.fields_take_le new.isField [] (by omega) (by omega),
      parseFields_status]
    simp [Change.paths, parseFields, Except.map]

theorem parseNameStatus_cut (changes : List Change) (c : Change) {k : Nat} (hk : 0 < k)
    (hlt : k < c.print.length) :
    (∃ e, parseNameStatus (String.ofList (changes.flatMap Change.print ++ c.print.take k)) = .error e) ↔
      k ≤ c.lastPathStart := by
  rw [parseNameStatus, nulFields, String.toList_ofList, parse_print_append]
  constructor
  · rintro ⟨e, he⟩
    by_contra hgt
    rw [parse_cut_inside c (Nat.lt_of_not_le hgt) hlt] at he
    cases he
  · intro hle
    rw [parse_cut_before c hk hle]
    exact ⟨malformed, rfl⟩

def Path.newlines (p : Path) : Path where
  text := Text.universalNewlines p.text
  isField := by
    rw [Text.universalNewlines, String.toList_ofList]
    exact ⟨Text.newlinesList_ne_nil p.isField.1, fun h => p.isField.2 (Text.mem_of_mem_newlinesList (by decide) h)⟩

def Change.newlines : Change → Change
  | .changed letter score path => .changed letter score path.newlines
  | .moved letter score old new => .moved letter score old.newlines new.newlines

theorem newlines_terminated (fs : List (List Char)) (rest : List Char) :
    Text.newlinesList (Fields.terminated '\x00' fs ++ rest) =
      Fields.terminated '\x00' (fs.map Text.newlinesList) ++ Text.newlinesList rest := by
  induction fs with
  | nil => rfl
  | cons f fs ih =>
    rw [Fields.terminated_cons, List.append_assoc, List.cons_append,
      Text.newlinesList_append (by decide) (by decide), ih, List.map_cons, Fields.terminated_cons,
      List.append_assoc, List.cons_append]

theorem digit_ne_cr (d : Fin 10) : Char.ofNat ('0'.toNat + d.val) ≠ '\r' := by
  revert d
  decide

theorem newlines_statusField (letter : Char) (h : letter ≠ '\r') (score : Score) :
    Text.newlinesList (statusField letter score) = statusField letter score := by
  refine Text.newlinesList_eq_self fun hmem => ?_
  rcases List.mem_cons.mp hmem with h0 | hmem
  · exact h h0.symm
  · obtain ⟨d, -, hd⟩ := List.mem_map.mp hmem
    exact digit_ne_cr d hd

theorem newlines_fields (c : Change) : c.fields.map Text.newlinesList = c.newlines.fields := by
  cases c with
  | changed letter score path =>
    have h := newlines_statusField letter.char (by cases letter <;> decide) score
    simp [Change.fields, Change.status, Change.paths, Change.newlines, Path.newlines, Text.universalNewlines, h]
  | moved letter score old new =>
    have h := newlines_statusField letter.char (by cases letter <;> decide) score
    simp [Change.fields, Change.status, Change.paths, Change.newlines, Path.newlines, Text.universalNewlines, h]

theorem newlines_printChanges (changes : List Change) :
    Text.universalNewlines (printChanges changes) = printChanges (changes.map Change.newlines) := by
  rw [Text.universalNewlines, printChanges, String.toList_ofList, printChanges]
  congr 1
  induction changes with
  | nil => rfl
  | cons c changes ih =>
    rw [List.flatMap_cons, Change.print, newlines_terminated, ih, newlines_fields]
    rfl

theorem newlines_printPaths (paths : List Path) :
    Text.universalNewlines (printPaths paths) = printPaths (paths.map Path.newlines) := by
  have h := newlines_terminated (paths.map fun p => p.text.toList) []
  rw [List.append_nil] at h
  rw [Text.universalNewlines, printPaths, String.toList_ofList, h, printPaths]
  simp [Function.comp_def, Path.newlines, Text.universalNewlines, Text.newlinesList]

theorem nulFields_printPaths (paths : List Path) : nulFields (printPaths paths) = paths.map Path.text := by
  have hfields : ∀ f ∈ paths.map fun p => p.text.toList, Fields.IsField '\x00' f := by
    intro f hf
    obtain ⟨p, -, rfl⟩ := List.mem_map.mp hf
    exact p.isField
  have h := Fields.fields_terminated hfields []
  rw [List.append_nil, Fields.fields_nil, List.append_nil] at h
  rw [nulFields, printPaths, String.toList_ofList, h]
  simp

theorem forwardSlashes_newlines (cs : List Char) :
    forwardSlashes (Text.newlinesList cs) = Text.newlinesList (forwardSlashes cs) := by
  induction cs using Text.newlinesList.induct with
  | case1 => rfl
  | case2 cs ih =>
    rw [Text.newlinesList]
    simp only [forwardSlashes, List.map_cons] at ih ⊢
    rw [ih]
    rfl
  | case3 c cs hne ih =>
    rw [Text.newlinesList.eq_3 c cs hne]
    simp only [forwardSlashes, List.map_cons] at ih ⊢
    rw [Text.newlinesList.eq_3, ih]
    · split
      · rename_i hc
        subst hc
        rfl
      · split
        · rename_i hc
          rw [if_neg]
          subst hc
          decide
        · rfl
    · intro cs' hc hcs
      split at hc
      · cases hc
      · cases cs with
        | nil => cases hcs
        | cons c' cs =>
          rw [List.map_cons, List.cons.injEq] at hcs
          split at hcs
          · exact absurd hcs.1 (by decide)
          · exact hne cs hc (by rw [hcs.1])

theorem basename_of_not_mem {cs : List Char} (h : '/' ∉ cs) : basename cs = cs := by
  rw [basename, List.rtakeWhile_eq_self_iff]
  intro c hc
  exact decide_eq_true fun hc' => h (hc' ▸ hc)

theorem basename_append {b : List Char} (hb : '/' ∉ b) (a : List Char) : basename (a ++ '/' :: b) = b := by
  have hall : ∀ c ∈ b.reverse, decide (c ≠ '/') = true := fun c hc =>
    decide_eq_true fun hc' => hb (hc' ▸ List.mem_reverse.mp hc)
  rw [basename, List.rtakeWhile, List.reverse_append, List.reverse_cons, List.append_assoc,
    List.takeWhile_append_of_pos hall]
  simp

theorem basename_newlines (cs : List Char) : basename (Text.newlinesList cs) = Text.newlinesList (basename cs) := by
  have hslash : ∀ b : List Char, '/' ∉ b → '/' ∉ Text.newlinesList b := fun b hb hmem =>
    hb (Text.mem_of_mem_newlinesList (by decide) hmem)
  by_cases h : '/' ∈ cs.reverse
  · obtain ⟨b, a, hsplit, hb⟩ := List.eq_append_cons_of_mem h
    have hcs : cs = a.reverse ++ '/' :: b.reverse := by
      rw [← List.reverse_reverse cs, hsplit]
      simp
    have hb' : '/' ∉ b.reverse := fun hmem => hb (List.mem_reverse.mp hmem)
    rw [hcs, Text.newlinesList_append (by decide) (by decide), basename_append (hslash _ hb'), basename_append hb']
  · have hcs : '/' ∉ cs := fun hmem => h (List.mem_reverse.mpr hmem)
    rw [basename_of_not_mem hcs, basename_of_not_mem (hslash cs hcs)]

theorem patterns_one_line : ∀ pattern ∈ PROTECTED_PATTERNS,
    '\r' ∉ pattern.toList ∧ '\n' ∉ pattern.toList := by
  simp only [PROTECTED_PATTERNS, List.forall_mem_cons]
  repeat rw [String.toList_ofList]
  decide

theorem isProtected_newlines {filepath : String} (h : isProtected filepath = true) :
    isProtected (Text.universalNewlines filepath) = true := by
  unfold isProtected at h ⊢
  simp only [List.any_eq_true, Bool.or_eq_true, Text.universalNewlines, String.toList_ofList,
    forwardSlashes_newlines, basename_newlines] at h ⊢
  obtain ⟨pattern, hmem, hmatch⟩ := h
  obtain ⟨hr, hn⟩ := patterns_one_line pattern hmem
  exact ⟨pattern, hmem, hmatch.imp (Text.fnmatch_newlinesList hr hn) (Text.fnmatch_newlinesList hr hn)⟩

theorem mem_sortedSet {paths : List String} {p : String} : p ∈ sortedSet paths ↔ p ∈ paths := by
  rw [sortedSet, (sortAsc_perm id paths.dedup).mem_iff, List.mem_dedup]

structure Reports (git : Git) (baseRef : String) (changes : List Change) (untracked : List Path) : Prop where
  answers : ∃ baseSha err err', resolveBase git baseRef = .ok baseSha ∧
    git ("git" :: diffArguments baseSha) = .ok ⟨0, printChanges changes, err⟩ ∧
    git ("git" :: untrackedArguments) = .ok ⟨0, printPaths untracked, err'⟩

theorem changes_newlines_paths (changes : List Change) :
    (changes.map Change.newlines).flatMap Change.paths = (changes.flatMap Change.paths).map Path.newlines := by
  induction changes with
  | nil => rfl
  | cons c changes ih =>
    rw [List.map_cons, List.flatMap_cons, ih, List.flatMap_cons, List.map_append]
    cases c <;> rfl

theorem getModifiedFiles_of_reports {git : Git} {baseRef : String} {changes : List Change}
    {untracked : List Path} (h : Reports git baseRef changes untracked) :
    getModifiedFiles git baseRef = .ok (sortedSet
      (((changes.flatMap Change.paths ++ untracked).map Path.newlines).map Path.text)) := by
  obtain ⟨baseSha, err, err', hbase, hdiff, huntracked⟩ := h.answers
  unfold getModifiedFiles runGit
  rw [hbase]
  simp only [bind, Except.bind, hdiff, huntracked, newlines_printChanges, newlines_printPaths,
    parseNameStatus_print, nulFields_printPaths, changes_newlines_paths, ne_eq, not_true_eq_false,
    if_false, pure, Except.pure, List.map_append]

theorem audit_complete {git : Git} {baseRef : String} {changes : List Change} {untracked : List Path}
    (h : Reports git baseRef changes untracked) :
    ∃ files, getModifiedFiles git baseRef = .ok files ∧
      ∀ p ∈ changes.flatMap Change.paths ++ untracked, isProtected p.text = true →
        Text.universalNewlines p.text ∈ auditPaths files := by
  refine ⟨_, getModifiedFiles_of_reports h, fun p hp hprotected => ?_⟩
  rw [auditPaths, List.mem_filter, mem_sortedSet]
  exact ⟨List.mem_map_of_mem (List.mem_map_of_mem hp), isProtected_newlines hprotected⟩

/-- All paths of all records are read; a stream cut inside its last record raises exactly when nothing of
that record's last path is left; and every reported change of a protected path is in the audit. -/
theorem guard_complete_iff (changes : List Change) :
    parseNameStatus (printChanges changes) = .ok ((changes.flatMap Change.paths).map Path.text) ∧
    (∀ (c : Change) (k : Nat), 0 < k → k < c.print.length →
      ((∃ e, parseNameStatus (String.ofList (changes.flatMap Change.print ++ c.print.take k)) = .error e) ↔
        k ≤ c.lastPathStart)) ∧
    ∀ (git : Git) (baseRef : String) (untracked : List Path), Reports git baseRef changes untracked →
      ∃ files, getModifiedFiles git baseRef = .ok files ∧
        ∀ p ∈ changes.flatMap Change.paths ++ untracked, isProtected p.text = true →
          Text.universalNewlines p.text ∈ auditPaths files :=
  ⟨parseNameStatus_print changes, fun c _ hk hlt => parseNameStatus_cut changes c hk hlt,
    fun _ _ _ h => audit_complete h⟩

def agentsFile : Path := ⟨"AGENTS.md", by decide⟩

/-- A record that lost the last letter of its path is read as a change of another path. -/
theorem cut_path_accepted :
    ¬ ∀ (c : Change) (k : Nat), 0 < k → k < c.print.length →
      ∃ e, parseNameStatus (String.ofList (c.print.take k)) = .error e := by
  intro h
  have hlt : 10 < (Change.changed .modified [] agentsFile).print.length := by decide
  have hiff := parseNameStatus_cut [] (.changed .modified [] agentsFile) (k := 10) (by decide) hlt
  rw [List.flatMap_nil, List.nil_append] at hiff
  exact absurd (hiff.mp (h _ 10 (by decide) hlt)) (by decide)

end Orchestrator
end DarkFactory
