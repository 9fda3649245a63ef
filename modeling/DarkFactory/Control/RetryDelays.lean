import DarkFactory.Control.Closing

/-!
# DarkFactory.Control.RetryDelays

What delays the successor of a retry: the first `not_before=` of the cause code that has a text after it, wherever it
stands.

* `TokenAt`, `FirstToken` — the matches of `not_before=(?P<iso>\S+)` and the one `search` finds.
* `notBeforeToken_iff` — the search of the source finds exactly that one.
-/

namespace DarkFactory
namespace Control

/-- `iso` is the text between a `not_before=`, after `before`, and the next blank. -/
def TokenAt (c before iso : List Char) : Prop :=
  ∃ rest, c = before ++ ("not_before=".toList ++ rest) ∧ iso = rest.takeWhile (fun d => !Text.isSpace d) ∧ iso ≠ []

def FirstToken (c iso : List Char) : Prop :=
  ∃ before, TokenAt c before iso ∧ ∀ before' iso', TokenAt c before' iso' → before.length ≤ before'.length

theorem tokenAt_cons {d : Char} {c before iso : List Char} :
    TokenAt (d :: c) before iso ↔ (before = [] ∧ "not_before=".toList.isPrefixOf (d :: c) = true ∧
        iso = ((d :: c).drop 11).takeWhile (fun d => !Text.isSpace d) ∧ iso ≠ []) ∨
      ∃ before', before = d :: before' ∧ TokenAt c before' iso := by
  cases before with
  | nil =>
    constructor
    · rintro ⟨rest, heq, hiso, hne⟩
      refine .inl ⟨rfl, ?_, ?_, hne⟩
      · rw [heq, List.isPrefixOf_iff_prefix]
        exact List.prefix_append _ _
      · rw [heq, hiso]
        rfl
    · rintro (⟨-, hprefix, hiso, hne⟩ | ⟨before', heq, -⟩)
      · obtain ⟨rest, hrest⟩ := List.isPrefixOf_iff_prefix.mp hprefix
        refine ⟨rest, hrest.symm, ?_, hne⟩
        rw [hiso, ← hrest]
        rfl
      · cases heq
  | cons b before =>
    constructor
    · rintro ⟨rest, heq, hiso, hne⟩
      rw [List.cons_append, List.cons.injEq] at heq
      exact .inr ⟨before, by rw [heq.1], rest, heq.2, hiso, hne⟩
    · rintro (⟨heq, -⟩ | ⟨before', heq, rest, hc, hiso, hne⟩)
      · cases heq
      · rw [List.cons.injEq] at heq
        refine ⟨rest, ?_, hiso, hne⟩
        rw [heq.1, heq.2, hc, List.cons_append]

theorem not_tokenAt_nil (before iso : List Char) : ¬ TokenAt [] before iso := by
  rintro ⟨rest, heq, -⟩
  have hlength := congrArg List.length heq
  simp only [List.length_append, List.length_nil] at hlength
  have hpattern : "not_before=".toList.length = 11 := rfl
  omega

theorem TokenAt.unique {c before before' iso iso' : List Char} (h : TokenAt c before iso)
    (h' : TokenAt c before' iso') (hlength : before.length = before'.length) : iso = iso' := by
  obtain ⟨rest, heq, hiso, -⟩ := h
  obtain ⟨rest', heq', hiso', -⟩ := h'
  obtain ⟨-, hafter⟩ := List.append_inj (heq.symm.trans heq') hlength
  rw [hiso, hiso', List.append_cancel_left hafter]

theorem notBeforeToken_spec (c : List Char) :
    (∃ iso, notBeforeToken c = some (String.ofList iso) ∧ FirstToken c iso) ∨
      (notBeforeToken c = none ∧ ∀ before iso, ¬ TokenAt c before iso) := by
  induction c with
  | nil => exact .inr ⟨rfl, not_tokenAt_nil⟩
  | cons d c ih =>
    -- where no match starts here, the matches are those of the rest
    have hlater : (∀ iso, ¬ TokenAt (d :: c) [] iso) → notBeforeToken (d :: c) = notBeforeToken c →
        (∃ iso, notBeforeToken (d :: c) = some (String.ofList iso) ∧ FirstToken (d :: c) iso) ∨
          (notBeforeToken (d :: c) = none ∧ ∀ before iso, ¬ TokenAt (d :: c) before iso) := by
      intro hnone hsame
      have hcons : ∀ before iso, TokenAt (d :: c) before iso →
          ∃ before', before = d :: before' ∧ TokenAt c before' iso := by
        intro before iso htoken
        rcases tokenAt_cons.mp htoken with ⟨rfl, -⟩ | hrest
        · exact absurd htoken (hnone iso)
        · exact hrest
      rw [hsame]
      rcases ih with ⟨iso, hfound, before, htoken, hfirst⟩ | ⟨hfound, hno⟩
      · refine .inl ⟨iso, hfound, d :: before, tokenAt_cons.mpr (.inr ⟨before, rfl, htoken⟩), ?_⟩
        intro before' iso' htoken'
        obtain ⟨before'', rfl, htoken''⟩ := hcons before' iso' htoken'
        exact Nat.succ_le_succ (hfirst before'' iso' htoken'')
      · refine .inr ⟨hfound, fun before iso htoken => ?_⟩
        obtain ⟨before', -, htoken'⟩ := hcons before iso htoken
        exact hno before' iso htoken'
    by_cases hprefix : "not_before=".toList.isPrefixOf (d :: c) = true
    · cases hiso : ((d :: c).drop 11).takeWhile (fun d => !Text.isSpace d) with
      | nil =>
        apply hlater
        · intro iso htoken
          rcases tokenAt_cons.mp htoken with ⟨-, -, heq, hne⟩ | ⟨before', heq, -⟩
          · exact hne (heq.trans hiso)
          · cases heq
        · rw [notBeforeToken, if_pos hprefix, hiso]
      | cons e iso =>
        refine .inl ⟨e :: iso, ?_, [], tokenAt_cons.mpr (.inl ⟨rfl, hprefix, hiso.symm, List.cons_ne_nil e iso⟩), ?_⟩
        · rw [notBeforeToken, if_pos hprefix, hiso]
        · intro before' iso' _
          exact Nat.zero_le _
    · apply hlater
      · intro iso htoken
        rcases tokenAt_cons.mp htoken with ⟨-, hyes, -⟩ | ⟨before', heq, -⟩
        · exact hprefix hyes
        · cases heq
      · rw [notBeforeToken, if_neg hprefix]

theorem notBeforeToken_iff {c : List Char} {text : String} :
    notBeforeToken c = some text ↔ FirstToken c text.toList := by
  rcases notBeforeToken_spec c with ⟨iso, hfound, hfirst⟩ | ⟨hfound, hno⟩
  · rw [hfound, Option.some.injEq]
    constructor
    · rintro rfl
      rw [String.toList_ofList]
      exact hfirst
    · rintro ⟨before', htoken', hfirst'⟩
      obtain ⟨before, htoken, hmin⟩ := hfirst
      have hlength : before.length = before'.length :=
        Nat.le_antisymm (hmin before' _ htoken') (hfirst' before _ htoken)
      rw [htoken.unique htoken' hlength, String.ofList_toList]
  · rw [hfound]
    constructor
    · intro h
      cases h
    · rintro ⟨before, htoken, -⟩
      exact absurd htoken (hno before _)

namespace Sqlite

theorem materialized_new {env : Env} {k : JobKey} {result : StageResult} {now : DateTime} {s s' : Store}
    {keys : List JobKey} (h : materializeResult env k result now s = .ok (keys, s')) {j : Job} (hj : j ∈ s'.jobs)
    (hnew : s.jobs.get? j.key = none) (hother : j.key ≠ k) :
    j.key ∈ (planOf env k result now s).successors ∧
      j = successorJob env (planOf env k result now s) now j.key := by
  obtain ⟨s₀, -, hs₀, -, rfl⟩ := materializeResult_ok h
  rw [closeIfDone_jobs] at hj
  have hget := Table.get?_of_mem hj
  rw [materialized_get?, if_neg hother, (ensureRun_jobs hs₀).1, hnew, Option.none_or] at hget
  split at hget
  · rename_i hmem
    exact ⟨hmem, (Option.some.inj hget).symm⟩
  · cases hget

theorem notBeforeFor_iff {env : Env} {k : JobKey} {result : StageResult} {now : DateTime} {s : Store}
    {key : JobKey} (hkey : key ∈ (planOf env k result now s).successors) {iso : String} :
    notBeforeFor (planOf env k result now s) key = some iso ↔
      result.outcome = .retry ∧ key.stage ≠ "retrospective" ∧
        ∃ c, result.causeCode = some c ∧ FirstToken c.toList iso.toList := by
  have htoken : (parseRetryCauseCode result.causeCode).2 = some iso ↔
      ∃ c, result.causeCode = some c ∧ FirstToken c.toList iso.toList := by
    cases result.causeCode with
    | none => simp [parseRetryCauseCode]
    | some c => simp [parseRetryCauseCode, notBeforeToken_iff]
  unfold notBeforeFor
  by_cases hretro : key.stage = "retrospective"
  · simp [hretro]
  · rw [if_neg hretro]
    unfold planOf at hkey ⊢
    cases houtcome : result.outcome with
    | retry =>
      rw [houtcome] at hkey
      simp only at hkey ⊢
      split
      · rename_i hstep
        rw [hstep] at hkey
        rw [List.mem_singleton.mp hkey] at hretro
        exact absurd rfl hretro
      · simp [hretro, htoken]
    | _ => simp

def sentBack : StageResult := .sampleRetry (some "retry:grill\nthe agent says not_before=soon")

def sentBackStore : Store :=
  apply .sample (Runs.run (apply .sample) .empty [.sampleAccept])
    (.materializeResult (.sample "planning" 0) sentBack (utc 10))

theorem sentBack_materialized :
    ∃ keys j, materializeResult .sample (.sample "planning" 0) sentBack (utc 10)
        (Runs.run (apply .sample) .empty [.sampleAccept]) = .ok (keys, sentBackStore) ∧
      j ∈ sentBackStore.jobs ∧ (Runs.run (apply .sample) .empty [.sampleAccept]).jobs.get? j.key = none ∧
      j.key = .sample "grill" 1 ∧ j.notBefore = some "soon" := by
  have hjob : (sentBackStore.jobs.get? (.sample "grill" 1)).map Job.notBefore = some (some "soon") := by
    decide +kernel
  obtain ⟨j, hget, hbefore⟩ := Option.map_eq_some_iff.mp hjob
  obtain ⟨hj, hkey⟩ := Table.get?_eq_some.mp hget
  have hnew : (Runs.run (apply .sample) .empty [.sampleAccept]).jobs.get? j.key = none := by
    rw [hkey]
    decide +kernel
  cases hs : materializeResult .sample (.sample "planning" 0) sentBack (utc 10)
      (Runs.run (apply .sample) .empty [.sampleAccept]) with
  | error e =>
    rw [sentBackStore, apply, hs, committed_error] at hget
    rw [← hkey, hnew] at hget
    cases hget
  | ok r =>
    refine ⟨r.1, j, ?_, hj, hnew, hkey, hbefore⟩
    rw [sentBackStore, apply, hs]
    rfl

end Sqlite

end Control
end DarkFactory
