import Mathlib.Data.List.Dedup
import DarkFactory.Lib.Runs
import DarkFactory.Workflow.Outbox

/-!
# DarkFactory.Workflow.OutboxRuns

What the resend queue keeps, over any run of its processes.

* `Careful` — the steps that lose nothing: what is appended lands in a file that is still to be read, a claimed file is
  read, the outbox is not too long, no process dies with an event in its hands.
-/

namespace DarkFactory
namespace Workflow
namespace Outbox

open Runs Executions

def After.event : After → Option Executions.Event
  | .done => none
  | .adopt e _ _ => some e

def After.mine : After → Option Nat
  | .done => none
  | .adopt _ _ mine => some mine

def Stage.event : Stage → Option Executions.Event
  | .idle => none
  | .glob e | .adopt e _ | .adoptRead e _ _ | .adoptOpen e _ _ _ | .adoptWrite e _ _ _ _ | .adoptUnlink e _ _ | .claim e
  | .claimedRead e _ | .send e _ _ | .restOpen e _ _ | .restWrite e _ _ _ | .claimedUnlink e _ _ | .write e
  | .enqueueOpen e | .enqueueWrite e _ => some e
  | .trimRead k | .trimOpen k _ | .trimWrite k _ _ => k.event

/-- The `.sending` file that a process has renamed. -/
def Stage.mine : Stage → Option Nat
  | .adoptRead _ _ mine | .adoptOpen _ _ mine _ | .adoptWrite _ _ mine _ _ | .adoptUnlink _ _ mine | .claimedRead _ mine
  | .send _ mine _ | .restOpen _ mine _ | .restWrite _ mine _ _ | .claimedUnlink _ mine _ => some mine
  | .trimRead k | .trimOpen k _ | .trimWrite k _ _ => k.mine
  | _ => none

def Stage.transfer : Stage → Option (Nat × List Line)
  | .adoptOpen _ _ mine ls | .adoptWrite _ _ mine ls _ | .send _ mine ls | .restOpen _ mine ls | .restWrite _ mine ls _ =>
    some (mine, ls)
  | _ => none

def Stage.doomed : Stage → Option Nat
  | .adoptUnlink _ _ mine | .claimedUnlink _ mine _ => some mine
  | .trimRead k | .trimOpen k _ | .trimWrite k _ _ => k.mine
  | _ => none

def Stage.trims : Stage → Bool
  | .trimOpen _ _ | .trimWrite _ _ _ => true
  | _ => false

def Stage.HasRead (s : Stage) (name : Nat) : Prop := s.doomed = some name ∨ ∃ ls, s.transfer = some (name, ls)

def Lands (w : World) (file : Nat) : Prop :=
  w.disk.outbox = some file ∨ ∃ name, (name, file) ∈ w.disk.sending ∧ ∀ q, ¬ (w.stage q).HasRead name

def Live (w : World) (file : Nat) : Prop :=
  w.disk.outbox = some file ∨ ∃ name, (name, file) ∈ w.disk.sending ∧ ∀ q, (w.stage q).doomed ≠ some name

def Secure (w : World) (e : Executions.Event) : Prop := e ∈ w.store ∨ ∃ file, Live w file ∧ .event e ∈ w.disk.content file

def Careful (w : World) : Act → Prop
  | .publish _ e => intact e = true
  | .crash p => ∀ e, (w.stage p).event = some e → Secure w e
  | .go p c =>
    match w.stage p with
    | .adoptWrite _ _ _ _ file => Lands w file
    | .claimedRead _ mine => c.fault = false ∧ (w.disk.read mine).isSome
    | .restOpen _ _ _ => c.fault = false
    | .restWrite _ _ _ file => c.fault = false ∧ Lands w file
    | .enqueueOpen _ => c.fault = false
    | .enqueueWrite _ file => c.fault = false ∧ Lands w file
    | .trimRead _ => ∀ file, w.disk.outbox = some file → (w.disk.readFile file).length ≤ outboxMaxLines
    | _ => True

structure Wf (d : Disk) : Prop where
  fresh : ∀ name file, (name, file) ∈ d.sending → name < d.next ∧ file < d.next
  outbox : ∀ file, d.outbox = some file → file < d.next
  apart : ∀ name file, (name, file) ∈ d.sending → d.outbox ≠ some file
  oneName : ∀ name name' file, (name, file) ∈ d.sending → (name', file) ∈ d.sending → name = name'
  oneFile : ∀ name file file', (name, file) ∈ d.sending → (name, file') ∈ d.sending → file = file'

def Covers (w : World) (name : Nat) (ls : List Line) : Prop :=
  ∀ file, (name, file) ∈ w.disk.sending → ∀ e, intact e = true → .event e ∈ w.disk.content file →
    e ∈ w.store ∨ .event e ∈ ls

structure Inv (w : World) : Prop where
  wf : Wf w.disk
  mine : ∀ p name, (w.stage p).mine = some name → name < w.disk.next
  transfer : ∀ p name ls, (w.stage p).transfer = some (name, ls) → Covers w name ls
  trims : ∀ p, (w.stage p).trims = false
  whole : ∀ e ∈ w.handed, intact e = true
  kept : ∀ e ∈ w.handed, Secure w e ∨ ∃ p, (w.stage p).event = some e

variable {s : Stage} {name p : Nat} {ls : List Line} {w : World} {e : Executions.Event}

theorem mine_of_doomed (h : s.doomed = some name) : s.mine = some name := by
  cases s <;> first | exact h | cases h

theorem mine_of_transfer (h : s.transfer = some (name, ls)) : s.mine = some name := by
  cases s <;> cases h <;> rfl

theorem set_self (w : World) (p : Nat) (s : Stage) : (w.set p s).stage p = s := if_pos rfl

theorem set_other (w : World) {p q : Nat} (s : Stage) (h : q ≠ p) : (w.set p s).stage q = w.stage q := if_neg h

/-- What a step of `p` may do to the files and to the store. -/
structure Evolves (w w' : World) (p : Nat) : Prop where
  wf : Wf w'.disk
  next : w.disk.next ≤ w'.disk.next
  store : ∀ e ∈ w.store, e ∈ w'.store
  handed : w'.handed = w.handed
  others : ∀ q, q ≠ p → w'.stage q = w.stage q
  /-- A name that was there before is of the same file, and of the same lines when somebody has read them. -/
  files : ∀ name file, (name, file) ∈ w'.disk.sending → name < w.disk.next → (name, file) ∈ w.disk.sending ∧
      ∀ q, (w.stage q).HasRead name → w'.disk.content file = w.disk.content file

theorem Inv.evolve {w' : World} (h : Inv w) (hev : Evolves w w' p)
    (hmine : ∀ name, (w'.stage p).mine = some name → name < w'.disk.next)
    (htransfer : ∀ name ls, (w'.stage p).transfer = some (name, ls) → Covers w' name ls)
    (htrims : (w'.stage p).trims = false)
    (hsecure : ∀ e, intact e = true → Secure w e → Secure w' e)
    (hevent : ∀ e, (w.stage p).event = some e → intact e = true → Secure w' e ∨ (w'.stage p).event = some e) :
    Inv w' where
  wf := hev.wf
  mine := by
    intro q name hq
    by_cases hqp : q = p
    · subst hqp
      exact hmine name hq
    · rw [hev.others q hqp] at hq
      exact Nat.lt_of_lt_of_le (h.mine q name hq) hev.next
  transfer := by
    intro q name ls hq
    by_cases hqp : q = p
    · subst hqp
      exact htransfer name ls hq
    · rw [hev.others q hqp] at hq
      intro file hfile e he hline
      obtain ⟨hbefore, hsame⟩ := hev.files name file hfile (h.mine q name (mine_of_transfer hq))
      rw [hsame q (.inr ⟨ls, hq⟩)] at hline
      exact (h.transfer q name ls hq file hbefore e he hline).imp_left (hev.store e)
  trims := by
    intro q
    by_cases hqp : q = p
    · subst hqp
      exact htrims
    · rw [hev.others q hqp]
      exact h.trims q
  whole := by
    rw [hev.handed]
    exact h.whole
  kept := by
    intro e he
    rw [hev.handed] at he
    rcases h.kept e he with hsafe | ⟨q, hq⟩
    · exact .inl (hsecure e (h.whole e he) hsafe)
    · by_cases hqp : q = p
      · subst hqp
        exact (hevent e hq (h.whole e he)).imp_right fun hheld => ⟨q, hheld⟩
      · exact .inr ⟨q, by rw [hev.others q hqp]; exact hq⟩

theorem live_of_doomed {w' : World} (houtbox : w'.disk.outbox = w.disk.outbox)
    (hsending : w'.disk.sending = w.disk.sending) (hdoomed : ∀ q name, (w'.stage q).doomed = some name →
      (w.stage q).doomed = some name) {file : Nat} (h : Live w file) : Live w' file := by
  rcases h with h | ⟨name, hmem, hnone⟩
  · exact .inl (houtbox.trans h)
  · exact .inr ⟨name, hsending ▸ hmem, fun q hq => hnone q (hdoomed q name hq)⟩

theorem doomed_set (h : ∀ name, s.doomed = some name → (w.stage p).doomed = some name)
    (q : Nat) {name : Nat} (hq : ((w.set p s).stage q).doomed = some name) : (w.stage q).doomed = some name := by
  by_cases hqp : q = p
  · subst hqp
    rw [set_self] at hq
    exact h name hq
  · rwa [set_other w s hqp] at hq

theorem Inv.turn (h : Inv w) (hmine : ∀ name, s.mine = some name → (w.stage p).mine = some name)
    (htransfer : ∀ name ls, s.transfer = some (name, ls) → Covers w name ls) (htrims : s.trims = false)
    (hdoomed : ∀ name, s.doomed = some name → (w.stage p).doomed = some name ∨ Covers w name [])
    (hevent : ∀ e, (w.stage p).event = some e → intact e = true → Secure (w.set p s) e ∨ s.event = some e) :
    Inv (w.set p s) := by
  have hself := set_self w p s
  refine h.evolve (p := p) ⟨h.wf, Nat.le_refl _, fun _ he => he, rfl, fun q hq => set_other w s hq,
    fun name file hfile _ => ⟨hfile, fun _ _ => rfl⟩⟩ ?_ ?_ ?_ ?_ ?_
  · rw [hself]
    exact fun name hname => h.mine p name (hmine name hname)
  · rw [hself]
    exact htransfer
  · rw [hself]
    exact htrims
  · intro e he hsafe
    rcases hsafe with hstored | ⟨file, hlive, hline⟩
    · exact .inl hstored
    · rcases hlive with houtbox | ⟨name, hmem, hnone⟩
      · exact .inr ⟨file, .inl houtbox, hline⟩
      · -- the file is still live, unless all of it is stored
        by_cases hdoom : s.doomed = some name
        · rcases hdoomed name hdoom with hbefore | hcovers
          · exact absurd hbefore (hnone p)
          · rcases hcovers file hmem e he hline with hstored | hnil
            · exact .inl hstored
            · cases hnil
        · refine .inr ⟨file, .inr ⟨name, hmem, fun q hq => ?_⟩, hline⟩
          by_cases hqp : q = p
          · subst hqp
            rw [set_self] at hq
            exact hdoom hq
          · rw [set_other w s hqp] at hq
            exact hnone q hq
  · rw [hself]
    exact hevent

theorem Inv.save (h : Inv w) (x : Executions.Event) : Inv (w.save x) where
  wf := h.wf
  mine := h.mine
  transfer := fun p name ls hp file hfile e he hline =>
    (h.transfer p name ls hp file hfile e he hline).imp_left fun hstored => List.mem_append_left _ hstored
  trims := h.trims
  whole := h.whole
  kept := fun e he => (h.kept e he).imp_left fun hsafe =>
    hsafe.imp_left fun hstored => List.mem_append_left _ hstored

theorem secure_save (x : Executions.Event) : Secure ((w.save x).set p s) x :=
  .inl (List.mem_append_right _ (List.mem_singleton_self x))

theorem put_content_of_ne (d : Disk) {file i : Nat} (ls : List Line) (h : i ≠ file) :
    (d.put file ls).content i = d.content i := if_neg h

theorem put_content_self (d : Disk) (file : Nat) (ls : List Line) : (d.put file ls).content file = ls := if_pos rfl

theorem Wf.put {d : Disk} (h : Wf d) (file : Nat) (ls : List Line) : Wf (d.put file ls) :=
  ⟨h.fresh, h.outbox, h.apart, h.oneName, h.oneFile⟩

theorem Inv.opened (h : Inv w) (hmine : s.mine = (w.stage p).mine)
    (htransfer : s.transfer = (w.stage p).transfer) (htrims : s.trims = false) (hdoomed : s.doomed = none)
    (hevent : s.event = (w.stage p).event) : Inv ({ w with disk := w.disk.openOutbox.2 }.set p s) := by
  unfold Disk.openOutbox
  cases houtbox : w.disk.outbox with
  | some file =>
    refine h.turn (fun name hname => hmine ▸ hname) (fun name ls hls => h.transfer p name ls (htransfer ▸ hls)) htrims ?_ ?_
    · intro name hname
      rw [hdoomed] at hname
      cases hname
    · exact fun e he _ => .inr (hevent ▸ he)
  | none =>
    let w' := { w with disk := { w.disk.put w.disk.next [] with outbox := some w.disk.next, next := w.disk.next + 1 } }
    have hself : (w'.set p s).stage p = s := set_self w' p s
    have hold : ∀ i, i < w.disk.next → (w'.set p s).disk.content i = w.disk.content i :=
      fun i hi => put_content_of_ne w.disk [] (Nat.ne_of_lt hi)
    have hwf : Wf (w'.set p s).disk := by
      refine ⟨fun name file hfile => ?_, ?_, fun name file hfile heq => ?_, h.wf.oneName, h.wf.oneFile⟩
      · have hfresh := h.wf.fresh name file hfile
        exact ⟨Nat.lt_succ_of_lt hfresh.1, Nat.lt_succ_of_lt hfresh.2⟩
      · intro file hfile
        cases hfile
        exact Nat.lt_succ_self _
      · cases heq
        exact absurd (h.wf.fresh name _ hfile).2 (Nat.lt_irrefl _)
    have hev : Evolves w (w'.set p s) p :=
      ⟨hwf, Nat.le_succ _, fun _ he => he, rfl, fun q hq => set_other w' s hq,
        fun name file hfile _ => ⟨hfile, fun _ _ => hold file (h.wf.fresh name file hfile).2⟩⟩
    refine h.evolve hev ?_ ?_ ?_ ?_ ?_
    · rw [hself, hmine]
      exact fun name hname => Nat.lt_succ_of_lt (h.mine p name hname)
    · rw [hself, htransfer]
      intro name ls hls file hfile e he hline
      rw [hold file (h.wf.fresh name file hfile).2] at hline
      exact h.transfer p name ls hls file hfile e he hline
    · rw [hself]
      exact htrims
    · intro e _ hsafe
      rcases hsafe with hstored | ⟨file, hlive, hline⟩
      · exact .inl hstored
      · rcases hlive with hfile | ⟨name, hmem, hnone⟩
        · rw [houtbox] at hfile
          cases hfile
        · refine .inr ⟨file, .inr ⟨name, hmem, fun q hq => ?_⟩, ?_⟩
          · refine hnone q (doomed_set (s := s) (fun name' hname => ?_) q hq)
            rw [hdoomed] at hname
            cases hname
          · rw [hold file (h.wf.fresh name file hmem).2]
            exact hline
    · rw [hself, hevent]
      exact fun e he _ => .inr he

theorem Inv.appended {file : Nat} (h : Inv w) (hlands : Lands w file)
    (hmine : ∀ name, s.mine = some name → (w.stage p).mine = some name) (htransfer : s.transfer = none)
    (htrims : s.trims = false) (hdoomed : ∀ name, s.doomed = some name → (w.stage p).transfer = some (name, ls))
    (hevent : ∀ e, (w.stage p).event = some e → .event e ∈ ls ∨ s.event = some e) :
    Inv ({ w with disk := w.disk.append file ls }.set p s) := by
  let w' := { w with disk := w.disk.append file ls }
  have hself : (w'.set p s).stage p = s := set_self w' p s
  have hgrow : ∀ i e, .event e ∈ w.disk.content i → .event e ∈ (w'.set p s).disk.content i := by
    intro i e hline
    by_cases hi : i = file
    · subst hi
      refine (put_content_self w.disk i _).symm ▸ List.mem_append_left _ hline
    · exact (put_content_of_ne w.disk _ hi).symm ▸ hline
  have hnew : ∀ e, .event e ∈ ls → .event e ∈ (w'.set p s).disk.content file := by
    intro e hline
    exact (put_content_self w.disk file _).symm ▸ List.mem_append_right _ hline
  -- the file itself stays live: the process has not read it
  have hlive : Live (w'.set p s) file := by
    rcases hlands with houtbox | ⟨name, hmem, hnone⟩
    · exact .inl houtbox
    · refine .inr ⟨name, hmem, fun q hq => ?_⟩
      by_cases hqp : q = p
      · subst hqp
        rw [hself] at hq
        exact hnone q (.inr ⟨ls, hdoomed name hq⟩)
      · rw [set_other w' s hqp] at hq
        exact hnone q (.inl hq)
  have hev : Evolves w (w'.set p s) p := by
    refine ⟨h.wf.put _ _, Nat.le_refl _, fun _ he => he, rfl, fun q hq => set_other w' s hq, fun name i hi _ => ⟨hi, ?_⟩⟩
    intro q hq
    refine put_content_of_ne w.disk _ fun hsame => ?_
    subst hsame
    rcases hlands with houtbox | ⟨name', hmem, hnone⟩
    · exact h.wf.apart name i hi houtbox
    · rw [h.wf.oneName name name' i hi hmem] at hq
      exact hnone q hq
  refine h.evolve hev ?_ ?_ ?_ ?_ ?_
  · rw [hself]
    exact fun name hname => h.mine p name (hmine name hname)
  · rw [hself, htransfer]
    nofun
  · rw [hself]
    exact htrims
  · intro e he hsafe
    rcases hsafe with hstored | ⟨i, hi, hline⟩
    · exact .inl hstored
    · rcases hi with houtbox | ⟨name, hmem, hnone⟩
      · exact .inr ⟨i, .inl houtbox, hgrow i e hline⟩
      · by_cases hdoom : s.doomed = some name
        · -- what the process gives up it has just appended
          rcases h.transfer p name ls (hdoomed name hdoom) i hmem e he hline with hstored | hline
          · exact .inl hstored
          · exact .inr ⟨file, hlive, hnew e hline⟩
        · refine .inr ⟨i, .inr ⟨name, hmem, fun q hq => ?_⟩, hgrow i e hline⟩
          by_cases hqp : q = p
          · subst hqp
            rw [hself] at hq
            exact hdoom hq
          · rw [set_other w' s hqp] at hq
            exact hnone q hq
  · rw [hself]
    intro e he _
    exact (hevent e he).imp_left fun hline => .inr ⟨file, hlive, hnew e hline⟩

/-- The outbox becomes the `.sending` file of the process. -/
theorem Inv.claimed {mine : Nat} {disk : Disk} (h : Inv w)
    (hclaim : w.disk.claim = some (mine, disk)) (hmine : ∀ name, s.mine = some name → name = mine)
    (htransfer : s.transfer = none) (htrims : s.trims = false) (hdoomed : s.doomed = none)
    (hevent : s.event = (w.stage p).event) : Inv ({ w with disk }.set p s) := by
  unfold Disk.claim at hclaim
  obtain ⟨file, houtbox, heq⟩ := Option.map_eq_some_iff.mp hclaim
  cases heq
  let w' := { w with disk := { w.disk with outbox := none, sending := w.disk.sending ++ [(w.disk.next, file)]
                                           next := w.disk.next + 1 } }
  have hself : (w'.set p s).stage p = s := set_self w' p s
  have hsending : ∀ name i, (name, i) ∈ (w'.set p s).disk.sending ↔
      (name, i) ∈ w.disk.sending ∨ (name = w.disk.next ∧ i = file) := by
    intro name i
    change (name, i) ∈ w.disk.sending ++ [(w.disk.next, file)] ↔ _
    rw [List.mem_append, List.mem_singleton, Prod.mk.injEq]
  have hfile := h.wf.outbox file houtbox
  have hold : ∀ {name i}, (name, i) ∈ w.disk.sending → name ≠ w.disk.next := by
    intro name i hmem
    exact Nat.ne_of_lt (h.wf.fresh name i hmem).1
  have hwf : Wf (w'.set p s).disk := by
    refine ⟨fun name i hi => ?_, nofun, nofun, fun name name' i hi hi' => ?_, fun name i i' hi hi' => ?_⟩
    · rcases (hsending name i).mp hi with hi | ⟨rfl, rfl⟩
      · have hfresh := h.wf.fresh name i hi
        exact ⟨Nat.lt_succ_of_lt hfresh.1, Nat.lt_succ_of_lt hfresh.2⟩
      · exact ⟨Nat.lt_succ_self _, Nat.lt_succ_of_lt hfile⟩
    · rcases (hsending name i).mp hi with hold₁ | ⟨hname, hi₁⟩
      · rcases (hsending name' i).mp hi' with hold₂ | ⟨_, hi₂⟩
        · exact h.wf.oneName name name' i hold₁ hold₂
        · exact absurd (hi₂ ▸ houtbox) (h.wf.apart name i hold₁)
      · rcases (hsending name' i).mp hi' with hold₂ | ⟨hname', _⟩
        · exact absurd (hi₁ ▸ houtbox) (h.wf.apart name' i hold₂)
        · rw [hname, hname']
    · rcases (hsending name i).mp hi with hold₁ | ⟨hname, hi₁⟩
      · rcases (hsending name i').mp hi' with hold₂ | ⟨hname', _⟩
        · exact h.wf.oneFile name i i' hold₁ hold₂
        · exact absurd hname' (hold hold₁)
      · rcases (hsending name i').mp hi' with hold₂ | ⟨_, hi₂⟩
        · exact absurd hname (hold hold₂)
        · rw [hi₁, hi₂]
  have hev : Evolves w (w'.set p s) p := by
    refine ⟨hwf, Nat.le_succ _, fun _ he => he, rfl, fun q hq => set_other w' s hq, fun name i hi hlt => ?_⟩
    rcases (hsending name i).mp hi with hi | ⟨rfl, _⟩
    · exact ⟨hi, fun _ _ => rfl⟩
    · exact absurd hlt (Nat.lt_irrefl _)
  refine h.evolve hev ?_ ?_ ?_ ?_ ?_
  · rw [hself]
    intro name hname
    rw [hmine name hname]
    exact Nat.lt_succ_self _
  · rw [hself, htransfer]
    nofun
  · rw [hself]
    exact htrims
  · intro e _ hsafe
    rcases hsafe with hstored | ⟨i, hi, hline⟩
    · exact .inl hstored
    · have hundoomed : ∀ q name, ((w'.set p s).stage q).doomed = some name → (w.stage q).doomed = some name := by
        intro q name hq
        refine doomed_set (s := s) (fun name' hname => ?_) q hq
        rw [hdoomed] at hname
        cases hname
      rcases hi with hi | ⟨name, hmem, hnone⟩
      · rw [houtbox] at hi
        cases hi
        refine .inr ⟨file, .inr ⟨w.disk.next, (hsending _ _).mpr (.inr ⟨rfl, rfl⟩), fun q hq => ?_⟩, hline⟩
        exact absurd (h.mine q _ (mine_of_doomed (hundoomed q _ hq))) (Nat.lt_irrefl _)
      · exact .inr ⟨i, .inr ⟨name, (hsending _ _).mpr (.inl hmem), fun q hq => hnone q (hundoomed q name hq)⟩, hline⟩
  · rw [hself, hevent]
    exact fun e he _ => .inr he

/-- A `.sending` file becomes one of the process. -/
theorem Inv.adopted {mine : Nat} {disk : Disk} (h : Inv w)
    (hadopt : w.disk.adopt name = some (mine, disk)) (hmine : ∀ n, s.mine = some n → n = mine)
    (htransfer : s.transfer = none) (htrims : s.trims = false) (hdoomed : s.doomed = none)
    (hevent : s.event = (w.stage p).event) : Inv ({ w with disk }.set p s) := by
  unfold Disk.adopt at hadopt
  obtain ⟨_, _, heq⟩ := Option.map_eq_some_iff.mp hadopt
  cases heq
  let w' := { w with disk := { w.disk with
    sending := w.disk.sending.map fun s : Nat × Nat => if s.1 = name then (w.disk.next, s.2) else s
    next := w.disk.next + 1 } }
  have hself : (w'.set p s).stage p = s := set_self w' p s
  have hsending : ∀ n i, (n, i) ∈ (w'.set p s).disk.sending ↔
      (n ≠ name ∧ (n, i) ∈ w.disk.sending) ∨ (n = w.disk.next ∧ (name, i) ∈ w.disk.sending) := by
    intro n i
    change (n, i) ∈ w.disk.sending.map (fun s : Nat × Nat => if s.1 = name then (w.disk.next, s.2) else s) ↔ _
    rw [List.mem_map]
    constructor
    · rintro ⟨⟨n', i'⟩, hmem, heq⟩
      dsimp only at heq
      split at heq
      · rename_i hname
        cases heq
        exact .inr ⟨rfl, hname ▸ hmem⟩
      · rename_i hname
        cases heq
        exact .inl ⟨hname, hmem⟩
    · rintro (⟨hne, hmem⟩ | ⟨rfl, hmem⟩)
      · exact ⟨_, hmem, if_neg hne⟩
      · exact ⟨_, hmem, if_pos rfl⟩
  have hold : ∀ {n i}, (n, i) ∈ w.disk.sending → n ≠ w.disk.next := by
    intro n i hmem
    exact Nat.ne_of_lt (h.wf.fresh n i hmem).1
  have hwf : Wf (w'.set p s).disk := by
    refine ⟨fun n i hi => ?_, fun i hi => Nat.lt_succ_of_lt (h.wf.outbox i hi), fun n i hi => ?_,
      fun n n' i hi hi' => ?_, fun n i i' hi hi' => ?_⟩
    · rcases (hsending n i).mp hi with ⟨_, hold₁⟩ | ⟨hn, hold₁⟩
      · have hfresh := h.wf.fresh n i hold₁
        exact ⟨Nat.lt_succ_of_lt hfresh.1, Nat.lt_succ_of_lt hfresh.2⟩
      · exact ⟨hn ▸ Nat.lt_succ_self _, Nat.lt_succ_of_lt (h.wf.fresh name i hold₁).2⟩
    · rcases (hsending n i).mp hi with ⟨_, hold₁⟩ | ⟨_, hold₁⟩
      · exact h.wf.apart n i hold₁
      · exact h.wf.apart name i hold₁
    · rcases (hsending n i).mp hi with ⟨hne, hold₁⟩ | ⟨hn, hold₁⟩
      · rcases (hsending n' i).mp hi' with ⟨_, hold₂⟩ | ⟨_, hold₂⟩
        · exact h.wf.oneName n n' i hold₁ hold₂
        · exact absurd (h.wf.oneName n name i hold₁ hold₂) hne
      · rcases (hsending n' i).mp hi' with ⟨hne, hold₂⟩ | ⟨hn', _⟩
        · exact absurd (h.wf.oneName n' name i hold₂ hold₁) hne
        · rw [hn, hn']
    · rcases (hsending n i).mp hi with ⟨_, hold₁⟩ | ⟨hn, hold₁⟩
      · rcases (hsending n i').mp hi' with ⟨_, hold₂⟩ | ⟨hn', _⟩
        · exact h.wf.oneFile n i i' hold₁ hold₂
        · exact absurd hn' (hold hold₁)
      · rcases (hsending n i').mp hi' with ⟨_, hold₂⟩ | ⟨_, hold₂⟩
        · exact absurd hn (hold hold₂)
        · exact h.wf.oneFile name i i' hold₁ hold₂
  have hev : Evolves w (w'.set p s) p := by
    refine ⟨hwf, Nat.le_succ _, fun _ he => he, rfl, fun q hq => set_other w' s hq, fun n i hi hlt => ?_⟩
    rcases (hsending n i).mp hi with ⟨_, hi⟩ | ⟨rfl, _⟩
    · exact ⟨hi, fun _ _ => rfl⟩
    · exact absurd hlt (Nat.lt_irrefl _)
  have hundoomed : ∀ q n, ((w'.set p s).stage q).doomed = some n → (w.stage q).doomed = some n := by
    intro q n hq
    refine doomed_set (s := s) (fun n' hn => ?_) q hq
    rw [hdoomed] at hn
    cases hn
  refine h.evolve hev ?_ ?_ ?_ ?_ ?_
  · rw [hself]
    intro n hn
    rw [hmine n hn]
    exact Nat.lt_succ_self _
  · rw [hself, htransfer]
    nofun
  · rw [hself]
    exact htrims
  · intro e _ hsafe
    rcases hsafe with hstored | ⟨i, hi, hline⟩
    · exact .inl hstored
    · rcases hi with hi | ⟨n, hmem, hnone⟩
      · exact .inr ⟨i, .inl hi, hline⟩
      · by_cases hn : n = name
        · subst hn
          refine .inr ⟨i, .inr ⟨w.disk.next, (hsending _ _).mpr (.inr ⟨rfl, hmem⟩), fun q hq => ?_⟩, hline⟩
          exact absurd (h.mine q _ (mine_of_doomed (hundoomed q _ hq))) (Nat.lt_irrefl _)
        · exact .inr ⟨i, .inr ⟨n, (hsending _ _).mpr (.inl ⟨hn, hmem⟩), fun q hq => hnone q (hundoomed q n hq)⟩, hline⟩
  · rw [hself, hevent]
    exact fun e he _ => .inr he

theorem Inv.unlinked {mine : Nat} (h : Inv w) (hmine : s.mine = none)
    (hgiven : (w.stage p).doomed = some mine) (htrims : s.trims = false) (hevent : s.event = (w.stage p).event) :
    Inv ({ w with disk := w.disk.unlink mine }.set p s) := by
  let w' := { w with disk := w.disk.unlink mine }
  have hself : (w'.set p s).stage p = s := set_self w' p s
  have hsending : ∀ n i, (n, i) ∈ (w'.set p s).disk.sending ↔ (n, i) ∈ w.disk.sending ∧ n ≠ mine := by
    intro n i
    change (n, i) ∈ w.disk.sending.filter (fun s => decide (s.1 ≠ mine)) ↔ _
    rw [List.mem_filter, decide_eq_true_eq]
  have hwf : Wf (w'.set p s).disk :=
    ⟨fun n i hi => h.wf.fresh n i ((hsending n i).mp hi).1, h.wf.outbox,
      fun n i hi => h.wf.apart n i ((hsending n i).mp hi).1,
      fun n n' i hi hi' => h.wf.oneName n n' i ((hsending n i).mp hi).1 ((hsending n' i).mp hi').1,
      fun n i i' hi hi' => h.wf.oneFile n i i' ((hsending n i).mp hi).1 ((hsending n i').mp hi').1⟩
  have hev : Evolves w (w'.set p s) p :=
    ⟨hwf, Nat.le_refl _, fun _ he => he, rfl, fun q hq => set_other w' s hq,
      fun n i hi _ => ⟨((hsending n i).mp hi).1, fun _ _ => rfl⟩⟩
  refine h.evolve hev ?_ ?_ ?_ ?_ ?_
  · rw [hself, hmine]
    nofun
  · rw [hself]
    intro n ls hls
    have hnone := mine_of_transfer hls
    rw [hmine] at hnone
    cases hnone
  · rw [hself]
    exact htrims
  · intro e _ hsafe
    rcases hsafe with hstored | ⟨i, hi, hline⟩
    · exact .inl hstored
    · rcases hi with hi | ⟨n, hmem, hnone⟩
      · exact .inr ⟨i, .inl hi, hline⟩
      · refine .inr ⟨i, .inr ⟨n, (hsending n i).mpr ⟨hmem, fun hn => hnone p (hn ▸ hgiven)⟩, fun q hq => ?_⟩, hline⟩
        refine hnone q (doomed_set (s := s) (fun n' hn => ?_) q hq)
        have hmineSome := mine_of_doomed hn
        rw [hmine] at hmineSome
        cases hmineSome
  · rw [hself, hevent]
    exact fun e he _ => .inr he

theorem mem_of_fileOf {d : Disk} {file : Nat} (h : d.fileOf name = some file) : (name, file) ∈ d.sending := by
  unfold Disk.fileOf at h
  obtain ⟨⟨n, i⟩, hget, heq⟩ := Option.map_eq_some_iff.mp h
  obtain ⟨hmem, hname⟩ := Lookup.get_key hget
  cases hname
  cases heq
  exact hmem

theorem covers_text (h : Wf w.disk) {name : Nat} {ls : List Line} (htext : w.disk.text name = some ls) :
    Covers w name ls := by
  intro file hfile e _ hline
  unfold Disk.text at htext
  obtain ⟨file', hfile', heq⟩ := Option.map_eq_some_iff.mp htext
  subst heq
  rw [h.oneFile name file file' hfile (mem_of_fileOf hfile')] at hline
  exact .inr hline

theorem mem_pieces (he : intact e = true) {ls : List Line} (h : .event e ∈ ls) :
    .event e ∈ ls.flatMap Line.pieces := by
  rw [List.mem_flatMap]
  refine ⟨.event e, h, ?_⟩
  rw [Line.pieces, if_pos he]
  exact List.mem_singleton_self _

theorem covers_read (h : Wf w.disk) {name : Nat} {ls : List Line} (hread : w.disk.read name = some ls) :
    Covers w name ls := by
  intro file hfile e he hline
  unfold Disk.read at hread
  obtain ⟨file', hfile', heq⟩ := Option.map_eq_some_iff.mp hread
  subst heq
  rw [h.oneFile name file file' hfile (mem_of_fileOf hfile')] at hline
  exact .inr (mem_pieces he hline)

theorem Covers.drop_corrupt {beat : Bool} (h : Covers w name (.corrupt beat :: ls)) : Covers w name ls := by
  intro file hfile e he hline
  refine (h file hfile e he hline).imp_right fun hmem => ?_
  rcases List.mem_cons.mp hmem with heq | hmem
  · cases heq
  · exact hmem

theorem Covers.drop_stored {x : Executions.Event}
    (h : Covers w name (.event x :: ls)) : Covers (w.save x) name ls := by
  intro file hfile e he hline
  rcases h file hfile e he hline with hstored | hmem
  · exact .inl (List.mem_append_left _ hstored)
  · rcases List.mem_cons.mp hmem with heq | hmem
    · cases heq
      exact .inl (List.mem_append_right _ (List.mem_singleton_self x))
    · exact .inr hmem

theorem Inv.pass (h : Inv w) (hmine : s.mine = none ∨ s.mine = (w.stage p).mine)
    (htransfer : s.transfer = none ∨ s.transfer = (w.stage p).transfer) (htrims : s.trims = false)
    (hdoomed : s.doomed = none ∨ s.doomed = (w.stage p).doomed) (hevent : s.event = (w.stage p).event) :
    Inv (w.set p s) := by
  refine h.turn ?_ ?_ htrims ?_ fun e he _ => .inr (hevent.trans he)
  · intro name hname
    rcases hmine with hnone | hsame
    · rw [hnone] at hname
      cases hname
    · exact hsame ▸ hname
  · intro name ls hls
    rcases htransfer with hnone | hsame
    · rw [hnone] at hls
      cases hls
    · exact h.transfer p name ls (hsame ▸ hls)
  · intro name hname
    rcases hdoomed with hnone | hsame
    · rw [hnone] at hname
      cases hname
    · exact .inl (hsame ▸ hname)

theorem inv_trimFailed {k : After} (h : Inv w) (hk : (w.stage p).event = k.event) : Inv (w.trimFailed p k) := by
  cases k with
  | done => exact h.pass (.inl rfl) (.inl rfl) rfl (.inl rfl) hk.symm
  | adopt e rest mine => exact h.pass (.inl rfl) (.inl rfl) rfl (.inl rfl) hk.symm

theorem inv_trimDone {k : After} (h : Inv w) (hk : w.stage p = .trimRead k) : Inv (w.trimDone p k) := by
  cases k with
  | done => exact h.pass (.inl rfl) (.inl rfl) rfl (.inl rfl) (by rw [hk]; rfl)
  | adopt e rest mine =>
    exact h.pass (.inr (by rw [hk]; rfl)) (.inl rfl) rfl (.inr (by rw [hk]; rfl)) (by rw [hk]; rfl)

theorem inv_proceed {c : Choice} (h : Inv w) (hcareful : Careful w (.go p c)) :
    Inv (w.proceed p c (w.stage p)) := by
  unfold Careful at hcareful
  dsimp only at hcareful
  cases hstage : w.stage p with
  | idle => exact h
  | glob e =>
    unfold World.proceed
    dsimp only
    split
    · exact h.pass (.inl rfl) (.inl rfl) rfl (.inl rfl) (by rw [hstage]; rfl)
    · exact h.pass (.inl rfl) (.inl rfl) rfl (.inl rfl) (by rw [hstage]; rfl)
  | adopt e candidates =>
    cases candidates with
    | nil => exact h.pass (.inl rfl) (.inl rfl) rfl (.inl rfl) (by rw [hstage]; rfl)
    | cons name rest =>
      have hnext : Inv (w.set p (.adopt e rest)) :=
        h.pass (.inl rfl) (.inl rfl) rfl (.inl rfl) (by rw [hstage]; rfl)
      unfold World.proceed
      dsimp only
      split
      · split
        · rename_i mine disk hadopt
          split
          · exact hnext
          · exact h.adopted hadopt (fun n hn => (Option.some.inj hn).symm) rfl rfl rfl (by rw [hstage]; rfl)
        · exact hnext
      · exact hnext
  | adoptRead e rest mine =>
    have hnext : Inv (w.set p (.adopt e rest)) :=
      h.pass (.inl rfl) (.inl rfl) rfl (.inl rfl) (by rw [hstage]; rfl)
    unfold World.proceed
    dsimp only
    split
    · rename_i ls htext
      have hcovers := covers_text h.wf htext
      split
      · exact hnext
      · split
        · rename_i hnil
          subst hnil
          refine h.turn (fun n hn => by rw [hstage]; exact hn) nofun rfl (fun n hn => ?_) fun e' he _ => .inr ?_
          · cases hn
            exact .inr hcovers
          · rw [hstage] at he
            exact he
        · refine h.turn (fun n hn => by rw [hstage]; exact hn) (fun n ls' hls => ?_) rfl nofun fun e' he _ => .inr ?_
          · cases hls
            exact hcovers
          · rw [hstage] at he
            exact he
    · exact hnext
  | adoptOpen e rest mine ls =>
    unfold World.proceed
    dsimp only
    split
    · exact h.pass (.inl rfl) (.inl rfl) rfl (.inl rfl) (by rw [hstage]; rfl)
    · exact h.opened (by rw [hstage]; rfl) (by rw [hstage]; rfl) rfl rfl (by rw [hstage]; rfl)
  | adoptWrite e rest mine ls file =>
    rw [hstage] at hcareful
    unfold World.proceed
    dsimp only
    split
    · exact h.pass (.inl rfl) (.inl rfl) rfl (.inl rfl) (by rw [hstage]; rfl)
    · refine h.appended hcareful (fun n hn => by rw [hstage]; exact hn) rfl rfl (fun n hn => ?_) fun e' he => .inr ?_
      · cases hn
        rw [hstage]
        rfl
      · rw [hstage] at he
        exact he
  | adoptUnlink e rest mine =>
    unfold World.proceed
    dsimp only
    split
    · exact h.pass (.inl rfl) (.inl rfl) rfl (.inl rfl) (by rw [hstage]; rfl)
    · exact h.unlinked rfl (by rw [hstage]; rfl) rfl (by rw [hstage]; rfl)
  | claim e =>
    unfold World.proceed
    dsimp only
    split
    · rename_i mine disk hclaim
      split
      · exact h.pass (.inl rfl) (.inl rfl) rfl (.inl rfl) (by rw [hstage]; rfl)
      · exact h.claimed hclaim (fun n hn => (Option.some.inj hn).symm) rfl rfl rfl (by rw [hstage]; rfl)
    · exact h.pass (.inl rfl) (.inl rfl) rfl (.inl rfl) (by rw [hstage]; rfl)
  | claimedRead e mine =>
    rw [hstage] at hcareful
    obtain ⟨hfault, hsome⟩ := hcareful
    obtain ⟨ls, hread⟩ := Option.isSome_iff_exists.mp hsome
    unfold World.proceed
    dsimp only
    simp only [hread, hfault, Bool.false_eq_true, if_false]
    refine h.turn (fun n hn => by rw [hstage]; exact hn) (fun n ls' hls => ?_) rfl nofun fun e' he _ => .inr ?_
    · cases hls
      exact covers_read h.wf hread
    · rw [hstage] at he
      exact he
  | send e mine ls =>
    have hcovers : Covers w mine ls := h.transfer p mine ls (by rw [hstage]; rfl)
    cases ls with
    | nil =>
      refine h.turn (fun n hn => by rw [hstage]; exact hn) nofun rfl (fun n hn => ?_) fun e' he _ => .inr ?_
      · cases hn
        exact .inr hcovers
      · rw [hstage] at he
        exact he
    | cons l ls =>
      cases l with
      | corrupt beat =>
        refine h.turn (fun n hn => by rw [hstage]; exact hn) (fun n ls' hls => ?_) rfl nofun fun e' he _ => .inr ?_
        · cases hls
          exact hcovers.drop_corrupt
        · rw [hstage] at he
          exact he
      | event x =>
        unfold World.proceed
        dsimp only
        split
        · have hstage' : (w.save x).stage p = .send e mine (.event x :: ls) := hstage
          refine (h.save x).turn (fun n hn => by rw [hstage']; exact hn) (fun n ls' hls => ?_) rfl nofun
            fun e' he _ => .inr ?_
          · cases hls
            exact hcovers.drop_stored
          · rw [hstage'] at he
            exact he
        · exact h.pass (.inr (by rw [hstage]; rfl)) (.inr (by rw [hstage]; rfl)) rfl (.inl rfl) (by rw [hstage]; rfl)
        · have hstage' : (w.save x).stage p = .send e mine (.event x :: ls) := hstage
          exact (h.save x).pass (.inr (by rw [hstage']; rfl)) (.inr (by rw [hstage']; rfl)) rfl (.inl rfl)
            (by rw [hstage']; rfl)
  | restOpen e mine rest =>
    rw [hstage] at hcareful
    unfold World.proceed
    dsimp only
    rw [hcareful]
    exact h.opened (by rw [hstage]; rfl) (by rw [hstage]; rfl) rfl rfl (by rw [hstage]; rfl)
  | restWrite e mine rest file =>
    rw [hstage] at hcareful
    unfold World.proceed
    dsimp only
    rw [hcareful.1]
    refine h.appended hcareful.2 (fun n hn => by rw [hstage]; exact hn) rfl rfl (fun n hn => ?_) fun e' he => .inr ?_
    · cases hn
      rw [hstage]
      rfl
    · rw [hstage] at he
      exact he
  | claimedUnlink e mine reachable =>
    unfold World.proceed
    dsimp only
    have hevent : (if reachable then Stage.write e else .enqueueOpen e).event = (w.stage p).event := by
      rw [hstage]
      cases reachable <;> rfl
    have hmine : (if reachable then Stage.write e else .enqueueOpen e).mine = none := by cases reachable <;> rfl
    have htransfer : (if reachable then Stage.write e else .enqueueOpen e).transfer = none := by cases reachable <;> rfl
    have htrims : (if reachable then Stage.write e else .enqueueOpen e).trims = false := by cases reachable <;> rfl
    have hdoomed : (if reachable then Stage.write e else .enqueueOpen e).doomed = none := by cases reachable <;> rfl
    split
    · exact h.pass (.inl hmine) (.inl htransfer) htrims (.inl hdoomed) hevent
    · exact h.unlinked hmine (by rw [hstage]; rfl) htrims hevent
  | write e =>
    unfold World.proceed
    dsimp only
    have hstage' : (w.save e).stage p = .write e := hstage
    split
    · refine (h.save e).turn nofun nofun rfl nofun fun e' he _ => .inl ?_
      rw [hstage'] at he
      cases he
      exact secure_save e
    · exact h.pass (.inl rfl) (.inl rfl) rfl (.inl rfl) (by rw [hstage]; rfl)
    · exact (h.save e).pass (.inl rfl) (.inl rfl) rfl (.inl rfl) (by rw [hstage']; rfl)
  | enqueueOpen e =>
    rw [hstage] at hcareful
    unfold World.proceed
    dsimp only
    rw [hcareful]
    exact h.opened (by rw [hstage]; rfl) (by rw [hstage]; rfl) rfl rfl (by rw [hstage]; rfl)
  | enqueueWrite e file =>
    rw [hstage] at hcareful
    unfold World.proceed
    dsimp only
    rw [hcareful.1]
    refine h.appended hcareful.2 nofun rfl rfl nofun fun e' he => .inl ?_
    rw [hstage] at he
    cases he
    exact List.mem_singleton_self _
  | trimRead k =>
    rw [hstage] at hcareful
    have hevent : (w.stage p).event = k.event := by rw [hstage]; rfl
    unfold World.proceed
    dsimp only
    split
    · rename_i file houtbox
      split
      · exact inv_trimFailed h hevent
      · rw [if_pos (hcareful file houtbox)]
        exact inv_trimDone h hstage
    · exact inv_trimFailed h hevent
  | trimOpen k kept =>
    have htrims := h.trims p
    rw [hstage] at htrims
    cases htrims
  | trimWrite k kept file =>
    have htrims := h.trims p
    rw [hstage] at htrims
    cases htrims

theorem Inv.publish (h : Inv w) (he : intact e = true) (hidle : w.stage p = .idle) :
    Inv ({ w with handed := w.handed ++ [e] }.set p (.glob e)) := by
  have hturn : Inv (w.set p (.glob e)) :=
    h.turn nofun nofun rfl nofun fun e' he' _ => by rw [hidle] at he'; cases he'
  refine ⟨hturn.wf, hturn.mine, hturn.transfer, hturn.trims, fun e' he' => ?_, fun e' he' => ?_⟩
  · rcases List.mem_append.mp he' with he' | he'
    · exact h.whole e' he'
    · rw [List.mem_singleton.mp he']
      exact he
  · rcases List.mem_append.mp he' with he' | he'
    · exact hturn.kept e' he'
    · rw [List.mem_singleton.mp he']
      exact .inr ⟨p, by rw [set_self]; rfl⟩

theorem secure_idle (h : Secure w e) : Secure (w.set p .idle) e := by
  rcases h with hstored | ⟨file, hlive, hline⟩
  · exact .inl hstored
  · have hundoomed : ∀ q name, ((w.set p .idle).stage q).doomed = some name → (w.stage q).doomed = some name :=
      fun q name hq => doomed_set (s := .idle) nofun q hq
    exact .inr ⟨file, @live_of_doomed w (w.set p .idle) rfl rfl hundoomed file hlive, hline⟩

theorem inv_step (a : Act) (h : Inv w) (hcareful : Careful w a) : Inv (step w a) := by
  cases a with
  | publish p e =>
    unfold step
    dsimp only
    split
    · rename_i hidle
      exact h.publish hcareful hidle
    · exact h
  | go p c => exact inv_proceed h hcareful
  | crash p =>
    exact h.turn nofun nofun rfl nofun fun e he _ => .inl (secure_idle (hcareful e he))

def Line.beatRun : Line → Option String
  | .event e => if e.causeCode = Kind.beat.value then some e.runId else none
  | .corrupt _ => none

def beatRuns (ls : List Line) : List String := ls.filterMap Line.beatRun

theorem any_isBeatOf {runId : String} : ls.any (Line.isBeatOf runId) = true ↔ runId ∈ beatRuns ls := by
  rw [List.any_eq_true]
  unfold beatRuns
  rw [List.mem_filterMap]
  refine exists_congr fun l => and_congr_right fun _ => ?_
  cases l with
  | corrupt beat => simp [Line.isBeatOf, Line.beatRun]
  | event e =>
    simp only [Line.isBeatOf, Line.beatRun, Bool.and_eq_true, decide_eq_true_eq]
    split
    · rename_i hbeat
      simp [hbeat]
    · rename_i hbeat
      simp [hbeat]

theorem length_keptLines (ls : List Line) :
    (keptLines ls).length = ls.countP (fun l => !l.isBeat) + (beatRuns ls).dedup.length := by
  induction ls with
  | nil => rfl
  | cons l later ih =>
    unfold keptLines
    cases l with
    | corrupt beat =>
      have hruns : beatRuns (.corrupt beat :: later) = beatRuns later := rfl
      have hstays : Line.stays later (.corrupt beat) = !(Line.corrupt beat).isBeat := rfl
      rw [hruns, hstays, List.countP_cons]
      split
      · rw [List.length_cons]
        omega
      · exact ih
    | event e =>
      rw [List.countP_cons]
      by_cases hbeat : e.causeCode = Kind.beat.value
      · have hruns : beatRuns (.event e :: later) = e.runId :: beatRuns later := by
          unfold beatRuns
          rw [List.filterMap_cons, Line.beatRun, if_pos hbeat]
        have hnone : (!Line.isBeat (.event e)) = false := by simp [Line.isBeat, hbeat]
        rw [hruns, hnone]
        by_cases hmem : e.runId ∈ beatRuns later
        · have hstays : Line.stays later (.event e) = false := by
            simp [Line.stays, hbeat, any_isBeatOf.mpr hmem]
          rw [List.dedup_cons_of_mem hmem, hstays]
          simp only [Bool.false_eq_true, if_false]
          omega
        · have hstays : Line.stays later (.event e) = true := by
            have hany : later.any (Line.isBeatOf e.runId) = false := by
              rw [← Bool.not_eq_true, any_isBeatOf]
              exact hmem
            simp [Line.stays, hany]
          rw [List.dedup_cons_of_notMem hmem, hstays]
          simp only [Bool.false_eq_true, if_false, if_true, List.length_cons]
          omega
      · have hruns : beatRuns (.event e :: later) = beatRuns later := by
          unfold beatRuns
          rw [List.filterMap_cons, Line.beatRun, if_neg hbeat]
        have hstays : Line.stays later (.event e) = true := by simp [Line.stays, hbeat]
        have hsome : (!Line.isBeat (.event e)) = true := by simp [Line.isBeat, hbeat]
        rw [hruns, hstays, hsome]
        simp only [if_true, List.length_cons]
        omega

theorem mem_keptLines (he : e.causeCode ≠ Kind.beat.value) {ls : List Line} (h : .event e ∈ ls) :
    .event e ∈ keptLines ls := by
  induction ls with
  | nil => cases h
  | cons l later ih =>
    unfold keptLines
    rcases List.mem_cons.mp h with rfl | h
    · have hstays : Line.stays later (.event e) = true := by simp [Line.stays, he]
      rw [if_pos hstays]
      exact List.mem_cons_self
    · split
      · exact List.mem_cons_of_mem _ (ih h)
      · exact ih h

theorem mem_trimmed (hroom : ls.countP (fun l => !l.isBeat) + (beatRuns ls).dedup.length ≤ outboxMaxLines)
    {e : Executions.Event} (he : e.causeCode ≠ Kind.beat.value) (h : .event e ∈ ls) : .event e ∈ trimmed ls := by
  rw [← length_keptLines] at hroom
  unfold trimmed List.rtake
  rw [Nat.sub_eq_zero_of_le hroom, List.drop_zero]
  exact mem_keptLines he h

/-- Stored, in the outbox or in a `.sending` file, or in the hands of a process that is still at it. -/
def Safe (w : World) (e : Executions.Event) : Prop :=
  e ∈ w.store ∨ .event e ∈ w.disk.lines ∨ ∃ p, (w.stage p).event = some e

/-- All processes are idle, and what was handed over is whole and stored or in a file. -/
structure Initial (w : World) : Prop where
  wf : Wf w.disk
  idle : ∀ p, w.stage p = .idle
  whole : ∀ e ∈ w.handed, intact e = true
  kept : ∀ e ∈ w.handed, e ∈ w.store ∨ .event e ∈ w.disk.lines

theorem mem_lines {d : Disk} {l : Line} :
    l ∈ d.lines ↔ ∃ file, (d.outbox = some file ∨ ∃ name, (name, file) ∈ d.sending) ∧ l ∈ d.content file := by
  unfold Disk.lines
  rw [List.mem_flatMap]
  refine exists_congr fun file => and_congr_left fun _ => ?_
  rw [List.mem_append, Option.mem_toList, List.mem_map]
  refine or_congr Iff.rfl ⟨?_, ?_⟩
  · rintro ⟨⟨name, i⟩, hmem, rfl⟩
    exact ⟨name, hmem⟩
  · rintro ⟨name, hmem⟩
    exact ⟨(name, file), hmem, rfl⟩

theorem Initial.inv (h : Initial w) : Inv w where
  wf := h.wf
  mine := fun p name hp => by rw [h.idle p] at hp; cases hp
  transfer := fun p name ls hp => by rw [h.idle p] at hp; cases hp
  trims := fun p => by rw [h.idle p]; rfl
  whole := h.whole
  kept := by
    intro e he
    refine .inl ((h.kept e he).imp_right fun hline => ?_)
    obtain ⟨file, hnamed, hline⟩ := mem_lines.mp hline
    refine ⟨file, hnamed.imp_right ?_, hline⟩
    rintro ⟨name, hmem⟩
    exact ⟨name, hmem, fun q hq => by rw [h.idle q] at hq; cases hq⟩

theorem Inv.safe (h : Inv w) : ∀ e ∈ w.handed, Safe w e := by
  intro e he
  rcases h.kept e he with (hstored | ⟨file, hlive, hline⟩) | hheld
  · exact .inl hstored
  · refine .inr (.inl (mem_lines.mpr ⟨file, hlive.imp_right ?_, hline⟩))
    rintro ⟨name, hmem, _⟩
    exact ⟨name, hmem⟩
  · exact .inr (.inr hheld)

/-- When every step is careful, no event is ever lost; and no start or finish is trimmed away as long as what is not a
heartbeat, and the newest heartbeats, have room. -/
theorem outbox_keeps (w : World) (hinitial : Initial w) (acts : List Act)
    (hcareful : ∀ m ∈ moves step w acts, Careful m.pre m.act) :
    (∀ e ∈ (run step w acts).handed, Safe (run step w acts) e) ∧
    ∀ ls : List Line, ls.countP (fun l => !l.isBeat) + (beatRuns ls).dedup.length ≤ outboxMaxLines →
      ∀ e : Executions.Event, e.causeCode ≠ Kind.beat.value → .event e ∈ ls → .event e ∈ trimmed ls :=
  ⟨(run_invariant_of (fun _ a h hc => inv_step a h hc) hinitial.inv hcareful).safe,
    fun _ hroom _ he hmem => mem_trimmed hroom he hmem⟩

/-- No crash and no `OSError`. -/
def Act.smooth : Act → Bool
  | .publish _ _ => true
  | .go _ c => !c.fault
  | .crash _ => false

def startEvent (runId : String) : Executions.Event where
  runId := runId
  ticketId := "USR-1"
  projectId := "darkfac"
  title := ""
  phase := execPhase
  status := "running"
  harness := none
  worker := "host"
  causeCode := "start"
  message := ""
  time := ⟨0, some 0⟩

/-- One process that cannot reach the store, up to its open handle. -/
def queuing : List Act :=
  [.publish 0 (startEvent "exec-1"), .go 0 {}, .go 0 {}, .go 0 {}, .go 0 { outcome := .failed }, .go 0 {}]

/-- Another one that flushes meanwhile; then the first one writes its line. -/
def crossing : List Act :=
  queuing ++ [.publish 1 (startEvent "exec-2"), .go 1 {}, .go 1 {}, .go 1 {}, .go 1 {}, .go 1 {}, .go 1 {}, .go 1 {},
    .go 0 {}, .go 0 {}]

theorem initial_empty : Initial {} :=
  ⟨⟨nofun, nofun, nofun, nofun, nofun⟩, fun _ => rfl, nofun, nofun⟩

/-- Nobody crashes, no file operation fails, two events are all there ever is; and the first one is nowhere. -/
theorem append_lost :
    crossing.all Act.smooth = true ∧
    startEvent "exec-1" ∈ (run step {} crossing).handed ∧ intact (startEvent "exec-1") = true ∧
    ¬ Safe (run step {} crossing) (startEvent "exec-1") := by
  refine ⟨by decide, by decide +kernel, by decide +kernel, ?_⟩
  rintro (hstored | hline | ⟨p, hp⟩)
  · revert hstored
    decide +kernel
  · revert hline
    decide +kernel
  · have hidle : (run step {} crossing).stage p = .idle := by
      rcases p with _ | _ | p <;> rfl
    rw [hidle] at hp
    cases hp

theorem outbox_keeps_queued :
    startEvent "exec-1" ∈ (run step {} (queuing ++ [.go 0 {}, .go 0 {}])).handed ∧
    Safe (run step {} (queuing ++ [.go 0 {}, .go 0 {}])) (startEvent "exec-1") := by
  have hhanded : startEvent "exec-1" ∈ (run step {} (queuing ++ [.go 0 {}, .go 0 {}])).handed := by decide +kernel
  refine ⟨hhanded, (outbox_keeps {} initial_empty _ ?_).1 _ hhanded⟩
  unfold queuing
  simp only [List.cons_append, List.nil_append, moves, List.forall_mem_cons, List.not_mem_nil, false_implies, implies_true]
  refine ⟨(by decide +kernel : intact _ = true), trivial, trivial, trivial, trivial, rfl, ⟨rfl, .inl rfl⟩, ?_, trivial⟩
  intro file hfile
  cases hfile
  decide +kernel

end Outbox
end Workflow
end DarkFactory
