import DarkFactory.Demands.Tickets
import DarkFactory.Lib.Paragraphs
import DarkFactory.OwnerActions.Models
import DarkFactory.OwnerActions.Secrets

/-!
# DarkFactory.OwnerActions.Propagate

The answer of the owner goes to the tickets that a decision blocks, `core/owner_actions/propagate.py`.

* `annotate` — the tag and the paragraph of one decision on one ticket.
* `annotateBlockedTickets` — one call: all tickets that the decision blocks.
* `Clear` — the search for a marker takes the paragraph of its decision and nothing else.
-/

namespace DarkFactory
namespace OwnerActions
namespace Propagate

open Text Demands Secrets

def tagPrefix : String := "owner-decision:"

def tagHead (actionId : String) : String := tagPrefix ++ actionId ++ "="

def decisionTag (action : OwnerAction) : String := tagHead action.id ++ action.option.getD ""

def marker (actionId : String) : String := "[Decisao do owner " ++ actionId ++ "]"

def decisionParagraph (al : Alphabet) (action : OwnerAction) : String :=
  match action.answer with
  | none => ""
  | some answer =>
    let label := ((action.options.find? fun o => decide (o.id = answer.optionId)).map DecisionOption.label).getD
      answer.optionId
    let note := if answer.note ≠ "" then " Nota do owner: " ++ answer.note else ""
    redact al (marker action.id ++ " " ++ action.title ++ " -> opcao " ++ answer.optionId ++ " (" ++ label ++
      "), em " ++ answer.answeredAt ++ "." ++ note)

/-- `\n*marker[^\n]*` -/
def ownMarker (actionId : String) : Redaction.Pattern := fun _ cs =>
  let rest := cs.dropWhile fun c => decide (c = '\n')
  if (marker actionId).toList.isPrefixOf rest then
    cs.length - ((rest.drop (marker actionId).toList.length).dropWhile fun c => decide (c ≠ '\n')).length
  else 0

/-- `own_marker.sub("", statement).rstrip()`, and the paragraph after it. -/
def annotateStatement (actionId paragraph statement : String) : String :=
  let kept := (Redaction.sub id [] (ownMarker actionId) 0 none statement.toList).rdropWhile isSpace
  strip (String.ofList kept ++ "\n\n" ++ paragraph)

section

variable {τ : Type}

def annotate (al : Alphabet) (action : OwnerAction) (now : Nat) (ticket : UserTicket τ) : UserTicket τ :=
  { ticket with
    tags := (ticket.tags.filter fun t => !startsWith t (tagHead action.id)) ++ [decisionTag action]
    problemStatement := annotateStatement action.id (decisionParagraph al action) ticket.problemStatement
    updatedAt := now }

/-- `ensure_user_tag`, which a ticket goes through when it is read. -/
def ensureUserTag (tags : List String) : List String :=
  let cleaned := (tags.map strip).filter fun t => decide (t ≠ "")
  if "user-demand" ∈ cleaned then cleaned else "user-demand" :: cleaned

/-- Anything with `get_ticket` and `save_ticket`. -/
structure TicketStore (τ : Type) where
  rows : String → Option (UserTicket τ)
  keyed : ∀ {id ticket}, rows id = some ticket → ticket.id = id

def TicketStore.getTicket (s : TicketStore τ) (ticketId : String) : Option (UserTicket τ) :=
  (s.rows ticketId).map fun ticket => { ticket with tags := ensureUserTag ticket.tags }

def TicketStore.saveTicket (s : TicketStore τ) (ticket : UserTicket τ) : TicketStore τ where
  rows := fun id => if id = ticket.id then some ticket else s.rows id
  keyed := by
    intro id t h
    split at h
    · rename_i hid
      rw [← Option.some.inj h, hid]
    · exact s.keyed h

/-- One call. A validated action has an id of its pattern and blocks each ticket once. For some tickets the store
raises. -/
structure Call where
  action : OwnerAction
  now : Nat
  raises : String → Bool
  id_ok : isOwnerActionId action.id = true
  blocks_nodup : action.blocks.Nodup

def annotateTicket (al : Alphabet) (call : Call) (acc : List String × TicketStore τ) (ticketId : String) :
    List String × TicketStore τ :=
  match if call.raises ticketId then none else acc.2.getTicket ticketId with
  | none => acc
  | some ticket =>
    if ticket.status = .completed then acc
    else (acc.1 ++ [ticketId], acc.2.saveTicket (annotate al call.action call.now ticket))

def annotateBlockedTickets (al : Alphabet) (call : Call) (s : TicketStore τ) : List String × TicketStore τ :=
  if call.action.kind ≠ .decision ∨ call.action.answer = none then ([], s)
  else call.action.blocks.foldl (annotateTicket al call) ([], s)

def run (al : Alphabet) (calls : List Call) (s : TicketStore τ) : TicketStore τ :=
  calls.foldl (fun s call => (annotateBlockedTickets al call s).2) s

def Call.touches (call : Call) (ticket : UserTicket τ) : Bool :=
  decide (call.action.kind = .decision) && call.action.answer.isSome && call.action.blocks.contains ticket.id &&
    !call.raises ticket.id && !decide (ticket.status = .completed)

def standing (calls : List Call) : List Call :=
  calls.foldl (fun notes call => notes.filter (fun note => decide (note.action.id ≠ call.action.id)) ++ [call]) []

def paragraph (al : Alphabet) (call : Call) : List Char := stripList (decisionParagraph al call.action).toList

def ownText (statement : String) : List (List Char) := Passages.solids isSpace [statement.toList]

/-- After calls that write on a ticket it shows its own text, and the tag and the paragraph of the last answer to each
decision. -/
structure Recorded (al : Alphabet) (before after : UserTicket τ) (calls : List Call) : Prop where
  tags : after.tags = (before.tags.filter fun t => calls.all fun call => !startsWith t (tagHead call.action.id)) ++
      (standing calls).map fun call => strip (decisionTag call.action)
  statement : after.problemStatement.toList = if calls = [] then before.problemStatement.toList
    else Paragraphs.layout '\n' (ownText before.problemStatement ++ (standing calls).map (paragraph al))

def AllRecorded (al : Alphabet) (s : TicketStore τ) (calls : List Call) : Prop :=
  ∀ ticketId, match s.getTicket ticketId with
    | none => (run al calls s).getTicket ticketId = none
    | some before => ∃ after, (run al calls s).getTicket ticketId = some after ∧
      Recorded al before after (calls.filter fun call => call.touches before)

end

variable {actionId : String}

theorem ownerActionId_chars (h : isOwnerActionId actionId = true) :
    ∀ c ∈ dropNewline actionId.toList, c ≠ '\n' ∧ c ≠ '=' := by
  have hplain : ∀ c : Char, isRefChar c = true → c ≠ '\n' ∧ c ≠ '=' := by
    intro c hc
    constructor <;> rintro rfl <;> exact absurd hc (by decide)
  have hlead : ∀ c ∈ "OA-".toList, c ≠ '\n' ∧ c ≠ '=' := by simp
  intro c hc
  unfold isOwnerActionId at h
  split at h
  · rename_i c' cs hafter
    rw [Bool.and_eq_true, Bool.and_eq_true] at h
    rw [afterList_some hafter] at hc
    rcases List.mem_append.mp hc with hc | hc
    · exact hlead c hc
    · rcases List.mem_cons.mp hc with rfl | hc
      · refine hplain c ?_
        rw [isRefChar, h.1.1]
        rfl
      · exact hplain c (List.all_eq_true.mp h.2 c hc)
  · cases h

theorem dropNewline_split (cs : List Char) : cs = dropNewline cs ∨ cs = dropNewline cs ++ ['\n'] := by
  unfold dropNewline
  split
  · rename_i hlast
    exact .inr (List.dropLast_append_getLast? _ hlast).symm
  · exact .inl rfl

theorem ownerActionId_no_equals (h : isOwnerActionId actionId = true) : '=' ∉ actionId.toList := by
  intro hmem
  rcases dropNewline_split actionId.toList with heq | heq
  · rw [heq] at hmem
    exact (ownerActionId_chars h _ hmem).2 rfl
  · rw [heq] at hmem
    rcases List.mem_append.mp hmem with hmem | hmem
    · exact (ownerActionId_chars h _ hmem).2 rfl
    · exact absurd hmem (by decide)

theorem marker_toList (actionId : String) :
    (marker actionId).toList = "[Decisao do owner ".toList ++ actionId.toList ++ [']'] := by
  have hclose : "]".toList = [']'] := rfl
  exact (String.toList_append ..).trans (congrArg₂ (· ++ ·) (String.toList_append ..) hclose)

theorem marker_unbroken (h : isOwnerActionId actionId = true) : ¬ ['\n', '\n'] <:+: (marker actionId).toList := by
  intro hin
  have hcount := hin.sublist.count_le '\n'
  have hcore : List.count '\n' (dropNewline actionId.toList) = 0 :=
    List.count_eq_zero.mpr fun hmem => (ownerActionId_chars h '\n' hmem).1 rfl
  have hid : List.count '\n' actionId.toList ≤ 1 := by
    rcases dropNewline_split actionId.toList with heq | heq
    · rw [heq, hcore]
      exact Nat.zero_le 1
    · rw [heq, List.count_append, hcore]
      exact Nat.le_refl 1
  rw [marker_toList, List.count_append, List.count_append] at hcount
  have hopen : List.count '\n' "[Decisao do owner ".toList = 0 := by decide
  have hclose : List.count '\n' [']'] = 0 := by decide
  have htwo : List.count '\n' ['\n', '\n'] = 2 := by decide
  omega

def Call.marker (call : Call) : Paragraphs.Marker '\n' where
  text := (Propagate.marker call.action.id).toList
  ne := by
    rw [marker_toList]
    simp
  last := by
    rw [marker_toList, List.getLast?_concat]
    decide
  unbroken := marker_unbroken call.id_ok

theorem Call.marker_solid (call : Call) : Passages.Solid isSpace call.marker.text := by
  have htext : call.marker.text = "[Decisao do owner ".toList ++ call.action.id.toList ++ [']'] := marker_toList _
  rw [htext]
  refine Paragraphs.solid_of_ends ⟨'[', rfl, by decide⟩ ⟨']', List.getLast?_concat, by decide⟩

theorem sub_ownMarker (call : Call) (skip : Nat) (before : Option Char) (cs : List Char) :
    Redaction.sub id [] (ownMarker call.action.id) skip before cs = call.marker.cut (cs.drop skip) := by
  induction cs generalizing skip before with
  | nil =>
    rw [List.drop_nil, call.marker.cut_nil]
    cases skip <;> rfl
  | cons c cs ih =>
    cases skip with
    | succ skip =>
      rw [Redaction.sub, List.drop_succ_cons]
      exact ih skip _
    | zero =>
      rw [Redaction.sub, List.map_id, List.drop_zero]
      by_cases hnext : call.marker.isNext (c :: cs)
      · have hlength := call.marker.rest_length hnext
        have hvalue : ownMarker call.action.id before (c :: cs) =
            (c :: cs).length - (call.marker.rest (c :: cs)).length :=
          if_pos (List.isPrefixOf_iff_prefix.mpr hnext)
        rw [call.marker.cut_isNext hnext, List.suffix_iff_eq_drop.mp (call.marker.rest_suffix (c :: cs)), ← hvalue]
        split
        · rename_i hzero
          omega
        · rename_i n hn
          rw [hn, List.nil_append, List.drop_succ_cons]
          exact ih n _
      · have hvalue : ownMarker call.action.id before (c :: cs) = 0 :=
          if_neg fun h => hnext (List.isPrefixOf_iff_prefix.mp h)
        rw [hvalue, call.marker.cut_cons hnext]
        exact congrArg (c :: ·) (ih 0 _)

theorem decisionParagraph_head (al : Alphabet) {action : OwnerAction} (h : action.answer.isSome = true) :
    ∃ c, (decisionParagraph al action).toList.head? = some c ∧ isSpace c = false := by
  refine ⟨'[', ?_, by decide⟩
  unfold decisionParagraph
  cases hanswer : action.answer with
  | none =>
    rw [hanswer] at h
    cases h
  | some answer =>
    simp only [redact, String.toList_ofList, String.toList_append, marker_toList, List.append_assoc]
    obtain ⟨cs', hcs'⟩ := redactList_bracket al _
    rw [show "[Decisao do owner ".toList = '[' :: "Decisao do owner ".toList from rfl, List.cons_append, hcs',
      List.head?_cons]

theorem annotateStatement_toList (al : Alphabet) (call : Call) (h : call.action.answer.isSome = true)
    (statement : String) :
    (annotateStatement call.action.id (decisionParagraph al call.action) statement).toList = Paragraphs.layout '\n'
        (Passages.solids isSpace [call.marker.cut statement.toList] ++ [paragraph al call]) := by
  have hbreaks : "\n\n".toList = ['\n', '\n'] := rfl
  rw [annotateStatement, sub_ownMarker, List.drop_zero, strip_toList, String.toList_append, String.toList_append,
    String.toList_ofList, hbreaks, List.append_assoc]
  exact Paragraphs.trim_write (by decide) (decisionParagraph_head al h) _

theorem standing_concat (past : List Call) (call : Call) :
    standing (past ++ [call]) =
      (standing past).filter (fun note => decide (note.action.id ≠ call.action.id)) ++ [call] := by
  rw [standing, List.foldl_append]
  rfl

theorem mem_standing {calls : List Call} {note : Call} (h : note ∈ standing calls) : note ∈ calls := by
  induction calls using List.reverseRecOn with
  | nil => cases h
  | append_singleton past call ih =>
    rw [standing_concat] at h
    rcases List.mem_append.mp h with h | h
    · exact List.mem_append_left _ (ih (List.mem_of_mem_filter h))
    · exact List.mem_append_right _ h

theorem standing_nodup (calls : List Call) : ((standing calls).map fun note => note.action.id).Nodup := by
  induction calls using List.reverseRecOn with
  | nil => exact List.nodup_nil
  | append_singleton past call ih =>
    rw [standing_concat, List.map_append, List.map_singleton]
    refine List.nodup_append.mpr ⟨(List.filter_sublist.map _).nodup ih, List.nodup_singleton _, ?_⟩
    rintro id hid id' hid' rfl
    obtain ⟨note, hnote, rfl⟩ := List.mem_map.mp hid
    exact of_decide_eq_true (List.mem_filter.mp hnote).2 (List.mem_singleton.mp hid')

theorem standing_split {calls pre post : List Call} {note : Call} (h : standing calls = pre ++ note :: post) :
    (standing calls).filter (fun other => decide (other.action.id ≠ note.action.id)) = pre ++ post := by
  have hnodup := standing_nodup calls
  rw [h, List.map_append, List.map_cons, List.nodup_append] at hnodup
  obtain ⟨-, hpost, hapart⟩ := hnodup
  have hpre : ∀ other ∈ pre, decide (other.action.id ≠ note.action.id) = true := fun other hother =>
    decide_eq_true (hapart _ (List.mem_map_of_mem hother) _ List.mem_cons_self)
  have hpost' : ∀ other ∈ post, decide (other.action.id ≠ note.action.id) = true := fun other hother =>
    decide_eq_true fun heq => (List.nodup_cons.mp hpost).1 (heq ▸ List.mem_map_of_mem hother)
  rw [h, List.filter_append, List.filter_cons_of_neg (by simp), List.filter_eq_self.mpr hpre,
    List.filter_eq_self.mpr hpost']

theorem paragraph_solid (al : Alphabet) {call : Call} (h : call.action.answer.isSome = true) :
    Passages.Solid isSpace (paragraph al call) := by
  refine Paragraphs.solid_trim fun hnil => ?_
  obtain ⟨c, hc, hblank⟩ := decisionParagraph_head al h
  rw [(Passages.trim_eq_nil isSpace).mp hnil c (List.mem_of_mem_head? hc)] at hblank
  cases hblank

/-- The search for the marker of the call takes nothing of the text of the ticket or of the paragraphs of other
decisions, and of the paragraph that the call replaces it leaves nothing but blanks. -/
structure ClearFor (al : Alphabet) (statement : String) (notes : List Call) (call : Call) : Prop where
  own : contains (marker call.action.id) statement = false
  others : ∀ note ∈ notes, note.action.id ≠ call.action.id → ¬ call.marker.text <:+: paragraph al note
  replaced : ∀ pre note post, notes = pre ++ note :: post → note.action.id = call.action.id →
    Paragraphs.Gone isSpace call.marker (ownText statement ++ pre.map (paragraph al)) (paragraph al note)
      (post.map (paragraph al))

theorem absent_ownText {call : Call} {statement : String} :
    Paragraphs.Absent call.marker (ownText statement) ↔ contains (marker call.action.id) statement = false := by
  rw [contains_eq_false]
  constructor
  · intro habsent hin
    have hsolid : ∀ l ∈ [call.marker.text], Passages.Solid isSpace l := by
      intro l hl
      rw [List.mem_singleton.mp hl]
      exact call.marker_solid
    have htrim : call.marker.text <:+: Passages.trim isSpace statement.toList := by
      obtain ⟨a, b, hab, -⟩ := (Passages.holds_of_infix hin).trim hsolid
      exact ⟨a, b, hab.symm⟩
    refine habsent _ ?_ htrim
    rw [ownText, Paragraphs.solids_singleton, if_neg]
    · exact List.mem_singleton_self _
    · intro hnil
      rw [hnil] at htrim
      exact call.marker.ne (List.eq_nil_of_infix_nil htrim)
  · intro hout part hpart hin
    obtain ⟨hmem, -⟩ := List.mem_filter.mp hpart
    rw [List.map_singleton, List.mem_singleton] at hmem
    rw [hmem] at hin
    exact hout (hin.trans (Passages.trim_isInfix isSpace _))

section

variable {al : Alphabet} {statement : String} {past : List Call} {call : Call}

def shown (al : Alphabet) (statement : String) (calls : List Call) : List Char :=
  if calls = [] then statement.toList
  else Paragraphs.layout '\n' (ownText statement ++ (standing calls).map (paragraph al))

def kept (al : Alphabet) (statement : String) (past : List Call) (call : Call) : List (List Char) :=
  ownText statement ++
    ((standing past).filter fun note => decide (note.action.id ≠ call.action.id)).map (paragraph al)

theorem parts_solid (al : Alphabet) (statement : String) (h : ∀ call ∈ past, call.action.answer.isSome = true) :
    ∀ part ∈ ownText statement ++ (standing past).map (paragraph al), Passages.Solid isSpace part := by
  intro part hpart
  rcases List.mem_append.mp hpart with hpart | hpart
  · exact Passages.solid_of_mem part hpart
  · obtain ⟨note, hnote, rfl⟩ := List.mem_map.mp hpart
    exact paragraph_solid al (h note (mem_standing hnote))

theorem absent_kept : Paragraphs.Absent call.marker (kept al statement past call) ↔
    contains (marker call.action.id) statement = false ∧
      ∀ note ∈ standing past, note.action.id ≠ call.action.id → ¬ call.marker.text <:+: paragraph al note := by
  rw [← absent_ownText]
  constructor
  · intro h
    refine ⟨fun part hpart => h part (List.mem_append_left _ hpart), fun note hnote hother => ?_⟩
    refine h _ (List.mem_append_right _ (List.mem_map_of_mem ?_))
    exact List.mem_filter.mpr ⟨hnote, decide_eq_true hother⟩
  · rintro ⟨hown, hothers⟩ part hpart
    rcases List.mem_append.mp hpart with hpart | hpart
    · exact hown part hpart
    · obtain ⟨note, hnote, rfl⟩ := List.mem_map.mp hpart
      obtain ⟨hnote, hother⟩ := List.mem_filter.mp hnote
      exact hothers note hnote (of_decide_eq_true hother)

theorem shown_of_ne_nil (h : past ≠ []) :
    shown al statement past = Paragraphs.layout '\n' (ownText statement ++ (standing past).map (paragraph al)) :=
  if_neg h

theorem kept_split {pre post : List Call} {note : Call} (hsplit : standing past = pre ++ note :: post)
    (hid : note.action.id = call.action.id) :
    kept al statement past call = (ownText statement ++ pre.map (paragraph al)) ++ post.map (paragraph al) := by
  rw [kept, ← hid, standing_split hsplit, List.map_append, List.append_assoc]

theorem shown_split {pre post : List Call} {note : Call} (hne : past ≠ [])
    (hsplit : standing past = pre ++ note :: post) : shown al statement past = Paragraphs.layout '\n'
      ((ownText statement ++ pre.map (paragraph al)) ++ paragraph al note :: post.map (paragraph al)) := by
  rw [shown_of_ne_nil hne, hsplit, List.map_append, List.map_cons, List.append_assoc]

theorem kept_of_new (hnew : ∀ note ∈ standing past, note.action.id ≠ call.action.id) :
    kept al statement past call = ownText statement ++ (standing past).map (paragraph al) := by
  rw [kept, List.filter_eq_self.mpr fun note hnote => decide_eq_true (hnew note hnote)]

theorem ne_nil_of_standing {note : Call} (h : note ∈ standing past) : past ≠ [] := by
  rintro rfl
  cases h

theorem trim_cut_split (hanswered : ∀ call ∈ past, call.action.answer.isSome = true) {pre post : List Call}
    {note : Call} (hsplit : standing past = pre ++ note :: post) (hid : note.action.id = call.action.id)
    (habsent : Paragraphs.Absent call.marker (kept al statement past call)) :
    Passages.trim isSpace (call.marker.cut (shown al statement past)) =
        Paragraphs.layout '\n' (kept al statement past call) ↔
      Paragraphs.Gone isSpace call.marker (ownText statement ++ pre.map (paragraph al)) (paragraph al note)
        (post.map (paragraph al)) := by
  have hne : past ≠ [] := ne_nil_of_standing (hsplit ▸ List.mem_append_right _ List.mem_cons_self)
  rw [kept_split hsplit hid] at habsent ⊢
  rw [shown_split hne hsplit]
  refine Paragraphs.trim_cut_own (by decide) (fun part hpart => ?_) habsent
  refine parts_solid al statement hanswered part ?_
  rw [hsplit, List.map_append, List.map_cons, ← List.append_assoc]
  exact hpart

theorem clearFor_of_trim_cut (hline : '\n' ∉ call.action.id.toList)
    (hanswered : ∀ call ∈ past, call.action.answer.isSome = true)
    (hcut : Passages.trim isSpace (call.marker.cut (shown al statement past)) =
      Paragraphs.layout '\n' (kept al statement past call)) : ClearFor al statement (standing past) call := by
  have hmarker : '\n' ∉ call.marker.text := by
    have htext : call.marker.text = "[Decisao do owner ".toList ++ call.action.id.toList ++ [']'] := marker_toList _
    rw [htext, List.mem_append, List.mem_append]
    rintro ((h | h) | h)
    · exact absurd h (by decide)
    · exact hline h
    · exact absurd h (by decide)
  have habsent := Paragraphs.absent_of_trim_cut hmarker hcut
  obtain ⟨hown, hothers⟩ := absent_kept.mp habsent
  exact ⟨hown, hothers, fun pre note post hsplit hid => (trim_cut_split hanswered hsplit hid habsent).mp hcut⟩

theorem trim_cut_of_clearFor (hanswered : ∀ call ∈ past, call.action.answer.isSome = true)
    (hclear : ClearFor al statement (standing past) call) :
    Passages.trim isSpace (call.marker.cut (shown al statement past)) =
      Paragraphs.layout '\n' (kept al statement past call) := by
  have habsent : Paragraphs.Absent call.marker (kept al statement past call) :=
    absent_kept.mpr ⟨hclear.own, hclear.others⟩
  by_cases hnote : ∃ note ∈ standing past, note.action.id = call.action.id
  · obtain ⟨note, hmem, hid⟩ := hnote
    obtain ⟨pre, post, hsplit⟩ := List.append_of_mem hmem
    exact (trim_cut_split hanswered hsplit hid habsent).mpr (hclear.replaced pre note post hsplit hid)
  · have hkept : kept al statement past call = ownText statement ++ (standing past).map (paragraph al) :=
      kept_of_new fun note hmem hid => hnote ⟨note, hmem, hid⟩
    rw [hkept] at habsent ⊢
    by_cases hpast : past = []
    · subst hpast
      have hshown : shown al statement [] = statement.toList := rfl
      have htext : ownText statement ++ (standing []).map (paragraph al) = ownText statement := List.append_nil _
      rw [hshown, htext, call.marker.cut_of_not_infix (contains_eq_false.mp hclear.own), ownText,
        Paragraphs.layout_solids]
    · rw [shown_of_ne_nil hpast, Paragraphs.cut_layout (by decide) (parts_solid al statement hanswered) habsent,
        Paragraphs.trim_layout (parts_solid al statement hanswered)]

theorem annotateStatement_shown (hanswered : ∀ call ∈ past, call.action.answer.isSome = true)
    (hcall : call.action.answer.isSome = true) {current : String}
    (hcurrent : current.toList = shown al statement past) :
    (annotateStatement call.action.id (decisionParagraph al call.action) current).toList =
        shown al statement (past ++ [call]) ↔
      Passages.trim isSpace (call.marker.cut (shown al statement past)) =
        Paragraphs.layout '\n' (kept al statement past call) := by
  have hshown : shown al statement (past ++ [call]) =
      Paragraphs.layout '\n' (kept al statement past call ++ [paragraph al call]) := by
    rw [shown_of_ne_nil (by simp), standing_concat, List.map_append, List.map_singleton, ← List.append_assoc, kept]
  have hkept : ∀ part ∈ kept al statement past call, Passages.Solid isSpace part := by
    intro part hpart
    refine parts_solid al statement hanswered part ?_
    rcases List.mem_append.mp hpart with hpart | hpart
    · exact List.mem_append_left _ hpart
    · exact List.mem_append_right _ ((List.filter_sublist.map _).subset hpart)
  rw [annotateStatement_toList al call hcall, hshown, hcurrent,
    Paragraphs.layout_concat_inj (Paragraphs.solid_solids _) hkept, Paragraphs.layout_solids]

end

theorem eq_of_prefix_equals {a b x : List Char} (ha : '=' ∉ a) (hb : '=' ∉ b) (h : a ++ ['='] <+: b ++ '=' :: x) :
    a = b := by
  induction a generalizing b with
  | nil =>
    cases b with
    | nil => rfl
    | cons c b =>
      obtain ⟨rfl, -⟩ := List.cons_prefix_cons.mp h
      exact absurd List.mem_cons_self hb
  | cons c a ih =>
    cases b with
    | nil =>
      obtain ⟨rfl, -⟩ := List.cons_prefix_cons.mp h
      exact absurd List.mem_cons_self ha
    | cons d b =>
      obtain ⟨rfl, hrest⟩ := List.cons_prefix_cons.mp h
      rw [ih (fun hmem => ha (List.mem_cons_of_mem _ hmem)) (fun hmem => hb (List.mem_cons_of_mem _ hmem)) hrest]

theorem tagHead_toList (actionId : String) :
    (tagHead actionId).toList = "owner-decision:".toList ++ (actionId.toList ++ ['=']) := by
  have hclose : "=".toList = ['='] := rfl
  exact (String.toList_append ..).trans
    ((congrArg₂ (· ++ ·) (String.toList_append ..) hclose).trans (List.append_assoc ..))

theorem tagHead_solid (actionId : String) : Passages.Solid isSpace (tagHead actionId).toList := by
  rw [tagHead_toList]
  refine Paragraphs.solid_of_ends ⟨'o', rfl, by decide⟩ ⟨'=', ?_, by decide⟩
  rw [← List.append_assoc, List.getLast?_concat]

theorem tagHead_opens (action : OwnerAction) :
    (tagHead action.id).toList <+: (strip (decisionTag action)).toList := by
  rw [strip_toList, decisionTag, String.toList_append]
  exact Paragraphs.solid_prefix_trim (tagHead_solid action.id) _

theorem startsWith_tagHead {note call : Call} :
    startsWith (strip (decisionTag note.action)) (tagHead call.action.id) = true ↔
      note.action.id = call.action.id := by
  rw [startsWith, List.isPrefixOf_iff_prefix]
  constructor
  · intro h
    rcases List.prefix_or_prefix_of_prefix h (tagHead_opens note.action) with h | h
    · rw [tagHead_toList, tagHead_toList, List.prefix_append_right_inj] at h
      exact (String.toList_inj.mp (eq_of_prefix_equals (ownerActionId_no_equals call.id_ok)
        (ownerActionId_no_equals note.id_ok) h)).symm
    · rw [tagHead_toList, tagHead_toList, List.prefix_append_right_inj] at h
      exact String.toList_inj.mp (eq_of_prefix_equals (ownerActionId_no_equals note.id_ok)
        (ownerActionId_no_equals call.id_ok) h)
  · intro hid
    rw [← hid]
    exact tagHead_opens note.action

structure CleanTags (tags : List String) : Prop where
  stripped : ∀ t ∈ tags, strip t = t ∧ t ≠ ""
  user : "user-demand" ∈ tags

theorem strip_user : strip "user-demand" = "user-demand" := by decide +kernel

theorem cleanTags_ensureUserTag (tags : List String) : CleanTags (ensureUserTag tags) := by
  have hcleaned : ∀ t ∈ (tags.map strip).filter (fun t => decide (t ≠ "")), strip t = t ∧ t ≠ "" := by
    intro t ht
    obtain ⟨ht, hne⟩ := List.mem_filter.mp ht
    obtain ⟨t', -, rfl⟩ := List.mem_map.mp ht
    exact ⟨strip_idem t', of_decide_eq_true hne⟩
  unfold ensureUserTag
  simp only []
  split
  · rename_i huser
    exact ⟨hcleaned, huser⟩
  · refine ⟨fun t ht => ?_, List.mem_cons_self⟩
    rcases List.mem_cons.mp ht with rfl | ht
    · exact ⟨strip_user, by decide⟩
    · exact hcleaned t ht

theorem ensureUserTag_concat {tags : List String} (h : CleanTags tags) {tag : String} (htag : strip tag ≠ "") :
    ensureUserTag (tags ++ [tag]) = tags ++ [strip tag] := by
  have hcleaned : ((tags ++ [tag]).map strip).filter (fun t => decide (t ≠ "")) = tags ++ [strip tag] := by
    rw [List.map_append, List.map_congr_left fun t ht => (h.stripped t ht).1, List.map_id', List.map_singleton,
      List.filter_eq_self]
    intro t ht
    rcases List.mem_append.mp ht with ht | ht
    · exact decide_eq_true (h.stripped t ht).2
    · exact decide_eq_true (List.mem_singleton.mp ht ▸ htag)
  unfold ensureUserTag
  simp only [hcleaned]
  exact if_pos (List.mem_append_left _ h.user)

section

variable {τ : Type} {al : Alphabet}

def readBack (ticket : UserTicket τ) : UserTicket τ := { ticket with tags := ensureUserTag ticket.tags }

def annotated (al : Alphabet) (calls : List Call) (ticket : UserTicket τ) : UserTicket τ :=
  calls.foldl (fun t call => readBack (annotate al call.action call.now t)) ticket

theorem annotated_concat (past : List Call) (call : Call) (ticket : UserTicket τ) :
    annotated al (past ++ [call]) ticket =
      readBack (annotate al call.action call.now (annotated al past ticket)) := by
  rw [annotated, List.foldl_append]
  rfl

def shownTags (tags : List String) (calls : List Call) : List String :=
  (tags.filter fun t => calls.all fun call => !startsWith t (tagHead call.action.id)) ++
    (standing calls).map fun call => strip (decisionTag call.action)

theorem tag_ne_empty (action : OwnerAction) : strip (decisionTag action) ≠ "" := by
  intro hempty
  have hprefix := tagHead_opens action
  rw [hempty, tagHead_toList] at hprefix
  exact absurd (List.prefix_nil.mp hprefix) (by simp)

theorem user_not_decision (actionId : String) : startsWith "user-demand" (tagHead actionId) = false := by
  rw [startsWith, tagHead_toList]
  rfl

theorem shownTags_concat (tags : List String) (past : List Call) (call : Call) :
    (shownTags tags past).filter (fun t => !startsWith t (tagHead call.action.id)) ++
        [strip (decisionTag call.action)] = shownTags tags (past ++ [call]) := by
  have hnotes : ((standing past).map fun note => strip (decisionTag note.action)).filter
        (fun t => !startsWith t (tagHead call.action.id)) =
      ((standing past).filter fun note => decide (note.action.id ≠ call.action.id)).map
        fun note => strip (decisionTag note.action) := by
    rw [List.filter_map]
    congr 1
    refine List.filter_congr fun note _ => ?_
    rw [Function.comp_apply, Bool.eq_iff_iff, Bool.not_eq_true', ← Bool.not_eq_true, startsWith_tagHead,
      decide_eq_true_eq]
  have htags : (tags.filter fun t => past.all fun note => !startsWith t (tagHead note.action.id)).filter
        (fun t => !startsWith t (tagHead call.action.id)) =
      tags.filter fun t => (past ++ [call]).all fun note => !startsWith t (tagHead note.action.id) := by
    rw [List.filter_filter]
    refine List.filter_congr fun t _ => ?_
    rw [List.all_append, List.all_cons, List.all_nil, Bool.and_true, Bool.and_comm]
  rw [shownTags, List.filter_append, hnotes, htags, List.append_assoc, shownTags, standing_concat, List.map_append,
    List.map_singleton]

variable {ticket : UserTicket τ} {calls : List Call} {s : TicketStore τ}

theorem annotated_tags (htags : CleanTags ticket.tags) (calls : List Call) :
    (annotated al calls ticket).tags = shownTags ticket.tags calls ∧ CleanTags (annotated al calls ticket).tags := by
  induction calls using List.reverseRecOn with
  | nil =>
    refine ⟨?_, htags⟩
    rw [shownTags]
    exact ((List.append_nil _).trans (List.filter_eq_self.mpr fun _ _ => rfl)).symm
  | append_singleton past call ih =>
    obtain ⟨hpast, hclean⟩ := ih
    rw [annotated_concat]
    refine ⟨?_, cleanTags_ensureUserTag _⟩
    have hkept :
        CleanTags ((annotated al past ticket).tags.filter fun t => !startsWith t (tagHead call.action.id)) := by
      refine ⟨fun t ht => hclean.stripped t (List.mem_of_mem_filter ht), List.mem_filter.mpr ⟨hclean.user, ?_⟩⟩
      rw [user_not_decision]
      rfl
    have hread : (readBack (annotate al call.action call.now (annotated al past ticket))).tags =
        ensureUserTag (((annotated al past ticket).tags.filter fun t => !startsWith t (tagHead call.action.id)) ++
          [decisionTag call.action]) := rfl
    rw [hread, ensureUserTag_concat hkept (tag_ne_empty call.action), hpast]
    exact shownTags_concat ticket.tags past call

theorem annotated_statement (hanswered : ∀ call ∈ calls, call.action.answer.isSome = true)
    (hclear : ∀ past call rest, calls = past ++ call :: rest →
      ClearFor al ticket.problemStatement (standing past) call) :
    (annotated al calls ticket).problemStatement.toList = shown al ticket.problemStatement calls := by
  induction calls using List.reverseRecOn with
  | nil => rfl
  | append_singleton past call ih =>
    have hpast : ∀ call ∈ past, call.action.answer.isSome = true :=
      fun c hc => hanswered c (List.mem_append_left _ hc)
    have hcurrent := ih hpast fun pre c rest heq =>
      hclear pre c (rest ++ [call]) (by rw [heq, List.append_assoc]; rfl)
    rw [annotated_concat]
    exact (annotateStatement_shown hpast (hanswered call (List.mem_append_right _ List.mem_cons_self)) hcurrent).mpr
      (trim_cut_of_clearFor hpast (hclear past call [] rfl))

theorem clearFor_of_statements {past : List Call} {call : Call} (hline : '\n' ∉ call.action.id.toList)
    (hanswered : ∀ call ∈ past, call.action.answer.isSome = true) (hcall : call.action.answer.isSome = true)
    (hpast : (annotated al past ticket).problemStatement.toList = shown al ticket.problemStatement past)
    (hnext : (annotated al (past ++ [call]) ticket).problemStatement.toList =
      shown al ticket.problemStatement (past ++ [call])) :
    ClearFor al ticket.problemStatement (standing past) call := by
  rw [annotated_concat] at hnext
  exact clearFor_of_trim_cut hline hanswered ((annotateStatement_shown hanswered hcall hpast).mp hnext)

theorem getTicket_saveTicket (s : TicketStore τ) (ticket : UserTicket τ) (id : String) :
    (s.saveTicket ticket).getTicket id = if id = ticket.id then some (readBack ticket) else s.getTicket id := by
  unfold TicketStore.getTicket TicketStore.saveTicket
  by_cases hid : id = ticket.id
  · simp only [if_pos hid]
    rfl
  · simp only [if_neg hid]

theorem getTicket_id {id : String} (h : s.getTicket id = some ticket) : ticket.id = id ∧ CleanTags ticket.tags := by
  obtain ⟨raw, hraw, rfl⟩ := Option.map_eq_some_iff.mp h
  have hid : raw.id = id := s.keyed hraw
  exact ⟨hid, cleanTags_ensureUserTag _⟩

theorem map_eq_self {α : Type} {f : α → α} {x : Option α} (h : ∀ a, x = some a → f a = a) : x.map f = x := by
  cases x with
  | none => rfl
  | some a => exact congrArg some (h a rfl)

theorem annotateTicket_getTicket (call : Call) (acc : List String × TicketStore τ) (ticketId id : String) :
    (annotateTicket al call acc ticketId).2.getTicket id = (acc.2.getTicket id).map fun ticket =>
      if id = ticketId ∧ call.raises ticketId = false ∧ ticket.status ≠ .completed then
        readBack (annotate al call.action call.now ticket)
      else ticket := by
  unfold annotateTicket
  cases hraises : call.raises ticketId with
  | true =>
    rw [if_pos rfl]
    refine (map_eq_self fun ticket _ => if_neg ?_).symm
    rintro ⟨-, hfalse, -⟩
    cases hfalse
  | false =>
    rw [if_neg Bool.false_ne_true]
    cases hget : acc.2.getTicket ticketId with
    | none =>
      refine (map_eq_self fun ticket hticket => if_neg ?_).symm
      rintro ⟨rfl, -⟩
      rw [hget] at hticket
      cases hticket
    | some ticket =>
      simp only []
      split
      · rename_i hdone
        refine (map_eq_self fun other hother => if_neg ?_).symm
        rintro ⟨rfl, -, hopen⟩
        rw [hget] at hother
        exact hopen (Option.some.inj hother ▸ hdone)
      · rename_i hopen
        have hid : (annotate al call.action call.now ticket).id = ticketId := (getTicket_id hget).1
        rw [getTicket_saveTicket, hid]
        by_cases hsame : id = ticketId
        · rw [if_pos hsame, hsame, hget, Option.map_some, if_pos (by simp [hopen])]
        · rw [if_neg hsame]
          exact (map_eq_self fun _ _ => if_neg fun h => hsame h.1).symm

theorem annotateBlockedTickets_getTicket (call : Call) (s : TicketStore τ) (id : String) :
    (annotateBlockedTickets al call s).2.getTicket id = (s.getTicket id).map fun ticket =>
      if call.touches ticket then readBack (annotate al call.action call.now ticket) else ticket := by
  have hfold : ∀ (blocks : List String) (acc : List String × TicketStore τ), blocks.Nodup →
      (blocks.foldl (annotateTicket al call) acc).2.getTicket id = (acc.2.getTicket id).map fun ticket =>
        if id ∈ blocks ∧ call.raises id = false ∧ ticket.status ≠ .completed then
          readBack (annotate al call.action call.now ticket)
        else ticket := by
    intro blocks
    induction blocks with
    | nil =>
      intro acc _
      exact (map_eq_self fun _ _ => if_neg fun h => absurd h.1 List.not_mem_nil).symm
    | cons ticketId blocks ih =>
      intro acc hnodup
      obtain ⟨hfresh, hnodup⟩ := List.nodup_cons.mp hnodup
      rw [List.foldl_cons, ih _ hnodup, annotateTicket_getTicket, Option.map_map]
      congr 1
      funext ticket
      rw [Function.comp_apply]
      by_cases hid : id = ticketId
      · subst hid
        simp only [hfresh, false_and, if_false, List.mem_cons, true_or, true_and]
      · simp only [hid, false_and, if_false, List.mem_cons, false_or]
  unfold annotateBlockedTickets
  split
  · rename_i hskip
    refine (map_eq_self fun ticket _ => if_neg ?_).symm
    rw [Call.touches]
    rcases hskip with hkind | hanswer
    · simp [hkind]
    · simp [hanswer]
  · rename_i hskip
    rw [not_or, Decidable.not_not] at hskip
    rw [hfold _ _ call.blocks_nodup]
    cases hget : s.getTicket id with
    | none => rfl
    | some ticket =>
      obtain ⟨hid, -⟩ := getTicket_id hget
      rw [Option.map_some, Option.map_some, Call.touches, hid, hskip.1]
      simp only [decide_true, Bool.true_and, Option.isSome_iff_ne_none.mpr hskip.2, Bool.and_eq_true,
        List.contains_iff_mem, Bool.not_eq_true', decide_eq_false_iff_not, and_assoc, ne_eq]

theorem run_getTicket (calls : List Call) (s : TicketStore τ) (id : String) :
    (run al calls s).getTicket id = (s.getTicket id).map fun ticket =>
      annotated al (calls.filter fun call => call.touches ticket) ticket := by
  induction calls generalizing s with
  | nil => exact (map_eq_self fun _ _ => rfl).symm
  | cons call calls ih =>
    have hrun : run al (call :: calls) s = run al calls (annotateBlockedTickets al call s).2 := rfl
    rw [hrun, ih, annotateBlockedTickets_getTicket, Option.map_map]
    congr 1
    funext ticket
    rw [Function.comp_apply]
    by_cases htouches : call.touches ticket = true
    · rw [if_pos htouches, List.filter_cons, if_pos htouches]
      rfl
    · rw [if_neg htouches, List.filter_cons, if_neg htouches]

theorem touches_answered {call : Call} (h : call.touches ticket = true) : call.action.answer.isSome = true := by
  simp only [Call.touches, Bool.and_eq_true] at h
  exact h.1.1.1.2

theorem recorded_iff (htags : CleanTags ticket.tags) (calls : List Call) :
    Recorded al ticket (annotated al calls ticket) calls ↔
      (annotated al calls ticket).problemStatement.toList = shown al ticket.problemStatement calls :=
  ⟨Recorded.statement, fun h => ⟨(annotated_tags htags calls).1, h⟩⟩

theorem allRecorded_iff :
    AllRecorded al s calls ↔ ∀ ticketId ticket, s.getTicket ticketId = some ticket →
      (annotated al (calls.filter fun call => call.touches ticket) ticket).problemStatement.toList =
        shown al ticket.problemStatement (calls.filter fun call => call.touches ticket) := by
  unfold AllRecorded
  refine forall_congr' fun ticketId => ?_
  rw [run_getTicket]
  cases hget : s.getTicket ticketId with
  | none => simp
  | some ticket =>
    simp only [Option.map_some, Option.some.injEq, exists_eq_left', forall_eq']
    exact recorded_iff (getTicket_id hget).2 _

def Clear (al : Alphabet) (s : TicketStore τ) (calls : List Call) : Prop :=
  ∀ past call rest, calls = past ++ call :: rest → ∀ ticketId ticket, s.getTicket ticketId = some ticket →
    call.touches ticket = true →
    ClearFor al ticket.problemStatement (standing (past.filter fun call => call.touches ticket)) call

theorem allRecorded_of_clear {past rest : List Call} (hclear : Clear al s (past ++ rest)) :
    AllRecorded al s past := by
  rw [allRecorded_iff]
  intro ticketId ticket hget
  refine annotated_statement (fun call hcall => touches_answered (List.mem_filter.mp hcall).2) ?_
  intro before call after hsplit
  -- the call stands among all calls, after those that wrote on the ticket before it
  obtain ⟨before', tail, rfl, hbefore, htail⟩ := List.filter_eq_append_iff.mp hsplit
  obtain ⟨skipped, after', rfl, hskipped, htouches, -⟩ := List.filter_eq_cons_iff.mp htail
  have h := hclear (before' ++ skipped) call (after' ++ rest) (by simp) ticketId ticket hget htouches
  rwa [List.filter_append, hbefore, List.filter_eq_nil_iff.mpr hskipped, List.append_nil] at h

theorem clear_of_allRecorded (hline : ∀ call ∈ calls, '\n' ∉ call.action.id.toList)
    (hrecorded : ∀ past rest, calls = past ++ rest → AllRecorded al s past) : Clear al s calls := by
  rintro past call rest rfl ticketId ticket hget htouches
  have hpast := allRecorded_iff.mp (hrecorded past (call :: rest) rfl) ticketId ticket hget
  have hnext := allRecorded_iff.mp (hrecorded (past ++ [call]) rest (by simp)) ticketId ticket hget
  rw [List.filter_append, List.filter_singleton, htouches, cond_true] at hnext
  exact clearFor_of_statements (hline call (by simp))
    (fun other hother => touches_answered (List.mem_filter.mp hother).2) (touches_answered htouches) hpast hnext

/-- Decisions replace and never stack, after every call, if each marker is clear where its call writes; and where no
id ends in a line break, only then. -/
theorem decisions_replace (s : TicketStore τ) (calls : List Call) :
    (Clear al s calls → ∀ past rest, calls = past ++ rest → AllRecorded al s past) ∧
      ((∀ call ∈ calls, '\n' ∉ call.action.id.toList) →
        (∀ past rest, calls = past ++ rest → AllRecorded al s past) → Clear al s calls) := by
  refine ⟨?_, clear_of_allRecorded⟩
  rintro hclear past rest rfl
  exact allRecorded_of_clear hclear

def twoLines : Call where
  action :=
    { id := "OA-1", kind := .decision, title := "A\nB", blocks := ["USR-1"],
      options := [{ id := "A", label := "A" }, { id := "B", label := "B" }],
      createdAt := "2026-10-09T20:00:00Z", answer := some { optionId := "A", answeredAt := "2026-10-09T22:00:00Z" } }
  now := 0
  raises := fun _ => false
  id_ok := by decide +kernel
  blocks_nodup := by decide

def plainAlphabet : Alphabet := ⟨fun _ => false⟩

theorem twoLines_paragraph : decisionParagraph plainAlphabet twoLines.action =
    "[Decisao do owner OA-1] A\nB -> opcao A (A), em 2026-10-09T22:00:00Z." := by decide +kernel

def blockedTicket : UserTicket Unit :=
  { id := "USR-1", title := "Ticket bloqueado", problemStatement := "Base", rest := () }

def blockedStore : TicketStore Unit where
  rows := fun id => if id = "USR-1" then some blockedTicket else none
  keyed := by
    intro id ticket h
    split at h
    · rename_i hid
      rw [← Option.some.inj h, hid]
      rfl
    · cases h

/-- The second line of the first paragraph stays when the decision is answered again. -/
theorem second_line_stacks :
    ¬ ∀ (al : Alphabet) (s : TicketStore Unit) (calls : List Call), AllRecorded al s calls := by
  intro h
  have hline : ∀ call ∈ [twoLines, twoLines], '\n' ∉ call.action.id.toList := by decide
  have hclear := clear_of_allRecorded hline fun past _ _ => h plainAlphabet blockedStore past
  have hfor := hclear [twoLines] twoLines [] rfl "USR-1" (readBack blockedTicket) rfl rfl
  have hblank := (hfor.replaced [] twoLines [] rfl rfl).1 'B'
  have hleft := sub_ownMarker twoLines 0 none (paragraph plainAlphabet twoLines)
  rw [List.drop_zero, paragraph, twoLines_paragraph] at hleft
  rw [paragraph, twoLines_paragraph, ← hleft] at hblank
  exact absurd (hblank (by decide +kernel)) (by decide)

end

end Propagate
end OwnerActions
end DarkFactory
