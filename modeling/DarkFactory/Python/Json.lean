import Mathlib.Algebra.GroupWithZero.Nat
import Mathlib.Data.List.Basic

/-!
# DarkFactory.Python.Json

`json.dumps(body, ensure_ascii=False, separators=(",", ":"))` on a dictionary of strings, and the reader of such texts.

* `escape` — a string as it stands between its quotes.
* `Reader` — the reader, one character at a time. Blanks and other values do not occur in these texts.
* `loads_dumps` — a text reads back as what was written.
* `loads_of_prefix` — nothing shorter than the whole text can be read.
-/

namespace DarkFactory
namespace Json

def quote : Char := Char.ofNat 34

def backslash : Char := Char.ofNat 92

abbrev Body : Type := List (String × String)

def hexDigit (n : Nat) : Char := Char.ofNat (if n < 10 then 48 + n else 87 + n)

def shortEscape (c : Char) : Option Char :=
  if c = quote then some quote
  else if c = backslash then some backslash
  else
    match c.toNat with
    | 8 => some 'b'
    | 9 => some 't'
    | 10 => some 'n'
    | 12 => some 'f'
    | 13 => some 'r'
    | _ => none

def escapeChar (c : Char) : List Char :=
  match shortEscape c with
  | some e => [backslash, e]
  | none =>
    if c.toNat < 32 then [backslash, 'u', '0', '0', hexDigit (c.toNat / 16), hexDigit (c.toNat % 16)] else [c]

def escape (cs : List Char) : List Char := cs.flatMap escapeChar

def quoted (s : String) : List Char := quote :: escape s.toList ++ [quote]

def member (m : String × String) : List Char := quoted m.1 ++ ':' :: quoted m.2

def membersFrom : Body → List Char
  | [] => ['}']
  | m :: rest => ',' :: member m ++ membersFrom rest

def dumpsList : Body → List Char
  | [] => ['{', '}']
  | m :: rest => '{' :: member m ++ membersFrom rest

def dumps (body : Body) : String := String.ofList (dumpsList body)

/-- Where the reader stands in a string: in its text, after a backslash, or after some digits of an escape. -/
inductive Escaping where
  | none
  | backslash
  | digits (read value : Nat)

structure Scanned where
  chars : List Char := []
  escaping : Escaping := .none

def unescape (c : Char) : Option Char :=
  if c = quote then some quote
  else if c = backslash then some backslash
  else
    match c with
    | '/' => some '/'
    | 'b' => some (Char.ofNat 8)
    | 't' => some (Char.ofNat 9)
    | 'n' => some (Char.ofNat 10)
    | 'f' => some (Char.ofNat 12)
    | 'r' => some (Char.ofNat 13)
    | _ => none

def hexValue (c : Char) : Option Nat :=
  if 48 ≤ c.toNat ∧ c.toNat < 58 then some (c.toNat - 48)
  else if 97 ≤ c.toNat ∧ c.toNat < 103 then some (c.toNat - 87)
  else if 65 ≤ c.toNat ∧ c.toNat < 71 then some (c.toNat - 55)
  else none

inductive Scan where
  | more (s : Scanned)
  | closed (s : String)
  | failed

def scan (s : Scanned) (c : Char) : Scan :=
  match s.escaping with
  | .none =>
    if c = quote then .closed (String.ofList s.chars)
    else if c = backslash then .more { s with escaping := .backslash }
    else if c.toNat < 32 then .failed
    else .more { chars := s.chars ++ [c] }
  | .backslash =>
    if c = 'u' then .more { s with escaping := .digits 0 0 }
    else
      match unescape c with
      | some e => .more { chars := s.chars ++ [e] }
      | none => .failed
  | .digits read value =>
    match hexValue c with
    | none => .failed
    | some d =>
      if read = 3 then .more { chars := s.chars ++ [Char.ofNat (16 * value + d)] }
      else .more { s with escaping := .digits (read + 1) (16 * value + d) }

inductive Reader where
  | start
  | opened
  | comma (body : Body)
  | key (body : Body) (s : Scanned)
  | afterKey (body : Body) (key : String)
  | colon (body : Body) (key : String)
  | value (body : Body) (key : String) (s : Scanned)
  | afterValue (body : Body)
  | closed (body : Body)
  | failed

def read : Reader → Char → Reader
  | .start, c => if c = '{' then .opened else .failed
  | .opened, c => if c = '}' then .closed [] else if c = quote then .key [] {} else .failed
  | .comma body, c => if c = quote then .key body {} else .failed
  | .key body s, c =>
    match scan s c with
    | .more s => .key body s
    | .closed key => .afterKey body key
    | .failed => .failed
  | .afterKey body key, c => if c = ':' then .colon body key else .failed
  | .colon body key, c => if c = quote then .value body key {} else .failed
  | .value body key s, c =>
    match scan s c with
    | .more s => .value body key s
    | .closed value => .afterValue (body ++ [(key, value)])
    | .failed => .failed
  | .afterValue body, c => if c = '}' then .closed body else if c = ',' then .comma body else .failed
  | .closed _, _ => .failed
  | .failed, _ => .failed

def loads (text : String) : Option Body :=
  match text.toList.foldl read .start with
  | .closed body => some body
  | _ => none

theorem char_of_toNat {c : Char} {n : Nat} (h : c.toNat = n) : c = Char.ofNat n := by
  rw [← h, Char.ofNat_toNat]

theorem scan_shortEscape {c e : Char} (h : shortEscape c = some e) : e ≠ 'u' ∧ unescape e = some c := by
  unfold shortEscape at h
  split at h
  · rename_i hc
    cases h
    subst hc
    decide
  · split at h
    · rename_i hc
      cases h
      subst hc
      decide
    · split at h
      all_goals first
        | cases h
          rename_i hn
          rw [char_of_toNat hn]
          decide
        | cases h

theorem hexValue_hexDigit {n : Nat} (h : n < 16) : hexValue (hexDigit n) = some n := by
  have hall : ∀ m : Fin 16, hexValue (hexDigit m) = some m.val := by decide
  exact hall ⟨n, h⟩

section

variable {wrap : Scanned → Reader} (hwrap : ∀ s c s', scan s c = .more s' → read (wrap s) c = wrap s')
include hwrap

theorem foldl_escapeChar (chars : List Char) (c : Char) :
    (escapeChar c).foldl read (wrap { chars }) = wrap { chars := chars ++ [c] } := by
  unfold escapeChar
  cases hshort : shortEscape c with
  | some e =>
    obtain ⟨hu, hback⟩ := scan_shortEscape hshort
    have hopen : scan { chars } backslash = .more { chars, escaping := .backslash } := rfl
    have hescape : scan { chars, escaping := .backslash } e = .more { chars := chars ++ [c] } := by
      simp only [scan, if_neg hu, hback]
    simp only [List.foldl_cons, List.foldl_nil]
    rw [hwrap _ _ _ hopen, hwrap _ _ _ hescape]
  | none =>
    dsimp only
    split
    · rename_i hcontrol
      have hhigh := hexValue_hexDigit (n := c.toNat / 16) (by omega)
      have hlow := hexValue_hexDigit (n := c.toNat % 16) (by omega)
      have hvalue : Char.ofNat (16 * (c.toNat / 16) + c.toNat % 16) = c := by
        rw [Nat.div_add_mod, Char.ofNat_toNat]
      simp only [List.foldl_cons, List.foldl_nil]
      rw [hwrap _ _ _ (rfl : scan { chars } backslash = .more { chars, escaping := .backslash }),
        hwrap _ _ _ (rfl : scan _ 'u' = .more { chars, escaping := .digits 0 0 }),
        hwrap _ _ _ (rfl : scan _ '0' = .more { chars, escaping := .digits 1 0 }),
        hwrap _ _ _ (rfl : scan _ '0' = .more { chars, escaping := .digits 2 0 })]
      have hthird : scan { chars, escaping := .digits 2 0 } (hexDigit (c.toNat / 16)) =
          .more { chars, escaping := .digits 3 (c.toNat / 16) } := by
        simp only [scan, hhigh]
        simp
      have hlast : scan { chars, escaping := .digits 3 (c.toNat / 16) } (hexDigit (c.toNat % 16)) =
          .more { chars := chars ++ [c] } := by
        simp only [scan, hlow, if_true, hvalue]
      rw [hwrap _ _ _ hthird, hwrap _ _ _ hlast]
    · rename_i hplain
      unfold shortEscape at hshort
      split at hshort
      · cases hshort
      · rename_i hquote
        split at hshort
        · cases hshort
        · rename_i hbackslash
          have hread : scan { chars } c = .more { chars := chars ++ [c] } := by
            simp only [scan, if_neg hquote, if_neg hbackslash, if_neg hplain]
          simp only [List.foldl_cons, List.foldl_nil]
          rw [hwrap _ _ _ hread]

theorem foldl_escape (chars cs : List Char) :
    (escape cs).foldl read (wrap { chars }) = wrap { chars := chars ++ cs } := by
  induction cs generalizing chars with
  | nil =>
    rw [List.append_nil]
    rfl
  | cons c cs ih =>
    have hsplit : escape (c :: cs) = escapeChar c ++ escape cs := rfl
    rw [hsplit, List.foldl_append, foldl_escapeChar hwrap, ih, List.append_assoc, List.singleton_append]

end

theorem foldl_member (body : Body) (m : String × String) :
    (member m).foldl read (.comma body) = .afterValue (body ++ [m]) := by
  have hkey : (escape m.1.toList).foldl read (.key body {}) = .key body { chars := [] ++ m.1.toList } :=
    foldl_escape (fun s c s' h => by simp only [read, h]) [] m.1.toList
  have hvalue : (escape m.2.toList).foldl read (.value body m.1 {}) = .value body m.1 { chars := [] ++ m.2.toList } :=
    foldl_escape (fun s c s' h => by simp only [read, h]) [] m.2.toList
  have hclose : ∀ s : String, scan { chars := s.toList } quote = .closed s := by
    intro s
    simp [scan, String.ofList_toList]
  unfold member quoted
  simp only [List.foldl_append, List.foldl_cons, List.foldl_nil, List.cons_append, List.append_assoc]
  rw [List.nil_append] at hkey hvalue
  have hopen : read (.comma body) quote = .key body {} := rfl
  have hcolon : read (.afterKey body m.1) ':' = .colon body m.1 := rfl
  have hquote : read (.colon body m.1) quote = .value body m.1 {} := rfl
  have hkeyEnd : read (.key body { chars := m.1.toList }) quote = .afterKey body m.1 := by
    simp only [read, hclose]
  have hvalueEnd : read (.value body m.1 { chars := m.2.toList }) quote = .afterValue (body ++ [m]) := by
    simp only [read, hclose]
  rw [hopen, hkey, hkeyEnd, hcolon, hquote, hvalue, hvalueEnd]

theorem foldl_membersFrom (body rest : Body) :
    (membersFrom rest).foldl read (.afterValue body) = .closed (body ++ rest) := by
  induction rest generalizing body with
  | nil =>
    rw [List.append_nil]
    rfl
  | cons m rest ih =>
    have hsplit : membersFrom (m :: rest) = ',' :: (member m ++ membersFrom rest) := rfl
    have hcomma : read (.afterValue body) ',' = .comma body := rfl
    rw [hsplit, List.foldl_cons, hcomma, List.foldl_append, foldl_member, ih, List.append_assoc, List.singleton_append]

theorem foldl_dumps (body : Body) : (dumpsList body).foldl read .start = .closed body := by
  cases body with
  | nil => rfl
  | cons m rest =>
    have hsplit : dumpsList (m :: rest) = '{' :: (member m ++ membersFrom rest) := rfl
    have hopen : read .start '{' = .opened := rfl
    -- a member begins with a quote, for which it does not matter that it is the first one
    have hfirst : (member m).foldl read .opened = (member m).foldl read (.comma []) := rfl
    rw [hsplit, List.foldl_cons, hopen, List.foldl_append, hfirst, foldl_member, foldl_membersFrom]
    rfl

theorem loads_dumps (body : Body) : loads (dumps body) = some body := by
  unfold loads dumps
  rw [String.toList_ofList, foldl_dumps]

theorem foldl_failed (cs : List Char) : cs.foldl read .failed = .failed := by
  induction cs with
  | nil => rfl
  | cons c cs ih => exact ih

theorem loads_of_prefix {body : Body} {text : String} (hhead : text.toList <+: dumpsList body)
    (hne : text.toList ≠ dumpsList body) : loads text = none := by
  obtain ⟨rest, hrest⟩ := hhead
  unfold loads
  cases hstate : text.toList.foldl read .start with
  | closed body' =>
    have hfold := foldl_dumps body
    rw [← hrest, List.foldl_append, hstate] at hfold
    cases rest with
    | nil =>
      rw [List.append_nil] at hrest
      exact absurd hrest hne
    | cons c rest =>
      have hfail : (c :: rest).foldl read (.closed body') = .failed := foldl_failed rest
      rw [hfail] at hfold
      cases hfold
  | start | opened | comma | key | afterKey | colon | value | afterValue | failed => rfl

theorem escape_append (cs cs' : List Char) : escape (cs ++ cs') = escape cs ++ escape cs' := List.flatMap_append

theorem length_escape_prefix {cs cs' : List Char} (h : cs <+: cs') : (escape cs).length ≤ (escape cs').length := by
  obtain ⟨rest, rfl⟩ := h
  rw [escape_append, List.length_append]
  omega

def size (body : Body) : Nat := (body.map fun m => (member m).length + 1).sum

theorem size_cons (m : String × String) (rest : Body) : size (m :: rest) = (member m).length + 1 + size rest := rfl

theorem size_append (body rest : Body) : size (body ++ rest) = size body + size rest := by
  unfold size
  rw [List.map_append, List.sum_append]

theorem length_membersFrom (rest : Body) : (membersFrom rest).length = size rest + 1 := by
  induction rest with
  | nil => rfl
  | cons m rest ih =>
    rw [membersFrom, size_cons, List.length_append, List.length_cons, ih]
    omega

theorem length_dumps {body : Body} (hne : body ≠ []) : (dumps body).length = size body + 1 := by
  unfold dumps
  rw [String.length_ofList]
  cases body with
  | nil => exact absurd rfl hne
  | cons m rest =>
    rw [dumpsList, size_cons, List.length_append, List.length_cons, length_membersFrom]
    omega

theorem length_escape (cs : List Char) : cs.length ≤ (escape cs).length := by
  induction cs with
  | nil => exact Nat.le_refl _
  | cons c cs ih =>
    have hone : 1 ≤ (escapeChar c).length := by
      unfold escapeChar
      split
      · exact Nat.le_add_left 1 1
      · split
        · exact Nat.le_add_left 1 5
        · exact Nat.le_refl 1
    have hsplit : escape (c :: cs) = escapeChar c ++ escape cs := rfl
    rw [hsplit, List.length_append, List.length_cons]
    omega

theorem length_member (key s : String) : key.length + s.length + 5 ≤ (member (key, s)).length := by
  have hkey := length_escape key.toList
  have hvalue := length_escape s.toList
  rw [String.length_toList] at hkey hvalue
  simp only [member, quoted, List.length_append, List.length_cons, List.length_nil]
  omega

theorem length_member_prefix (key : String) {s s' : String} (h : s.toList <+: s'.toList) :
    (member (key, s)).length ≤ (member (key, s')).length := by
  have hescape := length_escape_prefix h
  simp only [member, quoted, List.length_append, List.length_cons, List.length_nil]
  omega

end Json
end DarkFactory
