import Mathlib.Data.List.DropRight
import DarkFactory.Lib.Escape

/-!
# DarkFactory.Python.Text

The string operations of the modelled code, on the characters of a `String`, and the UTF-8 bytes of texts.
-/

namespace DarkFactory
namespace Text

/-- `str.isspace` on one character, which is also what `\s` matches. -/
def isSpace (c : Char) : Bool :=
  let n := c.toNat
  (9 ≤ n && n ≤ 13) || (28 ≤ n && n ≤ 32) || n == 0x85 || n == 0xa0 || n == 0x1680 ||
    (0x2000 ≤ n && n ≤ 0x200a) || n == 0x2028 || n == 0x2029 || n == 0x202f || n == 0x205f ||
    n == 0x3000

/-- A line boundary of `str.splitlines`. -/
def isLineBreak (c : Char) : Bool :=
  let n := c.toNat
  (10 ≤ n && n ≤ 13) || (28 ≤ n && n ≤ 30) || n == 0x85 || n == 0x2028 || n == 0x2029

def stripList (cs : List Char) : List Char :=
  ((cs.dropWhile isSpace).reverse.dropWhile isSpace).reverse

def strip (s : String) : String := String.ofList (stripList s.toList)

def isAscii (s : String) : Bool := s.toList.all fun c => decide (c.toNat < 128)

/-- `s.lower()` on ASCII text. -/
def asciiLower (s : String) : String := String.ofList (s.toList.map Char.toLower)

/-- `str.casefold` of one character that folds to a letter of `pytest`, and of ASCII. -/
def casefoldChar (c : Char) : List Char :=
  match c.toNat with
  | 0xdf | 0x1e9e => ['s', 's']
  | 0x17f => ['s']
  | 0xfb05 | 0xfb06 => ['s', 't']
  | 0x1e97 => ['t', Char.ofNat 0x308]
  | 0x1e99 => ['y', Char.ofNat 0x30a]
  | _ => [c.toLower]

def casefold (s : String) : String := String.ofList (s.toList.flatMap casefoldChar)

/-- The characters of `s.strip().splitlines()[0]`, or none when `s.strip()` is empty. -/
def firstLine (s : String) : List Char := (stripList s.toList).takeWhile fun c => !isLineBreak c

def isInfixList (p : List Char) : List Char → Bool
  | [] => p.isEmpty
  | c :: cs => p.isPrefixOf (c :: cs) || isInfixList p cs

/-- `needle in hay`. -/
def contains (needle hay : String) : Bool := isInfixList needle.toList hay.toList

def startsWith (s p : String) : Bool := p.toList.isPrefixOf s.toList

theorem isInfixList_iff {p cs : List Char} : isInfixList p cs = true ↔ p <:+: cs := by
  induction cs with
  | nil => simp [isInfixList]
  | cons c cs ih =>
    rw [isInfixList, Bool.or_eq_true, ih, List.isPrefixOf_iff_prefix, List.infix_cons_iff]

theorem contains_eq_false {needle hay : String} :
    contains needle hay = false ↔ ¬ needle.toList <:+: hay.toList := by
  rw [contains, ← isInfixList_iff, Bool.not_eq_true]

theorem stripList_infix (cs : List Char) : stripList cs <:+: cs := by
  have hright : stripList cs <+: cs.dropWhile isSpace := by
    rw [← List.reverse_suffix, stripList, List.reverse_reverse]
    exact List.dropWhile_suffix isSpace
  exact List.IsInfix.trans (List.IsPrefix.isInfix hright)
    (List.IsSuffix.isInfix (List.dropWhile_suffix isSpace))

theorem strip_toList (s : String) : (strip s).toList = stripList s.toList := by simp [strip]

theorem stripList_idem (cs : List Char) : stripList (stripList cs) = stripList cs := by
  have hstrip : stripList cs = (cs.dropWhile isSpace).rdropWhile isSpace := rfl
  have hleft : (stripList cs).dropWhile isSpace = stripList cs := by
    rw [List.dropWhile_eq_self_iff]
    intro hlength
    -- the first character is the one that is left of the text
    have hprefix : stripList cs <+: cs.dropWhile isSpace := by
      rw [hstrip]
      exact List.rdropWhile_prefix isSpace _
    have hne : 0 < (cs.dropWhile isSpace).length := Nat.lt_of_lt_of_le hlength hprefix.length_le
    have hsame : (stripList cs)[0] = (cs.dropWhile isSpace)[0] := hprefix.getElem hlength
    rw [hsame]
    exact List.dropWhile_eq_self_iff.mp (List.dropWhile_idempotent isSpace cs) hne
  have hunfold : stripList (stripList cs) = ((stripList cs).dropWhile isSpace).rdropWhile isSpace := rfl
  rw [hunfold, hleft, hstrip]
  exact List.rdropWhile_idempotent isSpace _

theorem strip_idem (s : String) : strip (strip s) = strip s := by
  rw [strip, strip_toList, stripList_idem, strip]

/-- `s.replace(old, new)`, for `old` not empty. -/
def replace (s old new : String) : String :=
  String.ofList (Escape.replace old.toList new.toList s.toList)

theorem replace_toList (s old new : String) :
    (replace s old new).toList = Escape.replace old.toList new.toList s.toList := by simp [replace]

def replaceOnceList (old new : List Char) : List Char → List Char
  | [] => []
  | c :: cs =>
    if old.isPrefixOf (c :: cs) then new ++ (c :: cs).drop old.length
    else c :: replaceOnceList old new cs

/-- `s.replace(old, new, 1)`. -/
def replaceOnce (s old new : String) : String :=
  String.ofList (replaceOnceList old.toList new.toList s.toList)

def beforeList (sep : List Char) : List Char → List Char
  | [] => []
  | c :: cs => if sep.isPrefixOf (c :: cs) then [] else c :: beforeList sep cs

/-- `s.split(sep, 1)[0]`. -/
def before (s sep : String) : String := String.ofList (beforeList sep.toList s.toList)

/-- The lines of a text of which `line` has been read. -/
def splitlinesFrom (line : List Char) : List Char → List (List Char)
  | [] => if line = [] then [] else [line]
  | '\r' :: '\n' :: cs => line :: splitlinesFrom [] cs
  | c :: cs => if isLineBreak c then line :: splitlinesFrom [] cs else splitlinesFrom (line ++ [c]) cs

def splitlines (s : String) : List String := (splitlinesFrom [] s.toList).map String.ofList

theorem splitlinesFrom_infix {line cs l : List Char} (h : l ∈ splitlinesFrom line cs) :
    l <:+: line ++ cs := by
  induction line, cs using splitlinesFrom.induct with
  | case1 => simp [splitlinesFrom] at h
  | case2 line hne =>
    rw [splitlinesFrom, if_neg hne, List.mem_singleton] at h
    rw [h, List.append_nil]
  | case3 line cs ih =>
    rw [splitlinesFrom, List.mem_cons] at h
    rcases h with rfl | h
    · exact List.IsPrefix.isInfix (List.prefix_append _ _)
    · exact (ih h).trans ⟨line ++ ['\r', '\n'], [], by simp⟩
  | case4 line c cs hcr hbreak ih =>
    rw [splitlinesFrom.eq_3 _ _ _ hcr, if_pos hbreak, List.mem_cons] at h
    rcases h with rfl | h
    · exact List.IsPrefix.isInfix (List.prefix_append _ _)
    · exact (ih h).trans ⟨line ++ [c], [], by simp⟩
  | case5 line c cs hcr hbreak ih =>
    rw [splitlinesFrom.eq_3 _ _ _ hcr, if_neg hbreak] at h
    simpa using ih h

theorem splitlines_infix {s line : String} (h : line ∈ splitlines s) : line.toList <:+: s.toList := by
  obtain ⟨l, hl, rfl⟩ := List.mem_map.mp h
  simpa using splitlinesFrom_infix hl

/-- What reading as text makes of line endings: `\r\n` and `\r` become `\n`. -/
def newlinesList : List Char → List Char
  | [] => []
  | '\r' :: '\n' :: cs => '\n' :: newlinesList cs
  | c :: cs => (if c = '\r' then '\n' else c) :: newlinesList cs

attribute [local simp] newlinesList

def universalNewlines (s : String) : String := String.ofList (newlinesList s.toList)

theorem newlinesList_cons {c : Char} (hr : c ≠ '\r') (cs : List Char) :
    newlinesList (c :: cs) = c :: newlinesList cs := by
  rw [newlinesList, if_neg hr]
  rintro _ rfl
  exact absurd rfl hr

theorem newlinesList_append {c : Char} (hr : c ≠ '\r') (hn : c ≠ '\n') (xs ys : List Char) :
    newlinesList (xs ++ c :: ys) = newlinesList xs ++ c :: newlinesList ys := by
  induction xs using newlinesList.induct with
  | case1 => exact newlinesList_cons hr ys
  | case2 xs ih => simp [ih]
  | case3 x xs hne ih =>
    rw [List.cons_append, newlinesList.eq_3 x xs hne, newlinesList.eq_3, ih, List.cons_append]
    rintro cs rfl hcs
    cases xs with
    | nil => exact hn (List.cons.inj hcs).1
    | cons y xs => exact hne xs rfl (by rw [(List.cons.inj hcs).1])

theorem mem_of_mem_newlinesList {c : Char} (hn : c ≠ '\n') {cs : List Char} (h : c ∈ newlinesList cs) : c ∈ cs := by
  induction cs using newlinesList.induct with
  | case1 => exact h
  | case2 cs ih =>
    rw [newlinesList, List.mem_cons] at h
    rcases h with h | h
    · exact absurd h hn
    · exact List.mem_cons_of_mem _ (List.mem_cons_of_mem _ (ih h))
  | case3 x cs hne ih =>
    rw [newlinesList.eq_3 x cs hne, List.mem_cons] at h
    rcases h with h | h
    · split at h
      · exact absurd h hn
      · exact h ▸ List.mem_cons_self
    · exact List.mem_cons_of_mem _ (ih h)

theorem newlinesList_eq_self {cs : List Char} (h : '\r' ∉ cs) : newlinesList cs = cs := by
  induction cs with
  | nil => rfl
  | cons c cs ih =>
    rw [List.mem_cons, not_or] at h
    rw [newlinesList_cons (fun hc => h.1 hc.symm), ih h.2]

theorem newlinesList_ne_nil {cs : List Char} (h : cs ≠ []) : newlinesList cs ≠ [] := by
  cases cs using newlinesList.induct with
  | case1 => exact absurd rfl h
  | case2 cs => simp
  | case3 x cs hne => simp [newlinesList.eq_3 x cs hne]

theorem newlinesList_suffix {t s : List Char} (h : t <:+ s) : newlinesList t <:+ newlinesList s := by
  obtain ⟨pre, rfl⟩ := h
  induction pre with
  | nil => exact List.suffix_refl _
  | cons c pre ih =>
    refine ih.trans ?_
    rw [List.cons_append]
    generalize pre ++ t = s
    by_cases hc : ∃ cs, c = '\r' ∧ s = '\n' :: cs
    · obtain ⟨cs, rfl, rfl⟩ := hc
      rw [newlinesList_cons (by decide), newlinesList]
    · rw [newlinesList.eq_3 c s fun cs hc' hs => hc ⟨cs, hc', hs⟩]
      exact List.suffix_cons _ _

/-- `p` holds of what is left after dropping some of the first characters. -/
def anySuffix (p : List Char → Bool) : List Char → Bool
  | [] => p []
  | c :: cs => p (c :: cs) || anySuffix p cs

/-- `fnmatch.fnmatch(name, pattern)` on a host that keeps case, for patterns of `*` and literals. -/
def fnmatch : List Char → List Char → Bool
  | [], cs => cs.isEmpty
  | '*' :: pattern, cs => anySuffix (fnmatch pattern) cs
  | p :: pattern, c :: cs => decide (p = c) && fnmatch pattern cs
  | _ :: _, [] => false

theorem anySuffix_iff {p : List Char → Bool} {cs : List Char} :
    anySuffix p cs = true ↔ ∃ t, t <:+ cs ∧ p t = true := by
  induction cs with
  | nil => simp [anySuffix]
  | cons c cs ih =>
    rw [anySuffix, Bool.or_eq_true, ih]
    simp only [List.suffix_cons_iff, or_and_right, exists_or, exists_eq_left]

theorem fnmatch_newlinesList {pattern cs : List Char} (hr : '\r' ∉ pattern) (hn : '\n' ∉ pattern)
    (h : fnmatch pattern cs = true) : fnmatch pattern (newlinesList cs) = true := by
  induction pattern generalizing cs with
  | nil =>
    cases cs with
    | nil => rfl
    | cons c cs => cases h
  | cons p pattern ih =>
    rw [List.mem_cons, not_or] at hr hn
    by_cases hp : p = '*'
    · subst hp
      rw [fnmatch, anySuffix_iff] at h ⊢
      obtain ⟨t, ht, hmatch⟩ := h
      exact ⟨newlinesList t, newlinesList_suffix ht, ih hr.2 hn.2 hmatch⟩
    · cases cs with
      | nil => simp [fnmatch] at h
      | cons c cs =>
        rw [fnmatch.eq_3 _ _ _ _ hp, Bool.and_eq_true, decide_eq_true_eq] at h
        obtain ⟨rfl, hmatch⟩ := h
        rw [newlinesList_cons (fun h => hr.1 h.symm), fnmatch.eq_3 _ _ _ _ hp, Bool.and_eq_true]
        exact ⟨decide_eq_true rfl, ih hr.2 hn.2 hmatch⟩

def splitList (sep : Char) : List Char → List (List Char)
  | [] => [[]]
  | c :: cs =>
    if c = sep then [] :: splitList sep cs
    else
      match splitList sep cs with
      | [] => [[c]]
      | part :: parts => (c :: part) :: parts

def split (sep : Char) (s : String) : List String := (splitList sep s.toList).map String.ofList

def join (sep : Char) (parts : List String) : String := sep.toString.intercalate parts

def endsWith (s p : String) : Bool := p.toList.isSuffixOf s.toList

/-- `sep.join(parts[:i])` for every `i` in `range(1, len(parts))`. -/
def properPrefixes (sep : Char) (s : String) : List String :=
  let parts := split sep s
  (List.range (parts.length - 1)).map fun i => join sep (parts.take (i + 1))

/-- `Path(path).name`. -/
def baseName (path : String) : String := (split '/' path).getLastD ""

/-- `Path(path).parent.as_posix()`. -/
def dirName (path : String) : String :=
  match (split '/' path).dropLast with
  | [] => "."
  | parts => join '/' parts

def dirsAbove (path : String) : List String := properPrefixes '/' path

/-- `s.replace(old, new)` of one character. -/
def replaceChar (s : String) (old new : Char) : String :=
  String.ofList (s.toList.map fun c => if c = old then new else c)

/-- `s[:-n]`, for `0 < n`. -/
def dropEnd (n : Nat) (s : String) : String := String.ofList (s.toList.take (s.toList.length - n))

end Text

namespace Python

def encode (text : List Char) : List UInt8 := text.flatMap String.utf8EncodeChar

/-- None where Python raises a `UnicodeDecodeError`. -/
def decode (raw : List UInt8) : Option (List Char) := raw.toByteArray.utf8Decode?.map Array.toList

def decodeBelow (raw : List UInt8) : Nat → List Char
  | 0 => []
  | n + 1 => (decode (raw.take (n + 1))).getD (decodeBelow raw n)

theorem encode_toByteArray (text : List Char) : (encode text).toByteArray = text.utf8Encode := rfl

theorem encode_of_decode {raw : List UInt8} {text : List Char} (h : decode raw = some text) : encode text = raw := by
  unfold decode at h
  obtain ⟨chars, hchars, rfl⟩ := Option.map_eq_some_iff.mp h
  have hsome : raw.toByteArray.utf8Decode?.isSome := by rw [hchars]; rfl
  have hbytes := ByteArray.utf8Encode_get_utf8Decode? (h := hsome)
  rw [← encode_toByteArray, List.toByteArray_inj] at hbytes
  rw [← hbytes]
  simp only [hchars, Option.get_some]

theorem prefix_of_decode {text cut : List Char} {n : Nat} (h : decode ((encode text).take n) = some cut) :
    cut <+: text := by
  have hcut := encode_of_decode h
  refine List.isPrefix_of_utf8Encode_append_eq_utf8Encode ((encode text).drop n).toByteArray ?_
  rw [← encode_toByteArray, ← encode_toByteArray, hcut, ← List.toByteArray_append, List.take_append_drop]

theorem decodeBelow_spec (text : List Char) (n : Nat) :
    decodeBelow (encode text) n <+: text ∧ (encode (decodeBelow (encode text) n)).length ≤ n := by
  induction n with
  | zero => exact ⟨List.nil_prefix, Nat.le_refl 0⟩
  | succ n ih =>
    rw [decodeBelow]
    cases hcut : decode ((encode text).take (n + 1)) with
    | none => exact ⟨ih.1, Nat.le_succ_of_le ih.2⟩
    | some cut =>
      rw [Option.getD_some, encode_of_decode hcut, List.length_take]
      exact ⟨prefix_of_decode hcut, Nat.min_le_left ..⟩

end Python
end DarkFactory
