import Mathlib.Data.List.Infix
import NetHop.Text

/-!
# Lines of words

Text made of words with a space between them, and the searches that recognise such
text again: a text inside a line, the words of a line, the first line of a kind.
-/

namespace NetHop.Words

open Text List

/-- `u8::is_ascii_whitespace`. -/
def isSpace (c : Char) : Bool :=
  c == ' ' || c == '\t' || c == '\n' || c == '\x0c' || c == '\r'

/-- A text that stays in one piece when a line is split into words. -/
def isWord (w : String) : Bool := !w.toList.isEmpty && w.toList.all fun c => !isSpace c

/-- The words of a text that follows the begin of a word. -/
def splitFrom (begun : List Char) : List Char → List String
  | [] => if begun.isEmpty then [] else [String.ofList begun]
  | c :: t =>
    if isSpace c then
      if begun.isEmpty then splitFrom [] t else String.ofList begun :: splitFrom [] t
    else splitFrom (begun ++ [c]) t

/-- `str::split_ascii_whitespace`. -/
def split (t : String) : List String := splitFrom [] t.toList

def join (words : List String) : String := " ".intercalate words

def contains (t needle : String) : Bool := decide (needle.toList <:+: t.toList)

def endsWith (t back : String) : Bool := back.toList.isSuffixOf t.toList

def splitOnce (c : Char) (t : List Char) : Option (List Char × List Char) :=
  match t.dropWhile (· != c) with
  | [] => none
  | _ :: back => some (t.takeWhile (· != c), back)

/-- `windows(2)`. -/
def pairs {α : Type} (l : List α) : List (α × α) := l.zip l.tail

/-- The number of lines of a text before the first place where another text begins. -/
def linesBefore (needle : String) : List String → Option Nat
  | [] => none
  | line :: lines =>
    if startsWith line needle then some 0
    -- the piece of the line before the place is a line too
    else if contains line needle then some 1
    else (linesBefore needle lines).map (· + 1)

/-! ## Words -/

section

variable {w : String} {words : List String} {t : List Char}

theorem isWord_iff : isWord w = true ↔ w.toList ≠ [] ∧ ∀ c ∈ w.toList, isSpace c = false := by
  simp [isWord]

theorem splitFrom_append {w begun : List Char} (h : ∀ c ∈ w, isSpace c = false) :
    splitFrom begun (w ++ t) = splitFrom (begun ++ w) t := by
  induction w generalizing begun with
  | nil => rw [nil_append, append_nil]
  | cons c w ih =>
    rw [forall_mem_cons] at h
    rw [cons_append, splitFrom, h.1]
    change splitFrom (begun ++ [c]) (w ++ t) = _
    rw [ih h.2, append_assoc, singleton_append]

variable {c : Char}

theorem splitFrom_word (h : isWord w = true) (hc : isSpace c = true) :
    splitFrom [] (w.toList ++ c :: t) = w :: splitFrom [] t := by
  obtain ⟨hne, hspace⟩ := isWord_iff.mp h
  rw [splitFrom_append hspace, splitFrom, hc]
  simp [List.isEmpty_iff, hne]

theorem splitFrom_last (h : isWord w = true) : splitFrom [] w.toList = [w] := by
  obtain ⟨hne, hspace⟩ := isWord_iff.mp h
  have happend : splitFrom [] (w.toList ++ []) = splitFrom ([] ++ w.toList) [] :=
    splitFrom_append hspace
  rw [append_nil] at happend
  rw [happend, splitFrom]
  simp [List.isEmpty_iff, hne]

theorem join_cons_cons (w v : String) (words : List String) :
    (join (w :: v :: words)).toList = w.toList ++ ' ' :: (join (v :: words)).toList := by
  unfold join
  simp

theorem join_singleton (w : String) : (join [w]).toList = w.toList := by
  unfold join
  simp

theorem split_join_cons (h : isWord w = true) :
    split (join (w :: words)) = w :: split (join words) := by
  unfold split
  cases words with
  | nil =>
    rw [join_singleton, splitFrom_last h]
    rfl
  | cons v words => rw [join_cons_cons, splitFrom_word h (by decide)]

theorem split_join (h : ∀ w ∈ words, isWord w = true) : split (join words) = words := by
  induction words with
  | nil => rfl
  | cons w words ih =>
    rw [forall_mem_cons] at h
    rw [split_join_cons h.1, ih h.2]

theorem mem_join (hc : c ≠ ' ') (h : c ∈ (join words).toList) : ∃ w ∈ words, c ∈ w.toList := by
  induction words with
  | nil => cases h
  | cons w words ih =>
    cases words with
    | nil =>
      exact ⟨w, mem_singleton.mpr rfl, h⟩
    | cons v words =>
      rw [join_cons_cons, mem_append, mem_cons] at h
      rcases h with h | rfl | h
      · exact ⟨w, mem_cons_self, h⟩
      · exact absurd rfl hc
      · obtain ⟨u, hu, hmem⟩ := ih h
        exact ⟨u, mem_cons_of_mem _ hu, hmem⟩

variable {front back : List Char}

theorem splitOnce_append (h : c ∉ front) :
    splitOnce c (front ++ c :: back) = some (front, back) := by
  have hfront : ∀ d ∈ front, (d != c) = true := fun d hd => bne_iff_ne.mpr fun heq => h (heq ▸ hd)
  unfold splitOnce
  rw [dropWhile_append_of_pos hfront, takeWhile_append_of_pos hfront]
  simp

theorem splitOnce_eq_some (h : splitOnce c t = some (front, back)) : t = front ++ c :: back := by
  unfold splitOnce at h
  split at h
  · cases h
  next d rest hrest =>
    cases h
    have hd := head?_dropWhile_not (· != c) t
    rw [hrest] at hd
    have hsame : d = c := by simpa using hd
    rw [hsame] at hrest
    rw [← hrest, takeWhile_append_dropWhile]

theorem not_mem_of_mem_splitOn {piece : List Char} (h : piece ∈ t.splitOn c) : c ∉ piece := by
  induction t generalizing piece with
  | nil =>
    rw [splitOn_nil, mem_singleton] at h
    rw [h]
    exact not_mem_nil
  | cons d t ih =>
    rw [splitOn_cons_eq_if_modifyHead] at h
    split at h
    · rcases mem_cons.mp h with rfl | h
      · exact not_mem_nil
      · exact ih h
    next hne =>
      obtain ⟨first, rest, hsplit⟩ := exists_cons_of_ne_nil (splitOn_ne_nil c t)
      rw [hsplit, modifyHead_cons, mem_cons] at h
      rcases h with rfl | h
      · have hfirst : c ∉ first := ih (hsplit ▸ mem_cons_self)
        rw [mem_cons, not_or]
        exact ⟨fun heq => hne (beq_iff_eq.mpr heq.symm), hfirst⟩
      · exact ih (hsplit ▸ mem_cons_of_mem _ h)

/-! ## Searching -/

theorem join_append {words' : List String} (h : words ≠ []) (h' : words' ≠ []) :
    (join (words ++ words')).toList = (join words).toList ++ ' ' :: (join words').toList := by
  induction words with
  | nil => exact absurd rfl h
  | cons w words ih =>
    cases words with
    | nil =>
      obtain ⟨v, rest, rfl⟩ := exists_cons_of_ne_nil h'
      rw [singleton_append, join_cons_cons, join_singleton]
    | cons v words =>
      rw [cons_append, cons_append, join_cons_cons, join_cons_cons,
        ← cons_append, ih (cons_ne_nil _ _), append_assoc, cons_append]

variable {line needle : String}

theorem contains_iff : contains line needle = true ↔ needle.toList <:+: line.toList := by
  unfold contains
  rw [decide_eq_true_eq]

theorem contains_eq_false (hneedle : c ∈ needle.toList) (hline : c ∉ line.toList) :
    contains line needle = false := by
  rw [← Bool.not_eq_true, contains_iff]
  exact fun hinside => hline (hinside.subset hneedle)

theorem startsWith_iff : startsWith line needle = true ↔ needle.toList <+: line.toList :=
  isPrefixOf_iff_prefix

theorem contains_join_middle {front middle back : List String} (hfront : front ≠ [])
    (hmiddle : middle ≠ []) (hback : back ≠ []) :
    contains (join (front ++ middle ++ back)) (" " ++ join middle ++ " ") = true := by
  rw [contains_iff, join_append (by simp [hfront]) hback, join_append hfront hmiddle]
  exact ⟨(join front).toList, (join back).toList, by simp⟩

theorem contains_join_left {rest : List String}
    (h : contains (join words) needle = true) : contains (join (words ++ rest)) needle = true := by
  refine contains_iff.mpr ((contains_iff.mp h).trans ?_)
  cases rest with
  | nil => rw [append_nil]
  | cons w rest =>
    cases words with
    | nil => exact nil_infix
    | cons v words =>
      rw [join_append (cons_ne_nil _ _) (cons_ne_nil _ _)]
      exact (prefix_append _ _).isInfix

variable {front back : List String}

theorem endsWith_join (hfront : front ≠ []) (hback : back ≠ []) :
    endsWith (join (front ++ back)) (" " ++ join back) = true := by
  unfold endsWith
  rw [isSuffixOf_iff_suffix, join_append hfront hback]
  exact ⟨(join front).toList, by simp⟩

theorem endsWith_iff : endsWith line needle = true ↔ needle.toList <:+ line.toList := by
  unfold endsWith
  rw [isSuffixOf_iff_suffix]

theorem contains_of_endsWith (h : endsWith line needle = true) : contains line needle = true :=
  contains_iff.mpr (endsWith_iff.mp h).isInfix

theorem endsWith_eq_false {other : String} (h : endsWith line other = true)
    (hother : other.toList ≠ []) (hneedle : needle.toList ≠ [])
    (hne : other.toList.getLast? ≠ needle.toList.getLast?) : endsWith line needle = false := by
  rw [← Bool.not_eq_true]
  intro hend
  obtain ⟨front, hfront⟩ := endsWith_iff.mp h
  obtain ⟨front', hfront'⟩ := endsWith_iff.mp hend
  refine hne ?_
  rw [← getLast?_append_of_ne_nil front hother, hfront,
    ← getLast?_append_of_ne_nil front' hneedle, hfront']

theorem startsWith_join (hfront : front ≠ []) (hback : back ≠ []) :
    startsWith (join (front ++ back)) (join front ++ " ") = true := by
  rw [startsWith_iff, join_append hfront hback]
  exact ⟨(join back).toList, by simp⟩

section

variable {front : List String} (hne : front ≠ []) (h : ∀ w ∈ front, isWord w = true)

include hne h

theorem splitFrom_join :
    splitFrom [] ((join front).toList ++ ' ' :: t) = front ++ splitFrom [] t := by
  induction front with
  | nil => exact absurd rfl hne
  | cons w front ih =>
    rw [forall_mem_cons] at h
    cases front with
    | nil => rw [join_singleton, splitFrom_word h.1 (by decide), singleton_append]
    | cons v front =>
      rw [join_cons_cons, append_assoc, cons_append,
        splitFrom_word h.1 (by decide), ih (cons_ne_nil _ _) h.2]
      rfl

theorem take_split_of_startsWith (hstart : startsWith line (join front ++ " ") = true) :
    (split line).take front.length = front := by
  obtain ⟨rest, hrest⟩ := startsWith_iff.mp hstart
  have hline : line.toList = (join front).toList ++ ' ' :: rest := by
    rw [← hrest, String.toList_append, append_assoc]
    rfl
  unfold split
  rw [hline, splitFrom_join hne h, take_left]

end

theorem head_split (hc : isSpace c = false) (hline : line.toList.head? = some c) :
    ∃ w rest, split line = w :: rest ∧ w.toList.head? = some c := by
  obtain ⟨t, ht⟩ := head?_eq_some_iff.mp hline
  have hbegun : ∀ begun : List Char, ∃ w rest, splitFrom (c :: begun) t = w :: rest ∧
      w.toList.head? = some c := by
    clear hline ht
    induction t with
    | nil => exact fun begun => ⟨_, [], rfl, by simp⟩
    | cons d t ih =>
      intro begun
      rw [splitFrom]
      by_cases hd : isSpace d = true
      · rw [if_pos hd]
        exact ⟨_, _, rfl, by simp⟩
      · rw [if_neg hd]
        exact ih (begun ++ [d])
  unfold split
  rw [ht, splitFrom, hc]
  exact hbegun []

/-! ## First lines -/

section

variable {α : Type} {p : α → Bool} {x : α} {front back : List α}

theorem exists_findIdx?_lt (hx : x ∈ front) (hp : p x = true) :
    ∃ i < front.length, (front ++ back).findIdx? p = some i := by
  have hsome : (front.findIdx? p).isSome = true := by
    rw [findIdx?_isSome, any_eq_true]
    exact ⟨x, hx, hp⟩
  obtain ⟨i, hi⟩ := Option.isSome_iff_exists.mp hsome
  refine ⟨i, (findIdx?_eq_some_iff_findIdx_eq.mp hi).1, ?_⟩
  rw [findIdx?_append, hi]
  rfl

theorem exists_le_findIdx? (hfront : ∀ y ∈ front, p y = false) (hx : x ∈ back) (hp : p x = true) :
    ∃ i, front.length ≤ i ∧ (front ++ back).findIdx? p = some i := by
  have hnone : front.findIdx? p = none := findIdx?_eq_none_iff.mpr hfront
  have hsome : (back.findIdx? p).isSome = true := by
    rw [findIdx?_isSome, any_eq_true]
    exact ⟨x, hx, hp⟩
  obtain ⟨i, hi⟩ := Option.isSome_iff_exists.mp hsome
  refine ⟨i + front.length, Nat.le_add_left _ _, ?_⟩
  rw [findIdx?_append, hnone, hi]
  rfl

end

theorem exists_linesBefore_lt (hline : line ∈ front) (hstart : startsWith line needle = true) :
    ∃ i < front.length, linesBefore needle (front ++ back) = some i := by
  induction front with
  | nil => cases hline
  | cons first front ih =>
    rw [cons_append, linesBefore, length_cons]
    by_cases hfirst : startsWith first needle = true
    · rw [if_pos hfirst]
      exact ⟨0, Nat.zero_lt_succ _, rfl⟩
    · rw [if_neg hfirst]
      have hline : line ∈ front := by
        rcases mem_cons.mp hline with rfl | hline
        · exact absurd hstart hfirst
        · exact hline
      obtain ⟨i, hi, heq⟩ := ih hline
      by_cases hcontains : contains first needle = true
      · rw [if_pos hcontains]
        exact ⟨1, by omega, rfl⟩
      · rw [if_neg hcontains, heq]
        exact ⟨i + 1, by omega, rfl⟩

end

end NetHop.Words
