import ReactivePage.Replay.ScriptBlock
import Mathlib.Data.List.Infix

namespace ReactivePage

namespace Text

@[simp] theorem dropFolded?_map_foldCase (word rest : List Char) :
    dropFolded? (word.map foldCase) (word ++ rest) = some rest := by
  induction word with
  | nil => rfl
  | cons c word ih => simp [dropFolded?, ih]

theorem isPrefix_of_dropFolded? {word s t rest : List Char} {mark : Char}
    (hmark : foldCase mark ∉ word) (h : dropFolded? word (s ++ mark :: t) = some rest) :
    word <+: s.map foldCase := by
  induction word generalizing s with
  | nil => exact List.nil_prefix
  | cons c word ih =>
    cases s with
    | nil =>
      simp only [List.nil_append, dropFolded?] at h
      split at h
      · next heq => exact absurd (heq ▸ List.mem_cons_self) hmark
      · cases h
    | cons d s =>
      simp only [List.cons_append, dropFolded?] at h
      split at h
      · next heq =>
        rw [List.map_cons, ← heq, List.cons_prefix_cons]
        exact ⟨rfl, ih (fun hm => hmark (List.mem_cons_of_mem _ hm)) h⟩
      · cases h

end Text

namespace ScriptBlock

def openingMark : List Char := ['<', 's', 'c', 'r', 'i', 'p', 't']

def Unopened (s : List Char) : Prop := ¬openingMark <:+: s.map Text.foldCase

instance (s : List Char) : Decidable (Unopened s) :=
  inferInstanceAs (Decidable (¬openingMark <:+: s.map Text.foldCase))

theorem isOpening_of_unopened {s t : List Char} (h : Unopened s) (hs : s ≠ []) :
    isOpening (s ++ '<' :: t) = false := by
  cases s with
  | nil => exact absurd rfl hs
  | cons c s =>
    rw [List.cons_append, isOpening.eq_def]
    split
    · next rest heq =>
      cases heq
      split
      · next behind hd =>
        have hmark : Text.foldCase '<' ∉ ['s', 'c', 'r', 'i', 'p', 't'] := by decide
        have hprefix := Text.isPrefix_of_dropFolded? hmark hd
        have : openingMark <+: ('<' :: s).map Text.foldCase :=
          List.cons_prefix_cons.2 ⟨rfl, hprefix⟩
        exact absurd this.isInfix h
      · rfl
    · rfl

theorem Unopened.tail {c : Char} {s : List Char} (h : Unopened (c :: s)) : Unopened s :=
  fun hs => h (hs.trans (List.suffix_cons _ _).isInfix)

theorem behindTag?_of_unopened (folded : List Char) {s : List Char} (h : Unopened s)
    (before : Option Char) (t : List Char) :
    ∃ b, behindTag? folded false before (s ++ '<' :: t) = behindTag? folded false b ('<' :: t) := by
  induction s generalizing before with
  | nil => exact ⟨before, rfl⟩
  | cons c s ih =>
    have hclosed : isOpening (c :: (s ++ '<' :: t)) = false :=
      isOpening_of_unopened h (List.cons_ne_nil c s)
    obtain ⟨b, hb⟩ := ih h.tail (some c)
    refine ⟨b, ?_⟩
    rw [List.cons_append, behindTag?, hclosed]
    split <;> exact hb

def tagChars (scriptType : List Char) : List Char :=
  ['<', 's', 'c', 'r', 'i', 'p', 't', ' ', 't', 'y', 'p', 'e', '=', '"'] ++ scriptType ++ ['"', '>']

theorem dropAttribute?_of_foldCase_ne {folded : List Char} {before : Option Char} {c : Char}
    (h : 't' ≠ Text.foldCase c) (s : List Char) : dropAttribute? folded before (c :: s) = none := by
  simp [dropAttribute?, Text.dropFolded?, h]

theorem behindTag?_inside {folded : List Char} {before : Option Char} {c : Char} {s : List Char}
    (hc : c ≠ '>') (h : dropAttribute? folded before (c :: s) = none) :
    behindTag? folded true before (c :: s) = behindTag? folded true (some c) s := by
  simp [behindTag?, hc, h]

theorem dropAttribute?_attribute (scriptType t : List Char) :
    dropAttribute? (scriptType.map Text.foldCase) (some ' ')
      ('t' :: 'y' :: 'p' :: 'e' :: '=' :: '"' :: (scriptType ++ '"' :: t)) = some t := by
  have hword : Text.dropFolded? ['t', 'y', 'p', 'e']
      ('t' :: 'y' :: 'p' :: 'e' :: '=' :: '"' :: (scriptType ++ '"' :: t))
        = some ('=' :: '"' :: (scriptType ++ '"' :: t)) := rfl
  have hboundary : Text.isBoundary (some ' ') (some 't') = true := rfl
  have hequals : dropMark? (· = '=') ('=' :: '"' :: (scriptType ++ '"' :: t))
      = some ('"' :: (scriptType ++ '"' :: t)) := rfl
  have hquote : dropMark? isQuote ('"' :: (scriptType ++ '"' :: t))
      = some (scriptType ++ '"' :: t) := rfl
  simp [dropAttribute?, hword, hboundary, hequals, hquote, dropQuote?, isQuote]

theorem behindTag?_tagChars (scriptType : List Char) (before : Option Char) (t : List Char) :
    behindTag? (scriptType.map Text.foldCase) false before (tagChars scriptType ++ t) = some t := by
  have hopen : isOpening (tagChars scriptType ++ t) = true := rfl
  simp only [tagChars, List.cons_append, List.nil_append, List.append_assoc] at hopen ⊢
  rw [behindTag?, if_neg (by decide), hopen, if_pos (by rfl),
    dropAttribute?_of_foldCase_ne (by decide)]
  iterate 5 rw [behindTag?_inside (by decide) (dropAttribute?_of_foldCase_ne (by decide) _)]
  rw [behindTag?_inside (by decide) (by rfl),
    behindTag?_inside (by decide) (dropAttribute?_of_foldCase_ne (by decide) _), behindTag?,
    if_neg (by decide), if_pos (by rfl), dropAttribute?_attribute]
  rfl

@[simp] theorem escapeClosing_cons_of_ne {c : Char} (h : c ≠ '<') (s : List Char) :
    escapeClosing (c :: s) = c :: escapeClosing s := by
  cases s with
  | nil => rfl
  | cons d s => rw [escapeClosing, if_neg fun hc => h hc.1]

theorem escapeClosing_mark (s : List Char) :
    escapeClosing ('<' :: '/' :: s) = '<' :: '\\' :: '/' :: escapeClosing s := by
  rw [escapeClosing, if_pos ⟨rfl, rfl⟩]

theorem escapeClosing_cons_of_head {s : List Char} (h : s.head? ≠ some '/') (c : Char) :
    escapeClosing (c :: s) = c :: escapeClosing s := by
  cases s with
  | nil => rfl
  | cons d s => rw [escapeClosing, if_neg fun hd => h (by rw [hd.2, List.head?_cons])]

theorem head?_escapeClosing (s : List Char) : (escapeClosing s).head? = s.head? := by
  cases s with
  | nil => rfl
  | cons c s =>
    cases s with
    | nil => rfl
    | cons d s =>
      rw [escapeClosing]
      split
      · next h => rw [h.1, List.head?_cons, List.head?_cons]
      · rfl

theorem isClosing_of_head {s : List Char} (h : s.head? ≠ some '/') (c : Char) :
    isClosing (c :: s) = false := by
  rw [isClosing.eq_def]
  split
  · next heq =>
    cases heq
    exact absurd rfl h
  · rfl

theorem isClosing_of_ne {c : Char} (h : c ≠ '<') (s : List Char) : isClosing (c :: s) = false := by
  rw [isClosing.eq_def]
  split
  · next heq =>
    cases heq
    exact absurd rfl h
  · rfl

theorem body?_cons_of_not {c : Char} {s : List Char} (h : isClosing (c :: s) = false) :
    body? (c :: s) = (body? s).map (c :: ·) := by
  rw [body?, h]
  rfl

theorem body?_escapeClosing (s t : List Char) (h : isClosing ('<' :: t) = true) :
    body? (escapeClosing s ++ '<' :: t) = some (escapeClosing s) := by
  have hend : body? ('<' :: t) = some [] := by rw [body?, h, if_pos rfl]
  induction s using escapeClosing.induct with
  | case1 => exact hend
  | case2 c =>
    have hc : isClosing (c :: '<' :: t) = false := isClosing_of_head (by simp) c
    exact (body?_cons_of_not hc).trans (by rw [hend]; rfl)
  | case3 c d rest hmark ih =>
    obtain ⟨rfl, rfl⟩ := hmark
    simp only [escapeClosing_mark, List.cons_append]
    rw [body?_cons_of_not (isClosing_of_head (by simp) _),
      body?_cons_of_not (isClosing_of_ne (by decide) _),
      body?_cons_of_not (isClosing_of_ne (by decide) _), ih]
    rfl
  | case4 c d rest hmark ih =>
    have hc : isClosing (c :: (escapeClosing (d :: rest) ++ '<' :: t)) = false := by
      by_cases hlt : c = '<'
      · apply isClosing_of_head
        rw [List.head?_append, head?_escapeClosing, List.head?_cons]
        simpa using fun hd => hmark ⟨hlt, hd⟩
      · exact isClosing_of_ne hlt _
    rw [escapeClosing, if_neg hmark, List.cons_append, body?_cons_of_not hc, ih]
    rfl

theorem escapeQuotes_of_not_mem {s : List Char} (h : '"' ∉ s) : escapeQuotes s = s := by
  rw [escapeQuotes]
  induction s with
  | nil => rfl
  | cons c s ih =>
    rw [List.mem_cons, not_or] at h
    rw [List.flatMap_cons, if_neg (Ne.symm h.1), ih h.2]
    rfl

theorem toList_render (scriptType body : String) :
    (render scriptType body).toList
      = tagChars (escapeQuotes scriptType.toList) ++ (escapeClosing body.toList ++
          '<' :: ['/', 's', 'c', 'r', 'i', 'p', 't', '>']) := by
  -- `delta`, since the equation of `render` is slow to make
  delta render
  simp [tagChars]

theorem find?_render_of_behindTag? {scriptType before : String} (body behind : String)
    (hmatch : isMatchable scriptType = true) (hquote : '"' ∉ scriptType.toList)
    (hbehind : ∀ more, behindTag? (scriptType.toList.map Text.foldCase) false none
      (before.toList ++ tagChars scriptType.toList ++ more) = some more) :
    find? scriptType (before ++ render scriptType body ++ behind)
      = some (some (String.ofList (escapeClosing body.toList))) := by
  have hrender : (before ++ render scriptType body ++ behind).toList
      = before.toList ++ tagChars scriptType.toList ++ (escapeClosing body.toList ++
          '<' :: (['/', 's', 'c', 'r', 'i', 'p', 't', '>'] ++ behind.toList)) := by
    simp [toList_render, escapeQuotes_of_not_mem hquote]
  rw [find?, if_pos hmatch, findChars?, hrender]
  exact congrArg (fun x => some (Option.map String.ofList x))
    ((congrArg (· >>= body?) (hbehind _)).trans (body?_escapeClosing body.toList _ (by rfl)))

theorem find?_render {scriptType before : String} (body behind : String)
    (hmatch : isMatchable scriptType = true) (hquote : '"' ∉ scriptType.toList)
    (hbefore : Unopened before.toList) :
    find? scriptType (before ++ render scriptType body ++ behind)
      = some (some (String.ofList (escapeClosing body.toList))) := by
  refine find?_render_of_behindTag? body behind hmatch hquote fun more => ?_
  obtain ⟨b, hb⟩ := behindTag?_of_unopened (scriptType.toList.map Text.foldCase) hbefore none
    ((tagChars scriptType.toList).tail ++ more)
  rw [List.append_assoc]
  exact hb.trans (behindTag?_tagChars scriptType.toList b more)

end ScriptBlock

end ReactivePage
