import Mathlib.Data.List.DropRight
import PulseMill.Assembly.Assembler
set_option autoImplicit false

namespace PulseMill.Text

/-- The body is the text without the blanks at both its ends. -/
structure Strips (text body : List Char) : Prop where
  parts : ∃ before after, text = before ++ body ++ after ∧ ∀ c ∈ before ++ after, isBlank c
  first : ∀ c ∈ body.head?, isBlank c = false
  last : ∀ c ∈ body.getLast?, isBlank c = false

theorem trimEnd_eq_rdropWhile (cs : List Char) : trimEnd cs = cs.rdropWhile isBlank := rfl

theorem trimStart_append {before cs : List Char} (h : ∀ c ∈ before, isBlank c) :
    trimStart (before ++ cs) = trimStart cs := List.dropWhile_append_of_pos h

theorem trimEnd_append {cs after : List Char} (h : ∀ c ∈ after, isBlank c) :
    trimEnd (cs ++ after) = trimEnd cs := by
  rw [trimEnd, List.reverse_append, List.dropWhile_append_of_pos (by simpa using h), trimEnd]

theorem trimEnd_eq_self {cs : List Char} (h : ∀ c ∈ cs.getLast?, isBlank c = false) :
    trimEnd cs = cs := by
  rw [trimEnd_eq_rdropWhile, List.rdropWhile_eq_self_iff]
  intro hne
  have hlast := h _ (List.getLast?_eq_some_getLast hne)
  simp [hlast]

theorem strips_trim (text : List Char) : Strips text (trim text) := by
  obtain ⟨after, hafter⟩ := List.rdropWhile_prefix isBlank (l := trimStart text)
  have hblank : ∀ c ∈ after, isBlank c := by
    have hsplit := List.rdropWhile_append_rtakeWhile (p := isBlank) (l := trimStart text)
    obtain rfl := List.append_cancel_left (hafter.trans hsplit.symm)
    exact fun c => List.mem_rtakeWhile_imp
  refine ⟨⟨text.takeWhile isBlank, after, ?_, ?_⟩, ?_, ?_⟩
  · rw [List.append_assoc, trim, trimEnd_eq_rdropWhile, hafter, trimStart,
      List.takeWhile_append_dropWhile]
  · intro c hc
    rcases List.mem_append.1 hc with hc | hc
    · exact List.mem_takeWhile_imp hc
    · exact hblank c hc
  · intro c hc
    have hstart : c ∈ (trimStart text).head? := by
      rw [← hafter, ← trimEnd_eq_rdropWhile, List.head?_append]
      exact Option.mem_def.2 (by rw [show trimEnd (trimStart text) = trim text from rfl, hc]; rfl)
    have hnot := List.head?_dropWhile_not isBlank text
    rw [show List.dropWhile isBlank text = trimStart text from rfl, hstart] at hnot
    exact hnot
  · intro c hc
    obtain ⟨hne, rfl⟩ := List.mem_getLast?_eq_getLast hc
    have hnot := List.rdropWhile_last_not isBlank (trimStart text) hne
    rwa [Bool.not_eq_true] at hnot

theorem strips_iff {text body : List Char} : Strips text body ↔ trim text = body := by
  constructor
  · intro h
    obtain ⟨before, after, rfl, hblank⟩ := h.parts
    obtain ⟨hbefore, hafter⟩ := List.forall_mem_append.1 hblank
    rw [trim, List.append_assoc, trimStart_append hbefore]
    cases body with
    | nil =>
      rw [List.nil_append, trimStart, List.dropWhile_eq_nil_iff.2 hafter]
      rfl
    | cons c body =>
      rw [List.cons_append, trimStart_cons (h.first c rfl), ← List.cons_append,
        trimEnd_append hafter, trimEnd_eq_self h.last]
  · intro hgiven
    obtain rfl := hgiven
    exact strips_trim text

/-- The text is cut at each of its commas. -/
structure Cuts (text : List Char) (pieces : List (List Char)) : Prop where
  some_piece : pieces ≠ []
  no_comma : ∀ piece ∈ pieces, ',' ∉ piece
  joined : text = [','].intercalate pieces

theorem not_mem_of_mem_splitOn {text piece : List Char} {d : Char} (h : piece ∈ text.splitOn d) :
    d ∉ piece := by
  induction text generalizing piece with
  | nil =>
    rw [List.splitOn_nil, List.mem_singleton] at h
    rw [h]
    exact List.not_mem_nil
  | cons c text ih =>
    rw [List.splitOn_cons_eq_if_modifyHead] at h
    split at h
    case isTrue =>
      rcases List.mem_cons.1 h with rfl | h
      · exact List.not_mem_nil
      · exact ih h
    case isFalse hc =>
      obtain ⟨first, more, hsplit⟩ := List.exists_cons_of_ne_nil (List.splitOn_ne_nil d text)
      rw [hsplit] at h ih
      rcases List.mem_cons.1 h with rfl | h
      · have hfirst := ih (List.mem_cons_self ..)
        rw [List.mem_cons, not_or]
        exact ⟨fun h => hc (beq_iff_eq.2 h.symm), hfirst⟩
      · exact ih (List.mem_cons_of_mem _ h)

theorem cuts_iff {text : List Char} {pieces : List (List Char)} :
    Cuts text pieces ↔ text.splitOn ',' = pieces := by
  constructor
  · intro h
    obtain ⟨hne, hcomma, rfl⟩ := h
    exact List.splitOn_intercalate ',' hcomma hne
  · intro h
    obtain rfl := h
    exact ⟨List.splitOn_ne_nil _ _, fun _ => not_mem_of_mem_splitOn,
      (List.intercalate_splitOn ',').symm⟩

/-- The tokens are what a line says. A semicolon starts a comment, which says nothing, and
neither does a blank line. -/
def Spells (line : List Char) (tokens : List (List Char)) : Prop :=
  ∃ code comment body, line = code ++ comment ∧ ';' ∉ code ∧ (∀ c ∈ comment.head?, c = ';') ∧
    Strips code body ∧
    (body = [] ∧ tokens = [] ∨
      body ≠ [] ∧ ∃ pieces, Cuts body pieces ∧ List.Forall₂ Strips pieces tokens)

theorem beforeComment_eq_iff {line code : List Char} :
    beforeComment line = code ↔
      ∃ comment, line = code ++ comment ∧ ';' ∉ code ∧ ∀ c ∈ comment.head?, c = ';' := by
  constructor
  · intro hgiven
    obtain rfl := hgiven
    refine ⟨line.dropWhile (· ≠ ';'), List.takeWhile_append_dropWhile.symm, ?_, ?_⟩
    · intro h
      simpa using List.mem_takeWhile_imp h
    · intro c hc
      have hnot := List.head?_dropWhile_not (· ≠ ';') line
      rw [hc] at hnot
      simpa using hnot
  · intro hgiven
    obtain ⟨comment, rfl, hcode, hcomment⟩ := hgiven
    rw [beforeComment, List.takeWhile_append_of_pos (by
      intro c hc
      simpa using fun h : c = ';' => hcode (h ▸ hc))]
    cases comment with
    | nil => simp
    | cons c comment => simp [hcomment c rfl]

theorem forall₂_strips_iff {pieces tokens : List (List Char)} :
    List.Forall₂ Strips pieces tokens ↔ pieces.map trim = tokens := by
  constructor
  · intro h
    induction h with
    | nil => rfl
    | cons hs _ ih => rw [List.map_cons, strips_iff.1 hs, ih]
  · intro hgiven
    obtain rfl := hgiven
    induction pieces with
    | nil => exact .nil
    | cons piece pieces ih => exact .cons (strips_trim piece) ih

theorem spells_iff {line : List Char} {words : List (List Char)} :
    Spells line words ↔ tokens line = words := by
  have hbody : trim (beforeComment line) = [] ↔ (trim (beforeComment line)).isEmpty := by simp
  constructor
  · intro h
    obtain ⟨code, comment, body, hline, hcode, hcomment, hstrips, hsaid⟩ := h
    obtain rfl := beforeComment_eq_iff.2 ⟨comment, hline, hcode, hcomment⟩
    obtain rfl := strips_iff.1 hstrips
    rcases hsaid with ⟨hnil, rfl⟩ | ⟨hne, pieces, hcuts, htokens⟩
    · simp [tokens, hnil]
    · rw [tokens, if_neg (by simpa using hne), cuts_iff.1 hcuts]
      exact forall₂_strips_iff.1 htokens
  · intro h
    obtain rfl := h
    obtain ⟨comment, hline, hcode, hcomment⟩ :=
      beforeComment_eq_iff.1 (rfl : _ = beforeComment line)
    refine ⟨_, comment, _, hline, hcode, hcomment, strips_trim _, ?_⟩
    by_cases hnil : trim (beforeComment line) = []
    · exact .inl ⟨hnil, by simp [tokens, hnil]⟩
    · refine .inr ⟨hnil, _, cuts_iff.2 rfl, forall₂_strips_iff.2 ?_⟩
      rw [tokens, if_neg (by simpa using hnil)]

end PulseMill.Text

namespace PulseMill.Assembler

theorem tokensOf_eq_iff {line : String} {row : List String} :
    tokensOf line = row ↔ Text.Spells line.toList (row.map String.toList) := by
  rw [Text.spells_iff, tokensOf]
  constructor
  · intro hgiven
    obtain rfl := hgiven
    simp
  · intro h
    rw [h]
    simp

end PulseMill.Assembler
