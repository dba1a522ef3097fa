import PulseMill.Listing
import PulseMill.Proofs.Numerals
import PulseMill.Proofs.Spelling
set_option autoImplicit false

namespace PulseMill.Text

/-- There is a blank at neither end, and something in between. -/
structure Tight (cs : List Char) : Prop where
  first : ∃ c ∈ cs.head?, isBlank c = false
  last : ∃ c ∈ cs.getLast?, isBlank c = false

/-- What can stand between two commas and is kept as it is. -/
structure Word (cs : List Char) : Prop where
  tight : Tight cs
  plain : ∀ c ∈ cs, c ≠ ',' ∧ c ≠ ';' ∧ c ≠ '\n'

variable {cs ds sep text line piece : List Char} {words ls : List (List Char)}

theorem tight_iff : Tight cs ↔ cs ≠ [] ∧ trim cs = cs := by
  rw [← strips_iff]
  constructor
  · intro h
    obtain ⟨c, hc, hfirst⟩ := h.first
    obtain ⟨d, hd, hlast⟩ := h.last
    refine ⟨?_, ⟨⟨[], [], by simp, by simp⟩, fun c' hc' => ?_, fun d' hd' => ?_⟩⟩
    · rintro rfl
      cases hc
    · rwa [Option.mem_unique hc' hc]
    · rwa [Option.mem_unique hd' hd]
  · intro hgiven
    obtain ⟨hne, hstrips⟩ := hgiven
    have hhead := List.head?_eq_some_head hne
    have hlast := List.getLast?_eq_some_getLast hne
    exact ⟨⟨_, hhead, hstrips.first _ hhead⟩, ⟨_, hlast, hstrips.last _ hlast⟩⟩

theorem Tight.append (h : Tight cs) (k : Tight ds) : Tight (cs ++ sep ++ ds) where
  first := by
    obtain ⟨c, hc, hblank⟩ := h.first
    refine ⟨c, ?_, hblank⟩
    rw [List.append_assoc, List.head?_append, Option.mem_def.1 hc]
    rfl
  last := by
    obtain ⟨c, hc, hblank⟩ := k.last
    refine ⟨c, ?_, hblank⟩
    rw [List.getLast?_append, Option.mem_def.1 hc]
    rfl

theorem tight_intercalate (hne : words ≠ []) (h : ∀ w ∈ words, Tight w) :
    Tight (sep.intercalate words) := by
  induction words with
  | nil => exact absurd rfl hne
  | cons w words ih =>
    obtain ⟨hfirst, hmore⟩ := List.forall_mem_cons.1 h
    cases words with
    | nil => rwa [List.intercalate_singleton]
    | cons w' words =>
      rw [List.intercalate_cons_cons]
      exact hfirst.append (ih (by simp) hmore)

theorem isBlank_of_isAlphanum {c : Char} (h : c.isAlphanum) : isBlank c = false := by
  have hrange : 48 ≤ c.toNat ∧ c.toNat ≤ 122 := by
    have hranges : (decide (65 ≤ c.val ∧ c.val ≤ 90) || 97 ≤ c.val && c.val ≤ 122 ||
        48 ≤ c.val && c.val ≤ 57) = true := h
    simp only [Bool.or_eq_true, Bool.and_eq_true, decide_eq_true_eq, UInt32.le_iff_toNat_le,
      UInt32.reduceToNat] at hranges
    have hcode : c.val.toNat = c.toNat := rfl
    omega
  simp only [isBlank]
  generalize c.toNat = n at hrange
  simp
  omega

theorem word_of_isAlphanum (hne : cs ≠ []) (h : ∀ c ∈ cs, c.isAlphanum) : Word cs where
  tight := by
    have hhead := List.head?_eq_some_head hne
    have hlast := List.getLast?_eq_some_getLast hne
    exact ⟨⟨_, hhead, isBlank_of_isAlphanum (h _ (List.mem_of_mem_head? hhead))⟩,
      ⟨_, hlast, isBlank_of_isAlphanum (h _ (List.mem_of_mem_getLast? hlast))⟩⟩
  plain c hc := by
    have hletter := h c hc
    refine ⟨?_, ?_, ?_⟩ <;> rintro rfl <;> cases hletter

theorem word_toDigits (n : Nat) : Word (Nat.toDigits 10 n) := by
  refine word_of_isAlphanum Nat.toDigits_ne_nil fun c hc => ?_
  have hdigit := Nat.isDigit_of_mem_toDigits (by decide) (by decide) hc
  simp [Char.isAlphanum, hdigit]

theorem intercalate_comma_blank (w : List Char) (words : List (List Char)) :
    [',', ' '].intercalate (w :: words) = [','].intercalate (w :: words.map (' ' :: ·)) := by
  induction words generalizing w with
  | nil => simp
  | cons w' words ih => simp [ih w']

theorem mem_intercalate {c : Char} (h : c ∈ sep.intercalate words) :
    c ∈ sep ∨ ∃ w ∈ words, c ∈ w := by
  induction words with
  | nil => cases h
  | cons w words ih =>
    cases words with
    | nil => exact .inr ⟨w, List.mem_singleton_self w, by simpa using h⟩
    | cons w' words =>
      rw [List.intercalate_cons_cons, List.mem_append, List.mem_append] at h
      rcases h with (h | h) | h
      · exact .inr ⟨w, List.mem_cons_self .., h⟩
      · exact .inl h
      · exact (ih h).imp_right fun hgiven => by
          obtain ⟨w, hw, hc⟩ := hgiven
          exact ⟨w, List.mem_cons_of_mem _ hw, hc⟩

theorem tokens_intercalate (hne : words ≠ []) (h : ∀ w ∈ words, Word w) :
    tokens ([',', ' '].intercalate words) = words := by
  obtain ⟨w, words, rfl⟩ := List.exists_cons_of_ne_nil hne
  have htight : Tight ([',', ' '].intercalate (w :: words)) :=
    tight_intercalate hne fun w hw => (h w hw).tight
  obtain ⟨hsome, htrim⟩ := tight_iff.1 htight
  have hcode : ';' ∉ [',', ' '].intercalate (w :: words) := by
    intro hmem
    rcases mem_intercalate hmem with hsep | ⟨w, hw, hmem⟩
    · simp at hsep
    · exact ((h w hw).plain _ hmem).2.1 rfl
  have hcomma (w' : List Char) (hw : w' ∈ w :: words) : ',' ∉ w' :=
    fun hmem => ((h w' hw).plain _ hmem).1 rfl
  have htrims (w' : List Char) (hw : w' ∈ w :: words) : trim w' = w' :=
    (tight_iff.1 (h w' hw).tight).2
  refine spells_iff.1 ⟨_, [], _, (List.append_nil _).symm, hcode, nofun, strips_iff.2 htrim,
    .inr ⟨hsome, _, ⟨List.cons_ne_nil _ _, ?_, intercalate_comma_blank w words⟩, ?_⟩⟩
  · refine List.forall_mem_cons.2 ⟨hcomma w (List.mem_cons_self ..), List.forall_mem_map.2 ?_⟩
    intro w' hw hmem
    exact hcomma w' (List.mem_cons_of_mem _ hw) (by simpa using hmem)
  · have hpieces : words.map (trim ∘ fun w' => ' ' :: w') = words.map id :=
      List.map_congr_left fun w' hw => htrims w' (List.mem_cons_of_mem _ hw)
    rw [forall₂_strips_iff, List.map_cons, List.map_map, htrims w (List.mem_cons_self ..), hpieces,
      List.map_id]

theorem intercalate_append_nil (ls : List (List Char)) :
    ['\n'].intercalate (ls ++ [[]]) = ls.flatMap (· ++ ['\n']) := by
  induction ls with
  | nil => rfl
  | cons l ls ih =>
    rw [List.cons_append, List.intercalate_cons_of_ne_nil (by simp), ih, List.flatMap_cons]

theorem withoutReturn_of_tight (h : Tight line) : withoutReturn line = line := by
  obtain ⟨c, hc, hblank⟩ := h.last
  have hne : line.getLast? ≠ some '\r' := by
    rw [Option.mem_def.1 hc]
    rintro heq
    cases heq
    cases hblank
  exact if_neg hne

theorem lines_flatMap (h : ∀ l ∈ ls, Tight l ∧ '\n' ∉ l) :
    lines (ls.flatMap (· ++ ['\n'])) = ls := by
  have hfeed : ∀ l ∈ ls ++ [[]], '\n' ∉ l :=
    List.forall_mem_append.2 ⟨fun l hl => (h l hl).2, by simp⟩
  have hreturn : ls.map withoutReturn = ls.map id :=
    List.map_congr_left fun l hl => withoutReturn_of_tight (h l hl).1
  rw [← intercalate_append_nil, lines, List.splitOn_intercalate _ hfeed (by simp)]
  simp [hreturn]

theorem infix_intercalate (h : piece ∈ words) : piece <:+: sep.intercalate words := by
  induction words with
  | nil => cases h
  | cons w words ih =>
    cases words with
    | nil =>
      obtain rfl := List.mem_singleton.1 h
      exact ⟨[], [], by simp⟩
    | cons w' words =>
      rw [List.intercalate_cons_cons]
      rcases List.mem_cons.1 h with rfl | h
      · exact ⟨[], _, by rw [List.nil_append, List.append_assoc]⟩
      · exact (ih h).trans (List.suffix_append _ _).isInfix

theorem infix_of_mem_splitOn {d : Char} (h : piece ∈ text.splitOn d) : piece <:+: text := by
  have hpart : piece <:+: [d].intercalate (text.splitOn d) := infix_intercalate h
  rwa [List.intercalate_splitOn] at hpart

theorem Strips.isInfix (h : Strips text cs) : cs <:+: text := by
  obtain ⟨before, after, hparts, -⟩ := h.parts
  exact ⟨before, after, hparts.symm⟩

theorem word_of_mem_tokens (h : cs ∈ tokens line) (hne : cs ≠ []) (hline : '\n' ∉ line) :
    Word cs ∧ cs <:+: line := by
  obtain ⟨code, comment, body, rfl, hcode, -, hbody, hsaid⟩ := spells_iff.2 (rfl : tokens line = _)
  -- Neither a comma nor a semicolon is left where the line has been cut at both.
  rcases hsaid with ⟨-, hnil⟩ | ⟨-, pieces, hcuts, htokens⟩
  · rw [hnil] at h
    cases h
  · obtain ⟨piece, hpiece, hstrips⟩ : ∃ piece ∈ pieces, Strips piece cs := by
      rw [forall₂_strips_iff] at htokens
      rw [← htokens] at h
      obtain ⟨piece, hpiece, rfl⟩ := List.mem_map.1 h
      exact ⟨piece, hpiece, strips_trim piece⟩
    have hpart : piece <:+: body := hcuts.joined ▸ infix_intercalate hpiece
    have hincode : cs <:+: code := hstrips.isInfix.trans (hpart.trans hbody.isInfix)
    have hinline : cs <:+: code ++ comment := hincode.trans (List.prefix_append _ _).isInfix
    have hhead := List.head?_eq_some_head hne
    have hlast := List.getLast?_eq_some_getLast hne
    refine ⟨⟨⟨⟨_, hhead, hstrips.first _ hhead⟩, ⟨_, hlast, hstrips.last _ hlast⟩⟩, ?_⟩, hinline⟩
    refine fun c hc => ⟨?_, ?_, ?_⟩ <;> rintro rfl
    · exact hcuts.no_comma piece hpiece (hstrips.isInfix.subset hc)
    · exact hcode (hincode.subset hc)
    · exact hline (hinline.subset hc)

theorem infix_of_mem_lines (h : line ∈ lines text) : line <:+: text ∧ '\n' ∉ line := by
  obtain ⟨piece, hpiece, hpart⟩ : ∃ piece ∈ text.splitOn '\n', line <:+: piece := by
    have hfinished : line ∈ (text.splitOn '\n').dropLast.map withoutReturn →
        ∃ piece ∈ text.splitOn '\n', line <:+: piece := by
      intro hgiven
      obtain ⟨piece, hpiece, rfl⟩ := List.mem_map.1 hgiven
      refine ⟨piece, List.dropLast_subset _ hpiece, ?_⟩
      unfold withoutReturn
      split
      · exact (List.dropLast_prefix piece).isInfix
      · exact List.infix_rfl
    unfold lines at h
    dsimp only at h
    split at h
    · exact hfinished h
    · exact hfinished h
    case h_3 rest _ hrest =>
      rcases List.mem_append.1 h with h | h
      · exact hfinished h
      · rw [List.mem_singleton.1 h]
        exact ⟨rest, List.mem_of_mem_getLast? hrest, List.infix_rfl⟩
  exact ⟨hpart.trans (infix_of_mem_splitOn hpiece),
    fun hmem => not_mem_of_mem_splitOn hpiece (hpart.subset hmem)⟩

end PulseMill.Text

namespace PulseMill

def IsWord (s : String) : Prop := Text.Word s.toList

theorem isWord_of_isAlphanum {s : String} (hne : s.toList ≠ [])
    (h : s.toList.all Char.isAlphanum) : IsWord s :=
  Text.word_of_isAlphanum hne (List.all_eq_true.1 h)

theorem isWord_repr (n : Nat) : IsWord n.repr := by
  rw [IsWord, Nat.toList_repr]
  exact Text.word_toDigits n

theorem Assembly.readNumber_repr (w : UInt32) : readNumber (some w.toNat.repr) = .ok w := by
  rw [readNumber, Nat.toList_repr, (Text.tight_iff.1 (Text.word_toDigits _).tight).2]
  exact readNumeral_toDigits w

theorem utf8ByteSize_le_of_infix {s t : String} (h : s.toList <:+: t.toList) :
    s.utf8ByteSize ≤ t.utf8ByteSize := by
  obtain ⟨before, after, h⟩ := h
  have hjoined : t = .ofList before ++ s ++ .ofList after := by
    rw [← String.toList_inj, ← h]
    simp
  rw [hjoined, String.utf8ByteSize_append, String.utf8ByteSize_append]
  omega

theorem isWord_of_mem_source {source line token : String} (hline : line ∈ sourceLines source)
    (htoken : token ∈ Assembler.tokensOf line) (hne : token ≠ "") :
    IsWord token ∧ token.utf8ByteSize ≤ source.utf8ByteSize := by
  obtain ⟨cs, hcs, rfl⟩ := List.mem_map.1 hline
  obtain ⟨hpart, hfeed⟩ := Text.infix_of_mem_lines hcs
  obtain ⟨ds, hds, rfl⟩ := List.mem_map.1 htoken
  rw [String.toList_ofList] at hds
  obtain ⟨hword, hintoken⟩ := Text.word_of_mem_tokens hds (by rintro rfl; exact hne rfl) hfeed
  refine ⟨?_, utf8ByteSize_le_of_infix ?_⟩
  · rwa [IsWord, String.toList_ofList]
  · rw [String.toList_ofList]
    exact hintoken.trans hpart

structure IsRow (row : List String) : Prop where
  ne_nil : row ≠ []
  words : ∀ token ∈ row, IsWord token

theorem toList_line (row : List String) :
    (Listing.line row).toList = [',', ' '].intercalate (row.map String.toList) :=
  String.toList_intercalate

variable {row : List String} {rows : List (List String)}

theorem IsRow.words_toList (h : IsRow row) : ∀ w ∈ row.map String.toList, Text.Word w :=
  List.forall_mem_map.2 h.words

theorem IsRow.tokensOf_line (h : IsRow row) : Assembler.tokensOf (Listing.line row) = row := by
  have hne : row.map String.toList ≠ [] := by simpa using h.ne_nil
  rw [Assembler.tokensOf, toList_line, Text.tokens_intercalate hne h.words_toList, List.map_map]
  simp

theorem IsRow.line_law (h : IsRow row) :
    Text.Tight (Listing.line row).toList ∧ '\n' ∉ (Listing.line row).toList := by
  rw [toList_line]
  refine ⟨Text.tight_intercalate (by simpa using h.ne_nil) fun w hw => (h.words_toList w hw).tight,
    fun hmem => ?_⟩
  rcases Text.mem_intercalate hmem with hsep | ⟨w, hw, hmem⟩
  · simp at hsep
  · exact ((h.words_toList w hw).plain _ hmem).2.2 rfl

theorem sourceLines_join (h : ∀ row ∈ rows, IsRow row) :
    sourceLines (String.join ((rows.map Listing.line).map (· ++ "\n"))) =
      rows.map Listing.line := by
  have hlines : ∀ l ∈ (rows.map Listing.line).map String.toList, Text.Tight l ∧ '\n' ∉ l :=
    List.forall_mem_map.2 (List.forall_mem_map.2 fun row hrow => (h row hrow).line_law)
  have htext : (String.join ((rows.map Listing.line).map (· ++ "\n"))).toList =
      ((rows.map Listing.line).map String.toList).flatMap (· ++ ['\n']) := by
    simp [String.toList_join, List.flatMap_map]
  rw [sourceLines, htext, Text.lines_flatMap hlines, List.map_map]
  simp

theorem tokensOf_sourceLines_join (h : ∀ row ∈ rows, IsRow row) :
    (sourceLines (String.join ((rows.map Listing.line).map (· ++ "\n")))).map Assembler.tokensOf =
      rows := by
  rw [sourceLines_join h, List.map_map]
  calc rows.map (Assembler.tokensOf ∘ Listing.line) = rows.map id :=
      List.map_congr_left fun row hrow => (h row hrow).tokensOf_line
    _ = rows := List.map_id rows

end PulseMill
