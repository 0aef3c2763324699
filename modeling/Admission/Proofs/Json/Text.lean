import Admission.Proofs.Json.Word

/-!
# The text of a value spells the value

`Json.spell` says how the writer spells a value: its scalars as words, its texts piece by piece.  The text is cut into
the tokens of that spelling (`lexed`), and the machine makes the spelling of them again (`Spelling.parsed`).  Both go by
the value: behind a part of it stands a comma, the end of what it is a part of, or nothing, and each of these ends a
word (`CutInto`).

So every text that is written spells one value (`ofChars?_write`), whatever its numbers and however deep it is nested.
-/

namespace Admission.Json

/-! ## 1. How a value is spelled -/

/-- How a character is spelled: a control character that has no letter for its escape is a code unit. -/
def pieceOf (c : Char) : Piece :=
  if c.toNat < 0x20 ∧ c ∉ ['\x08', '\x0c', '\n', '\r', '\t'] then .unit c.toNat else .char c

/-- How a text is spelled. -/
def spellText (text : String) : List Piece := text.toList.map pieceOf

mutual

/-- **How a value is spelled.** -/
def spell : Json → Spelling
  | .str text => .text (spellText text)
  | .arr items => .arr (spellItems items)
  | .obj fields => .obj (spellFields fields)
  | value => .word (write value).toList

def spellItems : List Json → List Spelling
  | [] => []
  | item :: rest => spell item :: spellItems rest

def spellFields : List (String × Json) → List (List Piece × Spelling)
  | [] => []
  | (key, value) :: rest => (spellText key, spell value) :: spellFields rest

end

mutual

/-- The tokens of a spelling. -/
def Spelling.tokens : Spelling → List Token
  | .word chars => [.word chars]
  | .text pieces => [.text pieces]
  | .arr items => .beginArray :: ((itemTokens items).tail ++ [.endArray])
  | .obj fields => .beginObject :: ((fieldTokens fields).tail ++ [.endObject])

/-- The tokens of items, a comma before each. -/
def itemTokens : List Spelling → List Token
  | [] => []
  | item :: rest => .comma :: (item.tokens ++ itemTokens rest)

/-- The tokens of pairs, a comma before each. -/
def fieldTokens : List (List Piece × Spelling) → List Token
  | [] => []
  | (key, value) :: rest => .comma :: .text key :: .colon :: (value.tokens ++ fieldTokens rest)

end

/-- The characters of a pair. -/
def pairChars (pair : String × Json) : List Char := (quote pair.1).toList ++ ':' :: pair.2.write.toList

/-- The tokens of a pair. -/
def pairTokens (pair : String × Json) : List Token := .text (spellText pair.1) :: .colon :: pair.2.spell.tokens

theorem itemTokens_spellItems (items : List Json) :
    itemTokens (spellItems items) = items.flatMap fun item => .comma :: item.spell.tokens := by
  induction items with
  | nil => rfl
  | cons item rest ih => rw [spellItems, itemTokens, ih, List.flatMap_cons, List.cons_append]

theorem fieldTokens_spellFields (fields : List (String × Json)) :
    fieldTokens (spellFields fields) = fields.flatMap fun pair => .comma :: pairTokens pair := by
  induction fields with
  | nil => rfl
  | cons pair rest ih => rw [spellFields, fieldTokens, ih, List.flatMap_cons, pairTokens]; rfl

theorem toList_writeItems (items : List Json) :
    (writeItems items).toList = (items.flatMap fun item => ',' :: item.write.toList).tail := by
  induction items with
  | nil => rfl
  | cons item rest ih =>
    cases rest with
    | nil => simp [writeItems]
    | cons next rest =>
      rw [writeItems, String.toList_append, String.toList_append, ih]
      simp

theorem toList_writeFields (fields : List (String × Json)) :
    (writeFields fields).toList = (fields.flatMap fun pair => ',' :: pairChars pair).tail := by
  induction fields with
  | nil => rfl
  | cons pair rest ih =>
    cases rest with
    | nil => simp [writeFields, pairChars]
    | cons next rest =>
      rw [writeFields, String.toList_append, ih]
      simp [pairChars]

/-! ## 2. Cutting words and texts -/

/-- What stands behind a value: nothing, or a mark that a part of a value ends at. -/
def Delimited (rest : List (Option Char)) : Prop :=
  ∀ c ∈ rest.head?, c = some ',' ∨ c = some ']' ∨ c = some '\x7d'

theorem tokens?_cons {scan next : Scan} {found : List Token} {c : Char}
    (h : scan.step? c = some (next, found)) (gathered : List Token) (rest : List (Option Char)) :
    tokens? scan gathered (some c :: rest) = tokens? next (found.reverse ++ gathered) rest := by
  rw [tokens?, h]

theorem start?_of_isWordChar {c : Char} (h : isWordChar c = true) :
    Scan.start? c = some (.word [c], []) := by
  have hne : ∀ d, isWordChar d = false → c ≠ d := by
    rintro d hd rfl
    rw [h] at hd
    cases hd
  have hblank : ¬(c = ' ' ∨ c = '\n' ∨ c = '\r' ∨ c = '\t') := by
    rintro (rfl | rfl | rfl | rfl) <;> exact absurd h (by decide)
  rw [Scan.start?, if_neg hblank, if_neg (hne _ (by decide)), if_neg (hne _ (by decide)),
    if_neg (hne _ (by decide)), if_neg (hne _ (by decide)), if_neg (hne _ (by decide)),
    if_neg (hne _ (by decide)), if_neg (hne _ (by decide)), if_pos h]

/-- A mark between values ends a word and is a token. -/
theorem start?_of_delimiter {c : Char} (h : c = ',' ∨ c = ']' ∨ c = '\x7d') :
    isWordChar c = false ∧ ∃ token, Scan.start? c = some (.blank, [token]) := by
  rcases h with rfl | rfl | rfl
  · exact ⟨by decide, _, rfl⟩
  · exact ⟨by decide, _, rfl⟩
  · exact ⟨by decide, _, rfl⟩

/-- **Characters are cut into tokens**, whatever mark stands behind them. -/
def CutInto (chars : List Char) (tokens : List Token) : Prop :=
  ∀ (gathered : List Token) (rest : List (Option Char)), Delimited rest →
    tokens? .blank gathered (chars.map some ++ rest) = tokens? .blank (tokens.reverse ++ gathered) rest

theorem tokens?_wordChars {chars : List Char} (h : ∀ c ∈ chars, isWordChar c = true) (read : List Char)
    (gathered : List Token) (rest : List (Option Char)) :
    tokens? (.word read) gathered (chars.map some ++ rest) =
      tokens? (.word (chars.reverse ++ read)) gathered rest := by
  induction chars generalizing read with
  | nil => rfl
  | cons c chars ih =>
    obtain ⟨hc, hchars⟩ := List.forall_mem_cons.1 h
    have hstep : (Scan.word read).step? c = some (.word (c :: read), []) := if_pos hc
    rw [List.map_cons, List.cons_append, tokens?_cons hstep, List.reverse_cons, List.append_assoc]
    exact ih hchars (c :: read)

theorem Word.cutInto {word : List Char} (h : Word word) : CutInto word [.word word] := by
  intro gathered rest hrest
  obtain ⟨c, chars, rfl⟩ := List.exists_cons_of_ne_nil h.ne_nil
  obtain ⟨hc, hchars⟩ := List.forall_mem_cons.1 h.chars
  have hstart : Scan.blank.step? c = some (.word [c], []) := start?_of_isWordChar hc
  have hreverse : (chars.reverse ++ [c]).reverse = c :: chars := by
    rw [List.reverse_append, List.reverse_reverse]
    rfl
  rw [List.map_cons, List.cons_append, tokens?_cons hstart]
  refine (tokens?_wordChars hchars [c] gathered rest).trans ?_
  -- the word is a token once it has ended: with the text, or at a mark that is a token of its own
  cases rest with
  | nil =>
    rw [tokens?, Scan.finish?, hreverse, if_pos h.known]
    rfl
  | cons d rest =>
    obtain ⟨d, rfl, hmark⟩ : ∃ e, d = some e ∧ (e = ',' ∨ e = ']' ∨ e = '\x7d') := by
      rcases hrest d rfl with rfl | rfl | rfl
      · exact ⟨_, rfl, .inl rfl⟩
      · exact ⟨_, rfl, .inr (.inl rfl)⟩
      · exact ⟨_, rfl, .inr (.inr rfl)⟩
    obtain ⟨hword, token, htoken⟩ := start?_of_delimiter hmark
    have hend : (Scan.word (chars.reverse ++ [c])).step? d =
        some (.blank, [.word (c :: chars), token]) := by
      rw [Scan.step?, hword, hreverse, if_neg Bool.false_ne_true, if_pos h.known, htoken]
      rfl
    have hnext : Scan.blank.step? d = some (.blank, [token]) := htoken
    rw [tokens?_cons hend, tokens?_cons hnext]
    rfl

theorem hexValue?_hexDigit : ∀ n < 16, Text.hexValue? (hexDigit n) = some n := by decide

theorem tokens?_control {c : Char} (h : c.toNat < 0x20) (pieces : List Piece) (gathered : List Token)
    (rest : List (Option Char)) :
    tokens? (.text pieces) gathered
        (['\\', 'u', '0', '0', hexDigit (c.toNat / 16), hexDigit (c.toNat % 16)].map some ++ rest) =
      tokens? (.text (.unit c.toNat :: pieces)) gathered rest := by
  have hhigh := hexValue?_hexDigit (c.toNat / 16) (by omega)
  have hlow := hexValue?_hexDigit (c.toNat % 16) (by omega)
  have hvalue : 16 * (c.toNat / 16) + c.toNat % 16 = c.toNat := Nat.div_add_mod _ _
  have hthird : (Scan.unit pieces 2 0).step? (hexDigit (c.toNat / 16)) =
      some (.unit pieces 3 (c.toNat / 16), []) := by
    rw [Scan.step?, hhigh]
    simp
  have hfourth : (Scan.unit pieces 3 (c.toNat / 16)).step? (hexDigit (c.toNat % 16)) =
      some (.text (.unit c.toNat :: pieces), []) := by
    rw [Scan.step?, hlow]
    simp [hvalue]
  -- the first two digits are zeros
  show tokens? (.unit pieces 2 0) gathered
    (some (hexDigit (c.toNat / 16)) :: some (hexDigit (c.toNat % 16)) :: rest) = _
  exact (tokens?_cons hthird _ _).trans (tokens?_cons hfourth _ _)

theorem tokens?_escape (c : Char) (pieces : List Piece) (gathered : List Token) (rest : List (Option Char)) :
    tokens? (.text pieces) gathered ((escape c).map some ++ rest) =
      tokens? (.text (pieceOf c :: pieces)) gathered rest := by
  unfold escape
  split
  · subst c; rfl
  split
  · subst c; rfl
  split
  · subst c; rfl
  split
  · subst c; rfl
  split
  · subst c; rfl
  split
  · subst c; rfl
  split
  · subst c; rfl
  rename_i hquote hbackslash h8 hc hn hr ht
  split
  · rename_i hcontrol
    have hpiece : pieceOf c = .unit c.toNat := if_pos ⟨hcontrol, by simp [h8, hc, hn, hr, ht]⟩
    rw [hpiece]
    exact tokens?_control hcontrol pieces gathered rest
  · rename_i hcontrol
    have hpiece : pieceOf c = .char c := if_neg fun h => hcontrol h.1
    have hstep : (Scan.text pieces).step? c = some (.text (.char c :: pieces), []) := by
      rw [Scan.step?, if_neg hquote, if_neg hbackslash, if_neg hcontrol]
    rw [hpiece]
    exact tokens?_cons hstep gathered rest

theorem tokens?_escapes (chars : List Char) (pieces : List Piece) (gathered : List Token)
    (rest : List (Option Char)) :
    tokens? (.text pieces) gathered ((chars.flatMap escape).map some ++ rest) =
      tokens? (.text ((chars.map pieceOf).reverse ++ pieces)) gathered rest := by
  induction chars generalizing pieces with
  | nil => rfl
  | cons c chars ih =>
    rw [List.flatMap_cons, List.map_append, List.append_assoc, tokens?_escape, ih, List.map_cons,
      List.reverse_cons, List.append_assoc]
    rfl

/-- **A text in quotes is one token**, and nothing need stand behind it. -/
theorem tokens?_quote (text : String) (gathered : List Token) (rest : List (Option Char)) :
    tokens? .blank gathered ((quote text).toList.map some ++ rest) =
      tokens? .blank (.text (spellText text) :: gathered) rest := by
  have hquote : (quote text).toList.map some ++ rest =
      some '"' :: ((text.toList.flatMap escape).map some ++ some '"' :: rest) := by
    simp [quote]
  have hend : (Scan.text ((text.toList.map pieceOf).reverse ++ [])).step? '"' =
      some (.blank, [.text (spellText text)]) := by
    rw [List.append_nil, Scan.step?, if_pos rfl, List.reverse_reverse]
    rfl
  have hstart : Scan.blank.step? '"' = some (.text [], []) := rfl
  rw [hquote, tokens?_cons hstart]
  exact (tokens?_escapes text.toList [] gathered (some '"' :: rest)).trans (tokens?_cons hend gathered rest)

/-! ## 3. Cutting a value -/

section Parts

variable {α : Type} {chars : α → List Char} {tokens : α → List Token} {parts : List α}

theorem delimited_parts (parts : List α) {rest : List (Option Char)} (h : Delimited rest) :
    Delimited ((parts.flatMap fun part => ',' :: chars part).map some ++ rest) := by
  cases parts with
  | nil => exact h
  | cons part parts =>
    rintro c ⟨⟩
    exact .inl rfl

theorem cutInto_parts (h : ∀ part ∈ parts, CutInto (chars part) (tokens part)) :
    CutInto (parts.flatMap fun part => ',' :: chars part)
      (parts.flatMap fun part => .comma :: tokens part) := by
  induction parts with
  | nil => exact fun _ _ _ => rfl
  | cons part parts ih =>
    obtain ⟨hpart, hparts⟩ := List.forall_mem_cons.1 h
    intro gathered rest hrest
    have hcomma : ∀ after, tokens? .blank gathered (some ',' :: after) =
        tokens? .blank (.comma :: gathered) after := fun _ => rfl
    rw [List.flatMap_cons, List.cons_append, List.map_cons, List.cons_append, hcomma, List.map_append,
      List.append_assoc, hpart _ _ (delimited_parts parts hrest), ih hparts _ _ hrest]
    simp

theorem cutInto_tail (h : ∀ part ∈ parts, CutInto (chars part) (tokens part)) :
    CutInto (parts.flatMap fun part => ',' :: chars part).tail
      (parts.flatMap fun part => Token.comma :: tokens part).tail := by
  cases parts with
  | nil => exact fun _ _ _ => rfl
  | cons part parts =>
    obtain ⟨hpart, hparts⟩ := List.forall_mem_cons.1 h
    intro gathered rest hrest
    rw [List.flatMap_cons, List.flatMap_cons, List.cons_append, List.cons_append, List.tail_cons,
      List.tail_cons, List.map_append, List.append_assoc, hpart _ _ (delimited_parts parts hrest),
      cutInto_parts hparts _ _ hrest]
    simp

end Parts

theorem CutInto.bracketed {chars : List Char} {tokens : List Token} (h : CutInto chars tokens)
    (left right : Char) {first last : Token} (hleft : Scan.start? left = some (.blank, [first]))
    (hright : Scan.start? right = some (.blank, [last])) (hmark : Delimited [some right]) :
    CutInto (left :: (chars ++ [right])) (first :: (tokens ++ [last])) := by
  intro gathered rest _
  have hopen : Scan.blank.step? left = some (.blank, [first]) := hleft
  have hclose : Scan.blank.step? right = some (.blank, [last]) := hright
  rw [List.map_cons, List.cons_append, List.map_append, List.append_assoc, tokens?_cons hopen]
  refine (h (first :: gathered) (some right :: rest) hmark).trans ?_
  rw [tokens?_cons hclose]
  simp

/-- **A value is written as the tokens of its spelling.** -/
def Lexed (value : Json) : Prop := CutInto value.write.toList value.spell.tokens

theorem cutInto_pair {pair : String × Json} (h : Lexed pair.2) :
    CutInto (pairChars pair) (pairTokens pair) := by
  intro gathered rest hrest
  have hcolon : ∀ gathered after, tokens? .blank gathered (some ':' :: after) =
      tokens? .blank (.colon :: gathered) after := fun _ _ => rfl
  rw [pairChars, List.map_append, List.append_assoc, tokens?_quote, List.map_cons, List.cons_append,
    hcolon, h _ _ hrest]
  simp [pairTokens]

theorem Lexed.arr {items : List Json} (h : ∀ item ∈ items, Lexed item) : Lexed (.arr items) := by
  have hcut := (cutInto_tail h).bracketed '[' ']' rfl rfl (by rintro c ⟨⟩; exact .inr (.inl rfl))
  have hwrite : (Json.arr items).write.toList =
      '[' :: ((items.flatMap fun item => ',' :: item.write.toList).tail ++ [']']) := by
    rw [write, String.toList_append, String.toList_append, toList_writeItems]
    rfl
  rw [Lexed, hwrite, spell, Spelling.tokens, itemTokens_spellItems]
  exact hcut

theorem Lexed.obj {fields : List (String × Json)} (h : ∀ pair ∈ fields, Lexed pair.2) :
    Lexed (.obj fields) := by
  have hcut := (cutInto_tail fun pair hm => cutInto_pair (h pair hm)).bracketed '\x7b' '\x7d' rfl rfl
    (by rintro c ⟨⟩; exact .inr (.inr rfl))
  have hwrite : (Json.obj fields).write.toList =
      '\x7b' :: ((fields.flatMap fun pair => ',' :: pairChars pair).tail ++ ['\x7d']) := by
    rw [write, String.toList_append, String.toList_append, toList_writeFields]
    rfl
  rw [Lexed, hwrite, spell, Spelling.tokens, fieldTokens_spellFields]
  exact hcut

mutual

theorem lexed : ∀ value : Json, Lexed value
  | .null => word_null.cutInto
  | .bool true => word_true.cutInto
  | .bool false => word_false.cutInto
  | .int n => (word_write_int n).cutInto
  | .double bits => (word_write_double bits).cutInto
  | .str text => fun gathered rest _ => tokens?_quote text gathered rest
  | .arr items => .arr (lexed_items items)
  | .obj fields => .obj (lexed_fields fields)

theorem lexed_items : ∀ items : List Json, ∀ item ∈ items, Lexed item
  | [] => nofun
  | item :: rest => List.forall_mem_cons.2 ⟨lexed item, lexed_items rest⟩

theorem lexed_fields : ∀ fields : List (String × Json), ∀ pair ∈ fields, Lexed pair.2
  | [] => nofun
  | (_, value) :: rest => List.forall_mem_cons.2 ⟨lexed value, lexed_fields rest⟩

end

/-! ## 4. Putting the tokens together -/

/-- **The machine makes the spelling of its tokens.**  The first item of an array comes where the end of it may come
too. -/
def Parsed (spelling : Spelling) : Prop :=
  ∀ (frames : List Frame) (expect : Expect), (expect = .value ∨ expect = .itemOrEnd) →
    spelling.tokens.foldlM Machine.step? ⟨frames, expect⟩ = some (Machine.supply frames spelling)

theorem step?_first {frames : List Frame} {expect : Expect} (h : expect = .value ∨ expect = .itemOrEnd)
    (token : Token) (htoken : token ≠ .endArray) :
    Machine.step? ⟨frames, expect⟩ token = Machine.begin? frames token := by
  rcases h with rfl | rfl
  · rfl
  · cases token <;> first | rfl | exact absurd rfl htoken

theorem foldlM_step {m next : Machine} {token : Token} (h : m.step? token = some next) (rest : List Token) :
    (token :: rest).foldlM Machine.step? m = rest.foldlM Machine.step? next := by
  rw [List.foldlM_cons, h]
  rfl

theorem Parsed.foldlM {spelling : Spelling} (h : Parsed spelling) (frames : List Frame) {expect : Expect}
    (hexpect : expect = .value ∨ expect = .itemOrEnd) (rest : List Token) :
    (spelling.tokens ++ rest).foldlM Machine.step? ⟨frames, expect⟩ =
      rest.foldlM Machine.step? (Machine.supply frames spelling) := by
  rw [List.foldlM_append, h frames expect hexpect]
  rfl

theorem foldlM_items {items : List Spelling} (h : ∀ item ∈ items, Parsed item) (outer : List Frame)
    (done : List Spelling) (rest : List Token) :
    (itemTokens items ++ rest).foldlM Machine.step? ⟨.items done :: outer, .next⟩ =
      rest.foldlM Machine.step? ⟨.items (items.reverse ++ done) :: outer, .next⟩ := by
  induction items generalizing done with
  | nil => rfl
  | cons item items ih =>
    obtain ⟨hitem, hitems⟩ := List.forall_mem_cons.1 h
    have hcomma : Machine.step? ⟨.items done :: outer, .next⟩ .comma =
        some ⟨.items done :: outer, .value⟩ := rfl
    rw [itemTokens, List.cons_append, List.append_assoc, foldlM_step hcomma,
      hitem.foldlM (.items done :: outer) (.inl rfl), Machine.supply, ih hitems, List.reverse_cons,
      List.append_assoc]
    rfl

theorem foldlM_pair {key : List Piece} {value : Spelling} (h : Parsed value) (outer : List Frame)
    (before : List Piece) (done : List (List Piece × Spelling)) {expect : Expect}
    (hexpect : expect = .key ∨ expect = .keyOrEnd) (rest : List Token) :
    (.text key :: .colon :: (value.tokens ++ rest)).foldlM Machine.step?
        ⟨.fields done before :: outer, expect⟩ =
      rest.foldlM Machine.step? ⟨.fields ((key, value) :: done) key :: outer, .next⟩ := by
  have hkey : Machine.step? ⟨.fields done before :: outer, expect⟩ (.text key) =
      some ⟨.fields done key :: outer, .colon⟩ := by
    rcases hexpect with rfl | rfl <;> rfl
  have hcolon : Machine.step? ⟨.fields done key :: outer, .colon⟩ .colon =
      some ⟨.fields done key :: outer, .value⟩ := rfl
  rw [foldlM_step hkey, foldlM_step hcolon, h.foldlM (.fields done key :: outer) (.inl rfl)]
  rfl

/-- Pairs join the object that is open one after another; the last key stays with it. -/
theorem foldlM_fields {fields : List (List Piece × Spelling)} (h : ∀ pair ∈ fields, Parsed pair.2)
    (outer : List Frame) (done : List (List Piece × Spelling)) (before : List Piece) (rest : List Token) :
    ∃ last, (fieldTokens fields ++ rest).foldlM Machine.step? ⟨.fields done before :: outer, .next⟩ =
      rest.foldlM Machine.step? ⟨.fields (fields.reverse ++ done) last :: outer, .next⟩ := by
  induction fields generalizing done before with
  | nil => exact ⟨before, rfl⟩
  | cons pair fields ih =>
    obtain ⟨key, value⟩ := pair
    obtain ⟨hvalue, hfields⟩ := List.forall_mem_cons.1 h
    obtain ⟨last, hlast⟩ := ih hfields ((key, value) :: done) key
    have hcomma : Machine.step? ⟨.fields done before :: outer, .next⟩ .comma =
        some ⟨.fields done before :: outer, .key⟩ := rfl
    refine ⟨last, ?_⟩
    rw [fieldTokens, List.cons_append, List.cons_append, List.cons_append, List.append_assoc,
      foldlM_step hcomma, foldlM_pair hvalue outer before done (.inl rfl), hlast, List.reverse_cons,
      List.append_assoc]
    rfl

theorem Parsed.arr {items : List Spelling} (h : ∀ item ∈ items, Parsed item) : Parsed (.arr items) := by
  intro frames expect hexpect
  have hbegin : Machine.step? ⟨frames, expect⟩ .beginArray = some ⟨.items [] :: frames, .itemOrEnd⟩ :=
    step?_first hexpect .beginArray nofun
  have hend : ∀ done, Machine.step? ⟨.items done :: frames, .next⟩ .endArray =
      some (Machine.supply frames (.arr done.reverse)) := fun _ => rfl
  rw [Spelling.tokens, foldlM_step hbegin]
  cases items with
  | nil => rfl
  | cons item items =>
    obtain ⟨hitem, hitems⟩ := List.forall_mem_cons.1 h
    rw [itemTokens, List.tail_cons, List.append_assoc, hitem.foldlM (.items [] :: frames) (.inr rfl),
      Machine.supply, foldlM_items hitems, foldlM_step (hend _), List.reverse_append,
      List.reverse_reverse]
    rfl

theorem Parsed.obj {fields : List (List Piece × Spelling)} (h : ∀ pair ∈ fields, Parsed pair.2) :
    Parsed (.obj fields) := by
  intro frames expect hexpect
  have hbegin : Machine.step? ⟨frames, expect⟩ .beginObject =
      some ⟨.fields [] [] :: frames, .keyOrEnd⟩ := step?_first hexpect .beginObject nofun
  have hend : ∀ done last, Machine.step? ⟨.fields done last :: frames, .next⟩ .endObject =
      some (Machine.supply frames (.obj done.reverse)) := fun _ _ => rfl
  rw [Spelling.tokens, foldlM_step hbegin]
  cases fields with
  | nil => rfl
  | cons pair fields =>
    obtain ⟨key, value⟩ := pair
    obtain ⟨hvalue, hfields⟩ := List.forall_mem_cons.1 h
    obtain ⟨last, hlast⟩ := foldlM_fields hfields frames [(key, value)] key [.endObject]
    rw [fieldTokens, List.tail_cons, List.cons_append, List.cons_append, List.append_assoc,
      foldlM_pair hvalue frames [] [] (.inr rfl), hlast, foldlM_step (hend _ _), List.reverse_append,
      List.reverse_reverse]
    rfl

mutual

theorem Spelling.parsed : ∀ spelling : Spelling, Parsed spelling
  | .word chars => fun _ _ hexpect => foldlM_step (step?_first hexpect (.word chars) nofun) []
  | .text pieces => fun _ _ hexpect => foldlM_step (step?_first hexpect (.text pieces) nofun) []
  | .arr items => .arr (parsed_items items)
  | .obj fields => .obj (parsed_fields fields)

theorem parsed_items : ∀ items : List Spelling, ∀ item ∈ items, Parsed item
  | [] => nofun
  | item :: rest => List.forall_mem_cons.2 ⟨item.parsed, parsed_items rest⟩

theorem parsed_fields : ∀ fields : List (List Piece × Spelling), ∀ pair ∈ fields, Parsed pair.2
  | [] => nofun
  | (_, value) :: rest => List.forall_mem_cons.2 ⟨value.parsed, parsed_fields rest⟩

end

/-! ## 5. The text as a whole -/

/-- **The text of a value spells the value.** -/
theorem ofChars?_write (value : Json) : Spelling.ofChars? (letters value.write) = some value.spell := by
  have htokens : tokens? .blank [] (letters value.write) = some value.spell.tokens := by
    have hcut := lexed value [] [] nofun
    rw [List.append_nil, List.append_nil] at hcut
    rw [letters, hcut, tokens?, Scan.finish?, Option.map_some, List.reverse_nil, List.nil_append,
      List.reverse_reverse]
  have hmachine : value.spell.tokens.foldlM Machine.step? ⟨[], .value⟩ =
      some (Machine.supply [] value.spell) := value.spell.parsed [] .value (.inl rfl)
  rw [Spelling.ofChars?, htokens, Option.bind_eq_bind, Option.bind_some, hmachine]
  rfl

theorem readChars?_write (shape : Shape) (value : Json) :
    readChars? shape (letters value.write) = value.spell.read? shape maxDepth := by
  rw [readChars?, ofChars?_write, Option.bind_some]

end Admission.Json
