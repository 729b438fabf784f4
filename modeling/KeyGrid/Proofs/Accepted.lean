import KeyGrid.Proofs.Found
import KeyGrid.Proofs.Outcome

/-!
# What a reader accepts

A reader that has come to a line has declarations behind it that are well formed, and so
is the one that it stands in as far as it goes; every word of theirs stands in the text
on the line that it is remembered with. One token keeps this, so that a file that is
accepted consists of well-formed declarations.
-/

namespace KeyGrid.Source

/-! ### Tokens -/

/-- A token on a line of a text. Only in a row of keys can a word be all digits. -/
def Token.Found (text : List Char) (line : Nat) (place : Place) : Token → Prop
  | .word name => IsWord name ∧ (place = .directive → Decimal.isDigits name.toList = false) ∧
      Stands text line name.toList
  | .quoted name => Quotable name
  | .symbol c => c ≠ '"' ∧ c ≠ '\n'
  | .number _ | .lineEnd | .fileEnd => True

/-- The line of the token behind this one. -/
def Token.lineBehind (line : Nat) (token : Token) : Nat :=
  if token = .lineEnd then line + 1 else line

theorem Located.Found.token {text : List Char} {lexeme : Located Lexeme}
    (h : lexeme.Found text) (place : Place) :
    (Token.ofLexeme place lexeme.item).Found text lexeme.line place := by
  obtain ⟨line, item⟩ := lexeme
  cases item with
  | word word =>
    simp only [Token.ofLexeme, Token.ofWord]
    split
    · trivial
    · rename_i hdigits
      refine ⟨h.proper, ?_, h.stands word rfl⟩
      intro hplace
      cases hd : Decimal.isDigits word.toList with
      | true => exact absurd ⟨hplace, hd⟩ hdigits
      | false => rfl
  | quoted word closed => exact h.proper
  | symbol c => exact h.proper
  | lineEnd => trivial

theorem lineBehind_ofLexeme (line : Nat) (place : Place) (lexeme : Lexeme) :
    (Token.ofLexeme place lexeme).lineBehind line = lexeme.lineBehind line := by
  cases lexeme with
  | word word =>
    simp only [Token.ofLexeme, Token.ofWord]
    split <;> rfl
  | quoted word closed => rfl
  | symbol c => rfl
  | lineEnd => rfl

theorem ofLexeme_ne_fileEnd (place : Place) (lexeme : Lexeme) :
    Token.ofLexeme place lexeme ≠ .fileEnd := by
  cases lexeme with
  | word word =>
    simp only [Token.ofLexeme, Token.ofWord]
    split <;> simp
  | quoted word closed => simp [Token.ofLexeme]
  | symbol c => simp [Token.ofLexeme]
  | lineEnd => simp [Token.ofLexeme]

/-! ### Positions in a text -/

/-- What a position remembers belongs to the text read so far, and the next token is on
the given line. -/
def Position.Found (text : List Char) (items : List Item) (line : Nat) : Position → Prop
  | .top => Above items line
  | .afterItem => Above items (line + 1)
  | .sizeRows head => head = line ∧ Above items line ∧ layouts items = []
  | .sizeCols head rows => head = line ∧ Above items line ∧ layouts items = [] ∧
      1 ≤ rows ∧ rows ≤ maxDimension
  | .layoutName grid head => head = line ∧ Above items line ∧ gridBehind? items = some grid
  | .layoutBrace draft | .layoutHeadEnd draft => draft.line = line ∧ draft.rows = [] ∧
      Above items draft.line ∧ gridBehind? items = some draft.grid ∧ draft.Found text
  | .row draft => line = draft.line + 1 + draft.rows.length ∧
      draft.rows.length < draft.grid.rows ∧
      Above items draft.line ∧ gridBehind? items = some draft.grid ∧ draft.Found text
  | .afterRows draft => draft.line < line ∧
      (1 ≤ draft.rows.length ∧ draft.rows.length ≤ draft.grid.rows) ∧
      Above items draft.line ∧ gridBehind? items = some draft.grid ∧ draft.Found text
  | .stateName head => head = line ∧ Above items line
  | .stateBrace draft | .stateHeadEnd draft | .afterEntry draft =>
      Above items draft.line ∧ draft.Found text (line + 1)
  | .entries draft => Above items draft.line ∧ draft.Found text line
  | .layers draft list => Above items draft.line ∧ draft.Found text line ∧ list.Found text line
  | .layerColon draft list modifier head | .layerName draft list modifier head =>
      head = line ∧ modifier ≠ .plain ∧
      Above items draft.line ∧ draft.Found text line ∧ list.Found text line
  | .metaLabel draft head digits => head = line ∧
      (Decimal.isDigits digits.toList ∧ Stands text line ('S' :: digits.toList)) ∧
      Above items draft.line ∧ draft.Found text line
  | .metaKind draft slot | .metaTarget draft slot _ =>
      Above items draft.line ∧ draft.Found text line ∧ slot.Found text line

structure Reader.Found (text : List Char) (line : Nat) (reader : Reader) : Prop where
  items : ItemsFound text reader.items.reverse
  position : reader.position.Found text reader.items.reverse line

/-! ### Single tokens -/

theorem Token.lineBehind_of_ne {line : Nat} {token : Token} (h : token ≠ .lineEnd) :
    token.lineBehind line = line := if_neg h

theorem quotable_of_isWord {word : String} (h : IsWord word) : Quotable word := by
  refine ⟨?_, newline_not_mem_of_isWord h⟩
  intro hquote
  exact absurd (h.2 '"' hquote) (by decide)

theorem quotable_magnitude (value : Magnitude) : Quotable value.text := by
  cases value with
  | infinite => exact ⟨by decide, by decide⟩
  | finite n => exact quotable_of_isWord (isWord_of_isDigits (Decimal.isDigits_toString _))

theorem quotable_singleton {c : Char} (h : c ≠ '"' ∧ c ≠ '\n') :
    Quotable (String.singleton c) := by
  unfold Quotable
  rw [String.toList_singleton, List.mem_singleton, List.mem_singleton]
  exact ⟨Ne.symm h.1, Ne.symm h.2⟩

theorem cellOf_found {text : List Char} {line : Nat} {token : Token} {cell : Cell}
    (hl : HasLine text line) (ht : token.Found text line .row) (h : cellOf token = .ok cell) :
    CellDecl.Found text line ⟨cell, line⟩ := by
  cases token with
  | word name =>
    obtain ⟨hword, _, hstands⟩ := ht
    simp only [cellOf] at h
    cases h
    by_cases hone : name.length = 1
    · rw [if_pos hone]
      refine ⟨rfl, hl, ⟨?_, quotable_of_isWord hword⟩, fun _ he => by cases he⟩
      rintro rfl
      exact hword.1 rfl
    · rw [if_neg hone]
      have hpos : name.length ≠ 0 := by
        intro hzero
        apply hword.1
        rw [String.length_eq_zero_iff] at hzero
        rw [hzero]
        rfl
      refine ⟨rfl, hl, ⟨hword, by omega⟩, ?_⟩
      intro _ he
      cases he
      exact hstands
  | quoted name =>
    simp only [cellOf] at h
    split at h
    · cases h
    · rename_i hne
      cases h
      refine ⟨rfl, hl, ⟨?_, ht⟩, fun _ he => by cases he⟩
      rintro rfl
      exact hne rfl
  | symbol c =>
    unfold cellOf at h
    split at h
    · cases h
      exact ⟨rfl, hl, trivial, fun _ he => by cases he⟩
    · rename_i other hother
      cases hother
      cases h
      refine ⟨rfl, hl, ⟨?_, quotable_singleton ht⟩, fun _ he => by cases he⟩
      intro he
      have hlength := congrArg String.length he
      simp at hlength
    · rename_i he
      cases he
    · rename_i he
      cases he
    · cases h
  | number value => cases h
  | lineEnd => cases h
  | fileEnd => cases h

theorem dimensionOf_ok {dimension : Dimension} {token : Token} {value : Nat}
    (h : dimensionOf dimension token = .ok value) : 1 ≤ value ∧ value ≤ maxDimension := by
  unfold dimensionOf at h
  split at h
  · split at h
    · rename_i hrange
      cases h
      exact hrange
    · cases h
  · cases h
  · cases h

theorem wordOf_ok {what : Expected} {token : Token} {name : String}
    (h : wordOf what token = .ok name) : token = .word name := by
  unfold wordOf at h
  split at h
  · cases h
    rfl
  · cases h

theorem slotDigits?_eq_some {word digits : String} (h : slotDigits? word = some digits) :
    Decimal.isDigits digits.toList ∧ word.toList = 'S' :: digits.toList := by
  unfold slotDigits? at h
  split at h
  · rename_i chars hchars
    split at h
    · rename_i hdigits
      cases h
      rw [String.toList_ofList]
      exact ⟨hdigits, hchars⟩
    · cases h
  · cases h

theorem slotDigits?_slot {digits : String} (h : Decimal.isDigits digits.toList) :
    slotDigits? ("S" ++ digits) = some digits := by
  have hlist : ("S" ++ digits).toList = 'S' :: digits.toList := String.toList_append
  unfold slotDigits?
  rw [hlist]
  simp only [if_pos h, String.ofList_toList]

theorem labelOf_found {text : List Char} {line : Nat} {place : Place} {token : Token}
    {label : String} (ht : token.Found text line place) (h : labelOf token = .ok label) :
    Quotable label := by
  cases token with
  | word name =>
    cases h
    exact quotable_of_isWord ht.1
  | quoted name =>
    cases h
    exact ht
  | number value =>
    cases h
    exact quotable_magnitude value
  | symbol c =>
    simp only [labelOf] at h
    split at h
    · cases h
    · cases h
      exact quotable_singleton ht
  | lineEnd => cases h
  | fileEnd => cases h

/-! ### One token -/

namespace Reader

variable {text : List Char} {line : Nat} {reader next : Reader} {token : Token}

theorem grid?_eq (reader : Reader) : reader.grid? = gridBehind? reader.items.reverse := by
  unfold Reader.grid? gridBehind?
  rw [List.getLast?_filterMap, List.reverse_reverse]

theorem layouts_eq_nil_iff {reader : Reader} :
    layouts reader.items.reverse = [] ↔ reader.hasLayout = false := by
  unfold layouts hasLayout
  rw [List.filterMap_eq_nil_iff, List.any_eq_false]
  simp only [List.mem_reverse, Option.not_isSome_iff_eq_none]

theorem goTo_found {position : Position} (hi : ItemsFound text reader.items.reverse)
    (hp : position.Found text reader.items.reverse line) :
    (reader.goTo position).Found text line := ⟨hi, hp⟩

/-- A complete declaration; its line is above that of the next one. -/
theorem add_found {item : Item} (hi : ItemsFound text reader.items.reverse)
    (ha : Above reader.items.reverse item.line) (hf : item.Found text reader.items.reverse)
    (hl : item.line ≤ line) : (reader.add item).Found text line := by
  have hitems : (reader.add item).items.reverse = reader.items.reverse ++ [item] := by
    simp [add]
  constructor
  · rw [hitems]
    exact hi.concat ⟨ha, hf⟩
  · rw [hitems]
    exact ha.concat (by omega)

theorem readTop_found (hi : ItemsFound text reader.items.reverse)
    (ha : Above reader.items.reverse line) (hp : reader.position = .top)
    (hs : reader.readTop line token = .ok next) : next.Found text (token.lineBehind line) := by
  have hsame : reader.Found text (token.lineBehind line) := by
    refine ⟨hi, ?_⟩
    rw [hp]
    apply Above.mono ha
    unfold Token.lineBehind
    split <;> omega
  unfold readTop at hs
  split at hs
  · cases hs
    exact hsame
  · cases hs
    exact hsame
  · split at hs
    · cases hs
    · rename_i hnone
      cases hs
      have hlayouts := layouts_eq_nil_iff.mpr (Bool.eq_false_iff.mpr hnone)
      exact goTo_found hi ⟨rfl, ha, hlayouts⟩
  · split at hs
    · cases hs
    · rename_i grid hgrid
      cases hs
      rw [grid?_eq] at hgrid
      exact goTo_found hi ⟨rfl, ha, hgrid⟩
  · cases hs
    exact goTo_found hi ⟨rfl, ha⟩
  · cases hs
  · cases hs

theorem readLineEnd_found {position : Position} (hi : ItemsFound text reader.items.reverse)
    (hp : position.Found text reader.items.reverse (line + 1)) (ht : token ≠ .fileEnd)
    (hs : reader.readLineEnd position line token = .ok next) :
    next.Found text (token.lineBehind line) := by
  unfold readLineEnd at hs
  split at hs
  · rename_i hends
    cases hs
    cases token with
    | lineEnd => exact goTo_found hi hp
    | fileEnd => exact absurd rfl ht
    | word name => cases hends
    | quoted name => cases hends
    | number value => cases hends
    | symbol c => cases hends
  · cases hs

theorem readSymbol_found {c : Char} {position : Position}
    (hi : ItemsFound text reader.items.reverse)
    (hp : position.Found text reader.items.reverse line)
    (hs : reader.readSymbol c position line token = .ok next) :
    next.Found text (token.lineBehind line) := by
  unfold readSymbol at hs
  split at hs
  · rename_i htoken
    cases hs
    subst htoken
    exact goTo_found hi hp
  · cases hs

theorem readWord_found {what : Expected} {position : String → Position}
    (hi : ItemsFound text reader.items.reverse)
    (ht : token.Found text line .directive)
    (hp : ∀ name, NameFound text line name →
      (position name).Found text reader.items.reverse line)
    (hs : reader.readWord what position line token = .ok next) :
    next.Found text (token.lineBehind line) := by
  unfold readWord at hs
  split at hs
  · rename_i name hname
    cases hs
    rw [wordOf_ok hname] at ht ⊢
    obtain ⟨hword, hdigits, hstands⟩ := ht
    exact goTo_found hi (hp name ⟨⟨hword, hdigits rfl⟩, hstands⟩)
  · cases hs

theorem readDimension_found {dimension : Dimension} {behind : Nat → Reader}
    (hp : ∀ value, 1 ≤ value ∧ value ≤ maxDimension → (behind value).Found text line)
    (hs : readDimension dimension behind line token = .ok next) :
    next.Found text (token.lineBehind line) := by
  unfold readDimension at hs
  split at hs
  · rename_i value hvalue
    cases hs
    have hline : token.lineBehind line = line := by
      apply Token.lineBehind_of_ne
      rintro rfl
      cases hvalue
    rw [hline]
    exact hp value (dimensionOf_ok hvalue)
  · cases hs

/-! ### Layouts -/

theorem addLayout_found {draft : LayoutDraft} (hi : ItemsFound text reader.items.reverse)
    (ha : Above reader.items.reverse draft.line)
    (hg : gridBehind? reader.items.reverse = some draft.grid) (hd : draft.Found text)
    (hrows : 1 ≤ draft.rows.length ∧ draft.rows.length ≤ draft.grid.rows)
    (hl : draft.line ≤ line) : (reader.add (.layout draft.decl)).Found text line := by
  have hfound : Item.Found text reader.items.reverse (.layout draft.decl) :=
    ⟨draft.grid, hg, hd.decl hrows⟩
  exact add_found hi ha hfound hl

theorem readRow_found {draft : LayoutDraft} (hl : HasLine text line)
    (hi : ItemsFound text reader.items.reverse)
    (hp : (Position.row draft).Found text reader.items.reverse line)
    (ht : token.Found text line .row) (hs : reader.readRow draft line token = .ok next) :
    next.Found text (token.lineBehind line) := by
  obtain ⟨hline, hlt, ha, hg, hd⟩ := hp
  have hrows : draft.endRow.rows.length = draft.rows.length + 1 := by
    simp [LayoutDraft.endRow]
  unfold readRow at hs
  split at hs
  · cases hs
    have hend := hd.endRow
    by_cases hfull : draft.endRow.rows.length = draft.endRow.grid.rows
    · simp only [if_pos hfull]
      refine goTo_found hi ⟨?_, ⟨by omega, ?_⟩, ha, hg, hend⟩
      · show draft.line < line + 1
        omega
      · show draft.endRow.rows.length ≤ draft.grid.rows
        omega
    · simp only [if_neg hfull]
      refine goTo_found hi ⟨?_, ?_, ha, hg, hend⟩
      · show line + 1 = draft.line + 1 + draft.endRow.rows.length
        omega
      · have hle : draft.endRow.rows.length ≤ draft.endRow.grid.rows := by
          show draft.endRow.rows.length ≤ draft.grid.rows
          omega
        omega
  · cases hs
  · rename_i hend _
    have hsame : token.lineBehind line = line := Token.lineBehind_of_ne hend
    rw [hsame]
    split at hs
    · cases hs
      have hbound : 1 ≤ draft.endRow.rows.length ∧
          draft.endRow.rows.length ≤ draft.endRow.grid.rows := by
        show 1 ≤ draft.endRow.rows.length ∧ draft.endRow.rows.length ≤ draft.grid.rows
        omega
      have hbelow : draft.endRow.line ≤ line := by
        show draft.line ≤ line
        omega
      exact addLayout_found hi ha hg hd.endRow hbound hbelow
    · split at hs
      · cases hs
      · rename_i hroom
        split at hs
        · rename_i cell hcell
          cases hs
          have hwritten := cellOf_found hl ht hcell
          rw [hline] at hwritten
          have hcells : draft.cells.length < draft.grid.cols := by
            have hwidth := hd.current.width
            omega
          have hadd := hd.addCell hwritten hcells
          rw [← hline] at hadd
          exact goTo_found hi ⟨hline, hlt, ha, hg, hadd⟩
        · cases hs

theorem readAfterRows_found {draft : LayoutDraft} (hi : ItemsFound text reader.items.reverse)
    (hposition : reader.position = .afterRows draft)
    (hp : (Position.afterRows draft).Found text reader.items.reverse line)
    (hs : reader.readAfterRows draft line token = .ok next) :
    next.Found text (token.lineBehind line) := by
  obtain ⟨hline, hrows, ha, hg, hd⟩ := hp
  unfold readAfterRows at hs
  split at hs
  · cases hs
    refine ⟨hi, ?_⟩
    rw [hposition]
    refine ⟨?_, hrows, ha, hg, hd⟩
    show draft.line < line + 1
    omega
  · rename_i hend
    rw [Token.lineBehind_of_ne hend]
    split at hs
    · cases hs
      exact addLayout_found hi ha hg hd hrows (by omega)
    · cases hs

/-! ### States -/

theorem readEntries_found {draft : StateDraft} (hi : ItemsFound text reader.items.reverse)
    (ha : Above reader.items.reverse draft.line) (hd : draft.Found text line)
    (ht : token.Found text line .directive)
    (hs : reader.readEntries draft line token = .ok next) :
    next.Found text (token.lineBehind line) := by
  unfold readEntries at hs
  split at hs
  · cases hs
    exact goTo_found hi ⟨ha, hd.mono (Nat.le_succ line)⟩
  · rename_i word
    obtain ⟨_, _, hstands⟩ := ht
    split at hs
    · rename_i swipe hswipe
      cases hs
      have hlist : ListDraft.Found text line ⟨.swipe swipe, line, []⟩ :=
        ⟨rfl, trivial, fun _ he => absurd he List.not_mem_nil⟩
      exact goTo_found hi ⟨ha, hd, hlist⟩
    · split at hs
      · rename_i digits hdigits
        cases hs
        obtain ⟨hrun, hword⟩ := slotDigits?_eq_some hdigits
        rw [hword] at hstands
        exact goTo_found hi ⟨rfl, ⟨hrun, hstands⟩, ha, hd⟩
      · cases hs
  · rename_i hend _
    rw [Token.lineBehind_of_ne hend]
    split at hs
    · cases hs
      have hline := hd.line_lt
      have hbelow : draft.line ≤ line := by omega
      exact add_found hi ha hd.decl hbelow
    · cases hs

/-- Behind an entry its line may end, or the state. -/
theorem readAfterEntry_found {draft : StateDraft} (hi : ItemsFound text reader.items.reverse)
    (ha : Above reader.items.reverse draft.line) (hd : draft.Found text (line + 1))
    (hend : token ≠ .fileEnd) (hs : reader.readAfterEntry draft line token = .ok next) :
    next.Found text (token.lineBehind line) := by
  unfold readAfterEntry at hs
  split at hs
  · rename_i hends
    have hline := hd.line_lt
    have hbelow : draft.line ≤ line := by omega
    rcases hends with hends | rfl
    · cases token with
      | lineEnd =>
        cases hs
        exact goTo_found hi ⟨ha, hd⟩
      | fileEnd => exact absurd rfl hend
      | word name => cases hends
      | quoted name => cases hends
      | number value => cases hends
      | symbol c => cases hends
    · cases hs
      exact add_found hi ha hd.decl hbelow
  · cases hs

theorem readLayers_found {draft : StateDraft} {list : ListDraft}
    (hi : ItemsFound text reader.items.reverse)
    (ha : Above reader.items.reverse draft.line) (hd : draft.Found text line)
    (hl : list.Found text line) (ht : token.Found text line .directive)
    (hend : token ≠ .fileEnd) (hs : reader.readLayers draft list line token = .ok next) :
    next.Found text (token.lineBehind line) := by
  unfold readLayers at hs
  split at hs
  · rename_i word
    obtain ⟨hword, hdigits, hstands⟩ := ht
    split at hs
    · rename_i modifier hmodifier
      cases hs
      have hmarked : modifier ≠ .plain := by
        rintro rfl
        unfold Modifier.ofWord? at hmodifier
        split at hmodifier <;> cases hmodifier
      exact goTo_found hi ⟨rfl, hmarked, ha, hd, hl⟩
    · rename_i hplain
      cases hs
      have hproper : LayerRef.Proper ⟨.plain, word, line⟩ :=
        ⟨⟨hword, hdigits rfl⟩, fun _ => (ofWord?_eq_none_iff word).mp hplain⟩
      exact goTo_found hi ⟨ha, hd, hl.add ⟨rfl, hproper, hstands⟩⟩
  · obtain ⟨hline, hfound⟩ := hl.entry
    have habove : Above reader.items.reverse (draft.add list.entry).line := ha
    exact readAfterEntry_found hi habove (hd.add hline hfound) hend hs

theorem readMetaKind_found {draft : StateDraft} {slot : SlotDraft}
    (hi : ItemsFound text reader.items.reverse)
    (ha : Above reader.items.reverse draft.line) (hd : draft.Found text line)
    (hslot : slot.Found text line) (hs : reader.readMetaKind draft slot line token = .ok next) :
    next.Found text (token.lineBehind line) := by
  unfold readMetaKind at hs
  split at hs
  · cases hs
    have hlist : ListDraft.Found text line ⟨.dead slot.digits slot.label, slot.line, []⟩ :=
      ⟨hslot.line_eq, hslot.slot, fun _ he => absurd he List.not_mem_nil⟩
    exact goTo_found hi ⟨ha, hd, hlist⟩
  · cases hs
    exact goTo_found hi ⟨ha, hd, hslot⟩
  · cases hs
    exact goTo_found hi ⟨ha, hd, hslot⟩
  · cases hs
  · cases hs

/-! ### Steps and runs -/

/-- Every token that is not the end of the file keeps what has been found. -/
theorem step_found (hl : HasLine text line) (h : reader.Found text line)
    (ht : token.Found text line reader.position.place) (hend : token ≠ .fileEnd)
    (hs : reader.step line token = .ok next) : next.Found text (token.lineBehind line) := by
  obtain ⟨hi, hp⟩ := h
  unfold step at hs
  cases hposition : reader.position with
  | top =>
    rw [hposition] at hs hp
    exact readTop_found hi hp hposition hs
  | afterItem =>
    rw [hposition] at hs hp
    apply readLineEnd_found hi _ hend hs
    exact hp
  | sizeRows head =>
    rw [hposition] at hs hp
    obtain ⟨rfl, ha, hlayouts⟩ := hp
    apply readDimension_found _ hs
    intro rows hrows
    exact goTo_found hi ⟨rfl, ha, hlayouts, hrows⟩
  | sizeCols head rows =>
    rw [hposition] at hs hp
    obtain ⟨rfl, ha, hlayouts, hrows⟩ := hp
    apply readDimension_found _ hs
    intro cols hcols
    have hfound : Item.Found text reader.items.reverse (.size ⟨⟨rows, cols⟩, head⟩) :=
      ⟨⟨hrows, hcols⟩, hlayouts⟩
    exact add_found hi ha hfound (Nat.le_refl head)
  | layoutName grid head =>
    rw [hposition] at hs hp ht
    obtain ⟨rfl, ha, hg⟩ := hp
    apply readWord_found hi ht _ hs
    intro name hname
    exact ⟨rfl, rfl, ha, hg, LayoutDraft.found_start hname⟩
  | layoutBrace draft =>
    rw [hposition] at hs hp
    apply readSymbol_found hi _ hs
    exact hp
  | layoutHeadEnd draft =>
    rw [hposition] at hs hp
    obtain ⟨hline, hnil, ha, hg, hd⟩ := hp
    simp only [if_neg hend] at hs
    apply readLineEnd_found hi _ hend hs
    have hpos := hi.rows_pos hg
    have hzero : draft.rows.length = 0 := by rw [hnil]; rfl
    refine ⟨?_, ?_, ha, hg, hd⟩
    · rw [hzero, hline]
    · omega
  | row draft =>
    rw [hposition] at hs hp ht
    exact readRow_found hl hi hp ht hs
  | afterRows draft =>
    rw [hposition] at hs hp
    exact readAfterRows_found hi hposition hp hs
  | stateName head =>
    rw [hposition] at hs hp ht
    obtain ⟨rfl, ha⟩ := hp
    apply readWord_found hi ht _ hs
    intro name hname
    exact ⟨ha, StateDraft.found_start hname⟩
  | stateBrace draft =>
    rw [hposition] at hs hp
    apply readSymbol_found hi _ hs
    exact hp
  | stateHeadEnd draft =>
    rw [hposition] at hs hp
    simp only [if_neg hend] at hs
    apply readLineEnd_found hi _ hend hs
    exact hp
  | entries draft =>
    rw [hposition] at hs hp ht
    exact readEntries_found hi hp.1 hp.2 ht hs
  | afterEntry draft =>
    rw [hposition] at hs hp
    exact readAfterEntry_found hi hp.1 hp.2 hend hs
  | layers draft list =>
    rw [hposition] at hs hp ht
    obtain ⟨ha, hd, hlist⟩ := hp
    exact readLayers_found hi ha hd hlist ht hend hs
  | layerColon draft list modifier head =>
    rw [hposition] at hs hp
    apply readSymbol_found hi _ hs
    exact hp
  | layerName draft list modifier head =>
    rw [hposition] at hs hp ht
    obtain ⟨rfl, hmarked, ha, hd, hlist⟩ := hp
    apply readWord_found hi ht _ hs
    intro name hname
    have hproper : LayerRef.Proper ⟨modifier, name, head⟩ :=
      ⟨hname.isName, fun hplain => absurd hplain hmarked⟩
    exact ⟨ha, hd, hlist.add ⟨rfl, hproper, hname.stands⟩⟩
  | metaLabel draft head digits =>
    rw [hposition] at hs hp ht
    obtain ⟨rfl, ⟨hdigits, hstands⟩, ha, hd⟩ := hp
    cases hlabel : labelOf token with
    | error fault => simp only [hlabel] at hs; cases hs
    | ok label =>
      simp only [hlabel] at hs
      cases hs
      have hsame : token.lineBehind head = head := by
        apply Token.lineBehind_of_ne
        rintro rfl
        cases hlabel
      rw [hsame]
      have hquotable := labelOf_found ht hlabel
      exact goTo_found hi ⟨ha, hd, rfl, hdigits, hquotable, hstands⟩
  | metaKind draft slot =>
    rw [hposition] at hs hp
    obtain ⟨ha, hd, hslot⟩ := hp
    exact readMetaKind_found hi ha hd hslot hs
  | metaTarget draft slot latched =>
    rw [hposition] at hs hp ht
    obtain ⟨ha, hd, hslot⟩ := hp
    apply readWord_found hi ht _ hs
    intro target htarget
    obtain ⟨hline, hfound⟩ := hslot.entry htarget latched
    exact ⟨ha, hd.add hline hfound⟩

theorem found_start (text : List Char) : start.Found text 1 :=
  ⟨.nil, fun _ he => absurd he List.not_mem_nil⟩

theorem run_found {lexemes : List Lexeme} (h : reader.Found text line)
    (hl : ∀ lexeme ∈ locate line lexemes, lexeme.Found text)
    (hs : (locate line lexemes).foldlM read reader = .ok next) :
    next.Found text (lineBehind line lexemes) := by
  induction lexemes generalizing line reader with
  | nil =>
    cases hs
    exact h
  | cons lexeme lexemes ih =>
    have hfirst := hl ⟨line, lexeme⟩ (List.mem_cons_self ..)
    obtain ⟨middle, hmiddle, hrest⟩ := bind_eq_ok_iff.mp hs
    have htoken := hfirst.token reader.position.place
    have hstep := step_found hfirst.line h htoken (ofLexeme_ne_fileEnd _ _) hmiddle
    rw [lineBehind_ofLexeme] at hstep
    have hothers : ∀ other ∈ locate (lexeme.lineBehind line) lexemes, other.Found text :=
      fun other hm => hl other (List.mem_cons_of_mem _ hm)
    exact ih hstep hothers hrest

/-- A file may end between declarations and nowhere else. -/
theorem step_fileEnd_ok (hs : reader.step line .fileEnd = .ok next) :
    (reader.position = .top ∨ reader.position = .afterItem) ∧ next = reader.goTo .top := by
  cases hposition : reader.position with
  | top =>
    unfold step at hs
    rw [hposition] at hs
    cases hs
    refine ⟨Or.inl rfl, ?_⟩
    unfold goTo
    rw [← hposition]
  | afterItem =>
    unfold step at hs
    rw [hposition] at hs
    cases hs
    exact ⟨Or.inr rfl, rfl⟩
  | _ =>
    unfold step at hs
    rw [hposition] at hs
    cases hs

end Reader

/-! ### Whole texts -/

theorem declarations_found {text : String} {items : List Item}
    (h : declarations text = .ok items) : ItemsFound text.toList items := by
  obtain ⟨lexemes, hlocated, _, _, hfound⟩ := lexemes_located text.toList
  obtain ⟨reader, hreader, h⟩ := bind_eq_ok_iff.mp h
  obtain ⟨last, hlast, h⟩ := bind_eq_ok_iff.mp h
  cases h
  have hread : (locate 1 lexemes).foldlM Reader.read .start = .ok reader := by
    rw [← hlocated]
    exact hreader
  rw [hlocated] at hfound
  have hrun := Reader.run_found (Reader.found_start text.toList) hfound hread
  obtain ⟨_, rfl⟩ := Reader.step_fileEnd_ok hlast
  exact hrun.items

/-- Whatever is accepted is well formed. Each declaration can stand where it does, all
layouts have the last size, and line numbers grow: the rows of a layout are numbered one
by one behind its name, and a layer list has the line of its entry. -/
theorem declarations_wellFormed {text : String} {items : List Item}
    (h : declarations text = .ok items) :
    Arranged items ∧
      (∀ front decl back, items = front ++ .layout decl :: back →
        (∃ size, .size size ∈ front) ∧ (∀ size, .size size ∉ back) ∧
          ∃ grid, gridBehind? items = some grid ∧ decl.Fits grid) ∧
      Numbered items := by
  have hfound := declarations_found h
  have harranged := hfound.arranged
  refine ⟨harranged, ?_, hfound.increasing, ?_, ?_⟩
  · intro front decl back heq
    obtain ⟨grid, hgrid, hfits⟩ := harranged front (.layout decl) back heq
    obtain ⟨hnone, hlast⟩ := harranged.gridBehind? heq
    refine ⟨?_, hnone, grid, hlast.trans hgrid, hfits⟩
    obtain ⟨item, hitem, hsize⟩ := List.mem_filterMap.mp (List.mem_of_getLast? hgrid)
    cases item with
    | size size => exact ⟨size, hitem⟩
    | layout other => cases hsize
    | state other => cases hsize
  · intro decl hdecl
    obtain ⟨grid, hlayout⟩ := hfound.layout (mem_layouts.mp hdecl)
    exact hlayout.numbered
  · intro decl hdecl
    exact (hfound.state (mem_states.mp hdecl)).numbered

/-- A blank row, a comment, a brace on the last row and one behind an entry. -/
def raggedSource : String :=
  "size 9 9\n\nsize 3 2\nlayout base \x7b\n1 23 # digits\n\n* \x7d\nstate main \x7b\n" ++
    "  layout shift:base base\n\n  S01 12 dead base \x7d\n"

def raggedItems : List Item :=
  [.size ⟨⟨9, 9⟩, 1⟩,
    .size ⟨⟨3, 2⟩, 3⟩,
    .layout ⟨"base", 4, [[⟨.text "1", 5⟩, ⟨.code "23", 5⟩], [], [⟨.absent, 7⟩]]⟩,
    .state ⟨"main", 8,
      [.layers .tap [⟨.shift, "base", 9⟩, ⟨.plain, "base", 9⟩] 9,
        .slot "01" "12" (.dead [⟨.plain, "base", 11⟩]) 11]⟩]

theorem ragged_wellFormed :
    declarations raggedSource = .ok raggedItems ∧ Arranged raggedItems ∧
      gridBehind? raggedItems = some ⟨3, 2⟩ ∧ Numbered raggedItems := by
  have h : declarations raggedSource = .ok raggedItems :=
    eq_ok_of_toOption (by decide +kernel)
  have hwell := declarations_wellFormed h
  exact ⟨h, hwell.1, rfl, hwell.2.2⟩

end KeyGrid.Source
