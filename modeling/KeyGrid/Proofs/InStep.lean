import KeyGrid.Proofs.Awaited

/-!
# The mode in step

A file read with a token in hand has the declarations that a reader finds in it one token after
the other, or the same error. Every token has been understood as the reader understands it when
it comes to it: as one of a row exactly in the body of a layout, whichever way the rows end.
-/

namespace KeyGrid.Source

variable {text : String} {look : Lookahead} {place : Place}
  {act : Nat → Token → Except LoadError Reader} {reader : Reader} {e : LoadError}

/-! ### Layouts -/

/-- Where a layout goes on behind a complete row. -/
def LayoutDraft.behindRow (draft : LayoutDraft) : Position :=
  if draft.rows.length = draft.grid.rows then .afterRows draft else .row draft

theorem LayoutDraft.place_behindRow (draft : LayoutDraft) : draft.behindRow.place = .row := by
  unfold behindRow
  split <;> rfl

/-- The closing brace of a layout is in hand. -/
def Closes (text : String) (items : List Item) (decl : LayoutDecl) (look : Lookahead) : Prop :=
  look.current.item = .symbol '\x7d' ∧
    Awaits text .row (fun _ _ => .ok ⟨.layout decl :: items, .afterItem⟩) look

theorem Reader.readRow_cell {draft : LayoutDraft} {line : Nat} {token : Token}
    (hline : token ≠ .lineEnd) (hfile : token ≠ .fileEnd) (hbrace : token ≠ .symbol '\x7d') :
    reader.readRow draft line token =
      if draft.cells.length = draft.grid.cols then
        .error (.parse line (.tooManyKeys (draft.rows.length + 1) draft.name draft.grid.cols))
      else ((cellOf token).mapError (.parse line)).map
        (fun cell => reader.goTo (.row (draft.addCell ⟨cell, line⟩))) := by
  cases token with
  | lineEnd => exact absurd rfl hline
  | fileEnd => exact absurd rfl hfile
  | word | quoted | number | symbol =>
    unfold readRow
    dsimp only
    rw [if_neg hbrace]
    split
    · rfl
    · split
      · rename_i hcell
        rw [hcell]
        rfl
      · rename_i hcell
        rw [hcell]
        rfl

theorem Reader.readAfterRows_other {draft : LayoutDraft} {line : Nat} {token : Token}
    (hline : token ≠ .lineEnd) (hbrace : token ≠ .symbol '\x7d') :
    reader.readAfterRows draft line token =
      .error (.parse line (.expected (.closingBrace draft.grid.rows draft.name) token)) := by
  cases token with
  | lineEnd => exact absurd rfl hline
  | word | quoted | number | symbol | fileEnd =>
    unfold readAfterRows
    dsimp only
    rw [if_neg hbrace]

namespace Awaits

variable {items : List Item}

theorem cells {draft : LayoutDraft}
    (h : Awaits text .row (Reader.readRow ⟨items, .top⟩ draft) look) :
    (Parse.cells draft look).Ends (fun found after =>
      (found.1.grid = draft.grid ∧ found.1.rows = draft.rows) ∧
      if found.2 then Closes text items found.1.endRow.decl after
      else Awaits text .row (Reader.step ⟨items, found.1.endRow.behindRow⟩) after)
      (Fails text) := by
  fun_induction Parse.cells draft look with
  | case1 draft look hitem =>
    refine ⟨⟨rfl, rfl⟩, ?_⟩
    have hact : Reader.readRow ⟨items, .top⟩ draft look.current.line look.current.item =
        .ok ⟨items, draft.endRow.behindRow⟩ := by
      rw [hitem]
      rfl
    exact h.advance (by simp [hitem]) hact draft.endRow.place_behindRow
  | case2 draft look hline hitem =>
    refine h.fails ?_
    rw [hitem]
    rfl
  | case3 draft look hline hfile hitem =>
    refine ⟨⟨rfl, rfl⟩, hitem, h.congr ?_⟩
    rw [hitem]
    rfl
  | case4 draft look hline hfile hbrace hfull =>
    refine h.fails ?_
    rw [Reader.readRow_cell hline hfile hbrace, if_pos hfull]
  | case5 draft look hline hfile hbrace hroom cell hcell ih =>
    have hact : Reader.readRow ⟨items, .top⟩ draft look.current.line look.current.item =
        .ok ⟨items, .row (draft.addCell ⟨cell, look.current.line⟩)⟩ := by
      rw [Reader.readRow_cell hline hfile hbrace, if_neg hroom, hcell]
      rfl
    exact (ih (h.advance hfile hact rfl)).since look.left_advance_le
  | case6 draft look hline hfile hbrace hroom fault hcell =>
    refine h.fails ?_
    rw [Reader.readRow_cell hline hfile hbrace, if_neg hroom, hcell]
    rfl

/-- Rows end at the closing brace or when there are as many as the grid has. -/
theorem rows {wanted : Nat} {draft : LayoutDraft}
    (hwanted : draft.rows.length + wanted = draft.grid.rows)
    (h : Awaits text .row (Reader.step ⟨items, draft.behindRow⟩) look) :
    (Parse.rows wanted draft look).Ends (fun found after =>
      if found.2 then Closes text items found.1.decl after
      else Awaits text .row (Reader.step ⟨items, .afterRows found.1⟩) after) (Fails text) := by
  induction wanted generalizing draft look with
  | zero =>
    have hfull : draft.behindRow = .afterRows draft := if_pos hwanted
    rw [hfull] at h
    exact h
  | succ wanted ih =>
    have hrow : draft.behindRow = .row draft := if_neg (by omega)
    rw [hrow] at h
    refine Parse.ends_bind (cells h) ?_
    rintro ⟨found, closed⟩ after ⟨⟨hgrid, hrows⟩, hafter⟩
    cases closed with
    | true => exact hafter
    | false =>
      refine ih ?_ hafter
      change found.rows.length + 1 + wanted = found.grid.rows
      dsimp only at hgrid hrows
      rw [hgrid, hrows]
      omega

theorem emptyLines {draft : LayoutDraft}
    (h : Awaits text .row (Reader.step ⟨items, .afterRows draft⟩) look) :
    (Parse.emptyLines look).Ends (fun _ after => after.current.item ≠ .lineEnd ∧
      Awaits text .row (Reader.step ⟨items, .afterRows draft⟩) after) (Fails text) := by
  fun_induction Parse.emptyLines look with
  | case1 look hitem ih =>
    have hact : Reader.step ⟨items, .afterRows draft⟩ look.current.line look.current.item =
        .ok ⟨items, .afterRows draft⟩ := by
      rw [hitem]
      rfl
    exact (ih (h.advance (by simp [hitem]) hact rfl)).since look.left_advance_le
  | case2 look hitem => exact ⟨hitem, h⟩

theorem closing {draft : LayoutDraft} {closed : Bool}
    (h : if closed then Closes text items draft.decl look
      else Awaits text .row (Reader.step ⟨items, .afterRows draft⟩) look) :
    (Parse.closing closed draft look).Ends (fun _ after => Closes text items draft.decl after)
      (Fails text) := by
  cases closed with
  | true => exact h
  | false =>
    refine Parse.ends_bind (emptyLines h) ?_
    rintro _ after ⟨hline, hafter⟩
    refine Parse.ends_token ?_
    by_cases hbrace : after.current.item = .symbol '\x7d'
    · rw [if_pos hbrace]
      refine ⟨hbrace, hafter.congr ?_⟩
      rw [hbrace]
      rfl
    · rw [if_neg hbrace]
      exact hafter.fails (Reader.readAfterRows_other hline hbrace)

/-- Behind the brace of a head the line ends, and the first token of the rows is taken. -/
theorem rowsBegin {draft : LayoutDraft}
    (h : Awaits text .directive (Reader.step ⟨items, .layoutHeadEnd draft⟩) look) :
    (Parse.lineEnd look).Ends (fun _ after =>
      Awaits text .row (Reader.readRow ⟨items, .top⟩ draft) (after.setMode .row).advance)
      (Fails text) := by
  by_cases hend : look.current.item = .fileEnd
  · refine Parse.ends_token ?_
    rw [if_pos (by rw [hend]; rfl)]
    exact h.again hend rfl
  · have hline : Awaits text .directive (Reader.readLineEnd ⟨items, .top⟩ (.row draft)) look :=
      h.congr (if_neg hend)
    refine hline.lineEnd.imp ?_
    rintro _ after ⟨rfl, hends⟩
    exact hline.switch hend (if_pos hends)

/-- The mode is switched in time at both ends of the rows. -/
theorem layout {grid : Grid} {head : Nat} (hrows : 1 ≤ grid.rows)
    (h : Awaits text .directive (Reader.step ⟨items, .layoutName grid head⟩) look) :
    (Parse.layout head grid look).Ends
      (fun decl after =>
        Awaits text .directive (Reader.step ⟨.layout decl :: items, .afterItem⟩) after)
      (Fails text) := by
  refine Parse.ends_bind (word h fun _ => rfl) ?_
  intro name look h
  refine Parse.ends_bind (symbol h rfl) ?_
  intro _ look h
  refine Parse.ends_bind (rowsBegin h) ?_
  intro _ look h
  refine Parse.ends_setMode (Parse.ends_advance ?_)
  have hstart : (LayoutDraft.start grid name head).behindRow = .row (.start grid name head) :=
    if_neg (Nat.ne_of_lt hrows)
  have hbegin : Awaits text .row
      (Reader.step ⟨items, (LayoutDraft.start grid name head).behindRow⟩)
      (look.setMode .row).advance := by
    rw [hstart]
    exact h
  refine Parse.ends_bind (rows (Nat.zero_add _) hbegin) ?_
  rintro ⟨draft, closed⟩ look hdraft
  refine Parse.ends_bind (closing hdraft) ?_
  rintro _ look ⟨hbrace, h⟩
  refine Parse.ends_setMode (Parse.ends_advance ?_)
  exact h.switch (by simp [hbrace]) rfl

end Awaits

/-! ### Sizes and states -/

theorem Reader.readLayers_other {draft : StateDraft} {list : ListDraft} {line : Nat}
    {token : Token} (hword : ∀ word, token = .word word → False) :
    reader.readLayers draft list line token =
      reader.readAfterEntry (draft.add list.entry) line token := by
  cases token with
  | word word => exact (hword word rfl).elim
  | quoted | number | symbol | lineEnd | fileEnd => rfl

theorem Reader.readEntries_other {draft : StateDraft} {line : Nat} {token : Token}
    (hline : token ≠ .lineEnd) (hword : ∀ word, token ≠ .word word)
    (hbrace : token ≠ .symbol '\x7d') :
    reader.readEntries draft line token =
      .error (.parse line (.unexpectedInside token .state draft.name)) := by
  cases token with
  | lineEnd => exact absurd rfl hline
  | word word => exact absurd rfl (hword word)
  | quoted | number | symbol | fileEnd =>
    unfold readEntries
    dsimp only
    rw [if_neg hbrace]

theorem Reader.readMetaKind_unknown {draft : StateDraft} {slot : SlotDraft} {word : String}
    {line : Nat} (hdead : word ≠ "dead") (hstate : word ≠ "state") (hlatch : word ≠ "deadlatch") :
    reader.readMetaKind draft slot line (.word word) =
      .error (.parse slot.line (.unknownMetaKind word)) := by
  unfold readMetaKind
  split
  · rename_i hword
    cases hword
    exact absurd rfl hdead
  · rename_i hword
    cases hword
    exact absurd rfl hstate
  · rename_i hword
    cases hword
    exact absurd rfl hlatch
  · rename_i hword
    cases hword
    rfl
  · rename_i hother
    exact absurd rfl (hother word)

theorem Reader.readMetaKind_other {draft : StateDraft} {slot : SlotDraft} {line : Nat}
    {token : Token} {fault : Fault} (h : wordOf .metaKind token = .error fault) :
    reader.readMetaKind draft slot line token = .error (.parse line fault) := by
  cases token with
  | word word => cases h
  | quoted | number | symbol | lineEnd | fileEnd =>
    cases h
    rfl

namespace Awaits

variable {items : List Item} {draft : StateDraft}

theorem size {head : Nat}
    (h : Awaits text .directive (Reader.step ⟨items, .sizeRows head⟩) look) :
    (Parse.size head false look).Ends
      (fun decl after =>
        Awaits text .directive (Reader.step ⟨.size decl :: items, .afterItem⟩) after)
      (Fails text) := by
  refine Parse.ends_bind (dimension h fun _ => rfl) ?_
  intro rows look h
  refine Parse.ends_bind (dimension h fun _ => rfl) ?_
  intro cols look h
  exact h

theorem modified {use : ListUse} {head : Nat} {list : List LayerRef} {word : String}
    {modifier : Modifier} (hitem : look.current.item = .word word)
    (hmodifier : Modifier.ofWord? word = some modifier)
    (h : Awaits text .directive (Reader.step ⟨items, .layers draft ⟨use, head, list⟩⟩) look) :
    (Parse.modified look.advance).Ends
      (fun name after => Awaits text .directive (Reader.step ⟨items, .layers draft
        ⟨use, head, ⟨modifier, name, look.current.line⟩ :: list⟩⟩) after)
      (Fails text) := by
  have hact : Reader.readLayers ⟨items, .top⟩ draft ⟨use, head, list⟩ look.current.line
      look.current.item =
      .ok ⟨items, .layerColon draft ⟨use, head, list⟩ modifier look.current.line⟩ := by
    rw [hitem, Reader.readLayers, hmodifier]
    rfl
  refine Parse.ends_bind (symbol (h.advance (by simp [hitem]) hact rfl) rfl) ?_
  intro _ look h
  exact h.word fun _ => rfl

/-- Behind a list of layers stands what may stand behind its entry. -/
theorem layers {use : ListUse} {head : Nat} {list : List LayerRef}
    (h : Awaits text .directive (Reader.step ⟨items, .layers draft ⟨use, head, list⟩⟩) look) :
    (Parse.layers list look).Ends
      (fun found after => Awaits text .directive (Reader.readAfterEntry ⟨items, .top⟩
        (draft.add (ListDraft.entry ⟨use, head, found.reverse⟩))) after)
      (Fails text) := by
  fun_induction Parse.layers list look with
  | case1 list look word hitem hplain ih =>
    have hact : Reader.readLayers ⟨items, .top⟩ draft ⟨use, head, list⟩ look.current.line
        look.current.item =
        .ok ⟨items, .layers draft ⟨use, head, ⟨.plain, word, look.current.line⟩ :: list⟩⟩ := by
      rw [hitem, Reader.readLayers, hplain]
      rfl
    exact (ih (h.advance (by simp [hitem]) hact rfl)).since look.left_advance_le
  | case2 list look word hitem modifier hmodifier name after hafter hname ih =>
    have hmodified := modified hitem hmodifier h
    rw [hname] at hmodified
    exact (ih hmodified).since _
  | case3 list look word hitem modifier hmodifier e after hname =>
    have hmodified := modified hitem hmodifier h
    rw [hname] at hmodified
    exact hmodified
  | case4 list look hitem =>
    refine h.congr ?_
    rw [List.reverse_reverse]
    exact Reader.readLayers_other hitem

theorem label {head : Nat} {digits : String}
    (h : Awaits text .directive (Reader.step ⟨items, .metaLabel draft head digits⟩) look) :
    (Parse.label look).Ends
      (fun label after => Awaits text .directive
        (Reader.step ⟨items, .metaKind draft ⟨head, digits, label⟩⟩) after)
      (Fails text) := by
  refine Parse.ends_token ?_
  cases hfound : labelOf look.current.item with
  | ok label =>
    have hne : look.current.item ≠ .fileEnd := by
      intro hend
      rw [hend] at hfound
      cases hfound
    have hact : Reader.step ⟨items, .metaLabel draft head digits⟩ look.current.line
        look.current.item = .ok ⟨items, .metaKind draft ⟨head, digits, label⟩⟩ := by
      unfold Reader.step
      dsimp only
      rw [hfound]
      rfl
    exact h.advance hne hact rfl
  | error fault =>
    refine h.fails ?_
    unfold Reader.step
    dsimp only
    rw [hfound]

/-- The word that says what a key does is not refused before the token behind it is in hand. -/
theorem change {slot : SlotDraft}
    (h : Awaits text .directive (Reader.readMetaKind ⟨items, .top⟩ draft slot) look) :
    (Parse.change slot.line look).Ends
      (fun change after => Awaits text .directive (Reader.readAfterEntry ⟨items, .top⟩
        (draft.add (.slot slot.digits slot.label change slot.line))) after)
      (Fails text) := by
  have hword : (Parse.word .metaKind look).Ends
      (fun kind after => after = look.advance ∧ look.current.item = .word kind)
      (Fails text) := by
    refine Parse.ends_word ?_ ?_
    · intro kind hkind
      exact ⟨rfl, hkind⟩
    · intro fault hfault
      exact h.fails (Reader.readMetaKind_other hfault)
  refine Parse.ends_bind hword ?_
  rintro kind _ ⟨rfl, hkind⟩
  have hne : look.current.item ≠ .fileEnd := by simp [hkind]
  split
  · have hact : Reader.readMetaKind ⟨items, .top⟩ draft slot look.current.line
        look.current.item =
        .ok ⟨items, .layers draft ⟨.dead slot.digits slot.label, slot.line, []⟩⟩ := by
      rw [hkind]
      rfl
    refine Parse.ends_bind (layers (h.advance hne hact rfl)) ?_
    intro found after hfound
    rw [ListDraft.entry, List.reverse_reverse] at hfound
    exact hfound
  · have hact : Reader.readMetaKind ⟨items, .top⟩ draft slot look.current.line
        look.current.item = .ok ⟨items, .metaTarget draft slot false⟩ := by
      rw [hkind]
      rfl
    refine Parse.ends_bind (word (h.advance hne hact rfl) fun _ => rfl) ?_
    intro target after htarget
    exact htarget
  · have hact : Reader.readMetaKind ⟨items, .top⟩ draft slot look.current.line
        look.current.item = .ok ⟨items, .metaTarget draft slot true⟩ := by
      rw [hkind]
      rfl
    refine Parse.ends_bind (word (h.advance hne hact rfl) fun _ => rfl) ?_
    intro target after htarget
    exact htarget
  · rename_i hdead hstate hlatch
    refine h.fails_behind hkind ?_
    rw [hkind]
    exact Reader.readMetaKind_unknown hdead hstate hlatch

theorem entry {keyword : String} (hitem : look.current.item = .word keyword)
    (h : Awaits text .directive (Reader.readEntries ⟨items, .top⟩ draft) look) :
    (Parse.entry look.current.line keyword look.advance).Ends
      (fun entry after => Awaits text .directive (Reader.readAfterEntry ⟨items, .top⟩
        (draft.add entry)) after)
      (Fails text) := by
  have hne : look.current.item ≠ .fileEnd := by simp [hitem]
  rw [Parse.entry]
  cases hswipe : Swipe.ofKeyword? keyword with
  | some swipe =>
    have hact : Reader.readEntries ⟨items, .top⟩ draft look.current.line look.current.item =
        .ok ⟨items, .layers draft ⟨.swipe swipe, look.current.line, []⟩⟩ := by
      rw [hitem, Reader.readEntries, hswipe]
      rfl
    refine Parse.ends_bind (layers (h.advance hne hact rfl)) ?_
    intro found after hfound
    rw [ListDraft.entry, List.reverse_reverse] at hfound
    exact hfound
  | none =>
    cases hdigits : slotDigits? keyword with
    | none =>
      refine h.fails_behind hitem ?_
      rw [hitem, Reader.readEntries, hswipe, hdigits]
    | some digits =>
      have hact : Reader.readEntries ⟨items, .top⟩ draft look.current.line look.current.item =
          .ok ⟨items, .metaLabel draft look.current.line digits⟩ := by
        rw [hitem, Reader.readEntries, hswipe, hdigits]
        rfl
      refine Parse.ends_bind (label (h.advance hne hact rfl)) ?_
      intro label after hlabel
      refine Parse.ends_bind (change hlabel) ?_
      intro change after hchange
      exact hchange

theorem entryEnd
    (h : Awaits text .directive (Reader.readAfterEntry ⟨items, .top⟩ draft) look) :
    (Parse.entryEnd look).Ends
      (fun _ after => Awaits text .directive (Reader.readEntries ⟨items, .top⟩ draft) after)
      (Fails text) := by
  refine Parse.ends_token ?_
  by_cases hbrace : look.current.item = .symbol '\x7d'
  · rw [if_pos hbrace]
    exact h.congr (if_pos (Or.inr hbrace))
  · rw [if_neg hbrace]
    refine Parse.ends_token ?_
    by_cases hends : look.current.item.endsLine
    · rw [if_pos hends]
      exact h.congr (if_pos (Or.inl hends))
    · rw [if_neg hends]
      exact h.fails (if_neg (not_or_intro hends hbrace))

theorem entryLine {keyword : String} (hitem : look.current.item = .word keyword)
    (h : Awaits text .directive (Reader.readEntries ⟨items, .top⟩ draft) look) :
    (Parse.entryLine look.current.line keyword look.advance).Ends
      (fun entry after => Awaits text .directive (Reader.readEntries ⟨items, .top⟩
        (draft.add entry)) after)
      (Fails text) := by
  refine Parse.ends_bind (entry hitem h) ?_
  intro entry after hentry
  exact Parse.ends_bind (entryEnd hentry) fun _ _ hend => hend

theorem entries
    (h : Awaits text .directive (Reader.readEntries ⟨items, .top⟩ draft) look) :
    (Parse.entries draft look).Ends
      (fun decl after =>
        Awaits text .directive (Reader.step ⟨.state decl :: items, .afterItem⟩) after)
      (Fails text) := by
  fun_induction Parse.entries draft look with
  | case1 draft look hitem ih =>
    have hact : Reader.readEntries ⟨items, .top⟩ draft look.current.line look.current.item =
        .ok ⟨items, .entries draft⟩ := by
      rw [hitem]
      rfl
    exact (ih (h.advance (by simp [hitem]) hact rfl)).since look.left_advance_le
  | case2 draft look keyword hitem entry after hafter hentry ih =>
    have hline := entryLine hitem h
    rw [hentry] at hline
    exact (ih hline).since _
  | case3 draft look keyword hitem e after hentry =>
    have hline := entryLine hitem h
    rw [hentry] at hline
    exact hline
  | case4 draft look hline hword hbrace =>
    have hact : Reader.readEntries ⟨items, .top⟩ draft look.current.line look.current.item =
        .ok ⟨.state draft.decl :: items, .afterItem⟩ := by
      rw [hbrace]
      rfl
    exact h.advance (by simp [hbrace]) hact rfl
  | case5 draft look hline hword hbrace =>
    exact h.fails (Reader.readEntries_other hline hword hbrace)

/-- Behind the brace of a head the line ends, and the first token of the entries is taken. -/
theorem entriesBegin
    (h : Awaits text .directive (Reader.step ⟨items, .stateHeadEnd draft⟩) look) :
    (Parse.lineEnd look).Ends (fun _ after =>
      Awaits text .directive (Reader.readEntries ⟨items, .top⟩ draft) after.advance)
      (Fails text) := by
  by_cases hend : look.current.item = .fileEnd
  · refine Parse.ends_token ?_
    rw [if_pos (by rw [hend]; rfl)]
    change Awaits text .directive _ (look.setMode look.mode).advance
    exact h.again hend rfl
  · have hline : Awaits text .directive (Reader.readLineEnd ⟨items, .top⟩ (.entries draft))
        look := h.congr (if_neg hend)
    refine hline.lineEnd.imp ?_
    rintro _ after ⟨rfl, hends⟩
    exact hline.advance hend (if_pos hends) rfl

theorem state {head : Nat}
    (h : Awaits text .directive (Reader.step ⟨items, .stateName head⟩) look) :
    (Parse.state head look).Ends
      (fun decl after =>
        Awaits text .directive (Reader.step ⟨.state decl :: items, .afterItem⟩) after)
      (Fails text) := by
  refine Parse.ends_bind (word h fun _ => rfl) ?_
  intro name look h
  refine Parse.ends_bind (symbol h rfl) ?_
  intro _ look h
  refine Parse.ends_bind (entriesBegin h) ?_
  intro _ look h
  refine Parse.ends_advance ?_
  exact entries h

end Awaits

/-! ### Whole files -/

theorem exists_locate_of_append {line : Nat} {lexemes : List Lexeme}
    {front back : List (Located Lexeme)} (h : locate line lexemes = front ++ back) :
    ∃ first, front = locate line first := by
  induction front generalizing line lexemes with
  | nil => exact ⟨[], rfl⟩
  | cons found front ih =>
    cases lexemes with
    | nil => cases h
    | cons lexeme lexemes =>
      rw [locate, List.cons_append, List.cons.injEq] at h
      obtain ⟨first, rfl⟩ := ih h.2
      exact ⟨lexeme :: first, by rw [← h.1, locate]⟩

/-- A layout has at least one row. -/
theorem Awaits.rows_pos {items : List Item} {grid : Grid} {head : Nat}
    (h : Awaits text place act look) (hne : look.current.item ≠ .fileEnd)
    (hact : act look.current.line look.current.item = .ok ⟨items, .layoutName grid head⟩) :
    1 ≤ grid.rows := by
  obtain ⟨lexemes, hlocated, _, _, hfound⟩ := lexemes_located text.toList
  have hrun := h.run hne hact
  have hsplit := h.steady.lexemes
  rw [← hsplit] at hfound
  rw [hlocated] at hsplit
  obtain ⟨first, hfirst⟩ := exists_locate_of_append hsplit.symm
  rw [hfirst] at hrun hfound
  have hreader := Reader.run_found (Reader.found_start text.toList)
    (fun lexeme hin => hfound lexeme (List.mem_append_left _ hin)) hrun
  exact hreader.items.rows_pos hreader.position.2.2

theorem Reader.readTop_unknown {word : String} {line : Nat} (hsize : word ≠ "size")
    (hlayout : word ≠ "layout") (hstate : word ≠ "state") :
    reader.readTop line (.word word) = .error (.parse line (.unknownDirective word)) := by
  unfold readTop
  split
  · rename_i hword
    cases hword
  · rename_i hword
    cases hword
  · rename_i hword
    cases hword
    exact absurd rfl hsize
  · rename_i hword
    cases hword
    exact absurd rfl hlayout
  · rename_i hword
    cases hword
    exact absurd rfl hstate
  · rename_i hword
    cases hword
    rfl
  · rename_i hother
    exact absurd rfl (hother word)

theorem Reader.readTop_other {line : Nat} {token : Token} (hline : token ≠ .lineEnd)
    (hfile : token ≠ .fileEnd) (hword : ∀ word, token ≠ .word word) :
    reader.readTop line token = .error (.parse line (.unexpected token)) := by
  cases token with
  | lineEnd => exact absurd rfl hline
  | fileEnd => exact absurd rfl hfile
  | word word => exact absurd rfl (hword word)
  | quoted | number | symbol => rfl

namespace Awaits

variable {list : List Item} {grid? : Option Grid} {hasLayout : Bool}

theorem behind_error {word : String} (hitem : look.current.item = .word word)
    (hgrid : Reader.grid? ⟨list, .top⟩ = grid?)
    (h : Awaits text .directive (Reader.readTop ⟨list, .top⟩) look)
    (hbehind : Parse.behind look.current.line grid? hasLayout word = .error e) :
    Fails text e look := by
  refine h.fails ?_
  rw [hitem]
  unfold Parse.behind at hbehind
  split at hbehind
  · cases hbehind
  · split at hbehind
    · cases hbehind
      simp only [Reader.readTop, hgrid]
    · cases hbehind
  · cases hbehind
  · rename_i hsize hlayout hstate
    cases hbehind
    exact Reader.readTop_unknown hsize hlayout hstate

/-- A declaration is followed by what may follow a complete one. -/
theorem behind {word : String} {item : Parse Item} (hitem : look.current.item = .word word)
    (hgrid : Reader.grid? ⟨list, .top⟩ = grid?)
    (hlayout : Reader.hasLayout ⟨list, .top⟩ = hasLayout)
    (h : Awaits text .directive (Reader.readTop ⟨list, .top⟩) look)
    (hbehind : Parse.behind look.current.line grid? hasLayout word = .ok item) :
    (item look.advance).Ends
      (fun item after => Awaits text .directive (Reader.step ⟨item :: list, .afterItem⟩) after)
      (Fails text) := by
  have hne : look.current.item ≠ .fileEnd := by simp [hitem]
  unfold Parse.behind at hbehind
  split at hbehind
  · cases hbehind
    refine Parse.ends_map ?_
    cases hasLayout with
    | true =>
      refine h.fails_behind hitem ?_
      rw [hitem]
      exact if_pos hlayout
    | false =>
      have hact : Reader.readTop ⟨list, .top⟩ look.current.line look.current.item =
          .ok ⟨list, .sizeRows look.current.line⟩ := by
        rw [hitem]
        exact if_neg (by rw [hlayout]; decide)
      exact size (h.advance hne hact rfl)
  · split at hbehind
    · cases hbehind
    · rename_i grid
      cases hbehind
      refine Parse.ends_map ?_
      have hact : Reader.readTop ⟨list, .top⟩ look.current.line look.current.item =
          .ok ⟨list, .layoutName grid look.current.line⟩ := by
        simp only [hitem, Reader.readTop, hgrid]
        rfl
      exact layout (h.rows_pos hne hact) (h.advance hne hact rfl)
  · cases hbehind
    refine Parse.ends_map ?_
    have hact : Reader.readTop ⟨list, .top⟩ look.current.line look.current.item =
        .ok ⟨list, .stateName look.current.line⟩ := by
      rw [hitem]
      rfl
    exact state (h.advance hne hact rfl)
  · cases hbehind

theorem itemLine {item : Parse Item}
    (h : (item look).Ends
      (fun item after => Awaits text .directive (Reader.step ⟨item :: list, .afterItem⟩) after)
      (Fails text)) :
    (Parse.itemLine item look).Ends
      (fun item after => Awaits text .directive (Reader.readTop ⟨item :: list, .top⟩) after)
      (Fails text) := by
  refine Parse.ends_bind h ?_
  intro item after hafter
  refine Parse.ends_bind (Awaits.lineEnd hafter) ?_
  rintro _ _ ⟨rfl, hends⟩
  exact hafter.congr
    ((Reader.readLineEnd_ends hends).trans (Reader.readTop_ends hends).symm)

/-- A file read with a token in hand has the declarations that a reader finds in it. -/
theorem items (hgrid : Reader.grid? ⟨list, .top⟩ = grid?)
    (hlayout : Reader.hasLayout ⟨list, .top⟩ = hasLayout)
    (h : Awaits text .directive (Reader.readTop ⟨list, .top⟩) look) :
    (Parse.items grid? hasLayout list look).Ends
      (fun found after => declarations text = .ok found ∧ after.Steady text ∧ after.Through)
      (Fails text) := by
  fun_induction Parse.items grid? hasLayout list look with
  | case1 grid? hasLayout list look hitem ih =>
    have hact : Reader.readTop ⟨list, .top⟩ look.current.line look.current.item =
        .ok ⟨list, .top⟩ := by
      rw [hitem]
      rfl
    exact (ih hgrid hlayout (h.advance (by simp [hitem]) hact rfl)).since look.left_advance_le
  | case2 grid? hasLayout list look hitem =>
    have hact : Reader.readTop ⟨list, .top⟩ look.current.line look.current.item =
        .ok ⟨list, .top⟩ := by
      rw [hitem]
      rfl
    exact h.accepts hitem hact
  | case3 grid? hasLayout list look word hitem e hbehind =>
    exact behind_error hitem hgrid h hbehind
  | case4 grid? hasLayout list look word hitem parse hbehind item after hafter hline ih =>
    have hitemLine := itemLine (behind hitem hgrid hlayout h hbehind)
    rw [hline] at hitemLine
    refine (ih ?_ ?_ hitemLine).since _
    · rw [← hgrid, Reader.grid?, List.findSome?_cons]
      cases item.grid? <;> rfl
    · rw [← hlayout]
      exact List.any_cons
  | case5 grid? hasLayout list look word hitem parse hbehind e after hline =>
    have hitemLine := itemLine (behind hitem hgrid hlayout h hbehind)
    rw [hline] at hitemLine
    exact hitemLine
  | case6 grid? hasLayout list look hline hfile hword =>
    exact h.fails (Reader.readTop_other hline hfile hword)

end Awaits

theorem parse_eq (text : String) :
    (parse text).result = declarations text ∧ (parse text).after.Steady text ∧
      (parse text).after.Through := by
  have hends := Awaits.items rfl rfl (Awaits.start text)
  change (parse text).Ends _ _ at hends
  generalize parse text = outcome at hends
  cases outcome with
  | ok found after h => exact ⟨hends.1.symm, hends.2⟩
  | error e after => exact ⟨hends.1.symm, hends.2⟩

theorem Place.eq_directive {place : Place} (h : place ≠ .row) : place = .directive := by
  cases place with
  | directive => rfl
  | row => exact absurd rfl h

theorem Place.eq_of_row_iff {first second : Place} (h : first = .row ↔ second = .row) :
    first = second := by
  cases first with
  | row => exact (h.mp rfl).symm
  | directive =>
    refine (Place.eq_directive fun hrow => ?_).symm
    cases h.mpr hrow

/-- A lexeme that a reader comes to has been taken, in the mode of its position. -/
theorem Lookahead.Steady.exists_taken (h : look.Steady text) (hthrough : look.Through)
    {front back : List (Located Lexeme)} {lexeme : Located Lexeme}
    (hsplit : (scan text.toList).lexemes = front ++ lexeme :: back)
    (hrun : readLexemes front = .ok reader) :
    ∃ before after, look.taken = before ++ (lexeme, reader.position.place) :: after ∧
      before.map (·.1) = front := by
  -- If the lexemes taken ended in front of this one, the reader would have refused none of them.
  have hmore : ∀ gap, front ≠ look.taken.map (·.1) ++ gap := by
    rintro gap rfl
    obtain ⟨middle, hmiddle, _⟩ := foldlM_append_eq_ok_iff.mp hrun
    rcases hthrough with hrest | hrefused
    · have hlength := congrArg List.length (h.lexemes.trans hsplit)
      simp only [hrest, List.append_nil, List.length_append, List.length_cons] at hlength
      omega
    · exact hrefused middle hmiddle
  rcases List.append_eq_append_iff.mp (h.lexemes.trans hsplit) with
    ⟨gap, hfront, _⟩ | ⟨gap, htaken, hgap⟩
  · exact absurd hfront (hmore gap)
  · cases gap with
    | nil =>
      rw [List.append_nil] at htaken
      exact absurd (htaken.symm.trans (List.append_nil _).symm) (hmore [])
    | cons found gap =>
      cases hgap
      obtain ⟨before, others, hothers, hbefore, hmap⟩ := List.map_eq_append_iff.mp htaken
      obtain ⟨⟨_, mode⟩, after, rfl, rfl, _⟩ := List.map_eq_cons_iff.mp hmap
      refine ⟨before, after, ?_, hbefore⟩
      have hmode := h.inStep _ _ mode after hothers
      rw [hbefore, ← Reader.place_eq_row_iff hrun] at hmode
      rw [hothers, Place.eq_of_row_iff hmode]

/-- Reading with a token in hand keeps the mode in step with what is read. It finds the
declarations of the text, or the error in it. It takes every lexeme that a reader comes to, in
the mode of the reader's position; and whatever it takes, it takes in the mode of rows exactly if
it is in the body of a layout. So in rows nothing is a number, and elsewhere all digits are; the
token behind a closing brace is one of a directive, and so is any token behind one of a directive
on the same line, as those of sizes and the labels of slots are, however many layouts there are
in front. No number is ever refused as a key. -/
theorem mode_in_step (text : String) :
    (parse text).result = declarations text ∧
    (parse text).after.taken.map (·.1) <+: (scan text.toList).lexemes ∧
    (∀ front lexeme back reader, (scan text.toList).lexemes = front ++ lexeme :: back →
      readLexemes front = .ok reader →
      ∃ before after,
        (parse text).after.taken = before ++ (lexeme, reader.position.place) :: after ∧
        before.map (·.1) = front) ∧
    (∀ before lexeme mode after,
      (parse text).after.taken = before ++ (lexeme, mode) :: after →
      (mode = .row ↔ InBody (before.map (·.1))) ∧
      (mode = .row → ∀ value, Token.ofLexeme mode lexeme.item ≠ .number value) ∧
      (mode = .directive → ∀ digits, lexeme.item = .word digits →
        Decimal.isDigits digits.toList →
        Token.ofLexeme mode lexeme.item = .number (.ofDigits digits.toList))) ∧
    (∀ before lexeme mode next other after,
      (parse text).after.taken = before ++ (lexeme, mode) :: (next, other) :: after →
      (lexeme.item = .symbol '\x7d' → other = .directive) ∧
      (mode = .directive → lexeme.item ≠ .lineEnd → other = .directive)) ∧
    ∀ line fault found, declarations text = .error (.parse line fault) →
      fault.message ≠ "Unexpected " ++ found ++ " in layout" := by
  obtain ⟨hresult, hsteady, hthrough⟩ := parse_eq text
  refine ⟨hresult, ⟨_, hsteady.lexemes⟩, ?_, ?_, ?_, ?_⟩
  · intro front lexeme back reader hsplit hrun
    exact hsteady.exists_taken hthrough hsplit hrun
  · intro before lexeme mode after htaken
    refine ⟨hsteady.inStep before lexeme mode after htaken, ?_, ?_⟩
    · rintro rfl
      exact Token.ofLexeme_row_ne_number lexeme.item
    · rintro rfl digits hitem hdigits
      rw [hitem]
      exact ofLexeme_digits hdigits
  · intro before lexeme mode next other after htaken
    have hmode := hsteady.inStep before lexeme mode _ htaken
    have hother := hsteady.inStep (before ++ [(lexeme, mode)]) next other after
      (by rw [htaken, List.append_assoc, List.singleton_append])
    rw [List.map_append] at hother
    constructor
    · intro hbrace
      refine Place.eq_directive fun hrow => ?_
      rcases InBody.of_concat (hother.mp hrow) with ⟨_, hne⟩ | hend
      · exact hne hbrace
      · rw [hbrace] at hend
        cases hend
    · rintro rfl hline
      refine Place.eq_directive fun hrow => ?_
      rcases InBody.of_concat (hother.mp hrow) with ⟨hbody, _⟩ | hend
      · cases hmode.mpr hbody
      · exact hline hend
  · intro line fault found h hmessage
    obtain ⟨token, rfl⟩ := Fault.eq_noKey_of_message hmessage
    exact declarations_ne_noKey text line token h

/-- A row that is not written is full all the same, and a size that is refused has its number. -/
example : (parse "size 2 2\nlayout a \x7b\n1\n\n \n\x7d\nsize 3 3").after.taken.map (·.2) =
    List.replicate 8 .directive ++ List.replicate 5 .row ++ List.replicate 3 .directive := by
  decide +kernel

end KeyGrid.Source
