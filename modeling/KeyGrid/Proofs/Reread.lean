import KeyGrid.Proofs.Accepted
import KeyGrid.Proofs.Printed

/-!
# Reading canonical texts

Reading undoes printing. The lexemes of a printed line lead a reader to the position
behind what the line declares, so that a whole canonical text gives back the declarations
it was printed from, with the lines that they were printed on.
-/

namespace KeyGrid.Source

/-! ### Declarations on the lines of their text -/

def CellDecl.on (line : Nat) (decl : CellDecl) : CellDecl := { decl with line := line }

def LayerRef.on (line : Nat) (ref : LayerRef) : LayerRef := { ref with line := line }

def MetaDecl.on (line : Nat) : MetaDecl → MetaDecl
  | .dead refs => .dead (refs.map (·.on line))
  | .state target => .state target
  | .deadLatch target => .deadLatch target

def Entry.on (line : Nat) : Entry → Entry
  | .layers swipe refs _ => .layers swipe (refs.map (·.on line)) line
  | .slot digits label change _ => .slot digits label (change.on line) line

/-- Rows one by one from a line on. -/
def rowsOn (line : Nat) : List (List CellDecl) → List (List CellDecl)
  | [] => []
  | cells :: others => cells.map (·.on line) :: rowsOn (line + 1) others

/-- Entries one by one from a line on. -/
def entriesOn (line : Nat) : List Entry → List Entry
  | [] => []
  | entry :: others => entry.on line :: entriesOn (line + 1) others

def Item.on (line : Nat) : Item → Item
  | .size decl => .size { decl with line := line }
  | .layout decl => .layout ⟨decl.name, line, rowsOn (line + 1) decl.rows⟩
  | .state decl => .state ⟨decl.name, line, entriesOn (line + 1) decl.entries⟩

/-- Declarations with the lines that they have when printed from a line on. -/
def itemsOn (line : Nat) : List Item → List Item
  | [] => []
  | item :: others => item.on line :: itemsOn (line + item.lines.length) others

theorem itemsOn_append (line : Nat) (front back : List Item) :
    itemsOn line (front ++ back) =
      itemsOn line front ++ itemsOn (line + (front.flatMap Item.lines).length) back := by
  induction front generalizing line with
  | nil => rfl
  | cons item front ih =>
    rw [List.cons_append, itemsOn, ih, List.flatMap_cons, List.length_append, Nat.add_assoc]
    rfl

theorem filterMap_grid?_itemsOn (line : Nat) (items : List Item) :
    (itemsOn line items).filterMap Item.grid? = items.filterMap Item.grid? := by
  induction items generalizing line with
  | nil => rfl
  | cons item items ih =>
    rw [itemsOn, List.filterMap_cons, List.filterMap_cons, ih]
    cases item <;> rfl

theorem length_layouts_itemsOn (line : Nat) (items : List Item) :
    (layouts (itemsOn line items)).length = (layouts items).length := by
  unfold layouts
  induction items generalizing line with
  | nil => rfl
  | cons item items ih =>
    rw [itemsOn, List.filterMap_cons, List.filterMap_cons]
    have hrest := ih (line + item.lines.length)
    cases item with
    | size decl => exact hrest
    | layout decl => exact congrArg (· + 1) hrest
    | state decl => exact hrest

/-- What can stand behind declarations does not depend on their lines. -/
theorem Item.Arranged.behind_itemsOn {front : List Item} {item : Item}
    (h : item.Arranged front) (line : Nat) : item.Arranged (itemsOn line front) := by
  cases item with
  | size decl =>
    have hlength := length_layouts_itemsOn line front
    rw [h.2, List.length_nil] at hlength
    exact ⟨h.1, List.length_eq_zero_iff.mp hlength⟩
  | layout decl =>
    obtain ⟨grid, hgrid, hfits⟩ := h
    refine ⟨grid, ?_, hfits⟩
    rw [← hgrid]
    unfold gridBehind?
    rw [filterMap_grid?_itemsOn]
  | state decl => exact h

/-! ### Runs of a reader -/

/-- Lexemes from a line on lead a reader to another one, and to the line behind them. -/
structure Leads (line : Nat) (reader : Reader) (lexemes : List Lexeme) (behind : Nat)
    (next : Reader) : Prop where
  behind_eq : lineBehind line lexemes = behind
  run : (locate line lexemes).foldlM Reader.read reader = .ok next

namespace Leads

variable {line behind : Nat} {reader middle next : Reader} {lexemes : List Lexeme}

theorem nil : Leads line reader [] line reader := ⟨rfl, rfl⟩

theorem cons {lexeme : Lexeme} {token : Token}
    (ht : Token.ofLexeme reader.position.place lexeme = token)
    (hs : reader.step line token = .ok middle)
    (hrest : Leads (lexeme.lineBehind line) middle lexemes behind next) :
    Leads line reader (lexeme :: lexemes) behind next := by
  refine ⟨hrest.behind_eq, ?_⟩
  have hread : reader.read ⟨line, lexeme⟩ = .ok middle := by
    unfold Reader.read
    rw [ht]
    exact hs
  rw [locate, List.foldlM_cons, hread]
  exact hrest.run

theorem append {front back : List Lexeme} {between : Nat}
    (hfront : Leads line reader front between middle)
    (hback : Leads between middle back behind next) :
    Leads line reader (front ++ back) behind next := by
  constructor
  · rw [lineBehind_append, hfront.behind_eq, hback.behind_eq]
  · rw [locate_append, List.foldlM_append, hfront.run, hfront.behind_eq]
    exact hback.run

/-- A word that is no number anywhere. -/
theorem word {text : String} (hd : Decimal.isDigits text.toList = false)
    (hs : reader.step line (.word text) = .ok middle)
    (hrest : Leads line middle lexemes behind next) :
    Leads line reader (.word text :: lexemes) behind next := by
  have htoken : Token.ofLexeme reader.position.place (.word text) = .word text := by
    simp [Token.ofLexeme, Token.ofWord, hd]
  exact cons htoken hs hrest

theorem quoted {text : String} {closed : Bool}
    (hs : reader.step line (.quoted text) = .ok middle)
    (hrest : Leads line middle lexemes behind next) :
    Leads line reader (.quoted text closed :: lexemes) behind next := cons rfl hs hrest

theorem symbol {c : Char} (hs : reader.step line (.symbol c) = .ok middle)
    (hrest : Leads line middle lexemes behind next) :
    Leads line reader (.symbol c :: lexemes) behind next := cons rfl hs hrest

theorem lineEnd (hs : reader.step line .lineEnd = .ok next) :
    Leads line reader [.lineEnd] (line + 1) next := cons rfl hs nil

end Leads

/-! ### States -/

theorem leads_ref (items : List Item) (draft : StateDraft) (list : ListDraft) (line : Nat)
    {ref : LayerRef} (h : ref.Proper) :
    Leads line ⟨items, .layers draft list⟩ ref.piece line
      ⟨items, .layers draft (list.add (ref.on line))⟩ := by
  obtain ⟨modifier, name, _⟩ := ref
  have hname := h.name.2
  have hprefixed : ∀ keyword marked, Decimal.isDigits keyword.toList = false →
      Modifier.ofWord? keyword = some marked →
      Leads line ⟨items, .layers draft list⟩ [.word keyword, .symbol ':', .word name] line
        ⟨items, .layers draft (list.add ⟨marked, name, line⟩)⟩ := by
    intro keyword marked hdigits hmarked
    have hopen : Reader.step ⟨items, .layers draft list⟩ line (.word keyword) =
        .ok ⟨items, .layerColon draft list marked line⟩ := by
      simp only [Reader.step, Reader.readLayers, hmarked]
      rfl
    exact .word hdigits hopen (.symbol rfl (.word hname rfl .nil))
  cases modifier with
  | plain =>
    have hplain := (ofWord?_eq_none_iff name).mpr (h.plain rfl)
    apply Leads.word hname _ .nil
    simp only [Reader.step, Reader.readLayers, hplain]
    rfl
  | shift => exact hprefixed "shift" .shift (by decide) rfl
  | ctrl => exact hprefixed "ctrl" .ctrl (by decide) rfl

theorem leads_refs (items : List Item) (draft : StateDraft) (list : ListDraft) (line : Nat)
    {refs : List LayerRef} (h : ∀ ref ∈ refs, ref.Proper) :
    Leads line ⟨items, .layers draft list⟩ (refs.map LayerRef.piece).flatten line
      ⟨items, .layers draft
        { list with layers := (refs.map (·.on line)).reverse ++ list.layers }⟩ := by
  induction refs generalizing list with
  | nil => exact .nil
  | cons ref refs ih =>
    have hfirst := leads_ref items draft list line (h ref (List.mem_cons_self ..))
    have hothers := ih (list.add (ref.on line))
      (fun other hother => h other (List.mem_cons_of_mem _ hother))
    rw [List.map_cons, List.map_cons, List.flatten_cons, List.reverse_cons, List.append_assoc]
    exact hfirst.append hothers

/-- A list up to the end of its line makes up an entry. -/
theorem leads_list (items : List Item) (draft : StateDraft) (use : ListUse) (line : Nat)
    {refs : List LayerRef} (h : ∀ ref ∈ refs, ref.Proper) :
    Leads line ⟨items, .layers draft ⟨use, line, []⟩⟩
      ((refs.map LayerRef.piece).flatten ++ [.lineEnd]) (line + 1)
      ⟨items, .entries
        (draft.add (ListDraft.entry ⟨use, line, (refs.map (·.on line)).reverse⟩))⟩ := by
  have hrefs := leads_refs items draft ⟨use, line, []⟩ line h
  rw [List.append_nil] at hrefs
  exact hrefs.append (.lineEnd rfl)

theorem slotWord_ne {word : String} (h : word.toList.head? ≠ some 'S') (digits : String) :
    "S" ++ digits ≠ word := by
  intro hword
  apply h
  rw [← hword, String.toList_append]
  rfl

theorem ofKeyword?_slot (digits : String) : Swipe.ofKeyword? ("S" ++ digits) = none := by
  unfold Swipe.ofKeyword?
  rw [List.find?_eq_none]
  intro swipe _ hkeyword
  have hhead : swipe.keyword.toList.head? ≠ some 'S' := by cases swipe <;> decide
  exact slotWord_ne hhead digits (beq_iff_eq.mp hkeyword).symm

theorem leads_change (items : List Item) (draft : StateDraft) (slot : SlotDraft)
    {change : MetaDecl} (h : change.Proper) :
    Leads slot.line ⟨items, .metaKind draft slot⟩ (change.pieces.flatten ++ [.lineEnd])
      (slot.line + 1)
      ⟨items, .entries
        (draft.add (.slot slot.digits slot.label (change.on slot.line) slot.line))⟩ := by
  cases change with
  | dead refs =>
    have hlist := leads_list items draft (.dead slot.digits slot.label) slot.line h
    rw [ListDraft.entry, List.reverse_reverse] at hlist
    exact .word (by decide) rfl hlist
  | state target => exact .word (by decide) rfl (.word h.2 rfl (.lineEnd rfl))
  | deadLatch target => exact .word (by decide) rfl (.word h.2 rfl (.lineEnd rfl))

theorem leads_entry (items : List Item) (draft : StateDraft) (line : Nat) {entry : Entry}
    (h : entry.Proper) :
    Leads line ⟨items, .entries draft⟩ (Line.lexemes entry.printed) (line + 1)
      ⟨items, .entries (draft.add (entry.on line))⟩ := by
  cases entry with
  | layers swipe refs _ =>
    have hlist := leads_list items draft (.swipe swipe) line h
    rw [ListDraft.entry, List.reverse_reverse] at hlist
    have hopen : Reader.step ⟨items, .entries draft⟩ line (.word swipe.keyword) =
        .ok ⟨items, .layers draft ⟨.swipe swipe, line, []⟩⟩ := by
      cases swipe <;> rfl
    exact .word (by cases swipe <;> decide) hopen hlist
  | slot digits label change _ =>
    obtain ⟨hdigits, _, hchange⟩ := h
    have hopen : Reader.step ⟨items, .entries draft⟩ line (.word ("S" ++ digits)) =
        .ok ⟨items, .metaLabel draft line digits⟩ := by
      simp only [Reader.step, Reader.readEntries, ofKeyword?_slot, slotDigits?_slot hdigits]
      rfl
    have hword : Decimal.isDigits ("S" ++ digits).toList = false := by
      rw [String.toList_append]
      rfl
    have hrest := leads_change items draft ⟨line, digits, label⟩ hchange
    exact .word hword hopen (.quoted rfl hrest)

theorem leads_entries (items : List Item) (draft : StateDraft) (line : Nat)
    {entries : List Entry} (h : ∀ entry ∈ entries, entry.Proper) :
    Leads line ⟨items, .entries draft⟩ ((entries.map Entry.printed).flatMap Line.lexemes)
      (line + entries.length)
      ⟨items, .entries
        { draft with entries := (entriesOn line entries).reverse ++ draft.entries }⟩ := by
  induction entries generalizing draft line with
  | nil => exact .nil
  | cons entry entries ih =>
    have hfirst := leads_entry items draft line (h entry (List.mem_cons_self ..))
    have hothers := ih (draft.add (entry.on line)) (line + 1)
      (fun other hother => h other (List.mem_cons_of_mem _ hother))
    have hlength : line + (entry :: entries).length = line + 1 + entries.length := by
      rw [List.length_cons]
      omega
    rw [List.map_cons, List.flatMap_cons, entriesOn, List.reverse_cons, List.append_assoc,
      hlength]
    exact hfirst.append hothers

theorem leads_state (items : List Item) (line : Nat) {decl : StateDecl} (h : decl.Proper) :
    Leads line ⟨items, .top⟩ ((Item.state decl).lines.flatMap Line.lexemes)
      (line + (Item.state decl).lines.length)
      ⟨(Item.state decl).on line :: items, .top⟩ := by
  obtain ⟨name, _, entries⟩ := decl
  have hhead : Leads line ⟨items, .top⟩ (Line.lexemes (heading "state" name)) (line + 1)
      ⟨items, .entries (.start name line)⟩ :=
    .word (by decide) rfl (.word h.name.2 rfl (.symbol rfl (.lineEnd rfl)))
  have hbody := leads_entries items (.start name line) (line + 1) h.entries
  have hclose : StateDraft.decl ⟨name, line, (entriesOn (line + 1) entries).reverse ++ []⟩ =
      ⟨name, line, entriesOn (line + 1) entries⟩ := by
    rw [StateDraft.decl, List.append_nil, List.reverse_reverse]
  have hend : Leads (line + 1 + entries.length)
      ⟨items, .entries ⟨name, line, (entriesOn (line + 1) entries).reverse ++ []⟩⟩
      [.symbol '}', .lineEnd] (line + 1 + entries.length + 1)
      ⟨.state ⟨name, line, entriesOn (line + 1) entries⟩ :: items, .top⟩ := by
    rw [← hclose]
    exact .symbol rfl (.lineEnd rfl)
  have hlines : (Item.state ⟨name, line, entries⟩).lines.flatMap Line.lexemes =
      Line.lexemes (heading "state" name) ++
        ((entries.map Entry.printed).flatMap Line.lexemes ++ [.symbol '}', .lineEnd]) := by
    rw [Item.lines, List.flatMap_cons, List.flatMap_append]
    rfl
  have hlength : line + (Item.state ⟨name, line, entries⟩).lines.length =
      line + 1 + entries.length + 1 := by
    simp only [Item.lines, List.length_cons, List.length_append, List.length_map,
      List.length_nil]
    omega
  have hwhole := hhead.append (hbody.append hend)
  rw [← hlines, ← hlength] at hwhole
  exact hwhole

/-! ### Layouts -/

theorem leads_cell (items : List Item) (draft : LayoutDraft) (line : Nat) {written : CellDecl}
    (h : written.cell.Proper) (hroom : draft.cells.length < draft.grid.cols) :
    Leads line ⟨items, .row draft⟩ [written.cell.lexeme] line
      ⟨items, .row (draft.addCell (written.on line))⟩ := by
  obtain ⟨cell, _⟩ := written
  have hfull : draft.cells.length ≠ draft.grid.cols := by omega
  cases cell with
  | absent =>
    apply Leads.symbol _ .nil
    simp only [Reader.step, Reader.readRow, if_neg hfull]
    rfl
  | text typed =>
    have hempty : typed.isEmpty = false := by
      rw [Bool.eq_false_iff]
      intro hempty
      exact h.1 (String.isEmpty_iff.mp hempty)
    apply Leads.quoted _ .nil
    simp only [Reader.step, Reader.readRow, if_neg hfull, cellOf, hempty]
    rfl
  | code name =>
    have hone : name.length ≠ 1 := by
      have hlong := h.2
      omega
    have hstep : Reader.step ⟨items, .row draft⟩ line (.word name) =
        .ok ⟨items, .row (draft.addCell ⟨.code name, line⟩)⟩ := by
      simp only [Reader.step, Reader.readRow, if_neg hfull, cellOf, if_neg hone]
      rfl
    exact .cons rfl hstep .nil

theorem leads_cells (items : List Item) (draft : LayoutDraft) (line : Nat)
    {cells : List CellDecl} (h : ∀ written ∈ cells, written.cell.Proper)
    (hroom : draft.cells.length + cells.length ≤ draft.grid.cols) :
    Leads line ⟨items, .row draft⟩ (cells.map (fun written => [written.cell.lexeme])).flatten
      line ⟨items, .row
        { draft with cells := (cells.map (·.on line)).reverse ++ draft.cells }⟩ := by
  induction cells generalizing draft with
  | nil => exact .nil
  | cons written cells ih =>
    rw [List.length_cons] at hroom
    have hfirst := leads_cell items draft line (h written (List.mem_cons_self ..)) (by omega)
    have hothers := ih (draft.addCell (written.on line))
      (fun other hother => h other (List.mem_cons_of_mem _ hother)) (by
        show draft.cells.length + 1 + cells.length ≤ draft.grid.cols
        omega)
    rw [List.map_cons, List.map_cons, List.flatten_cons, List.reverse_cons, List.append_assoc]
    exact hfirst.append hothers

/-- The last row ends with the brace, so no reader gets behind the rows a layout can have. -/
theorem leads_rows (items : List Item) (grid : Grid) (name : String) (head line : Nat)
    (above rows : List (List CellDecl)) (hne : rows ≠ [])
    (h : ∀ cells ∈ rows, ∀ written ∈ cells, written.cell.Proper)
    (hwidth : ∀ cells ∈ rows, cells.length ≤ grid.cols)
    (hheight : above.length + rows.length ≤ grid.rows) :
    Leads line ⟨items, .row ⟨grid, name, head, above, []⟩⟩
      ((rowLines rows).flatMap Line.lexemes) (line + rows.length)
      ⟨.layout ⟨name, head, above.reverse ++ rowsOn line rows⟩ :: items, .top⟩ := by
  have hcells : ∀ above line, ∀ cells ∈ rows,
      Leads line ⟨items, .row ⟨grid, name, head, above, []⟩⟩
        (cells.map (fun written => [written.cell.lexeme])).flatten line
        ⟨items, .row ⟨grid, name, head, above, (cells.map (·.on line)).reverse⟩⟩ := by
    intro above line cells hmem
    have hroom : 0 + cells.length ≤ grid.cols := by
      have hfits := hwidth cells hmem
      omega
    have hlead := leads_cells items ⟨grid, name, head, above, []⟩ line (h cells hmem) hroom
    rw [List.append_nil] at hlead
    exact hlead
  induction rows using rowLines.induct generalizing above line with
  | case1 => exact absurd rfl hne
  | case2 cells =>
    have hrow := hcells above line cells (List.mem_singleton_self cells)
    have hclose : LayoutDraft.decl (LayoutDraft.endRow
        ⟨grid, name, head, above, (cells.map (·.on line)).reverse⟩) =
        ⟨name, head, above.reverse ++ rowsOn line [cells]⟩ := by
      simp only [LayoutDraft.decl, LayoutDraft.endRow, List.reverse_reverse, List.reverse_cons]
      rfl
    have hend : Leads line
        ⟨items, .row ⟨grid, name, head, above, (cells.map (·.on line)).reverse⟩⟩
        [.symbol '}', .lineEnd] (line + 1)
        ⟨.layout ⟨name, head, above.reverse ++ rowsOn line [cells]⟩ :: items, .top⟩ := by
      rw [← hclose]
      exact .symbol rfl (.lineEnd rfl)
    have hlines : (rowLines [cells]).flatMap Line.lexemes =
        (cells.map (fun written => [written.cell.lexeme])).flatten ++
          [.symbol '}', .lineEnd] := by
      simp only [rowLines, List.flatMap_cons, List.flatMap_nil, List.append_nil, Line.lexemes,
        List.flatten_append, List.flatten_cons, List.flatten_nil, List.append_assoc]
      rfl
    rw [hlines]
    exact hrow.append hend
  | case3 cells others hothers ih =>
    have hrow := hcells above line cells (List.mem_cons_self ..)
    have hpos : others.length ≠ 0 := by
      intro hzero
      exact hothers (List.eq_nil_of_length_eq_zero hzero)
    rw [List.length_cons] at hheight
    have hend : Leads line
        ⟨items, .row ⟨grid, name, head, above, (cells.map (·.on line)).reverse⟩⟩ [.lineEnd]
        (line + 1) ⟨items, .row ⟨grid, name, head, cells.map (·.on line) :: above, []⟩⟩ := by
      have hroom : (cells.map (·.on line) :: above).length ≠ grid.rows := by
        rw [List.length_cons]
        omega
      apply Leads.lineEnd
      simp only [Reader.step, Reader.readRow, LayoutDraft.endRow, List.reverse_reverse,
        if_neg hroom]
      rfl
    have hbelow := ih (line + 1) (cells.map (·.on line) :: above) (fun hnil => hothers hnil)
      (fun row hrow => h row (List.mem_cons_of_mem _ hrow))
      (fun row hrow => hwidth row (List.mem_cons_of_mem _ hrow))
      (by rw [List.length_cons]; omega)
      (fun above line row hrow => hcells above line row (List.mem_cons_of_mem _ hrow))
    have hlength : line + (cells :: others).length = line + 1 + others.length := by
      rw [List.length_cons]
      omega
    have hlines : (rowLines (cells :: others)).flatMap Line.lexemes =
        ((cells.map (fun written => [written.cell.lexeme])).flatten ++ [.lineEnd]) ++
          (rowLines others).flatMap Line.lexemes := by
      rw [rowLines, List.flatMap_cons]
      · rfl
      · exact hothers
    rw [List.reverse_cons, List.append_assoc] at hbelow
    rw [hlines, hlength]
    exact (hrow.append hend).append hbelow

theorem length_rowLines (rows : List (List CellDecl)) :
    (rowLines rows).length = rows.length := by
  induction rows using rowLines.induct with
  | case1 => rfl
  | case2 cells => rfl
  | case3 cells others hothers ih =>
    rw [rowLines, List.length_cons, List.length_cons, ih]
    exact hothers

theorem leads_layout (items : List Item) (line : Nat) {decl : LayoutDecl} {grid : Grid}
    (hg : gridBehind? items.reverse = some grid) (h : decl.Fits grid) :
    Leads line ⟨items, .top⟩ ((Item.layout decl).lines.flatMap Line.lexemes)
      (line + (Item.layout decl).lines.length)
      ⟨(Item.layout decl).on line :: items, .top⟩ := by
  obtain ⟨name, _, rows⟩ := decl
  have hopen : Reader.step ⟨items, .top⟩ line (.word "layout") =
      .ok ⟨items, .layoutName grid line⟩ := by
    have hgrid : Reader.grid? ⟨items, .top⟩ = some grid := by
      rw [Reader.grid?_eq]
      exact hg
    simp only [Reader.step, Reader.readTop, hgrid]
    rfl
  have hhead : Leads line ⟨items, .top⟩ (Line.lexemes (heading "layout" name)) (line + 1)
      ⟨items, .row (.start grid name line)⟩ :=
    .word (by decide) hopen (.word h.name.2 rfl (.symbol rfl (.lineEnd rfl)))
  have hheight : 1 ≤ rows.length ∧ rows.length ≤ grid.rows := h.height
  have hne : rows ≠ [] := by
    intro hnil
    rw [hnil, List.length_nil] at hheight
    omega
  have hroom : ([] : List (List CellDecl)).length + rows.length ≤ grid.rows := by
    rw [List.length_nil]
    omega
  have hbody := leads_rows items grid name line (line + 1) [] rows hne h.cells h.width hroom
  have hlength : line + (Item.layout ⟨name, line, rows⟩).lines.length =
      line + 1 + rows.length := by
    simp only [Item.lines, List.length_cons, length_rowLines]
    omega
  have hwhole := hhead.append hbody
  rw [← hlength] at hwhole
  exact hwhole

/-! ### Sizes -/

theorem ofLexeme_digits {digits : String} (h : Decimal.isDigits digits.toList) :
    Token.ofLexeme .directive (.word digits) =
      .number (.nearest (Decimal.value digits.toList)) := by
  simp only [Token.ofLexeme, Token.ofWord, h, and_self, if_true, Magnitude.ofDigits]

theorem ofLexeme_numeral {n : Nat} (h : n ≤ maxDimension) :
    Token.ofLexeme .directive (.word (toString n)) = .number (.finite n) := by
  have hsmall : n < Nat.pow 2 Magnitude.precision :=
    Nat.lt_of_le_of_lt h (by decide)
  rw [ofLexeme_digits (Decimal.isDigits_toString n), Decimal.value_toString,
    Magnitude.nearest_of_lt hsmall]

theorem leads_size (items : List Item) (line : Nat) {decl : SizeDecl} (h : decl.Allowed)
    (hnone : layouts items.reverse = []) :
    Leads line ⟨items, .top⟩ ((Item.size decl).lines.flatMap Line.lexemes)
      (line + (Item.size decl).lines.length)
      ⟨(Item.size decl).on line :: items, .top⟩ := by
  obtain ⟨⟨rows, cols⟩, _⟩ := decl
  obtain ⟨hrows, hcols⟩ := h
  have hopen : Reader.step ⟨items, .top⟩ line (.word "size") = .ok ⟨items, .sizeRows line⟩ := by
    have hlayout : Reader.hasLayout ⟨items, .top⟩ = false :=
      Reader.layouts_eq_nil_iff.mp hnone
    simp only [Reader.step, Reader.readTop, hlayout]
    rfl
  have hdimension : ∀ dimension n, 1 ≤ n ∧ n ≤ maxDimension →
      dimensionOf dimension (.number (.finite n)) = .ok n := by
    intro dimension n hn
    simp only [dimensionOf, if_pos hn]
  have hfirst : Reader.step ⟨items, .sizeRows line⟩ line (.number (.finite rows)) =
      .ok ⟨items, .sizeCols line rows⟩ := by
    simp only [Reader.step, Reader.readDimension, hdimension .rows rows hrows]
    rfl
  have hsecond : Reader.step ⟨items, .sizeCols line rows⟩ line (.number (.finite cols)) =
      .ok ⟨.size ⟨⟨rows, cols⟩, line⟩ :: items, .afterItem⟩ := by
    simp only [Reader.step, Reader.readDimension, hdimension .columns cols hcols]
    rfl
  exact .word (by decide) hopen (.cons (ofLexeme_numeral hrows.2) hfirst
    (.cons (ofLexeme_numeral hcols.2) hsecond (.lineEnd rfl)))

/-! ### Whole texts -/

theorem leads_item (items : List Item) (line : Nat) {item : Item}
    (h : item.Arranged items.reverse) :
    Leads line ⟨items, .top⟩ (item.lines.flatMap Line.lexemes) (line + item.lines.length)
      ⟨item.on line :: items, .top⟩ := by
  cases item with
  | size decl => exact leads_size items line h.1 h.2
  | layout decl =>
    obtain ⟨grid, hgrid, hfits⟩ := h
    exact leads_layout items line hgrid hfits
  | state decl => exact leads_state items line h

theorem leads_items {items : List Item} (h : Arranged items) :
    Leads 1 .start ((items.flatMap Item.lines).flatMap Line.lexemes)
      (1 + (items.flatMap Item.lines).length) ⟨(itemsOn 1 items).reverse, .top⟩ := by
  induction items using List.reverseRecOn with
  | nil => exact .nil
  | append_singleton front item ih =>
    have hfront := ih h.of_append
    have hplace := (h front item [] rfl).behind_itemsOn 1
    rw [← List.reverse_reverse (itemsOn 1 front)] at hplace
    have hitem := leads_item _ (1 + (front.flatMap Item.lines).length) hplace
    have hlines : ((front ++ [item]).flatMap Item.lines).flatMap Line.lexemes =
        (front.flatMap Item.lines).flatMap Line.lexemes ++ item.lines.flatMap Line.lexemes := by
      rw [List.flatMap_append, List.flatMap_append, List.flatMap_singleton]
    have hlength : 1 + ((front ++ [item]).flatMap Item.lines).length =
        1 + (front.flatMap Item.lines).length + item.lines.length := by
      rw [List.flatMap_append, List.length_append, List.flatMap_singleton]
      omega
    have hitems : (itemsOn 1 (front ++ [item])).reverse =
        item.on (1 + (front.flatMap Item.lines).length) :: (itemsOn 1 front).reverse := by
      rw [itemsOn_append, List.reverse_append]
      rfl
    rw [hlines, hlength, hitems]
    exact hfront.append hitem

theorem readLexemes_print {items : List Item} (h : Arranged items) :
    readLexemes (scan (print items).toList).lexemes = .ok ⟨(itemsOn 1 items).reverse, .top⟩ := by
  have hspelled : ∀ line ∈ items.flatMap Item.lines, ∀ piece ∈ line, Piece.Spelled piece := by
    intro line hline
    obtain ⟨item, hitem, hline⟩ := List.mem_flatMap.mp hline
    obtain ⟨front, back, heq⟩ := List.append_of_mem hitem
    exact (h front item back heq).spelled line hline
  obtain ⟨hlexemes, _⟩ := scan_lines hspelled
  rw [print, String.toList_ofList, hlexemes]
  exact (leads_items h).run

/-- Well-formed declarations are read back from their canonical text, each one with the
line that it was printed on; their words stand in the text on just these lines. -/
theorem declarations_print {items : List Item} (h : Arranged items) :
    declarations (print items) = .ok (itemsOn 1 items) ∧
      ItemsFound (print items).toList (itemsOn 1 items) := by
  have hread : declarations (print items) = .ok (itemsOn 1 items) := by
    have hreversed : (itemsOn 1 items).reverse.reverse = itemsOn 1 items :=
      List.reverse_reverse _
    simp only [declarations, readLexemes_print h]
    exact congrArg Except.ok hreversed
  exact ⟨hread, declarations_found hread⟩

example :
    print [.size ⟨⟨1, 2⟩, 0⟩, .layout ⟨"base", 0, [[⟨.absent, 0⟩, ⟨.text "\x7d", 0⟩]]⟩,
      .state ⟨"main", 0, [.slot "0" "" (.dead [⟨.shift, "base", 0⟩]) 0]⟩] =
    "size 1 2\nlayout base \x7b\n* \"\x7d\" \x7d\n" ++
      "state main \x7b\nS0 \"\" dead shift:base\n\x7d\n" := by
  decide +kernel

/-- Texts that look like comments, braces and absent keys, an empty label, and a size that
is replaced. -/
def disguisedItems : List Item :=
  [.size ⟨⟨9, 9⟩, 0⟩,
    .size ⟨⟨3, 2⟩, 0⟩,
    .layout ⟨"base", 0,
      [[⟨.text "\x7d", 0⟩, ⟨.code "S0", 0⟩], [], [⟨.absent, 0⟩, ⟨.text "# *", 0⟩]]⟩,
    .state ⟨"main", 0,
      [.layers .tap [⟨.shift, "shift", 0⟩, ⟨.plain, "base", 0⟩] 0,
        .slot "00" "" (.dead [⟨.ctrl, "base", 0⟩]) 0,
        .slot "1" "a \x7b" (.deadLatch "main") 0]⟩]

theorem disguised_reread : Arranged disguisedItems ∧
    declarations (print disguisedItems) = .ok (itemsOn 1 disguisedItems) ∧
    ItemsFound (print disguisedItems).toList (itemsOn 1 disguisedItems) ∧
    (itemsOn 1 disguisedItems).map Item.line = [1, 2, 3, 7] := by
  have h : Arranged disguisedItems :=
    (((InTurn.nil.concat (by decide)).concat (by decide)).concat (by decide)).concat (by decide)
  have hread := declarations_print h
  exact ⟨h, hread.1, hread.2, rfl⟩

end KeyGrid.Source
