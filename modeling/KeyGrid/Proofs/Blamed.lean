import KeyGrid.Proofs.Accepted
import KeyGrid.Proofs.Compiled

/-!
# What errors blame

An error is at a line of the text and names something that is really wrong there: what is
written on that line is looked up in the declarations above or in the whole file and is
not found, or was there before. Errors of the reader are on the line of the token that
they are about; later ones are on the line that a declaration remembers.
-/

namespace KeyGrid

open Source

/-! ### Real faults -/

/-- A line of a text has a word on it. -/
def Written (text : List Char) (line : Nat) (word : List Char) : Prop :=
  HasLine text line ∧ LineContains text line word

/-- The error is at a line of the text, and what it says of the text is so. -/
def LoadError.Blames (text : String) : LoadError → Prop
  | .unreadable _ | .assembly _ => True
  | .parse line _ | .missingSize line | .invalidSize line _ => HasLine text.toList line
  | .unknownKeyCode line code => Written text.toList line code.toList ∧
      (∀ action : Device, action.name ≠ code) ∧ code ≠ externalName ∧
      ∀ digits, Decimal.isDigits digits → code.toList ≠ 'S' :: digits
  | .undefinedLayout line name => Written text.toList line name.toList ∧
      ∃ front decl back,
        declarations (Keyboard.withoutMark text) = .ok (front ++ .state decl :: back) ∧
        (∃ entry ∈ decl.entries, ∃ ref ∈ entry.refs, ref.line = line ∧ ref.name = name) ∧
        ∀ layout ∈ layouts front, layout.name ≠ name
  | .undefinedState line name => Written text.toList line name.toList ∧
      ∃ items, declarations (Keyboard.withoutMark text) = .ok items ∧
        ∀ state ∈ states items, state.name ≠ name
  | .invalidSlot line digits => Written text.toList line ('S' :: digits.toList) ∧
      Decimal.isDigits digits.toList ∧ 3 < Decimal.value digits.toList
  | .duplicateLayout line name => Written text.toList line name.toList ∧
      ∃ items, declarations (Keyboard.withoutMark text) = .ok items ∧
        ∃ earlier ∈ layouts items, earlier.name = name ∧ earlier.line < line
  | .duplicateState line name => Written text.toList line name.toList ∧
      ∃ items, declarations (Keyboard.withoutMark text) = .ok items ∧
        ∃ earlier ∈ states items, earlier.name = name ∧ earlier.line < line

theorem LoadError.Blames.hasLine {text : String} {e : LoadError} (h : e.Blames text) {line : Nat}
    (hl : e.line? = some line) : HasLine text.toList line := by
  cases e with
  | unreadable _ | assembly _ => cases hl
  | parse _ _ | missingSize _ | invalidSize _ _ =>
    cases hl
    exact h
  | unknownKeyCode _ _ | undefinedLayout _ _ | undefinedState _ _ | invalidSlot _ _
  | duplicateLayout _ _ | duplicateState _ _ =>
    cases hl
    exact h.1.1

/-! ### Lines behind a mark -/

theorem toList_withoutMark (text : String) :
    text.toList = (Keyboard.withoutMark text).toList ∨
      text.toList = Keyboard.byteOrderMark :: (Keyboard.withoutMark text).toList := by
  unfold Keyboard.withoutMark
  split
  · rename_i c rest hlist
    split
    · rename_i hmark
      right
      rw [String.toList_ofList, hlist, hmark]
    · exact Or.inl rfl
  · exact Or.inl rfl

theorem count_withoutMark (text : String) :
    (Keyboard.withoutMark text).toList.count '\n' = text.toList.count '\n' := by
  rcases toList_withoutMark text with htext | htext
  · rw [htext]
  · rw [htext, List.count_cons_of_ne (by decide)]

theorem hasLine_of_withoutMark {text : String} {line : Nat}
    (h : HasLine (Keyboard.withoutMark text).toList line) : HasLine text.toList line := by
  have hcount := count_withoutMark text
  unfold HasLine at h ⊢
  omega

theorem written_of_stands {text : String} {line : Nat} {word : List Char}
    (h : Stands (Keyboard.withoutMark text).toList line word) (hw : '\n' ∉ word) :
    Written text.toList line word := by
  have hstands : Stands text.toList line word := by
    rcases toList_withoutMark text with htext | htext
    · rw [htext]
      exact h
    · rw [htext]
      exact h.cons (by decide)
  exact ⟨hstands.hasLine, hstands.lineContains hw⟩

theorem written_of_name {text name : String} {line : Nat}
    (h : NameFound (Keyboard.withoutMark text).toList line name) :
    Written text.toList line name.toList :=
  written_of_stands h.stands (newline_not_mem_of_isWord h.isName.1)

/-! ### Reading -/

/-- An error of the reader at a line. -/
inductive LoadError.Syntactic (line : Nat) : LoadError → Prop
  | parse (fault : Fault) : Syntactic line (.parse line fault)
  | missingSize : Syntactic line (.missingSize line)
  | invalidSize (fault : SizeFault) : Syntactic line (.invalidSize line fault)

theorem LoadError.Syntactic.blames {text : String} {e : LoadError} {line : Nat}
    (h : e.Syntactic line) (hl : HasLine (Keyboard.withoutMark text).toList line) :
    e.Blames text := by
  have hline := hasLine_of_withoutMark hl
  cases h <;> exact hline

namespace Source.Reader

variable {reader : Reader} {line : Nat} {token : Token} {e : LoadError}

theorem readTop_error (h : reader.readTop line token = .error e) : e.Syntactic line := by
  unfold readTop at h
  split at h
  · cases h
  · cases h
  · split at h
    · cases h
      exact .invalidSize _
    · cases h
  · split at h
    · cases h
      exact .missingSize
    · cases h
  · cases h
  · cases h
    exact .parse _
  · cases h
    exact .parse _

theorem readLineEnd_error {position : Position}
    (h : reader.readLineEnd position line token = .error e) : e.Syntactic line := by
  unfold readLineEnd at h
  split at h
  · cases h
  · cases h
    exact .parse _

theorem readSymbol_error {c : Char} {position : Position}
    (h : reader.readSymbol c position line token = .error e) : e.Syntactic line := by
  unfold readSymbol at h
  split at h
  · cases h
  · cases h
    exact .parse _

theorem readWord_error {what : Expected} {position : String → Position}
    (h : reader.readWord what position line token = .error e) : e.Syntactic line := by
  unfold readWord at h
  split at h
  · cases h
  · cases h
    exact .parse _

theorem readDimension_error {dimension : Dimension} {next : Nat → Reader}
    (h : readDimension dimension next line token = .error e) : e.Syntactic line := by
  unfold readDimension at h
  split at h
  · cases h
  · cases h
    exact .invalidSize _

theorem readRow_error {draft : LayoutDraft} (h : reader.readRow draft line token = .error e) :
    e.Syntactic line := by
  unfold readRow at h
  split at h
  · cases h
  · cases h
    exact .parse _
  · split at h
    · cases h
    · split at h
      · cases h
        exact .parse _
      · split at h
        · cases h
        · cases h
          exact .parse _

theorem readAfterRows_error {draft : LayoutDraft}
    (h : reader.readAfterRows draft line token = .error e) : e.Syntactic line := by
  unfold readAfterRows at h
  split at h
  · cases h
  · split at h
    · cases h
    · cases h
      exact .parse _

theorem readEntries_error {draft : StateDraft}
    (h : reader.readEntries draft line token = .error e) : e.Syntactic line := by
  unfold readEntries at h
  split at h
  · cases h
  · split at h
    · cases h
    · split at h
      · cases h
      · cases h
        exact .parse _
  · split at h
    · cases h
    · cases h
      exact .parse _

theorem readAfterEntry_error {draft : StateDraft}
    (h : reader.readAfterEntry draft line token = .error e) : e.Syntactic line := by
  unfold readAfterEntry at h
  split at h
  · exact readEntries_error h
  · cases h
    exact .parse _

theorem readLayers_error {draft : StateDraft} {list : ListDraft}
    (h : reader.readLayers draft list line token = .error e) : e.Syntactic line := by
  unfold readLayers at h
  split at h
  · split at h
    · cases h
    · cases h
  · exact readAfterEntry_error h

/-- An unknown kind of key is reported on the line of its slot. -/
theorem readMetaKind_error {draft : StateDraft} {slot : SlotDraft} (hslot : slot.line = line)
    (h : reader.readMetaKind draft slot line token = .error e) : e.Syntactic line := by
  unfold readMetaKind at h
  split at h
  · cases h
  · cases h
  · cases h
  · cases h
    rw [hslot]
    exact .parse _
  · cases h
    exact .parse _

theorem step_error {text : List Char} (hf : reader.Found text line)
    (h : reader.step line token = .error e) : e.Syntactic line := by
  have hp := hf.position
  unfold step at h
  cases hposition : reader.position with
  | top =>
    rw [hposition] at h
    exact readTop_error h
  | afterItem =>
    rw [hposition] at h
    exact readLineEnd_error h
  | sizeRows head =>
    rw [hposition] at h
    exact readDimension_error h
  | sizeCols head rows =>
    rw [hposition] at h
    exact readDimension_error h
  | layoutName grid head =>
    rw [hposition] at h
    exact readWord_error h
  | layoutBrace draft =>
    rw [hposition] at h
    exact readSymbol_error h
  | layoutHeadEnd draft =>
    simp only [hposition] at h
    split at h
    · exact readRow_error h
    · exact readLineEnd_error h
  | row draft =>
    rw [hposition] at h
    exact readRow_error h
  | afterRows draft =>
    rw [hposition] at h
    exact readAfterRows_error h
  | stateName head =>
    rw [hposition] at h
    exact readWord_error h
  | stateBrace draft =>
    rw [hposition] at h
    exact readSymbol_error h
  | stateHeadEnd draft =>
    simp only [hposition] at h
    split at h
    · exact readEntries_error h
    · exact readLineEnd_error h
  | entries draft =>
    rw [hposition] at h
    exact readEntries_error h
  | afterEntry draft =>
    rw [hposition] at h
    exact readAfterEntry_error h
  | layers draft list =>
    rw [hposition] at h
    exact readLayers_error h
  | layerColon draft list modifier head =>
    rw [hposition] at h
    exact readSymbol_error h
  | layerName draft list modifier head =>
    rw [hposition] at h
    exact readWord_error h
  | metaLabel draft head digits =>
    simp only [hposition] at h
    split at h
    · cases h
    · cases h
      exact .parse _
  | metaKind draft slot =>
    rw [hposition] at h hp
    obtain ⟨_, _, hslot⟩ := hp
    exact readMetaKind_error hslot.line_eq h
  | metaTarget draft slot latched =>
    rw [hposition] at h
    exact readWord_error h

/-- A run that fails does so at a token, on the line of this token. -/
theorem run_error {text : List Char} {lexemes : List Lexeme} (hf : reader.Found text line)
    (hl : ∀ lexeme ∈ locate line lexemes, lexeme.Found text)
    (h : (locate line lexemes).foldlM read reader = .error e) :
    ∃ line, HasLine text line ∧ e.Syntactic line := by
  induction lexemes generalizing line reader with
  | nil => cases h
  | cons lexeme lexemes ih =>
    have hfirst := hl ⟨line, lexeme⟩ (List.mem_cons_self ..)
    rcases bind_eq_error_iff.mp h with h | ⟨next, hnext, h⟩
    · exact ⟨line, hfirst.line, step_error hf h⟩
    · have htoken := hfirst.token reader.position.place
      have hstep := step_found hfirst.line hf htoken (ofLexeme_ne_fileEnd _ _) hnext
      rw [lineBehind_ofLexeme] at hstep
      exact ih hstep (fun other hm => hl other (List.mem_cons_of_mem _ hm)) h

end Source.Reader

theorem declarations_error {text : String} {e : LoadError}
    (h : declarations text = .error e) : ∃ line, HasLine text.toList line ∧ e.Syntactic line := by
  obtain ⟨lexemes, hlocated, hbehind, hlast, hfound⟩ := lexemes_located text.toList
  rw [hlocated] at hfound
  have hstart := Reader.found_start text.toList
  rcases bind_eq_error_iff.mp h with h | ⟨reader, hreader, h⟩
  · simp only [readLexemes, hlocated] at h
    exact Reader.run_error hstart hfound h
  · simp only [readLexemes, hlocated] at hreader
    have hrun := Reader.run_found hstart hfound hreader
    rcases bind_eq_error_iff.mp h with h | ⟨last, _, h⟩
    · rw [hbehind] at hrun
      refine ⟨_, ?_, Reader.step_error hrun h⟩
      unfold HasLine
      omega
    · cases h

/-! ### Keys -/

theorem slotOf_error {digits : String} {line : Nat} {e : LoadError}
    (hd : Decimal.isDigits digits.toList) (h : slotOf digits line = .error e) :
    e = .invalidSlot line digits ∧ 3 < Decimal.value digits.toList := by
  have hvalue := Decimal.numeral?_of_isDigits hd
  have hlarge : ¬Decimal.value digits.toList < slotCount := by
    intro hsmall
    rw [slotOf_eq_ok_iff.mpr ⟨hvalue, hsmall⟩] at h
    cases h
  refine ⟨?_, Nat.not_lt.mp hlarge⟩
  unfold slotOf at h
  split at h
  · cases h
  · cases h
    rfl

theorem keyOfCode_error {code : String} {line : Nat} {e : LoadError}
    (h : keyOfCode code line = .error e) :
    (e = .unknownKeyCode line code ∧ (∀ action : Device, action.name ≠ code) ∧
      code ≠ externalName ∧ slotDigits? code = none) ∨
    ∃ digits, slotDigits? code = some digits ∧ slotOf digits line = .error e := by
  unfold keyOfCode at h
  split at h
  · cases h
  · rename_i hdevice
    split at h
    · cases h
    · rename_i hexternal
      split at h
      · rename_i digits hdigits
        exact Or.inr ⟨digits, hdigits, map_eq_error_iff.mp h⟩
      · rename_i hslot
        cases h
        refine Or.inl ⟨rfl, ?_, hexternal, hslot⟩
        rintro action rfl
        rw [Device.ofName?_name] at hdevice
        cases hdevice

theorem ne_slot_of_slotDigits? {code : String} (h : slotDigits? code = none)
    {digits : List Char} (hd : Decimal.isDigits digits) : code.toList ≠ 'S' :: digits := by
  intro hcode
  unfold slotDigits? at h
  rw [hcode] at h
  simp only [if_pos hd] at h
  cases h

theorem Source.CellDecl.Found.blames {text : String} {line : Nat} {written : CellDecl}
    {e : LoadError} (hf : written.Found (Keyboard.withoutMark text).toList line)
    (h : written.key? = .error e) : e.Blames text := by
  unfold CellDecl.key? at h
  split at h
  · cases h
  · cases h
  · rename_i code hcode
    have hcell := hf.proper
    rw [hcode] at hcell
    have hnewline := newline_not_mem_of_isWord hcell.1
    have hwritten := written_of_stands (hf.stands code hcode) hnewline
    rw [hf.line_eq] at h
    rcases keyOfCode_error (map_eq_error_iff.mp h) with ⟨rfl, hdevice, hexternal, hslot⟩ | hslot
    · exact ⟨hwritten, hdevice, hexternal, fun _ hd => ne_slot_of_slotDigits? hslot hd⟩
    · obtain ⟨digits, hdigits, hlarge⟩ := hslot
      obtain ⟨hrun, hlist⟩ := slotDigits?_eq_some hdigits
      obtain ⟨rfl, hvalue⟩ := slotOf_error hrun hlarge
      rw [hlist] at hwritten
      exact ⟨hwritten, hrun, hvalue⟩

/-! ### Layouts -/

namespace Layout

theorem fillRow_error {cells : List CellDecl} {layout : Layout} {row col : Nat} {e : LoadError}
    (h : layout.fillRow row col cells = .error e) :
    ∃ written ∈ cells, written.key? = .error e ∨ ∃ fault, e = .parse written.line fault := by
  induction cells generalizing layout col with
  | nil => cases h
  | cons written cells ih =>
    rcases bind_eq_error_iff.mp h with h | ⟨key, _, h⟩
    · exact ⟨written, List.mem_cons_self .., Or.inl h⟩
    · split at h
      · obtain ⟨other, hother, hfails⟩ := ih h
        exact ⟨other, List.mem_cons_of_mem _ hother, hfails⟩
      · cases h
        exact ⟨written, List.mem_cons_self .., Or.inr ⟨_, rfl⟩⟩

theorem fill_error {rows : List (List CellDecl)} {layout : Layout} {row : Nat} {e : LoadError}
    (h : layout.fill row rows = .error e) :
    ∃ cells ∈ rows, ∃ written ∈ cells,
      written.key? = .error e ∨ ∃ fault, e = .parse written.line fault := by
  induction rows generalizing layout row with
  | nil => cases h
  | cons cells rows ih =>
    rcases bind_eq_error_iff.mp h with h | ⟨next, _, h⟩
    · exact ⟨cells, List.mem_cons_self .., fillRow_error h⟩
    · obtain ⟨others, hothers, hfails⟩ := ih h
      exact ⟨others, List.mem_cons_of_mem _ hothers, hfails⟩

end Layout

namespace Parts

variable {names : List String} {items : List Item} {parts : Parts} {e : LoadError}

/-- A layout fails to be built for its name, for a cell, or since it has no shape. -/
theorem layout_blames {text : String} {front back : List Item} {decl : LayoutDecl}
    (hread : declarations (Keyboard.withoutMark text) = .ok items)
    (heq : items = front ++ .layout decl :: back) (hparts : Describes names front parts)
    (h : parts.layout decl = .error e) : e.Blames text := by
  have hfound := declarations_found hread
  obtain ⟨habove, grid, _, hdecl⟩ := hfound front _ back heq
  have hname := hdecl.name
  have hwritten := written_of_name hname
  unfold Parts.layout at h
  split at h
  · rename_i hany
    cases h
    obtain ⟨layout, hlayout, hsame⟩ := List.any_eq_true.mp hany
    have hmem : layout.name ∈ parts.layouts.map (·.name) :=
      List.mem_map.mpr ⟨layout, hlayout, rfl⟩
    rw [hparts.layoutNames, beq_iff_eq.mp hsame] at hmem
    obtain ⟨earlier, hearlier, hnamed⟩ := List.mem_map.mp hmem
    have hitem := mem_layouts.mp hearlier
    refine ⟨hwritten, items, hread, earlier, ?_, hnamed, habove _ hitem⟩
    rw [heq]
    exact mem_layouts.mpr (List.mem_append_left _ hitem)
  · split at h
    · cases h
      exact hwritten.1
    · obtain ⟨cells, hcells, written, hmem, hfails⟩ := Layout.fill_error h
      obtain ⟨row, hrow⟩ := List.mem_iff_getElem?.mp hcells
      have hcell := (hdecl.rows row cells hrow).found written hmem
      rcases hfails with hfails | ⟨fault, rfl⟩
      · exact hcell.blames hfails
      · have hline := hasLine_of_withoutMark hcell.hasLine
        rw [← hcell.line_eq] at hline
        exact hline

end Parts

/-! ### States -/

namespace Scope

theorem layer_error {scope : Scope} {ref : LayerRef} {e : LoadError}
    (h : scope.layer ref = .error e) :
    e = .undefinedLayout ref.line ref.name ∧ ref.name ∉ scope.layouts.map (·.name) := by
  rw [Scope.layer_eq] at h
  split at h
  · cases h
  · rename_i hnone
    cases h
    exact ⟨rfl, findIdx?_name_eq_none_iff.mp hnone⟩

theorem target_error {scope : Scope} {name : String} {line : Nat} {e : LoadError}
    (h : scope.target name line = .error e) :
    e = .undefinedState line name ∧ name ∉ scope.states := by
  rw [Scope.target_eq] at h
  split at h
  · cases h
  · split at h
    · cases h
    · rename_i hnone
      cases h
      have hnot := (findIdx?_name_eq_none_iff (f := id)).mp hnone
      rw [List.map_id] at hnot
      exact ⟨rfl, hnot⟩

section

variable {text : String} {front back : List Item} {decl : StateDecl} {scope : Scope}
  {e : LoadError}
  (hread : declarations (Keyboard.withoutMark text) = .ok (front ++ .state decl :: back))

include hread

theorem layers_blames {entry : Entry} (hentry : entry ∈ decl.entries)
    (hlayouts : scope.layouts.map (·.name) = (Source.layouts front).map (·.name))
    (hf : ∀ ref ∈ entry.refs, ref.Found (Keyboard.withoutMark text).toList entry.line)
    (h : scope.layers entry.refs = .error e) : e.Blames text := by
  obtain ⟨ref, href, hfails⟩ := mapM_eq_error h
  obtain ⟨rfl, hnot⟩ := layer_error hfails
  have hfound := hf ref href
  have hstands := hfound.stands
  rw [← hfound.line_eq] at hstands
  refine ⟨written_of_name ⟨hfound.proper.name, hstands⟩, front, decl, back, hread,
    ⟨entry, hentry, ref, href, rfl, rfl⟩, ?_⟩
  intro layout hlayout hname
  rw [hlayouts] at hnot
  exact hnot (List.mem_map.mpr ⟨layout, hlayout, hname⟩)

theorem target_blames {name : String} {line : Nat}
    (hname : NameFound (Keyboard.withoutMark text).toList line name)
    (hstates : scope.states =
      (Source.states (front ++ .state decl :: back)).map (·.name))
    (h : scope.target name line = .error e) : e.Blames text := by
  obtain ⟨rfl, hnot⟩ := target_error h
  refine ⟨written_of_name hname, _, hread, ?_⟩
  intro state hstate hsame
  rw [hstates] at hnot
  exact hnot (List.mem_map.mpr ⟨state, hstate, hsame⟩)

theorem addEntry_blames {entry : Entry} (hentry : entry ∈ decl.entries)
    (hlayouts : scope.layouts.map (·.name) = (Source.layouts front).map (·.name))
    (hstates : scope.states =
      (Source.states (front ++ .state decl :: back)).map (·.name))
    (hf : entry.Found (Keyboard.withoutMark text).toList) {state : State}
    (h : scope.addEntry state entry = .error e) : e.Blames text := by
  have hrefs : scope.layers entry.refs = .error e → e.Blames text :=
    layers_blames hread hentry hlayouts (refs_found hf)
  cases entry with
  | layers swipe refs line => exact hrefs (map_eq_error_iff.mp h)
  | slot digits label change line =>
    obtain ⟨hslot, hchange⟩ := hf
    rw [addEntry_slot] at h
    rcases bind_eq_error_iff.mp h with h | ⟨slot, _, h⟩
    · obtain ⟨rfl, hvalue⟩ := slotOf_error hslot.isDigits h
      refine ⟨written_of_stands hslot.stands ?_, hslot.isDigits, hvalue⟩
      intro hmem
      rcases List.mem_cons.mp hmem with hmem | hmem
      · cases hmem
      · exact newline_not_mem_of_isWord (isWord_of_isDigits hslot.isDigits) hmem
    · rcases bind_eq_error_iff.mp h with h | ⟨key, _, h⟩
      · cases change with
        | dead refs => exact hrefs (map_eq_error_iff.mp h)
        | state target =>
          exact target_blames hread hchange hstates (map_eq_error_iff.mp h)
        | deadLatch target =>
          rw [metaKey_deadLatch] at h
          split at h
          · cases h
            exact hasLine_of_withoutMark hslot.stands.hasLine
          · exact target_blames hread hchange hstates (map_eq_error_iff.mp h)
      · cases h

end

end Scope

/-! ### Whole texts -/

theorem stateNamesOf_blames {text : String} {items : List Item} {e : LoadError}
    (hread : declarations (Keyboard.withoutMark text) = .ok items)
    (h : stateNamesOf (Source.states items) = .error e) : e.Blames text := by
  have hfound := declarations_found hread
  obtain ⟨front, decl, back, names, heq, hnames, hfails⟩ := foldlM_eq_error h
  have hdecl : decl ∈ Source.states items := by
    rw [heq]
    exact List.mem_append_right _ (List.mem_cons_self ..)
  have hname := (hfound.state (mem_states.mp hdecl)).name
  have hwritten := written_of_name hname
  unfold addStateName at hfails
  split at hfails
  · cases hfails
    exact hwritten.1
  · split at hfails
    · rename_i hmem
      cases hfails
      rw [(stateNamesOf_eq_ok_iff.mp hnames).1] at hmem
      obtain ⟨earlier, hearlier, hsame⟩ := List.mem_map.mp hmem
      have hincreasing := hfound.states_increasing
      rw [heq] at hincreasing
      have hline := (List.pairwise_append.mp hincreasing).2.2 earlier hearlier decl
        (List.mem_cons_self ..)
      refine ⟨hwritten, items, hread, earlier, ?_, hsame, hline⟩
      rw [heq]
      exact List.mem_append_left _ hearlier
    · cases hfails

theorem ofItems_blames {text : String} {items : List Item} {e : LoadError}
    (hread : declarations (Keyboard.withoutMark text) = .ok items)
    (h : Keyboard.ofItems items = .error e) : e.Blames text := by
  have hfound := declarations_found hread
  rcases bind_eq_error_iff.mp h with h | ⟨names, hnames, h⟩
  · exact stateNamesOf_blames hread h
  · have hstates := (stateNamesOf_eq_ok_iff.mp hnames).1
    rcases bind_eq_error_iff.mp h with h | ⟨parts, _, h⟩
    · obtain ⟨front, item, back, parts, rfl, hparts, hfails⟩ := foldlM_eq_error h
      have hdescribes := Parts.describes_of_foldlM hparts
      cases item with
      | size decl => cases hfails
      | layout decl =>
        rcases bind_eq_error_iff.mp hfails with hfails | ⟨layout, _, hfails⟩
        · exact Parts.layout_blames hread rfl hdescribes hfails
        · cases hfails
      | state decl =>
        rcases bind_eq_error_iff.mp hfails with hfails | ⟨state, _, hfails⟩
        · obtain ⟨before, entry, after, state, hentries, _, hentry⟩ := foldlM_eq_error hfails
          have hmem : entry ∈ decl.entries := by
            rw [hentries]
            exact List.mem_append_right _ (List.mem_cons_self ..)
          have hdecl := hfound.state (List.mem_append_right _ (List.mem_cons_self ..))
          exact Scope.addEntry_blames hread hmem hdescribes.layoutNames hstates
            (hdecl.entries entry hmem).2 hentry
        · cases hfails
    · unfold Parts.keyboard at h
      split at h
      · cases h
        exact ⟨Nat.le_refl 1, by omega⟩
      · split at h
        · cases h
        · cases h
          trivial

/-- Every error that has a line has one of the text, and what it blames there is so. -/
theorem ofSource_blames {text : String} {e : LoadError}
    (h : Keyboard.ofSource text = .error e) :
    (∀ line, e.line? = some line → 1 ≤ line ∧ line ≤ 1 + text.toList.count '\n') ∧
      e.Blames text := by
  have hblames : e.Blames text := by
    rcases bind_eq_error_iff.mp h with h | ⟨items, hread, h⟩
    · obtain ⟨line, hline, hsyntactic⟩ := declarations_error h
      exact hsyntactic.blames hline
    · exact ofItems_blames hread h
  exact ⟨fun line hline => hblames.hasLine hline, hblames⟩

/-- A mark in front, a comment, an empty line, and a layout declared below its use. -/
def forwardSource : String :=
  "\ufeffsize 1 1 # late\nlayout base \x7b\n\x7d\nstate main \x7b\n\n" ++
    "  S0 ^ dead shift:base late \x7d\nlayout late \x7b\n\x7d\n"

theorem forward_blamed :
    Keyboard.ofSource forwardSource = .error (.undefinedLayout 6 "late") ∧
      HasLine forwardSource.toList 6 ∧
      LoadError.Blames forwardSource (.undefinedLayout 6 "late") := by
  have h : Keyboard.ofSource forwardSource = .error (.undefinedLayout 6 "late") := by
    decide +kernel
  have hblames := ofSource_blames h
  exact ⟨h, hblames.1 6 rfl, hblames.2⟩

end KeyGrid
