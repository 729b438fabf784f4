import KeyGrid.Proofs.Blamed
import KeyGrid.Proofs.Exchanged
import KeyGrid.Proofs.Reread

/-!
# Words for slots

A capital S and a run of digits mean a slot, in a cell and at the head of an entry alike. The
digits count by their exact value, however many they are: below the number of slots it is the
slot, and any other value is refused on the line of the word in both places.
-/

namespace KeyGrid

open Source

theorem slotOf_of_isDigits {digits : String} (hd : Decimal.isDigits digits.toList) (line : Nat) :
    slotOf digits line =
      if Decimal.value digits.toList < slotCount then .ok (Decimal.value digits.toList)
      else .error (.invalidSlot line digits) := by
  split
  · rename_i hv
    exact slotOf_eq_ok_iff.mpr ⟨Decimal.numeral?_of_isDigits hd, hv⟩
  · rename_i hv
    cases hslot : slotOf digits line with
    | ok slot =>
      obtain ⟨hvalue, hlt⟩ := slotOf_eq_ok_iff.mp hslot
      rw [Decimal.numeral?_of_isDigits hd, Option.some.injEq] at hvalue
      exact absurd (hvalue ▸ hlt) hv
    | error e => rw [(slotOf_error hd hslot).1]

theorem externalName_head : externalName.toList.head? ≠ some 'S' := by decide

theorem Device.ofName?_slot (digits : String) : ofName? ("S" ++ digits) = none := by
  cases hfound : ofName? ("S" ++ digits) with
  | none => rfl
  | some action =>
    have hhead : action.name.toList.head? ≠ some 'S' := by cases action <;> decide
    exact absurd (name_of_ofName? hfound).symm (slotWord_ne hhead digits)

/-! ### The word -/

namespace Source

/-- The cell that the word of a slot is read as. -/
def slotCell (digits : String) (line : Nat) : CellDecl := ⟨.code ("S" ++ digits), line⟩

/-- The word is cut out of a text whole, and where a cell or an entry can begin it is one,
with its digits as they are written and with its line. A whole line keeps both. -/
structure ReadsAsSlot (digits : String) : Prop where
  word : Reads ("S" ++ digits).toList [.word ("S" ++ digits)]
  cell : ∀ (items : List Item) (draft : LayoutDraft) (line : Nat),
    draft.cells.length < draft.grid.cols →
      Reader.read ⟨items, .row draft⟩ ⟨line, .word ("S" ++ digits)⟩ =
        .ok ⟨items, .row (draft.addCell (slotCell digits line))⟩
  entry : ∀ (items : List Item) (draft : StateDraft) (line : Nat),
    Reader.read ⟨items, .entries draft⟩ ⟨line, .word ("S" ++ digits)⟩ =
      .ok ⟨items, .metaLabel draft line digits⟩
  line : ∀ (items : List Item) (draft : StateDraft) (line : Nat) {label : String}
      {change : MetaDecl}, Quotable label → change.Proper →
    Leads line ⟨items, .entries draft⟩ (Line.lexemes (Entry.slot digits label change line).printed)
      (line + 1) ⟨items, .entries (draft.add (.slot digits label (change.on line) line))⟩

/-- Both the cell and the entry are about this slot. The cell holds the placeholder of the
slot; the entry gives its mode change to this slot of the state and leaves every other one as
it was. In declarations that are accepted with something else in the place, the word is
accepted as well and has just this effect, unless a later entry of the state is about the
same slot. -/
structure StandsForSlot (digits : String) (slot : Nat) : Prop where
  key : ∀ line, (slotCell digits line).key? = .ok (some (.placeholder slot))
  addEntry : ∀ (scope : Scope) (state : State) (label : String) (change : MetaDecl) (line : Nat),
    scope.addEntry state (.slot digits label change line) =
      (scope.metaKey label change line).map (state.setMetaKey slot)
  alone : ∀ (state : State) (change : MetaKey) (other : Nat),
    (state.setMetaKey slot change).metaKey? other =
      if other = slot then some change else state.metaKey? other
  cell : ∀ (place : CellPlace) (filler : CellDecl) (line : Nat) (keyboard : Keyboard),
    Keyboard.ofItems (place.items filler) = .ok keyboard →
      ∃ changed, Keyboard.ofItems (place.items (slotCell digits line)) = .ok changed ∧
        place.key? changed = some (.placeholder slot)
  entry : ∀ (place : EntryPlace) (number label : String) (change : MetaDecl) (head line : Nat)
      (keyboard : Keyboard),
    Keyboard.ofItems (place.items (.slot number label change head)) = .ok keyboard →
      ∃ changed state,
        Keyboard.ofItems (place.items (.slot digits label change line)) = .ok changed ∧
        place.state? changed = some state ∧
        ((∀ later ∈ place.after, later.change? slot = none) →
          ∃ key, state.metaKey? slot = some key ∧ MetaDecl.Denotes changed (label, change) key)

/-- Neither the cell nor the entry can be used. Declarations that are accepted with something
else in the place are refused for the word in it, with its digits and its line. -/
structure StandsForNoSlot (digits : String) : Prop where
  key : ∀ line, (slotCell digits line).key? = .error (.invalidSlot line digits)
  addEntry : ∀ (scope : Scope) (state : State) (label : String) (change : MetaDecl) (line : Nat),
    scope.addEntry state (.slot digits label change line) = .error (.invalidSlot line digits)
  cell : ∀ (place : CellPlace) (filler : CellDecl) (line : Nat) (keyboard : Keyboard),
    Keyboard.ofItems (place.items filler) = .ok keyboard →
      Keyboard.ofItems (place.items (slotCell digits line)) = .error (.invalidSlot line digits)
  entry : ∀ (place : EntryPlace) (filler : Entry) (label : String) (change : MetaDecl)
      (line : Nat) (keyboard : Keyboard),
    Keyboard.ofItems (place.items filler) = .ok keyboard →
      Keyboard.ofItems (place.items (.slot digits label change line)) =
        .error (.invalidSlot line digits)

/-- The cell is a placeholder for a slot, and the entry says what this slot does. -/
def RefersTo (cell : CellDecl) (entry : Entry) : Prop :=
  ∃ slot, cell.cell.meaning? = some (.placeholder slot) ∧ (entry.change? slot).isSome

variable {digits : String} (hd : Decimal.isDigits digits.toList)
include hd

theorem length_slotWord : ("S" ++ digits).length ≠ 1 := by
  obtain ⟨hne, _⟩ := isWord_of_isDigits hd
  have hlength := List.length_pos_iff.mpr hne
  rw [String.length_toList] at hlength
  have hletter : "S".length = 1 := rfl
  rw [String.length_append]
  omega

theorem readsAsSlot : ReadsAsSlot digits where
  word := .word (isWord_slot hd)
  cell := by
    intro items draft line hroom
    have htoken : Token.ofLexeme .row (.word ("S" ++ digits)) = .word ("S" ++ digits) := by
      simp [Token.ofLexeme, Token.ofWord]
    have hcell : cellOf (.word ("S" ++ digits)) = .ok (.code ("S" ++ digits)) := by
      simp only [cellOf, if_neg (length_slotWord hd)]
    simp only [Reader.read, Reader.step, Position.place, htoken, Reader.readRow, reduceCtorEq,
      if_false, if_neg (Nat.ne_of_lt hroom), hcell]
    rfl
  entry := by
    intro items draft line
    have hword : ¬Decimal.isDigits ("S" ++ digits).toList := by
      rw [String.toList_append]
      exact Bool.false_ne_true
    have htoken : Token.ofLexeme .directive (.word ("S" ++ digits)) = .word ("S" ++ digits) :=
      if_neg (fun h => hword h.2)
    simp only [Reader.read, Reader.step, Position.place, htoken, Reader.readEntries,
      ofKeyword?_slot, slotDigits?_slot hd]
    rfl
  line := by
    intro items draft line label change hlabel hchange
    exact leads_entry items draft line ⟨hd, hlabel, hchange⟩

theorem keyOfCode_slot (line : Nat) :
    keyOfCode ("S" ++ digits) line = (slotOf digits line).map .placeholder := by
  simp only [keyOfCode, Device.ofName?_slot, if_neg (slotWord_ne externalName_head digits),
    slotDigits?_slot hd]

theorem key?_slotCell (line : Nat) :
    (slotCell digits line).key? =
      (slotOf digits line).map (fun slot => some (.placeholder slot)) := by
  simp only [CellDecl.key?, slotCell, keyOfCode_slot hd]
  cases slotOf digits line <;> rfl

theorem meaning?_slotCell (line : Nat) :
    (slotCell digits line).cell.meaning? =
      some (.placeholder (Decimal.value digits.toList)) := by
  simp only [slotCell, Cell.meaning?, codeMeaning?, Device.ofName?_slot,
    if_neg (slotWord_ne externalName_head digits), slotDigits?_slot hd, Option.bind_some,
    Decimal.numeral?_of_isDigits hd, Option.map_some]

theorem change?_slot (label : String) (change : MetaDecl) (line slot : Nat) :
    (Entry.slot digits label change line).change? slot =
      if Decimal.value digits.toList = slot then some (label, change) else none := by
  simp only [Entry.change?, Decimal.numeral?_of_isDigits hd, Option.some.injEq]

end Source

/-- With none about the slot behind it, an entry counts before those in front of it. -/
theorem EntryPlace.change?_of_last (place : EntryPlace) (entry : Entry) {slot : Nat}
    (hlast : ∀ later ∈ place.after, later.change? slot = none) :
    (place.decl entry).change? slot =
      (entry.change? slot).or (place.before.filterMap (·.change? slot)).getLast? := by
  have hafter : place.after.filterMap (·.change? slot) = [] :=
    List.filterMap_eq_nil_iff.mpr hlast
  simp only [StateDecl.change?, decl, List.filterMap_append, List.filterMap_cons, hafter]
  cases entry.change? slot with
  | none => rw [List.append_nil, Option.none_or]
  | some change => rw [List.getLast?_concat, Option.some_or]

namespace Source

variable {digits : String} (hd : Decimal.isDigits digits.toList)
include hd

theorem standsForSlot (hv : Decimal.value digits.toList < slotCount) :
    StandsForSlot digits (Decimal.value digits.toList) := by
  have hslot : ∀ line, slotOf digits line = .ok (Decimal.value digits.toList) := by
    intro line
    rw [slotOf_of_isDigits hd, if_pos hv]
  refine ⟨?_, ?_, ?_, ?_, ?_⟩
  · intro line
    rw [key?_slotCell hd, hslot]
    rfl
  · intro scope state label change line
    simp only [Scope.addEntry_slot, hslot]
    show (scope.metaKey label change line >>= fun key => _) = _
    cases scope.metaKey label change line <;> rfl
  · intro state change other
    rw [State.metaKey?_setMetaKey]
    by_cases hother : other = Decimal.value digits.toList
    · rw [if_pos hother, if_pos ⟨hother.symm, hv⟩]
    · rw [if_neg hother, if_neg (fun h => hother h.1.symm)]
  · intro place filler line keyboard h
    have hknown : (slotCell digits line).cell.Known := .slot hd hv
    obtain ⟨changed, hchanged⟩ := CellPlace.exists_ofItems h hknown
    refine ⟨changed, hchanged, ?_⟩
    rw [CellPlace.key?_of_ofItems hchanged, meaning?_slotCell hd]
  · intro place number label change head line keyboard h
    have hresolves : ∀ stateNames layoutNames,
        (Entry.slot number label change head).Resolves stateNames layoutNames →
          (Entry.slot digits label change line).Resolves stateNames layoutNames := by
      intro _ _ hr
      exact ⟨⟨_, Decimal.numeral?_of_isDigits hd, hv⟩, hr.2⟩
    obtain ⟨changed, hchanged⟩ := EntryPlace.exists_ofItems h hresolves
    obtain ⟨state, hstate, hbuilt⟩ := EntryPlace.state?_of_ofItems hchanged
    refine ⟨changed, state, hchanged, hstate, ?_⟩
    intro hlast
    have hentry := change?_slot hd label change line (Decimal.value digits.toList)
    rw [if_pos rfl] at hentry
    have hrel := hbuilt.lists_and_slots.2 (Decimal.value digits.toList)
    rw [place.change?_of_last _ hlast, hentry, Option.some_or] at hrel
    generalize state.metaKey? (Decimal.value digits.toList) = found at hrel
    cases hrel with
    | @some _ key hdenotes => exact ⟨key, rfl, hdenotes⟩

theorem standsForNoSlot (hv : slotCount ≤ Decimal.value digits.toList) :
    StandsForNoSlot digits := by
  have hslot : ∀ line, slotOf digits line = .error (.invalidSlot line digits) := by
    intro line
    rw [slotOf_of_isDigits hd, if_neg (Nat.not_lt.mpr hv)]
  have hkey : ∀ line, (slotCell digits line).key? = .error (.invalidSlot line digits) := by
    intro line
    rw [key?_slotCell hd, hslot]
    rfl
  have hchange : ∀ (scope : Scope) (state : State) (label : String) (change : MetaDecl)
      (line : Nat), scope.addEntry state (.slot digits label change line) =
        .error (.invalidSlot line digits) := by
    intro scope state label change line
    simp only [Scope.addEntry_slot, hslot]
    rfl
  refine ⟨hkey, hchange, ?_, ?_⟩
  · intro place filler line keyboard h
    exact CellPlace.ofItems_error h (hkey line)
  · intro place filler label change line keyboard h
    exact EntryPlace.ofItems_error h fun scope state => hchange scope state label change line

theorem refersTo_iff {number : String} (hn : Decimal.isDigits number.toList) (line head : Nat)
    (label : String) (change : MetaDecl) :
    RefersTo (slotCell digits line) (.slot number label change head) ↔
      Decimal.value digits.toList = Decimal.value number.toList := by
  unfold RefersTo
  rw [meaning?_slotCell hd]
  constructor
  · intro h
    obtain ⟨slot, hslot, hchange⟩ := h
    cases hslot
    rw [change?_slot hn] at hchange
    by_contra hne
    rw [if_neg (Ne.symm hne)] at hchange
    cases hchange
  · intro h
    refine ⟨_, rfl, ?_⟩
    rw [change?_slot hn, if_pos h.symm]
    rfl

/-- In a keyboard that has both, the key in the cell leads to what the entry says, or else to
what those in front of the entry say. -/
theorem leads_to_entry {number : String} (hn : Decimal.isDigits number.toList)
    {place : CellPlace} {home : EntryPlace} {line head : Nat} {label : String}
    {change : MetaDecl} {keyboard : Keyboard}
    (hsame : place.items (slotCell digits line) = home.items (.slot number label change head))
    (hk : Keyboard.ofItems (place.items (slotCell digits line)) = .ok keyboard)
    (hlast : ∀ later ∈ home.after, later.change? (Decimal.value digits.toList) = none) :
    ∃ slot state, place.key? keyboard = some (.placeholder slot) ∧
      home.state? keyboard = some state ∧
      Option.Rel (MetaDecl.Denotes keyboard)
        (if Decimal.value digits.toList = Decimal.value number.toList then some (label, change)
          else (home.before.filterMap (·.change? slot)).getLast?)
        (state.metaKey? slot) := by
  have hkey := CellPlace.key?_of_ofItems hk
  rw [meaning?_slotCell hd] at hkey
  rw [hsame] at hk
  obtain ⟨state, hstate, hbuilt⟩ := EntryPlace.state?_of_ofItems hk
  refine ⟨_, state, hkey, hstate, ?_⟩
  have hrel := hbuilt.lists_and_slots.2 (Decimal.value digits.toList)
  rw [home.change?_of_last _ hlast, change?_slot hn] at hrel
  by_cases hvalue : Decimal.value digits.toList = Decimal.value number.toList
  · rw [if_pos hvalue.symm, Option.some_or] at hrel
    rw [if_pos hvalue]
    exact hrel
  · rw [if_neg (Ne.symm hvalue), Option.none_or] at hrel
    rw [if_neg hvalue]
    exact hrel

end Source

/-- Slots go by number at both places. The word of a slot means the slot of the exact value of
its digits if there is one and is refused with them otherwise, as a cell and as an entry; and
a cell and an entry are about the same slot if their digits have the same value, so that in a
keyboard which has both the key in the cell does what the entry says. -/
theorem slot_words_go_by_value {digits : String} (hd : Decimal.isDigits digits.toList) :
    ReadsAsSlot digits ∧
      (Decimal.value digits.toList < slotCount →
        StandsForSlot digits (Decimal.value digits.toList)) ∧
      (slotCount ≤ Decimal.value digits.toList → StandsForNoSlot digits) ∧
      ∀ number : String, Decimal.isDigits number.toList →
        ∀ (line head : Nat) (label : String) (change : MetaDecl),
          (RefersTo (slotCell digits line) (.slot number label change head) ↔
            Decimal.value digits.toList = Decimal.value number.toList) ∧
          ∀ (place : CellPlace) (home : EntryPlace) (keyboard : Keyboard),
            place.items (slotCell digits line) =
              home.items (.slot number label change head) →
            Keyboard.ofItems (place.items (slotCell digits line)) = .ok keyboard →
            (∀ later ∈ home.after, later.change? (Decimal.value digits.toList) = none) →
            ∃ slot state, place.key? keyboard = some (.placeholder slot) ∧
              home.state? keyboard = some state ∧
              Option.Rel (MetaDecl.Denotes keyboard)
                (if Decimal.value digits.toList = Decimal.value number.toList then
                  some (label, change)
                else (home.before.filterMap (·.change? slot)).getLast?)
                (state.metaKey? slot) := by
  refine ⟨readsAsSlot hd, standsForSlot hd, standsForNoSlot hd, ?_⟩
  intro number hn line head label change
  refine ⟨refersTo_iff hd hn line head label change, ?_⟩
  intro place home keyboard hsame hk hlast
  exact leads_to_entry hd hn hsame hk hlast

/-- A place beside one other key. -/
def besideText : CellPlace where
  front := [.size ⟨⟨1, 2⟩, 1⟩]
  name := "base"
  line := 2
  above := []
  before := [⟨.text "a", 3⟩]
  after := []
  below := []
  back := [.state ⟨"main", 5, [.layers .tap [⟨.plain, "base", 6⟩] 6]⟩]

/-- Two to the power of 64 more than a slot is no slot. -/
theorem long_slot_words :
    (∃ keyboard, Keyboard.ofItems (besideText.items (slotCell "0002" 3)) = .ok keyboard ∧
      besideText.key? keyboard = some (.placeholder 2)) ∧
    Keyboard.ofItems (besideText.items (slotCell "18446744073709551618" 3)) =
      .error (.invalidSlot 3 "18446744073709551618") ∧
    RefersTo (slotCell "0002" 3) (.slot "2" "x" (.state "main") 7) ∧
    ¬RefersTo (slotCell "0002" 3) (.slot "18446744073709551618" "x" (.state "main") 7) := by
  have hshort : Decimal.isDigits "0002".toList := by decide
  have hlong : Decimal.isDigits "18446744073709551618".toList := by decide
  have hsmall : Decimal.value "0002".toList = 2 := by decide
  have hlarge : Decimal.value "18446744073709551618".toList = 2 ^ 64 + 2 := by decide +kernel
  obtain ⟨keyboard, hk⟩ : ∃ keyboard,
      Keyboard.ofItems (besideText.items ⟨.absent, 3⟩) = .ok keyboard := ⟨_, rfl⟩
  obtain ⟨_, hslot, _, hrefers⟩ := slot_words_go_by_value hshort
  obtain ⟨_, _, hnone, _⟩ := slot_words_go_by_value hlong
  rw [hsmall] at hslot
  refine ⟨(hslot (by decide)).cell besideText _ 3 keyboard hk, ?_, ?_, ?_⟩
  · exact (hnone (by rw [hlarge]; decide)).cell besideText _ 3 keyboard hk
  · exact (hrefers "2" (by decide) 3 7 "x" (.state "main")).1.mpr (by decide)
  · rw [(hrefers _ hlong 3 7 "x" (.state "main")).1, hsmall, hlarge]
    decide

end KeyGrid
