import KeyGrid.Proofs.Accepted
import KeyGrid.Proofs.Consistent
import KeyGrid.Proofs.Mirrored

/-!
# Declarations behind others

A file that is read goes on being read: whatever stands on further lines adds lexemes behind
those that are there, declarations behind declarations, and layouts and states behind those
of the keyboard. What was there before stays where it was, and is used as before.
-/

namespace KeyGrid

open Source

theorem toList_append_line (front back : String) :
    (front ++ "\n" ++ back).toList = front.toList ++ '\n' :: back.toList := by
  rw [String.toList_append, String.toList_append, List.append_assoc]
  rfl

/-! ### Lexemes -/

namespace Source.Scanner

theorem emitted_settle (scanner : Scanner) : scanner.emitted <:+ scanner.settle.emitted := by
  unfold settle
  split
  · exact List.suffix_rfl
  · exact List.suffix_cons ..
  · exact List.suffix_cons ..
  · exact List.suffix_rfl

theorem emitted_opening (scanner : Scanner) (c : Char) :
    scanner.emitted <:+ (scanner.opening c).emitted := by
  rcases opening_cases c with ⟨lexeme, _, h⟩ | h | ⟨begun, h⟩
  · rw [h]
    exact List.suffix_cons ..
  · rw [h]
  · rw [h]

theorem emitted_read (scanner : Scanner) (c : Char) :
    scanner.emitted <:+ (scanner.read c).emitted := by
  have hsettled := scanner.emitted_settle.trans (scanner.settle.emitted_opening c)
  unfold read
  split
  · exact scanner.emitted_opening c
  · split
    · exact List.suffix_rfl
    · exact hsettled
  · split
    · exact List.suffix_cons ..
    · split
      · exact hsettled
      · exact List.suffix_rfl
  · split
    · exact hsettled
    · exact List.suffix_rfl

theorem emitted_foldl (scanner : Scanner) (text : List Char) :
    scanner.emitted <:+ (text.foldl read scanner).emitted := by
  induction text generalizing scanner with
  | nil => exact List.suffix_rfl
  | cons c text ih => exact (scanner.emitted_read c).trans (ih (scanner.read c))

end Source.Scanner

theorem Source.lexemes_append (front back : List Char) :
    (scan front).lexemes <+: (scan (front ++ '\n' :: back)).lexemes := by
  -- the line end completes whatever the end of the file would have completed
  have hline : (scan front).settle.emitted <:+ ((scan front).read '\n').emitted := by
    rw [Scanner.read_newline]
    exact List.suffix_cons ..
  have hrest := Scanner.emitted_foldl ((scan front).read '\n') back
  rw [scan_append, List.foldl_cons]
  unfold Scanner.lexemes
  rw [List.reverse_prefix]
  exact (hline.trans hrest).trans (Scanner.emitted_settle _)

/-! ### Reading on -/

namespace Source.Reader

variable {reader next : Reader} {line : Nat} {token : Token}

theorem readTop_grows (h : reader.readTop line token = .ok next) :
    reader.items <:+ next.items := by
  unfold readTop at h
  split at h
  · cases h
    exact List.suffix_rfl
  · cases h
    exact List.suffix_rfl
  · split at h
    · cases h
    · cases h
      exact List.suffix_rfl
  · split at h
    · cases h
    · cases h
      exact List.suffix_rfl
  · cases h
    exact List.suffix_rfl
  · cases h
  · cases h

theorem readLineEnd_grows {position : Position}
    (h : reader.readLineEnd position line token = .ok next) : reader.items <:+ next.items := by
  unfold readLineEnd at h
  split at h
  · cases h
    exact List.suffix_rfl
  · cases h

theorem readSymbol_grows {c : Char} {position : Position}
    (h : reader.readSymbol c position line token = .ok next) : reader.items <:+ next.items := by
  unfold readSymbol at h
  split at h
  · cases h
    exact List.suffix_rfl
  · cases h

theorem readWord_grows {what : Expected} {position : String → Position}
    (h : reader.readWord what position line token = .ok next) : reader.items <:+ next.items := by
  unfold readWord at h
  split at h
  · cases h
    exact List.suffix_rfl
  · cases h

theorem readDimension_grows {dimension : Dimension} {behind : Nat → Reader}
    (hb : ∀ value, reader.items <:+ (behind value).items)
    (h : readDimension dimension behind line token = .ok next) : reader.items <:+ next.items := by
  unfold readDimension at h
  split at h
  · rename_i value _
    cases h
    exact hb value
  · cases h

theorem readRow_grows {draft : LayoutDraft} (h : reader.readRow draft line token = .ok next) :
    reader.items <:+ next.items := by
  unfold readRow at h
  split at h
  · cases h
    exact List.suffix_rfl
  · cases h
  · split at h
    · cases h
      exact List.suffix_cons ..
    · split at h
      · cases h
      · split at h
        · cases h
          exact List.suffix_rfl
        · cases h

theorem readAfterRows_grows {draft : LayoutDraft}
    (h : reader.readAfterRows draft line token = .ok next) : reader.items <:+ next.items := by
  unfold readAfterRows at h
  split at h
  · cases h
    exact List.suffix_rfl
  · split at h
    · cases h
      exact List.suffix_cons ..
    · cases h

theorem readEntries_grows {draft : StateDraft}
    (h : reader.readEntries draft line token = .ok next) : reader.items <:+ next.items := by
  unfold readEntries at h
  split at h
  · cases h
    exact List.suffix_rfl
  · split at h
    · cases h
      exact List.suffix_rfl
    · split at h
      · cases h
        exact List.suffix_rfl
      · cases h
  · split at h
    · cases h
      exact List.suffix_cons ..
    · cases h

theorem readAfterEntry_grows {draft : StateDraft}
    (h : reader.readAfterEntry draft line token = .ok next) : reader.items <:+ next.items := by
  unfold readAfterEntry at h
  split at h
  · exact readEntries_grows h
  · cases h

theorem readLayers_grows {draft : StateDraft} {list : ListDraft}
    (h : reader.readLayers draft list line token = .ok next) : reader.items <:+ next.items := by
  unfold readLayers at h
  split at h
  · split at h
    · cases h
      exact List.suffix_rfl
    · cases h
      exact List.suffix_rfl
  · exact readAfterEntry_grows h

theorem readMetaKind_grows {draft : StateDraft} {slot : SlotDraft}
    (h : reader.readMetaKind draft slot line token = .ok next) : reader.items <:+ next.items := by
  unfold readMetaKind at h
  split at h
  · cases h
    exact List.suffix_rfl
  · cases h
    exact List.suffix_rfl
  · cases h
    exact List.suffix_rfl
  · cases h
  · cases h

/-- No token takes back a declaration that is complete. -/
theorem step_grows (h : reader.step line token = .ok next) : reader.items <:+ next.items := by
  unfold step at h
  split at h
  · exact readTop_grows h
  · exact readLineEnd_grows h
  · apply readDimension_grows _ h
    intro rows
    exact List.suffix_rfl
  · apply readDimension_grows _ h
    intro cols
    exact List.suffix_cons ..
  · exact readWord_grows h
  · exact readSymbol_grows h
  · split at h
    · exact readRow_grows h
    · exact readLineEnd_grows h
  · exact readRow_grows h
  · exact readAfterRows_grows h
  · exact readWord_grows h
  · exact readSymbol_grows h
  · split at h
    · exact readEntries_grows h
    · exact readLineEnd_grows h
  · exact readEntries_grows h
  · exact readAfterEntry_grows h
  · exact readLayers_grows h
  · exact readSymbol_grows h
  · exact readWord_grows h
  · split at h
    · cases h
      exact List.suffix_rfl
    · cases h
  · exact readMetaKind_grows h
  · exact readWord_grows h

theorem run_grows {lexemes : List (Located Lexeme)} (h : lexemes.foldlM read reader = .ok next) :
    reader.items <:+ next.items :=
  foldlM_preserves (R := fun before after => before.items <:+ after.items)
    (fun _ => List.suffix_rfl) (fun _ _ _ => List.IsSuffix.trans) (fun _ _ _ => step_grows) h

end Source.Reader

theorem Source.declarations_append {front back : String} {items more : List Item}
    (hf : declarations front = .ok items)
    (hw : declarations (front ++ "\n" ++ back) = .ok more) : items <+: more := by
  obtain ⟨reader, hreader, hf⟩ := bind_eq_ok_iff.mp hf
  obtain ⟨last, hlast, hf⟩ := bind_eq_ok_iff.mp hf
  cases hf
  obtain ⟨_, rfl⟩ := Reader.step_fileEnd_ok hlast
  obtain ⟨whole, hwhole, hw⟩ := bind_eq_ok_iff.mp hw
  obtain ⟨behind, hbehind, hw⟩ := bind_eq_ok_iff.mp hw
  cases hw
  obtain ⟨_, rfl⟩ := Reader.step_fileEnd_ok hbehind
  obtain ⟨others, hlexemes⟩ := lexemes_append front.toList back.toList
  rw [toList_append_line, readLexemes, ← hlexemes] at hwhole
  obtain ⟨middle, hmiddle, hrest⟩ := foldlM_append_eq_ok_iff.mp hwhole
  have hsame : middle = reader := by
    rw [← Except.ok.injEq (ε := LoadError), ← hmiddle]
    exact hreader
  rw [hsame] at hrest
  show reader.items.reverse <+: whole.items.reverse
  rw [List.reverse_prefix]
  exact Reader.run_grows hrest

/-! ### More states to lead to -/

section

variable {names more : List String} (hn : names <+: more) {layouts : List Layout}
include hn

theorem Scope.target_mono {name : String} {line : Nat} {target : Target}
    (h : Scope.target ⟨names, layouts⟩ name line = .ok target) :
    Scope.target ⟨more, layouts⟩ name line = .ok target := by
  rw [Scope.target_eq] at h ⊢
  split at h
  · rename_i hexternal
    rw [if_pos hexternal]
    exact h
  · rename_i hexternal
    rw [if_neg hexternal]
    obtain ⟨rest, rfl⟩ := hn
    split at h
    · rename_i index hindex
      simp only at hindex
      simp only [List.findIdx?_append, hindex, Option.some_or]
      exact h
    · cases h

theorem Scope.metaKey_mono {label : String} {change : MetaDecl} {line : Nat} {key : MetaKey}
    (h : Scope.metaKey ⟨names, layouts⟩ label change line = .ok key) :
    Scope.metaKey ⟨more, layouts⟩ label change line = .ok key := by
  cases change with
  | dead refs => exact h
  | state name =>
    obtain ⟨target, htarget, rfl⟩ := map_eq_ok_iff.mp h
    exact map_eq_ok_iff.mpr ⟨target, target_mono hn htarget, rfl⟩
  | deadLatch name =>
    rw [metaKey_deadLatch] at h ⊢
    split at h
    · cases h
    · rename_i hexternal
      obtain ⟨target, htarget, rfl⟩ := map_eq_ok_iff.mp h
      rw [if_neg hexternal]
      exact map_eq_ok_iff.mpr ⟨target, target_mono hn htarget, rfl⟩

theorem Scope.addEntry_mono (state : State) (entry : Entry) (next : State)
    (h : Scope.addEntry ⟨names, layouts⟩ state entry = .ok next) :
    Scope.addEntry ⟨more, layouts⟩ state entry = .ok next := by
  cases entry with
  | layers swipe refs line => exact h
  | slot digits label change line =>
    obtain ⟨slot, hslot, h⟩ := bind_eq_ok_iff.mp h
    obtain ⟨key, hkey, h⟩ := bind_eq_ok_iff.mp h
    exact bind_eq_ok_iff.mpr ⟨slot, hslot,
      bind_eq_ok_iff.mpr ⟨key, metaKey_mono hn hkey, h⟩⟩

/-- A declaration that can be used is used as before when more states are declared. -/
theorem Parts.add_mono (parts : Parts) (item : Item) (next : Parts)
    (h : parts.add names item = .ok next) : parts.add more item = .ok next := by
  cases item with
  | size decl => exact h
  | layout decl => exact h
  | state decl =>
    obtain ⟨state, hstate, h⟩ := bind_eq_ok_iff.mp h
    exact bind_eq_ok_iff.mpr ⟨state, foldlM_mono (Scope.addEntry_mono hn) hstate, h⟩

end

/-- The parts in front of others. -/
def Parts.Begins (parts whole : Parts) : Prop :=
  parts.layouts <+: whole.layouts ∧ parts.states <+: whole.states

theorem Parts.add_begins {names : List String} {parts next : Parts} {item : Item}
    (h : parts.add names item = .ok next) : parts.Begins next := by
  cases item with
  | size decl =>
    cases h
    exact ⟨List.prefix_rfl, List.prefix_rfl⟩
  | layout decl =>
    obtain ⟨layout, _, h⟩ := bind_eq_ok_iff.mp h
    cases h
    exact ⟨List.prefix_append .., List.prefix_rfl⟩
  | state decl =>
    obtain ⟨state, _, h⟩ := bind_eq_ok_iff.mp h
    cases h
    exact ⟨List.prefix_rfl, List.prefix_append ..⟩

theorem Parts.run_begins {names : List String} {parts whole : Parts} {items : List Item}
    (h : items.foldlM (Parts.add names) parts = .ok whole) : parts.Begins whole :=
  foldlM_preserves (R := Parts.Begins) (fun _ => ⟨List.prefix_rfl, List.prefix_rfl⟩)
    (fun _ _ _ hf hs => ⟨hf.1.trans hs.1, hf.2.trans hs.2⟩) (fun _ _ _ => add_begins) h

/-! ### Keyboards with more declarations -/

/-- All that is in the first keyboard stands in the same place of the second one. -/
structure Keyboard.Begins (first second : Keyboard) : Prop where
  layouts : first.layouts <+: second.layouts
  states : first.states <+: second.states
  main : first.main = second.main
  grid : first.layouts ≠ [] → first.grid = second.grid

namespace Keyboard

/-- Of two accepted keyboards one begins the other as soon as its layouts and states do. -/
theorem begins_of_prefix {first second : Keyboard} (hf : first.Assembled)
    (hs : second.Assembled) (hlayouts : first.layouts <+: second.layouts)
    (hstates : first.states <+: second.states) : first.Begins second := by
  refine ⟨hlayouts, hstates, ?_, ?_⟩
  · have hfirst := hf.stateIndex?_main
    have hsecond := hs.stateIndex?_main
    obtain ⟨rest, hrest⟩ := hstates
    unfold stateIndex? at hfirst hsecond
    rw [← hrest, List.findIdx?_append, hfirst] at hsecond
    exact Option.some.inj hsecond
  · intro hne
    obtain ⟨layout, hlayout⟩ := List.exists_mem_of_ne_nil first.layouts hne
    obtain ⟨hrows, hcols⟩ := hf.consistent.shape layout hlayout
    obtain ⟨hotherRows, hotherCols⟩ := hs.consistent.shape layout (hlayouts.subset hlayout)
    have hgrid : ∀ grid : Grid, grid = ⟨grid.rows, grid.cols⟩ := fun _ => rfl
    rw [hgrid first.grid, hgrid second.grid, ← hrows, ← hcols, hotherRows, hotherCols]

section

variable {first second : Keyboard} {items more : List Item} (hp : items <+: more)
  (hf : ofItems items = .ok first) (hs : ofItems more = .ok second)
include hp hf hs

theorem begins_of_ofItems : first.Begins second := by
  obtain ⟨names, parts, _, hnames, hparts, _, _, hfirst⟩ := parts_of_ofItems hf
  obtain ⟨others, whole, _, hothers, hwhole, _, _, hsecond⟩ := parts_of_ofItems hs
  have hmore : names <+: others := by
    rw [(stateNamesOf_eq_ok_iff.mp hnames).1, (stateNamesOf_eq_ok_iff.mp hothers).1]
    exact (hp.filterMap Item.state?).map _
  obtain ⟨rest, rfl⟩ := hp
  obtain ⟨between, hbetween, hrest⟩ := foldlM_append_eq_ok_iff.mp hwhole
  -- knowing more states, the first declarations still make up the same parts
  have hagain := foldlM_mono (Parts.add_mono hmore) hparts
  rw [hbetween] at hagain
  rw [Except.ok.inj hagain] at hrest
  obtain ⟨hlayouts, hstates⟩ := Parts.run_begins hrest
  apply begins_of_prefix (ofItems_ok hf).assembled (ofItems_ok hs).assembled
  · rw [hfirst, hsecond]
    exact hlayouts
  · rw [hfirst, hsecond]
    exact hstates

theorem mirrors_of_prefix : first.Mirrors second := by
  have hgrid := (begins_of_ofItems hp hf hs).grid
  apply (ofItems_ok hf).mirrors (ofItems_ok hs) _ _ hgrid
  · intro decl hdecl
    exact (hp.filterMap Item.layout?).subset hdecl
  · intro decl hdecl
    exact (hp.filterMap Item.state?).subset hdecl

end

/-- A mark counts at the very front only. -/
theorem withoutMark_append (front back : String) :
    withoutMark (front ++ "\n" ++ back) = withoutMark front ++ "\n" ++ back := by
  unfold withoutMark
  rw [toList_append_line]
  cases front.toList with
  | nil => rfl
  | cons c rest =>
    simp only [List.cons_append]
    split
    · apply String.toList_injective
      rw [toList_append_line, String.toList_ofList, String.toList_ofList]
    · rfl

end Keyboard

/-- What is declared on further lines changes nothing of what is there. The layouts and states
of the first file stand at the same places, so that every reference among them leads to the
same; and as long as no state is asked for that only the further lines declare, engines with
the two keyboards tell their hosts the same and look the same. -/
theorem ofSource_append {front back : String} {first second : Keyboard}
    (hf : Keyboard.ofSource front = .ok first)
    (hs : Keyboard.ofSource (front ++ "\n" ++ back) = .ok second) :
    first.Begins second ∧
      ∀ operations : List Operation,
        (∀ operation ∈ operations, operation.Brings fun _ => False) →
        (∀ name, .setState name ∈ operations → name ∈ first.stateNames) →
        ((Engine.start first).run operations).2 = ((Engine.start second).run operations).2 ∧
          ((Engine.start first).run operations).1.LooksLike
            ((Engine.start second).run operations).1 := by
  obtain ⟨items, hitems, hf⟩ := bind_eq_ok_iff.mp hf
  obtain ⟨more, hmore, hs⟩ := bind_eq_ok_iff.mp hs
  rw [Keyboard.withoutMark_append] at hmore
  have hp := declarations_append hitems hmore
  have hmirrors := Keyboard.mirrors_of_prefix hp hf hs
  refine ⟨Keyboard.begins_of_ofItems hp hf hs, ?_⟩
  intro operations hb hn
  obtain ⟨mode, image, events, hrun, hruns, hlooks⟩ :=
    hmirrors.run_start hb fun name hname _ => hn name hname
  rw [hrun, hruns]
  exact ⟨rfl, hlooks⟩

/-- A layout and a state without anything. -/
def furtherSource : String := "layout late \x7b\n\x7d\nstate other \x7b\n\x7d"

theorem further_begins :
    ∃ second, Keyboard.ofSource (deadKeySource ++ "\n" ++ furtherSource) = .ok second ∧
      deadKeyKeyboard.Begins second ∧
      ((Engine.start second).run [.press 0 1 .tap, .press 0 0 .upDown, .setState "main"]).2 =
        [[.redraw], [.text "a", .redraw], [.redraw]] := by
  have hsome : (Keyboard.ofSource (deadKeySource ++ "\n" ++ furtherSource)).toOption.isSome := by
    decide +kernel
  obtain ⟨second, hsecond⟩ := Option.isSome_iff_exists.mp hsome
  have hs := eq_ok_of_toOption hsecond
  obtain ⟨hbegins, halike⟩ := ofSource_append ofSource_deadKeySource hs
  have hevents := halike [.press 0 1 .tap, .press 0 0 .upDown, .setState "main"]
    (by simp [Operation.Brings]) (by simp [Keyboard.stateNames, deadKeyKeyboard, State.blank])
  exact ⟨second, hs, hbegins, hevents.1.symm.trans (by decide +kernel)⟩

end KeyGrid
