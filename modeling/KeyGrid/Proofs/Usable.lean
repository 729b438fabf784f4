import KeyGrid.Proofs.Appended
import KeyGrid.Proofs.Blamed
import KeyGrid.Proofs.Reread

/-!
# Layouts that can be used

A state that is declared on further lines finds every layout of the file by its name, unless
that name is the word of a modifier. A list reads such a word as the modifier wherever it
stands, and then asks for the colon that belongs behind it.
-/

namespace KeyGrid

open Source

/-! ### Room for another state -/

namespace Extent

section

variable {extent wider : Extent} (hl : extent.layouts ≤ wider.layouts)
  (hs : extent.states ≤ wider.states)
include hl hs

theorem admitsMetaKey_mono {change : MetaKey} (h : extent.admitsMetaKey change) :
    wider.admitsMetaKey change := by
  cases change with
  | dead label layers =>
    rw [admitsMetaKey_dead] at h ⊢
    exact fun layer hlayer => Nat.lt_of_lt_of_le (h layer hlayer) hl
  | switch label target latched =>
    cases target with
    | external => exact h
    | state index =>
      rw [admitsMetaKey_state] at h ⊢
      exact Nat.lt_of_lt_of_le h hs

theorem admitsKey_mono {key : Key} (h : extent.admitsKey key) : wider.admitsKey key := by
  cases key with
  | text key => rfl
  | device action => rfl
  | direct change => exact admitsMetaKey_mono hl hs h
  | placeholder slot => exact h

theorem admitsLayout_mono {layout : Layout} (h : extent.admitsLayout layout) :
    wider.admitsLayout layout := by
  rw [admitsLayout, List.all_eq_true] at h ⊢
  exact fun key hkey => admitsKey_mono hl hs (h key hkey)

theorem admitsState_mono {state : State} (h : extent.admitsState state) :
    wider.admitsState state := by
  rw [admitsState_iff] at h ⊢
  constructor
  · intro swipe layer hlayer
    exact Nat.lt_of_lt_of_le (h.1 swipe layer hlayer) hl
  · intro change hchange
    exact admitsMetaKey_mono hl hs (h.2 change hchange)

end

end Extent

namespace Keyboard

/-- The keyboard with one more state behind the others. -/
def addState (keyboard : Keyboard) (state : State) : Keyboard :=
  { keyboard with states := keyboard.states ++ [state] }

variable {keyboard : Keyboard} {state : State}

theorem Assembled.consistent_addState (h : keyboard.Assembled)
    (hfresh : state.name ∉ keyboard.stateNames)
    (ha : (keyboard.addState state).extent.admitsState state) :
    Consistent keyboard.grid keyboard.layouts (keyboard.states ++ [state]) := by
  have hparts := h.consistent
  have hlayouts : keyboard.extent.layouts ≤ (keyboard.addState state).extent.layouts :=
    Nat.le_refl _
  have hstates : keyboard.extent.states ≤ (keyboard.addState state).extent.states := by
    show keyboard.states.length ≤ (keyboard.states ++ [state]).length
    rw [List.length_append]
    exact Nat.le_add_right _ _
  refine ⟨hparts.shape, hparts.layoutNames, ?_, ?_, ?_⟩
  · rw [List.map_append, List.map_singleton, ← List.concat_eq_append]
    exact hparts.stateNames.concat hfresh
  · intro layout hlayout
    exact Extent.admitsLayout_mono hlayouts hstates (hparts.admitsLayouts layout hlayout)
  · intro other hother
    rcases List.mem_append.mp hother with hother | hother
    · exact Extent.admitsState_mono hlayouts hstates (hparts.admitsStates other hother)
    · rw [List.mem_singleton.mp hother]
      exact ha

theorem Assembled.assemble_addState (h : keyboard.Assembled)
    (hfresh : state.name ∉ keyboard.stateNames)
    (ha : (keyboard.addState state).extent.admitsState state) :
    assemble keyboard.grid keyboard.layouts (keyboard.states ++ [state]) =
      .ok (keyboard.addState state) := by
  have hmain : (keyboard.states ++ [state]).findIdx? (·.name == mainName) =
      some keyboard.main := by
    have hfound : keyboard.states.findIdx? (·.name == mainName) = some keyboard.main :=
      h.stateIndex?_main
    rw [List.findIdx?_append, hfound]
    rfl
  rw [(h.consistent_addState hfresh ha).assemble, hmain]
  rfl

theorem ofItems_addState {items : List Item} {decl : StateDecl}
    (h : ofItems items = .ok keyboard) (hreserved : decl.name ≠ externalName)
    (hfresh : decl.name ∉ keyboard.stateNames)
    (hstate : Scope.state ⟨keyboard.stateNames ++ [decl.name], keyboard.layouts⟩ decl = .ok state)
    (hname : state.name = decl.name)
    (ha : (keyboard.addState state).extent.admitsState state) :
    ofItems (items ++ [.state decl]) = .ok (keyboard.addState state) := by
  have hbuilt := ofItems_ok h
  obtain ⟨names, parts, grid, hnames, hparts, hgrid, _, hkeyboard⟩ := parts_of_ofItems h
  have hdeclared : names = keyboard.stateNames := by
    rw [(stateNamesOf_eq_ok_iff.mp hnames).1, hbuilt.stateNames]
  rw [hdeclared] at hnames hparts
  have hlayouts : parts.layouts = keyboard.layouts := by rw [hkeyboard]
  have hstates : parts.states = keyboard.states := by rw [hkeyboard]
  have hmore : stateNamesOf (Source.states (items ++ [.state decl])) =
      .ok (keyboard.stateNames ++ [decl.name]) := by
    have hadd : addStateName keyboard.stateNames decl =
        .ok (keyboard.stateNames ++ [decl.name]) := by
      rw [addStateName, if_neg hreserved, if_neg hfresh]
    rw [Source.states, List.filterMap_append]
    exact foldlM_concat_eq_ok_iff.mpr ⟨_, hnames, hadd⟩
  have hadd : parts.add (keyboard.stateNames ++ [decl.name]) (.state decl) =
      .ok { parts with states := parts.states ++ [state] } := by
    rw [← hlayouts] at hstate
    exact bind_eq_ok_iff.mpr ⟨state, hstate, rfl⟩
  have hwhole : (items ++ [Item.state decl]).foldlM
      (Parts.add (keyboard.stateNames ++ [decl.name])) .empty =
        .ok { parts with states := parts.states ++ [state] } :=
    foldlM_concat_eq_ok_iff.mpr
      ⟨parts, foldlM_mono (Parts.add_mono (List.prefix_append ..)) hparts, hadd⟩
  have hassemble := hbuilt.assembled.assemble_addState (hname ▸ hfresh) ha
  have hgiven : grid = keyboard.grid := by rw [hkeyboard]
  refine bind_eq_ok_iff.mpr ⟨_, hmore, bind_eq_ok_iff.mpr ⟨_, hwhole, ?_⟩⟩
  simp only [Parts.keyboard, hgrid, hgiven, hlayouts, hstates, hassemble]

end Keyboard

/-! ### Reading on behind a file -/

namespace Source

theorem lexemes_lines (front : List Char) {lines : List Line}
    (h : ∀ line ∈ lines, ∀ piece ∈ line, Piece.Spelled piece) :
    (scan (front ++ '\n' :: lines.flatMap Line.chars)).lexemes =
      (scan front).lexemes ++
        locate (1 + front.count '\n') (.lineEnd :: lines.flatMap Line.lexemes) := by
  have hbegun : ((scan front).settle.emit .lineEnd).begun = .nothing := rfl
  have hline : (scan front).settle.line = 1 + front.count '\n' :=
    (Scanner.follows_scan front).settle.1.line
  have hread := foldl_read_lines h hbegun
  have hemitted := (foldl_emit (scan front).settle (.lineEnd :: lines.flatMap Line.lexemes)).1
  have hnothing := begun_foldl_emit hbegun (lines.flatMap Line.lexemes)
  -- the line end completes whatever the file has left begun
  rw [scan_append, List.foldl_cons, Scanner.read_newline, hread]
  rw [hline, List.foldl_cons] at hemitted
  unfold Scanner.lexemes
  rw [Scanner.settle, hnothing]
  exact hemitted

/-- Further lines are read as if the declarations of the file stood in front of them. -/
theorem readLexemes_lines {front : String} {items : List Item}
    (hf : declarations front = .ok items) {lines : List Line}
    (h : ∀ line ∈ lines, ∀ piece ∈ line, Piece.Spelled piece) :
    readLexemes (scan (front.toList ++ '\n' :: lines.flatMap Line.chars)).lexemes =
      (locate (front.toList.count '\n' + 2) (lines.flatMap Line.lexemes)).foldlM Reader.read
        ⟨items.reverse, .top⟩ := by
  obtain ⟨reader, hreader, hf⟩ := bind_eq_ok_iff.mp hf
  obtain ⟨last, hlast, hf⟩ := bind_eq_ok_iff.mp hf
  cases hf
  obtain ⟨hposition, rfl⟩ := Reader.step_fileEnd_ok hlast
  have hend (line : Nat) : reader.read ⟨line, .lineEnd⟩ = .ok ⟨reader.items, .top⟩ := by
    obtain ⟨found, position⟩ := reader
    rcases hposition with rfl | rfl <;> rfl
  have hline : 1 + front.toList.count '\n' + 1 = front.toList.count '\n' + 2 := by omega
  have hrun : (scan front.toList).lexemes.foldlM Reader.read .start = .ok reader := hreader
  rw [readLexemes, lexemes_lines front.toList h, List.foldlM_append, hrun, locate, ← hline]
  show List.foldlM Reader.read reader _ = _
  rw [List.foldlM_cons, hend]
  show _ = List.foldlM Reader.read ⟨reader.items.reverse.reverse, .top⟩ _
  rw [List.reverse_reverse]
  rfl

theorem Leads.error {line behind : Nat} {reader next : Reader} {front : List Lexeme}
    {token : Token} {error : LoadError} (h : Leads line reader front behind next)
    (lexeme : Lexeme) (back : List Lexeme)
    (ht : Token.ofLexeme next.position.place lexeme = token)
    (hs : next.step behind token = .error error) :
    (locate line (front ++ lexeme :: back)).foldlM Reader.read reader = .error error := by
  have hread : next.read ⟨behind, lexeme⟩ = .error error := by
    rw [Reader.read, ht]
    exact hs
  rw [locate_append, List.foldlM_append, h.run, h.behind_eq, locate]
  show List.foldlM Reader.read next _ = _
  rw [List.foldlM_cons, hread]
  rfl

/-! ### A state that uses one layout -/

/-- The text of a state whose only entry names one layout for a tap. -/
def usingText (state layout : String) : String :=
  "state " ++ state ++ " \x7b\nlayout " ++ layout ++ "\n\x7d\n"

/-- The state of that text, when its first line is the given one. -/
def usingDecl (line : Nat) (state layout : String) : StateDecl :=
  ⟨state, line, [.layers .tap [⟨.plain, layout, line + 1⟩] (line + 1)]⟩

theorem toList_usingText (line : Nat) (state layout : String) :
    (usingText state layout).toList =
      (Item.state (usingDecl line state layout)).lines.flatMap Line.chars := by
  simp [usingText, usingDecl, Item.lines, heading, Entry.printed, LayerRef.piece, Line.chars,
    Piece.chars, Lexeme.chars, Swipe.keyword]

theorem spelled_using (head : Nat) {state layout : String} (hs : IsWord state)
    (hl : IsWord layout) :
    ∀ line ∈ (Item.state (usingDecl head state layout)).lines, ∀ piece ∈ line,
      Piece.Spelled piece := by
  have hentry : ∀ piece ∈ Entry.printed
      (.layers .tap [⟨.plain, layout, head + 1⟩] (head + 1)), Piece.Spelled piece := by
    rw [Entry.printed, List.forall_mem_cons]
    refine ⟨spelled_word (isWord_keyword .tap), ?_⟩
    simp only [List.map_cons, List.map_nil, List.forall_mem_singleton]
    exact spelled_word hl
  have hclose : Piece.Spelled [.symbol '\x7d'] := spelled_symbol (by decide)
  rw [Item.lines, List.forall_mem_cons]
  refine ⟨spelled_heading (by decide) hs, ?_⟩
  simp only [usingDecl, List.map_cons, List.map_nil, List.cons_append, List.nil_append,
    List.forall_mem_cons]
  exact ⟨hentry, ⟨hclose, fun _ h => by cases h⟩, fun _ h => by cases h⟩

/-- Read behind the opening of a list, the word of a modifier leaves a colon to be read. -/
theorem leads_to_colon (items : List Item) (line : Nat) {state layout : String}
    {modifier : Modifier} (hs : IsName state) (hl : IsName layout)
    (hmodifier : Modifier.ofWord? layout = some modifier) :
    Leads line ⟨items, .top⟩
      (Line.lexemes (heading "state" state) ++ [.word "layout", .word layout]) (line + 1)
      ⟨items, .layerColon (.start state line) ⟨.swipe .tap, line + 1, []⟩ modifier (line + 1)⟩ := by
  have hopen : Reader.step
      ⟨items, .layers (.start state line) ⟨.swipe .tap, line + 1, []⟩⟩ (line + 1) (.word layout) =
        .ok ⟨items, .layerColon (.start state line) ⟨.swipe .tap, line + 1, []⟩ modifier
          (line + 1)⟩ := by
    simp only [Reader.step, Reader.readLayers, hmodifier]
    rfl
  have hhead : Leads line ⟨items, .top⟩ (Line.lexemes (heading "state" state)) (line + 1)
      ⟨items, .entries (.start state line)⟩ :=
    .word (by decide) rfl (.word hs.2 rfl (.symbol rfl (.lineEnd rfl)))
  exact hhead.append (.word (by decide) rfl (.word hl.2 hopen .nil))

section

variable {front state layout : String} {items : List Item}
  (hf : declarations front = .ok items) (hs : IsName state)
include hf hs

theorem declarations_using (hl : IsName layout) (hplain : Modifier.ofWord? layout = none) :
    declarations (front ++ "\n" ++ usingText state layout) =
      .ok (items ++ [.state (usingDecl (front.toList.count '\n' + 2) state layout)]) := by
  have hproper : (usingDecl (front.toList.count '\n' + 2) state layout).Proper := by
    refine ⟨hs, ?_⟩
    rw [usingDecl, List.forall_mem_singleton]
    intro ref href
    rw [List.mem_singleton.mp href]
    exact ⟨hl, fun _ => (ofWord?_eq_none_iff layout).mp hplain⟩
  have hrun := (leads_state items.reverse (front.toList.count '\n' + 2) hproper).run
  have hread := readLexemes_lines hf
    (spelled_using (front.toList.count '\n' + 2) hs.1 hl.1)
  rw [hrun, ← toList_usingText, ← toList_append_line] at hread
  simp only [declarations, hread]
  show Except.ok (List.reverse (_ :: items.reverse)) = _
  rw [List.reverse_cons, List.reverse_reverse]
  rfl

theorem declarations_using_modifier {modifier : Modifier} (hl : IsName layout)
    (hmodifier : Modifier.ofWord? layout = some modifier) :
    declarations (front ++ "\n" ++ usingText state layout) =
      .error (.parse (front.toList.count '\n' + 3) (.expected (.symbol ':') .lineEnd)) := by
  have hcolon := leads_to_colon items.reverse (front.toList.count '\n' + 2) hs hl hmodifier
  -- the line ends where the colon has to stand
  have herror := hcolon.error .lineEnd [.symbol '\x7d', .lineEnd] rfl rfl
  have hread := readLexemes_lines hf (spelled_using 0 hs.1 hl.1)
  have hlines : (Item.state (usingDecl 0 state layout)).lines.flatMap Line.lexemes =
      Line.lexemes (heading "state" state) ++ [.word "layout", .word layout] ++
        .lineEnd :: [.symbol '\x7d', .lineEnd] := rfl
  rw [hlines, herror, ← toList_usingText, ← toList_append_line] at hread
  simp only [declarations, hread]
  rfl

end

end Source

/-! ### Whole files -/

theorem Keyboard.BuiltFrom.isName_of_mem_layoutNames {keyboard : Keyboard} {items : List Item}
    (h : keyboard.BuiltFrom items) {text : List Char} (hi : ItemsFound text items)
    {layout : String} (hl : layout ∈ keyboard.layoutNames) : IsName layout := by
  rw [h.layoutNames] at hl
  obtain ⟨decl, hdecl, rfl⟩ := List.mem_map.mp hl
  obtain ⟨grid, hfound⟩ := hi.layout (mem_layouts.mp hdecl)
  exact hfound.fits.name

/-- A state with one plain layer for a tap and nothing else. -/
def State.single (name : String) (layout : Nat) : State :=
  { State.blank name with primary := [⟨layout, .plain⟩] }

theorem Scope.state_using {layouts : List Layout} {layout : String} {index : Nat}
    (h : layouts.findIdx? (·.name == layout) = some index) (names : List String) (line : Nat)
    (state : String) :
    Scope.state ⟨names, layouts⟩ (usingDecl line state layout) = .ok (.single state index) := by
  have hlayer : Scope.layer ⟨names, layouts⟩ ⟨.plain, layout, line + 1⟩ =
      .ok ⟨index, .plain⟩ := by
    simp only [Scope.layer_eq, h]
  have hlayers : Scope.layers ⟨names, layouts⟩ [⟨.plain, layout, line + 1⟩] =
      .ok [⟨index, .plain⟩] :=
    mapM_eq_ok_iff.mpr (.cons hlayer .nil)
  simp only [Scope.state_eq, usingDecl, List.foldlM_cons, List.foldlM_nil,
    Scope.addEntry_layers, hlayers]
  rfl

theorem State.admits_single {extent : Extent} {index : Nat} (h : index < extent.layouts)
    (name : String) : extent.admitsState (.single name index) := by
  simp [Extent.admitsState, Extent.admitsLayer, Swipe.all, State.layers, State.single,
    State.blank, State.metaKeys, h]

/-- Behind a file that compiles, a fresh state whose only entry names a layout of the file for
a tap compiles too, and it has just the plain layer of that layout. The words of the modifiers
are the exception: a layout may be declared by one, but a list that names it is refused. -/
theorem usable_unless_modifier {text state layout : String} {keyboard : Keyboard}
    (hk : Keyboard.ofSource text = .ok keyboard) (hl : layout ∈ keyboard.layoutNames)
    (hs : IsName state) (hr : state ≠ externalName) (hf : state ∉ keyboard.stateNames) :
    ∃ index, keyboard.layoutIndex? layout = some index ∧
      Keyboard.ofSource (text ++ "\n" ++ usingText state layout) =
        if layout = "shift" ∨ layout = "ctrl" then
          .error (.parse (text.toList.count '\n' + 3) (.expected (.symbol ':') .lineEnd))
        else
          .ok (keyboard.addState (.single state index)) := by
  obtain ⟨items, hitems, hof⟩ := bind_eq_ok_iff.mp hk
  have hbuilt := Keyboard.ofItems_ok hof
  obtain ⟨index, hindex⟩ : ∃ index, keyboard.layoutIndex? layout = some index := by
    cases hfound : keyboard.layoutIndex? layout with
    | none => exact absurd hl (findIdx?_name_eq_none_iff.mp hfound)
    | some index => exact ⟨index, rfl⟩
  have hname := hbuilt.isName_of_mem_layoutNames (declarations_found hitems) hl
  refine ⟨index, hindex, ?_⟩
  unfold Keyboard.ofSource
  rw [Keyboard.withoutMark_append]
  cases hmodifier : Modifier.ofWord? layout with
  | some modifier =>
    have hword : layout = "shift" ∨ layout = "ctrl" := by
      by_contra hother
      rw [(ofWord?_eq_none_iff layout).mpr (not_or.mp hother)] at hmodifier
      cases hmodifier
    rw [if_pos hword, declarations_using_modifier hitems hs hname hmodifier, count_withoutMark]
    rfl
  | none =>
    have hword := not_or.mpr ((ofWord?_eq_none_iff layout).mp hmodifier)
    have hlt : index < keyboard.layouts.length := by
      obtain ⟨found, hfound, _⟩ := getElem?_of_findIdx?_name hindex
      exact (List.getElem?_eq_some_iff.mp hfound).1
    have hstate := Scope.state_using hindex (keyboard.stateNames ++ [state])
      ((Keyboard.withoutMark text).toList.count '\n' + 2) state
    rw [if_neg hword, declarations_using hitems hs hname hmodifier]
    exact Keyboard.ofItems_addState hof hr hf hstate rfl (State.admits_single hlt state)

theorem deadKey_uses_base :
    "base" ∈ deadKeyKeyboard.layoutNames ∧ IsName "probe" ∧ "probe" ≠ externalName ∧
      "probe" ∉ deadKeyKeyboard.stateNames ∧
      Keyboard.ofSource (deadKeySource ++ "\n" ++ usingText "probe" "base") =
        .ok (deadKeyKeyboard.addState (.single "probe" 0)) := by
  have hl : "base" ∈ deadKeyKeyboard.layoutNames := by decide
  have hs : IsName "probe" := by decide
  have hr : "probe" ≠ externalName := by decide
  have hf : "probe" ∉ deadKeyKeyboard.stateNames := by decide
  obtain ⟨index, hindex, hused⟩ := usable_unless_modifier ofSource_deadKeySource hl hs hr hf
  have hzero : index = 0 := by
    rw [show deadKeyKeyboard.layoutIndex? "base" = some 0 by decide] at hindex
    exact (Option.some.inj hindex).symm
  rw [hzero, if_neg (by decide)] at hused
  exact ⟨hl, hs, hr, hf, hused⟩

/-- A file whose only layout goes by the word of a modifier. -/
def shiftNamedSource : String :=
  "size 1 1\nlayout shift \x7b\na\n\x7d\nstate main \x7b\n\x7d\n"

/-- Not every layout can be used: this one can be declared, and no list can name it plainly. -/
theorem shift_unusable :
    ∃ keyboard, Keyboard.ofSource shiftNamedSource = .ok keyboard ∧
      "shift" ∈ keyboard.layoutNames ∧ IsName "probe" ∧ "probe" ≠ externalName ∧
      "probe" ∉ keyboard.stateNames ∧
      ∀ second,
        Keyboard.ofSource (shiftNamedSource ++ "\n" ++ usingText "probe" "shift") ≠ .ok second := by
  have hsome : (Keyboard.ofSource shiftNamedSource).toOption.any fun keyboard =>
      "shift" ∈ keyboard.layoutNames ∧ "probe" ∉ keyboard.stateNames := by decide +kernel
  obtain ⟨keyboard, hk, hnames⟩ := (Option.any_eq_true _ _).mp hsome
  have hnone : (Keyboard.ofSource (shiftNamedSource ++ "\n" ++
      usingText "probe" "shift")).toOption = none := by decide +kernel
  obtain ⟨hl, hf⟩ := of_decide_eq_true hnames
  refine ⟨keyboard, eq_ok_of_toOption hk, hl, by decide, by decide, hf, ?_⟩
  intro second hsecond
  rw [hsecond] at hnone
  cases hnone

end KeyGrid
