import KeyGrid.Proofs.Redraw

/-!
# Keyboards that mirror each other

Two keyboards may keep what is declared in different places: positions of layouts and states
mean nothing by themselves. As long as states of one name show the same keys, and their slots
lead to states of one name, the two cannot be told apart by touching and looking.
-/

namespace KeyGrid

open Source

namespace Keyboard

/-- The key that layers show at a position of the grid. -/
def shown? (keyboard : Keyboard) (layers : List Layer) (row col : Nat) : Option Key :=
  if row < keyboard.rows ∧ col < keyboard.cols then keyboard.resolve layers row col else none

/-- Layers of two keyboards that show the same keys. -/
def LayersAlike (first second : Keyboard) (layers others : List Layer) : Prop :=
  ∀ row col, first.shown? layers row col = second.shown? others row col

/-- Positions of states that have one name. -/
def StatesAlike (first second : Keyboard) (index other : Nat) : Prop :=
  ∃ state image, first.states[index]? = some state ∧ second.states[other]? = some image ∧
    state.name = image.name

inductive MetaKeysAlike (first second : Keyboard) : MetaKey → MetaKey → Prop
  | dead (label : String) {layers others : List Layer}
      (h : first.LayersAlike second layers others) :
      MetaKeysAlike first second (.dead label layers) (.dead label others)
  | external (label : String) (latched : Bool) :
      MetaKeysAlike first second (.switch label .external latched)
        (.switch label .external latched)
  | state (label : String) (latched : Bool) {index other : Nat}
      (h : first.StatesAlike second index other) :
      MetaKeysAlike first second (.switch label (.state index) latched)
        (.switch label (.state other) latched)

/-- Whatever can be come across in the first keyboard is the same in the second one, which
may have more. -/
structure Mirrors (first second : Keyboard) : Prop where
  main : first.StatesAlike second first.main second.main
  names : ∀ name ∈ first.stateNames, name ∈ second.stateNames
  lists : ∀ state ∈ first.states, ∀ image ∈ second.states, state.name = image.name →
    ∀ swipe, first.LayersAlike second (state.layers swipe) (image.layers swipe)
  slots : ∀ state ∈ first.states, ∀ image ∈ second.states, state.name = image.name →
    ∀ slot, Option.Rel (first.MetaKeysAlike second) (state.metaKey? slot) (image.metaKey? slot)
  direct : ∀ layers row col change,
    first.resolve layers row col = some (.direct change) → change = externalKey

structure ModesAlike (first second : Keyboard) (mode image : Mode) : Prop where
  current : first.StatesAlike second mode.current image.current
  overlay : Option.Rel (first.LayersAlike second) mode.overlay image.overlay
  armed : mode.armed = image.armed

theorem stateIndex?_eq_some {keyboard : Keyboard} {name : String} {index : Nat}
    (h : keyboard.stateIndex? name = some index) :
    ∃ state, keyboard.states[index]? = some state ∧ state.name = name :=
  getElem?_of_findIdx?_name h

theorem stateIndex?_eq_none_iff {keyboard : Keyboard} {name : String} :
    keyboard.stateIndex? name = none ↔ name ∉ keyboard.stateNames :=
  findIdx?_name_eq_none_iff

namespace MetaKeysAlike

variable {first second : Keyboard} {change image : MetaKey}
  (h : first.MetaKeysAlike second change image)
include h

theorem label : change.label = image.label := by
  cases h <;> rfl

theorem isExternal : change.isExternal = image.isExternal := by
  cases h <;> rfl

theorem signals : change.signals = image.signals := by
  unfold MetaKey.signals
  rw [h.isExternal]

end MetaKeysAlike

/-! ### Modes -/

namespace ModesAlike

variable {first second : Keyboard} {mode image : Mode}

theorem entering {index other : Nat} (h : first.StatesAlike second index other) :
    first.ModesAlike second (.entering index) (.entering other) := ⟨h, .none, rfl⟩

variable (h : first.ModesAlike second mode image)
include h

theorem settled : first.ModesAlike second mode.settled image.settled := entering h.current

theorem withArmed (armed : Option Nat) :
    first.ModesAlike second (mode.withArmed armed) (image.withArmed armed) :=
  ⟨h.current, h.overlay, rfl⟩

theorem withOverlay {overlay other : Option (List Layer)}
    (ho : Option.Rel (first.LayersAlike second) overlay other) :
    first.ModesAlike second (mode.withOverlay overlay) (image.withOverlay other) :=
  ⟨h.current, ho, h.armed⟩

theorem isSome_overlay : mode.overlay.isSome = image.overlay.isSome := by
  obtain ⟨current, overlay, armed⟩ := mode
  obtain ⟨other, lying, others⟩ := image
  cases h.overlay <;> rfl

theorem isPending : mode.isPending = image.isPending := by
  unfold Mode.isPending
  rw [h.isSome_overlay, h.armed]

theorem stateName : (Engine.mk first mode).stateName = (Engine.mk second image).stateName := by
  obtain ⟨state, other, hstate, hother, hname⟩ := h.current
  simp only [Engine.stateName, Engine.state?, hstate, hother, Option.map_some, hname]

/-- The second press of a slot. -/
theorem complete {change other : MetaKey} (hc : first.MetaKeysAlike second change other) :
    first.ModesAlike second (Engine.complete mode change) (Engine.complete image other) := by
  cases hc with
  | dead label _ => exact h.withOverlay .none
  | external label latched => exact h
  | state label latched hs => exact entering hs

end ModesAlike

namespace Mirrors

variable {first second : Keyboard} (h : first.Mirrors second)
include h

theorem layers {index other : Nat} (hs : first.StatesAlike second index other) (swipe : Swipe) :
    first.LayersAlike second ((first.states[index]?.map (·.layers swipe)).getD [])
      ((second.states[other]?.map (·.layers swipe)).getD []) := by
  obtain ⟨state, image, hstate, himage, hname⟩ := hs
  rw [hstate, himage]
  exact h.lists state (List.mem_of_getElem? hstate) image (List.mem_of_getElem? himage) hname
    swipe

/-- The states of a given name are alike. -/
theorem stateIndex? {name : String}
    (hn : name ∈ second.stateNames → name ∈ first.stateNames) :
    Option.Rel (first.StatesAlike second) (first.stateIndex? name) (second.stateIndex? name) := by
  cases hfirst : first.stateIndex? name with
  | none =>
    have hnot := stateIndex?_eq_none_iff.mp hfirst
    rw [stateIndex?_eq_none_iff.mpr fun hin => hnot (hn hin)]
    exact .none
  | some index =>
    obtain ⟨state, hstate, hname⟩ := stateIndex?_eq_some hfirst
    cases hsecond : second.stateIndex? name with
    | none =>
      have hin : name ∈ first.stateNames :=
        List.mem_map.mpr ⟨state, List.mem_of_getElem? hstate, hname⟩
      exact absurd (h.names name hin) (stateIndex?_eq_none_iff.mp hsecond)
    | some other =>
      obtain ⟨image, himage, hother⟩ := stateIndex?_eq_some hsecond
      exact .some ⟨state, image, hstate, himage, hname.trans hother.symm⟩

/-- The first press of a slot. -/
theorem begin (mode image : Mode) {change other : MetaKey}
    (hc : first.MetaKeysAlike second change other) {before after : Mode}
    (hb : first.ModesAlike second before after) :
    first.ModesAlike second ((Engine.mk first mode).begin before change)
      ((Engine.mk second image).begin after other) := by
  cases hc with
  | dead label hlayers => exact hb.withOverlay (.some hlayers)
  | external label latched => exact hb
  | state label latched hs =>
    cases latched with
    | true => exact hb.withOverlay (.some (h.layers hs .tap))
    | false => exact .entering hs

variable {mode image : Mode} (hm : first.ModesAlike second mode image)
include hm

/-! ### What is seen -/

theorem metaKey? (slot : Nat) :
    Option.Rel (first.MetaKeysAlike second) ((Engine.mk first mode).metaKey? slot)
      ((Engine.mk second image).metaKey? slot) := by
  obtain ⟨state, other, hstate, hother, hname⟩ := hm.current
  simp only [Engine.metaKey?, Engine.state?, hstate, hother, Option.bind_some]
  exact h.slots state (List.mem_of_getElem? hstate) other (List.mem_of_getElem? hother) hname slot

theorem source (swipe : Swipe) :
    first.LayersAlike second ((Engine.mk first mode).source swipe).1
        ((Engine.mk second image).source swipe).1 ∧
      ((Engine.mk first mode).source swipe).2 = ((Engine.mk second image).source swipe).2 := by
  obtain ⟨current, overlay, armed⟩ := mode
  obtain ⟨other, lying, others⟩ := image
  cases hm.overlay with
  | none => exact ⟨h.layers hm.current swipe, rfl⟩
  | some hlayers => exact ⟨hlayers, rfl⟩

theorem key? (row col : Nat) (swipe : Swipe) :
    (Engine.mk first mode).key? row col swipe = (Engine.mk second image).key? row col swipe :=
  (h.source hm swipe).1 row col

theorem picture (row col : Nat) (swipe : Swipe) :
    (Engine.mk first mode).picture row col swipe =
      (Engine.mk second image).picture row col swipe := by
  have hlabel : ∀ key, (Engine.mk first mode).labelOf key =
      (Engine.mk second image).labelOf key := by
    intro key
    cases key with
    | placeholder slot =>
      have hslot := h.metaKey? hm slot
      simp only [Engine.labelOf]
      generalize (Engine.mk first mode).metaKey? slot = found at hslot ⊢
      generalize (Engine.mk second image).metaKey? slot = other at hslot ⊢
      cases hslot with
      | none => rfl
      | some hc => exact hc.label
    | text key => rfl
    | device action => rfl
    | direct change => rfl
  have harmed : ∀ key, (Engine.mk first mode).isArmed key =
      (Engine.mk second image).isArmed key := by
    intro key
    cases key with
    | placeholder slot => simp only [Engine.isArmed, hm.armed]
    | text key => rfl
    | device action => rfl
    | direct change => rfl
  have hkey := h.key? hm row col swipe
  have horigin := (h.source hm swipe).2
  simp only [Engine.picture, Engine.label, Engine.look, hkey, horigin, funext hlabel, harmed]

/-! ### What is done -/

theorem toggle (slot : Nat) {change other : MetaKey}
    (hc : first.MetaKeysAlike second change other) :
    first.ModesAlike second ((Engine.mk first mode).toggle slot change)
      ((Engine.mk second image).toggle slot other) := by
  have hpressed : first.ModesAlike second
      (if mode.armed = some slot then Engine.complete (mode.withArmed none) change
        else (Engine.mk first mode).begin (mode.withArmed (some slot)) change)
      (if image.armed = some slot then Engine.complete (image.withArmed none) other
        else (Engine.mk second image).begin (image.withArmed (some slot)) other) := by
    rw [hm.armed]
    split
    · exact (hm.withArmed none).complete hc
    · exact h.begin mode image hc (hm.withArmed (some slot))
  simp only [Engine.toggle, hc.isExternal]
  split
  · exact hpressed.withArmed none
  · exact hpressed

theorem activate {row col : Nat} {swipe : Swipe} {key : Key}
    (hk : (Engine.mk first mode).key? row col swipe = some key) :
    first.ModesAlike second ((Engine.mk first mode).activate key).1
        ((Engine.mk second image).activate key).1 ∧
      ((Engine.mk first mode).activate key).2 = ((Engine.mk second image).activate key).2 := by
  cases key with
  | text key =>
    refine ⟨hm.settled, ?_⟩
    simp only [Engine.activate, hm.isPending]
  | device action => exact ⟨hm, rfl⟩
  | direct change =>
    have hexternal := h.direct _ _ _ _ (Engine.key?_eq_some hk).2
    subst hexternal
    exact ⟨hm, rfl⟩
  | placeholder slot =>
    have hslot := h.metaKey? hm slot
    simp only [Engine.activate]
    generalize (Engine.mk first mode).metaKey? slot = found at hslot ⊢
    generalize (Engine.mk second image).metaKey? slot = other at hslot ⊢
    cases hslot with
    | none => exact ⟨hm, rfl⟩
    | some hc =>
      exact ⟨h.toggle hm slot hc, congrArg (· ++ [Event.redraw]) hc.signals⟩

/-- Nothing is put in for either keyboard, and nobody asks for a state of the second one
only. -/
theorem perform {operation : Operation} (hb : operation.Brings fun _ => False)
    (hn : ∀ name, operation = .setState name →
      name ∈ second.stateNames → name ∈ first.stateNames) :
    ∃ next other events, (Engine.mk first mode).perform operation = (⟨first, next⟩, events) ∧
      (Engine.mk second image).perform operation = (⟨second, other⟩, events) ∧
        first.ModesAlike second next other := by
  cases operation with
  | press row col swipe =>
    -- either both find the same key, or neither finds one
    have hkey := h.key? hm row col swipe
    rcases (Engine.mk first mode).press_cases row col swipe with ⟨hnone, hp⟩ | ⟨key, hs, hk, hp⟩
    · rcases (Engine.mk second image).press_cases row col swipe with
        ⟨_, hq⟩ | ⟨key, hs, hk, _⟩
      · exact ⟨mode, image, [], hp, hq, hm⟩
      · rw [← hkey] at hk
        rcases hnone with hlabel | hnone
        · exact absurd hlabel hs
        · rw [hnone] at hk
          cases hk
    · obtain ⟨hmodes, hevents⟩ := h.activate hm hk
      rw [hkey] at hk
      have hq := Engine.press_of_key? hs hk
      rw [← hevents] at hq
      exact ⟨_, _, _, hp, hq, hmodes⟩
  | setState name =>
    have hindex := h.stateIndex? (hn name rfl)
    simp only [Engine.perform, Engine.setState?]
    generalize first.stateIndex? name = index at hindex ⊢
    generalize second.stateIndex? name = other at hindex ⊢
    cases hindex with
    | none => exact ⟨mode, image, [], rfl, rfl, hm⟩
    | some hs => exact ⟨_, _, _, rfl, rfl, .entering hs⟩
  | reset => exact ⟨_, _, _, rfl, rfl, .entering h.main⟩
  | load keyboard => exact hb.elim

theorem run {operations : List Operation}
    (hb : ∀ operation ∈ operations, operation.Brings fun _ => False)
    (hn : ∀ name, .setState name ∈ operations →
      name ∈ second.stateNames → name ∈ first.stateNames) :
    ∃ next other events, (Engine.mk first mode).run operations = (⟨first, next⟩, events) ∧
      (Engine.mk second image).run operations = (⟨second, other⟩, events) ∧
        first.ModesAlike second next other := by
  induction operations generalizing mode image with
  | nil => exact ⟨mode, image, [], rfl, rfl, hm⟩
  | cons operation others ih =>
    obtain ⟨between, meanwhile, events, hp, hq, hbetween⟩ :=
      h.perform hm (hb operation (List.mem_cons_self ..)) fun name he =>
        hn name (he ▸ List.mem_cons_self ..)
    obtain ⟨next, other, more, hrun, hruns, hmodes⟩ :=
      ih hbetween (fun operation hmem => hb operation (List.mem_cons_of_mem _ hmem))
        fun name hmem => hn name (List.mem_cons_of_mem _ hmem)
    refine ⟨next, other, events :: more, ?_, ?_, hmodes⟩
    · rw [Engine.run_cons, hp, hrun]
    · rw [Engine.run_cons, hq, hruns]

end Mirrors
end Keyboard

/-- All that a host can ask of two engines without touching them is the same. -/
structure Engine.LooksLike (engine image : Engine) : Prop where
  stateName : engine.stateName = image.stateName
  overlay : engine.mode.overlay.isSome = image.mode.overlay.isSome
  armed : engine.mode.armed = image.mode.armed
  picture : ∀ row col swipe, engine.picture row col swipe = image.picture row col swipe

namespace Keyboard
namespace Mirrors

variable {first second : Keyboard} (h : first.Mirrors second)
include h

theorem looksLike {mode image : Mode} (hm : first.ModesAlike second mode image) :
    (Engine.mk first mode).LooksLike (Engine.mk second image) :=
  ⟨hm.stateName, hm.isSome_overlay, hm.armed, h.picture hm⟩

theorem run_start {operations : List Operation}
    (hb : ∀ operation ∈ operations, operation.Brings fun _ => False)
    (hn : ∀ name, .setState name ∈ operations →
      name ∈ second.stateNames → name ∈ first.stateNames) :
    ∃ mode image events, (Engine.start first).run operations = (⟨first, mode⟩, events) ∧
      (Engine.start second).run operations = (⟨second, image⟩, events) ∧
        (Engine.mk first mode).LooksLike (Engine.mk second image) := by
  obtain ⟨mode, image, events, hrun, hruns, hmodes⟩ := h.run (.entering h.main) hb hn
  exact ⟨mode, image, events, hrun, hruns, h.looksLike hmodes⟩

end Mirrors

/-! ### Keyboards of declarations -/

theorem Assembled.stateIndex?_main {keyboard : Keyboard} (h : keyboard.Assembled) :
    keyboard.stateIndex? mainName = some keyboard.main := by
  obtain ⟨grid, layouts, states, ha⟩ := h
  obtain ⟨_, _, hmain, _, hk⟩ := assemble_ok ha
  rw [hk]
  exact hmain

theorem target_eq_of_denotes {keyboard : Keyboard} {name : String} {target : Target}
    (h : TargetDenotes keyboard name target) :
    (name = externalName ∧ target = .external) ∨
      ∃ index state, name ≠ externalName ∧ target = .state index ∧
        keyboard.states[index]? = some state ∧ state.name = name := by
  cases h with
  | external => exact Or.inl ⟨rfl, rfl⟩
  | @state index state hstate hne => exact Or.inr ⟨index, state, hne, rfl, hstate, rfl⟩

/-- A name leads to states of this name, or out of either keyboard. -/
theorem targetsAlike {first second : Keyboard} {name : String} {target image : Target}
    (h : TargetDenotes first name target) (hi : TargetDenotes second name image) :
    (target = .external ∧ image = .external) ∨
      ∃ index other, target = .state index ∧ image = .state other ∧
        first.StatesAlike second index other := by
  cases h with
  | external =>
    rcases target_eq_of_denotes hi with ⟨_, rfl⟩ | ⟨_, _, hne, _⟩
    · exact Or.inl ⟨rfl, rfl⟩
    · exact absurd rfl hne
  | @state index state hstate hne =>
    rcases target_eq_of_denotes hi with ⟨he, _⟩ | ⟨other, found, _, rfl, hfound, hname⟩
    · exact absurd he hne
    · exact Or.inr ⟨index, other, rfl, rfl, state, found, hstate, hfound, hname.symm⟩

namespace BuiltFrom

variable {first second : Keyboard} {items others : List Item}
  (hf : first.BuiltFrom items) (hs : second.BuiltFrom others)
include hf hs

section

variable (hlayouts : ∀ decl ∈ Source.layouts items, decl ∈ Source.layouts others)
  (hgrid : first.layouts ≠ [] → first.grid = second.grid)
include hlayouts

/-- A name means the same wherever its layout is declared. -/
theorem meaning?_eq {ref : LayerRef} {layer : Layer} (hd : ref.Denotes first layer)
    (row col : Nat) : ref.meaning? items row col = ref.meaning? others row col := by
  obtain ⟨layout, hlayout, hname⟩ := hd.layout
  obtain ⟨decl, hdecl, hbuilt⟩ := exists_of_forall₂ hf.layouts (List.mem_of_getElem? hlayout)
  have hitems := hf.layoutNamed?_of_mem hdecl
  have hothers := hs.layoutNamed?_of_mem (hlayouts decl hdecl)
  rw [← hbuilt.name, hname] at hitems hothers
  simp only [LayerRef.meaning?, hitems, hothers]

theorem listMeaning?_eq {refs : List LayerRef} {layers : List Layer}
    (hd : List.Forall₂ (LayerRef.Denotes first) refs layers) (row col : Nat) :
    listMeaning? items refs row col = listMeaning? others refs row col := by
  induction hd with
  | nil => rfl
  | cons hfirst _ ih =>
    simp only [listMeaning?, List.findSome?_cons] at ih ⊢
    rw [meaning?_eq hf hs hlayouts hfirst, ih]

include hgrid

theorem layersAlike {refs : List LayerRef} {layers images : List Layer}
    (hd : List.Forall₂ (LayerRef.Denotes first) refs layers)
    (hi : List.Forall₂ (LayerRef.Denotes second) refs images) :
    first.LayersAlike second layers images := by
  intro row col
  have hresolve : first.resolve layers row col = second.resolve images row col := by
    rw [hf.resolve hd, hs.resolve hi, listMeaning?_eq hf hs hlayouts hd]
  cases hd with
  | nil =>
    cases hi
    simp only [shown?, resolve_nil, ite_self]
  | cons hfirst _ =>
    obtain ⟨layout, hlayout, _⟩ := hfirst.layout
    have hne : first.layouts ≠ [] := List.ne_nil_of_mem (List.mem_of_getElem? hlayout)
    have hrows : first.rows = second.rows := congrArg Grid.rows (hgrid hne)
    have hcols : first.cols = second.cols := congrArg Grid.cols (hgrid hne)
    unfold shown?
    rw [hrows, hcols, hresolve]

theorem metaKeysAlike {decl : String × MetaDecl} {change image : MetaKey}
    (hc : MetaDecl.Denotes first decl change) (hi : MetaDecl.Denotes second decl image) :
    first.MetaKeysAlike second change image := by
  cases hc with
  | dead hlayers =>
    cases hi with
    | dead himages => exact .dead _ (layersAlike hf hs hlayouts hgrid hlayers himages)
  | state htarget =>
    cases hi with
    | state himage =>
      rcases targetsAlike htarget himage with ⟨rfl, rfl⟩ | ⟨index, other, rfl, rfl, hstates⟩
      · exact .external _ false
      · exact .state _ false hstates
  | deadLatch htarget =>
    cases hi with
    | deadLatch himage =>
      rcases targetsAlike htarget himage with
        ⟨hexternal, _⟩ | ⟨index, other, hindex, hother, hstates⟩
      · cases hexternal
      · cases hindex
        cases hother
        exact .state _ true hstates

end

/-- States of one name have one declaration. -/
theorem sameDecl (hstates : ∀ decl ∈ Source.states items, decl ∈ Source.states others)
    {state image : State} (hstate : state ∈ first.states) (himage : image ∈ second.states)
    (hname : state.name = image.name) :
    ∃ decl, state.BuiltFrom first.stateNames first.layouts decl ∧
      image.BuiltFrom second.stateNames second.layouts decl := by
  obtain ⟨decl, hdecl, hbuilt⟩ := exists_of_forall₂ hf.states hstate
  obtain ⟨other, hother, hbuiltOther⟩ := exists_of_forall₂ hs.states himage
  have hdistinct := hs.distinctStates
  rw [hs.stateNames] at hdistinct
  have hnames : decl.name = other.name := by
    rw [← hbuilt.name, hname, hbuiltOther.name]
  rw [← List.inj_on_of_nodup_map hdistinct (hstates decl hdecl) hother hnames] at hbuiltOther
  exact ⟨decl, hbuilt, hbuiltOther⟩

/-- Positions do not matter: it is enough that the second keyboard declares whatever the first
one does, in the same grid. -/
theorem mirrors (hlayouts : ∀ decl ∈ Source.layouts items, decl ∈ Source.layouts others)
    (hstates : ∀ decl ∈ Source.states items, decl ∈ Source.states others)
    (hgrid : first.layouts ≠ [] → first.grid = second.grid) : first.Mirrors second := by
  refine ⟨?_, ?_, ?_, ?_, ?_⟩
  · obtain ⟨state, hstate, hname⟩ := stateIndex?_eq_some hf.assembled.stateIndex?_main
    obtain ⟨image, himage, hother⟩ := stateIndex?_eq_some hs.assembled.stateIndex?_main
    exact ⟨state, image, hstate, himage, hname.trans hother.symm⟩
  · intro name hname
    rw [hf.stateNames] at hname
    rw [hs.stateNames]
    obtain ⟨decl, hdecl, rfl⟩ := List.mem_map.mp hname
    exact List.mem_map.mpr ⟨decl, hstates decl hdecl, rfl⟩
  · intro state hstate image himage hname swipe
    obtain ⟨decl, hbuilt, hother⟩ := sameDecl hf hs hstates hstate himage hname
    exact layersAlike hf hs hlayouts hgrid (hbuilt.lists_and_slots.1 swipe)
      (hother.lists_and_slots.1 swipe)
  · intro state hstate image himage hname slot
    obtain ⟨decl, hbuilt, hother⟩ := sameDecl hf hs hstates hstate himage hname
    refine rel_of_common ?_ (hbuilt.lists_and_slots.2 slot) (hother.lists_and_slots.2 slot)
    intro _ _ _ hchange himages
    exact metaKeysAlike hf hs hlayouts hgrid hchange himages
  · intro layers row col change hkey
    exact hf.direct_eq hkey

end BuiltFrom
end Keyboard
end KeyGrid
