import KeyGrid.Proofs.Overlay
import KeyGrid.Proofs.StrictAccess

/-!
# What is shown and what is typed

In a layout file a text key shows what it types, and the modifiers keep to this: shift
makes the key anew from its text, and ctrl marks the letter of a control character with a
caret. So a key that is touched types what it showed, and that is what some layout has
written at the position, as it stands or altered by a modifier.
-/

namespace KeyGrid

open Source

/-- The label says what is typed: it is the text, or a caret and the letter of a control
character. -/
inductive Tells : String → String → Prop
  | text (text : String) : Tells text text
  | control {letter : Char} (hl : 'A'.toNat ≤ letter.toNat) (hr : letter.toNat ≤ 'Z'.toNat) :
      Tells (String.ofList ['^', letter]) (String.singleton (Char.ofNat (letter.toNat - 64)))

/-- The texts that a key written with a text can come to type. -/
inductive Yields (written : String) : String → Prop
  | plain : Yields written written
  | shift : Yields written (Text.uppercase written)
  | ctrl {letter : Char} (hw : written.toList = [letter]) (ha : letter.isAlpha) :
      Yields written (String.singleton (Char.ofNat (letter.toUpper.toNat - 64)))

/-! ### Keys under a modifier -/

namespace TextKey

theorem control_eq {letter : Char} (ha : letter.isAlpha) :
    control letter = Char.ofNat (letter.toUpper.toNat - 64) := by
  obtain ⟨hlow, _⟩ := toUpper_range ha
  have hcode : letter.toUpper.toNat - 'A'.toNat + 1 = letter.toUpper.toNat - 64 := by
    have hA : 'A'.toNat = 65 := rfl
    omega
  rw [control, hcode]

/-- A key that shows what it types goes on telling it under every modifier. -/
theorem tells_under {written : String} {key : TextKey} {modifier : Modifier}
    (h : (ofText written).under modifier = some key) :
    Tells key.label key.text ∧ Yields written key.text := by
  cases modifier with
  | plain =>
    cases h
    exact ⟨.text written, .plain⟩
  | shift =>
    cases h
    exact ⟨.text _, .shift⟩
  | ctrl =>
    obtain ⟨letter, hletter, hkey⟩ := Option.map_eq_some_iff.mp h
    obtain ⟨hw, ha⟩ := letter?_eq_some hletter
    obtain ⟨hlow, hhigh⟩ := toUpper_range ha
    subst hkey
    rw [control_eq ha]
    exact ⟨.control hlow hhigh, .ctrl hw ha⟩

end TextKey

/-! ### Keys of a file -/

theorem Source.codeMeaning?_ne_text (code : String) (key : TextKey) :
    codeMeaning? code ≠ some (.text key) := by
  intro h
  unfold codeMeaning? at h
  split at h
  · cases h
  · split at h
    · cases h
    · obtain ⟨_, _, hslot⟩ := Option.map_eq_some_iff.mp h
      cases hslot

theorem Source.LayoutDecl.meaning?_text {decl : LayoutDecl} {row col : Nat} {key : TextKey}
    (h : decl.meaning? row col = some (.text key)) : key = .ofText key.text := by
  obtain ⟨_, _, ⟨cell, _⟩, _, hcell⟩ := exists_cell h
  cases cell with
  | absent => cases hcell
  | text typed =>
    cases hcell
    rfl
  | code name => exact absurd hcell (codeMeaning?_ne_text name key)

/-- A text key that layers show tells what it types, and a layout has the text it comes
from at that place. -/
theorem Keyboard.BuiltFrom.tells {keyboard : Keyboard} {items : List Item}
    (h : keyboard.BuiltFrom items) {layers : List Layer} {row col : Nat} {key : TextKey}
    (hk : keyboard.resolve layers row col = some (.text key)) :
    Tells key.label key.text ∧ ∃ layout ∈ keyboard.layouts, ∃ original,
      layout.get? row col = some (.text original) ∧ Yields original.text key.text := by
  obtain ⟨layout, hl, decl, _, shown, modifier, hg, hmeaning, hu⟩ := h.written hk
  cases shown with
  | text original =>
    obtain ⟨shifted, hshifted, hkey⟩ := Option.map_eq_some_iff.mp hu
    cases hkey
    rw [LayoutDecl.meaning?_text hmeaning] at hshifted
    obtain ⟨htells, hyields⟩ := TextKey.tells_under hshifted
    exact ⟨htells, layout, hl, original, hg, hyields⟩
  | device action => cases hu
  | direct change => cases hu
  | placeholder slot => cases hu

/-! ### Touches -/

theorem MetaKey.text_notMem_signals (change : MetaKey) (text : String) :
    .text text ∉ change.signals := by
  unfold signals
  split <;> simp

namespace Engine

/-- Only text keys type, each its own text. -/
theorem text_of_activate {engine : Engine} {key : Key} {text : String}
    (h : .text text ∈ (engine.activate key).2) :
    ∃ typed, key = .text typed ∧ typed.text = text := by
  cases key with
  | text typed =>
    refine ⟨typed, rfl, ?_⟩
    rcases List.mem_cons.mp h with h | h
    · cases h
      rfl
    · split at h <;> simp at h
  | device action => simp [activate] at h
  | direct change =>
    simp only [activate] at h
    split at h
    · exact absurd h (change.text_notMem_signals text)
    · simp at h
  | placeholder slot =>
    cases hc : engine.metaKey? slot with
    | none => simp [activate, hc] at h
    | some change =>
      rw [activate_of_metaKey? hc] at h
      rcases List.mem_append.mp h with h | h
      · exact absurd h (change.text_notMem_signals text)
      · simp at h

theorem key?_of_press_text {engine : Engine} {row col : Nat} {swipe : Swipe} {text : String}
    (h : .text text ∈ (engine.press row col swipe).2) :
    ∃ key, engine.key? row col swipe = some (.text key) ∧ key.text = text := by
  rcases engine.press_cases row col swipe with ⟨_, hp⟩ | ⟨key, _, hk, hp⟩
  · rw [hp] at h
    cases h
  · rw [hp] at h
    obtain ⟨typed, rfl, htext⟩ := text_of_activate h
    exact ⟨typed, hk, htext⟩

theorem label_of_text {engine : Engine} {row col : Nat} {swipe : Swipe} {key : TextKey}
    (h : engine.key? row col swipe = some (.text key)) :
    engine.label row col swipe = key.label := by
  simp only [label, h, Option.map_some, Option.getD_some, labelOf, Key.label?]

theorem tells_of_press {engine : Engine} (compiled : engine.keyboard.Compiled) {row col : Nat}
    {swipe : Swipe} {text : String} (h : .text text ∈ (engine.press row col swipe).2) :
    Tells (engine.label row col swipe) text ∧ ∃ layout ∈ engine.keyboard.layouts, ∃ key,
      layout.get? row col = some (.text key) ∧ Yields key.text text := by
  obtain ⟨key, hk, rfl⟩ := key?_of_press_text h
  obtain ⟨items, hbuilt⟩ := compiled.builtFrom
  rw [label_of_text hk]
  exact hbuilt.tells (key?_eq_some hk).2

/-- Of all operations only touches type. -/
theorem press_of_perform {engine : Engine} {operation : Operation} {text : String}
    (h : .text text ∈ (engine.perform operation).2) :
    ∃ row col swipe, operation = .press row col swipe ∧
      .text text ∈ (engine.press row col swipe).2 := by
  rcases engine.perform_cases operation with
    hp | ⟨row, col, swipe, _, rfl, _, _, _⟩ | ⟨_, _, hp⟩ | ⟨_, _, hp⟩
  · rw [hp] at h
    cases h
  · exact ⟨row, col, swipe, rfl, h⟩
  · rw [hp] at h
    simp [enter] at h
  · rw [hp] at h
    simp at h

/-- The events of one operation of a run are those of the engine it meets. -/
theorem run_events (engine : Engine) (operations : List Operation) (n : Nat) :
    (engine.run operations).2[n]? =
      operations[n]?.map fun operation =>
        ((engine.run (operations.take n)).1.perform operation).2 := by
  induction operations generalizing engine n with
  | nil => rfl
  | cons operation others ih =>
    rw [run_cons]
    cases n with
    | zero => rfl
    | succ n =>
      rw [List.getElem?_cons_succ, List.getElem?_cons_succ, List.take_succ_cons, run_cons]
      exact ih (engine.perform operation).1 n

end Engine

/-- In a run, every text comes from a touch of a key whose label told it beforehand. -/
theorem Reachable.run_tells {engine : Engine} (h : Reachable Keyboard.Compiled engine)
    {operations : List Operation}
    (ho : ∀ operation ∈ operations, operation.Brings Keyboard.Compiled) {n : Nat}
    {events : List Event} (he : (engine.run operations).2[n]? = some events) {text : String}
    (ht : .text text ∈ events) :
    ∃ row col swipe, operations[n]? = some (.press row col swipe) ∧
      Tells ((engine.run (operations.take n)).1.label row col swipe) text := by
  rw [Engine.run_events, Option.map_eq_some_iff] at he
  obtain ⟨operation, hn, rfl⟩ := he
  obtain ⟨row, col, swipe, rfl, hpress⟩ := Engine.press_of_perform ht
  have hmet := h.run (operations.take n) fun other hm => ho other (List.mem_of_mem_take hm)
  exact ⟨row, col, swipe, hn, (Engine.tells_of_press hmet.keyboard hpress).1⟩

/-- What is seen is what is typed. A text that a touch types was told by the label on the
key it touched, and some layout has a key at that place whose text this is, as it stands,
in upper case or as a control character. -/
theorem press_types_label {engine : Engine} (h : Reachable Keyboard.Compiled engine)
    {row col : Nat} {swipe : Swipe} {text : String}
    (ht : .text text ∈ (engine.press row col swipe).2) :
    Tells (engine.label row col swipe) text ∧ ∃ layout ∈ engine.keyboard.layouts, ∃ key,
      layout.get? row col = some (.text key) ∧ Yields key.text text :=
  Engine.tells_of_press h.keyboard ht

/-- A letter that ctrl leaves and a sharp s that only shift has, behind a dead key. -/
def modifiedSource : String :=
  "size 1 3\nlayout base \x7b\na \"ß\" S0\n\x7d\nstate main \x7b\n  layout base\n" ++
    "  S0 ^ dead ctrl:base shift:base\n\x7d\n"

def modifiedKeyboard : Keyboard where
  grid := ⟨1, 3⟩
  layouts :=
    [⟨"base", 1, 3, #[some (.ofText "a"), some (.ofText "ß"), some (.placeholder 0)], by decide⟩]
  states :=
    [{ State.blank "main" with
        primary := [⟨0, .plain⟩]
        slots := #v[some (.dead "^" [⟨0, .ctrl⟩, ⟨0, .shift⟩]), none, none, none] }]
  main := 0

theorem modifiedKeyboard_compiled : modifiedKeyboard.Compiled :=
  ⟨modifiedSource, eq_ok_of_toOption (by decide +kernel)⟩

theorem modified_types_label :
    ∃ engine : Engine, Reachable Keyboard.Compiled engine ∧
      engine.label 0 0 .tap = "^A" ∧ Tells (engine.label 0 0 .tap) "\x01" ∧
      engine.label 0 1 .tap = "SS" ∧ Tells (engine.label 0 1 .tap) "SS" := by
  have hr := (Reachable.start modifiedKeyboard_compiled).perform (.press 0 2 .tap) trivial
  have hctrl := press_types_label hr
    (show .text "\x01" ∈ (Engine.press _ 0 0 .tap).2 by decide +kernel)
  have hshift := press_types_label hr
    (show .text "SS" ∈ (Engine.press _ 0 1 .tap).2 by decide +kernel)
  exact ⟨_, hr, by decide +kernel, hctrl.1, by decide +kernel, hshift.1⟩

end KeyGrid
