import KeyGrid.Proofs.StrictAccess

/-!
# Layers by priority

Of a list of layers the first one with a key counts. Lists that are put one behind the other
are asked one after the other, and a layer can be left out behind one that has a key wherever
it has. A layer lets through what stands behind it where its layout has no key and, under
ctrl, where the key has no control character.
-/

namespace KeyGrid

/-! ### Keys under ctrl -/

theorem TextKey.letter?_eq_some_iff {key : TextKey} {letter : Char} :
    key.letter? = some letter ↔ letter.isAlpha ∧ key.label = String.singleton letter := by
  constructor
  · intro h
    obtain ⟨hlist, hletter⟩ := letter?_eq_some h
    refine ⟨hletter, String.toList_injective ?_⟩
    simp [hlist]
  · intro h
    simp [letter?, h.1, h.2]

theorem TextKey.letter?_eq_none_iff {key : TextKey} :
    key.letter? = none ↔ ∀ letter : Char, letter.isAlpha → key.label ≠ String.singleton letter := by
  simp only [Option.eq_none_iff_forall_ne_some, ne_eq, letter?_eq_some_iff, not_and]

theorem Key.under_ctrl_of_letter {text : TextKey} {letter : Char} (hletter : letter.isAlpha)
    (hlabel : text.label = String.singleton letter) :
    (Key.text text).under .ctrl =
      some (.text ⟨String.ofList ['^', letter.toUpper],
        String.singleton (TextKey.control letter)⟩) := by
  have hfound := TextKey.letter?_eq_some_iff.mpr ⟨hletter, hlabel⟩
  simp [under, TextKey.under, hfound]

/-! ### Layers that have a key -/

/-- Both layers show the same layout, and the first has a key wherever the other has one. -/
def Layer.Covers (front back : Layer) : Prop :=
  front.layout = back.layout ∧
    (front.modifier = .plain ∨ front.modifier = .shift ∨ front.modifier = back.modifier)

namespace Keyboard

variable {keyboard : Keyboard} {row col : Nat}

theorem layerKey?_of_get? {index : Nat} {layout : Layout} {key : Key}
    (hl : keyboard.layouts[index]? = some layout) (hk : layout.get? row col = some key)
    (modifier : Modifier) :
    keyboard.layerKey? ⟨index, modifier⟩ row col = key.under modifier := by
  simp [layerKey?, hl, hk]

theorem layerKey?_of_covers {front back : Layer} (hc : front.Covers back)
    (hnone : keyboard.layerKey? front row col = none) :
    keyboard.layerKey? back row col = none := by
  obtain ⟨hlayout, hmodifier⟩ := hc
  simp only [layerKey?, bind, Option.bind_eq_none_iff, hlayout] at hnone ⊢
  intro layout hl key hk
  have hunder := hnone layout hl key hk
  -- in the clear and under shift every key exists, so the layout has none here
  rcases hmodifier with hplain | hshift | hsame
  · simp [hplain, Key.under_plain] at hunder
  · have hsome := key.isSome_under_shift
    rw [← hshift, hunder] at hsome
    cases hsome
  · rw [← hsame]
    exact hunder

/-! ### Lists of layers -/

theorem resolve_cons (keyboard : Keyboard) (layer : Layer) (others : List Layer) (row col : Nat) :
    keyboard.resolve (layer :: others) row col =
      (keyboard.layerKey? layer row col).or (keyboard.resolve others row col) := by
  rw [← List.singleton_append, resolve_append]
  simp [resolve]

theorem resolve_append_of_some {front : List Layer} {key : Key}
    (h : keyboard.resolve front row col = some key) (back : List Layer) :
    keyboard.resolve (front ++ back) row col = some key := by
  rw [resolve_append, h, Option.some_or]

theorem resolve_append_of_none {front : List Layer}
    (h : keyboard.resolve front row col = none) (back : List Layer) :
    keyboard.resolve (front ++ back) row col = keyboard.resolve back row col := by
  rw [resolve_append, h, Option.none_or]

/-- A layer that is covered by an earlier one of the list is never the first with a key. -/
theorem resolve_without {front : List Layer} {layer earlier : Layer} (hm : earlier ∈ front)
    (hc : earlier.Covers layer) (back : List Layer) :
    keyboard.resolve (front ++ layer :: back) row col =
      keyboard.resolve (front ++ back) row col := by
  cases hfront : keyboard.resolve front row col with
  | some key => rw [resolve_append_of_some hfront, resolve_append_of_some hfront]
  | none =>
    have hearlier : keyboard.layerKey? earlier row col = none :=
      List.findSome?_eq_none_iff.mp hfront earlier hm
    have hlayer := layerKey?_of_covers hc hearlier
    rw [resolve_append_of_none hfront, resolve_append_of_none hfront, resolve_cons, hlayer,
      Option.none_or]

end Keyboard

/-- Layers add up by priority. A list with another one behind it has the key of the first
list, and where that has none the key of the second. A layer can be left out behind one of the
same layout that is unmodified, shifted or modified like it. Where the layers in front have no
key, a layer under ctrl lets through exactly the text keys whose label is not a single letter;
a letter becomes a control character, and every other key counts as it is. -/
theorem layers_by_priority (keyboard : Keyboard) (row col : Nat) :
    (∀ front back, keyboard.resolve (front ++ back) row col =
      match keyboard.resolve front row col with
      | some key => some key
      | none => keyboard.resolve back row col) ∧
    (∀ front back key, keyboard.resolve front row col = some key →
      keyboard.resolve (front ++ back) row col = some key) ∧
    (∀ front layer back modifier, ⟨layer.layout, modifier⟩ ∈ front →
      modifier = .plain ∨ modifier = .shift ∨ modifier = layer.modifier →
      keyboard.resolve (front ++ layer :: back) row col =
        keyboard.resolve (front ++ back) row col) ∧
    ∀ index layout key, keyboard.layouts[index]? = some layout →
      layout.get? row col = some key →
      (keyboard.layerKey? ⟨index, .ctrl⟩ row col = none ↔
        ∃ text, key = .text text ∧
          ∀ letter : Char, letter.isAlpha → text.label ≠ String.singleton letter) ∧
      ∀ front back, keyboard.resolve front row col = none →
        (∀ text, key = .text text →
          (∀ letter : Char, letter.isAlpha → text.label ≠ String.singleton letter) →
          keyboard.resolve (front ++ ⟨index, .ctrl⟩ :: back) row col =
            keyboard.resolve back row col) ∧
        (∀ text letter, key = .text text → letter.isAlpha →
          text.label = String.singleton letter →
          keyboard.resolve (front ++ ⟨index, .ctrl⟩ :: back) row col =
            some (.text ⟨String.ofList ['^', letter.toUpper],
              String.singleton (TextKey.control letter)⟩)) ∧
        ((∀ text, key ≠ .text text) →
          keyboard.resolve (front ++ ⟨index, .ctrl⟩ :: back) row col = some key) := by
  refine ⟨?_, ?_, ?_, ?_⟩
  · intro front back
    rw [Keyboard.resolve_append]
    cases keyboard.resolve front row col <;> rfl
  · intro front back key hkey
    exact Keyboard.resolve_append_of_some hkey back
  · intro front layer back modifier hmem hmodifier
    have hcovers : Layer.Covers ⟨layer.layout, modifier⟩ layer := ⟨rfl, hmodifier⟩
    exact Keyboard.resolve_without hmem hcovers back
  · intro index layout key hlayout hkey
    have hctrl := Keyboard.layerKey?_of_get? hlayout hkey .ctrl
    have hnone : key.under .ctrl = none ↔ ∃ text, key = .text text ∧
        ∀ letter : Char, letter.isAlpha → text.label ≠ String.singleton letter := by
      simp only [Key.under_ctrl_eq_none_iff, TextKey.letter?_eq_none_iff]
    refine ⟨by rw [hctrl, hnone], ?_⟩
    intro front back hfront
    rw [Keyboard.resolve_append_of_none hfront, Keyboard.resolve_cons, hctrl]
    refine ⟨?_, ?_, ?_⟩
    · intro text htext hlabel
      rw [hnone.mpr ⟨text, htext, hlabel⟩, Option.none_or]
    · intro text letter htext hletter hlabel
      rw [htext, Key.under_ctrl_of_letter hletter hlabel, Option.some_or]
    · intro hother
      cases key with
      | text text => exact absurd rfl (hother text)
      | device action => rfl
      | direct change => rfl
      | placeholder slot => rfl

/-- A letter, a digit and a device key, with a second layout behind them. -/
def stackedKeyboard : Keyboard where
  grid := ⟨1, 3⟩
  layouts :=
    [⟨"front", 1, 3, #[some (.ofText "q"), some (.ofText "1"), some (.device .tab)], by decide⟩,
      ⟨"back", 1, 3, #[some (.ofText "x"), some (.ofText "y"), some (.ofText "z")], by decide⟩]
  states := [State.blank "main"]
  main := 0

theorem stacked_by_priority :
    stackedKeyboard.resolve ([⟨0, .ctrl⟩] ++ [⟨1, .plain⟩]) 0 1 = some (.ofText "y") ∧
      stackedKeyboard.resolve ([] ++ ⟨0, .ctrl⟩ :: [⟨1, .plain⟩]) 0 0 =
        some (.text ⟨"^Q", "\x11"⟩) ∧
      stackedKeyboard.resolve ([] ++ ⟨0, .ctrl⟩ :: [⟨1, .plain⟩]) 0 2 = some (.device .tab) ∧
      ∀ row col, stackedKeyboard.resolve ([⟨0, .shift⟩] ++ ⟨0, .ctrl⟩ :: [⟨1, .plain⟩]) row col =
        stackedKeyboard.resolve [⟨0, .shift⟩, ⟨1, .plain⟩] row col := by
  have hletter := (layers_by_priority stackedKeyboard 0 0).2.2.2 0 _ (.ofText "q") rfl
    (by decide +kernel)
  have hdevice := (layers_by_priority stackedKeyboard 0 2).2.2.2 0 _ (.device .tab) rfl
    (by decide +kernel)
  refine ⟨?_, ?_, ?_, ?_⟩
  · exact ((layers_by_priority stackedKeyboard 0 1).1 _ _).trans (by decide +kernel)
  · exact ((hletter.2 [] [⟨1, .plain⟩] rfl).2.1 _ 'q' rfl rfl rfl).trans (by decide +kernel)
  · exact (hdevice.2 [] [⟨1, .plain⟩] rfl).2.2 (by simp)
  · intro row col
    exact (layers_by_priority stackedKeyboard row col).2.2.1 [⟨0, .shift⟩] ⟨0, .ctrl⟩ _ .shift
      (by simp) (Or.inr (Or.inl rfl))

end KeyGrid
