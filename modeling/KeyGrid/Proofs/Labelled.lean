import KeyGrid.Proofs.Appended
import KeyGrid.Proofs.Rounded
import KeyGrid.Proofs.SlotWords

/-!
# Labels that are numbers

The digits that label the key of a slot are rounded to a magnitude, and the label is the shortest
text of that magnitude. Up to 2^53 nothing is lost on the way: a number is its own magnitude, and
no number that ends in a zero is another one with the same magnitude. So the label is the digits
as they are written, without the zeros in front of them.
-/

namespace KeyGrid

open Source

/-! ### Zeros in front -/

namespace Decimal

/-- A run of digits without the zeros in front; nothing but zeros leaves one of them. -/
def withoutZeros : List Char → List Char
  | [] => ['0']
  | c :: digits => if c = '0' then withoutZeros digits else c :: digits

theorem digitChar_of_isDigit {c : Char} (h : c.isDigit) :
    c.toNat - '0'.toNat < 10 ∧ Nat.digitChar (c.toNat - '0'.toNat) = c := by
  have hrange : '0'.toNat ≤ c.toNat ∧ c.toNat ≤ '9'.toNat := by
    simp only [Char.isDigit, Bool.and_eq_true, decide_eq_true_eq] at h
    exact ⟨UInt32.le_iff_toNat_le.mp h.1, UInt32.le_iff_toNat_le.mp h.2⟩
  have hall : ∀ n < 10, Nat.digitChar n = Char.ofNat (n + '0'.toNat) := by decide
  have hzero : '0'.toNat = 48 := rfl
  have hnine : '9'.toNat = 57 := rfl
  have hlt : c.toNat - '0'.toNat < 10 := by omega
  refine ⟨hlt, ?_⟩
  rw [hall _ hlt, Nat.sub_add_cancel hrange.1, Char.ofNat_toNat]

theorem toDigits_ofDigitChars {digits : List Char} (h : ∀ c ∈ digits, c.isDigit) {n : Nat}
    (hn : 0 < n) : Nat.toDigits 10 (Nat.ofDigitChars 10 digits n) = Nat.toDigits 10 n ++ digits := by
  induction digits generalizing n with
  | nil => rw [Nat.ofDigitChars_nil, List.append_nil]
  | cons c digits ih =>
    rw [List.forall_mem_cons] at h
    obtain ⟨hlt, hchar⟩ := digitChar_of_isDigit h.1
    rw [Nat.ofDigitChars_cons, ih h.2 (by omega),
      ← Nat.toDigits_append_toDigits (by decide) hn hlt, Nat.toDigits_of_lt_base hlt, hchar,
      List.append_assoc]
    rfl

theorem toDigits_value {digits : List Char} (h : ∀ c ∈ digits, c.isDigit) :
    Nat.toDigits 10 (value digits) = withoutZeros digits := by
  unfold value
  induction digits with
  | nil => rfl
  | cons c digits ih =>
    rw [List.forall_mem_cons] at h
    obtain ⟨hlt, hchar⟩ := digitChar_of_isDigit h.1
    rw [Nat.ofDigitChars_cons, Nat.mul_zero, Nat.zero_add, withoutZeros]
    by_cases hc : c = '0'
    · rw [if_pos hc, hc]
      exact ih h.2
    · have hpos : 0 < c.toNat - '0'.toNat := by
        refine Nat.pos_of_ne_zero fun hzero => hc ?_
        rw [← hchar, hzero]
        rfl
      rw [if_neg hc, toDigits_ofDigitChars h.2 hpos, Nat.toDigits_of_lt_base hlt, hchar]
      rfl

theorem toString_value {digits : String} (h : isDigits digits.toList) :
    toString (value digits.toList) = String.ofList (withoutZeros digits.toList) := by
  rw [Nat.toString_eq_ofList_toDigits, toDigits_value fun _ hc => isDigit_of_mem h hc]

end Decimal

/-! ### The text of a magnitude -/

namespace Magnitude

theorem nearest_of_hasBits {n : Nat} (h : HasBits 53 n) (hlt : n < Nat.pow 2 exponentLimit) :
    nearest n = finite n := by
  have hclosest := closest_rounded n
  rw [hclosest.eq_of_hasBits h] at hclosest
  exact (roundsTo_iff.mp (.finite hclosest hlt)).symm

theorem hasBits_of_le {n : Nat} (h : n ≤ 2 ^ 53) : HasBits 53 n := by
  have hbits := HasBits.of_le (by decide) h 0
  rw [Nat.pow_zero, Nat.mul_one] at hbits
  exact hbits

theorem nearest_of_le {n : Nat} (h : n ≤ 2 ^ 53) : nearest n = finite n := by
  refine nearest_of_hasBits (hasBits_of_le h) ?_
  have hpow : ∀ low high, low < high → Nat.pow 2 low < Nat.pow 2 high :=
    fun _ _ hl => Nat.pow_lt_pow_right (by decide) hl
  exact Nat.lt_of_le_of_lt h (hpow 53 exponentLimit (by decide))

/-- Only the number behind 2^53 is rounded to another one among them. -/
theorem eq_of_nearest {n m : Nat} (hn : n ≤ 2 ^ 53) (h : nearest m = finite n) :
    m = n ∨ n = 2 ^ 53 ∧ m = 2 ^ 53 + 1 := by
  have hrounds : RoundsTo m (finite n) := roundsTo_iff.mpr h.symm
  cases hrounds with
  | finite hclosest hlimit =>
    by_cases hm : m ≤ 2 ^ 53
    · exact Or.inl (hclosest.eq_of_hasBits (hasBits_of_le hm)).symm
    · have hlow := hclosest.le_of_le (hasBits_of_le (Nat.le_refl _)) (Nat.le_of_not_le hm)
      -- behind 2^53 only the even numbers have 53 bits
      have heven : HasBits 53 ((2 ^ 52 + 1) * 2 ^ 1) := HasBits.of_le (by decide) (by decide) 1
      have hhigh := hclosest.le_of_le heven (n := m)
      omega

theorem onGrid?_eq {n grid found : Nat} (hn : n ≤ 2 ^ 53) (hg : 10 ∣ grid)
    (h : onGrid? n grid = some found) : found = n := by
  have hkept : ∀ m, 10 ∣ m → nearest m = finite n → m = n := by
    intro m hm hnearest
    rcases eq_of_nearest hn hnearest with rfl | ⟨_, rfl⟩
    · rfl
    · omega
  have hbelow : 10 ∣ n / grid * grid := Dvd.dvd.mul_left hg _
  have habove : 10 ∣ n / grid * grid + grid := Nat.dvd_add hbelow hg
  simp only [onGrid?, decide_eq_true_eq] at h
  split at h
  · rename_i hboth
    cases h
    exact hkept _ hbelow hboth.1
  · split at h
    · rename_i honly
      cases h
      exact hkept _ habove honly
    · cases h

/-- No shorter number is read back as one of the numbers up to 2^53. -/
theorem shortest_eq {n : Nat} (hn : n ≤ 2 ^ 53) (places : Nat) : shortest n places = n := by
  induction places with
  | zero => rfl
  | succ places ih =>
    rw [shortest, ih]
    cases hfound : onGrid? n (Nat.pow 10 (places + 1)) with
    | none => rfl
    | some found => exact onGrid?_eq hn (Dvd.intro_left _ rfl) hfound

theorem text_nearest {n : Nat} (hn : n ≤ 2 ^ 53) : (nearest n).text = toString n := by
  rw [nearest_of_le hn, text, shortest_eq hn]

end Magnitude

/-! ### States that go on -/

namespace Source

/-- The state being read, from its brace on. -/
def Position.draft? : Position → Option StateDraft
  | .stateBrace draft | .stateHeadEnd draft | .entries draft | .afterEntry draft
  | .layers draft _ | .layerColon draft _ _ _ | .layerName draft _ _ _ | .metaLabel draft _ _
  | .metaKind draft _ | .metaTarget draft _ _ => some draft
  | _ => none

/-- The second draft is the first one with further entries. -/
structure StateDraft.Extends (draft more : StateDraft) : Prop where
  name : more.name = draft.name
  line : more.line = draft.line
  entries : draft.entries <:+ more.entries

namespace StateDraft.Extends

theorem refl (draft : StateDraft) : draft.Extends draft := ⟨rfl, rfl, List.suffix_rfl⟩

theorem add (draft : StateDraft) (entry : Entry) : draft.Extends (draft.add entry) :=
  ⟨rfl, rfl, List.suffix_cons ..⟩

theorem trans {draft more last : StateDraft} (h : draft.Extends more) (hl : more.Extends last) :
    draft.Extends last :=
  ⟨hl.name.trans h.name, hl.line.trans h.line, h.entries.trans hl.entries⟩

end StateDraft.Extends

/-- A reader goes on with a state or has come to its end. -/
inductive StateDraft.Continues (draft : StateDraft) (items : List Item) : Reader → Prop
  | reading {position : Position} {more : StateDraft} (hp : position.draft? = some more)
      (h : draft.Extends more) : Continues draft items ⟨items, position⟩
  | complete {more : StateDraft} (h : draft.Extends more) :
      Continues draft items ⟨.state more.decl :: items, .afterItem⟩

namespace Reader

variable {items : List Item} {position : Position} {draft : StateDraft} {next : Reader}
  {line : Nat} {token : Token}

theorem readSymbol_continues {c : Char} {behind : Position} (hb : behind.draft? = some draft)
    (h : readSymbol ⟨items, position⟩ c behind line token = .ok next) :
    draft.Continues items next := by
  unfold readSymbol at h
  split at h
  · cases h
    exact .reading hb (.refl draft)
  · cases h

theorem readLineEnd_continues {behind : Position} (hb : behind.draft? = some draft)
    (h : readLineEnd ⟨items, position⟩ behind line token = .ok next) :
    draft.Continues items next := by
  unfold readLineEnd at h
  split at h
  · cases h
    exact .reading hb (.refl draft)
  · cases h

theorem readWord_continues {what : Expected} {behind : String → Position}
    (hb : ∀ word, ∃ more, (behind word).draft? = some more ∧ draft.Extends more)
    (h : readWord ⟨items, position⟩ what behind line token = .ok next) :
    draft.Continues items next := by
  unfold readWord at h
  split at h
  · rename_i word _
    cases h
    obtain ⟨more, hmore, he⟩ := hb word
    exact .reading hmore he
  · cases h

theorem readEntries_continues {more : StateDraft} (he : draft.Extends more)
    (h : readEntries ⟨items, position⟩ more line token = .ok next) :
    draft.Continues items next := by
  unfold readEntries at h
  split at h
  · cases h
    exact .reading rfl he
  · split at h
    · cases h
      exact .reading rfl he
    · split at h
      · cases h
        exact .reading rfl he
      · cases h
  · split at h
    · cases h
      exact .complete he
    · cases h

theorem readAfterEntry_continues {more : StateDraft} (he : draft.Extends more)
    (h : readAfterEntry ⟨items, position⟩ more line token = .ok next) :
    draft.Continues items next := by
  unfold readAfterEntry at h
  split at h
  · exact readEntries_continues he h
  · cases h

theorem readLayers_continues {list : ListDraft}
    (h : readLayers ⟨items, position⟩ draft list line token = .ok next) :
    draft.Continues items next := by
  unfold readLayers at h
  split at h
  · split at h
    · cases h
      exact .reading rfl (.refl draft)
    · cases h
      exact .reading rfl (.refl draft)
  · exact readAfterEntry_continues (.add draft list.entry) h

theorem readMetaKind_continues {slot : SlotDraft}
    (h : readMetaKind ⟨items, position⟩ draft slot line token = .ok next) :
    draft.Continues items next := by
  unfold readMetaKind at h
  split at h
  · cases h
    exact .reading rfl (.refl draft)
  · cases h
    exact .reading rfl (.refl draft)
  · cases h
    exact .reading rfl (.refl draft)
  · cases h
  · cases h

/-- No token takes an entry out of the state that is being read. -/
theorem step_continues (hp : position.draft? = some draft)
    (h : step ⟨items, position⟩ line token = .ok next) : draft.Continues items next := by
  cases position with
  | stateBrace found =>
    cases hp
    exact readSymbol_continues rfl h
  | stateHeadEnd found =>
    cases hp
    unfold step at h
    dsimp only at h
    split at h
    · exact readEntries_continues (.refl draft) h
    · exact readLineEnd_continues rfl h
  | entries found =>
    cases hp
    exact readEntries_continues (.refl draft) h
  | afterEntry found =>
    cases hp
    exact readAfterEntry_continues (.refl draft) h
  | layers found list =>
    cases hp
    exact readLayers_continues h
  | layerColon found list modifier head =>
    cases hp
    exact readSymbol_continues rfl h
  | layerName found list modifier head =>
    cases hp
    exact readWord_continues (fun _ => ⟨draft, rfl, .refl draft⟩) h
  | metaLabel found head digits =>
    cases hp
    unfold step at h
    dsimp only at h
    split at h
    · cases h
      exact .reading rfl (.refl draft)
    · cases h
  | metaKind found slot =>
    cases hp
    exact readMetaKind_continues h
  | metaTarget found slot latched =>
    cases hp
    exact readWord_continues (fun target => ⟨_, rfl, .add draft (slot.entry target latched)⟩) h
  | top | afterItem | sizeRows | sizeCols | layoutName | layoutBrace | layoutHeadEnd | row
  | afterRows | stateName => cases hp

/-- When reading ends between declarations, the state is one of them. -/
theorem run_continues {lexemes : List (Located Lexeme)} (hp : position.draft? = some draft)
    (h : lexemes.foldlM read ⟨items, position⟩ = .ok next) (hn : next.position.draft? = none) :
    ∃ more behind, draft.Extends more ∧ next.items = behind ++ .state more.decl :: items := by
  induction lexemes generalizing position draft with
  | nil =>
    cases h
    rw [hp] at hn
    cases hn
  | cons lexeme lexemes ih =>
    obtain ⟨middle, hmiddle, hrest⟩ := bind_eq_ok_iff.mp h
    cases step_continues hp hmiddle with
    | reading hp' he =>
      obtain ⟨more, behind, hmore, hitems⟩ := ih hp' hrest
      exact ⟨more, behind, he.trans hmore, hitems⟩
    | @complete more he =>
      obtain ⟨behind, hbehind⟩ := run_grows hrest
      exact ⟨more, behind, he, hbehind.symm⟩

end Reader

/-! ### An entry labelled by digits -/

section

variable {digits : String} (hd : Decimal.isDigits digits.toList)
include hd

theorem labelOf_digits :
    labelOf (.ofLexeme .directive (.word digits)) =
      .ok (Magnitude.nearest (Decimal.value digits.toList)).text := by
  rw [ofLexeme_digits hd]
  rfl

theorem leads_labelled (items : List Item) (draft : StateDraft) (line : Nat) :
    Leads line ⟨items, .entries draft⟩
      [.word "S0", .word digits, .word "state", .word "main"] line
      ⟨items, .afterEntry (draft.add (.slot "0"
        (Magnitude.nearest (Decimal.value digits.toList)).text (.state "main") line))⟩ := by
  have htoken := ofLexeme_digits hd
  -- the label is whatever text the magnitude has, and is not computed here
  generalize Magnitude.nearest (Decimal.value digits.toList) = magnitude at htoken ⊢
  have hslot : Reader.step ⟨items, .entries draft⟩ line (.word "S0") =
      .ok ⟨items, .metaLabel draft line "0"⟩ := rfl
  have hlabel : Reader.step ⟨items, .metaLabel draft line "0"⟩ line (.number magnitude) =
      .ok ⟨items, .metaKind draft ⟨line, "0", magnitude.text⟩⟩ := rfl
  exact .word (by decide) hslot (.cons htoken hlabel
    (.word (by decide) rfl (.word (by decide) rfl .nil)))

/-- The entry is one of those of the state that it is read in. -/
theorem declarations_labelled {text : String} {all items : List Item} {draft : StateDraft}
    {front back : List (Located Lexeme)} {line : Nat} (h : declarations text = .ok all)
    (hl : (scan text.toList).lexemes = front ++
      (locate line [.word "S0", .word digits, .word "state", .word "main"] ++ back))
    (hf : readLexemes front = .ok ⟨items, .entries draft⟩) :
    ∃ place : EntryPlace, place.front = items.reverse ∧ place.name = draft.name ∧
      place.line = draft.line ∧ place.before = draft.entries.reverse ∧
      all = place.items (.slot "0" (Magnitude.nearest (Decimal.value digits.toList)).text
        (.state "main") line) := by
  obtain ⟨reader, hreader, h⟩ := bind_eq_ok_iff.mp h
  obtain ⟨last, hlast, h⟩ := bind_eq_ok_iff.mp h
  cases h
  obtain ⟨hposition, rfl⟩ := Reader.step_fileEnd_ok hlast
  have hnone : reader.position.draft? = none := by
    rcases hposition with hposition | hposition <;> rw [hposition] <;> rfl
  rw [readLexemes, hl] at hreader
  obtain ⟨middle, hmiddle, hreader⟩ := foldlM_append_eq_ok_iff.mp hreader
  rw [show middle = ⟨items, .entries draft⟩ from Except.ok.inj (hmiddle.symm.trans hf)] at hreader
  obtain ⟨behind, hbehind, hreader⟩ := foldlM_append_eq_ok_iff.mp hreader
  rw [(leads_labelled hd items draft line).run, Except.ok.injEq] at hbehind
  rw [← hbehind] at hreader
  obtain ⟨more, others, hmore, hitems⟩ := Reader.run_continues rfl hreader hnone
  obtain ⟨after, hafter⟩ := hmore.entries
  refine ⟨⟨items.reverse, draft.name, draft.line, draft.entries.reverse, after.reverse,
    others.reverse⟩, rfl, rfl, rfl, rfl, ?_⟩
  have hdecl : more.decl = ⟨draft.name, draft.line, draft.entries.reverse ++
      .slot "0" (Magnitude.nearest (Decimal.value digits.toList)).text (.state "main") line ::
        after.reverse⟩ := by
    simp only [StateDraft.decl, hmore.name, hmore.line, ← hafter, StateDraft.add,
      List.reverse_append, List.reverse_cons, List.append_assoc, List.cons_append,
      List.nil_append]
  show reader.items.reverse = _
  rw [hitems, hdecl, List.reverse_append, List.reverse_cons, List.append_assoc]
  rfl

end

end Source

/-- In an accepted keyboard the name of the main state leads to it. -/
theorem Keyboard.BuiltFrom.target_main {keyboard : Keyboard} {items : List Item}
    (h : keyboard.BuiltFrom items) {target : Target}
    (ht : TargetDenotes keyboard Keyboard.mainName target) : target = .state keyboard.main := by
  rcases Keyboard.target_eq_of_denotes ht with ⟨he, _⟩ | ⟨index, state, _, rfl, hstate, hname⟩
  · exact absurd he (by decide)
  · have hindex : keyboard.stateIndex? Keyboard.mainName = some index :=
      (findIdx?_name_eq_some_iff h.distinctStates).mpr ⟨state, hstate, hname⟩
    rw [h.assembled.stateIndex?_main] at hindex
    rw [Option.some.inj hindex]

/-- Digits that label the key of a slot keep their value up to 2^53, however many zeros are in
front of them. They are a number, and the number is called and the key is labelled by its
decimal digits, which are those written without the zeros in front; so two labels are the same
exactly if the values are. In a file that is accepted, an entry with this label stands in its
state, and if no later entry of the state is about the slot, the key in the slot has it. -/
theorem numeric_labels_exact {digits : String} (hd : Decimal.isDigits digits.toList)
    (hv : Decimal.value digits.toList ≤ 2 ^ 53) :
    toString (Decimal.value digits.toList) =
        String.ofList (Decimal.withoutZeros digits.toList) ∧
    (∃ magnitude, Token.ofLexeme .directive (.word digits) = .number magnitude ∧
      Magnitude.RoundsTo (Decimal.value digits.toList) magnitude ∧
      (Token.number magnitude).describe =
        "number " ++ toString (Decimal.value digits.toList)) ∧
    labelOf (.ofLexeme .directive (.word digits)) =
        .ok (toString (Decimal.value digits.toList)) ∧
    (∀ other : String, Decimal.isDigits other.toList → Decimal.value other.toList ≤ 2 ^ 53 →
      (labelOf (.ofLexeme .directive (.word digits)) =
          labelOf (.ofLexeme .directive (.word other)) ↔
        Decimal.value digits.toList = Decimal.value other.toList)) ∧
    ∀ (text : String) (keyboard : Keyboard) (items : List Item) (draft : StateDraft)
      (front back : List (Located Lexeme)) (line : Nat),
      Keyboard.ofSource text = .ok keyboard →
      (scan (Keyboard.withoutMark text).toList).lexemes = front ++
        (locate line [.word "S0", .word digits, .word "state", .word "main"] ++ back) →
      readLexemes front = .ok ⟨items, .entries draft⟩ →
      ∃ (place : EntryPlace) (state : State),
        (place.front = items.reverse ∧ place.name = draft.name ∧ place.line = draft.line ∧
          place.before = draft.entries.reverse) ∧
        declarations (Keyboard.withoutMark text) = .ok (place.items
          (.slot "0" (toString (Decimal.value digits.toList)) (.state "main") line)) ∧
        place.state? keyboard = some state ∧
        ((∀ later ∈ place.after, later.change? 0 = none) →
          state.metaKey? 0 = some (.switch (toString (Decimal.value digits.toList))
            (.state keyboard.main) false)) := by
  have htext := Magnitude.text_nearest hv
  refine ⟨Decimal.toString_value hd, ⟨_, ofLexeme_digits hd, Magnitude.roundsTo_iff.mpr rfl, ?_⟩,
    ?_, ?_, ?_⟩
  · rw [Token.describe, htext]
    rfl
  · rw [labelOf_digits hd, htext]
  · intro other ho hw
    rw [labelOf_digits hd, labelOf_digits ho, htext, Magnitude.text_nearest hw,
      Except.ok.injEq]
    constructor
    · intro hsame
      rw [← Decimal.value_toString (Decimal.value digits.toList), hsame, Decimal.value_toString]
    · exact congrArg toString
  · intro text keyboard items draft front back line hk hl hf
    obtain ⟨all, hall, hof⟩ := bind_eq_ok_iff.mp hk
    obtain ⟨place, hfront, hname, hline, hbefore, rfl⟩ := declarations_labelled hd hall hl hf
    rw [htext] at hall hof
    obtain ⟨state, hstate, hbuilt⟩ := EntryPlace.state?_of_ofItems hof
    refine ⟨place, state, ⟨hfront, hname, hline, hbefore⟩, hall, hstate, ?_⟩
    intro hlast
    have hzero : Decimal.isDigits "0".toList := by decide
    have hentry := change?_slot hzero
      (toString (Decimal.value digits.toList)) (.state "main") line 0
    rw [if_pos (by decide)] at hentry
    have hrel := hbuilt.lists_and_slots.2 0
    rw [place.change?_of_last _ hlast, hentry, Option.some_or] at hrel
    generalize state.metaKey? 0 = found at hrel
    cases hrel with
    | some hdenotes =>
      cases hdenotes with
      | state ht => rw [(Keyboard.ofItems_ok hof).target_main ht]

/-- A file whose only slot is labelled by 2^53, with zeros in front. -/
def paddedLabelSource : String :=
  "size 1 1\nlayout base \x7b\nS0\n\x7d\nstate main \x7b\n  layout base\n" ++
    "  S0 0009007199254740992 state main\n\x7d\n"

theorem padded_label_exact :
    ∃ keyboard state, Keyboard.ofSource paddedLabelSource = .ok keyboard ∧
      keyboard.states[0]? = some state ∧
      state.metaKey? 0 = some (.switch "9007199254740992" (.state keyboard.main) false) ∧
      labelOf (.ofLexeme .directive (.word "0009007199254740992")) =
        labelOf (.ofLexeme .directive (.word "09007199254740992")) ∧
      labelOf (.ofLexeme .directive (.word "0009007199254740992")) ≠
        labelOf (.ofLexeme .directive (.word "9007199254740991")) := by
  have hd : Decimal.isDigits "0009007199254740992".toList := by decide
  have hvalue : Decimal.value "0009007199254740992".toList = 9007199254740992 := by
    decide +kernel
  have hv : Decimal.value "0009007199254740992".toList ≤ 2 ^ 53 := by
    rw [hvalue]
    decide
  obtain ⟨_, _, _, halike, hfile⟩ := numeric_labels_exact hd hv
  have hsome : (Keyboard.ofSource paddedLabelSource).toOption.isSome := by decide +kernel
  obtain ⟨keyboard, hkeyboard⟩ := Option.isSome_iff_exists.mp hsome
  have hk := eq_ok_of_toOption hkeyboard
  have hlexemes : (scan (Keyboard.withoutMark paddedLabelSource).toList).lexemes =
      (scan (Keyboard.withoutMark paddedLabelSource).toList).lexemes.take 19 ++
        (locate 7 [.word "S0", .word "0009007199254740992", .word "state", .word "main"] ++
          [⟨7, .lineEnd⟩, ⟨8, .symbol '\x7d'⟩, ⟨8, .lineEnd⟩]) := by decide +kernel
  have hfront : readLexemes ((scan (Keyboard.withoutMark paddedLabelSource).toList).lexemes.take 19)
      = .ok ⟨[.layout ⟨"base", 2, [[⟨.code "S0", 3⟩]]⟩, .size ⟨⟨1, 1⟩, 1⟩],
        .entries ⟨"main", 5, [.layers .tap [⟨.plain, "base", 6⟩] 6]⟩⟩ := by decide +kernel
  have hdeclared : declarations (Keyboard.withoutMark paddedLabelSource) =
      .ok [.size ⟨⟨1, 1⟩, 1⟩, .layout ⟨"base", 2, [[⟨.code "S0", 3⟩]]⟩,
        .state ⟨"main", 5, [.layers .tap [⟨.plain, "base", 6⟩] 6,
          .slot "0" "9007199254740992" (.state "main") 7]⟩] := by decide +kernel
  obtain ⟨place, state, ⟨hitems, hname, hline, hbefore⟩, hall, hstate, hkey⟩ :=
    hfile _ _ _ _ _ _ _ hk hlexemes hfront
  have hafter : place.after = [] := by
    rw [hdeclared, Except.ok.injEq, EntryPlace.items, EntryPlace.decl, hitems, hbefore] at hall
    simp only [List.reverse_cons, List.reverse_nil, List.nil_append, List.cons_append,
      List.cons.injEq, Item.state.injEq, StateDecl.mk.injEq, true_and] at hall
    exact hall.1.2.2.2.symm
  have hfirst : keyboard.states[0]? = some state := by
    rw [← hstate, EntryPlace.state?, hitems]
    rfl
  rw [hafter, hvalue] at hkey
  refine ⟨keyboard, state, hk, hfirst, hkey (fun _ h => absurd h List.not_mem_nil), ?_, ?_⟩
  · exact (halike _ (by decide) (by decide +kernel)).mpr (by decide +kernel)
  · rw [Ne, halike _ (by decide) (by decide +kernel)]
    decide +kernel

end KeyGrid
