import KeyGrid.Proofs.Decided
import KeyGrid.Proofs.Labelled
import KeyGrid.Proofs.Sliced

/-!
# Where digits are keys

The body of a layout begins behind the line end of its head and goes up to the first closing
brace behind that, which belongs to it. A reader understands a lexeme as one of a row exactly
if it stands in the body of a layout, whatever stands in the rows and however many layouts
there are in front. So no row has a number in it, and the numbers of directives stay numbers.
-/

namespace KeyGrid.Source

/-! ### Bodies -/

/-- The lexemes that a layout begins with. -/
def layoutHead (name : String) : List Lexeme :=
  [.word "layout", .word name, .symbol '\x7b', .lineEnd]

/-- Behind complete declarations these lexemes have begun another one. -/
def Begun (front : List (Located Lexeme)) (words : List Lexeme) : Prop :=
  ∃ before begun items, front = before ++ begun ∧ readLexemes before = .ok ⟨items, .top⟩ ∧
    begun.map (·.item) = words

/-- The next lexeme is in the body of a layout: no closing brace has followed the head. -/
def InBody (front : List (Located Lexeme)) : Prop :=
  ∃ head body name, front = head ++ body ∧ Begun head (layoutHead name) ∧
    ∀ lexeme ∈ body, lexeme.item ≠ .symbol '\x7d'

variable {front : List (Located Lexeme)} {lexeme : Located Lexeme} {items : List Item}
  {reader next : Reader}

theorem Begun.of_top (h : readLexemes front = .ok ⟨items, .top⟩) : Begun front [] :=
  ⟨front, [], items, (List.append_nil front).symm, h, rfl⟩

theorem Begun.concat {words : List Lexeme} (h : Begun front words) (lexeme : Located Lexeme) :
    Begun (front ++ [lexeme]) (words ++ [lexeme.item]) := by
  obtain ⟨before, begun, items, rfl, hbefore, hwords⟩ := h
  refine ⟨before, begun ++ [lexeme], items, List.append_assoc .., hbefore, ?_⟩
  rw [List.map_append, hwords]
  rfl

theorem Begun.inBody {name : String} (h : Begun front (layoutHead name)) : InBody front :=
  ⟨front, [], name, (List.append_nil front).symm, h, fun _ hin => absurd hin List.not_mem_nil⟩

theorem InBody.concat (h : InBody front) (hne : lexeme.item ≠ .symbol '\x7d') :
    InBody (front ++ [lexeme]) := by
  obtain ⟨head, body, name, rfl, hhead, hbody⟩ := h
  refine ⟨head, body ++ [lexeme], name, List.append_assoc .., hhead, ?_⟩
  intro found hfound
  rcases List.mem_append.mp hfound with hfound | hfound
  · exact hbody found hfound
  · rw [List.mem_singleton.mp hfound]
    exact hne

/-- A body is left at its closing brace only, and entered at the end of a head only. -/
theorem InBody.of_concat (h : InBody (front ++ [lexeme])) :
    InBody front ∧ lexeme.item ≠ .symbol '\x7d' ∨ lexeme.item = .lineEnd := by
  obtain ⟨head, body, name, hsplit, hhead, hbody⟩ := h
  rcases List.eq_nil_or_concat body with rfl | ⟨rest, last, rfl⟩
  · rw [List.append_nil] at hsplit
    subst hsplit
    obtain ⟨before, begun, items, hfront, _, hwords⟩ := hhead
    right
    rcases List.eq_nil_or_concat begun with rfl | ⟨rest, last, rfl⟩
    · cases hwords
    · rw [List.concat_eq_append, ← List.append_assoc] at hfront
      obtain ⟨_, hlast⟩ := List.append_inj' hfront rfl
      cases hlast
      rw [List.concat_eq_append, List.map_append] at hwords
      have hitem := congrArg List.getLast? hwords
      simpa [layoutHead] using hitem
  · rw [List.concat_eq_append, ← List.append_assoc] at hsplit
    obtain ⟨hfront, hlast⟩ := List.append_inj' hsplit rfl
    cases hlast
    rw [List.concat_eq_append] at hbody
    refine Or.inl ⟨⟨head, rest, name, hfront, hhead, ?_⟩, ?_⟩
    · exact fun found hfound => hbody found (List.mem_append_left _ hfound)
    · exact hbody lexeme (List.mem_append_right _ (List.mem_singleton.mpr rfl))

/-! ### Single lexemes -/

theorem ofLexeme_eq_word {place : Place} {lexeme : Lexeme} {text : String}
    (h : Token.ofLexeme place lexeme = .word text) : lexeme = .word text := by
  cases lexeme with
  | word found =>
    simp only [Token.ofLexeme, Token.ofWord] at h
    split at h
    · cases h
    · cases h
      rfl
  | quoted found closed => cases h
  | symbol c => cases h
  | lineEnd => cases h

theorem ofLexeme_eq_symbol_iff (place : Place) (lexeme : Lexeme) (c : Char) :
    Token.ofLexeme place lexeme = .symbol c ↔ lexeme = .symbol c := by
  cases lexeme with
  | word text =>
    simp only [Token.ofLexeme, Token.ofWord]
    split <;> simp
  | quoted text closed => simp [Token.ofLexeme]
  | symbol found => simp [Token.ofLexeme]
  | lineEnd => simp [Token.ofLexeme]

theorem ofLexeme_endsLine_iff (place : Place) (lexeme : Lexeme) :
    (Token.ofLexeme place lexeme).endsLine ↔ lexeme = .lineEnd := by
  cases lexeme with
  | word text =>
    simp only [Token.ofLexeme, Token.ofWord]
    split <;> simp [Token.endsLine]
  | quoted text closed => simp [Token.ofLexeme, Token.endsLine]
  | symbol c => simp [Token.ofLexeme, Token.endsLine]
  | lineEnd => simp [Token.ofLexeme, Token.endsLine]

namespace Reader

theorem read_layoutName {grid : Grid} {head : Nat}
    (h : read ⟨items, .layoutName grid head⟩ lexeme = .ok next) :
    ∃ name, lexeme.item = .word name ∧
      next = ⟨items, .layoutBrace (.start grid name head)⟩ := by
  unfold read step readWord at h
  dsimp only at h
  split at h
  · rename_i name hword
    cases h
    exact ⟨name, ofLexeme_eq_word (wordOf_ok hword), rfl⟩
  · cases h

theorem read_layoutBrace {draft : LayoutDraft}
    (h : read ⟨items, .layoutBrace draft⟩ lexeme = .ok next) :
    lexeme.item = .symbol '\x7b' ∧ next = ⟨items, .layoutHeadEnd draft⟩ := by
  unfold read step readSymbol at h
  dsimp only at h
  split at h
  · rename_i htoken
    cases h
    exact ⟨(ofLexeme_eq_symbol_iff ..).mp htoken, rfl⟩
  · cases h

theorem read_layoutHeadEnd {draft : LayoutDraft}
    (h : read ⟨items, .layoutHeadEnd draft⟩ lexeme = .ok next) :
    lexeme.item = .lineEnd ∧ next = ⟨items, .row draft⟩ := by
  have hfile := ofLexeme_ne_fileEnd .directive lexeme.item
  unfold read step readLineEnd at h
  simp only [Position.place, if_neg hfile, ofLexeme_endsLine_iff] at h
  split at h
  · rename_i hitem
    cases h
    exact ⟨hitem, rfl⟩
  · cases h

/-- Only a closing brace leads out of the rows of a layout. -/
theorem read_row (hp : reader.position.place = .row) (h : reader.read lexeme = .ok next) :
    lexeme.item = .symbol '\x7d' ∧ next.position = .afterItem ∨
      lexeme.item ≠ .symbol '\x7d' ∧ next.position.place = .row := by
  obtain ⟨items, position⟩ := reader
  unfold read at h
  rw [hp] at h
  have hbrace := ofLexeme_eq_symbol_iff .row lexeme.item '\x7d'
  cases position with
  | row draft =>
    unfold step readRow at h
    dsimp only at h
    split at h
    · rename_i htoken
      rw [(ofLexeme_eq_lineEnd_iff ..).mp htoken]
      cases h
      refine Or.inr ⟨by simp, ?_⟩
      simp only [goTo]
      split <;> rfl
    · cases h
    · split at h
      · rename_i htoken
        cases h
        exact Or.inl ⟨hbrace.mp htoken, rfl⟩
      · rename_i htoken
        split at h
        · cases h
        · split at h
          · cases h
            exact Or.inr ⟨mt hbrace.mpr htoken, rfl⟩
          · cases h
  | afterRows draft =>
    unfold step readAfterRows at h
    dsimp only at h
    split at h
    · rename_i htoken
      rw [(ofLexeme_eq_lineEnd_iff ..).mp htoken]
      cases h
      exact Or.inr ⟨by simp, rfl⟩
    · split at h
      · rename_i htoken
        cases h
        exact Or.inl ⟨hbrace.mp htoken, rfl⟩
      · cases h
  | _ => cases hp

theorem read_layout (hitem : lexeme.item = .word "layout")
    (h : read ⟨items, .top⟩ lexeme = .ok next) :
    ∃ grid, next = ⟨items, .layoutName grid lexeme.line⟩ := by
  unfold read at h
  rw [hitem] at h
  change readTop ⟨items, .top⟩ lexeme.line (.word "layout") = _ at h
  simp only [readTop] at h
  split at h
  · cases h
  · rename_i grid _
    cases h
    exact ⟨grid, rfl⟩

/-! ### Runs -/

/-- The lexemes that a layout begins with lead into its rows. -/
theorem run_layoutHead {head : List (Located Lexeme)} {name : String}
    (hhead : Begun head (layoutHead name)) (h : readLexemes head = .ok reader) :
    reader.position.place = .row := by
  obtain ⟨before, begun, items, rfl, hbefore, hwords⟩ := hhead
  obtain ⟨middle, hmiddle, hrun⟩ := foldlM_append_eq_ok_iff.mp h
  rw [show before.foldlM read start = _ from hbefore] at hmiddle
  cases hmiddle
  obtain ⟨first, _, rfl, hfirst, hwords⟩ := List.map_eq_cons_iff.mp hwords
  obtain ⟨second, _, rfl, _, hwords⟩ := List.map_eq_cons_iff.mp hwords
  obtain ⟨third, _, rfl, _, hwords⟩ := List.map_eq_cons_iff.mp hwords
  obtain ⟨fourth, _, rfl, _, hwords⟩ := List.map_eq_cons_iff.mp hwords
  rw [List.map_eq_nil_iff.mp hwords] at hrun
  obtain ⟨_, h₁, hrun⟩ := bind_eq_ok_iff.mp hrun
  obtain ⟨grid, rfl⟩ := read_layout hfirst h₁
  obtain ⟨_, h₂, hrun⟩ := bind_eq_ok_iff.mp hrun
  obtain ⟨_, _, rfl⟩ := read_layoutName h₂
  obtain ⟨_, h₃, hrun⟩ := bind_eq_ok_iff.mp hrun
  obtain ⟨_, rfl⟩ := read_layoutBrace h₃
  obtain ⟨_, h₄, hrun⟩ := bind_eq_ok_iff.mp hrun
  obtain ⟨_, rfl⟩ := read_layoutHeadEnd h₄
  cases hrun
  rfl

/-- Whatever is no closing brace leaves a reader in the rows. -/
theorem run_row {body : List (Located Lexeme)} (hp : reader.position.place = .row)
    (hbody : ∀ lexeme ∈ body, lexeme.item ≠ .symbol '\x7d')
    (h : body.foldlM read reader = .ok next) : next.position.place = .row := by
  induction body generalizing reader with
  | nil =>
    cases h
    exact hp
  | cons lexeme body ih =>
    obtain ⟨hlexeme, hbody⟩ := List.forall_mem_cons.mp hbody
    obtain ⟨middle, hmiddle, hrest⟩ := bind_eq_ok_iff.mp h
    rcases read_row hp hmiddle with ⟨hbrace, _⟩ | ⟨_, hrow⟩
    · exact absurd hbrace hlexeme
    · exact ih hrow hbody hrest

theorem place_of_inBody (hbody : InBody front) (h : readLexemes front = .ok reader) :
    reader.position.place = .row := by
  obtain ⟨head, body, name, rfl, hhead, hbody⟩ := hbody
  obtain ⟨middle, hmiddle, hrun⟩ := foldlM_append_eq_ok_iff.mp h
  exact run_row (run_layoutHead hhead hmiddle) hbody hrun

end Reader

/-- What stands in front of a reader in a layout. -/
def Position.Follows (front : List (Located Lexeme)) : Position → Prop
  | .layoutName _ _ => Begun front [.word "layout"]
  | .layoutBrace draft => Begun front [.word "layout", .word draft.name]
  | .layoutHeadEnd draft =>
    Begun front [.word "layout", .word draft.name, .symbol '\x7b']
  | .row _ | .afterRows _ => InBody front
  | _ => True

theorem Position.follows_of_place {position : Position} (hp : position.place = .row) :
    position.Follows front ↔ InBody front := by
  cases position with
  | row | afterRows => rfl
  | _ => cases hp

theorem Position.follows_of_draft? {position : Position} {draft : StateDraft}
    (hp : position.draft? = some draft) : position.Follows front := by
  cases position with
  | layoutName | layoutBrace | layoutHeadEnd | row | afterRows => cases hp
  | _ => trivial

namespace Reader

theorem read_top_follows (hrun : readLexemes front = .ok ⟨items, .top⟩)
    (h : read ⟨items, .top⟩ lexeme = .ok next) :
    next.position.Follows (front ++ [lexeme]) := by
  unfold read step readTop at h
  dsimp only at h
  split at h
  · cases h
    trivial
  · cases h
    trivial
  · split at h
    · cases h
    · cases h
      trivial
  · rename_i htoken
    split at h
    · cases h
    · cases h
      have hbegun := (Begun.of_top hrun).concat lexeme
      rw [ofLexeme_eq_word htoken] at hbegun
      exact hbegun
  · cases h
    trivial
  · cases h
  · cases h

/-- Each lexeme of a layout is told from those in front of it. -/
theorem read_follows (hrun : readLexemes front = .ok reader)
    (hf : reader.position.Follows front) (h : reader.read lexeme = .ok next) :
    next.position.Follows (front ++ [lexeme]) := by
  obtain ⟨items, position⟩ := reader
  cases position with
  | top => exact read_top_follows hrun h
  | afterItem =>
    unfold read step readLineEnd at h
    dsimp only at h
    split at h
    · cases h
      trivial
    · cases h
  | sizeRows head =>
    unfold read step readDimension at h
    dsimp only at h
    split at h
    · cases h
      trivial
    · cases h
  | sizeCols head rows =>
    unfold read step readDimension at h
    dsimp only at h
    split at h
    · cases h
      trivial
    · cases h
  | layoutName grid head =>
    obtain ⟨name, hitem, rfl⟩ := read_layoutName h
    have hbegun := Begun.concat hf lexeme
    rw [hitem] at hbegun
    exact hbegun
  | layoutBrace draft =>
    obtain ⟨hitem, rfl⟩ := read_layoutBrace h
    have hbegun := Begun.concat hf lexeme
    rw [hitem] at hbegun
    exact hbegun
  | layoutHeadEnd draft =>
    obtain ⟨hitem, rfl⟩ := read_layoutHeadEnd h
    have hbegun := Begun.concat hf lexeme
    rw [hitem] at hbegun
    exact hbegun.inBody
  | row draft | afterRows draft =>
    rcases read_row rfl h with ⟨_, hnext⟩ | ⟨hitem, hnext⟩
    · rw [hnext]
      trivial
    · exact (Position.follows_of_place hnext).mpr (InBody.concat hf hitem)
  | stateName head =>
    unfold read step readWord at h
    dsimp only at h
    split at h
    · cases h
      trivial
    · cases h
  | _ =>
    cases step_continues rfl h with
    | reading hp _ => exact Position.follows_of_draft? hp
    | complete _ => trivial

theorem run_follows (h : readLexemes front = .ok reader) : reader.position.Follows front := by
  induction front using List.reverseRecOn generalizing reader with
  | nil =>
    cases h
    trivial
  | append_singleton front lexeme ih =>
    obtain ⟨middle, hmiddle, hread⟩ := foldlM_concat_eq_ok_iff.mp h
    exact read_follows hmiddle (ih hmiddle) hread

/-- A reader takes the next lexeme for one of a row exactly if it is in the body of a layout. -/
theorem place_eq_row_iff (h : readLexemes front = .ok reader) :
    reader.position.place = .row ↔ InBody front :=
  ⟨fun hp => (Position.follows_of_place hp).mp (run_follows h),
    fun hbody => place_of_inBody hbody h⟩

end Reader

/-! ### No number is refused as a key -/

/-- Only numbers and ends cannot be keys. -/
theorem cellOf_noKey {token found : Token} (h : cellOf token = .error (.noKey found)) :
    (∃ value, token = .number value) ∨ token.endsLine := by
  cases token with
  | number value => exact Or.inl ⟨value, rfl⟩
  | lineEnd | fileEnd => exact Or.inr rfl
  | word text => cases h
  | quoted text =>
    simp only [cellOf] at h
    split at h
    · cases h
    · cases h
  | symbol c =>
    by_cases hc : c = '*'
    · rw [hc] at h
      cases h
    · simp only [cellOf] at h
      cases h

theorem labelOf_error {token : Token} {fault : Fault} (h : labelOf token = .error fault) :
    fault = .expected .metaLabel token := by
  cases token with
  | symbol c =>
    simp only [labelOf] at h
    split at h
    · cases h
      rfl
    · cases h
  | word text | quoted text | number value => cases h
  | lineEnd | fileEnd =>
    cases h
    rfl

/-- Only a number in a row is refused as a key. -/
theorem Reader.step_noKey {reader : Reader} {line other : Nat} {token found : Token}
    (h : reader.step line token = .error (.parse other (.noKey found))) :
    reader.position.place = .row ∧ ∃ value, token = .number value := by
  obtain ⟨items, position⟩ := reader
  cases position with
  | row draft =>
    refine ⟨rfl, ?_⟩
    unfold step readRow at h
    dsimp only at h
    split at h
    · cases h
    · cases h
    · rename_i hline hfile
      split at h
      · cases h
      · split at h
        · cases h
        · split at h
          · cases h
          · rename_i hcell
            cases h
            rcases cellOf_noKey hcell with hnumber | hends
            · exact hnumber
            · cases token with
              | lineEnd => exact absurd rfl hline
              | fileEnd => exact absurd rfl hfile
              | word | quoted | number | symbol => cases hends
  | top =>
    simp only [step, readTop] at h
    repeat' split at h
    all_goals cases h
  | afterItem =>
    simp only [step, readLineEnd] at h
    repeat' split at h
    all_goals cases h
  | sizeRows head | sizeCols head rows =>
    simp only [step, readDimension] at h
    repeat' split at h
    all_goals cases h
  | layoutName | stateName | layerName | metaTarget => cases readWord_names h
  | layoutBrace | stateBrace | layerColon => cases readSymbol_names h
  | layoutHeadEnd draft =>
    unfold step at h
    dsimp only at h
    split at h
    · rename_i htoken
      rw [htoken] at h
      cases h
    · unfold readLineEnd at h
      split at h <;> cases h
  | afterRows draft => cases readAfterRows_names h
  | stateHeadEnd draft | entries draft | afterEntry draft | layers draft list =>
    simp only [step, readLineEnd, readLayers, readAfterEntry, readEntries] at h
    repeat' split at h
    all_goals cases h
  | metaLabel draft head digits =>
    unfold step at h
    dsimp only at h
    split at h
    · cases h
    · rename_i hlabel
      rw [labelOf_error hlabel] at h
      cases h
  | metaKind draft slot =>
    simp only [step, readMetaKind] at h
    repeat' split at h
    all_goals cases h

theorem declarations_ne_noKey (text : String) (line : Nat) (found : Token) :
    declarations text ≠ .error (.parse line (.noKey found)) := by
  intro h
  rcases declarations_eq_error_iff.mp h with
    ⟨_, lexeme, _, reader, _, _, hfails⟩ | ⟨_, _, hend⟩
  · obtain ⟨hplace, value, hnumber⟩ := Reader.step_noKey hfails
    rw [hplace] at hnumber
    exact Token.ofLexeme_row_ne_number _ value hnumber
  · cases Reader.step_names rfl hend

/-! ### Its message -/

theorem getLast?_toList_append (front : String) {back : String} (hne : back.toList ≠ []) :
    (front ++ back).toList.getLast? = back.toList.getLast? := by
  rw [String.toList_append]
  exact List.getLast?_append_of_ne_nil _ hne

theorem getElem?_toList_append {front : String} (back : String) {index : Nat}
    (h : index < front.toList.length) :
    (front ++ back).toList[index]? = front.toList[index]? := by
  rw [String.toList_append]
  exact List.getElem?_append_left h

theorem getLast?_text (value : Magnitude) :
    ∃ c, value.text.toList.getLast? = some c ∧ c ≠ 't' := by
  cases value with
  | infinite => exact ⟨'f', by decide, by decide⟩
  | finite n =>
    have hdigits := Decimal.isDigits_toString (Magnitude.shortest n (Nat.toDigits 10 n).length)
    cases hlast : (Magnitude.finite n).text.toList.getLast? with
    | none =>
      rw [Magnitude.text, List.getLast?_eq_none_iff] at hlast
      rw [hlast] at hdigits
      cases hdigits
    | some c =>
      refine ⟨c, rfl, ?_⟩
      rintro rfl
      exact absurd (Decimal.isDigit_of_mem hdigits (List.mem_of_getLast? hlast)) (by decide)

theorem getLast?_describe (token : Token) :
    ∃ c, token.describe.toList.getLast? = some c ∧ c ≠ 't' := by
  cases token with
  | word text | symbol c =>
    exact ⟨'\'', getLast?_toList_append _ (by decide), by decide⟩
  | quoted text => exact ⟨'"', getLast?_toList_append _ (by decide), by decide⟩
  | number value =>
    obtain ⟨c, hc, hne⟩ := getLast?_text value
    refine ⟨c, ?_, hne⟩
    rw [← hc]
    refine getLast?_toList_append "number " ?_
    change value.text.toList ≠ []
    intro hnil
    rw [hnil] at hc
    cases hc
  | lineEnd | fileEnd => exact ⟨'e', by decide, by decide⟩

/-- The message about a token that cannot be a key is like no other one. -/
theorem Fault.eq_noKey_of_message {fault : Fault} {found : String}
    (h : fault.message = "Unexpected " ++ found ++ " in layout") :
    ∃ token, fault = .noKey token := by
  have hthird : fault.message.toList[2]? = some 'e' := by
    have hlength : 2 < "Unexpected ".toList.length := by decide
    rw [h, String.append_assoc, getElem?_toList_append _ hlength]
    decide
  have hlast : fault.message.toList.getLast? = some 't' := by
    rw [h, getLast?_toList_append]
    · decide
    · decide
  clear h
  cases fault with
  | noKey token => exact ⟨token, rfl⟩
  | unexpected token =>
    obtain ⟨c, hc, hne⟩ := getLast?_describe token
    unfold Fault.message at hlast
    rw [getLast?_toList_append] at hlast
    · exact absurd (Option.some.inj (hc.symm.trans hlast)) hne
    · change token.describe.toList ≠ []
      intro hnil
      rw [hnil] at hc
      cases hc
  | unexpectedInside token block name =>
    unfold Fault.message at hlast
    rw [getLast?_toList_append] at hlast
    · exact absurd hlast (by decide)
    · decide
  | unknownDirective | expected | tooManyKeys | unknownEntry | unknownMetaKind | outsideGrid =>
    unfold Fault.message at hthird
    simp only [String.append_assoc] at hthird
    rw [getElem?_toList_append] at hthird
    · exact absurd hthird (by decide)
    · decide
  | emptyKeyText | reservedState | latchedExternal => exact absurd hthird (by decide +kernel)

end KeyGrid.Source
