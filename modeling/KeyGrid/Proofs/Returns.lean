import KeyGrid.Proofs.Spacing

/-!
# Carriage returns in front of line ends

A carriage return is a blank, so that most files read the same when one stands in front of
every line end. A quoted text that only the end of its line ends takes the carriage return
in; apart from such texts every lexeme stays as it was.
-/

namespace KeyGrid
namespace Source

/-- The text with a carriage return in front of every line end. -/
def withReturns (text : List Char) : List Char :=
  text.flatMap fun c => if c = '\n' then ['\r', '\n'] else [c]

theorem withReturns_cons {c : Char} (hc : c ≠ '\n') (text : List Char) :
    withReturns (c :: text) = c :: withReturns text := by
  unfold withReturns
  rw [List.flatMap_cons, if_neg hc]
  rfl

theorem count_withReturns (text : List Char) :
    (withReturns text).count '\n' = text.count '\n' := by
  induction text with
  | nil => rfl
  | cons c text ih =>
    by_cases hc : c = '\n'
    · subst hc
      have hcons : withReturns ('\n' :: text) = '\r' :: '\n' :: withReturns text := rfl
      rw [hcons, List.count_cons_of_ne (by decide), List.count_cons_self, ih,
        List.count_cons_self]
    · rw [withReturns_cons hc, List.count_cons_of_ne hc, List.count_cons_of_ne hc, ih]

/-! ### Scanning -/

/-- What becomes of a lexeme when a carriage return stands in front of its line end. -/
def Lexeme.withReturn : Lexeme → Lexeme
  | .quoted text false => .quoted (text.push '\r') false
  | other => other

theorem Lexeme.withReturn_eq_iff (lexeme : Lexeme) :
    lexeme.withReturn = lexeme ↔ lexeme.isUnclosed = false := by
  cases lexeme with
  | word text => simp [withReturn, isUnclosed]
  | symbol c => simp [withReturn, isUnclosed]
  | lineEnd => simp [withReturn, isUnclosed]
  | quoted text closed =>
    cases closed with
    | true => simp [withReturn, isUnclosed]
    | false =>
      have hne : text.push '\r' ≠ text := by
        intro h
        have hlength := congrArg (fun text => text.toList.length) h
        simp at hlength
      simp [withReturn, isUnclosed, hne]

def Located.withReturn (lexeme : Located Lexeme) : Located Lexeme :=
  { lexeme with item := lexeme.item.withReturn }

namespace Scanner

def withReturns (scanner : Scanner) : Scanner :=
  { scanner with emitted := scanner.emitted.map Located.withReturn }

theorem withReturns_emit (scanner : Scanner) {lexeme : Lexeme}
    (h : lexeme.isUnclosed = false) :
    (scanner.emit lexeme).withReturns = scanner.withReturns.emit lexeme := by
  simp only [withReturns, emit, List.map_cons, Located.withReturn,
    (Lexeme.withReturn_eq_iff lexeme).mpr h]

theorem isUnclosed_of_opening {c : Char} {lexeme : Lexeme}
    (h : lexeme = .lineEnd ∨ lexeme = .symbol c) : lexeme.isUnclosed = false := by
  rcases h with rfl | rfl <;> rfl

theorem withReturns_opening (scanner : Scanner) (c : Char) :
    (scanner.opening c).withReturns = scanner.withReturns.opening c := by
  rcases opening_cases c with ⟨lexeme, hl, h⟩ | h | ⟨begun, h⟩
  · rw [h, h, withReturns_emit scanner (isUnclosed_of_opening hl)]
  · rw [h, h]
  · rw [h, h]
    rfl

theorem withReturns_read (scanner : Scanner) {c : Char} (hc : c ≠ '\n') :
    (scanner.read c).withReturns = scanner.withReturns.read c := by
  obtain ⟨line, emitted, begun⟩ := scanner
  cases begun with
  | nothing => exact withReturns_opening _ c
  | word letters =>
    show withReturns (if _ then _ else _) = if _ then _ else _
    split
    · rfl
    · rw [withReturns_opening]
      rfl
  | quoted chars =>
    show withReturns (if _ then _ else if _ then _ else _) = if _ then _ else if _ then _ else _
    simp only [if_neg hc]
    split
    · exact withReturns_emit _ rfl
    · rfl
  | comment =>
    show withReturns (if _ then _ else _) = if _ then _ else _
    simp only [if_neg hc]

theorem withReturns_read_newline (scanner : Scanner) :
    (scanner.read '\n').withReturns = (scanner.withReturns.read '\r').read '\n' := by
  obtain ⟨line, emitted, begun⟩ := scanner
  rw [read_newline, read_newline]
  cases begun with
  | nothing => rfl
  | word letters => rfl
  | quoted chars =>
    have htext : String.ofList ('\r' :: chars).reverse =
        (String.ofList chars.reverse).push '\r' := by
      apply String.toList_injective
      simp
    have hread : (withReturns ⟨line, emitted, .quoted chars⟩).read '\r' =
        ⟨line, emitted.map Located.withReturn, .quoted ('\r' :: chars)⟩ := rfl
    rw [hread, withReturns_emit _ rfl]
    simp only [settle, htext]
    rfl
  | comment => rfl

end Scanner

/-- Scanning goes the same way, with what was complete before changed alike. -/
theorem scan_withReturns (text : List Char) :
    scan (withReturns text) = (scan text).withReturns := by
  unfold scan withReturns
  rw [List.foldl_flatMap]
  show List.foldl _ (Scanner.withReturns .start) text = _
  apply List.foldl_hom
  intro scanner c
  by_cases hc : c = '\n'
  · subst hc
    exact scanner.withReturns_read_newline.symm
  · rw [if_neg hc]
    exact (scanner.withReturns_read hc).symm

/-! ### Lexemes -/

/-- A quoted text is left unclosed at the end of a line. -/
def LeftOpen (text : List Char) : Prop :=
  ∃ lexeme ∈ (scan text).lexemes, lexeme.item.isUnclosed ∧ lexeme.line ≤ text.count '\n'

instance (text : List Char) : Decidable (LeftOpen text) :=
  inferInstanceAs (Decidable (∃ lexeme ∈ (scan text).lexemes, _))

namespace Scanner

section

variable {scanner : Scanner} {found : Located Lexeme} (hu : found.item.isUnclosed)
include hu

theorem mem_of_mem_emit {lexeme : Lexeme} (hl : lexeme.isUnclosed = false)
    (h : found ∈ (scanner.emit lexeme).emitted) : found ∈ scanner.emitted := by
  rcases List.mem_cons.mp h with rfl | h
  · rw [hl] at hu
    cases hu
  · exact h

theorem mem_of_mem_opening {c : Char} (h : found ∈ (scanner.opening c).emitted) :
    found ∈ scanner.emitted := by
  rcases opening_cases c with ⟨lexeme, hl, ho⟩ | ho | ⟨begun, ho⟩
  · rw [ho] at h
    exact mem_of_mem_emit hu (isUnclosed_of_opening hl) h
  · rw [ho] at h
    exact h
  · rw [ho] at h
    exact h

/-- Only a line end completes an unclosed quoted text. -/
theorem mem_of_mem_read {c : Char} (hc : c ≠ '\n') (h : found ∈ (scanner.read c).emitted) :
    found ∈ scanner.emitted := by
  obtain ⟨line, emitted, begun⟩ := scanner
  cases begun with
  | nothing => exact mem_of_mem_opening hu h
  | word letters =>
    replace h : found ∈ Scanner.emitted (if _ then _ else _) := h
    split at h
    · exact h
    · exact mem_of_mem_emit hu rfl (mem_of_mem_opening hu h)
  | quoted chars =>
    replace h : found ∈ Scanner.emitted (if _ then _ else if _ then _ else _) := h
    rw [if_neg hc] at h
    split at h
    · exact mem_of_mem_emit hu rfl h
    · exact h
  | comment =>
    replace h : found ∈ Scanner.emitted (if _ then _ else _) := h
    rw [if_neg hc] at h
    exact h

end

/-- What has been left unclosed stands on a line that has ended. -/
theorem line_le_of_unclosed {text : List Char} {found : Located Lexeme}
    (hu : found.item.isUnclosed) (h : found ∈ (scan text).emitted) :
    found.line ≤ text.count '\n' := by
  induction text using List.reverseRecOn with
  | nil => cases h
  | append_singleton text c ih =>
    rw [scan_append, List.foldl_cons, List.foldl_nil] at h
    rw [List.count_append]
    by_cases hc : c = '\n'
    · subst hc
      rw [read_newline] at h
      have hmem := mem_of_mem_emit hu rfl h
      have hline := ((follows_scan text).settle.1.found found hmem).line.2
      rw [List.count_singleton_self]
      omega
    · exact Nat.le_add_right_of_le (ih (mem_of_mem_read hu hc h))

end Scanner

theorem Located.withReturn_of_closed {lexeme : Located Lexeme}
    (h : lexeme.item.isUnclosed = false) : lexeme.withReturn = lexeme := by
  unfold withReturn
  rw [(Lexeme.withReturn_eq_iff lexeme.item).mpr h]

theorem Located.withReturn_eq_iff (lexeme : Located Lexeme) :
    lexeme.withReturn = lexeme ↔ lexeme.item.isUnclosed = false := by
  refine ⟨fun h => ?_, withReturn_of_closed⟩
  exact (Lexeme.withReturn_eq_iff lexeme.item).mp (congrArg Located.item h)

/-- What a carriage return at the end of each of the first lines makes of a lexeme. -/
def Located.returned (lines : Nat) (lexeme : Located Lexeme) : Located Lexeme :=
  if lexeme.line ≤ lines then lexeme.withReturn else lexeme

/-- Of the lexemes of a text just those that are left unclosed at a line end take the carriage
return in. -/
theorem lexemes_withReturns (text : List Char) :
    (scan (withReturns text)).lexemes =
      (scan text).lexemes.map (Located.returned (text.count '\n')) := by
  have hline := line_scan text
  have hemitted : (scan text).emitted.map Located.withReturn =
      (scan text).emitted.map (Located.returned (text.count '\n')) := by
    apply List.map_congr_left
    intro lexeme hlexeme
    unfold Located.returned
    cases hu : lexeme.item.isUnclosed with
    | true => rw [if_pos (Scanner.line_le_of_unclosed hu hlexeme)]
    | false => rw [Located.withReturn_of_closed hu, ite_self]
  rw [scan_withReturns]
  unfold Scanner.lexemes
  rw [List.map_reverse]
  congr 1
  generalize scan text = scanner at hline hemitted ⊢
  obtain ⟨line, emitted, begun⟩ := scanner
  -- the end of the text may complete one lexeme more, behind the last line end
  cases begun with
  | nothing => exact hemitted
  | comment => exact hemitted
  | word letters =>
    have hword : Located.returned (text.count '\n')
        ⟨line, .word (String.ofList letters.reverse)⟩ =
          ⟨line, .word (String.ofList letters.reverse)⟩ := ite_self _
    show _ :: emitted.map Located.withReturn = (_ :: emitted).map _
    rw [List.map_cons, hword, ← hemitted]
    rfl
  | quoted chars =>
    have hlast : ¬line ≤ text.count '\n' := by
      rw [show line = 1 + text.count '\n' from hline]
      omega
    show _ :: emitted.map Located.withReturn = (_ :: emitted).map _
    rw [List.map_cons, ← hemitted, Located.returned, if_neg hlast]
    rfl

theorem lexemes_withReturns_eq_iff (text : List Char) :
    (scan (withReturns text)).lexemes = (scan text).lexemes ↔ ¬LeftOpen text := by
  have hid : (scan text).lexemes = (scan text).lexemes.map id := (List.map_id _).symm
  rw [lexemes_withReturns]
  nth_rewrite 2 [hid]
  rw [List.map_inj_left]
  unfold LeftOpen
  simp only [not_exists, not_and, id]
  apply forall_congr'
  intro lexeme
  apply imp_congr_right
  intro _
  unfold Located.returned
  by_cases hline : lexeme.line ≤ text.count '\n'
  · rw [if_pos hline, Located.withReturn_eq_iff]
    simp [hline]
  · simp [hline]

end Source

open Source

namespace Keyboard

theorem withoutMark_withReturns (text : String) :
    withoutMark (String.ofList (withReturns text.toList)) =
      String.ofList (withReturns (withoutMark text).toList) := by
  cases hlist : text.toList with
  | nil =>
    have htext : text = "" := String.toList_eq_nil_iff.mp hlist
    rw [htext]
    rfl
  | cons c rest =>
    by_cases hc : c = byteOrderMark
    · subst hc
      have hrest : withoutMark text = String.ofList rest := by
        have hcons := withoutMark_cons (String.ofList rest)
        rw [String.toList_ofList, ← hlist, String.ofList_toList] at hcons
        exact hcons
      have hwide := withoutMark_cons (String.ofList (withReturns rest))
      rw [String.toList_ofList] at hwide
      rw [withReturns_cons (by decide), hwide, hrest, String.toList_ofList]
    · have hsame : withoutMark text = text := by
        apply withoutMark_of_head?
        rw [hlist]
        exact fun h => hc (Option.some.inj h)
      rw [hsame, hlist]
      apply withoutMark_of_head?
      rw [String.toList_ofList]
      by_cases hnewline : c = '\n'
      · subst hnewline
        intro h
        exact absurd (Option.some.inj h) (by decide)
      · rw [withReturns_cons hnewline]
        exact fun h => hc (Option.some.inj h)

end Keyboard

/-- A carriage return in front of every line end. Every quoted text that is left unclosed at
a line end takes it in and no other lexeme does, so that the lexemes are the same exactly if
no quoted text is left unclosed there; and then a file describes the same as before. -/
theorem ofSource_withReturns {text : String} {body : List Char}
    (hbody : (Keyboard.withoutMark text).toList = body) :
    (scan (withReturns body)).lexemes =
      (scan body).lexemes.map (Located.returned (body.count '\n')) ∧
    ((scan (withReturns body)).lexemes = (scan body).lexemes ↔ ¬LeftOpen body) ∧
    (¬LeftOpen body →
      Keyboard.ofSource (String.ofList (withReturns text.toList)) = Keyboard.ofSource text) := by
  refine ⟨lexemes_withReturns body, lexemes_withReturns_eq_iff body, ?_⟩
  intro hclosed
  subst hbody
  have hdeclarations : declarations
      (String.ofList (withReturns (Keyboard.withoutMark text).toList)) =
        declarations (Keyboard.withoutMark text) := by
    apply declarations_congr
    · rw [String.toList_ofList]
      exact (lexemes_withReturns_eq_iff _).mpr hclosed
    · rw [String.toList_ofList, line_scan, line_scan, count_withReturns]
  unfold Keyboard.ofSource
  rw [Keyboard.withoutMark_withReturns, hdeclarations]

/-- The quotes in the comments open nothing. -/
def closedSource : String :=
  "size 1 2 # \"\nlayout a \x7b\n\"#\" S0\n\x7d\nstate main \x7b\n  S0 x state main\n\x7d\n# \"\n"

theorem closed_withReturns :
    (Keyboard.ofSource closedSource).toOption.isSome ∧
      withReturns closedSource.toList ≠ closedSource.toList ∧
      Keyboard.ofSource (String.ofList (withReturns closedSource.toList)) =
        Keyboard.ofSource closedSource := by
  have hclosed : ¬LeftOpen (Keyboard.withoutMark closedSource).toList := by decide +kernel
  exact ⟨by decide +kernel, by decide +kernel, (ofSource_withReturns rfl).2.2 hclosed⟩

/-- A key whose text is left unclosed. -/
def unclosedSource : String :=
  "size 1 1\nlayout base \x7b\n\"b\n\x7d\nstate main \x7b\n  layout base\n\x7d\n"

/-- With a carriage return in front of its line end the key types another text. -/
theorem unclosed_takes_return :
    '\r' ∉ unclosedSource.toList ∧
      (Keyboard.ofSource unclosedSource).toOption.bind (·.resolve [⟨0, .plain⟩] 0 0) =
        some (.ofText "b") ∧
      (Keyboard.ofSource (String.ofList (withReturns unclosedSource.toList))).toOption.bind
        (·.resolve [⟨0, .plain⟩] 0 0) = some (.ofText "b\r") ∧
      Keyboard.ofSource (String.ofList (withReturns unclosedSource.toList)) ≠
        Keyboard.ofSource unclosedSource := by
  have hplain : (Keyboard.ofSource unclosedSource).toOption.bind
      (·.resolve [⟨0, .plain⟩] 0 0) = some (.ofText "b") := by decide +kernel
  have hreturned : (Keyboard.ofSource
      (String.ofList (withReturns unclosedSource.toList))).toOption.bind
        (·.resolve [⟨0, .plain⟩] 0 0) = some (.ofText "b\r") := by decide +kernel
  refine ⟨by decide +kernel, hplain, hreturned, ?_⟩
  intro hsame
  rw [hsame, hplain] at hreturned
  exact absurd hreturned (by decide)

end KeyGrid
