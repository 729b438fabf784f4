import KeyGrid.CommandLine.Report
import KeyGrid.CommandLine.Touch
import Mathlib.Tactic.SplitIfs

/-!
# Lists of events in words

No two lists of events look the same on a command line. Whatever stands in front of a text that
continues is read off the text from its left, without looking at what follows: a character
between quotes, a quoted text, and an event up to the comma behind it.
-/

namespace KeyGrid

/-- The first separator is found in only one place. -/
theorem separator_cancel {separator : Char} {front behind rest others : List Char}
    (hf : separator ∉ front) (hb : separator ∉ behind)
    (h : front ++ separator :: rest = behind ++ separator :: others) :
    front = behind ∧ rest = others := by
  have hcut := (CommandLine.cut?_eq_some_iff separator _ front rest).mpr ⟨rfl, hf⟩
  rw [h, (CommandLine.cut?_eq_some_iff separator _ behind others).mpr ⟨rfl, hb⟩,
    Option.some.injEq, Prod.mk.injEq] at hcut
  exact ⟨hcut.1.symm, hcut.2.symm⟩

/-! ### Numbers in hexadecimal -/

namespace Text

theorem toDigits_eq_append (n : Nat) :
    Nat.toDigits 16 n =
      (if n < 16 then [] else Nat.toDigits 16 (n / 16)) ++ [Nat.digitChar (n % 16)] := by
  rw [Nat.toDigits_eq_if (by decide)]
  split
  · rename_i hn
    rw [Nat.mod_eq_of_lt hn, List.nil_append]
  · rfl

theorem toDigits_injective {n m : Nat} (h : Nat.toDigits 16 n = Nat.toDigits 16 m) : n = m := by
  induction n using Nat.strongRecOn generalizing m with
  | _ n ih =>
    rw [toDigits_eq_append n, toDigits_eq_append m] at h
    obtain ⟨hfront, hlast⟩ := List.append_inj' h rfl
    have hdigit : ∀ d < 16, ∀ e < 16, Nat.digitChar d = Nat.digitChar e → d = e := by decide
    have hmod : n % 16 = m % 16 :=
      hdigit _ (Nat.mod_lt n (by decide)) _ (Nat.mod_lt m (by decide)) (List.cons.inj hlast).1
    split at hfront
    · split at hfront
      · omega
      · exact absurd hfront.symm Nat.toDigits_ne_nil
    · split at hfront
      · exact absurd hfront Nat.toDigits_ne_nil
      · have hdiv : n / 16 = m / 16 := ih (n / 16) (by omega) hfront
        omega

theorem brace_not_mem_toDigits (n : Nat) : '\x7d' ∉ Nat.toDigits 16 n := by
  induction n using Nat.strongRecOn with
  | _ n ih =>
    have hdigit : ∀ d < 16, '\x7d' ≠ Nat.digitChar d := by decide
    rw [toDigits_eq_append, List.mem_append, List.mem_singleton, not_or]
    refine ⟨?_, hdigit _ (Nat.mod_lt n (by decide))⟩
    split
    · exact List.not_mem_nil
    · exact ih (n / 16) (by omega)

/-! ### Quoted texts -/

/-- The characters that are written as a backslash and a letter, with their letters. -/
def letters : List (Char × Char) :=
  [('\x00', '0'), ('\t', 't'), ('\r', 'r'), ('\n', 'n'), ('\\', '\\'), ('"', '"')]

/-- How a character can be written between quotes. -/
inductive Escape (c : Char) : List Char → Prop
  | plain (hslash : c ≠ '\\') (hquote : c ≠ '"') : Escape c [c]
  | letter {letter : Char} (h : (c, letter) ∈ letters) : Escape c ['\\', letter]
  | code : Escape c (hexCode c)

theorem escape_escape (c : Char) : Escape c (escape c) := by
  unfold escape
  split_ifs with hzero htab hreturn hline hslash hquote hgraphic
  · exact .letter (by rw [hzero]; decide)
  · exact .letter (by rw [htab]; decide)
  · exact .letter (by rw [hreturn]; decide)
  · exact .letter (by rw [hline]; decide)
  · exact .letter (by rw [hslash]; decide)
  · exact .letter (by rw [hquote]; decide)
  · exact .plain hslash hquote
  · exact .code

theorem Escape.cancel {c d : Char} {front behind rest others : List Char} (hc : Escape c front)
    (hd : Escape d behind) (h : front ++ rest = behind ++ others) : c = d ∧ rest = others := by
  -- 'u' is the letter of the numbers, so none of the others may have it
  have hletter : ∀ p ∈ letters, p.2 ≠ 'u' ∧ ∀ q ∈ letters, p.2 = q.2 → p.1 = q.1 := by decide
  cases hc with
  | plain hslash _ =>
    cases hd with
    | plain => exact List.cons.inj h
    | letter => exact absurd (List.cons.inj h).1 hslash
    | code => exact absurd (List.cons.inj h).1 hslash
  | letter hmem =>
    cases hd with
    | plain hslash _ => exact absurd (List.cons.inj h).1.symm hslash
    | letter hother =>
      obtain ⟨hsame, hrest⟩ := List.cons.inj (List.cons.inj h).2
      exact ⟨(hletter _ hmem).2 _ hother hsame, hrest⟩
    | code =>
      exact absurd (List.cons.inj (List.cons.inj h).2).1 (hletter _ hmem).1
  | code =>
    cases hd with
    | plain hslash _ => exact absurd (List.cons.inj h).1.symm hslash
    | letter hother =>
      exact absurd (List.cons.inj (List.cons.inj h).2).1.symm (hletter _ hother).1
    | code =>
      have hdigits : Nat.toDigits 16 c.toNat ++ '\x7d' :: rest =
          Nat.toDigits 16 d.toNat ++ '\x7d' :: others := by
        simpa [hexCode] using h
      obtain ⟨hnumber, hrest⟩ :=
        separator_cancel (brace_not_mem_toDigits _) (brace_not_mem_toDigits _) hdigits
      exact ⟨Char.toNat_inj.mp (toDigits_injective hnumber), hrest⟩

/-- Between quotes, nothing begins with a quote. -/
theorem Escape.ne_quote {c : Char} {front rest others : List Char} (h : Escape c front) :
    front ++ rest ≠ '"' :: others := by
  intro he
  cases h with
  | plain _ hquote => exact hquote (List.cons.inj he).1
  | letter => exact absurd (List.cons.inj he).1 (by decide)
  | code => exact absurd (List.cons.inj he).1 (by decide)

theorem escapes_cancel {text other rest others : List Char}
    (h : text.flatMap escape ++ '"' :: rest = other.flatMap escape ++ '"' :: others) :
    text = other ∧ rest = others := by
  induction text generalizing other with
  | nil =>
    cases other with
    | nil => exact ⟨rfl, (List.cons.inj h).2⟩
    | cons d other =>
      rw [List.flatMap_cons, List.append_assoc] at h
      exact absurd h.symm (escape_escape d).ne_quote
  | cons c text ih =>
    cases other with
    | nil =>
      rw [List.flatMap_cons, List.append_assoc] at h
      exact absurd h (escape_escape c).ne_quote
    | cons d other =>
      simp only [List.flatMap_cons, List.append_assoc] at h
      obtain ⟨rfl, hbehind⟩ := (escape_escape c).cancel (escape_escape d) h
      obtain ⟨rfl, hrest⟩ := ih hbehind
      exact ⟨rfl, hrest⟩

theorem quote_cancel {text other : String} {rest others : List Char}
    (h : (quote text).toList ++ rest = (quote other).toList ++ others) :
    text = other ∧ rest = others := by
  have hbetween : text.toList.flatMap escape ++ '"' :: rest =
      other.toList.flatMap escape ++ '"' :: others := by
    simpa [quote] using h
  obtain ⟨htext, hrest⟩ := escapes_cancel hbetween
  exact ⟨String.toList_inj.mp htext, hrest⟩

end Text

/-! ### Events -/

namespace CommandLine

/-- The events without a text. -/
def wordEvents : List Event := [.redraw, .external] ++ Device.all.map .device

theorem text_or_mem_wordEvents (event : Event) :
    (∃ text, event = .text text) ∨ event ∈ wordEvents := by
  cases event with
  | text text => exact Or.inl ⟨text, rfl⟩
  | device action =>
    exact Or.inr (List.mem_append_right _ (List.mem_map_of_mem (Device.mem_all action)))
  | redraw => exact Or.inr (by decide)
  | external => exact Or.inr (by decide)

theorem eventText_of_mem_wordEvents : ∀ event ∈ wordEvents,
    eventText event ≠ "" ∧ '"' ∉ (eventText event).toList ∧ ',' ∉ (eventText event).toList ∧
      ∀ other ∈ wordEvents, eventText event = eventText other → event = other := by
  decide

/-- A word for an event does not begin as a quoted text does. -/
theorem quote_ne_eventText {event : Event} (h : event ∈ wordEvents) (text : String)
    {rest others : List Char} :
    (Text.quote text).toList ++ rest ≠ (eventText event).toList ++ others := by
  obtain ⟨hne, hquote, _, _⟩ := eventText_of_mem_wordEvents event h
  intro he
  cases hword : (eventText event).toList with
  | nil => exact hne (String.toList_eq_nil_iff.mp hword)
  | cons c word =>
    rw [hword] at he hquote
    have hc : '"' = c := by
      simpa [Text.quote] using congrArg List.head? he
    exact hquote (by rw [hc]; exact List.mem_cons_self ..)

theorem eventText_ne_empty (event : Event) : eventText event ≠ "" := by
  rcases text_or_mem_wordEvents event with ⟨text, rfl⟩ | hevent
  · simp [eventText, Text.quote, ← String.toList_inj]
  · exact (eventText_of_mem_wordEvents event hevent).1

/-- An event is read off up to the comma behind it. -/
theorem eventText_cancel {event other : Event} {rest others : List Char}
    (h : (eventText event).toList ++ ',' :: rest = (eventText other).toList ++ ',' :: others) :
    event = other ∧ rest = others := by
  rcases text_or_mem_wordEvents event with ⟨text, rfl⟩ | hevent
  · rcases text_or_mem_wordEvents other with ⟨otherText, rfl⟩ | hother
    · obtain ⟨rfl, hrest⟩ := Text.quote_cancel h
      exact ⟨rfl, (List.cons.inj hrest).2⟩
    · exact absurd h (quote_ne_eventText hother text)
  · rcases text_or_mem_wordEvents other with ⟨otherText, rfl⟩ | hother
    · exact absurd h.symm (quote_ne_eventText hevent otherText)
    · obtain ⟨_, _, hcomma, hinjective⟩ := eventText_of_mem_wordEvents event hevent
      obtain ⟨_, _, hotherComma, _⟩ := eventText_of_mem_wordEvents other hother
      obtain ⟨hword, hrest⟩ := separator_cancel hcomma hotherComma h
      exact ⟨hinjective other hother (String.toList_inj.mp hword), hrest⟩

/-- An event with a comma and a space behind it. -/
def listed (event : Event) : List Char := (eventText event).toList ++ [',', ' ']

/-- With a separator behind its end, a list is the sequence of its events with one each. -/
theorem eventsText_append (event : Event) (events : List Event) :
    (eventsText (event :: events)).toList ++ [',', ' '] = (event :: events).flatMap listed := by
  induction events generalizing event with
  | nil => simp [eventsText, listed]
  | cons next events ih =>
    -- the separator stands behind the first event, and the claim for the rest behind that
    have htail := ih next
    simp only [eventsText, List.map_cons] at htail ⊢
    rw [String.intercalate_cons_of_ne_nil (List.cons_ne_nil _ _), List.flatMap_cons, ← htail]
    simp [listed]

theorem flatMap_listed_injective {events others : List Event}
    (h : events.flatMap listed = others.flatMap listed) : events = others := by
  induction events generalizing others with
  | nil =>
    cases others with
    | nil => rfl
    | cons other others => simp [listed] at h
  | cons event events ih =>
    cases others with
    | nil => simp [listed] at h
    | cons other others =>
      simp only [List.flatMap_cons, listed, List.append_assoc, List.cons_append] at h
      obtain ⟨rfl, hrest⟩ := eventText_cancel h
      rw [ih (List.cons.inj hrest).2]

theorem eventsText_cons_ne_empty (event : Event) (events : List Event) :
    eventsText (event :: events) ≠ "" := by
  intro h
  have happend := congrArg List.length (eventsText_append event events)
  rw [h, List.flatMap_cons, listed] at happend
  simp only [String.toList_empty, List.nil_append, List.length_append, List.length_cons,
    List.length_nil] at happend
  have hempty : (eventText event).toList = [] := List.length_eq_zero_iff.mp (by omega)
  exact eventText_ne_empty event (String.toList_eq_nil_iff.mp hempty)

/-- Lists of events are told apart by how they are shown. -/
theorem eventsText_eq_iff (events others : List Event) :
    eventsText events = eventsText others ↔ events = others := by
  constructor
  · intro h
    cases events with
    | nil =>
      cases others with
      | nil => rfl
      | cons other others => exact absurd h.symm (eventsText_cons_ne_empty other others)
    | cons event events =>
      cases others with
      | nil => exact absurd h (eventsText_cons_ne_empty event events)
      | cons other others =>
        apply flatMap_listed_injective
        rw [← eventsText_append, ← eventsText_append, h]
  · exact congrArg eventsText

example : eventsText [.text "a\", redraw", .redraw] = "\"a\\\", redraw\", redraw" := by
  decide +kernel

end CommandLine
end KeyGrid
