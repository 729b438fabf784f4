import KeyGrid.Number.Decimal
import KeyGrid.Swipe
import KeyGrid.Text.Blank

/-!
# Touches in words

A touch is written as a row, a comma and a column, and if it is a swipe, as a colon
and the swipe's name or number behind them. Blanks around the row and the column
are overlooked.
-/

namespace KeyGrid.CommandLine

/-- A position and the swipe that came with it. -/
structure Touch where
  row : Nat
  col : Nat
  swipe : Swipe
deriving DecidableEq

/-- The name of a swipe on the command line. -/
def swipeWord : Swipe → String
  | .tap => "none"
  | .leftRight => "lr"
  | .upDown => "ud"
  | .altLabel => "alt"

/-- The swipe of a name. -/
def swipeNamed? (word : String) : Option Swipe := Swipe.all.find? (swipeWord · == word)

/-- Why a word is no touch. -/
inductive TouchFault where
  | shape
  | row (fault : Decimal.Fault)
  | column (fault : Decimal.Fault)
  | swipe (word : String) (fault : Decimal.Fault)
  | swipeCode (code : Nat)
deriving DecidableEq

/-- The message about a word that is no touch. -/
def TouchFault.message (word : String) : TouchFault → String
  | .shape => s!"press '{word}' must look like ROW,COL[:SWIPE]"
  | .row fault => s!"bad row in '{word}': {fault.message}"
  | .column fault => s!"bad column in '{word}': {fault.message}"
  | .swipe name fault => s!"unknown swipe '{name}': {fault.message}"
  | .swipeCode code => s!"swipe code {code} is out of range (0-3)"

/-- The parts of a text before and behind the first `separator`. -/
def cut? (separator : Char) : List Char → Option (List Char × List Char)
  | [] => none
  | c :: rest =>
    if c = separator then some ([], rest)
    else (cut? separator rest).map fun parts => (c :: parts.1, parts.2)

/-- Positions are numbers below this. -/
def positionLimit : Nat := UInt64.size

/-- Swipe numbers are read below this, and then looked up. -/
def codeLimit : Nat := UInt8.size

/-- The swipe that a text names or numbers. -/
def readSwipe (text : List Char) : Except TouchFault Swipe :=
  match swipeNamed? (String.ofList text) with
  | some swipe => .ok swipe
  | none =>
    match Decimal.read codeLimit text with
    | .error fault => .error (.swipe (String.ofList text) fault)
    | .ok code =>
      match Swipe.ofCode? code with
      | some swipe => .ok swipe
      | none => .error (.swipeCode code)

/-- The touch at the position that a text gives. -/
def readPosition (text : List Char) (swipe : Swipe) : Except TouchFault Touch :=
  match cut? ',' text with
  | none => .error .shape
  | some (row, col) =>
    match Decimal.read positionLimit (Text.trim row) with
    | .error fault => .error (.row fault)
    | .ok row =>
      match Decimal.read positionLimit (Text.trim col) with
      | .error fault => .error (.column fault)
      | .ok col => .ok ⟨row, col, swipe⟩

/-- The touch that a word describes. -/
def readTouch (word : String) : Except TouchFault Touch :=
  match cut? ':' word.toList with
  | none => readPosition word.toList .tap
  | some (position, swipe) =>
    match readSwipe swipe with
    | .error fault => .error fault
    | .ok swipe => readPosition position swipe

/-- Cutting finds the first separator and loses nothing. -/
theorem cut?_eq_some_iff (separator : Char) (text front back : List Char) :
    cut? separator text = some (front, back) ↔
      text = front ++ separator :: back ∧ separator ∉ front := by
  induction text generalizing front with
  | nil => simp [cut?]
  | cons c rest ih =>
    by_cases h : c = separator
    · subst h
      cases front with
      | nil => simp [cut?]
      | cons d others =>
        constructor
        · simp [cut?]
        · rintro ⟨he, hn⟩
          simp_all
    · cases front with
      | nil => simp [cut?, h]
      | cons d others =>
        simp only [cut?, h, if_false, Option.map_eq_some_iff, Prod.mk.injEq, Prod.exists,
          List.cons.injEq, List.cons_append, List.mem_cons, not_or]
        constructor
        · rintro ⟨a, b, hab, ⟨rfl, rfl⟩, rfl⟩
          exact ⟨⟨rfl, ((ih a).mp hab).1⟩, fun e => h e.symm, ((ih a).mp hab).2⟩
        · rintro ⟨⟨rfl, he⟩, _, hn⟩
          exact ⟨others, back, (ih others).mpr ⟨he, hn⟩, ⟨rfl, rfl⟩, rfl⟩

end KeyGrid.CommandLine
