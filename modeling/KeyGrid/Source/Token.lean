import KeyGrid.Number.Magnitude
import KeyGrid.Source.Lexeme

/-!
# Tokens

What the reader of a file sees. A run of digits is a number in a directive and a
word in a row of keys, where it labels a key; nothing else depends on the place.
-/

namespace KeyGrid.Source

/-- Where in a file a lexeme stands. -/
inductive Place where
  | directive
  | row
deriving DecidableEq

inductive Token where
  | word (text : String)
  | quoted (text : String)
  | number (value : Magnitude)
  | symbol (c : Char)
  | lineEnd
  | fileEnd
deriving DecidableEq

namespace Token

/-- A word as it is understood at a place. -/
def ofWord (place : Place) (text : String) : Token :=
  if place = .directive ∧ Decimal.isDigits text.toList then
    .number (.ofDigits text.toList)
  else .word text

/-- A lexeme as it is understood at a place. -/
def ofLexeme (place : Place) : Lexeme → Token
  | .word text => ofWord place text
  | .quoted text _ => .quoted text
  | .symbol c => .symbol c
  | .lineEnd => .lineEnd

/-- Whether a directive may end here. -/
def endsLine : Token → Bool
  | .lineEnd | .fileEnd => true
  | _ => false

/-- How a token is named in a message. -/
def describe : Token → String
  | .word text => s!"'{text}'"
  | .quoted text => s!"\"{text}\""
  | .number value => s!"number {value.text}"
  | .symbol c => s!"'{c}'"
  | .lineEnd => "end of line"
  | .fileEnd => "end of file"

/-- In a row of keys nothing is a number. -/
theorem ofLexeme_row_ne_number (lexeme : Lexeme) (value : Magnitude) :
    ofLexeme .row lexeme ≠ .number value := by
  cases lexeme <;> simp [ofLexeme, ofWord]

end Token

/-! ### Whole texts -/

/-- The place in force at a token of a given number, when places change before the
tokens of some numbers: the last change that is not behind the token, and a
directive before all of them. -/
def placeAfter (changes : List (Nat × Place)) (index : Nat) : Place :=
  ((changes.filter (·.1 ≤ index)).getLast?.map (·.2)).getD .directive

/-- The tokens of a text with the place of each given by its number, counted from 0.
The last one is the end of the file. -/
def tokens (places : Nat → Place) (text : String) : List (Located Token) :=
  let scanner := scan text.toList
  scanner.lexemes.zipIdx.map
      (fun (lexeme, index) => ⟨lexeme.line, .ofLexeme (places index) lexeme.item⟩) ++
    [⟨scanner.line, .fileEnd⟩]

end KeyGrid.Source
