/-!
# Lexemes

A layout file is cut into words, quoted texts, symbols and line ends; blanks and
comments stand between them and mean nothing. The cut is made from left to right,
one character at a time: what has been read so far settles every lexeme that is
already complete. Nothing can go wrong, since a character that belongs nowhere else
is a symbol of its own.
-/

namespace KeyGrid.Source

/-- Something found on a line of the file; lines are counted from 1. -/
structure Located (α : Type) where
  line : Nat
  item : α
deriving DecidableEq

/-- A piece of a file. -/
inductive Lexeme where
  /-- Letters, digits and underscores, as many as stand together. -/
  | word (text : String)
  /-- What stands behind a double quote, up to the next one or to the end of the
  line. -/
  | quoted (text : String) (closed : Bool)
  | symbol (c : Char)
  | lineEnd
deriving DecidableEq

/-! ### Characters -/

/-- A blank inside a line: space, tab, carriage return or form feed. -/
def isGap (c : Char) : Bool := c == ' ' || c == '\t' || c == '\r' || c == '\x0c'

/-- An ASCII letter or digit or an underscore. -/
def isWordChar (c : Char) : Bool := c.isAlphanum || c == '_'

/-! ### Scanning -/

/-- A lexeme begun and not yet complete. Characters are kept in reverse order. -/
inductive Partial where
  | nothing
  | word (letters : List Char)
  | quoted (chars : List Char)
  | comment
deriving DecidableEq

/-- What is known of a file after some of its characters. -/
structure Scanner where
  /-- The line of the next character. -/
  line : Nat
  /-- The complete lexemes, the last one first. -/
  emitted : List (Located Lexeme)
  begun : Partial
deriving DecidableEq

namespace Scanner

/-- Before the first character. -/
def start : Scanner := ⟨1, [], .nothing⟩

/-- One more complete lexeme. -/
def emit (scanner : Scanner) (lexeme : Lexeme) : Scanner where
  line := if lexeme = .lineEnd then scanner.line + 1 else scanner.line
  emitted := ⟨scanner.line, lexeme⟩ :: scanner.emitted
  begun := .nothing

/-- The lexeme that was begun is complete. -/
def settle (scanner : Scanner) : Scanner :=
  match scanner.begun with
  | .nothing => scanner
  | .word letters => scanner.emit (.word (String.ofList letters.reverse))
  | .quoted chars => scanner.emit (.quoted (String.ofList chars.reverse) false)
  | .comment => { scanner with begun := .nothing }

/-- A character where no lexeme has been begun. -/
def opening (scanner : Scanner) (c : Char) : Scanner :=
  if c = '\n' then scanner.emit .lineEnd
  else if isGap c then scanner
  else if c = '#' then { scanner with begun := .comment }
  else if c = '"' then { scanner with begun := .quoted [] }
  else if isWordChar c then { scanner with begun := .word [c] }
  else scanner.emit (.symbol c)

/-- One more character. -/
def read (scanner : Scanner) (c : Char) : Scanner :=
  match scanner.begun with
  | .nothing => scanner.opening c
  | .word letters =>
    if isWordChar c then { scanner with begun := .word (c :: letters) }
    else scanner.settle.opening c
  | .quoted chars =>
    if c = '"' then scanner.emit (.quoted (String.ofList chars.reverse) true)
    else if c = '\n' then scanner.settle.opening c
    else { scanner with begun := .quoted (c :: chars) }
  | .comment => if c = '\n' then scanner.settle.opening c else scanner

/-- The lexemes in order, the last one being complete. -/
def lexemes (scanner : Scanner) : List (Located Lexeme) := scanner.settle.emitted.reverse

end Scanner

/-- The scanner at the end of a text. -/
def scan (text : List Char) : Scanner := text.foldl Scanner.read .start

/-- A text is scanned on from wherever its first part has led. -/
theorem scan_append (front back : List Char) :
    scan (front ++ back) = back.foldl Scanner.read (scan front) :=
  List.foldl_append

/-- After a line end nothing is left incomplete. -/
theorem begun_read_newline (scanner : Scanner) : (scanner.read '\n').begun = .nothing := by
  obtain ⟨line, emitted, begun⟩ := scanner
  cases begun <;> simp [Scanner.read, Scanner.opening, Scanner.settle, Scanner.emit, isWordChar]

end KeyGrid.Source
