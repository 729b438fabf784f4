import KeyGrid.Keyboard.Assembly
import KeyGrid.Source.Declaration
import KeyGrid.Source.Token

/-!
# Faults

What can be wrong with the declarations of a layout file, apart from names that
cannot be looked up, and how each fault is put into words.
-/

namespace KeyGrid.Source

/-- What a declaration needs at some point. -/
inductive Expected where
  | lineEnd
  | symbol (c : Char)
  | layoutName
  | stateName
  | targetState
  | metaLabel
  | metaKind
  /-- The brace behind a layout that has all its rows. -/
  | closingBrace (rows : Nat) (layout : String)
deriving DecidableEq

def Expected.phrase : Expected → String
  | .lineEnd => "end of line"
  | .symbol c => s!"'{c}'"
  | .layoutName => "layout name"
  | .stateName => "state name"
  | .targetState => "target state"
  | .metaLabel => "meta key label"
  | .metaKind => "meta key kind"
  | .closingBrace rows layout => s!"'\x7d' after {rows} rows of layout '{layout}'"

/-- A declaration with a body in braces. -/
inductive Block where
  | layout
  | state
deriving DecidableEq

def Block.word : Block → String
  | .layout => "layout"
  | .state => "state"

/-- Why a text is no layout file, or a declaration is against the rules. -/
inductive Fault where
  | unknownDirective (word : String)
  | unexpected (found : Token)
  | unexpectedInside (found : Token) (block : Block) (name : String)
  | expected (what : Expected) (found : Token)
  | tooManyKeys (row : Nat) (layout : String) (limit : Nat)
  | emptyKeyText
  /-- A token that cannot be a key. -/
  | noKey (found : Token)
  | unknownEntry (word : String)
  | unknownMetaKind (word : String)
  /-- A state has the name of the way out of the keyboard. -/
  | reservedState
  /-- A latched key would lead out of the keyboard. -/
  | latchedExternal
  | outsideGrid (row col : Nat) (grid : Grid)
deriving DecidableEq

def Fault.message : Fault → String
  | .unknownDirective word => s!"Unknown directive '{word}'"
  | .unexpected found => s!"Unexpected {found.describe}"
  | .unexpectedInside found block name =>
    s!"Unexpected {found.describe} in {block.word} '{name}'"
  | .expected what found => s!"Expected {what.phrase}, found {found.describe}"
  | .tooManyKeys row layout limit =>
    s!"Too many keys in row {row} of layout '{layout}' (at most {limit})"
  | .emptyKeyText => "Empty key text"
  | .noKey found => s!"Unexpected {found.describe} in layout"
  | .unknownEntry word => s!"Unknown state entry '{word}'"
  | .unknownMetaKind word => s!"Unknown meta key kind '{word}'"
  | .reservedState => s!"'{externalName}' is reserved and cannot name a state"
  | .latchedExternal => s!"deadlatch cannot target {externalName}"
  | .outsideGrid row col grid => s!"key ({row}, {col}) is outside the {grid.text} grid"

/-- The two numbers of a size. -/
inductive Dimension where
  | rows
  | columns
deriving DecidableEq

def Dimension.word : Dimension → String
  | .rows => "rows"
  | .columns => "columns"

/-- The largest number of rows or columns. -/
def maxDimension : Nat := 64

/-- Why a size is refused. -/
inductive SizeFault where
  | afterLayout
  | noNumber (dimension : Dimension) (found : Token)
  | outOfRange (dimension : Dimension) (value : Magnitude)
deriving DecidableEq

def SizeFault.message : SizeFault → String
  | .afterLayout => "size cannot change after a layout is declared"
  | .noNumber dimension found =>
    s!"expected number of {dimension.word}, found {found.describe}"
  | .outOfRange dimension value =>
    s!"{dimension.word} must be between 1 and {maxDimension}, got {value.text}"

end KeyGrid.Source
