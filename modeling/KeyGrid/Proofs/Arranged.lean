import KeyGrid.Proofs.Numeral
import KeyGrid.Proofs.Scanned
import KeyGrid.Source.Fault

/-!
# Well-formed declarations

What a layout file can declare, line numbers apart: the texts that can stand in each
place, the rows and cells that a size leaves room for, and the order of sizes and
layouts. Beside it stands what line numbers are like when every row and every entry has
a line of its own.
-/

namespace KeyGrid.Source

/-! ### Texts -/

/-- A word that no directive takes for a number. -/
def IsName (text : String) : Prop := IsWord text ∧ Decimal.isDigits text.toList = false

instance (text : String) : Decidable (IsName text) := inferInstanceAs (Decidable (_ ∧ _))

theorem isWordChar_of_isDigit {c : Char} (h : c.isDigit) : isWordChar c := by
  simp [isWordChar, Char.isAlphanum, h]

theorem isWord_of_isDigits {text : String} (h : Decimal.isDigits text.toList) :
    IsWord text := by
  refine ⟨?_, fun c hc => isWordChar_of_isDigit (Decimal.isDigit_of_mem h hc)⟩
  intro hnil
  rw [hnil] at h
  exact absurd h (by decide)

def Cell.Proper : Cell → Prop
  | .absent => True
  | .text typed => typed ≠ "" ∧ Quotable typed
  | .code name => IsWord name ∧ 2 ≤ name.length

instance : (cell : Cell) → Decidable cell.Proper
  | .absent => inferInstanceAs (Decidable True)
  | .text _ | .code _ => inferInstanceAs (Decidable (_ ∧ _))

/-- A layout that goes by the word of a modifier has to be given one. -/
structure LayerRef.Proper (ref : LayerRef) : Prop where
  name : IsName ref.name
  plain : ref.modifier = .plain → ref.name ≠ "shift" ∧ ref.name ≠ "ctrl"

instance (ref : LayerRef) : Decidable ref.Proper :=
  decidable_of_iff
    (IsName ref.name ∧ (ref.modifier = .plain → ref.name ≠ "shift" ∧ ref.name ≠ "ctrl"))
    ⟨fun h => ⟨h.1, h.2⟩, fun h => ⟨h.name, h.plain⟩⟩

def MetaDecl.Proper : MetaDecl → Prop
  | .dead refs => ∀ ref ∈ refs, ref.Proper
  | .state target | .deadLatch target => IsName target

instance : (change : MetaDecl) → Decidable change.Proper
  | .dead refs => inferInstanceAs (Decidable (∀ ref ∈ refs, ref.Proper))
  | .state target | .deadLatch target => inferInstanceAs (Decidable (IsName target))

def Entry.Proper : Entry → Prop
  | .layers _ refs _ => ∀ ref ∈ refs, ref.Proper
  | .slot digits label change _ =>
    Decimal.isDigits digits.toList ∧ Quotable label ∧ change.Proper

instance : (entry : Entry) → Decidable entry.Proper
  | .layers _ refs _ => inferInstanceAs (Decidable (∀ ref ∈ refs, ref.Proper))
  | .slot .. => inferInstanceAs (Decidable (_ ∧ _ ∧ _))

structure StateDecl.Proper (decl : StateDecl) : Prop where
  name : IsName decl.name
  entries : ∀ entry ∈ decl.entries, entry.Proper

instance (decl : StateDecl) : Decidable decl.Proper :=
  decidable_of_iff (IsName decl.name ∧ ∀ entry ∈ decl.entries, entry.Proper)
    ⟨fun h => ⟨h.1, h.2⟩, fun h => ⟨h.name, h.entries⟩⟩

structure LayoutDecl.Fits (grid : Grid) (decl : LayoutDecl) : Prop where
  name : IsName decl.name
  height : 1 ≤ decl.rows.length ∧ decl.rows.length ≤ grid.rows
  width : ∀ cells ∈ decl.rows, cells.length ≤ grid.cols
  cells : ∀ cells ∈ decl.rows, ∀ written ∈ cells, written.cell.Proper

instance (grid : Grid) (decl : LayoutDecl) : Decidable (decl.Fits grid) :=
  decidable_of_iff
    (IsName decl.name ∧ (1 ≤ decl.rows.length ∧ decl.rows.length ≤ grid.rows) ∧
      (∀ cells ∈ decl.rows, cells.length ≤ grid.cols) ∧
      ∀ cells ∈ decl.rows, ∀ written ∈ cells, written.cell.Proper)
    ⟨fun h => ⟨h.1, h.2.1, h.2.2.1, h.2.2.2⟩, fun h => ⟨h.name, h.height, h.width, h.cells⟩⟩

/-- A size has a number of rows and a number of columns, both in range. -/
def SizeDecl.Allowed (decl : SizeDecl) : Prop :=
  (1 ≤ decl.grid.rows ∧ decl.grid.rows ≤ maxDimension) ∧
    (1 ≤ decl.grid.cols ∧ decl.grid.cols ≤ maxDimension)

instance (decl : SizeDecl) : Decidable decl.Allowed := inferInstanceAs (Decidable (_ ∧ _))

theorem ofWord?_eq_none_iff (word : String) :
    Modifier.ofWord? word = none ↔ word ≠ "shift" ∧ word ≠ "ctrl" := by
  unfold Modifier.ofWord?
  split <;> simp_all

/-! ### Order -/

/-- Every element is what it has to be behind those in front of it. -/
def InTurn {α : Type} (P : List α → α → Prop) (xs : List α) : Prop :=
  ∀ front x back, xs = front ++ x :: back → P front x

namespace InTurn

variable {α : Type} {P Q : List α → α → Prop} {xs : List α}

theorem nil : InTurn P [] := by
  intro front x back h
  cases front <;> cases h

theorem concat (h : InTurn P xs) {x : α} (hx : P xs x) : InTurn P (xs ++ [x]) := by
  intro front y back heq
  cases back using List.reverseRecOn with
  | nil =>
    obtain ⟨rfl, hlast⟩ := List.append_inj' heq rfl
    cases hlast
    exact hx
  | append_singleton back last =>
    rw [← List.cons_append, ← List.append_assoc] at heq
    obtain ⟨rfl, _⟩ := List.append_inj' heq rfl
    exact h front y back rfl

theorem imp (h : InTurn P xs) (hpq : ∀ front x, P front x → Q front x) : InTurn Q xs :=
  fun front x back heq => hpq front x (h front x back heq)

theorem of_append {front back : List α} (h : InTurn P (front ++ back)) : InTurn P front := by
  intro before x after heq
  apply h before x (after ++ back)
  rw [heq, List.append_assoc, List.cons_append]

theorem concat_iff {x : α} : InTurn P (xs ++ [x]) ↔ InTurn P xs ∧ P xs x :=
  ⟨fun h => ⟨h.of_append, h xs x [] rfl⟩, fun h => h.1.concat h.2⟩

theorem pairwise {R : α → α → Prop} (h : InTurn (fun front x => ∀ y ∈ front, R y x) xs) :
    xs.Pairwise R := by
  induction xs using List.reverseRecOn with
  | nil => exact .nil
  | append_singleton xs x ih =>
    rw [List.pairwise_append]
    refine ⟨ih h.of_append, List.pairwise_singleton R x, ?_⟩
    intro y hy z hz
    rw [List.mem_singleton.mp hz]
    exact h xs x [] rfl y hy

end InTurn

/-- The size in force behind declarations. -/
def gridBehind? (items : List Item) : Option Grid := (items.filterMap Item.grid?).getLast?

/-- The declaration can stand behind others: a size behind no layout, a layout behind the
size that it fits. -/
def Item.Arranged (front : List Item) : Item → Prop
  | .size decl => decl.Allowed ∧ layouts front = []
  | .layout decl => ∃ grid, gridBehind? front = some grid ∧ decl.Fits grid
  | .state decl => decl.Proper

instance (front : List Item) : (item : Item) → Decidable (item.Arranged front)
  | .size _ => inferInstanceAs (Decidable (_ ∧ _))
  | .layout decl => inferInstanceAs
    (Decidable (∃ grid, gridBehind? front = some grid ∧ decl.Fits grid))
  | .state decl => inferInstanceAs (Decidable decl.Proper)

def Arranged (items : List Item) : Prop := InTurn (fun front item => item.Arranged front) items

/-- No size stands behind a layout, so the size that a layout fits is the last one. -/
theorem Arranged.gridBehind? {items front back : List Item} {decl : LayoutDecl}
    (h : Arranged items) (heq : items = front ++ .layout decl :: back) :
    (∀ size, .size size ∉ back) ∧ gridBehind? items = gridBehind? front := by
  have hnone : ∀ size, .size size ∉ back := by
    intro size hsize
    obtain ⟨before, after, hback⟩ := List.append_of_mem hsize
    have hsplit : items = (front ++ .layout decl :: before) ++ .size size :: after := by
      rw [heq, hback, List.append_assoc, List.cons_append]
    have hlayouts := (h _ _ _ hsplit).2
    simp [layouts, Item.layout?] at hlayouts
  have hgrids : back.filterMap Item.grid? = [] := by
    rw [List.filterMap_eq_nil_iff]
    intro item hitem
    cases item with
    | size size => exact absurd hitem (hnone size)
    | layout other => rfl
    | state other => rfl
  refine ⟨hnone, ?_⟩
  unfold Source.gridBehind?
  rw [heq, List.filterMap_append, List.filterMap_cons, hgrids]
  simp [Item.grid?]

/-! ### Line numbers -/

def MetaDecl.refs : MetaDecl → List LayerRef
  | .dead refs => refs
  | .state _ | .deadLatch _ => []

def Entry.refs : Entry → List LayerRef
  | .layers _ refs _ => refs
  | .slot _ _ change _ => change.refs

def Entry.line : Entry → Nat
  | .layers _ _ line | .slot _ _ _ line => line

def Item.line : Item → Nat
  | .size decl => decl.line
  | .layout decl => decl.line
  | .state decl => decl.line

/-- The rows stand on the lines behind that of the name. -/
def LayoutDecl.Numbered (decl : LayoutDecl) : Prop :=
  ∀ row cells, decl.rows[row]? = some cells →
    ∀ written ∈ cells, written.line = decl.line + 1 + row

structure StateDecl.Numbered (decl : StateDecl) : Prop where
  below : ∀ entry ∈ decl.entries, decl.line < entry.line
  increasing : decl.entries.Pairwise (·.line < ·.line)
  refs : ∀ entry ∈ decl.entries, ∀ ref ∈ entry.refs, ref.line = entry.line

structure Numbered (items : List Item) : Prop where
  increasing : items.Pairwise (·.line < ·.line)
  layouts : ∀ decl ∈ layouts items, decl.Numbered
  states : ∀ decl ∈ states items, decl.Numbered

theorem mem_layouts {items : List Item} {decl : LayoutDecl} :
    decl ∈ layouts items ↔ .layout decl ∈ items := by
  unfold layouts
  rw [List.mem_filterMap]
  constructor
  · rintro ⟨item, hitem, hdecl⟩
    cases item with
    | size other => cases hdecl
    | layout other =>
      cases hdecl
      exact hitem
    | state other => cases hdecl
  · intro h
    exact ⟨.layout decl, h, rfl⟩

theorem mem_states {items : List Item} {decl : StateDecl} :
    decl ∈ states items ↔ .state decl ∈ items := by
  unfold states
  rw [List.mem_filterMap]
  constructor
  · rintro ⟨item, hitem, hdecl⟩
    cases item with
    | size other => cases hdecl
    | layout other => cases hdecl
    | state other =>
      cases hdecl
      exact hitem
  · intro h
    exact ⟨.state decl, h, rfl⟩

end KeyGrid.Source
